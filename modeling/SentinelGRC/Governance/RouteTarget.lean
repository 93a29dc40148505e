import SentinelGRC.Governance.HttpApplication
import SentinelGRC.Python.Join

/-!
The target of a request to `/findings/<id>/<action>`. The route puts the id into the fields of
the request and the body is put over them, so the call that reaches the core is on the
finding of the body wherever the body names one.
-/

namespace SentinelGRC.Governance

open Python Json

variable {F : Type}

/-! ### Routes -/

theorem stripSlashes_cons_append {rest : Text} {c : CodePoint} (hc : isSlash c = false) {last : CodePoint}
    (hlast : isSlash last = false) :
    stripSlashes (ofChar '/' :: c :: (rest ++ [last])) = c :: (rest ++ [last]) := by
  rw [stripSlashes, List.dropWhile_cons_of_pos (by decide), List.dropWhile_cons_of_neg (by simp [hc]),
    ← List.cons_append, List.rdropWhile_concat_neg _ _ _ (by simp [hlast])]

/-- The path of an action on a finding. -/
def findingPath (findingId action : Text) : Text :=
  findingPathPrefix ++ findingId ++ ofChar '/' :: action

theorem prefix_findingPath (findingId action : Text) :
    findingPathPrefix <+: findingPath findingId action := by
  rw [findingPath, List.append_assoc]
  exact List.prefix_append _ _

theorem not_prefix_findingPath (findingId action : Text) :
    ¬ governanceApiPrefix <+: findingPath findingId action := by
  rintro ⟨rest, h⟩
  have hsame := congrArg (List.take 2) h
  have hleft : (governanceApiPrefix ++ rest).take 2 = lit "/v" := rfl
  have hright : (findingPath findingId action).take 2 = lit "/f" := rfl
  rw [hleft, hright] at hsame
  revert hsame
  decide

theorem resolveRoute_findingPath (findingId action : Text) :
    resolveRoute (F := F) (lit "POST") (findingPath findingId action) =
      match (stripSlashes (findingPath findingId action)).splitOn (ofChar '/') with
      | [_, findingId, action] => some (action, [(lit "finding_id", .str findingId)])
      | _ => none := by
  have hmethod : lit "POST" ≠ lit "GET" := by decide
  unfold resolveRoute
  rw [if_neg fun h => hmethod h.1, if_neg fun h => hmethod h.1,
    if_neg fun h => not_prefix_findingPath _ _ h.2]
  exact if_pos ⟨rfl, prefix_findingPath _ _⟩

theorem resolveRoute_of_ne_nil {findingId action : Text} (hid : ofChar '/' ∉ findingId)
    (haction : ofChar '/' ∉ action) (hne : action ≠ []) :
    resolveRoute (F := F) (lit "POST") (findingPath findingId action) =
      some (action, [(lit "finding_id", .str findingId)]) := by
  have hstrip : stripSlashes (findingPath findingId action) =
      List.intercalate [ofChar '/'] [lit "findings", findingId, action] := by
    obtain ⟨front, last, rfl⟩ := List.eq_nil_or_concat' action |>.resolve_left hne
    have hlast : isSlash last = false := by
      rw [isSlash, decide_eq_false_iff_not]
      rintro rfl
      exact haction (by simp)
    have hshape : findingPath findingId (front ++ [last]) = ofChar '/' :: ofChar 'f' ::
        ((lit "indings/" ++ findingId ++ ofChar '/' :: front) ++ [last]) := by
      simp [findingPath, findingPathPrefix, lit]
    rw [hshape, stripSlashes_cons_append (by decide) hlast]
    simp [List.intercalate_cons_cons, lit]
  have hsplit : (List.intercalate [ofChar '/'] [lit "findings", findingId, action]).splitOn
      (ofChar '/') = pieces (ofChar '/') [lit "findings", findingId, action] :=
    splitOn_intercalate_eq_pieces (List.cons_ne_nil _ _)
  rw [pieces_of_not_mem] at hsplit
  · rw [resolveRoute_findingPath, hstrip, hsplit]
  · simp only [List.mem_cons, List.not_mem_nil, or_false, forall_eq_or_imp, forall_eq]
    exact ⟨by decide, hid, haction⟩

/-- Without an action the path has two parts. -/
theorem resolveRoute_nil {findingId : Text} (hid : ofChar '/' ∉ findingId) :
    resolveRoute (F := F) (lit "POST") (findingPath findingId []) = none := by
  have hstrip : stripSlashes (findingPath findingId []) <+: lit "findings/" ++ findingId := by
    have hshape : findingPath findingId [] =
        ofChar '/' :: ofChar 'f' :: ((lit "indings/" ++ findingId) ++ [ofChar '/']) := by
      simp [findingPath, findingPathPrefix, lit]
    rw [hshape, stripSlashes, List.dropWhile_cons_of_pos (by decide),
      List.dropWhile_cons_of_neg (by decide), ← List.cons_append,
      List.rdropWhile_concat_pos _ _ _ (by decide)]
    exact List.rdropWhile_prefix _ _
  have hcount := hstrip.sublist.count_le (ofChar '/')
  rw [List.count_append, List.count_eq_zero_of_not_mem hid] at hcount
  have hlength : ((stripSlashes (findingPath findingId [])).splitOn (ofChar '/')).length =
      (stripSlashes (findingPath findingId [])).count (ofChar '/') + 1 := length_splitOn _
  have hslash : (lit "findings/").count (ofChar '/') = 1 := by decide
  rw [resolveRoute_findingPath]
  split
  · rename_i first second third hparts
    rw [hparts] at hlength
    simp only [List.length_cons, List.length_nil] at hlength
    omega
  · rfl

/-! ### Bodies -/

variable [PyFloat F]

/-- A body that was read: its keys are distinct and `str` prints its values. -/
theorem decodeBody_eq_ok {body : Bytes} {fields : Fields F} (h : decodeBody body = .ok fields) :
    (fields.map Prod.fst).Nodup ∧ Printable (.obj fields) := by
  obtain ⟨text, -, h⟩ := bind_eq_ok.mp h
  obtain ⟨parsed, hparsed, h⟩ := bind_eq_ok.mp h
  cases parsed with
  | obj fs =>
    cases h
    exact ⟨(distinct_obj.mp (distinct_of_loads hparsed)).1, printable_of_loads hparsed⟩
  | null | bool | int | float | str | arr => cases h

omit [PyFloat F] in
theorem printable_of_field {fs : Fields F} (h : Printable (.obj fs)) {name : Text} {v : Json F}
    (hv : field name fs = some v) : Printable v := by
  have hfields : ∀ f ∈ fs, Printable f.2 := by
    rw [Printable, all, Bool.and_eq_true, allFields_eq_all, List.all_eq_true] at h
    intro f hf
    rw [Printable, ← allField_eq]
    exact h.2 f hf
  clear h
  induction fs with
  | nil => cases hv
  | cons f fs ih =>
    rw [field] at hv
    split_ifs at hv with hname
    · cases hv
      exact hfields f List.mem_cons_self
    · exact ih hv fun g hg => hfields g (List.mem_cons_of_mem f hg)

theorem pyStr_eq_ok {U : UnicodeTables} {v : Json F} (h : Printable v) {t : Text} :
    v.pyStr U = .ok t ↔ t = v.strText U := by
  rw [pyStr, if_pos h]
  exact ⟨fun he => (Except.ok.inj he).symm, fun he => he ▸ rfl⟩

omit [PyFloat F] in
/-- The fields of a request to a path with an id. -/
theorem field_payload {fields : Fields F} (hd : (fields.map Prod.fst).Nodup) (findingId name : Text) :
    field name (update [(lit "finding_id", .str findingId)] fields) =
      (field name fields).or (if lit "finding_id" = name then some (.str findingId) else none) :=
  field_update name _ hd

/-! ### Dispatching -/

/-- The fields that the branch of an action reads with `body[name]`. -/
def ApiAction.required : ApiAction → List Text
  | .create => [lit "control_id", lit "asset_id", lit "title", lit "risk_owner", lit "severity"]
  | .assess => [lit "likelihood", lit "impact"]
  | .propose => [lit "treatment_type", lit "reason", lit "action_owner"]
  | .approve => [lit "decision"]
  | .start => [lit "implementer"]
  | .evidence => [lit "source", lit "content"]
  | .verify => [lit "passed"]
  | .list | .get | .close | .report => []

/-- A body that passes the checks of `dispatch_actor`. -/
structure ApiAction.Accepts (action : ApiAction) (body : Fields F) : Prop where
  anonymous : ∀ name ∈ forbiddenActorFields, field name body = none
  required : ∀ name ∈ action.required, (field name body).isSome
  passed : action = .verify → ∃ b, field (lit "passed") body = some (.bool b)

/-- The finding that an id names to an action: `create_finding` strips it, and two actions
read all findings. -/
def ApiAction.finding? (findingId : Text) : ApiAction → Option Text
  | .list | .report => none
  | .create => some (strip findingId)
  | _ => some findingId

theorem exists_bind_eq_ok {α β : Type} {x : Except PyError α} {f : α → Except PyError β} :
    (∃ b, (x >>= f) = .ok b) ↔ ∃ a, x = .ok a ∧ ∃ b, f a = .ok b := by
  constructor
  · rintro ⟨b, hb⟩
    obtain ⟨a, ha, hb⟩ := bind_eq_ok.mp hb
    exact ⟨a, ha, b, hb⟩
  · rintro ⟨a, ha, b, hb⟩
    exact ⟨b, bind_eq_ok.mpr ⟨a, ha, hb⟩⟩

theorem exists_pure_eq_ok {α : Type} (a : α) : ∃ b, (pure a : Except PyError α) = .ok b := ⟨a, rfl⟩

section Calls

variable {U : UnicodeTables} {actor : ActorContext} {body : Fields F} {findingId : Text}

theorem requiredField_isSome (hp : Printable (.obj body)) (name : Text) :
    (∃ t, requiredField U body name = .ok t) ↔ (field name body).isSome = true := by
  unfold requiredField
  cases hv : field name body with
  | none => simp
  | some v => simp [pyStr_eq_ok (printable_of_field hp hv)]

theorem optionalField_eq_ok (hp : Printable (.obj body)) (name : Text) {t : Text} :
    optionalField U body name = .ok t ↔ t = ((field name body).getD (.str [])).strText U := by
  refine pyStr_eq_ok ?_
  cases hv : field name body with
  | none => rfl
  | some v => exact printable_of_field hp hv

theorem ApiAction.call_isOk (hp : Printable (.obj body)) (action : ApiAction) :
    (∃ call, action.call U actor body findingId = .ok call) ↔
      (∀ name ∈ action.required, (field name body).isSome) ∧
        (action = .verify → ∃ b, field (lit "passed") body = some (.bool b)) := by
  have hoptional (name : Text) : ∃ t, optionalField U body name = .ok t :=
    ⟨_, (optionalField_eq_ok hp name).mpr rfl⟩
  cases action with
  | list | get | report => simp [call, required]
  | close => simp only [call, required, exists_bind_eq_ok, exists_pure_eq_ok, and_true, hoptional,
      List.not_mem_nil, false_implies, implies_true, reduceCtorEq]
  | verify =>
    simp only [call, required, List.mem_singleton, forall_eq, forall_const]
    cases hv : field (lit "passed") body with
    | none => simp
    | some v =>
      cases v with
      | bool b =>
        simp only [exists_bind_eq_ok, exists_pure_eq_ok, and_true, hoptional]
        simp
      | null | int | float | str | arr | obj => simp
  | create | assess | propose | approve | start | evidence =>
    simp only [call, required, exists_bind_eq_ok, exists_pure_eq_ok, exists_and_right,
      requiredField_isSome hp, hoptional, List.mem_cons, List.not_mem_nil, or_false, forall_eq_or_imp,
      forall_eq, reduceCtorEq, false_implies, and_true]

theorem ApiAction.finding?_of_call (action : ApiAction) :
    Returns (fun call => call.finding? = action.finding? findingId)
      (action.call U actor body findingId) := by
  cases action with
  | list | get | report => exact returns_ok rfl
  | create =>
    exact .bind fun _ _ => .bind fun _ _ => .bind fun _ _ => .bind fun _ _ => .bind fun _ _ =>
      returns_ok rfl
  | assess | evidence => exact .bind fun _ _ => .bind fun _ _ => returns_ok rfl
  | propose => exact .bind fun _ _ => .bind fun _ _ => .bind fun _ _ => returns_ok rfl
  | approve => exact .bind fun _ _ => .bind fun _ _ => returns_ok rfl
  | start | close => exact .bind fun _ _ => returns_ok rfl
  | verify =>
    simp only [call]
    split
    · exact returns_error _
    · exact .bind fun _ _ => returns_ok rfl
    · exact returns_error _

theorem dispatchActor_isOk (hp : Printable (.obj body)) (action : Text) :
    (∃ call, dispatchActor U action actor body = .ok call) ↔
      ∃ a, ApiAction.ofText? action = some a ∧ a.Accepts body := by
  have hanonymous : (forbiddenActorFields.any fun name => (field name body).isSome) = false ↔
      ∀ name ∈ forbiddenActorFields, field name body = none := by
    simp [List.any_eq_false]
  rw [dispatchActor]
  split_ifs with hforbidden
  · constructor
    · rintro ⟨call, ⟨⟩⟩
    · rintro ⟨a, -, ha⟩
      rw [hanonymous.mpr ha.anonymous] at hforbidden
      cases hforbidden
  · rw [Bool.not_eq_true, hanonymous] at hforbidden
    rw [exists_bind_eq_ok]
    simp only [optionalField_eq_ok hp, exists_eq_left]
    cases ApiAction.ofText? action with
    | none => simp
    | some a =>
      simp only [a.call_isOk hp, Option.some.injEq, exists_eq_left']
      exact ⟨fun h => ⟨hforbidden, h.1, h.2⟩, fun h => ⟨h.required, h.passed⟩⟩

theorem finding?_of_dispatchActor (hp : Printable (.obj body)) (action : Text) :
    Returns (fun call => ∃ a, ApiAction.ofText? action = some a ∧ call.finding? =
        a.finding? (((field (lit "finding_id") body).getD (.str [])).strText U))
      (dispatchActor U action actor body) := by
  rw [dispatchActor]
  split_ifs
  · exact returns_error _
  · refine .bind fun findingId hfinding => ?_
    rw [optionalField_eq_ok hp] at hfinding
    subst hfinding
    split
    · rename_i a ha
      intro call hcall
      exact ⟨a, ha, a.finding?_of_call call hcall⟩
    · exact returns_error _

end Calls

/-! ### Requests -/

/-- The finding that an id names to an action that reads one: `create_finding` strips it. -/
def namedFinding (action findingId : Text) : Text :=
  if action = lit "create" then strip findingId else findingId

omit [PyFloat F] in
theorem finding?_eq_named {action findingId : Text} {a : ApiAction} (h : ApiAction.ofText? action = some a) :
    a.finding? findingId =
      if a = .list ∨ a = .report then none else some (namedFinding action findingId) := by
  have htext : a.text = action := by simpa using List.find?_some h
  subst htext
  cases a <;> rfl

section Handle

variable {app : Application F} {r : Request} {findingId action token : Text} {actor : ActorContext}
  {fields : Fields F}

/-- The fields that the route and the body of a request make. -/
def payload (findingId : Text) (fields : Fields F) : Fields F :=
  update [(lit "finding_id", .str findingId)] fields

omit [PyFloat F] in
theorem publicResponse_post (app : Application F) (path : Text) :
    app.publicResponse (lit "POST") path = none := by
  have hmethod : lit "POST" ≠ lit "GET" := by decide
  rw [Application.publicResponse, if_neg fun h => hmethod h.1, if_neg fun h => hmethod h.1]

theorem rejectUnknownRoute_findingPath (findingId action : Text) :
    rejectUnknownRoute (lit "POST") (findingPath findingId action) = false := by
  have hmethod : lit "POST" ≠ lit "GET" := by decide
  simp [rejectUnknownRoute, hmethod, prefix_findingPath]

omit [PyFloat F] in
theorem mem_calls_respond {outcome : Except Raised (CoreCall F)} {call : CoreCall F} :
    call ∈ (app.respond outcome).calls ↔ outcome = .ok call := by
  cases outcome with
  | error e => simp [Application.respond]
  | ok last => simp [Application.respond, eq_comm]

omit [PyFloat F] in
theorem mapError_eq_ok {ε ε' α : Type} {g : ε → ε'} {x : Except ε α} {a : α} :
    x.mapError g = .ok a ↔ x = .ok a := by
  cases x with
  | error e => simp [Except.mapError]
  | ok b => simp [Except.mapError]

theorem request_eq_ok (hactor : app.authenticate r.headers token = .ok actor)
    (hbody : decodeBody r.body = .ok fields) {call : CoreCall F} :
    app.request (lit "POST") r.headers r.body token action [(lit "finding_id", .str findingId)] =
      .ok call ↔
    dispatchActor app.tables.toUnicodeTables action actor (payload findingId fields) = .ok call := by
  rw [Application.request, if_pos rfl, hbody, hactor]
  exact mapError_eq_ok

theorem dispatchActor_nil_ne_ok {U : UnicodeTables} {body : Fields F} {call : CoreCall F} :
    dispatchActor U [] actor body ≠ .ok call := by
  intro h
  rw [dispatchActor] at h
  split_ifs at h
  obtain ⟨t, -, h⟩ := bind_eq_ok.mp h
  cases h

/-- The calls that are made for a request to the path of an action. -/
theorem calls_handle (hmethod : app.tables.upper r.method = lit "POST")
    (hpath : r.path = findingPath findingId action) (hid : ofChar '/' ∉ findingId)
    (haction : ofChar '/' ∉ action) (hbearer : bearer? app.tables r.headers = some token)
    (hactor : app.authenticate r.headers token = .ok actor) (hbody : decodeBody r.body = .ok fields)
    {call : CoreCall F} : call ∈ (app.handle r).calls ↔ r.body.length ≤ maxRequestBodyBytes ∧
      dispatchActor app.tables.toUnicodeTables action actor (payload findingId fields) = .ok call := by
  rw [Application.handle]
  by_cases hsize : maxRequestBodyBytes < r.body.length
  · rw [if_pos hsize]
    simp [refused, Nat.not_le.mpr hsize]
  · rw [if_neg hsize]
    simp only [hmethod, hpath, publicResponse_post, rejectUnknownRoute_findingPath, hbearer,
      Nat.not_lt.mp hsize, true_and, Bool.false_eq_true, if_false]
    by_cases hne : action = []
    · subst hne
      simp [resolveRoute_nil hid, refused, dispatchActor_nil_ne_ok]
    · rw [resolveRoute_of_ne_nil hid haction hne]
      exact mem_calls_respond.trans (request_eq_ok hactor hbody)

omit [PyFloat F] in
theorem field_payload_finding {fields : Fields F} (hd : (fields.map Prod.fst).Nodup)
    (findingId : Text) : field (lit "finding_id") (payload findingId fields) =
      some ((field (lit "finding_id") fields).getD (.str findingId)) := by
  rw [payload, field_payload hd, if_pos rfl]
  cases field (lit "finding_id") fields <;> rfl

omit [PyFloat F] in
theorem field_payload_other {fields : Fields F} (hd : (fields.map Prod.fst).Nodup)
    (findingId : Text) {name : Text} (hname : lit "finding_id" ≠ name) :
    field name (payload findingId fields) = field name fields := by
  rw [payload, field_payload hd, if_neg hname, Option.or_none]

omit [PyFloat F] in
/-- The route adds no field that the dispatcher checks. -/
theorem accepts_payload (hd : (fields.map Prod.fst).Nodup) (findingId : Text) (a : ApiAction) :
    a.Accepts (payload findingId fields) ↔ a.Accepts fields := by
  have hanonymous : ∀ name ∈ forbiddenActorFields, lit "finding_id" ≠ name := by decide
  have hrequired : ∀ name ∈ a.required, lit "finding_id" ≠ name := by cases a <;> decide
  have hpassed : lit "finding_id" ≠ lit "passed" := by decide
  constructor
  · intro h
    refine ⟨fun name hname => ?_, fun name hname => ?_, fun ha => ?_⟩
    · rw [← field_payload_other hd findingId (hanonymous name hname)]
      exact h.anonymous name hname
    · rw [← field_payload_other hd findingId (hrequired name hname)]
      exact h.required name hname
    · rw [← field_payload_other hd findingId hpassed]
      exact h.passed ha
  · intro h
    refine ⟨fun name hname => ?_, fun name hname => ?_, fun ha => ?_⟩
    · rw [field_payload_other hd findingId (hanonymous name hname)]
      exact h.anonymous name hname
    · rw [field_payload_other hd findingId (hrequired name hname)]
      exact h.required name hname
    · rw [field_payload_other hd findingId hpassed]
      exact h.passed ha

/-- The calls for a request are on the finding that the path names, unless the request reaches
the core with an action on all findings or with a body that names another finding. -/
theorem route_decides_target_iff (hmethod : app.tables.upper r.method = lit "POST")
    (hpath : r.path = findingPath findingId action) (hid : ofChar '/' ∉ findingId)
    (haction : ofChar '/' ∉ action) (hbearer : bearer? app.tables r.headers = some token)
    (hactor : app.authenticate r.headers token = .ok actor) (hbody : decodeBody r.body = .ok fields) :
    (∀ call ∈ (app.handle r).calls, call.finding? = some (namedFinding action findingId)) ↔
      ∀ a, ApiAction.ofText? action = some a → a.Accepts fields →
        r.body.length ≤ maxRequestBodyBytes → ¬ (a = .list ∨ a = .report) ∧
          ∀ v, field (lit "finding_id") fields = some v →
            namedFinding action (v.strText app.tables.toUnicodeTables) = namedFinding action findingId := by
  obtain ⟨hd, hp⟩ := decodeBody_eq_ok hbody
  have hpayload : Printable (.obj (payload findingId fields)) := by
    rw [Printable, all, Bool.and_eq_true] at hp ⊢
    exact ⟨rfl, allFields_update rfl hp.2⟩
  -- the id that the dispatcher reads
  have hread : ((field (lit "finding_id") (payload findingId fields)).getD (.str [])).strText
      app.tables.toUnicodeTables = ((field (lit "finding_id") fields).getD (.str findingId)).strText
        app.tables.toUnicodeTables := by
    rw [field_payload_finding hd]
    rfl
  have hagree : (∀ v, field (lit "finding_id") fields = some v →
      namedFinding action (v.strText app.tables.toUnicodeTables) = namedFinding action findingId) ↔
      namedFinding action (((field (lit "finding_id") fields).getD (.str findingId)).strText
        app.tables.toUnicodeTables) = namedFinding action findingId := by
    cases field (lit "finding_id") fields with
    | none => simp
    | some v => simp
  constructor
  · intro h a ha haccepts hsize
    have hok : ∃ call, dispatchActor app.tables.toUnicodeTables action actor
        (payload findingId fields) = .ok call :=
      (dispatchActor_isOk hpayload action).mpr ⟨a, ha, (accepts_payload hd findingId a).mpr haccepts⟩
    obtain ⟨call, hcall⟩ := hok
    have htarget := h call ((calls_handle hmethod hpath hid haction hbearer hactor hbody).mpr
      ⟨hsize, hcall⟩)
    obtain ⟨b, hb, hfinding⟩ := finding?_of_dispatchActor hpayload action call hcall
    obtain rfl := Option.some.inj (ha.symm.trans hb)
    rw [htarget, hread, finding?_eq_named ha] at hfinding
    split_ifs at hfinding with hall
    exact ⟨hall, hagree.mpr (Option.some.inj hfinding).symm⟩
  · intro h call hcall
    obtain ⟨hsize, hcall⟩ := (calls_handle hmethod hpath hid haction hbearer hactor hbody).mp hcall
    obtain ⟨a, ha, haccepts⟩ := (dispatchActor_isOk hpayload action).mp ⟨call, hcall⟩
    obtain ⟨hall, hsame⟩ := h a ha ((accepts_payload hd findingId a).mp haccepts) hsize
    obtain ⟨b, hb, hfinding⟩ := finding?_of_dispatchActor hpayload action call hcall
    obtain rfl := Option.some.inj (ha.symm.trans hb)
    rw [hfinding, hread, finding?_eq_named ha, if_neg hall, hagree.mp hsame]

end Handle

/-! ### A redirected request -/

/-- An application with one token, whose core answers every call. -/
def signedIn : Application Tick where
  tables := { asciiTables with upper := id }
  authentication := .oidc fun token =>
    if token = lit "signed-token" then .ok approver
    else .error ⟨.authenticationError, lit "invalid bearer token"⟩
  core _ := .ok (.obj [])

/-- A request to close the finding `F-1`, with the body that `json.dumps` makes of its fields. -/
def closeRequest (fields : Fields Tick) : Request where
  method := lit "POST"
  path := lit "/findings/F-1/close"
  headers := [(lit "Authorization", lit "Bearer signed-token")]
  body := ((Json.obj fields).sortKeys.render compact).map (UInt8.ofNat ·.val)

theorem decodeBody_closeRequest {fields : Fields Tick}
    (hnodes : (Json.obj fields).all (roundTripNode compact) = true)
    (hprintable : Printable (.obj fields))
    (hbytes : encodeUtf8 ((Json.obj fields).sortKeys.render compact) = .ok (closeRequest fields).body) :
    decodeBody (closeRequest fields).body = .ok (sortDict fields) := by
  have hdumps : dumps compact (.obj fields) = .ok ((Json.obj fields).sortKeys.render compact) := by
    rw [dumps, if_pos hprintable]
  have hloads := loads_dumps hnodes hdumps
  rw [decodeBody, decodeUtf8_encodeUtf8 hbytes]
  change (loads _ >>= _) = _
  rw [hloads, sortKeys_obj]
  rfl

theorem bearer?_closeRequest (fields : Fields Tick) :
    bearer? signedIn.tables (closeRequest fields).headers = some (lit "signed-token") := by
  change bearer? signedIn.tables [(lit "Authorization", lit "Bearer signed-token")] = _
  decide +kernel

theorem path_closeRequest (fields : Fields Tick) :
    (closeRequest fields).path = findingPath (lit "F-1") (lit "close") := rfl

theorem not_slash_closeRequest : ofChar '/' ∉ lit "F-1" ∧ ofChar '/' ∉ lit "close" := by decide

theorem authenticate_closeRequest (fields : Fields Tick) :
    signedIn.authenticate (closeRequest fields).headers (lit "signed-token") = .ok approver := rfl

theorem route_decides_target_unnamed :
    ((signedIn.handle (closeRequest [(lit "reason", .str (lit "done"))])).calls.all fun call =>
      call.finding? = some (lit "F-1")) = true := by
  have hcalls := (route_decides_target_iff rfl (path_closeRequest [(lit "reason", .str (lit "done"))])
    not_slash_closeRequest.1 not_slash_closeRequest.2 (bearer?_closeRequest _)
    (authenticate_closeRequest _)
    (decodeBody_closeRequest (by decide +kernel) (by decide) (by decide +kernel))).mpr (by
      intro a ha _ _
      obtain rfl : a = .close := (Option.some.inj ha).symm
      refine ⟨by decide, fun v hv => ?_⟩
      cases hv)
  rw [List.all_eq_true]
  intro call hcall
  exact decide_eq_true (hcalls call hcall)

/-- A body that names another finding closes that one. -/
theorem body_redirects_close :
    ¬ ∀ call ∈ (signedIn.handle (closeRequest [(lit "finding_id", .str (lit "F-2"))])).calls,
      call.finding? = some (namedFinding (lit "close") (lit "F-1")) := by
  intro h
  have hcall : CoreCall.close (lit "F-2") approver [] ∈
      (signedIn.handle (closeRequest [(lit "finding_id", .str (lit "F-2"))])).calls :=
    (calls_handle rfl (path_closeRequest _) not_slash_closeRequest.1 not_slash_closeRequest.2
      (bearer?_closeRequest _) (authenticate_closeRequest _)
      (decodeBody_closeRequest (by decide +kernel) (by decide) (by decide +kernel))).mpr
      ⟨by decide +kernel, rfl⟩
  have hsame := h _ hcall
  revert hsame
  decide

end SentinelGRC.Governance
