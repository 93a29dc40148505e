import SentinelGRC.Ingestion.Authenticate
import SentinelGRC.Python.Dict
import SentinelGRC.Python.JsonErrors
import SentinelGRC.Python.JsonRoundTrip
import SentinelGRC.Store.Granted

/-!
The registry of agent keys. A key is registered once, with the route scopes it may write
to, and revoked for good; a table from before scopes gives each of its keys the posture
scope alone. Over any run the registry grants and withdraws, so what a key is authorized
for is what it was registered for, until its revocation.
-/

namespace SentinelGRC.Ingestion

open Python Json Store Transition

/-! ### Scopes -/

def postureWriteScope : Text := lit "posture:write"

def assetContextWriteScope : Text := lit "asset-context:write"

def remediationTicketWriteScope : Text := lit "remediation-ticket:write"

/-- `ALLOWED_KEY_SCOPES`. -/
def allowedKeyScopes : List Text :=
  [postureWriteScope, assetContextWriteScope, remediationTicketWriteScope]

/-- The style of `json.dumps` without arguments. -/
def spacedAscii : Style := ⟨true, true⟩

/-- `json.dumps` of a sequence of scopes. -/
def scopesJson (scopes : List Text) : Text :=
  (Json.arr (scopes.map .str) : Json Empty).render spacedAscii

/-- `sorted(set(scopes))`. -/
def sortedScopes (scopes : List Text) : List Text :=
  scopes.dedup.insertionSort fun s t => keyLe s t = true

/-- `_canonical_scopes`. -/
def canonicalScopes (scopes : Option (List Text)) : Except PyError (List Text) :=
  let selected :=
    match scopes with
    | none => [postureWriteScope]
    | some scopes => sortedScopes scopes
  if selected.isEmpty || selected.any fun scope => scope ∉ allowedKeyScopes then
    .error (.valueError (lit "agent key scopes must use the approved route-scope allowlist."))
  else .ok selected

/-! ### The table -/

inductive KeyStatus
  | active
  | revoked
  deriving DecidableEq

structure AgentKey where
  keyId : Text
  agentId : Text
  status : KeyStatus
  createdAt : Text
  revokedAt : Option Text
  scopesJson : Text

abbrev AgentKeys := Table AgentKey Text AgentKey.keyId

/-- A row of a table that has no column for scopes. -/
structure UnscopedKey where
  keyId : Text
  agentId : Text
  status : KeyStatus
  createdAt : Text
  revokedAt : Option Text

/-- What a database holds before the schema is initialized. -/
inductive KeyTable
  | absent
  | legacy (rows : Table UnscopedKey Text UnscopedKey.keyId)
  | current (rows : AgentKeys)

/-- The row with `LEGACY_SCOPES_SQL_DEFAULT` in the new column. -/
def UnscopedKey.addColumn (r : UnscopedKey) : AgentKey :=
  ⟨r.keyId, r.agentId, r.status, r.createdAt, r.revokedAt, Ingestion.scopesJson [postureWriteScope]⟩

theorem UnscopedKey.distinct_addColumn (rows : Table UnscopedKey Text UnscopedKey.keyId) :
    ((rows.rows.map addColumn).map AgentKey.keyId).Nodup := by
  rw [List.map_map]
  exact rows.distinct

/-- `_initialize_schema`. -/
def initializeSchema : KeyTable → AgentKeys
  | .absent => Table.empty
  | .legacy rows => ⟨rows.rows.map UnscopedKey.addColumn, UnscopedKey.distinct_addColumn rows⟩
  | .current rows => rows

/-! ### Operations -/

/-- The arguments of `register`, with the random part of a key id that it makes up. -/
structure Registration where
  agentId : Text
  keyId : Option Text
  scopes : Option (List Text)
  tokenHex : Text
  createdAt : Text

/-- `key_id or f"{agent_id}-{secrets.token_hex(6)}"`. -/
def Registration.selectedKeyId (r : Registration) : Text :=
  match r.keyId with
  | some keyId => if keyId.isEmpty then r.agentId ++ lit "-" ++ r.tokenHex else keyId
  | none => r.agentId ++ lit "-" ++ r.tokenHex

/-- The checks of `register`, and the row that it inserts. The secret that is returned beside
the key id is not stored. -/
def Registration.row (r : Registration) : Except PyError AgentKey := do
  let selected ← canonicalScopes r.scopes
  if blank r.agentId || !matchesKeyId r.selectedKeyId then
    .error (.valueError (lit "agent_id and key_id must use non-empty safe identifiers."))
  else if ¬ Scalar r.agentId then .error .unicodeEncodeError
  else .ok ⟨r.selectedKeyId, r.agentId, .active, r.createdAt, none, Ingestion.scopesJson selected⟩

/-- `register`. -/
def register (keys : AgentKeys) (r : Registration) : AgentKeys × Except PyError Text :=
  match r.row with
  | .error e => (keys, .error e)
  | .ok row =>
    match keys.insert? row with
    | some keys => (keys, .ok row.keyId)
    | none => (keys, .error .integrityError)

/-- The `UPDATE` of `revoke`. -/
def AgentKey.revoke (revokedAt : Text) (r : AgentKey) : AgentKey :=
  { r with status := .revoked, revokedAt := some revokedAt }

theorem AgentKey.keyId_revoke (revokedAt : Text) (r : AgentKey) :
    (r.revoke revokedAt).keyId = r.keyId := rfl

/-- `revoke`. -/
def revoke (keys : AgentKeys) (keyId revokedAt : Text) : AgentKeys × Except PyError Text :=
  if ¬ Scalar keyId then (keys, .error .unicodeEncodeError)
  else (keys.modify keyId (AgentKey.revoke revokedAt) (AgentKey.keyId_revoke revokedAt), .ok keyId)

/-- `is_active`. -/
def isActive (keys : AgentKeys) (keyId : Text) : Except PyError Bool :=
  if ¬ Scalar keyId then .error .unicodeEncodeError
  else .ok ((keys.find? keyId).any fun r => r.status = .active)

/-- `isinstance(scopes, list) and required_scope in scopes`. -/
def listsScope {F : Type} [PyFloat F] (requiredScope : Text) : Json F → Bool
  | .arr scopes => scopes.any fun scope => scope.pyEq (.str requiredScope)
  | _ => false

/-- The scopes of a row, read as `is_authorized` reads them. -/
def AgentKey.lists (F : Type) [PyFloat F] (r : AgentKey) (requiredScope : Text) :
    Except PyError Bool :=
  match (loads r.scopesJson : Except PyError (Json F)) with
  | .ok scopes => .ok (listsScope requiredScope scopes)
  | .error .jsonDecodeError => .ok false
  | .error e => .error e

/-- `is_authorized`. -/
def isAuthorized (F : Type) [PyFloat F] (keys : AgentKeys) (keyId requiredScope : Text) :
    Except PyError Bool :=
  if requiredScope ∉ allowedKeyScopes then .ok false
  else if ¬ Scalar keyId then .error .unicodeEncodeError
  else match keys.find? keyId with
    | none => .ok false
    | some r => if r.status = .active then r.lists F requiredScope else .ok false

/-- `resolve_secret`, on the map that the server was started with. -/
def resolveSecret {F : Type} (keys : AgentKeys) (keyId : Text) (secretMap : Fields F) :
    Except PyError (Option Bytes) := do
  if ¬ (← isActive keys keyId) then return none
  match field keyId secretMap with
  | some (.str secret) => if secret.isEmpty then return none else return some (← encodeUtf8 secret)
  | _ => return none

/-- An operator's use of the registry. -/
inductive KeyAction
  | register (r : Registration)
  | revoke (keyId revokedAt : Text)

def keyRegistry : Machine AgentKeys KeyAction (Except PyError Text) where
  step keys
    | .register r => register keys r
    | .revoke keyId revokedAt => revoke keys keyId revokedAt

/-! ### Scopes as they are read back -/

variable {F : Type} [PyFloat F]

theorem renderItems_strs (st : Style) (texts : List Text) :
    renderItems st (texts.map .str : List (Json Empty)) = renderItems st (texts.map .str : List (Json F)) := by
  induction texts with
  | nil => rfl
  | cons t texts ih =>
    have hempty : (texts.map .str : List (Json Empty)).isEmpty = (texts.map .str : List (Json F)).isEmpty := by
      cases texts <;> rfl
    simp only [List.map_cons, renderItems, render, ih, hempty]

omit [PyFloat F] in
theorem allItems_strs {texts : List Text} (h : ∀ t ∈ texts, Joined t) :
    allItems (roundTripNode spacedAscii) (texts.map .str : List (Json F)) = true := by
  induction texts with
  | nil => rfl
  | cons t texts ih =>
    obtain ⟨ht, htexts⟩ := List.forall_mem_cons.mp h
    simp [allItems, Json.all, roundTripNode, ht, ih htexts]

theorem loads_scopesJson {scopes : List Text} (h : ∀ scope ∈ scopes, Scalar scope) :
    (loads (scopesJson scopes) : Except PyError (Json F)) = .ok (.arr (scopes.map .str)) := by
  have hrender : scopesJson scopes = (Json.arr (scopes.map .str) : Json F).render spacedAscii := by
    simp only [scopesJson, render, renderItems_strs (F := F)]
  rw [hrender]
  apply loads_render
  simp [Json.all, roundTripNode, allItems_strs fun scope hscope => joined_of_scalar (h scope hscope)]

theorem listsScope_strs (scope : Text) (scopes : List Text) :
    listsScope scope (.arr (scopes.map .str) : Json F) = decide (scope ∈ scopes) := by
  rw [Bool.eq_iff_iff, decide_eq_true_iff, listsScope, List.any_eq_true]
  constructor
  · rintro ⟨v, hv, heq⟩
    obtain ⟨other, hother, rfl⟩ := List.mem_map.mp hv
    obtain rfl : other = scope := by simpa using pyEq_str.mp heq
    exact hother
  · intro hscope
    exact ⟨.str scope, List.mem_map.mpr ⟨scope, hscope, rfl⟩, pyEq_str.mpr rfl⟩

theorem scalar_allowed : ∀ scope ∈ allowedKeyScopes, Scalar scope := by
  intro scope h
  simp only [allowedKeyScopes, List.mem_cons, List.not_mem_nil, or_false] at h
  rcases h with rfl | rfl | rfl <;> exact scalar_lit _

theorem lists_of_json {r : AgentKey} {scopes : List Text} (hr : r.scopesJson = scopesJson scopes)
    (h : ∀ scope ∈ scopes, scope ∈ allowedKeyScopes) (scope : Text) :
    r.lists F scope = .ok (decide (scope ∈ scopes)) := by
  rw [AgentKey.lists, hr, loads_scopesJson fun s hs => scalar_allowed s (h s hs)]
  exact congrArg Except.ok (listsScope_strs scope scopes)

theorem canonicalScopes_eq_ok {scopes : Option (List Text)} {selected : List Text}
    (h : canonicalScopes scopes = .ok selected) : ∀ scope ∈ selected, scope ∈ allowedKeyScopes := by
  obtain ⟨hcheck, h⟩ := ite_error_eq_ok.mp h
  rw [Except.ok.inj h] at hcheck
  have hlisted : ¬ selected = [] ∧ ∀ scope ∈ selected, scope ∈ allowedKeyScopes := by
    simpa using hcheck
  exact hlisted.2

/-! ### The registry grants and withdraws -/

/-- Where a row stands, with the text of its scopes as its rights. -/
def AgentKey.standing (r : AgentKey) : Standing Text :=
  match r.status with
  | .active => .granted r.scopesJson
  | .revoked => .withdrawn r.scopesJson

def standings (keys : AgentKeys) : Standings Text Text := keys.standings AgentKey.standing

/-- What an operation does to the standings. -/
def KeyAction.event? : KeyAction → Option (GrantEvent Text Text)
  | .register r =>
    match r.row with
    | .ok row => some (.grant row.keyId row.scopesJson)
    | .error _ => none
  | .revoke keyId _ => if Scalar keyId then some (.withdraw keyId) else none

omit [PyFloat F] in
theorem Registration.row_eq_ok {r : Registration} {row : AgentKey} (h : r.row = .ok row) :
    ∃ selected, canonicalScopes r.scopes = .ok selected ∧ row.keyId = r.selectedKeyId ∧
      row.status = .active ∧ row.scopesJson = Ingestion.scopesJson selected := by
  obtain ⟨selected, hselected, h⟩ := bind_eq_ok.mp h
  obtain ⟨-, h⟩ := ite_error_eq_ok.mp h
  obtain ⟨-, h⟩ := ite_error_eq_ok.mp h
  obtain rfl := Except.ok.inj h
  exact ⟨selected, hselected, rfl, rfl, rfl⟩

theorem standing_revoke (r : AgentKey) (revokedAt : Text) :
    (r.revoke revokedAt).standing = r.standing.withdraw := by
  unfold AgentKey.standing
  cases r.status <;> rfl

theorem standings_register (keys : AgentKeys) {r : Registration} {row : AgentKey}
    (h : r.row = .ok row) :
    standings (keyRegistry.next keys (.register r)) =
      (standings keys).apply (.grant row.keyId row.scopesJson) := by
  obtain ⟨-, -, -, hactive, -⟩ := Registration.row_eq_ok h
  have hstanding : row.standing = .granted row.scopesJson := by rw [AgentKey.standing, hactive]
  cases hinsert : keys.insert? row with
  | none =>
    have hnext : keyRegistry.next keys (.register r) = keys := by
      simp only [Machine.next, keyRegistry, register, h, hinsert]
    rw [hnext]
    exact Table.standings_taken hinsert row.scopesJson
  | some inserted =>
    have hnext : keyRegistry.next keys (.register r) = inserted := by
      simp only [Machine.next, keyRegistry, register, h, hinsert]
    rw [hnext]
    exact Table.standings_insert hstanding hinsert

theorem standings_revoke (keys : AgentKeys) {keyId : Text} (revokedAt : Text) (h : Scalar keyId) :
    standings (keyRegistry.next keys (.revoke keyId revokedAt)) =
      (standings keys).apply (.withdraw keyId) := by
  have hnext : keyRegistry.next keys (.revoke keyId revokedAt) =
      keys.modify keyId (AgentKey.revoke revokedAt) (AgentKey.keyId_revoke revokedAt) := by
    simp only [Machine.next, keyRegistry, revoke, h, not_true_eq_false, if_false]
  rw [hnext]
  exact Table.standings_modify _ (fun r => standing_revoke r revokedAt) keyId

theorem keyRegistry_grants : keyRegistry.Grants standings fun _ action => action.event? where
  next_of_event := by
    intro keys action event hevent
    cases action with
    | register r =>
      cases hrow : r.row with
      | error e => simp [KeyAction.event?, hrow] at hevent
      | ok row =>
        obtain rfl : .grant row.keyId row.scopesJson = event := by
          simpa [KeyAction.event?, hrow] using hevent
        exact standings_register keys hrow
    | revoke keyId revokedAt =>
      obtain ⟨hscalar, rfl⟩ : Scalar keyId ∧ GrantEvent.withdraw keyId = event := by
        simpa [KeyAction.event?] using hevent
      exact standings_revoke keys revokedAt hscalar
  next_of_none := by
    intro keys action hevent
    cases action with
    | register r =>
      cases hrow : r.row with
      | error e => simp only [Machine.next, keyRegistry, register, hrow]
      | ok row => simp [KeyAction.event?, hrow] at hevent
    | revoke keyId revokedAt =>
      have hscalar : ¬ Scalar keyId := by simpa [KeyAction.event?] using hevent
      simp only [Machine.next, keyRegistry, revoke, hscalar, not_false_eq_true, if_true]

/-! ### What a key is authorized for -/

/-- The database lists an active key with the scope. Without a column for scopes that is the
posture scope. -/
def KeyTable.Authorizes (F : Type) [PyFloat F] (k scope : Text) : KeyTable → Prop
  | .absent => False
  | .legacy rows => scope = postureWriteScope ∧ ∃ r, rows.find? k = some r ∧ r.status = .active
  | .current rows => ∃ r, rows.find? k = some r ∧ r.status = .active ∧ r.lists F scope = .ok true

/-- An operator revoked the key. -/
def RevokedIn (actions : List KeyAction) (k : Text) : Prop :=
  ∃ revokedAt, KeyAction.revoke k revokedAt ∈ actions

/-- A registration of the key that succeeded lists the scope, and no revocation follows it. -/
def RegisteredIn (table : KeyTable) (actions : List KeyAction) (k scope : Text) : Prop :=
  ∃ earlier r later selected, actions = earlier ++ .register r :: later ∧
    keyRegistry.answer (keyRegistry.run (initializeSchema table) earlier) (.register r) = .ok k ∧
    canonicalScopes r.scopes = .ok selected ∧ scope ∈ selected ∧ ¬ RevokedIn later k

theorem find?_addColumn (rows : Table UnscopedKey Text UnscopedKey.keyId) (k : Text) :
    (initializeSchema (.legacy rows)).find? k = (rows.find? k).map UnscopedKey.addColumn := by
  apply Option.ext
  intro r
  rw [Table.find?_eq_some, Option.map_eq_some_iff]
  constructor
  · rintro ⟨hr, hk⟩
    obtain ⟨q, hq, rfl⟩ := List.mem_map.mp hr
    exact ⟨q, Table.find?_eq_some.mpr ⟨hq, hk⟩, rfl⟩
  · rintro ⟨q, hq, rfl⟩
    obtain ⟨hq, hk⟩ := Table.find?_eq_some.mp hq
    exact ⟨List.mem_map.mpr ⟨q, hq, rfl⟩, hk⟩

/-- A row of the initialized table that is active and lists the scope. -/
theorem authorizes_iff (table : KeyTable) (k scope : Text) : table.Authorizes F k scope ↔
    ∃ r, (initializeSchema table).find? k = some r ∧ r.status = .active ∧
      r.lists F scope = .ok true := by
  cases table with
  | absent => simp [KeyTable.Authorizes, initializeSchema]
  | current rows => rfl
  | legacy rows =>
    have hlists (q : UnscopedKey) : q.addColumn.lists F scope = .ok true ↔ scope = postureWriteScope := by
      have hjson : (q.addColumn).scopesJson = scopesJson [postureWriteScope] := rfl
      rw [lists_of_json hjson (by decide)]
      simp
    rw [find?_addColumn, KeyTable.Authorizes]
    constructor
    · rintro ⟨hscope, q, hq, hactive⟩
      exact ⟨q.addColumn, by rw [hq]; rfl, hactive, (hlists q).mpr hscope⟩
    · rintro ⟨r, hr, hactive, hscope⟩
      obtain ⟨q, hq, rfl⟩ := Option.map_eq_some_iff.mp hr
      exact ⟨(hlists q).mp hscope, q, hq, hactive⟩

theorem standing_eq_granted {r : AgentKey} {json : Text} :
    r.standing = .granted json ↔ r.status = .active ∧ r.scopesJson = json := by
  unfold AgentKey.standing
  cases r.status <;> simp

theorem event?_eq_grant {action : KeyAction} {k json : Text}
    (h : action.event? = some (.grant k json)) :
    ∃ r row, action = .register r ∧ r.row = .ok row ∧ row.keyId = k ∧ row.scopesJson = json := by
  cases action with
  | revoke keyId revokedAt => simp [KeyAction.event?] at h
  | register r =>
    cases hrow : r.row with
    | error e => simp [KeyAction.event?, hrow] at h
    | ok row =>
      have hevent : row.keyId = k ∧ row.scopesJson = json := by simpa [KeyAction.event?, hrow] using h
      exact ⟨r, row, rfl, hrow, hevent.1, hevent.2⟩

theorem event?_register {r : Registration} {row : AgentKey} (h : r.row = .ok row) :
    (KeyAction.register r).event? = some (.grant row.keyId row.scopesJson) := by
  simp only [KeyAction.event?, h]

theorem keeps_iff {keys : AgentKeys} {actions : List KeyAction} {k : Text} (hk : Scalar k) :
    keyRegistry.Keeps (fun _ action => action.event?) k keys actions ↔ ¬ RevokedIn actions k := by
  rw [Machine.keeps_iff_forall, RevokedIn, not_exists]
  constructor
  · intro h revokedAt hmem
    exact h _ hmem (by simp [KeyAction.event?, hk])
  · intro h action hmem hevent
    cases action with
    | register r => cases hrow : r.row <;> simp [KeyAction.event?, hrow] at hevent
    | revoke keyId revokedAt =>
      obtain ⟨-, rfl⟩ : Scalar keyId ∧ keyId = k := by simpa [KeyAction.event?] using hevent
      exact h revokedAt hmem

/-- A registration succeeds when it passes its checks and the key is new. -/
theorem answer_register {keys : AgentKeys} {r : Registration} {k : Text} :
    keyRegistry.answer keys (.register r) = .ok k ↔
      ∃ row, r.row = .ok row ∧ row.keyId = k ∧ standings keys k = none := by
  simp only [Machine.answer, keyRegistry, register, standings, Table.standings_eq_none]
  cases hrow : r.row with
  | error e => simp
  | ok row =>
    simp only [Except.ok.injEq, exists_eq_left']
    cases hinsert : keys.insert? row with
    | none =>
      obtain ⟨q, hq⟩ := Table.insert?_eq_none.mp hinsert
      simp only [reduceCtorEq, false_iff, not_and]
      rintro rfl
      rw [hq]
      exact Option.some_ne_none q
    | some inserted =>
      obtain ⟨hnone, -⟩ := Table.insert?_eq_some.mp hinsert
      simp only [Except.ok.injEq]
      constructor
      · rintro rfl
        exact ⟨rfl, hnone⟩
      · exact fun h => h.1

theorem registeredIn_iff {table : KeyTable} {actions : List KeyAction} {k scope : Text}
    (hk : Scalar k) : RegisteredIn table actions k scope ↔
      ∃ row : AgentKey, row.lists F scope = .ok true ∧
        keyRegistry.GrantedIn standings (fun _ action => action.event?) k row.scopesJson
          (initializeSchema table) actions := by
  constructor
  · rintro ⟨earlier, r, later, selected, hactions, hanswer, hselected, hscope, hlater⟩
    obtain ⟨row, hrow, rfl, hnone⟩ := answer_register.mp hanswer
    obtain ⟨selected', hselected', -, -, hjson⟩ := Registration.row_eq_ok hrow
    obtain rfl : selected' = selected := Except.ok.inj (hselected'.symm.trans hselected)
    refine ⟨row, ?_, earlier, .register r, later, hactions, event?_register hrow, hnone,
      (keeps_iff hk).mpr hlater⟩
    rw [lists_of_json hjson (canonicalScopes_eq_ok hselected), decide_eq_true hscope]
  · rintro ⟨row, hlists, earlier, action, later, hactions, hevent, hnone, hkeeps⟩
    obtain ⟨r, row', rfl, hrow, rfl, hjson⟩ := event?_eq_grant hevent
    obtain ⟨selected, hselected, -, -, hjson'⟩ := Registration.row_eq_ok hrow
    rw [lists_of_json (hjson.symm.trans hjson') (canonicalScopes_eq_ok hselected)] at hlists
    exact ⟨earlier, r, later, selected, hactions, answer_register.mpr ⟨row', hrow, rfl, hnone⟩,
      hselected, by simpa using hlists, (keeps_iff hk).mp hkeeps⟩

theorem lists_congr {r q : AgentKey} (h : r.scopesJson = q.scopesJson) (scope : Text) :
    r.lists F scope = q.lists F scope := by rw [AgentKey.lists, AgentKey.lists, h]

theorem isAuthorized_eq_ok {keys : AgentKeys} {k scope : Text} :
    isAuthorized F keys k scope = .ok true ↔ scope ∈ allowedKeyScopes ∧ Scalar k ∧
      ∃ row : AgentKey, row.lists F scope = .ok true ∧
        standings keys k = some (.granted row.scopesJson) := by
  unfold isAuthorized
  by_cases hscope : scope ∈ allowedKeyScopes
  swap
  · simp [hscope]
  by_cases hk : Scalar k
  swap
  · simp [hscope, hk]
  rw [if_neg (not_not.mpr hscope), if_neg (not_not.mpr hk)]
  simp only [hscope, hk, true_and, standings, Table.standings]
  cases hrow : keys.find? k with
  | none => simp
  | some r =>
    simp only [Option.map_some, Option.some.injEq]
    split_ifs with hactive
    · constructor
      · intro h
        exact ⟨r, h, standing_eq_granted.mpr ⟨hactive, rfl⟩⟩
      · rintro ⟨row, hlists, hstanding⟩
        rw [lists_congr (standing_eq_granted.mp hstanding).2, hlists]
    · simp only [Except.ok.injEq, Bool.false_eq_true, false_iff, not_exists, not_and]
      intro row _ hstanding
      exact hactive (standing_eq_granted.mp hstanding).1

/-- A key is authorized for a scope exactly when the database listed it with the scope and it
was not revoked in the run, or a registration in the run that succeeded lists the scope and it
was not revoked since. So a revoked key is never authorized again, and no registration adds to
the scopes of a key. -/
theorem authorized_iff (F : Type) [PyFloat F] (table : KeyTable) (actions : List KeyAction)
    (k scope : Text) :
    isAuthorized F (keyRegistry.run (initializeSchema table) actions) k scope = .ok true ↔
      scope ∈ allowedKeyScopes ∧ Scalar k ∧
        ((table.Authorizes F k scope ∧ ¬ RevokedIn actions k) ∨
          RegisteredIn table actions k scope) := by
  rw [isAuthorized_eq_ok]
  refine and_congr_right fun _ => and_congr_right fun hk => ?_
  simp only [keyRegistry_grants.run_iff, and_or_left, exists_or, keeps_iff hk]
  refine or_congr ?_ (registeredIn_iff (F := F) hk).symm
  rw [authorizes_iff]
  constructor
  · rintro ⟨row, hlists, hstanding, hrevoked⟩
    obtain ⟨r, hr, hstands⟩ := Table.standings_eq_some.mp hstanding
    obtain ⟨hactive, hjson⟩ := standing_eq_granted.mp hstands
    exact ⟨⟨r, hr, hactive, (lists_congr hjson scope).trans hlists⟩, hrevoked⟩
  · rintro ⟨⟨r, hr, hactive, hlists⟩, hrevoked⟩
    refine ⟨r, hlists, ?_, hrevoked⟩
    exact Table.standings_eq_some.mpr ⟨r, hr, standing_eq_granted.mpr ⟨hactive, rfl⟩⟩

end SentinelGRC.Ingestion
