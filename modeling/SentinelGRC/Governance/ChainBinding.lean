import SentinelGRC.Governance.EventLog
import SentinelGRC.Python.JsonUnambiguous

/-!
What the last hash of an event chain binds. Two contents of the event table that verify
and end in the same hash are the same history, as long as no two of the messages hashed
collide: the hashed text is the previous hash and a canonical JSON text, and neither can
be read in two ways.
-/

namespace SentinelGRC.Governance

open Python Json

variable {F : Type}

/-! ### Stored events -/

/-- A row of `governance_events` as `list_events` reads it. The table accepts any words; texts
come decoded from UTF-8. -/
structure StoredEvent (F : Type) where
  eventType : Text
  actorId : Text
  actorRole : Text
  authMethod : Text
  occurredAt : PyNum F
  detailsJson : Text
  previousHash : Text
  eventHash : Text
  scalar_eventType : Scalar eventType
  scalar_actorId : Scalar actorId
  scalar_actorRole : Scalar actorRole
  scalar_authMethod : Scalar authMethod

/-- The `body` that `verify_event_chain` hashes. -/
def StoredEvent.body (e : StoredEvent F) (findingId previous : Text) (details : Json F) : Fields F :=
  [(lit "finding_id", .str findingId), (lit "event_type", .str e.eventType),
    (lit "actor_id", .str e.actorId), (lit "actor_role", .str e.actorRole),
    (lit "auth_method", .str e.authMethod), (lit "occurred_at", .float e.occurredAt),
    (lit "details", details), (lit "previous_hash", .str previous)]

variable [PyFloat F]

/-- The hashed bytes of an event. -/
def StoredEvent.message (e : StoredEvent F) (findingId previous : Text) : Except PyError Bytes := do
  let details ← loads e.detailsJson
  let text ← dumps compact (.obj (e.body findingId previous details))
  encodeUtf8 (previous ++ text)

/-- The loop of `verify_event_chain` over rows of any content. -/
def verifyStored (H : Digest) (findingId : Text) :
    Text → List (StoredEvent F) → Except PyError Bool
  | _, [] => .ok true
  | previous, e :: rest => do
    let message ← e.message findingId previous
    let expected := H.hexdigest message
    if e.previousHash ≠ previous ∨ e.eventHash ≠ expected then return false
    verifyStored H findingId e.eventHash rest

omit [PyFloat F] in
/-- A row holds an event. -/
structure StoredEvent.Holds (s : StoredEvent F) (e : Event F) : Prop where
  eventType : s.eventType = e.eventType.text
  actorId : s.actorId = e.actorId
  actorRole : s.actorRole = e.actorRole.text
  authMethod : s.authMethod = e.authMethod
  occurredAt : s.occurredAt = .finite e.occurredAt
  detailsJson : s.detailsJson = e.detailsJson
  previousHash : s.previousHash = e.previousHash
  eventHash : s.eventHash = e.eventHash

/-- On rows that hold events the two loops are one. -/
theorem verifyStored_eq (H : Digest) (k : Text) {rows : List (StoredEvent F)}
    {events : List (Event F)} (h : List.Forall₂ StoredEvent.Holds rows events) (previous : Text) :
    verifyStored H k previous rows = verifyEvents H k previous events := by
  induction h generalizing previous with
  | nil => rfl
  | @cons s e rows events hs hrest ih =>
    have hbody (details : Json F) : s.body k previous details =
        eventBody k e.eventType e.actorId e.actorRole e.authMethod e.occurredAt details previous := by
      rw [StoredEvent.body, eventBody, hs.eventType, hs.actorId, hs.actorRole, hs.authMethod,
        hs.occurredAt]
    rw [verifyStored, verifyEvents, StoredEvent.message, hs.detailsJson, hs.previousHash,
      hs.eventHash, ih]
    simp only [hbody, chainHash, bind_assoc, pure_bind]

/-! ### Verified chains -/

variable {H : Digest} {k : Text}

/-- The hash of the last row, the empty text before the first. -/
def lastHash (rows : List (StoredEvent F)) : Text := (rows.getLast?.map StoredEvent.eventHash).getD []

/-- The messages hashed while rows are verified. -/
def hashedMessages (findingId : Text) : Text → List (StoredEvent F) → List Bytes
  | _, [] => []
  | previous, e :: rest =>
    (match e.message findingId previous with
      | .ok message => [message]
      | .error _ => []) ++ hashedMessages findingId e.eventHash rest

omit [PyFloat F] in
theorem lastHash_concat (rows : List (StoredEvent F)) (e : StoredEvent F) :
    lastHash (rows ++ [e]) = e.eventHash := by
  rw [lastHash, List.getLast?_concat]
  rfl

omit [PyFloat F] in
theorem lastHash_cons (e : StoredEvent F) (rows : List (StoredEvent F)) :
    lastHash (e :: rows) = (rows.getLast?.map StoredEvent.eventHash).getD e.eventHash := by
  cases rows with
  | nil => rfl
  | cons d rows => rw [lastHash, List.getLast?_cons_cons, List.getLast?_eq_some_getLast
      (List.cons_ne_nil d rows)]; rfl

/-- A verified chain without its last row is verified, and the last row continues it. -/
theorem verifyStored_concat : ∀ {rows : List (StoredEvent F)} {previous : Text} {e : StoredEvent F},
    verifyStored H k previous (rows ++ [e]) = .ok true →
      verifyStored H k previous rows = .ok true ∧
      ∃ message, e.message k ((rows.getLast?.map StoredEvent.eventHash).getD previous) = .ok message ∧
        e.previousHash = (rows.getLast?.map StoredEvent.eventHash).getD previous ∧
        e.eventHash = H.hexdigest message ∧
        hashedMessages k previous (rows ++ [e]) = hashedMessages k previous rows ++ [message]
  | [], previous, e, h => by
    rw [List.nil_append, verifyStored] at h
    obtain ⟨message, hmessage, h⟩ := bind_eq_ok.mp h
    by_cases hbad : e.previousHash ≠ previous ∨ e.eventHash ≠ H.hexdigest message
    · rw [if_pos hbad] at h
      cases h
    · rw [not_or, not_not, not_not] at hbad
      refine ⟨rfl, message, hmessage, hbad.1, hbad.2, ?_⟩
      simp only [List.nil_append, hashedMessages, hmessage, List.append_nil]
  | d :: rows, previous, e, h => by
    rw [List.cons_append, verifyStored] at h
    obtain ⟨message, hmessage, h⟩ := bind_eq_ok.mp h
    by_cases hbad : d.previousHash ≠ previous ∨ d.eventHash ≠ H.hexdigest message
    · rw [if_pos hbad] at h
      cases h
    · rw [if_neg hbad] at h
      obtain ⟨hrows, last, hlast, hprevious, hhash, hmessages⟩ := verifyStored_concat h
      have hend : ((d :: rows).getLast?.map StoredEvent.eventHash).getD previous =
          (rows.getLast?.map StoredEvent.eventHash).getD d.eventHash := by
        rw [← lastHash_cons, lastHash, List.getLast?_eq_some_getLast (List.cons_ne_nil d rows)]
        rfl
      rw [hend]
      refine ⟨?_, last, hlast, hprevious, hhash, ?_⟩
      · rw [verifyStored]
        exact bind_eq_ok.mpr ⟨message, hmessage, by rw [if_neg hbad]; exact hrows⟩
      · rw [List.cons_append, hashedMessages, hashedMessages, hmessages, List.append_assoc]

/-- The last hash of a verified chain is empty only before its first row. -/
theorem isLowerHex_lastHash {rows : List (StoredEvent F)} (h : verifyStored H k [] rows = .ok true) :
    (∀ c ∈ lastHash rows, isLowerHex c = true) ∧ (lastHash rows = [] ↔ rows = []) := by
  rcases List.eq_nil_or_concat' rows with rfl | ⟨init, e, rfl⟩
  · exact ⟨by simp [lastHash], by simp [lastHash]⟩
  · obtain ⟨-, message, -, -, hhash, -⟩ := verifyStored_concat h
    rw [lastHash_concat, hhash]
    refine ⟨H.isLowerHex_hexdigest message, ?_⟩
    constructor
    · intro hnil
      have hlength := H.hexdigest_length message
      rw [hnil] at hlength
      cases hlength
    · intro hnil
      exact absurd hnil (by simp)

/-! ### Messages -/

/-- Two rows record the same, their details up to canonical JSON. -/
structure SameEvent (d e : StoredEvent F) : Prop where
  eventType : d.eventType = e.eventType
  actorId : d.actorId = e.actorId
  actorRole : d.actorRole = e.actorRole
  authMethod : d.authMethod = e.authMethod
  occurredAt : d.occurredAt = e.occurredAt
  previousHash : d.previousHash = e.previousHash
  eventHash : d.eventHash = e.eventHash
  details : ∃ (detailsD detailsE : Json F) (text : Text), loads d.detailsJson = .ok detailsD ∧
    loads e.detailsJson = .ok detailsE ∧ dumps compact detailsD = .ok text ∧
    dumps compact detailsE = .ok text

/-- A hash and a text that begins with a brace are told apart. -/
theorem append_inj_of_isLowerHex {p q s t : Text} (hp : ∀ c ∈ p, isLowerHex c = true)
    (hq : ∀ c ∈ q, isLowerHex c = true) (h : p ++ ofChar '{' :: s = q ++ ofChar '{' :: t) :
    p = q ∧ s = t := by
  have htake {r u : Text} (hr : ∀ c ∈ r, isLowerHex c = true) :
      (r ++ ofChar '{' :: u).takeWhile isLowerHex = r := by
    rw [List.takeWhile_append_of_pos hr, List.takeWhile_cons_of_neg (by decide), List.append_nil]
  have hsame : p = q := by rw [← htake (u := s) hp, h, htake hq]
  subst hsame
  exact ⟨rfl, (List.cons.inj (List.append_cancel_left h)).2⟩

theorem message_eq_ok {e : StoredEvent F} {previous : Text} {message : Bytes}
    (h : e.message k previous = .ok message) : ∃ details, loads e.detailsJson = .ok details ∧
      Printable (.obj (e.body k previous details)) ∧
      encodeUtf8 (previous ++ (Json.obj (e.body k previous details)).sortKeys.render compact) =
        .ok message := by
  obtain ⟨details, hdetails, h⟩ := bind_eq_ok.mp h
  obtain ⟨text, htext, h⟩ := bind_eq_ok.mp h
  unfold dumps at htext
  split_ifs at htext with hprintable
  cases htext
  exact ⟨details, hdetails, hprintable, h⟩

theorem str_inj {s t : Text} (hs : Scalar s) (ht : Scalar t)
    (h : (Json.str s : Json F).sortKeys.render compact = (Json.str t : Json F).sortKeys.render compact) :
    s = t := by
  have hread {u : Text} (hu : Scalar u) :
      loads ((Json.str u : Json F).sortKeys.render compact) = .ok (Json.str u : Json F) := by
    have hloads {v : Json F} (hv : v.all (roundTripNode compact) = true) :
        loads (v.render compact) = .ok v := loads_render hv
    refine hloads ?_
    rw [sortKeys, all, roundTripNode, decide_eq_true (joined_of_scalar hu)]
    rfl
  have hsame := (hread hs).symm.trans (h ▸ hread ht)
  cases hsame
  rfl

theorem float_inj {x y : PyNum F}
    (h : (Json.float x).sortKeys.render compact = (Json.float y).sortKeys.render compact) : x = y := by
  have hread (z : PyNum F) : loads ((Json.float z).sortKeys.render compact) = .ok (.float z) := by
    have hnode : (Json.float z).all (roundTripNode compact) = true := rfl
    exact loads_render hnode
  have hsame := (hread x).symm.trans (h ▸ hread y)
  cases hsame
  rfl

/-- A hashed message determines the previous hash and the event. -/
theorem message_inj {d e : StoredEvent F} {p q : Text} {message : Bytes}
    (hp : ∀ c ∈ p, isLowerHex c = true) (hq : ∀ c ∈ q, isLowerHex c = true)
    (hd : d.message k p = .ok message)
    (he : e.message k q = .ok message) (hprevious : d.previousHash = p)
    (hprevious' : e.previousHash = q) (hhash : d.eventHash = e.eventHash) : p = q ∧ SameEvent d e := by
  obtain ⟨details, hdetails, hprintable, hencode⟩ := message_eq_ok hd
  obtain ⟨details', hdetails', hprintable', hencode'⟩ := message_eq_ok he
  have htext : p ++ (Json.obj (d.body k p details)).sortKeys.render compact =
      q ++ (Json.obj (e.body k q details')).sortKeys.render compact :=
    Except.ok.inj ((decodeUtf8_encodeUtf8 hencode).symm.trans (decodeUtf8_encodeUtf8 hencode'))
  rw [sortKeys_obj, sortKeys_obj, render, render] at htext
  obtain ⟨rfl, hbodies⟩ := append_inj_of_isLowerHex hp hq htext
  have hrender : (Json.obj (d.body k p details)).sortKeys.render compact =
      (Json.obj (e.body k p details')).sortKeys.render compact := by
    rw [sortKeys_obj, sortKeys_obj, render, render, hbodies]
  have hkeys : (d.body k p details).map Prod.fst = (e.body k p details').map Prod.fst := rfl
  have hnodup : ((d.body k p details).map Prod.fst).Nodup := by
    change [lit "finding_id", lit "event_type", lit "actor_id", lit "actor_role", lit "auth_method",
      lit "occurred_at", lit "details", lit "previous_hash"].Nodup
    decide
  have hget := render_get_eq hkeys hnodup hrender
  have hfields {f : Text × Json F} {fs : Fields F} (hall : Printable (.obj fs)) (hf : f ∈ fs) :
      Printable f.2 := by
    rw [Printable, all, Bool.and_eq_true, allFields_eq_all, List.all_eq_true] at hall
    have := hall.2 f hf
    rwa [allField_eq] at this
  refine ⟨rfl, ?_⟩
  exact
    { eventType := str_inj d.scalar_eventType e.scalar_eventType (hget (lit "event_type"))
      actorId := str_inj d.scalar_actorId e.scalar_actorId (hget (lit "actor_id"))
      actorRole := str_inj d.scalar_actorRole e.scalar_actorRole (hget (lit "actor_role"))
      authMethod := str_inj d.scalar_authMethod e.scalar_authMethod (hget (lit "auth_method"))
      occurredAt := float_inj (hget (lit "occurred_at"))
      previousHash := hprevious.trans hprevious'.symm
      eventHash := hhash
      details := by
        have hd' : Printable details := hfields (f := (lit "details", details)) hprintable (by
          simp [StoredEvent.body])
        have he' : Printable details' := hfields (f := (lit "details", details')) hprintable' (by
          simp [StoredEvent.body])
        refine ⟨details, details', _, hdetails, hdetails', if_pos hd', ?_⟩
        rw [dumps, if_pos he']
        exact congrArg Except.ok (hget (lit "details")).symm }

/-! ### Histories -/

/-- No message of one list collides with another message of the other. -/
def NoCollision (H : Digest) (messages messages' : List Bytes) : Prop :=
  ∀ m ∈ messages, ∀ n ∈ messages', H.digest m = H.digest n → m = n

/-- Verified chains that end in the same hash are the same history. -/
theorem verifyStored_binds : ∀ {rows rows' : List (StoredEvent F)},
    verifyStored H k [] rows = .ok true → verifyStored H k [] rows' = .ok true →
    NoCollision H (hashedMessages k [] rows) (hashedMessages k [] rows') →
    rows.getLast?.map StoredEvent.eventHash = rows'.getLast?.map StoredEvent.eventHash →
      List.Forall₂ SameEvent rows rows' := by
  intro rows
  induction rows using List.reverseRecOn with
  | nil =>
    intro rows' _ _ _ hlast
    rcases List.eq_nil_or_concat' rows' with rfl | ⟨init, e, rfl⟩
    · exact .nil
    · rw [List.getLast?_concat] at hlast
      cases hlast
  | append_singleton init d ih =>
    intro rows' h h' hcollision hlast
    rcases List.eq_nil_or_concat' rows' with rfl | ⟨init', e, rfl⟩
    · rw [List.getLast?_concat] at hlast
      cases hlast
    · rw [List.getLast?_concat, List.getLast?_concat] at hlast
      have hhash : d.eventHash = e.eventHash := Option.some.inj hlast
      obtain ⟨hinit, m, hm, hprevious, hdigest, hmessages⟩ := verifyStored_concat h
      obtain ⟨hinit', n, hn, hprevious', hdigest', hmessages'⟩ := verifyStored_concat h'
      rw [hmessages, hmessages'] at hcollision
      have hsame : m = n := by
        refine hcollision m (by simp) n (by simp) (hexText_injective ?_)
        exact hdigest.symm.trans (hhash.trans hdigest')
      subst hsame
      obtain ⟨hhex, hempty⟩ := isLowerHex_lastHash hinit
      obtain ⟨hhex', hempty'⟩ := isLowerHex_lastHash hinit'
      obtain ⟨hend, hevent⟩ := message_inj hhex hhex' hm hn hprevious hprevious' hhash
      refine List.rel_append (ih hinit hinit' ?_ ?_) (.cons hevent .nil)
      · intro u hu v hv
        exact hcollision u (List.mem_append_left _ hu) v (List.mem_append_left _ hv)
      · -- both chains begin here, or both have a last hash, which is the same
        rcases List.eq_nil_or_concat' init with rfl | ⟨_, c, rfl⟩
        · rw [hempty'.mp (hend.symm.trans (hempty.mpr rfl))]
        · rcases List.eq_nil_or_concat' init' with rfl | ⟨_, c', rfl⟩
          · exact absurd (hempty.mp (hend.trans (hempty'.mpr rfl))) (by simp)
          · rw [List.getLast?_concat, List.getLast?_concat, Option.map_some, Option.map_some]
            rw [lastHash_concat, lastHash_concat] at hend
            rw [hend]

/-- A first event, with a text of its details. -/
def firstEvent (detailsJson : Text) : StoredEvent Tick where
  eventType := lit "finding_created"
  actorId := lit "analyst-1"
  actorRole := lit "analyst"
  authMethod := lit "oidc"
  occurredAt := .finite 0
  detailsJson := detailsJson
  previousHash := []
  eventHash := lit "a8f8c082e33a161a53d813fb2e02e6ff8ead047cd091a6444d75f4590ac8a498"
  scalar_eventType := scalar_lit _
  scalar_actorId := scalar_lit _
  scalar_actorRole := scalar_lit _
  scalar_authMethod := scalar_lit _

/-- Details stored with other spaces verify with the same hash. -/
theorem verifyStored_binds_respaced :
    List.Forall₂ SameEvent [firstEvent (lit "\x7b\"severity\": \"high\"\x7d")]
      [firstEvent (lit "\x7b \"severity\":\"high\" \x7d")] :=
  have hmessages : ∀ m ∈ hashedMessages (lit "F-1") []
      [firstEvent (lit "\x7b\"severity\": \"high\"\x7d")],
      ∀ n ∈ hashedMessages (lit "F-1") [] [firstEvent (lit "\x7b \"severity\":\"high\" \x7d")],
        m = n := by decide +kernel
  verifyStored_binds (H := sha256) (k := lit "F-1") (by decide +kernel) (by decide +kernel)
    (fun m hm n hn _ => hmessages m hm n hn) rfl

end SentinelGRC.Governance
