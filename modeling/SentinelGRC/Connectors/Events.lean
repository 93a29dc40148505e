import SentinelGRC.Contracts.Validation
import SentinelGRC.Python.Hashlib
import SentinelGRC.Store.Table
import SentinelGRC.Transition.Register

/-!
The stores that connector events are reserved in, in SQLite and in PostgreSQL. The one
runs into the uniqueness of the key and rolls back, the other asks for nothing to be done
on a conflict and counts the rows. Both are registers of payload hashes under the replay
key, the source with the event id.
-/

namespace SentinelGRC.Connectors

open Python Store Contracts Transition

variable {T : Type}

/-! ### Identities -/

/-- `SHA256_DIGEST`. -/
def isSha256Digest (t : Text) : Bool := t.length == 64 && t.all isLowerHex

/-- `validate_connector_event_identity`. -/
def validateConnectorEventIdentity (eventId source : Text) (payloadHash : Option Text) :
    Except PyError Unit :=
  if ¬ isSourceIdentifier source ∨ ¬ isIdentifier eventId then
    .error (.valueError (lit "source and event_id must be canonical identifiers"))
  else if payloadHash.any fun hash => ! isSha256Digest hash then
    .error (.valueError (lit "payload_hash must be a lowercase SHA-256 digest"))
  else .ok ()

theorem validateConnectorEventIdentity_eq_ok {eventId source : Text} {payloadHash : Option Text} :
    validateConnectorEventIdentity eventId source payloadHash = .ok () ↔
      isSourceIdentifier source = true ∧ isIdentifier eventId = true ∧
        ∀ hash, payloadHash = some hash → isSha256Digest hash = true := by
  unfold validateConnectorEventIdentity
  split_ifs with hidentity hhash
  · refine iff_of_false nofun ?_
    tauto
  · refine iff_of_false nofun ?_
    rintro ⟨-, -, h⟩
    obtain ⟨hash, rfl⟩ : ∃ hash, payloadHash = some hash := by
      cases payloadHash with
      | none => exact absurd hhash nofun
      | some hash => exact ⟨hash, rfl⟩
    rw [Option.any_some, h hash rfl] at hhash
    exact absurd hhash nofun
  · simp only [true_iff]
    push Not at hidentity
    refine ⟨hidentity.1, hidentity.2, ?_⟩
    rintro hash rfl
    simpa using hhash

/-! ### The stores -/

/-- A row of `connector_events`. -/
structure ConnectorEvent (T : Type) where
  source : Text
  eventId : Text
  payloadHash : Text
  acceptedAt : T

/-- The replay key. -/
def ConnectorEvent.identity (e : ConnectorEvent T) : Text × Text := (e.source, e.eventId)

abbrev ConnectorEvents (T : Type) := Table (ConnectorEvent T) (Text × Text) ConnectorEvent.identity

/-- The arguments of `reserve`, and the time of the call. -/
structure Reservation (T : Type) where
  eventId : Text
  source : Text
  payloadHash : Text
  now : T

/-- `ConnectorEventConflictError`, or another exception. -/
inductive ReserveError
  | conflict (message : Text)
  | other (e : PyError)
  deriving DecidableEq

namespace Reservation

def identity (c : Reservation T) : Text × Text := (c.source, c.eventId)

/-- What the caller passes on. -/
def arguments (c : Reservation T) : Text × Text × Text := (c.eventId, c.source, c.payloadHash)

def row (c : Reservation T) : ConnectorEvent T := ⟨c.source, c.eventId, c.payloadHash, c.now⟩

@[simp] theorem identity_row (c : Reservation T) : c.row.identity = c.identity := rfl

/-- The identity and the digest pass their checks. -/
def Valid (c : Reservation T) : Prop :=
  validateConnectorEventIdentity c.eventId c.source (some c.payloadHash) = .ok ()

instance (c : Reservation T) : Decidable c.Valid := inferInstanceAs (Decidable (_ = _))

end Reservation

def unresolved : ReserveError :=
  .other (.runtimeError (lit "connector event reservation conflict could not be resolved"))

def conflict : ReserveError :=
  .conflict (lit "connector event identity belongs to a different payload")

/-- `SELECT payload_hash FROM connector_events WHERE source = ? AND event_id = ?`. -/
def selectHash (rows : List (ConnectorEvent T)) (identity : Text × Text) : Option Text :=
  (rows.find? fun r => r.identity = identity).map ConnectorEvent.payloadHash

/-- `ConnectorEventStore.reserve`, on a table with any primary key. -/
def ConnectorEventStore.reserve {κ : Type} [DecidableEq κ] {key : ConnectorEvent T → κ}
    (rows : Table (ConnectorEvent T) κ key) (c : Reservation T) :
    Table (ConnectorEvent T) κ key × Except ReserveError Bool :=
  match validateConnectorEventIdentity c.eventId c.source (some c.payloadHash) with
  | .error e => (rows, .error (.other e))
  | .ok () =>
    match rows.insert? c.row with
    | some committed => (committed, .ok true)
    -- `IntegrityError`, and `rollback` before the row is read.
    | none =>
      match selectHash rows.rows c.identity with
      | none => (rows, .error unresolved)
      | some existing =>
        if existing ≠ c.payloadHash then (rows, .error conflict) else (rows, .ok false)

/-- `INSERT ... ON CONFLICT(source, event_id) DO NOTHING`, with the row count. -/
def insertOnConflictDoNothing (rows : ConnectorEvents T) (r : ConnectorEvent T) :
    ConnectorEvents T × ℕ :=
  match rows.insert? r with
  | some inserted => (inserted, 1)
  | none => (rows, 0)

/-- `PostgresConnectorEventStore.reserve`. What is rolled back leaves the table of before. -/
def PostgresConnectorEventStore.reserve (rows : ConnectorEvents T) (c : Reservation T) :
    ConnectorEvents T × Except ReserveError Bool :=
  match validateConnectorEventIdentity c.eventId c.source (some c.payloadHash) with
  | .error e => (rows, .error (.other e))
  | .ok () =>
    let (working, rowcount) := insertOnConflictDoNothing rows c.row
    let accepted := rowcount == 1
    if ! accepted then
      match selectHash working.rows c.identity with
      | none => (rows, .error unresolved)
      | some storedHash =>
        if storedHash ≠ c.payloadHash then (rows, .error conflict) else (working, .ok accepted)
    else (working, .ok accepted)

/-- `ConnectorEventStore` as calls come in. -/
def connectorEventStore : Machine (ConnectorEvents T) (Reservation T) (Except ReserveError Bool) where
  step := ConnectorEventStore.reserve

/-- `PostgresConnectorEventStore` as calls come in. -/
def postgresConnectorEventStore :
    Machine (ConnectorEvents T) (Reservation T) (Except ReserveError Bool) where
  step := PostgresConnectorEventStore.reserve

/-! ### The stores as registers -/

/-- The payload hashes that identities are bound to. -/
def bindings (rows : ConnectorEvents T) : Bindings (Text × Text) Text := fun identity =>
  (rows.find? identity).map ConnectorEvent.payloadHash

/-- A reservation as a call of the register. -/
def Reservation.binding (c : Reservation T) : (Text × Text) × Text := (c.identity, c.payloadHash)

theorem Reservation.map_binding (calls : List (Reservation T)) : calls.map Reservation.binding =
    (calls.map Reservation.arguments).map fun a => ((a.2.1, a.1), a.2.2) := by
  rw [List.map_map]
  rfl

theorem Reservation.valid_congr {c d : Reservation T} (h : c.arguments = d.arguments) :
    c.Valid ↔ d.Valid := by
  simp only [arguments, Prod.mk.injEq] at h
  rw [Valid, Valid, h.1, h.2.1, h.2.2]

/-- What `reserve` returns or raises on a verdict of the register. -/
def ofVerdict : Verdict → Except ReserveError Bool
  | .accepted => .ok true
  | .repeated => .ok false
  | .conflicting => .error conflict

theorem ofVerdict_eq_true {v : Verdict} : ofVerdict v = .ok true ↔ v = .accepted := by
  cases v <;> simp [ofVerdict]

theorem bindings_empty : bindings (Table.empty : ConnectorEvents T) = fun _ => none := rfl

theorem bindings_insert? {rows committed : ConnectorEvents T} {c : Reservation T}
    (h : rows.insert? c.row = some committed) :
    bindings committed = Function.update (bindings rows) c.identity (some c.payloadHash) := by
  funext identity
  rw [bindings, Table.find?_insert? h, c.identity_row, Function.update_apply]
  by_cases hidentity : identity = c.identity
  · rw [if_pos hidentity, if_pos hidentity.symm]
    rfl
  · rw [if_neg hidentity, if_neg (Ne.symm hidentity)]
    rfl

/-- One reservation in SQLite: the register's verdict, and its bindings from then on. -/
theorem ConnectorEventStore.reserve_spec (rows : ConnectorEvents T) {c : Reservation T}
    (hvalid : c.Valid) :
    (ConnectorEventStore.reserve rows c).2 = ofVerdict (register.answer (bindings rows) c.binding) ∧
      bindings (ConnectorEventStore.reserve rows c).1 = register.next (bindings rows) c.binding := by
  have hvalidated : validateConnectorEventIdentity c.eventId c.source (some c.payloadHash) = .ok () :=
    hvalid
  unfold ConnectorEventStore.reserve
  rw [hvalidated]
  cases hinsert : rows.insert? c.row with
  | some committed =>
    have hfree : bindings rows c.identity = none := by
      rw [bindings, ← c.identity_row, (Table.insert?_eq_some.mp hinsert).1]
      rfl
    rw [Machine.answer, Machine.next, register.step_of_none hfree]
    exact ⟨rfl, bindings_insert? hinsert⟩
  | none =>
    obtain ⟨r, hr⟩ := Table.insert?_eq_none.mp hinsert
    have hbound : bindings rows c.identity = some r.payloadHash := by
      rw [bindings, ← c.identity_row, hr]
      rfl
    have hselect : selectHash rows.rows c.identity = some r.payloadHash := hbound
    have hstep : register.step (bindings rows) c.binding = (bindings rows,
        if r.payloadHash = c.payloadHash then .repeated else .conflicting) :=
      register.step_of_some hbound
    rw [Machine.answer, Machine.next, hstep]
    simp only [hselect]
    by_cases hsame : r.payloadHash = c.payloadHash
    · rw [if_neg (not_not.mpr hsame), if_pos hsame]
      exact ⟨rfl, rfl⟩
    · rw [if_pos hsame, if_neg hsame]
      exact ⟨rfl, rfl⟩

/-- The row count tells what the exception tells: the two are one function of the table. -/
theorem PostgresConnectorEventStore.reserve_eq (rows : ConnectorEvents T) (c : Reservation T) :
    PostgresConnectorEventStore.reserve rows c = ConnectorEventStore.reserve rows c := by
  unfold PostgresConnectorEventStore.reserve ConnectorEventStore.reserve insertOnConflictDoNothing
  cases validateConnectorEventIdentity c.eventId c.source (some c.payloadHash) with
  | error e => rfl
  | ok =>
    cases rows.insert? c.row with
    | some inserted => rfl
    | none => rfl

theorem connectorEventStore_follows : (connectorEventStore (T := T)).Follows register bindings
    Reservation.binding ofVerdict Reservation.Valid where
  answer_eq rows _ hvalid := (ConnectorEventStore.reserve_spec rows hvalid).1
  next_eq rows _ hvalid := (ConnectorEventStore.reserve_spec rows hvalid).2

theorem postgresConnectorEventStore_eq :
    postgresConnectorEventStore (T := T) = connectorEventStore := by
  unfold postgresConnectorEventStore connectorEventStore
  congr 1
  funext rows c
  exact PostgresConnectorEventStore.reserve_eq rows c

/-- Whatever is not accepted leaves the table as it was. -/
theorem ConnectorEventStore.reserve_refused {κ : Type} [DecidableEq κ] {key : ConnectorEvent T → κ}
    {rows : Table (ConnectorEvent T) κ key} {c : Reservation T}
    (h : (ConnectorEventStore.reserve rows c).2 ≠ .ok true) :
    (ConnectorEventStore.reserve rows c).1 = rows := by
  revert h
  unfold ConnectorEventStore.reserve
  split
  · intro _
    rfl
  · split
    · intro h
      exact absurd rfl h
    · intro _
      split
      · rfl
      · split_ifs
        · rfl
        · rfl

theorem ConnectorEventStore.reserve_invalid {κ : Type} [DecidableEq κ] {key : ConnectorEvent T → κ}
    {rows : Table (ConnectorEvent T) κ key} {c : Reservation T} (h : ¬ c.Valid) :
    (ConnectorEventStore.reserve rows c).2 ≠ .ok true := by
  unfold ConnectorEventStore.reserve
  cases hvalidated : validateConnectorEventIdentity c.eventId c.source (some c.payloadHash) with
  | error e => exact nofun
  | ok => exact absurd hvalidated h

/-- A bound identity stays bound. -/
theorem ConnectorEventStore.bound_reserve {rows : ConnectorEvents T} {identity : Text × Text}
    (h : bindings rows identity ≠ none) (c : Reservation T) :
    bindings (ConnectorEventStore.reserve rows c).1 identity ≠ none := by
  by_cases hvalid : c.Valid
  · obtain ⟨hash, hhash⟩ := Option.ne_none_iff_exists'.mp h
    rw [(ConnectorEventStore.reserve_spec rows hvalid).2, register.next_apply, hhash]
    simp
  · rw [ConnectorEventStore.reserve_refused]
    · exact h
    · exact ConnectorEventStore.reserve_invalid hvalid

/-- A bound identity is not accepted again. -/
theorem ConnectorEventStore.reserve_ne_true {rows : ConnectorEvents T} {c : Reservation T}
    (h : bindings rows c.identity ≠ none) : (ConnectorEventStore.reserve rows c).2 ≠ .ok true := by
  by_cases hvalid : c.Valid
  · rw [(ConnectorEventStore.reserve_spec rows hvalid).1, Ne, ofVerdict_eq_true,
      register.answer_eq_accepted]
    exact h
  · exact ConnectorEventStore.reserve_invalid hvalid

/-! ### The replay rule -/

/-- What a reservation comes to after others: the first for its identity is accepted, and
the payload hash of the first decides about the rest. -/
def Reservation.ruled (earlier : List (Reservation T)) (c : Reservation T) :
    Except ReserveError Bool :=
  match earlier.find? fun d => d.identity = c.identity with
  | none => .ok true
  | some first => if first.payloadHash = c.payloadHash then .ok false else .error conflict

/-- The register says the same of the calls made of the reservations. -/
theorem ofVerdict_answer_run (earlier : List (Reservation T)) (c : Reservation T) :
    ofVerdict (register.answer (register.run (fun _ => none) (earlier.map Reservation.binding))
      c.binding) = c.ruled earlier := by
  have hbound := register.run_apply (fun _ => none) (earlier.map Reservation.binding) c.identity
  rw [List.find?_map, Option.map_map, Option.none_or] at hbound
  have hfirst : (earlier.find? fun d => d.identity = c.identity) =
      earlier.find? ((fun d => decide (d.1 = c.identity)) ∘ Reservation.binding) := rfl
  unfold Reservation.ruled
  rw [hfirst]
  cases hfind : earlier.find? ((fun d => decide (d.1 = c.identity)) ∘ Reservation.binding) with
  | none =>
    rw [hfind] at hbound
    rw [register.answer_eq_accepted.mpr hbound]
    rfl
  | some first =>
    rw [hfind] at hbound
    have hstep := register.step_of_some (c := c.binding) hbound
    rw [Machine.answer, hstep]
    by_cases hsame : first.payloadHash = c.payloadHash
    · simp only [Function.comp, Reservation.binding, hsame, if_true, ofVerdict]
    · simp only [Function.comp, Reservation.binding, hsame, if_false, ofVerdict]

/-- Both stores follow the replay rule: whatever their clocks say, they answer the same
reservations alike, as the rule says, and accept each identity once. A store that does not
accept stays as it was. -/
theorem stores_follow_replay_rule {calls calls' : List (Reservation T)}
    (hvalid : ∀ c ∈ calls, c.Valid)
    (hsame : calls'.map Reservation.arguments = calls.map Reservation.arguments) :
    postgresConnectorEventStore.answers Table.empty calls' =
        connectorEventStore.answers Table.empty calls ∧
      (∀ earlier c later, calls = earlier ++ c :: later →
        connectorEventStore.answer (connectorEventStore.run Table.empty earlier) c =
          c.ruled earlier) ∧
      (∀ identity ∈ calls.map Reservation.identity,
        (calls.zip (connectorEventStore.answers Table.empty calls)).countP
          (fun p => p.1.identity = identity ∧ p.2 = .ok true) = 1) ∧
      (∀ (rows : ConnectorEvents T) (c : Reservation T),
        connectorEventStore.answer rows c ≠ .ok true → connectorEventStore.next rows c = rows) ∧
      ∀ (rows : ConnectorEvents T) (c : Reservation T),
        postgresConnectorEventStore.answer rows c ≠ .ok true →
          postgresConnectorEventStore.next rows c = rows := by
  have hanswers := connectorEventStore_follows.answers_eq Table.empty hvalid
  rw [bindings_empty] at hanswers
  refine ⟨?_, ?_, ?_, fun rows c => ConnectorEventStore.reserve_refused, ?_⟩
  · have hvalid' : ∀ c ∈ calls', c.Valid := by
      intro c hc
      have harguments := List.mem_map_of_mem (f := Reservation.arguments) hc
      rw [hsame, List.mem_map] at harguments
      obtain ⟨d, hd, hdc⟩ := harguments
      exact (Reservation.valid_congr hdc).mp (hvalid d hd)
    rw [postgresConnectorEventStore_eq, connectorEventStore_follows.answers_eq _ hvalid',
      bindings_empty, hanswers, Reservation.map_binding, Reservation.map_binding, hsame]
  · rintro earlier c later rfl
    have hearlier : ∀ d ∈ earlier, d.Valid := fun d hd => hvalid d (List.mem_append_left _ hd)
    rw [connectorEventStore_follows.answer_eq _ c (hvalid c (by simp)),
      connectorEventStore_follows.run_eq _ hearlier, bindings_empty, ofVerdict_answer_run]
  · intro identity hidentity
    have honce := register.countP_accepted (fun _ => none) (calls.map Reservation.binding) identity
    have hmem : identity ∈ (calls.map Reservation.binding).map Prod.fst := by
      rw [List.map_map]
      exact hidentity
    rw [if_pos ⟨rfl, hmem⟩, List.zip_map_left, List.countP_map] at honce
    rw [hanswers, List.zip_map_right, List.countP_map, ← honce]
    refine List.countP_congr fun p _ => ?_
    simp only [Function.comp, Prod.map, id, Reservation.binding, decide_eq_true_iff,
      ofVerdict_eq_true]
    exact decide_eq_true_iff.symm
  · rw [postgresConnectorEventStore_eq]
    exact fun rows c => ConnectorEventStore.reserve_refused

/-- Two sources with one event id, a replay, and another payload under a known identity. -/
def replayedCalls : List (Reservation ℤ) :=
  let hash (c : Char) : Text := List.replicate 64 (ofChar c)
  [⟨lit "E-1", lit "scanner", hash 'a', 1⟩, ⟨lit "E-1", lit "edr", hash 'b', 2⟩,
    ⟨lit "E-1", lit "scanner", hash 'a', 3⟩, ⟨lit "E-1", lit "scanner", hash 'b', 4⟩]

theorem stores_follow_replay_rule_replayed :
    postgresConnectorEventStore.answers Table.empty replayedCalls =
        connectorEventStore.answers Table.empty replayedCalls ∧
      connectorEventStore.answers Table.empty replayedCalls =
        [.ok true, .ok true, .ok false, .error conflict] :=
  ⟨(stores_follow_replay_rule (by decide : ∀ c ∈ replayedCalls, c.Valid) rfl).1, by decide⟩

end SentinelGRC.Connectors
