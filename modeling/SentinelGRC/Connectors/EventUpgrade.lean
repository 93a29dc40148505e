import SentinelGRC.Connectors.Events

/-!
The upgrade of a table of connector events whose primary key is the event id alone. The
script copies the rows to a second table, drops the first and renames the second, one
statement after the other outside any transaction. A store that is constructed again after
a crash finds the tables as the statements before the crash left them: the second table
makes the script fail, and without the first one an empty table takes its place.
-/

namespace SentinelGRC.Connectors

open Python Store Transition

variable {T : Type}

abbrev LegacyEvents (T : Type) := Table (ConnectorEvent T) Text ConnectorEvent.eventId

/-- `connector_events`, by its primary key. -/
inductive EventsTable (T : Type)
  | legacy (rows : LegacyEvents T)
  | current (rows : ConnectorEvents T)

def EventsTable.rows : EventsTable T → List (ConnectorEvent T)
  | .legacy rows => rows.rows
  | .current rows => rows.rows

/-- The primary key, as `PRAGMA table_info` tells it. -/
def EventsTable.primaryKeys : EventsTable T → List Text
  | .legacy _ => [lit "event_id"]
  | .current _ => [lit "source", lit "event_id"]

structure EventsDatabase (T : Type) where
  connectorEvents : Option (EventsTable T)
  connectorEventsV2 : Option (ConnectorEvents T)

/-! ### The upgrade -/

/-- `CREATE TABLE connector_events_v2`. -/
def createV2 (db : EventsDatabase T) : Except PyError (EventsDatabase T) :=
  match db.connectorEventsV2 with
  | some _ => .error .operationalError
  | none => .ok { db with connectorEventsV2 := some Table.empty }

/-- `INSERT OR IGNORE`, row by row. -/
def insertOrIgnore (table : ConnectorEvents T) (rows : List (ConnectorEvent T)) : ConnectorEvents T :=
  rows.foldl (fun table r => (table.insert? r).getD table) table

/-- `INSERT OR IGNORE INTO connector_events_v2 SELECT ... FROM connector_events`. -/
def copyToV2 (db : EventsDatabase T) : Except PyError (EventsDatabase T) :=
  match db.connectorEvents, db.connectorEventsV2 with
  | some table, some v2 => .ok { db with connectorEventsV2 := some (insertOrIgnore v2 table.rows) }
  | _, _ => .error .operationalError

/-- `DROP TABLE connector_events`. -/
def dropLegacy (db : EventsDatabase T) : Except PyError (EventsDatabase T) :=
  match db.connectorEvents with
  | some _ => .ok { db with connectorEvents := none }
  | none => .error .operationalError

/-- `ALTER TABLE connector_events_v2 RENAME TO connector_events`. -/
def renameV2 (db : EventsDatabase T) : Except PyError (EventsDatabase T) :=
  match db.connectorEvents, db.connectorEventsV2 with
  | none, some v2 => .ok ⟨some (.current v2), none⟩
  | _, _ => .error .operationalError

def upgradeScript : List (EventsDatabase T → Except PyError (EventsDatabase T)) :=
  [createV2, copyToV2, dropLegacy, renameV2]

/-- `executescript` in autocommit mode: every statement is durable once it has run. -/
def executescript : List (EventsDatabase T → Except PyError (EventsDatabase T)) →
    EventsDatabase T → EventsDatabase T × Except PyError Unit
  | [], db => (db, .ok ())
  | statement :: rest, db =>
    match statement db with
    | .error e => (db, .error e)
    | .ok db => executescript rest db

/-- `CREATE TABLE IF NOT EXISTS connector_events`. -/
def createIfNotExists (db : EventsDatabase T) : EventsDatabase T :=
  { db with connectorEvents := some (db.connectorEvents.getD (.current Table.empty)) }

/-- The constructor, as far as the first `n` statements of the upgrade. -/
def constructUpTo (n : ℕ) (db : EventsDatabase T) : EventsDatabase T × Except PyError Unit :=
  let db := createIfNotExists db
  if db.connectorEvents.map EventsTable.primaryKeys = some [lit "event_id"] then
    executescript (upgradeScript.take n) db
  else (db, .ok ())

/-- `ConnectorEventStore.__init__`. -/
def construct (db : EventsDatabase T) : EventsDatabase T × Except PyError Unit :=
  constructUpTo (upgradeScript (T := T)).length db

/-- What a crash of the constructor leaves, after `n` statements of the upgrade. -/
def crashed (n : ℕ) (db : EventsDatabase T) : EventsDatabase T := (constructUpTo n db).1

/-! ### Reservations -/

/-- `ConnectorEventStore.reserve` on the table that is there. -/
def EventsDatabase.reserve (db : EventsDatabase T) (c : Reservation T) :
    EventsDatabase T × Except ReserveError Bool :=
  match db.connectorEvents with
  | none =>
    match validateConnectorEventIdentity c.eventId c.source (some c.payloadHash) with
    | .error e => (db, .error (.other e))
    | .ok () => (db, .error (.other .operationalError))
  | some (.legacy rows) =>
    let (rows, answer) := ConnectorEventStore.reserve rows c
    ({ db with connectorEvents := some (.legacy rows) }, answer)
  | some (.current rows) =>
    let (rows, answer) := ConnectorEventStore.reserve rows c
    ({ db with connectorEvents := some (.current rows) }, answer)

def eventsDatabase : Machine (EventsDatabase T) (Reservation T) (Except ReserveError Bool) where
  step := EventsDatabase.reserve

/-- A database whose table has the old primary key. -/
def legacyDatabase (legacy : LegacyEvents T) : EventsDatabase T := ⟨some (.legacy legacy), none⟩

/-- The construction succeeds, and from then on no identity of the old table is accepted. -/
def Remembers (legacy : LegacyEvents T) (constructed : EventsDatabase T × Except PyError Unit) :
    Prop :=
  constructed.2 = .ok () ∧ ∀ calls c, c.identity ∈ legacy.rows.map ConnectorEvent.identity →
    eventsDatabase.answer (eventsDatabase.run constructed.1 calls) c ≠ .ok true

/-- An identity that `reserve` accepts. -/
def ConnectorEvent.Canonical (r : ConnectorEvent T) : Prop :=
  validateConnectorEventIdentity r.eventId r.source none = .ok ()

/-! ### What the statements leave -/

/-- Rows of distinct identities are copied as they stand. -/
theorem rows_insertOrIgnore (table : ConnectorEvents T) {rows : List (ConnectorEvent T)}
    (h : ((table.rows ++ rows).map ConnectorEvent.identity).Nodup) :
    (insertOrIgnore table rows).rows = table.rows ++ rows := by
  induction rows generalizing table with
  | nil => exact (List.append_nil _).symm
  | cons r rows ih =>
    obtain ⟨inserted, hinserted⟩ : ∃ inserted, table.insert? r = some inserted := by
      rw [← Option.ne_none_iff_exists']
      intro hnone
      obtain ⟨q, hq⟩ := Table.insert?_eq_none.mp hnone
      obtain ⟨hmem, hkey⟩ := Table.find?_eq_some.mp hq
      rw [List.map_append, List.nodup_append] at h
      exact h.2.2 _ (List.mem_map_of_mem hmem) _ (List.mem_map_of_mem List.mem_cons_self) hkey
    have hrows := (Table.insert?_eq_some.mp hinserted).2
    rw [insertOrIgnore, List.foldl_cons, hinserted, Option.getD_some, ← insertOrIgnore, ih, hrows,
      List.append_assoc, List.singleton_append]
    rw [hrows, List.append_assoc, List.singleton_append]
    exact h

/-- The old table, copied. -/
def copied (legacy : LegacyEvents T) : ConnectorEvents T := insertOrIgnore Table.empty legacy.rows

/-- Event ids of the old table are distinct, so its identities are. -/
theorem rows_copied (legacy : LegacyEvents T) : (copied legacy).rows = legacy.rows := by
  have hids : (legacy.rows.map ConnectorEvent.identity).map Prod.snd =
      legacy.rows.map ConnectorEvent.eventId := by
    rw [List.map_map]
    rfl
  have hdistinct : (legacy.rows.map ConnectorEvent.identity).Nodup :=
    (hids ▸ legacy.distinct).of_map Prod.snd
  exact rows_insertOrIgnore Table.empty hdistinct

/-- The five databases that a crash can leave. -/
theorem crashed_cases (legacy : LegacyEvents T) (n : ℕ) :
    (n = 0 ∧ crashed n (legacyDatabase legacy) = legacyDatabase legacy) ∨
    (n = 1 ∧ crashed n (legacyDatabase legacy) = ⟨some (.legacy legacy), some Table.empty⟩) ∨
    (n = 2 ∧ crashed n (legacyDatabase legacy) = ⟨some (.legacy legacy), some (copied legacy)⟩) ∨
    (n = 3 ∧ crashed n (legacyDatabase legacy) = ⟨none, some (copied legacy)⟩) ∨
    (4 ≤ n ∧ crashed n (legacyDatabase legacy) = ⟨some (.current (copied legacy)), none⟩) := by
  match n with
  | 0 => exact .inl ⟨rfl, rfl⟩
  | 1 => exact .inr (.inl ⟨rfl, rfl⟩)
  | 2 => exact .inr (.inr (.inl ⟨rfl, rfl⟩))
  | 3 => exact .inr (.inr (.inr (.inl ⟨rfl, rfl⟩)))
  | n + 4 =>
    refine .inr (.inr (.inr (.inr ⟨Nat.le_add_left 4 n, ?_⟩)))
    have htake : (upgradeScript (T := T)).take (n + 4) = upgradeScript :=
      List.take_of_length_le (Nat.le_add_left 4 n)
    rw [crashed, constructUpTo, htake]
    rfl

theorem construct_legacy (legacy : LegacyEvents T) :
    construct (legacyDatabase legacy) = (⟨some (.current (copied legacy)), none⟩, .ok ()) := rfl

/-! ### Replays -/

theorem bindings_ne_none {rows : ConnectorEvents T} {identity : Text × Text}
    (h : identity ∈ rows.rows.map ConnectorEvent.identity) : bindings rows identity ≠ none := by
  obtain ⟨r, hr, rfl⟩ := List.mem_map.mp h
  have hfind := Table.find?_eq_some.mpr ⟨hr, rfl⟩
  simp [bindings, hfind]

/-- A table with the new primary key is the store of the register. -/
theorem run_current (rows : ConnectorEvents T) (v2 : Option (ConnectorEvents T))
    (calls : List (Reservation T)) : eventsDatabase.run ⟨some (.current rows), v2⟩ calls =
      ⟨some (.current (connectorEventStore.run rows calls)), v2⟩ := by
  induction calls generalizing rows with
  | nil => rfl
  | cons c calls ih => exact ih _

theorem remembers_current {legacy : LegacyEvents T} {rows : ConnectorEvents T}
    {v2 : Option (ConnectorEvents T)}
    (h : ∀ identity ∈ legacy.rows.map ConnectorEvent.identity, bindings rows identity ≠ none) :
    Remembers legacy (⟨some (.current rows), v2⟩, .ok ()) := by
  refine ⟨rfl, fun calls c hc => ?_⟩
  have hbound := connectorEventStore.run_invariant
    (I := fun rows => bindings rows c.identity ≠ none)
    (fun rows d hrows => ConnectorEventStore.bound_reserve hrows d) (h _ hc) calls
  rw [run_current]
  exact ConnectorEventStore.reserve_ne_true hbound

theorem remembers_copied (legacy : LegacyEvents T) (v2 : Option (ConnectorEvents T)) :
    Remembers legacy (⟨some (.current (copied legacy)), v2⟩, .ok ()) := by
  refine remembers_current fun identity hidentity => bindings_ne_none ?_
  rw [rows_copied]
  exact hidentity

/-- An empty table remembers nothing: the first valid call for an identity is accepted. -/
theorem remembers_empty {legacy : LegacyEvents T} {v2 : Option (ConnectorEvents T)} :
    Remembers legacy (⟨some (.current Table.empty), v2⟩, .ok ()) ↔
      ∀ r ∈ legacy.rows, ¬ r.Canonical := by
  constructor
  · rintro ⟨-, h⟩ r hr hcanonical
    let c : Reservation T :=
      ⟨r.eventId, r.source, List.replicate 64 (ofChar '0'), r.acceptedAt⟩
    obtain ⟨hsource, hid, -⟩ := validateConnectorEventIdentity_eq_ok.mp hcanonical
    have hzeros : isSha256Digest (List.replicate 64 (ofChar '0')) = true := by decide
    have hvalid : c.Valid := by
      refine validateConnectorEventIdentity_eq_ok.mpr ⟨hsource, hid, ?_⟩
      rintro hash ⟨⟩
      exact hzeros
    refine h [] c (List.mem_map_of_mem hr) ?_
    change (ConnectorEventStore.reserve Table.empty c).2 = _
    rw [(ConnectorEventStore.reserve_spec _ hvalid).1, ofVerdict_eq_true, register.answer_eq_accepted]
    rfl
  · intro h
    refine ⟨rfl, fun calls c hc => ?_⟩
    obtain ⟨r, hr, hidentity⟩ := List.mem_map.mp hc
    rw [run_current]
    refine ConnectorEventStore.reserve_invalid fun hvalid => h r hr ?_
    obtain ⟨hsource, hid, -⟩ := validateConnectorEventIdentity_eq_ok.mp hvalid
    simp only [ConnectorEvent.identity, Reservation.identity, Prod.mk.injEq] at hidentity
    rw [← hidentity.1] at hsource
    rw [← hidentity.2] at hid
    exact validateConnectorEventIdentity_eq_ok.mpr ⟨hsource, hid, nofun⟩

/-! ### Crashes -/

/-- The upgrade remembers what the old table held exactly if it crashes before its first
statement or after its last one, or between the last two with nothing to remember. Without
a crash it leaves the old rows as they were. -/
theorem upgrade_remembers_iff (legacy : LegacyEvents T) (n : ℕ) :
    (Remembers legacy (construct (crashed n (legacyDatabase legacy))) ↔
      n = 0 ∨ (n = 3 ∧ ∀ r ∈ legacy.rows, ¬ r.Canonical) ∨ 4 ≤ n) ∧
    ∃ upgraded, construct (legacyDatabase legacy) = (⟨some (.current upgraded), none⟩, .ok ()) ∧
      upgraded.rows = legacy.rows := by
  refine ⟨?_, copied legacy, construct_legacy legacy, rows_copied legacy⟩
  rcases crashed_cases legacy n with ⟨rfl, h⟩ | ⟨rfl, h⟩ | ⟨rfl, h⟩ | ⟨rfl, h⟩ | ⟨hn, h⟩
  · rw [h, construct_legacy]
    exact iff_of_true (remembers_copied legacy none) (.inl rfl)
  · rw [h]
    exact iff_of_false (fun hremembers => nomatch hremembers.1) (by omega)
  · rw [h]
    exact iff_of_false (fun hremembers => nomatch hremembers.1) (by omega)
  · have hconstruct : construct (crashed 3 (legacyDatabase legacy)) =
        (⟨some (.current Table.empty), some (copied legacy)⟩, .ok ()) := by
      rw [h]
      rfl
    rw [hconstruct, remembers_empty]
    simp
  · have hconstruct : construct (crashed n (legacyDatabase legacy)) =
        (⟨some (.current (copied legacy)), none⟩, .ok ()) := by
      rw [h]
      rfl
    rw [hconstruct]
    exact iff_of_true (remembers_copied legacy none) (.inr (.inr hn))

/-- An old table with one row. -/
def oneLegacyEvent : LegacyEvents ℤ where
  rows := [⟨lit "scanner", lit "E-1", List.replicate 64 (ofChar 'a'), 1⟩]
  distinct := List.nodup_singleton _

/-- The event of the old table, once more. -/
def replayedLegacyEvent : Reservation ℤ :=
  ⟨lit "E-1", lit "scanner", List.replicate 64 (ofChar 'a'), 2⟩

/-- After a crash behind `CREATE TABLE` the store cannot be constructed; after a crash behind
`DROP TABLE` it can, and accepts the event of the old table once more. -/
theorem upgrade_forgets :
    (construct (crashed 1 (legacyDatabase oneLegacyEvent))).2 = .error .operationalError ∧
      eventsDatabase.answer (construct (crashed 3 (legacyDatabase oneLegacyEvent))).1
        replayedLegacyEvent = .ok true ∧
      ¬ Remembers oneLegacyEvent (construct (crashed 1 (legacyDatabase oneLegacyEvent))) ∧
      ¬ Remembers oneLegacyEvent (construct (crashed 3 (legacyDatabase oneLegacyEvent))) := by
  have haccepted : eventsDatabase.answer
      (construct (crashed 3 (legacyDatabase oneLegacyEvent))).1 replayedLegacyEvent = .ok true := by
    decide
  refine ⟨rfl, haccepted, fun h => (nomatch h.1), fun h => ?_⟩
  exact h.2 [] replayedLegacyEvent (by decide) haccepted

end SentinelGRC.Connectors
