import SentinelGRC.Delivery.Moves
import SentinelGRC.Governance.Runs

/-!
Commits of the core, seen from the queues. The rows of each queue stand for the events,
one each and in their order; a commit adds a row that comes last in its finding. So every
step of the core, like every call, is a move of the protocol on either queue.
-/

namespace SentinelGRC.Delivery

open Python Store Governance Protocol Transition

variable {ρ F S : Type} {clash : ρ → ρ → Bool} [Deliverable ρ F clash]

/-! ### Rows for events -/

/-- Where an event stands. -/
structure Place where
  eventId : Text
  findingId : Text
  eventSequence : ℕ

def Key.place (k : Key) : Place := ⟨k.eventId, k.findingId, k.eventSequence⟩

def eventPlace (e : Event F) : Place := ⟨e.eventId, e.findingId, e.eventSequence⟩

/-- The rows stand for the events. -/
def Mirrors (q : Unique ρ clash) (events : List (Event F)) : Prop :=
  (q.rows.map key).map Key.place = events.map eventPlace

/-- What a step does to a queue: the effect of a call, or a row that comes last in its finding. -/
inductive Evolution (q : Unique ρ clash) : Notice Text Text → Unique ρ clash → Prop
  | called {q' : Unique ρ clash} {notice : Notice Text Text} (effect : Effect q notice q') :
      Evolution q notice q'
  | committed {q' : Unique ρ clash} (r : ρ) (rows : q'.rows = q.rows ++ [r])
      (waiting : (progress r).finishedAt = none ∧ (progress r).deadAt = none ∧
        (progress r).lockToken = none)
      (last : ∀ s ∈ q.rows, (key s).findingId = (key r).findingId →
        (key s).eventSequence < (key r).eventSequence) : Evolution q .silent q'

variable {q q' : Unique ρ clash} {notice : Notice Text Text}

theorem find?_committed {r : ρ} (hrows : q'.rows = q.rows ++ [r]) (id : Text) :
    find? q' id = if (key r).id = id then some r else find? q id := by
  split_ifs with hid
  · rw [find?_eq_some, hrows]
    exact ⟨by simp, hid⟩
  · refine find?_congr fun s hs => ?_
    rw [hrows, List.mem_append, List.mem_singleton]
    constructor
    · rintro (h | rfl)
      · exact h
      · exact absurd hs hid
    · exact .inl

/-- The id of a new row is new. -/
theorem find?_new {r : ρ} (hrows : q'.rows = q.rows ++ [r]) : find? q (key r).id = none := by
  cases hfound : find? q (key r).id with
  | none => rfl
  | some s =>
    obtain ⟨hs, hid⟩ := find?_eq_some.mp hfound
    have hapart := q'.apart
    rw [hrows, List.pairwise_append] at hapart
    have hclash := hapart.2.2 s hs r (List.mem_singleton_self r)
    rw [Deliverable.clash_id s r hid] at hclash
    cases hclash

theorem Evolution.move (h : Evolution q notice q') : (items q).Move notice (items q') := by
  cases h with
  | called effect => exact effect.move
  | committed r rows waiting last =>
    have heq : items q' = Function.update (items q) (key r).id
        (some ⟨(key r).findingId, (key r).eventSequence, false, false, none⟩) := by
      funext j
      rw [items, find?_committed rows, Function.update_apply]
      by_cases hj : (key r).id = j
      · rw [if_pos hj, if_pos hj.symm]
        simp only [Option.map_some, item, waiting, Option.isSome_none]
      · rw [if_neg hj, if_neg (Ne.symm hj)]
        rfl
    rw [heq]
    refine .added _ _ _ ?_ ?_
    · rw [items, find?_new rows]
      rfl
    · intro j y hy hgroup
      obtain ⟨s, hs, -, rfl⟩ := items_eq_some.mp hy
      exact last s hs hgroup

theorem Evolution.kept (h : Evolution q notice q') {id : Text} {r : ρ} (hr : find? q id = some r) :
    ∃ r', find? q' id = some r' ∧ key r' = key r ∧
      ((progress r).finishedAt.isSome = true → r' = r) := by
  cases h with
  | called effect => exact effect.kept hr
  | committed s rows waiting last =>
    rw [find?_committed rows, if_neg]
    · exact ⟨r, hr, rfl, fun _ => rfl⟩
    · rintro rfl
      rw [find?_new rows] at hr
      cases hr

theorem Mirrors.effect {events : List (Event F)} (h : Mirrors q events) (he : Effect q notice q') :
    Mirrors q' events := by
  rw [Mirrors, he.keys]
  exact h

omit [Deliverable ρ F clash] in
theorem lt_nextSequence {events : List (Event F)} {n : ℕ} (h : n ∈ events.map Event.eventSequence) :
    n < nextSequence events := by
  unfold nextSequence
  induction events with
  | nil => cases h
  | cons e events ih =>
    rw [List.map_cons, List.foldr_cons]
    rcases List.mem_cons.mp h with rfl | h
    · omega
    · have := ih h
      omega

/-- A row added for the next event of its finding. -/
theorem Mirrors.committed {db : Db F} {q q' : Unique ρ clash} (h : Mirrors q db.governanceEvents.rows)
    {e : Event F} {r : ρ} (hrows : q'.rows = q.rows ++ [r]) (hplace : (key r).place = eventPlace e)
    (hnext : e.eventSequence = nextSequence (db.eventsOf e.findingId))
    (hwaiting : (progress r).finishedAt = none ∧ (progress r).deadAt = none ∧
      (progress r).lockToken = none) :
    Evolution q .silent q' ∧ Mirrors q' (db.governanceEvents.rows ++ [e]) := by
  constructor
  · refine .committed r hrows hwaiting ?_
    intro s hs hfinding
    simp only [Key.place, eventPlace, Place.mk.injEq] at hplace
    have hmem : (key s).place ∈ (q.rows.map key).map Key.place :=
      List.mem_map.mpr ⟨key s, List.mem_map.mpr ⟨s, hs, rfl⟩, rfl⟩
    rw [show (q.rows.map key).map Key.place = _ from h] at hmem
    obtain ⟨d, hd, hds⟩ := List.mem_map.mp hmem
    simp only [Key.place, eventPlace, Place.mk.injEq] at hds
    rw [hplace.2.2, hnext]
    apply lt_nextSequence
    refine List.mem_map.mpr ⟨d, List.mem_filter.mpr ⟨hd, ?_⟩, hds.2.2⟩
    rw [decide_eq_true_eq, hds.2.1, hfinding, hplace.2.1]
  · rw [Mirrors, hrows, List.map_append, List.map_append,
      show (q.rows.map key).map Key.place = _ from h, List.map_append]
    simp only [List.map_cons, List.map_nil, hplace]

/-! ### The database -/

/-- Both queues hold the rows of the events. -/
structure Mirrored (db : Db F) : Prop where
  outbox : Mirrors db.governanceOutbox db.governanceEvents.rows
  exports : Mirrors db.auditExports db.governanceEvents.rows

omit [Deliverable ρ F clash] in
theorem mirrored_empty : Mirrored (Db.empty : Db F) := ⟨rfl, rfl⟩

variable [PyFloat F] {H : Digest} {store : EvidenceStore S}

/-- A step of the core keeps the rows of the events, and moves both queues. -/
theorem Mirrored.core {s : Sys F S} (h : Mirrored s.db) (H : Digest) (store : EvidenceStore S)
    (a : Action F) :
    Mirrored ((governance H store).next s a).db ∧
      Evolution s.db.governanceOutbox .silent ((governance H store).next s a).db.governanceOutbox ∧
      Evolution s.db.auditExports .silent ((governance H store).next s a).db.auditExports := by
  have hsame {db' : Db F} (hdb : db' = s.db) : Mirrored db' ∧
      Evolution s.db.governanceOutbox .silent db'.governanceOutbox ∧
      Evolution s.db.auditExports .silent db'.auditExports := by
    subst hdb
    exact ⟨h, .called .idle, .called .idle⟩
  rcases next_effect H store s a with hdb | ⟨p, stamp, -, heffect⟩
  · exact hsame hdb
  · rcases heffect.commits with hdb | ⟨k, type, details, e, hlogged⟩
    · exact hsame hdb
    · obtain ⟨o, x, hrows, houtbox, hexports⟩ := hlogged.rows
      obtain ⟨payloadJson, hout, hexp, -⟩ := hrows.payload
      have hnext : e.eventSequence = nextSequence (s.db.eventsOf e.findingId) := by
        rw [hrows.eventSequence, hrows.findingId]
      have hoplace : (key o).place = eventPlace e := by
        simp only [Key.place, eventPlace, Place.mk.injEq]
        exact ⟨hout.eventId, hout.findingId, hout.eventSequence⟩
      have hxplace : (key x).place = eventPlace e := by
        simp only [Key.place, eventPlace, Place.mk.injEq]
        exact ⟨hexp.eventId, hexp.findingId, hexp.eventSequence⟩
      obtain ⟨ho, hmo⟩ := h.outbox.committed houtbox hoplace hnext hrows.undelivered
      obtain ⟨hx, hmx⟩ := h.exports.committed hexports hxplace hnext hrows.unarchived
      rw [← hlogged.events] at hmo hmx
      exact ⟨⟨hmo, hmx⟩, ho, hx⟩

end SentinelGRC.Delivery
