import Mathlib.Data.List.Dedup
import SentinelGRC.Graph.Pursuit
import SentinelGRC.Python.Json
import SentinelGRC.Store.Table

/-!
The event table of a database written before events had a sequence. The backfill walks the
hash chain of each finding through a map from previous hashes to rows, appends the rows that
the walk did not reach and numbers the result. Hashes that repeat would send the walk round
for ever; distinct ones cannot, whatever the stored previous hashes are.
-/

namespace SentinelGRC.Governance

open Python Json Store SentinelGRC.Graph

variable {T : Type}

/-- A row of `governance_events` as it is stored. -/
structure EventRow (T : Type) where
  eventId : Text
  findingId : Text
  eventSequence : ℤ
  eventType : Text
  actorId : Text
  actorRole : Text
  authMethod : Text
  occurredAt : T
  detailsJson : Text
  previousHash : Text
  eventHash : Text

namespace EventRow

def numbered (r : EventRow T) (n : ℤ) : EventRow T := { r with eventSequence := n }

@[simp] theorem eventId_numbered (n : ℤ) (r : EventRow T) : (r.numbered n).eventId = r.eventId :=
  rfl

@[simp] theorem findingId_numbered (n : ℤ) (r : EventRow T) :
    (r.numbered n).findingId = r.findingId := rfl

@[simp] theorem eventSequence_numbered (n : ℤ) (r : EventRow T) :
    (r.numbered n).eventSequence = n := rfl

@[simp] theorem numbered_numbered (m n : ℤ) (r : EventRow T) :
    (r.numbered m).numbered n = r.numbered n := rfl

end EventRow

abbrev EventTable (T : Type) := Table (EventRow T) Text EventRow.eventId

/-- `WHERE finding_id = ?`. -/
def rowsOf (events : EventTable T) (findingId : Text) : List (EventRow T) :=
  events.rows.filter fun r => r.findingId = findingId

theorem mem_rowsOf {events : EventTable T} {findingId : Text} {r : EventRow T} :
    r ∈ rowsOf events findingId ↔ r ∈ events.rows ∧ r.findingId = findingId := by
  simp [rowsOf]

theorem nodup_rowsOf (events : EventTable T) (findingId : Text) :
    ((rowsOf events findingId).map EventRow.eventId).Nodup :=
  events.distinct.sublist (List.filter_sublist.map _)

/-! ### The walk -/

/-- `{str(row[1]): row for row in rows}`: of several rows under a hash the last one stays. -/
def byPrevious (rows : List (EventRow T)) (hash : Text) : Option (EventRow T) :=
  rows.reverse.find? fun r => r.previousHash = hash

/-- The row that the walk goes to from a row. -/
def following (rows : List (EventRow T)) (r : EventRow T) : Option (EventRow T) :=
  byPrevious rows r.eventHash

/-- The rows that the walk did not reach. -/
def unreached (rows ordered : List (EventRow T)) : List (EventRow T) :=
  rows.filter fun r => r.eventId ∉ ordered.map EventRow.eventId

/-- The order that the backfill numbers rows in. The fuel bounds the turns of `while`. -/
def orderedRows (fuel : ℕ) (rows : List (EventRow T)) : Option (List (EventRow T)) :=
  (follow (following rows) fuel (byPrevious rows [])).map fun ordered =>
    ordered ++ unreached rows ordered

/-! ### What the walk reaches -/

/-- Distinct event hashes, none of them empty. -/
def DistinctHashes (rows : List (EventRow T)) : Prop :=
  ([] :: rows.map EventRow.eventHash).Nodup

/-- Each row names the hash of the one before it, the first the given one. -/
def Linked : Text → List (EventRow T) → Prop
  | _, [] => True
  | hash, r :: rest => r.previousHash = hash ∧ Linked r.eventHash rest

section Walk
variable {rows ordered chain rest : List (EventRow T)} {q r : EventRow T} {hash : Text}

theorem DistinctHashes.perm (h : DistinctHashes rows) (hperm : rows.Perm chain) :
    DistinctHashes chain :=
  ((hperm.map EventRow.eventHash).cons []).nodup_iff.mp h

theorem DistinctHashes.rowsOf {events : EventTable T} (h : DistinctHashes events.rows)
    (findingId : Text) : DistinctHashes (rowsOf events findingId) :=
  h.sublist ((List.filter_sublist.map _).cons_cons [])

theorem DistinctHashes.injective (h : DistinctHashes rows) (hq : q ∈ rows) (hr : r ∈ rows)
    (hash_eq : q.eventHash = r.eventHash) : q = r :=
  List.inj_on_of_nodup_map (List.nodup_cons.mp h).2 hq hr hash_eq

theorem DistinctHashes.nonempty (h : DistinctHashes rows) (hr : r ∈ rows) : r.eventHash ≠ [] := by
  intro hempty
  exact (List.nodup_cons.mp h).1 (hempty ▸ List.mem_map_of_mem hr)

theorem byPrevious_eq_some (h : byPrevious rows hash = some r) :
    r ∈ rows ∧ r.previousHash = hash :=
  ⟨List.mem_reverse.mp (List.mem_of_find?_eq_some h), by simpa using List.find?_some h⟩

theorem byPrevious_eq_none : byPrevious rows hash = none ↔ ∀ r ∈ rows, r.previousHash ≠ hash := by
  simp [byPrevious]

/-- The row under a hash that one row only names. -/
theorem byPrevious_of_unique (hr : r ∈ rows) (hash_eq : r.previousHash = hash)
    (hunique : ∀ q ∈ rows, q.previousHash = hash → q = r) : byPrevious rows hash = some r := by
  cases hfind : byPrevious rows hash with
  | none => exact absurd hash_eq (byPrevious_eq_none.mp hfind r hr)
  | some q =>
    obtain ⟨hq, hprevious⟩ := byPrevious_eq_some hfind
    rw [hunique q hq hprevious]

/-- The walk ends, for any previous hashes: two rows that lead to the same row would have the
hash that it names, and none leads to the row that names the empty hash. -/
theorem exists_walk (h : DistinctHashes rows) :
    ∃ ordered, Trail (following rows) (byPrevious rows []) ordered ∧ ordered.Nodup ∧
      ordered ⊆ rows := by
  apply exists_trail
  · intro a ha
    exact (byPrevious_eq_some ha).1
  · intro p _ b hb
    exact (byPrevious_eq_some hb).1
  · intro p hp q hq b hpb hqb
    apply h.injective hp hq
    rw [← (byPrevious_eq_some hpb).2, ← (byPrevious_eq_some hqb).2]
  · intro p hp a ha hpa
    apply h.nonempty hp
    rw [← (byPrevious_eq_some hpa).2, (byPrevious_eq_some ha).2]

theorem Linked.previous_mem (h : Linked hash rest) (hq : q ∈ rest) :
    q.previousHash ∈ hash :: rest.map EventRow.eventHash := by
  induction rest generalizing hash with
  | nil => cases hq
  | cons r rest ih =>
    obtain ⟨hprevious, hrest⟩ := h
    rcases List.mem_cons.mp hq with rfl | hq
    · exact hprevious ▸ List.mem_cons_self
    · exact List.mem_cons_of_mem _ (ih hrest hq)

/-- From the hash before the rest of a chain the walk goes through that rest. -/
theorem Linked.trail (h : Linked hash rest) (hdistinct : (hash :: rest.map EventRow.eventHash).Nodup)
    (hsubset : rest ⊆ rows)
    (hother : ∀ q ∈ rows, q ∉ rest → q.previousHash ∉ hash :: rest.map EventRow.eventHash) :
    Trail (following rows) (byPrevious rows hash) rest := by
  induction rest generalizing hash with
  | nil =>
    have hnone : byPrevious rows hash = none := by
      refine byPrevious_eq_none.mpr fun q hq hprevious => ?_
      exact hother q hq List.not_mem_nil (hprevious ▸ List.mem_cons_self)
    rw [hnone]
    exact Trail.nil
  | cons r rest ih =>
    obtain ⟨hprevious, hrest⟩ := h
    obtain ⟨hfresh, hdistinct⟩ := List.nodup_cons.mp hdistinct
    obtain ⟨hr, hsubset⟩ := List.cons_subset.mp hsubset
    have hunique : ∀ q ∈ rows, q.previousHash = hash → q = r := by
      intro q hq hq_hash
      by_contra hne
      by_cases hmem : q ∈ rest
      · exact hfresh (hq_hash ▸ hrest.previous_mem hmem)
      · exact hother q hq (by simp [hne, hmem]) (hq_hash ▸ List.mem_cons_self)
    rw [byPrevious_of_unique hr hprevious hunique]
    refine Trail.cons (ih hrest hdistinct hsubset fun q hq hnot hmem => ?_)
    by_cases hqr : q = r
    · subst hqr
      exact hfresh (hprevious ▸ hmem)
    · exact hother q hq (by simp [hqr, hnot]) (List.mem_cons_of_mem _ hmem)

/-- Over the rows of one chain the walk is the chain. -/
theorem Linked.walk_eq (h : Linked [] chain) (hdistinct : DistinctHashes rows)
    (hperm : chain.Perm rows) (hwalk : Trail (following rows) (byPrevious rows []) ordered) :
    ordered = chain := by
  refine hwalk.unique (h.trail (hdistinct.perm hperm.symm) hperm.subset ?_)
  exact fun q hq hnot => absurd (hperm.symm.subset hq) hnot

theorem nodup_of_ids (hids : (rows.map EventRow.eventId).Nodup) : rows.Nodup := hids.of_map _

/-- The walk and the rows it did not reach are the rows. -/
theorem ordered_perm (hids : (rows.map EventRow.eventId).Nodup) (hnodup : ordered.Nodup)
    (hsubset : ordered ⊆ rows) : (ordered ++ unreached rows ordered).Perm rows := by
  have hreached : ∀ r ∈ rows, r.eventId ∈ ordered.map EventRow.eventId → r ∈ ordered := by
    intro r hr hmem
    obtain ⟨q, hq, hid⟩ := List.mem_map.mp hmem
    exact List.inj_on_of_nodup_map hids (hsubset hq) hr hid ▸ hq
  have hdisjoint : ordered.Disjoint (unreached rows ordered) := by
    intro r hr hleft
    have hnot := (List.mem_filter.mp hleft).2
    exact of_decide_eq_true hnot (List.mem_map_of_mem hr)
  refine (List.perm_ext_iff_of_nodup (hnodup.append ((nodup_of_ids hids).filter _) hdisjoint)
    (nodup_of_ids hids)).mpr fun r => ?_
  rw [List.mem_append]
  constructor
  · rintro (hr | hr)
    · exact hsubset hr
    · exact List.mem_of_mem_filter hr
  · intro hr
    by_cases hmem : r.eventId ∈ ordered.map EventRow.eventId
    · exact Or.inl (hreached r hr hmem)
    · exact Or.inr (List.mem_filter.mpr ⟨hr, decide_eq_true hmem⟩)

/-- The order of the backfill: it is reached with as many turns as there are rows, it is made of
the rows, and it is the chain when they form one. -/
theorem exists_orderedRows (hids : (rows.map EventRow.eventId).Nodup)
    (hdistinct : DistinctHashes rows) :
    ∃ ordered, (∀ fuel, rows.length ≤ fuel → orderedRows fuel rows = some ordered) ∧
      ordered.Perm rows ∧ ∀ chain, Linked [] chain → chain.Perm rows → ordered = chain := by
  obtain ⟨walked, hwalk, hnodup, hsubset⟩ := exists_walk hdistinct
  refine ⟨walked ++ unreached rows walked, ?_, ordered_perm hids hnodup hsubset, ?_⟩
  · intro fuel hfuel
    have hlength : walked.length ≤ fuel := (hnodup.subperm hsubset).length_le.trans hfuel
    rw [orderedRows, follow_eq_some_iff.mpr ⟨hwalk, hlength⟩]
    rfl
  · intro chain hlinked hperm
    obtain rfl := hlinked.walk_eq hdistinct hperm hwalk
    have hall := (ordered_perm hids hnodup hsubset).length_eq
    rw [List.length_append, hperm.length_eq] at hall
    rw [List.eq_nil_of_length_eq_zero (Nat.left_eq_add.mp hall.symm), List.append_nil]

end Walk

/-! ### The numbers -/

/-- `UPDATE governance_events SET event_sequence = ? WHERE event_id = ?`. -/
def setSequence (events : EventTable T) (eventId : Text) (n : ℤ) : EventTable T :=
  events.modify eventId (fun r => r.numbered n) (EventRow.eventId_numbered n)

/-- Number rows from `n` on. -/
def numberFrom (n : ℤ) (events : EventTable T) : List (EventRow T) → EventTable T
  | [] => events
  | r :: rest => numberFrom (n + 1) (setSequence events r.eventId n) rest

/-- What numbering rows from `n` on does to a row. -/
def placed (n : ℤ) (ordered : List (EventRow T)) (r : EventRow T) : EventRow T :=
  if r.eventId ∈ ordered.map EventRow.eventId then
    r.numbered (n + (ordered.map EventRow.eventId).idxOf r.eventId)
  else r

section Numbers
variable {events : EventTable T} {ordered : List (EventRow T)} {findingId other : Text}

theorem placed_of_not_mem {n : ℤ} {r : EventRow T}
    (h : r.eventId ∉ ordered.map EventRow.eventId) : placed n ordered r = r := if_neg h

@[simp] theorem findingId_placed (n : ℤ) (r : EventRow T) :
    (placed n ordered r).findingId = r.findingId := by
  unfold placed
  split_ifs <;> rfl

@[simp] theorem numbered_placed (m n : ℤ) (r : EventRow T) :
    (placed n ordered r).numbered m = r.numbered m := by
  unfold placed
  split_ifs <;> rfl

theorem numberFrom_rows (n : ℤ) (hids : (ordered.map EventRow.eventId).Nodup) :
    (numberFrom n events ordered).rows = events.rows.map (placed n ordered) := by
  induction ordered generalizing n events with
  | nil =>
    have hid : placed (T := T) n [] = id := by
      funext r
      exact placed_of_not_mem List.not_mem_nil
    rw [hid, List.map_id]
    rfl
  | cons q rest ih =>
    obtain ⟨hfresh, hrest⟩ := List.nodup_cons.mp hids
    rw [numberFrom, ih (n + 1) hrest, setSequence, Table.modify, List.map_map]
    refine List.map_congr_left fun r _ => ?_
    simp only [Function.comp]
    by_cases hr : r.eventId = q.eventId
    · rw [if_pos hr, placed_of_not_mem (by simpa [hr] using hfresh), placed, List.map_cons,
        if_pos (by simp [hr]), hr, List.idxOf_cons_self, Int.natCast_zero, Int.add_zero]
    · rw [if_neg hr]
      by_cases hmem : r.eventId ∈ rest.map EventRow.eventId
      · rw [placed, placed, if_pos hmem, List.map_cons, if_pos (List.mem_cons_of_mem _ hmem),
          List.idxOf_cons_ne _ (Ne.symm hr)]
        congr 1
        omega
      · rw [placed_of_not_mem hmem, placed_of_not_mem]
        simpa [hr] using hmem

theorem rowsOf_numberFrom (n : ℤ) (hids : (ordered.map EventRow.eventId).Nodup) :
    rowsOf (numberFrom n events ordered) findingId =
      (rowsOf events findingId).map (placed n ordered) := by
  rw [rowsOf, rowsOf, numberFrom_rows n hids, List.filter_map]
  congr 2
  funext r
  simp

/-- Numbering rows leaves each at its place. -/
theorem map_placed (hids : (ordered.map EventRow.eventId).Nodup) :
    ordered.map (placed 1 ordered) = ordered.mapIdx fun i r => r.numbered (i + 1) := by
  apply List.ext_getElem (by simp)
  intro i hi hi'
  rw [List.getElem_map, List.getElem_mapIdx]
  have hlt : i < (ordered.map EventRow.eventId).length := by simpa using hi
  have hidx := hids.idxOf_getElem i hlt
  rw [List.getElem_map] at hidx
  rw [placed, if_pos (List.mem_map_of_mem (List.getElem_mem _)), hidx, Int.add_comm]

/-- Numbering the rows of a finding changes the rows of no other one. -/
theorem rowsOf_numberFrom_other (hperm : ordered.Perm (rowsOf events findingId))
    (hother : other ≠ findingId) :
    rowsOf (numberFrom 1 events ordered) other = rowsOf events other := by
  have hids := (hperm.map EventRow.eventId).nodup_iff.mpr (nodup_rowsOf events findingId)
  rw [rowsOf_numberFrom 1 hids]
  refine (List.map_congr_left fun r hr => ?_).trans (List.map_id _)
  refine placed_of_not_mem fun hmem => ?_
  obtain ⟨hr, hfinding⟩ := mem_rowsOf.mp hr
  obtain ⟨q, hq, hid⟩ := List.mem_map.mp hmem
  obtain ⟨hq, hkey⟩ := mem_rowsOf.mp (hperm.subset hq)
  obtain rfl := List.inj_on_of_nodup_map events.distinct hq hr hid
  exact hother (hfinding.symm.trans hkey)

/-- What the backfill does to the rows of a finding. -/
structure Renumbered (before after : List (EventRow T)) : Prop where
  unchanged : after.map (·.numbered 0) = before.map (·.numbered 0)
  kept : (∀ r ∈ before, 0 < r.eventSequence) → after = before
  sequences : (∃ r ∈ before, r.eventSequence ≤ 0) →
    (after.map EventRow.eventSequence).Perm ((List.range before.length).map fun i : ℕ => (i + 1 : ℤ))
  positions : (∃ r ∈ before, r.eventSequence ≤ 0) → ∀ chain, Linked [] chain →
    chain.Perm before → after.Perm (chain.mapIdx fun i r => r.numbered (i + 1))

theorem Renumbered.refl {rows : List (EventRow T)} (h : ∀ r ∈ rows, 0 < r.eventSequence) :
    Renumbered rows rows where
  unchanged := rfl
  kept _ := rfl
  sequences := by
    rintro ⟨r, hr, hle⟩
    exact absurd (h r hr) (not_lt.mpr hle)
  positions := by
    rintro ⟨r, hr, hle⟩
    exact absurd (h r hr) (not_lt.mpr hle)

/-- A finding that has a row without a number: its rows get the numbers of an order. -/
theorem renumbered_numberFrom (hperm : ordered.Perm (rowsOf events findingId))
    (hchain : ∀ chain, Linked [] chain → chain.Perm (rowsOf events findingId) → ordered = chain)
    (hkept : (∀ r ∈ rowsOf events findingId, 0 < r.eventSequence) →
      rowsOf events findingId = []) :
    Renumbered (rowsOf events findingId) (rowsOf (numberFrom 1 events ordered) findingId) := by
  have hids := (hperm.map EventRow.eventId).nodup_iff.mpr (nodup_rowsOf events findingId)
  have hrows : rowsOf (numberFrom 1 events ordered) findingId =
      (rowsOf events findingId).map (placed 1 ordered) := rowsOf_numberFrom 1 hids
  have hplaced : (rowsOf (numberFrom 1 events ordered) findingId).Perm
      (ordered.mapIdx fun i r => r.numbered (i + 1)) := by
    rw [hrows, ← map_placed hids]
    exact (hperm.map _).symm
  constructor
  · rw [hrows, List.map_map]
    exact List.map_congr_left fun r _ => numbered_placed 0 1 r
  · intro hall
    rw [hrows, hkept hall, List.map_nil]
  · intro _
    refine (hplaced.map EventRow.eventSequence).trans (List.Perm.of_eq ?_)
    rw [← hperm.length_eq]
    exact List.ext_getElem (by simp) fun i hi hi' => by simp
  · intro _ chain hlinked hchain_perm
    rw [← hchain chain hlinked hchain_perm]
    exact hplaced

end Numbers

/-! ### The backfill -/

variable [LinearOrder T]

/-- `ORDER BY occurred_at, event_id`. -/
def rowLe (q r : EventRow T) : Prop :=
  q.occurredAt < r.occurredAt ∨ q.occurredAt = r.occurredAt ∧ keyLe q.eventId r.eventId = true

instance : DecidableRel (rowLe (T := T)) := fun q r =>
  inferInstanceAs (Decidable (q.occurredAt < r.occurredAt ∨
    q.occurredAt = r.occurredAt ∧ keyLe q.eventId r.eventId = true))

/-- The turn of the backfill for a finding. -/
def backfillFinding (fuel : ℕ) (events : EventTable T) (findingId : Text) :
    Option (EventTable T) :=
  let rows := (rowsOf events findingId).insertionSort rowLe
  if rows ≠ [] ∧ ∀ r ∈ rowsOf events findingId, 0 < r.eventSequence then some events
  else (orderedRows fuel rows).map (numberFrom 1 events)

/-- `_backfill_event_sequences`. A turn changes the rows of its finding only, so that the order
which `DISTINCT` gives is of no account. -/
def backfillEventSequences (fuel : ℕ) (events : EventTable T) : Option (EventTable T) :=
  (events.rows.map EventRow.findingId).dedup.foldlM (backfillFinding fuel) events

section Steps
variable {events : EventTable T} {findingId : Text}

/-- One turn of the backfill. -/
theorem exists_backfillFinding
    (h : (∃ r ∈ rowsOf events findingId, r.eventSequence ≤ 0) →
      DistinctHashes (rowsOf events findingId)) :
    ∃ next, (∀ fuel, events.rows.length ≤ fuel → backfillFinding fuel events findingId = some next) ∧
      Renumbered (rowsOf events findingId) (rowsOf next findingId) ∧
      (∀ other, other ≠ findingId → rowsOf next other = rowsOf events other) ∧
      next.rows.length = events.rows.length := by
  set rows := (rowsOf events findingId).insertionSort rowLe with hrows
  have hperm : rows.Perm (rowsOf events findingId) := List.perm_insertionSort rowLe _
  by_cases hskip : rows ≠ [] ∧ ∀ r ∈ rowsOf events findingId, 0 < r.eventSequence
  · refine ⟨events, fun fuel _ => ?_, Renumbered.refl hskip.2, fun _ _ => rfl, rfl⟩
    rw [backfillFinding, ← hrows, if_pos hskip]
  · have hdistinct : DistinctHashes rows := by
      by_cases hempty : rows = []
      · rw [hempty]
        exact List.nodup_singleton []
      · have hlow : ∃ r ∈ rowsOf events findingId, r.eventSequence ≤ 0 := by
          by_contra hnone
          push Not at hnone
          exact hskip ⟨hempty, hnone⟩
        exact (h hlow).perm hperm.symm
    have hids := (hperm.map EventRow.eventId).nodup_iff.mpr (nodup_rowsOf events findingId)
    obtain ⟨ordered, hordered, hall, hchain⟩ := exists_orderedRows hids hdistinct
    refine ⟨numberFrom 1 events ordered, fun fuel hfuel => ?_, ?_, ?_, ?_⟩
    · have hlength : rows.length ≤ fuel := by
        rw [hperm.length_eq]
        exact (List.length_filter_le _ _).trans hfuel
      rw [backfillFinding, ← hrows, if_neg hskip, hordered fuel hlength]
      rfl
    · refine renumbered_numberFrom (hall.trans hperm) ?_ ?_
      · exact fun chain hlinked hmembers => hchain chain hlinked (hmembers.trans hperm.symm)
      · intro hpositive
        by_contra hne
        refine hskip ⟨fun hempty => hne ?_, hpositive⟩
        exact (hempty ▸ hperm).nil_eq.symm
    · exact fun other hother => rowsOf_numberFrom_other (hall.trans hperm) hother
    · rw [numberFrom_rows 1 ((hall.map EventRow.eventId).nodup_iff.mpr hids), List.length_map]
/-- The turns for several findings. -/
theorem exists_foldlM_backfillFinding {ids : List Text} (hids : ids.Nodup)
    (h : ∀ k ∈ ids, (∃ r ∈ rowsOf events k, r.eventSequence ≤ 0) →
      DistinctHashes (rowsOf events k)) :
    ∃ result,
      (∀ fuel, events.rows.length ≤ fuel → ids.foldlM (backfillFinding fuel) events = some result) ∧
      (∀ k ∈ ids, Renumbered (rowsOf events k) (rowsOf result k)) ∧
      ∀ k, k ∉ ids → rowsOf result k = rowsOf events k := by
  induction ids generalizing events with
  | nil => exact ⟨events, fun _ _ => rfl, fun k hk => absurd hk List.not_mem_nil, fun _ _ => rfl⟩
  | cons id ids ih =>
    obtain ⟨hfresh, hids⟩ := List.nodup_cons.mp hids
    obtain ⟨next, hnext, hturn, hframe, hlength⟩ :=
      exists_backfillFinding (h id List.mem_cons_self)
    have hstill : ∀ k ∈ ids, rowsOf next k = rowsOf events k := by
      intro k hk
      exact hframe k fun heq => hfresh (heq ▸ hk)
    have hleft : ∀ k ∈ ids, (∃ r ∈ rowsOf next k, r.eventSequence ≤ 0) →
        DistinctHashes (rowsOf next k) := by
      intro k hk
      rw [hstill k hk]
      exact h k (List.mem_cons_of_mem _ hk)
    obtain ⟨result, hrun, hdone, hrest⟩ := ih hids hleft
    refine ⟨result, fun fuel hfuel => ?_, ?_, ?_⟩
    · rw [List.foldlM_cons, hnext fuel hfuel]
      exact hrun fuel (hlength.trans_le hfuel)
    · intro k hk
      rcases List.mem_cons.mp hk with rfl | hk
      · rw [hrest k hfresh]
        exact hturn
      · rw [← hstill k hk]
        exact hdone k hk
    · intro k hk
      rw [hrest k (List.not_mem_of_not_mem_cons hk), hframe k (List.ne_of_not_mem_cons hk)]

theorem backfill_numbers (events : EventTable T)
    (h : ∀ k, (∃ r ∈ rowsOf events k, r.eventSequence ≤ 0) → DistinctHashes (rowsOf events k)) :
    ∃ result, (∀ fuel, events.rows.length ≤ fuel →
        backfillEventSequences fuel events = some result) ∧
      ∀ k, Renumbered (rowsOf events k) (rowsOf result k) := by
  obtain ⟨result, hrun, hdone, hrest⟩ :=
    exists_foldlM_backfillFinding (List.nodup_dedup _) fun k _ => h k
  refine ⟨result, hrun, fun k => ?_⟩
  by_cases hk : k ∈ (events.rows.map EventRow.findingId).dedup
  · exact hdone k hk
  · rw [hrest k hk]
    refine Renumbered.refl fun r hr => ?_
    obtain ⟨hr, hfinding⟩ := mem_rowsOf.mp hr
    exact absurd (List.mem_dedup.mpr (List.mem_map.mpr ⟨r, hr, hfinding⟩)) hk

/-- The backfill ends, and numbers the events of each finding that has one without a number: from
one on, and along the chain when the events form one. Other findings it leaves alone. -/
theorem backfillEventSequences_orders (events : EventTable T)
    (h : ∀ k, (∃ r ∈ rowsOf events k, r.eventSequence ≤ 0) → DistinctHashes (rowsOf events k)) :
    ∃ result, (∀ fuel, events.rows.length ≤ fuel →
        backfillEventSequences fuel events = some result) ∧
      ∀ k, Renumbered (rowsOf events k) (rowsOf result k) := backfill_numbers events h

/-! ### A chain stored in another order -/

def chainedRow (eventId previousHash eventHash : Text) : EventRow ℕ :=
  ⟨eventId, lit "finding", 0, lit "finding_created", lit "actor", lit "admin", lit "mfa", 7,
    lit "\x7b\x7d", previousHash, eventHash⟩

/-- Three events of one instant, of which the chain begins with the last. -/
def chainedRows : List (EventRow ℕ) :=
  [chainedRow (lit "a") (lit "h2") (lit "h3"), chainedRow (lit "b") (lit "h1") (lit "h2"),
    chainedRow (lit "c") [] (lit "h1")]

theorem chainedRows_distinct : (chainedRows.map EventRow.eventId).Nodup := by decide

def chainedEvents : EventTable ℕ := ⟨chainedRows, chainedRows_distinct⟩

theorem backfillEventSequences_orders_chainedEvents :
    ∃ result, (∀ fuel, chainedEvents.rows.length ≤ fuel →
        backfillEventSequences fuel chainedEvents = some result) ∧
      ∀ k, Renumbered (rowsOf chainedEvents k) (rowsOf result k) :=
  backfillEventSequences_orders chainedEvents fun k _ =>
    DistinctHashes.rowsOf (by unfold DistinctHashes; decide) k

example : (backfillEventSequences 3 chainedEvents).map (fun events =>
    events.rows.map EventRow.eventSequence) = some [3, 2, 1] := by decide

end Steps

end SentinelGRC.Governance
