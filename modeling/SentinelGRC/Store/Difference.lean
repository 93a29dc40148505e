import Mathlib.Data.List.Perm.Basic
import Mathlib.Tactic.Push
import SentinelGRC.Store.Table

/-!
Two finite maps side by side: the keys of one that the other lacks, the keys of both, and
those of both whose values differ. The numbers of these fit together for any two maps, and
all of them but the overlap vanish exactly for equal maps.
-/

namespace SentinelGRC.Store

variable {κ ν : Type} [DecidableEq κ] [DecidableEq ν]

/-- Finite maps: rows of a key and its value. -/
abbrev FiniteMap (κ ν : Type) := Table (κ × ν) κ Prod.fst

namespace FiniteMap

/-- The keys, in insertion order. -/
def keys (m : FiniteMap κ ν) : List κ := m.rows.map Prod.fst

def get? (m : FiniteMap κ ν) (k : κ) : Option ν := (m.find? k).map Prod.snd

/-- The keys of `m` that `n` lacks. -/
def difference {μ : Type} (m : FiniteMap κ ν) (n : FiniteMap κ μ) : List κ :=
  m.keys.filter fun k => k ∉ n.keys

/-- The keys of both. -/
def intersection {μ : Type} (m : FiniteMap κ ν) (n : FiniteMap κ μ) : List κ :=
  m.keys.filter fun k => k ∈ n.keys

/-- How many keys of both have different values. -/
def mismatched (m n : FiniteMap κ ν) : ℕ := (intersection m n).countP fun k => m.get? k ≠ n.get? k

variable {m n : FiniteMap κ ν}

omit [DecidableEq ν] in
theorem get?_eq_some {k : κ} {v : ν} : m.get? k = some v ↔ (k, v) ∈ m.rows := by
  rw [get?, Option.map_eq_some_iff]
  constructor
  · rintro ⟨⟨k', v'⟩, hfind, rfl⟩
    obtain ⟨hmem, rfl⟩ := Table.find?_eq_some.mp hfind
    exact hmem
  · intro h
    exact ⟨(k, v), Table.find?_eq_some.mpr ⟨h, rfl⟩, rfl⟩

omit [DecidableEq ν] in
theorem get?_eq_none {k : κ} : m.get? k = none ↔ k ∉ m.keys := by
  rw [get?, Option.map_eq_none_iff, Table.find?_eq_none, keys, List.mem_map]
  push Not
  rfl

omit [DecidableEq ν] in
/-- Maps with the same value at every key have the same rows. -/
theorem perm_iff : m.rows.Perm n.rows ↔ ∀ k, m.get? k = n.get? k := by
  constructor
  · intro h k
    apply Option.ext
    intro v
    rw [get?_eq_some, get?_eq_some, h.mem_iff]
  · intro h
    have hm : m.rows.Nodup := m.distinct.of_map Prod.fst
    have hn : n.rows.Nodup := n.distinct.of_map Prod.fst
    refine (List.perm_ext_iff_of_nodup hm hn).mpr fun ⟨k, v⟩ => ?_
    rw [← get?_eq_some, ← get?_eq_some, h k]

/-! ### Numbers of keys -/

omit [DecidableEq ν] in
theorem length_difference {μ : Type} (m : FiniteMap κ ν) (n : FiniteMap κ μ) :
    (difference m n).length + (intersection m n).length = m.rows.length := by
  have hsplit := List.length_eq_length_filter_add (l := m.keys) fun k => decide (k ∈ n.keys)
  have hlength : m.keys.length = m.rows.length := List.length_map _
  have hnot : m.keys.filter (fun k => !decide (k ∈ n.keys)) = difference m n :=
    List.filter_congr fun k _ => (decide_not).symm
  rw [hnot, hlength] at hsplit
  rw [hsplit, intersection]
  omega

omit [DecidableEq ν] in
theorem length_intersection_comm {μ : Type} (m : FiniteMap κ ν) (n : FiniteMap κ μ) :
    (intersection m n).length = (intersection n m).length := by
  have hm : m.keys.Nodup := m.distinct
  have hn : n.keys.Nodup := n.distinct
  refine List.Perm.length_eq ((List.perm_ext_iff_of_nodup (hm.filter _) (hn.filter _)).mpr ?_)
  intro k
  simp only [List.mem_filter, decide_eq_true_eq]
  exact and_comm

theorem mismatched_le (m n : FiniteMap κ ν) : mismatched m n ≤ (intersection m n).length :=
  List.countP_le_length

omit [DecidableEq ν] in
theorem difference_eq_nil {μ : Type} {n : FiniteMap κ μ} :
    difference m n = [] ↔ ∀ k ∈ m.keys, k ∈ n.keys := by
  simp [difference]

theorem mismatched_eq_zero :
    mismatched m n = 0 ↔ ∀ k ∈ m.keys, k ∈ n.keys → m.get? k = n.get? k := by
  rw [mismatched, List.countP_eq_zero]
  simp [intersection]

/-- Nothing is missing, unexpected or mismatched exactly if the maps are the same. -/
theorem difference_eq_iff : ((difference m n).length = 0 ∧ (difference n m).length = 0 ∧
    mismatched m n = 0) ↔ ∀ k, m.get? k = n.get? k := by
  rw [List.length_eq_zero_iff, List.length_eq_zero_iff, difference_eq_nil, difference_eq_nil,
    mismatched_eq_zero]
  constructor
  · rintro ⟨hm, hn, hsame⟩ k
    by_cases hk : k ∈ m.keys
    · exact hsame k hk (hm k hk)
    · rw [get?_eq_none.mpr hk, get?_eq_none.mpr fun h => hk (hn k h)]
  · intro h
    have hkeys (k : κ) : k ∈ m.keys ↔ k ∈ n.keys := by
      rw [← not_iff_not, ← get?_eq_none, ← get?_eq_none, h k]
    exact ⟨fun k hk => (hkeys k).mp hk, fun k hk => (hkeys k).mpr hk, fun k _ _ => h k⟩

end FiniteMap

end SentinelGRC.Store
