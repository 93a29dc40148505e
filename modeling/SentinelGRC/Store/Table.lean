import Mathlib.Data.List.Nodup

/-!
Tables with a unique key. The rows stand in insertion order, no two of them
under one key; inserting a second row under a key fails and changes nothing.
Each operation is described by what it does to the row found under a key.
-/

namespace SentinelGRC.Store

/-- Rows of type `ρ` whose keys are distinct. -/
structure Table (ρ κ : Type) (key : ρ → κ) where
  rows : List ρ
  distinct : (rows.map key).Nodup

namespace Table

variable {ρ κ : Type} {key : ρ → κ} [DecidableEq κ]

def empty : Table ρ κ key := ⟨[], List.nodup_nil⟩

/-- The row under a key. -/
def find? (t : Table ρ κ key) (k : κ) : Option ρ := t.rows.find? fun r => key r = k

theorem find?_eq_some {t : Table ρ κ key} {k : κ} {r : ρ} :
    t.find? k = some r ↔ r ∈ t.rows ∧ key r = k := by
  constructor
  · intro h
    exact ⟨List.mem_of_find?_eq_some h, by simpa using List.find?_some h⟩
  · rintro ⟨hr, rfl⟩
    have hsome : (t.rows.find? fun q => key q = key r).isSome := by
      rw [List.find?_isSome]
      exact ⟨r, hr, by simp⟩
    obtain ⟨q, hq⟩ := Option.isSome_iff_exists.mp hsome
    have hqr : key q = key r := by simpa using List.find?_some hq
    rw [find?, hq, List.inj_on_of_nodup_map t.distinct (List.mem_of_find?_eq_some hq) hr hqr]

theorem find?_eq_none {t : Table ρ κ key} {k : κ} : t.find? k = none ↔ ∀ r ∈ t.rows, key r ≠ k := by
  simp [find?]

@[simp] theorem find?_empty (k : κ) : (empty : Table ρ κ key).find? k = none := rfl

/-- Two tables agree under a key when the rows kept under it are the same. -/
theorem find?_congr {t u : Table ρ κ key} {k : κ}
    (h : ∀ r, key r = k → (r ∈ t.rows ↔ r ∈ u.rows)) : t.find? k = u.find? k := by
  apply Option.ext
  intro r
  rw [find?_eq_some, find?_eq_some]
  constructor
  · rintro ⟨hr, hk⟩
    exact ⟨(h r hk).mp hr, hk⟩
  · rintro ⟨hr, hk⟩
    exact ⟨(h r hk).mpr hr, hk⟩

/-! ### Insertion -/

/-- Insert a row, unless its key is taken. -/
def insert? (t : Table ρ κ key) (r : ρ) : Option (Table ρ κ key) :=
  if h : key r ∈ t.rows.map key then none
  else some ⟨t.rows ++ [r], by
    rw [List.map_append, List.nodup_append]
    refine ⟨t.distinct, by simp, ?_⟩
    intro a ha b hb hab
    obtain rfl : b = key r := by simpa using hb
    exact h (hab ▸ ha)⟩

theorem insert?_eq_none {t : Table ρ κ key} {r : ρ} :
    t.insert? r = none ↔ ∃ q, t.find? (key r) = some q := by
  rw [insert?]
  split_ifs with h
  · obtain ⟨q, hq, hk⟩ := List.mem_map.mp h
    simp only [true_iff]
    exact ⟨q, find?_eq_some.mpr ⟨hq, hk⟩⟩
  · simp only [false_iff, not_exists]
    intro q hq
    rw [find?_eq_some] at hq
    exact h (List.mem_map.mpr ⟨q, hq⟩)

theorem insert?_eq_some {t u : Table ρ κ key} {r : ρ} :
    t.insert? r = some u ↔ t.find? (key r) = none ∧ u.rows = t.rows ++ [r] := by
  rw [insert?, find?_eq_none]
  split_ifs with h
  · obtain ⟨q, hq, hk⟩ := List.mem_map.mp h
    simp only [false_iff, not_and]
    intro hnone
    exact absurd hk (hnone q hq)
  · constructor
    · intro hu
      obtain rfl := Option.some.inj hu
      exact ⟨fun q hq hk => h (List.mem_map.mpr ⟨q, hq, hk⟩), rfl⟩
    · rintro ⟨-, hu⟩
      cases u
      simp only [Option.some.injEq, mk.injEq]
      exact hu.symm

theorem find?_insert? {t u : Table ρ κ key} {r : ρ} (h : t.insert? r = some u) (k : κ) :
    u.find? k = if key r = k then some r else t.find? k := by
  obtain ⟨hnone, hrows⟩ := insert?_eq_some.mp h
  split_ifs with hk
  · rw [find?_eq_some, hrows]
    exact ⟨by simp, hk⟩
  · refine find?_congr fun q hq => ?_
    rw [hrows, List.mem_append, List.mem_singleton]
    constructor
    · rintro (h | rfl)
      · exact h
      · exact absurd hq hk
    · exact .inl

/-! ### Deletion and update -/

/-- Keep the rows that pass a test. -/
def filter (t : Table ρ κ key) (p : ρ → Bool) : Table ρ κ key :=
  ⟨t.rows.filter p, t.distinct.sublist (List.filter_sublist.map key)⟩

theorem find?_filter (t : Table ρ κ key) (p : ρ → Bool) (k : κ) :
    (t.filter p).find? k = (t.find? k).filter p := by
  apply Option.ext
  intro r
  rw [Option.filter_eq_some_iff, find?_eq_some, find?_eq_some]
  simp only [filter, List.mem_filter]
  tauto

/-- Rewrite the row under a key with a function that keeps its key. -/
def modify (t : Table ρ κ key) (k : κ) (f : ρ → ρ) (hf : ∀ r, key (f r) = key r) :
    Table ρ κ key where
  rows := t.rows.map fun r => if key r = k then f r else r
  distinct := by
    have hkeys : (key ∘ fun r => if key r = k then f r else r) = key := by
      funext r
      simp only [Function.comp]
      split_ifs with h
      · exact hf r
      · rfl
    rw [List.map_map, hkeys]
    exact t.distinct

theorem find?_modify (t : Table ρ κ key) (k : κ) (f : ρ → ρ) (hf : ∀ r, key (f r) = key r)
    (j : κ) : (t.modify k f hf).find? j = (t.find? j).map fun r => if j = k then f r else r := by
  apply Option.ext
  intro q
  rw [find?_eq_some, Option.map_eq_some_iff]
  simp only [modify, List.mem_map]
  constructor
  · rintro ⟨⟨r, hr, rfl⟩, hj⟩
    have hkey : key r = j := by
      rw [← hj]
      split_ifs
      · exact (hf r).symm
      · rfl
    exact ⟨r, find?_eq_some.mpr ⟨hr, hkey⟩, by rw [hkey]⟩
  · rintro ⟨r, hfind, rfl⟩
    obtain ⟨hr, rfl⟩ := find?_eq_some.mp hfind
    refine ⟨⟨r, hr, rfl⟩, ?_⟩
    split_ifs
    · exact hf r
    · rfl

/-- Replace the row under the key of `r`, or add `r`. -/
def put (t : Table ρ κ key) (r : ρ) : Table ρ κ key :=
  match t.insert? r with
  | some u => u
  | none => t.modify (key r) (fun q => if key q = key r then r else q) fun q => by
    split_ifs with h
    · exact h.symm
    · rfl

theorem find?_put (t : Table ρ κ key) (r : ρ) (k : κ) :
    (t.put r).find? k = if key r = k then some r else t.find? k := by
  rw [put]
  split
  · rename_i u h
    exact find?_insert? h k
  · rename_i h
    obtain ⟨q, hq⟩ := insert?_eq_none.mp h
    rw [find?_modify]
    by_cases hk : key r = k
    · subst hk
      simp [hq, (find?_eq_some.mp hq).2]
    · have hk' : k ≠ key r := fun h => hk h.symm
      simp [hk, hk']

end Table

end SentinelGRC.Store
