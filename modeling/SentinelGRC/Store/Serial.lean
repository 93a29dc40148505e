import SentinelGRC.Store.Table

/-!
Tables whose keys are drawn from a counter, and rows of two such tables that stand in
step. A counter value may be passed over, so the keys of two tables with the same rows
differ, but their order is that of the rows in both.
-/

namespace SentinelGRC.Store

/-! ### Rows in step -/

/-- Two lists of the same length whose elements are related, position by position. -/
structure InStep {α β : Type} (R : α → β → Prop) (xs : List α) (ys : List β) : Prop where
  length : xs.length = ys.length
  related : ∀ (n : ℕ) (x : α) (y : β), xs[n]? = some x → ys[n]? = some y → R x y

namespace InStep

variable {α β : Type} {R R' : α → β → Prop} {xs : List α} {ys : List β}

theorem nil : InStep R [] [] := ⟨rfl, fun n x y hx => by simp at hx⟩

theorem tail {x : α} {y : β} (h : InStep R (x :: xs) (y :: ys)) :
    InStep R xs ys where
  length := Nat.succ.inj h.length
  related n x' y' hx hy := h.related (n + 1) x' y' (by simpa using hx) (by simpa using hy)

theorem cons {x : α} {y : β} (hR : R x y) (h : InStep R xs ys) :
    InStep R (x :: xs) (y :: ys) where
  length := congrArg (· + 1) h.length
  related n x' y' hx hy := by
    cases n with
    | zero =>
      obtain rfl := Option.some.inj hx
      obtain rfl := Option.some.inj hy
      exact hR
    | succ n => exact h.related n x' y' hx hy

/-- One more row in each. -/
theorem concat (h : InStep R xs ys) {x : α} {y : β} (hR : R x y) :
    InStep R (xs ++ [x]) (ys ++ [y]) where
  length := by simp [h.length]
  related n x' y' hx hy := by
    rw [List.getElem?_append] at hx hy
    rw [← h.length] at hy
    split_ifs at hx hy with hn
    · exact h.related n x' y' hx hy
    · obtain rfl : n = xs.length := by
        have hx' := (List.getElem?_eq_some_iff.mp hx).1
        simp only [List.length_singleton] at hx'
        omega
      simp only [Nat.sub_self, List.getElem?_cons_zero, Option.some.injEq] at hx hy
      rw [← hx, ← hy]
      exact hR

/-- Rows rewritten in both, by functions that keep them related. -/
theorem map (h : InStep R xs ys) {f : α → α} {g : β → β}
    (hR : ∀ (n : ℕ) (x : α) (y : β), xs[n]? = some x → ys[n]? = some y → R x y → R' (f x) (g y)) :
    InStep R' (xs.map f) (ys.map g) where
  length := by simp [h.length]
  related n x y hx hy := by
    rw [List.getElem?_map, Option.map_eq_some_iff] at hx hy
    obtain ⟨x, hx, rfl⟩ := hx
    obtain ⟨y, hy, rfl⟩ := hy
    exact hR n x y hx hy (h.related n x y hx hy)

/-- Tests that agree on related rows find rows at one position. -/
theorem find? {p : α → Bool} {q : β → Bool} (h : InStep R xs ys)
    (hpq : ∀ x y, R x y → p x = q y) : (xs.find? p = none ∧ ys.find? q = none) ∨
      ∃ (n : ℕ) (x : α) (y : β), xs[n]? = some x ∧ ys[n]? = some y ∧ xs.find? p = some x ∧
        ys.find? q = some y := by
  induction xs generalizing ys with
  | nil =>
    obtain rfl : ys = [] := List.length_eq_zero_iff.mp h.length.symm
    exact .inl ⟨rfl, rfl⟩
  | cons x xs ih =>
    cases ys with
    | nil => exact absurd h.length (by simp)
    | cons y ys =>
      have hhead := hpq x y (h.related 0 x y rfl rfl)
      cases hp : p x with
      | true => exact .inr ⟨0, x, y, rfl, rfl, by rw [List.find?_cons, hp], by
          rw [List.find?_cons, ← hhead, hp]⟩
      | false =>
        rw [List.find?_cons, List.find?_cons, ← hhead, hp]
        rcases ih h.tail with hnone | ⟨n, x', y', hx, hy, hfind⟩
        · exact .inl hnone
        · exact .inr ⟨n + 1, x', y', by simpa using hx, by simpa using hy, hfind⟩

theorem any {p : α → Bool} {q : β → Bool} (h : InStep R xs ys)
    (hpq : ∀ x y, R x y → p x = q y) : xs.any p = ys.any q := by
  induction xs generalizing ys with
  | nil =>
    obtain rfl : ys = [] := List.length_eq_zero_iff.mp h.length.symm
    rfl
  | cons x xs ih =>
    cases ys with
    | nil => exact absurd h.length (by simp)
    | cons y ys =>
      rw [List.any_cons, List.any_cons, hpq x y (h.related 0 x y rfl rfl),
        ih h.tail]

/-- Tests that agree on related rows leave related rows. -/
theorem filter {p : α → Bool} {q : β → Bool} (h : InStep R xs ys)
    (hpq : ∀ x y, R x y → p x = q y) : InStep R (xs.filter p) (ys.filter q) := by
  induction xs generalizing ys with
  | nil =>
    obtain rfl : ys = [] := List.length_eq_zero_iff.mp h.length.symm
    exact InStep.nil
  | cons x xs ih =>
    cases ys with
    | nil => exact absurd h.length (by simp)
    | cons y ys =>
      have hhead := h.related 0 x y rfl rfl
      by_cases hp : p x = true
      · rw [List.filter_cons_of_pos hp, List.filter_cons_of_pos (hpq x y hhead ▸ hp)]
        exact cons hhead (ih h.tail)
      · rw [List.filter_cons_of_neg hp, List.filter_cons_of_neg (hpq x y hhead ▸ hp)]
        exact ih h.tail

/-- The last rows are related. -/
theorem getLast? (h : InStep R xs ys) : (xs.getLast? = none ∧ ys.getLast? = none) ∨
    ∃ x y, xs.getLast? = some x ∧ ys.getLast? = some y ∧ R x y := by
  rw [List.getLast?_eq_getElem?, List.getLast?_eq_getElem?, ← h.length]
  cases hx : xs[xs.length - 1]? with
  | none =>
    rw [List.getElem?_eq_none_iff] at hx
    refine .inl ⟨rfl, ?_⟩
    rw [List.getElem?_eq_none_iff, ← h.length]
    exact hx
  | some x =>
    obtain ⟨hlt, -⟩ := List.getElem?_eq_some_iff.mp hx
    obtain ⟨y, hy⟩ : ∃ y, ys[xs.length - 1]? = some y :=
      ⟨_, List.getElem?_eq_getElem (h.length ▸ hlt)⟩
    exact .inr ⟨x, y, rfl, hy, h.related _ x y hx hy⟩

end InStep

/-- Two rows under one key stand at one position. -/
theorem Table.key_eq_iff {ρ κ : Type} {key : ρ → κ} (t : Table ρ κ key) {m n : ℕ} {r s : ρ}
    (hr : t.rows[m]? = some r) (hs : t.rows[n]? = some s) : key s = key r ↔ n = m := by
  constructor
  · intro hkey
    obtain ⟨hm, hr'⟩ := List.getElem?_eq_some_iff.mp hr
    obtain ⟨hn, hs'⟩ := List.getElem?_eq_some_iff.mp hs
    have hkeys : (t.rows.map key).get ⟨n, by simpa using hn⟩ =
        (t.rows.map key).get ⟨m, by simpa using hm⟩ := by
      simp [hr', hs', hkey]
    exact t.distinct.getElem_inj_iff.mp hkeys
  · rintro rfl
    rw [Option.some.inj (hr.symm.trans hs)]

/-- Where the keys ascend, rows stand in the order of their keys. -/
theorem key_lt_iff {ρ : Type} {key : ρ → ℕ} {rows : List ρ}
    (h : (rows.map key).Pairwise (· < ·)) {m n : ℕ} {r s : ρ} (hr : rows[m]? = some r)
    (hs : rows[n]? = some s) : key r < key s ↔ m < n := by
  obtain ⟨hm, rfl⟩ := List.getElem?_eq_some_iff.mp hr
  obtain ⟨hn, rfl⟩ := List.getElem?_eq_some_iff.mp hs
  have hlt (i j : ℕ) (hi : i < rows.length) (hj : j < rows.length) (hij : i < j) :
      key rows[i] < key rows[j] := by
    have := List.pairwise_iff_getElem.mp h i j (by simpa using hi) (by simpa using hj) hij
    simpa using this
  constructor
  · intro hkey
    by_contra hnot
    rcases Nat.lt_or_eq_of_le (Nat.le_of_not_lt hnot) with hlt' | rfl
    · exact absurd (hlt n m hn hm hlt') (by omega)
    · exact absurd hkey (Nat.lt_irrefl _)
  · exact hlt m n hm hn

/-! ### Serial tables -/

/-- A table with the counter that its keys are drawn from. -/
structure SerialTable (ρ : Type) (key : ρ → ℕ) where
  table : Table ρ ℕ key
  sequence : ℕ
  bounded : ∀ r ∈ table.rows, key r ≤ sequence
  ascending : (table.rows.map key).Pairwise (· < ·)

namespace SerialTable

variable {ρ : Type} {key : ρ → ℕ}

def empty : SerialTable ρ key := ⟨⟨[], List.nodup_nil⟩, 0, by simp, by simp⟩

/-- A row under the next key. -/
def insert (t : SerialTable ρ key) (row : ℕ → ρ) (hrow : ∀ n, key (row n) = n) :
    SerialTable ρ key where
  table := ⟨t.table.rows ++ [row (t.sequence + 1)], by
    rw [List.map_append, List.nodup_append]
    refine ⟨t.table.distinct, by simp, ?_⟩
    intro a ha b hb hab
    obtain ⟨r, hr, rfl⟩ := List.mem_map.mp ha
    have := t.bounded r hr
    simp only [List.map_cons, List.map_nil, List.mem_singleton, hrow] at hb
    omega⟩
  sequence := t.sequence + 1
  bounded := by
    intro r hr
    rcases List.mem_append.mp hr with hr | hr
    · exact Nat.le_succ_of_le (t.bounded r hr)
    · obtain rfl := List.mem_singleton.mp hr
      exact Nat.le_of_eq (hrow _)
  ascending := by
    rw [List.map_append, List.pairwise_append]
    refine ⟨t.ascending, by simp, ?_⟩
    intro a ha b hb
    obtain ⟨r, hr, rfl⟩ := List.mem_map.mp ha
    have := t.bounded r hr
    simp only [List.map_cons, List.map_nil, List.mem_singleton, hrow] at hb
    omega

/-- A key that no row gets. -/
def skip (t : SerialTable ρ key) : SerialTable ρ key :=
  { t with
    sequence := t.sequence + 1
    bounded := fun r hr => Nat.le_succ_of_le (t.bounded r hr) }

/-- The row under a key is rewritten. -/
def set (t : SerialTable ρ key) (k : ℕ) (f : ρ → ρ) (hf : ∀ r, key (f r) = key r) :
    SerialTable ρ key where
  table := t.table.modify k f hf
  sequence := t.sequence
  bounded := by
    intro r hr
    obtain ⟨p, hp, rfl⟩ := List.mem_map.mp hr
    split_ifs
    · rw [hf]
      exact t.bounded p hp
    · exact t.bounded p hp
  ascending := by
    have hkeys : (t.table.modify k f hf).rows.map key = t.table.rows.map key := by
      rw [Table.modify, List.map_map]
      apply List.map_congr_left
      intro r _
      simp only [Function.comp]
      split_ifs
      · exact hf r
      · rfl
    rw [hkeys]
    exact t.ascending

end SerialTable

end SentinelGRC.Store
