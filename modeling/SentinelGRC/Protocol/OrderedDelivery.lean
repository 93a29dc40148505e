import Mathlib.Data.List.Basic
import Mathlib.Data.Set.Insert
import Mathlib.Logic.Function.Basic
import Mathlib.Logic.Relation

/-!
Delivery in order. Items stand in groups, each at a place of its group. Whoever leases
an item may publish it, at any time from then on and any number of times; it is done
when the holder of its lease says so. An item is leased only while everything before it
in its group is done, and new items come last. Leases can be taken over, given up and
given up for good, and what was given up for good can be revived.
-/

namespace SentinelGRC.Protocol

variable {ι γ τ : Type}

/-- An item: where it stands and how far its delivery is. -/
structure Item (γ τ : Type) where
  group : γ
  place : ℕ
  done : Bool
  dead : Bool
  lease : Option τ

/-- Items by their identities. -/
abbrev Items (ι γ τ : Type) := ι → Option (Item γ τ)

/-- What a step says about the items: a lease given out, an item finished, or neither. -/
inductive Notice (ι τ : Type)
  | silent
  | leased (i : ι) (t : τ)
  | finished (i : ι)

namespace Items

/-- Every item before a place of a group is done. -/
def Clear (s : Items ι γ τ) (group : γ) (place : ℕ) : Prop :=
  ∀ j y, s j = some y → y.group = group → y.place < place → y.done = true

/-- What can become of one item. -/
inductive Change (s : Items ι γ τ) (i : ι) (x : Item γ τ) : Notice ι τ → Item γ τ → Prop
  | leased (t : τ) (alive : x.dead = false) (clear : s.Clear x.group x.place) :
      Change s i x (.leased i t) { x with lease := some t }
  | finished (t : τ) (alive : x.dead = false) (held : x.lease = some t) :
      Change s i x (.finished i) { x with done := true, lease := none }
  | released (t : τ) (dead : Bool) (alive : x.dead = false) (held : x.lease = some t) :
      Change s i x .silent { x with dead := dead, lease := none }
  | revived (dead : x.dead = true) : Change s i x .silent { x with dead := false, lease := none }

variable [DecidableEq ι]

/-- One step: an item that is not done changes, or a new one comes last in its group. -/
inductive Move (s : Items ι γ τ) : Notice ι τ → Items ι γ τ → Prop
  | stay : Move s .silent s
  | added (i : ι) (group : γ) (place : ℕ) (fresh : s i = none)
      (last : ∀ j y, s j = some y → y.group = group → y.place < place) :
      Move s .silent (Function.update s i (some ⟨group, place, false, false, none⟩))
  | changed (i : ι) (x y : Item γ τ) (notice : Notice ι τ) (found : s i = some x)
      (unfinished : x.done = false) (change : Change s i x notice y) :
      Move s notice (Function.update s i (some y))

variable {s s' : Items ι γ τ} {notice : Notice ι τ}

omit [DecidableEq ι] in
theorem Change.place_eq {i : ι} {x y : Item γ τ} (h : Change s i x notice y) :
    y.group = x.group ∧ y.place = x.place := by
  cases h <;> exact ⟨rfl, rfl⟩

/-- An item keeps its place, and once done it never changes. -/
theorem Move.kept (h : Move s notice s') {i : ι} {x : Item γ τ} (hx : s i = some x) :
    ∃ y, s' i = some y ∧ y.group = x.group ∧ y.place = x.place ∧ (x.done = true → y = x) := by
  have hother {j : ι} {y : Item γ τ} (hj : i ≠ j) :
      ∃ z, Function.update s j (some y) i = some z ∧ z.group = x.group ∧ z.place = x.place ∧
        (x.done = true → z = x) := by
    rw [Function.update_of_ne hj, hx]
    exact ⟨x, rfl, rfl, rfl, fun _ => rfl⟩
  cases h with
  | stay => exact ⟨x, hx, rfl, rfl, fun _ => rfl⟩
  | added j group place fresh last =>
    refine hother ?_
    rintro rfl
    rw [fresh] at hx
    cases hx
  | changed j x' y notice found unfinished change =>
    by_cases hj : i = j
    · subst hj
      obtain rfl := Option.some.inj (hx.symm.trans found)
      rw [Function.update_self]
      refine ⟨y, rfl, change.place_eq.1, change.place_eq.2, ?_⟩
      rw [unfinished]
      intro h
      cases h
    · exact hother hj

/-- Where the items of a step come from. -/
theorem Move.found (h : Move s notice s') {i : ι} {y : Item γ τ} (hy : s' i = some y) :
    (s i = none ∧ y.done = false ∧ y.dead = false ∧ y.lease = none ∧
        ∀ j z, s j = some z → z.group = y.group → z.place < y.place) ∨
      ∃ x, s i = some x ∧ (y = x ∨ (x.done = false ∧ Change s i x notice y)) := by
  cases h with
  | stay => exact .inr ⟨y, hy, .inl rfl⟩
  | added j group place fresh last =>
    by_cases hj : i = j
    · subst hj
      rw [Function.update_self] at hy
      obtain rfl := Option.some.inj hy
      exact .inl ⟨fresh, rfl, rfl, rfl, last⟩
    · rw [Function.update_of_ne hj] at hy
      exact .inr ⟨y, hy, .inl rfl⟩
  | changed j x z notice found unfinished change =>
    by_cases hj : i = j
    · subst hj
      rw [Function.update_self] at hy
      obtain rfl := Option.some.inj hy
      exact .inr ⟨x, found, .inr ⟨unfinished, change⟩⟩
    · rw [Function.update_of_ne hj] at hy
      exact .inr ⟨y, hy, .inl rfl⟩

/-- No item is both done and dead. -/
def Sorted (s : Items ι γ τ) : Prop := ∀ i x, s i = some x → x.done = true → x.dead = false

theorem Move.sorted (h : Move s notice s') (hs : s.Sorted) : s'.Sorted := by
  intro i y hy hdone
  rcases h.found hy with ⟨-, -, hdead, -⟩ | ⟨x, hx, rfl | ⟨hopen, hchange⟩⟩
  · exact hdead
  · exact hs i y hx hdone
  · cases hchange with
    | leased t alive clear => exact alive
    | finished t alive held => exact alive
    | released t dead alive held => simp [hopen] at hdone
    | revived dead => rfl

/-- A lease comes back only when it is given out again. -/
theorem Move.lease_ne (h : Move s notice s') {i : ι} {t : τ} (hnotice : notice ≠ .leased i t)
    (hs : ∀ x, s i = some x → x.lease ≠ some t) : ∀ y, s' i = some y → y.lease ≠ some t := by
  intro y hy
  rcases h.found hy with ⟨-, -, -, hlease, -⟩ | ⟨x, hx, rfl | ⟨-, hchange⟩⟩
  · rw [hlease]
    intro h
    cases h
  · exact hs y hx
  · cases hchange with
    | leased u alive clear =>
      rintro ⟨⟩
      exact hnotice rfl
    | finished | released | revived =>
      intro h
      cases h

/-- What is clear stays clear: items stay done and new ones come later. -/
theorem Move.clear (h : Move s notice s') {i : ι} {x : Item γ τ} (hx : s i = some x)
    (hclear : s.Clear x.group x.place) : s'.Clear x.group x.place := by
  intro j y hy hgroup hplace
  rcases h.found hy with ⟨-, -, -, -, hlast⟩ | ⟨z, hz, rfl | ⟨hopen, hchange⟩⟩
  · have := hlast i x hx hgroup.symm
    omega
  · exact hclear j y hz hgroup hplace
  · have hdone := hclear j z hz (hchange.place_eq.1 ▸ hgroup) (hchange.place_eq.2 ▸ hplace)
    rw [hopen] at hdone
    cases hdone

end Items

/-! ### Publications -/

/-- The items, those that were ever leased, and what was published, with whether it was accepted. -/
structure Courier (ι γ τ : Type) where
  items : Items ι γ τ
  taken : Set ι
  log : List (ι × Bool)

namespace Courier

variable [DecidableEq ι]

/-- Leases and publications. An item is finished only after a publication of it was accepted. -/
inductive Step (c : Courier ι γ τ) : Courier ι γ τ → Prop
  | silent (items : Items ι γ τ) (move : c.items.Move .silent items) : Step c { c with items }
  | leased (items : Items ι γ τ) (i : ι) (t : τ) (move : c.items.Move (.leased i t) items) :
      Step c { c with items, taken := insert i c.taken }
  | finished (items : Items ι γ τ) (i : ι) (move : c.items.Move (.finished i) items)
      (accepted : (i, true) ∈ c.log) : Step c { c with items }
  | published (i : ι) (accepted : Bool) (taken : i ∈ c.taken) :
      Step c { c with log := c.log ++ [(i, accepted)] }

/-- Every item before this one was published and accepted. -/
def Preceded (items : Items ι γ τ) (log : List (ι × Bool)) (i : ι) : Prop :=
  ∃ x, items i = some x ∧
    ∀ j y, items j = some y → y.group = x.group → y.place < x.place → (j, true) ∈ log

/-- What has been delivered is a beginning of each group, and was published in its order. -/
structure Ordered (c : Courier ι γ τ) : Prop where
  leased : ∀ i x t, c.items i = some x → x.lease = some t → i ∈ c.taken
  taken : ∀ i ∈ c.taken, ∃ x, c.items i = some x ∧ c.items.Clear x.group x.place
  done : ∀ i x, c.items i = some x → x.done = true →
    c.items.Clear x.group x.place ∧ (i, true) ∈ c.log
  log : ∀ before i accepted after, c.log = before ++ (i, accepted) :: after →
    Preceded c.items before i

def empty : Courier ι γ τ := ⟨fun _ => none, ∅, []⟩

omit [DecidableEq ι] in
theorem ordered_empty : (empty : Courier ι γ τ).Ordered where
  leased := by
    intro i x t h
    cases h
  taken := by
    intro i h
    cases h
  done := by
    intro i x h
    cases h
  log := by
    intro before i accepted after h
    cases before <;> cases h

variable {c c' : Courier ι γ τ} {notice : Notice ι τ} {items : Items ι γ τ}

/-- New items come after what was published. -/
theorem Preceded.move {log : List (ι × Bool)} {s : Items ι γ τ} {i : ι} (h : Preceded s log i)
    (hmove : s.Move notice items) : Preceded items log i := by
  obtain ⟨x, hx, hbefore⟩ := h
  obtain ⟨y, hy, hgroup, hplace, -⟩ := hmove.kept hx
  refine ⟨y, hy, ?_⟩
  rw [hgroup, hplace]
  intro j z hz hzgroup hzplace
  rcases hmove.found hz with ⟨-, -, -, -, hlast⟩ | ⟨w, hw, rfl | ⟨-, hchange⟩⟩
  · have := hlast i x hx hzgroup.symm
    omega
  · exact hbefore j z hw hzgroup hzplace
  · exact hbefore j w hw (hchange.place_eq.1 ▸ hzgroup) (hchange.place_eq.2 ▸ hzplace)

/-- A move keeps the order, if what it leases was clear and what it finishes was accepted. -/
theorem Ordered.move (h : c.Ordered) (hmove : c.items.Move notice items) {taken : Set ι}
    (hsub : c.taken ⊆ taken) (hleased : ∀ i ∈ taken, i ∈ c.taken ∨ ∃ t, notice = .leased i t)
    (hnotice : ∀ i t, notice = .leased i t → i ∈ taken)
    (hfinished : ∀ i, notice = .finished i → (i, true) ∈ c.log) :
    Ordered { c with items, taken } where
  leased := by
    intro i y t hy hlease
    rcases hmove.found hy with ⟨-, -, -, hnone, -⟩ | ⟨x, hx, rfl | ⟨-, hchange⟩⟩
    · rw [hnone] at hlease
      cases hlease
    · exact hsub (h.leased i y t hx hlease)
    · cases hchange with
      | leased u alive clear => exact hnotice i u rfl
      | finished | released | revived => cases hlease
  taken := by
    have hold {i : ι} {x : Item γ τ} (hx : c.items i = some x)
        (hclear : c.items.Clear x.group x.place) :
        ∃ y, items i = some y ∧ items.Clear y.group y.place := by
      obtain ⟨y, hy, hgroup, hplace, -⟩ := hmove.kept hx
      rw [← hgroup, ← hplace] at hclear
      refine ⟨y, hy, ?_⟩
      rw [hgroup, hplace] at hclear ⊢
      exact hmove.clear hx hclear
    intro i hi
    rcases hleased i hi with hi | ⟨t, rfl⟩
    · obtain ⟨x, hx, hclear⟩ := h.taken i hi
      exact hold hx hclear
    · cases hmove with
      | changed j x y notice found unfinished change =>
        cases change with
        | leased u alive clear =>
          exact hold found clear
  done := by
    intro i y hy hdone
    rcases hmove.found hy with ⟨-, hopen, -⟩ | ⟨x, hx, rfl | ⟨hopen, hchange⟩⟩
    · rw [hopen] at hdone
      cases hdone
    · obtain ⟨hclear, hlog⟩ := h.done i y hx hdone
      exact ⟨hmove.clear hx hclear, hlog⟩
    · cases hchange with
      | leased | released | revived => simp [hopen] at hdone
      | finished t alive held =>
        obtain ⟨x', hx', hclear⟩ := h.taken i (h.leased i x t hx held)
        obtain rfl := Option.some.inj (hx.symm.trans hx')
        have hclear := hmove.clear hx hclear
        exact ⟨hclear, hfinished i rfl⟩
  log := by
    intro before i accepted after hlog
    exact (h.log before i accepted after hlog).move hmove

theorem Step.ordered (hstep : Step c c') (h : c.Ordered) : c'.Ordered := by
  cases hstep with
  | silent items move =>
    exact h.move move subset_rfl (fun i hi => .inl hi) (fun i t he => by cases he)
      (fun i he => by cases he)
  | leased items i t move =>
    refine h.move move (Set.subset_insert i c.taken) ?_ ?_ (fun j he => by cases he)
    · intro j hj
      rcases Set.mem_insert_iff.mp hj with rfl | hj
      · exact .inr ⟨t, rfl⟩
      · exact .inl hj
    · rintro j u ⟨⟩
      exact Set.mem_insert i c.taken
  | finished items i move accepted =>
    refine h.move move subset_rfl (fun i hi => .inl hi) (fun i t he => by cases he) ?_
    rintro j ⟨⟩
    exact accepted
  | published i accepted taken =>
    refine ⟨h.leased, h.taken, ?_, ?_⟩
    · intro j x hx hdone
      obtain ⟨hclear, hlog⟩ := h.done j x hx hdone
      exact ⟨hclear, List.mem_append_left _ hlog⟩
    · intro before j accepted' after hlog
      rcases List.eq_nil_or_concat' after with rfl | ⟨rest, last, rfl⟩
      · obtain ⟨rfl, hlast⟩ := List.append_inj' hlog rfl
        cases hlast
        obtain ⟨x, hx, hclear⟩ := h.taken i taken
        refine ⟨x, hx, fun k y hy hgroup hplace => ?_⟩
        exact (h.done k y hy (hclear k y hy hgroup hplace)).2
      · rw [← List.cons_append, ← List.append_assoc] at hlog
        obtain ⟨hlog, -⟩ := List.append_inj' hlog rfl
        exact h.log before j accepted' rest hlog

/-- Every run of the protocol delivers in order. -/
theorem ordered_of_steps (h : Relation.ReflTransGen Step (empty : Courier ι γ τ) c) : c.Ordered := by
  induction h with
  | refl => exact ordered_empty
  | tail _ hstep ih => exact hstep.ordered ih

end Courier

end SentinelGRC.Protocol
