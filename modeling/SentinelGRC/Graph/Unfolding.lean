import Mathlib.Data.Fintype.Card
import Mathlib.Data.Fintype.EquivFin
import Mathlib.Logic.Relation

/-!
Ordered graphs with labelled edges, unfolded into trees. A tree is given by its nodes in
preorder, each with the edge that leads to it, so a node that is shared occurs once for each
path. An unfolding is finite, so there is one only where no path returns to its start; in a
finite graph that is enough.
-/

namespace SentinelGRC.Graph

open Relation

variable {κ ι : Type} (edges : ι → List (κ × ι))

/-- The trees below a list of edges, in preorder. -/
inductive Unfolds : List (κ × ι) → List (κ × ι) → Prop
  | nil : Unfolds [] []
  | cons {k : κ} {i : ι} {rest below after : List (κ × ι)} (down : Unfolds (edges i) below)
      (along : Unfolds rest after) : Unfolds ((k, i) :: rest) ((k, i) :: (below ++ after))

/-- An edge from the first node to the second. -/
def Child (i j : ι) : Prop := ∃ k, (k, j) ∈ edges i

/-- A path, the empty one included. -/
def Reaches : ι → ι → Prop := ReflTransGen (Child edges)

/-- No path from a node below the root returns to it. -/
def AcyclicFrom (root : ι) : Prop := ∀ i, Reaches edges root i → ¬ TransGen (Child edges) i i

variable {edges} {es l : List (κ × ι)} {k : κ} {i j root : ι}

/-- There is one unfolding at most. -/
theorem Unfolds.unique {l' : List (κ × ι)} (h : Unfolds edges es l) (h' : Unfolds edges es l') :
    l = l' := by
  induction h generalizing l' with
  | nil =>
    cases h'
    rfl
  | cons down along ihdown ihalong =>
    cases h' with
    | cons down' along' => rw [ihdown down', ihalong along']

/-- A node of the unfolding has its own unfolding in it. -/
theorem Unfolds.within (h : Unfolds edges es l) (hmem : (k, i) ∈ l) :
    ∃ below, Unfolds edges (edges i) below ∧ below.length < l.length := by
  induction h with
  | nil => cases hmem
  | @cons k' i' rest below after down along ihdown ihalong =>
    rcases List.mem_cons.mp hmem with heq | hmem
    · cases heq
      exact ⟨below, down, by simp only [List.length_cons, List.length_append]; omega⟩
    · rcases List.mem_append.mp hmem with hmem | hmem
      · obtain ⟨below', hdown, hlength⟩ := ihdown hmem
        exact ⟨below', hdown, by simp only [List.length_cons, List.length_append]; omega⟩
      · obtain ⟨below', hdown, hlength⟩ := ihalong hmem
        exact ⟨below', hdown, by simp only [List.length_cons, List.length_append]; omega⟩

/-- A node does not occur below itself. -/
theorem Unfolds.not_mem (h : Unfolds edges (edges i) l) : (k, i) ∉ l := by
  intro hmem
  obtain ⟨below, hdown, hlength⟩ := h.within hmem
  rw [hdown.unique h] at hlength
  exact absurd hlength (lt_irrefl _)

/-- The nodes of an unfolding are those that the edges lead to. -/
theorem Unfolds.mem_iff (h : Unfolds edges es l) :
    (∃ k, (k, j) ∈ l) ↔ ∃ e ∈ es, Reaches edges e.2 j := by
  induction h with
  | nil => simp
  | @cons k' i' rest below after down along ihdown ihalong =>
    constructor
    · rintro ⟨k, hmem⟩
      rcases List.mem_cons.mp hmem with heq | hmem
      · cases heq
        exact ⟨_, List.mem_cons_self, .refl⟩
      · rcases List.mem_append.mp hmem with hmem | hmem
        · obtain ⟨e, he, hreach⟩ := ihdown.mp ⟨k, hmem⟩
          exact ⟨_, List.mem_cons_self, .head ⟨e.1, he⟩ hreach⟩
        · obtain ⟨e, he, hreach⟩ := ihalong.mp ⟨k, hmem⟩
          exact ⟨e, List.mem_cons_of_mem _ he, hreach⟩
    · rintro ⟨e, he, hreach⟩
      rcases List.mem_cons.mp he with rfl | he
      · rcases hreach.cases_head with rfl | ⟨c, ⟨kc, hc⟩, hreach⟩
        · exact ⟨k', List.mem_cons_self⟩
        · obtain ⟨k, hmem⟩ := ihdown.mpr ⟨(kc, c), hc, hreach⟩
          exact ⟨k, List.mem_cons_of_mem _ (List.mem_append_left _ hmem)⟩
      · obtain ⟨k, hmem⟩ := ihalong.mpr ⟨e, he, hreach⟩
        exact ⟨k, List.mem_cons_of_mem _ (List.mem_append_right _ hmem)⟩

/-- Where there is an unfolding no path returns to its start. -/
theorem Unfolds.acyclicFrom (h : Unfolds edges [(k, root)] l) : AcyclicFrom edges root := by
  intro i hreach hcycle
  obtain ⟨k', hmem⟩ := h.mem_iff.mpr ⟨(k, root), List.mem_singleton_self _, hreach⟩
  obtain ⟨below, hdown, -⟩ := h.within hmem
  obtain ⟨c, ⟨kc, hc⟩, hback⟩ := TransGen.head'_iff.mp hcycle
  obtain ⟨k'', hself⟩ := hdown.mem_iff.mpr ⟨(kc, c), hc, hback⟩
  exact hdown.not_mem hself

/-- A list of edges unfolds if what is below each of them does. -/
theorem exists_unfolds_of_forall (h : ∀ e ∈ es, ∃ below, Unfolds edges (edges e.2) below) :
    ∃ l, Unfolds edges es l := by
  induction es with
  | nil => exact ⟨[], .nil⟩
  | cons e rest ih =>
    obtain ⟨below, hdown⟩ := h e List.mem_cons_self
    obtain ⟨after, halong⟩ := ih fun e he => h e (List.mem_cons_of_mem _ he)
    exact ⟨_, .cons hdown halong⟩

/-- In a finite graph a root that no path returns below has an unfolding. -/
theorem AcyclicFrom.exists_unfolds [Finite ι] (h : AcyclicFrom edges root) (k : κ) :
    ∃ l, Unfolds edges [(k, root)] l := by
  let Below := {i // Reaches edges root i}
  let above : Below → Below → Prop := fun a b => TransGen (Child edges) b.1 a.1
  have hfinite : Finite Below := Subtype.finite
  have hwf : WellFounded above := by
    have htrans : IsTrans Below above := ⟨fun a b c hab hbc => hbc.trans hab⟩
    have hirrefl : Std.Irrefl above := ⟨fun a ha => h a.1 a.2 ha⟩
    exact Finite.wellFounded_of_trans_of_irrefl above
  have hall : ∀ a : Below, ∃ below, Unfolds edges (edges a.1) below := by
    intro a
    induction a using hwf.induction with
    | _ a ih =>
      apply exists_unfolds_of_forall
      intro e he
      exact ih ⟨e.2, a.2.tail ⟨e.1, he⟩⟩ (.single ⟨e.1, he⟩)
  obtain ⟨below, hdown⟩ := hall ⟨root, .refl⟩
  exact ⟨_, .cons hdown .nil⟩

end SentinelGRC.Graph
