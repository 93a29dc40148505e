import Mathlib.Data.List.Basic
import Mathlib.Data.List.Induction

/-!
Hash chains. Each record names the hash of the record before it, the first a given start. Two
chains that reach the same hash hash the same messages, unless two messages collide or one of
them hashes to the start.
-/

namespace SentinelGRC.Protocol

variable {μ η : Type}

/-- What is hashed of a record, and the hash that the record names. -/
structure Link (μ η : Type) where
  message : μ
  previous : η

/-- Links from one hash to another. -/
inductive Chained (hash : μ → η) : η → List (Link μ η) → η → Prop
  | nil (start : η) : Chained hash start [] start
  | cons {start final : η} {x : Link μ η} {xs : List (Link μ η)} (hprevious : x.previous = start)
      (h : Chained hash (hash x.message) xs final) : Chained hash start (x :: xs) final

variable {hash : μ → η} {start final : η} {x : Link μ η} {xs ys : List (Link μ η)}

theorem chained_append {rest : List (Link μ η)} : Chained hash start (xs ++ rest) final ↔
    ∃ middle, Chained hash start xs middle ∧ Chained hash middle rest final := by
  induction xs generalizing start with
  | nil =>
    constructor
    · exact fun h => ⟨start, .nil start, h⟩
    · rintro ⟨middle, hnil, h⟩
      cases hnil
      exact h
  | cons x xs ih =>
    constructor
    · intro h
      obtain _ | ⟨hprevious, h⟩ := h
      obtain ⟨middle, hxs, hrest⟩ := ih.mp h
      exact ⟨middle, .cons hprevious hxs, hrest⟩
    · rintro ⟨middle, hxs, hrest⟩
      obtain _ | ⟨hprevious, hxs⟩ := hxs
      exact .cons hprevious (ih.mpr ⟨middle, hxs, hrest⟩)

theorem chained_concat : Chained hash start (xs ++ [x]) final ↔
    Chained hash start xs x.previous ∧ final = hash x.message := by
  rw [chained_append]
  constructor
  · rintro ⟨middle, hxs, hx⟩
    obtain _ | ⟨hprevious, hnil⟩ := hx
    cases hnil
    exact ⟨hprevious ▸ hxs, rfl⟩
  · rintro ⟨hxs, rfl⟩
    exact ⟨x.previous, hxs, .cons rfl (.nil _)⟩

/-- Two messages that hash alike, or one that hashes to the start. -/
def Broken (hash : μ → η) (start : η) (messages messages' : List μ) : Prop :=
  (∃ m ∈ messages, ∃ n ∈ messages', m ≠ n ∧ hash m = hash n) ∨
    ∃ m ∈ messages ++ messages', hash m = start

theorem Broken.mono {ms ns ms' ns' : List μ} (h : Broken hash start ms ns) (hms : ms ⊆ ms')
    (hns : ns ⊆ ns') : Broken hash start ms' ns' := by
  rcases h with ⟨m, hm, n, hn, hne, hsame⟩ | ⟨m, hm, hstart⟩
  · exact .inl ⟨m, hms hm, n, hns hn, hne, hsame⟩
  · refine .inr ⟨m, ?_, hstart⟩
    rw [List.mem_append] at hm ⊢
    exact hm.imp (fun h => hms h) (fun h => hns h)

/-- Chains that reach the same hash hash the same messages, where a message determines the hash
that its record names. -/
theorem Chained.messages_eq (hx : Chained hash start xs final) (hy : Chained hash start ys final)
    (hprevious : ∀ x ∈ xs, ∀ y ∈ ys, x.message = y.message → x.previous = y.previous) :
    xs.map Link.message = ys.map Link.message ∨
      Broken hash start (xs.map Link.message) (ys.map Link.message) := by
  induction xs using List.reverseRecOn generalizing ys final with
  | nil =>
    cases hx
    rcases List.eq_nil_or_concat' ys with rfl | ⟨init, y, rfl⟩
    · exact .inl rfl
    · obtain ⟨-, hstart⟩ := chained_concat.mp hy
      exact .inr (.inr ⟨y.message, by simp, hstart.symm⟩)
  | append_singleton init x ih =>
    obtain ⟨hinit, rfl⟩ := chained_concat.mp hx
    rcases List.eq_nil_or_concat' ys with rfl | ⟨init', y, rfl⟩
    · cases hy
      exact .inr (.inr ⟨x.message, by simp, rfl⟩)
    · obtain ⟨hinit', hsame⟩ := chained_concat.mp hy
      by_cases hmessage : x.message = y.message
      · rw [← hprevious x (by simp) y (by simp) hmessage] at hinit'
        have hrest := ih hinit hinit' fun u hu v hv =>
          hprevious u (List.mem_append_left _ hu) v (List.mem_append_left _ hv)
        rw [List.map_append, List.map_append, List.map_singleton, List.map_singleton, hmessage]
        rcases hrest with hrest | hbroken
        · exact .inl (by rw [hrest])
        · exact .inr (hbroken.mono (List.subset_append_left _ _) (List.subset_append_left _ _))
      · exact .inr (.inl ⟨x.message, by simp, y.message, by simp, hmessage, hsame⟩)

end SentinelGRC.Protocol
