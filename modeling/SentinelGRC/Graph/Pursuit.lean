import Mathlib.Data.List.Chain
import Mathlib.Data.List.Nodup
import Mathlib.Data.List.Perm.Subperm

/-!
Following a partial function from a place until it is undefined. The loop ends from a start
that nothing leads to, if no two places of a finite set lead to the same one: a path then
never comes back to itself.
-/

namespace SentinelGRC.Graph

variable {α : Type} (next : α → Option α)

/-- The loop that collects the places from one on, with a bound on its turns. -/
def follow : ℕ → Option α → Option (List α)
  | _, none => some []
  | 0, some _ => none
  | fuel + 1, some a => (follow fuel (next a)).map (a :: ·)

/-- All places from one on. -/
inductive Trail : Option α → List α → Prop
  | nil : Trail none []
  | cons {a : α} {rest : List α} (h : Trail (next a) rest) : Trail (some a) (a :: rest)

/-- Each place leads to the one behind it. -/
def Path (places : List α) : Prop := places.IsChain fun a b => next a = some b

variable {next} {start : Option α} {places rest : List α} {s : List α}

theorem follow_eq_some_iff {fuel : ℕ} :
    follow next fuel start = some places ↔ Trail next start places ∧ places.length ≤ fuel := by
  induction fuel generalizing start places with
  | zero =>
    cases start with
    | none =>
      constructor
      · intro h
        obtain rfl := Option.some.inj h
        exact ⟨Trail.nil, le_rfl⟩
      · rintro ⟨htrail, -⟩
        cases htrail
        rfl
    | some a =>
      refine iff_of_false (by simp [follow]) ?_
      rintro ⟨htrail, hlength⟩
      cases htrail
      simp at hlength
  | succ fuel ih =>
    cases start with
    | none =>
      constructor
      · intro h
        obtain rfl := Option.some.inj h
        exact ⟨Trail.nil, Nat.zero_le _⟩
      · rintro ⟨htrail, -⟩
        cases htrail
        rfl
    | some a =>
      rw [follow, Option.map_eq_some_iff]
      constructor
      · rintro ⟨rest, hrest, rfl⟩
        obtain ⟨htrail, hlength⟩ := ih.mp hrest
        exact ⟨Trail.cons htrail, Nat.succ_le_succ hlength⟩
      · rintro ⟨htrail, hlength⟩
        cases htrail with
        | cons hrest => exact ⟨_, ih.mpr ⟨hrest, Nat.le_of_succ_le_succ hlength⟩, rfl⟩

theorem Trail.unique (h : Trail next start places) (h' : Trail next start rest) : places = rest := by
  induction h generalizing rest with
  | nil =>
    cases h'
    rfl
  | cons _ ih =>
    cases h' with
    | cons hrest => rw [ih hrest]

theorem Trail.path (h : Trail next start places) : Path next places ∧ places.head? = start := by
  induction h with
  | nil => exact ⟨List.isChain_nil, rfl⟩
  | @cons a rest _ ih =>
    obtain ⟨hpath, hhead⟩ := ih
    refine ⟨List.isChain_cons.mpr ⟨?_, hpath⟩, rfl⟩
    intro b hb
    rw [← hhead]
    exact hb

/-- Behind the first place of a path, each one has a place before it. -/
theorem Path.exists_before {a b : α} (h : Path next (a :: rest)) (hb : b ∈ rest) :
    ∃ p ∈ a :: rest, next p = some b := by
  induction rest generalizing a with
  | nil => cases hb
  | cons c rest ih =>
    obtain ⟨hac, hrest⟩ := List.isChain_cons_cons.mp h
    rcases List.mem_cons.mp hb with rfl | hb
    · exact ⟨a, List.mem_cons_self, hac⟩
    · obtain ⟨p, hp, hnext⟩ := ih hrest hb
      exact ⟨p, List.mem_cons_of_mem _ hp, hnext⟩

/-- A path from a place that none of its places leads to does not come back. -/
theorem Path.nodup {a : α} (h : Path next (a :: rest))
    (hinj : ∀ p ∈ a :: rest, ∀ q ∈ a :: rest, ∀ b, next p = some b → next q = some b → p = q)
    (hfirst : ∀ p ∈ a :: rest, next p ≠ some a) : (a :: rest).Nodup := by
  induction rest generalizing a with
  | nil => exact List.nodup_singleton a
  | cons b rest ih =>
    have hnot : a ∉ b :: rest := by
      intro hmem
      obtain ⟨p, hp, hnext⟩ := h.exists_before hmem
      exact hfirst p hp hnext
    obtain ⟨hab, hrest⟩ := List.isChain_cons_cons.mp h
    refine List.nodup_cons.mpr ⟨hnot, ih hrest ?_ ?_⟩
    · intro p hp q hq
      exact hinj p (List.mem_cons_of_mem _ hp) q (List.mem_cons_of_mem _ hq)
    · intro p hp hnext
      -- Only the first place leads to the second one.
      obtain rfl := hinj a List.mem_cons_self p (List.mem_cons_of_mem _ hp) b hab hnext
      exact hnot hp

/-- Either the places end within a number of turns, or there is a path of as many and one. -/
theorem exists_trail_or_path (turns : ℕ) (start : Option α) :
    (∃ places, Trail next start places ∧ places.length ≤ turns) ∨
      ∃ places, Path next places ∧ places.head? = start ∧ places.length = turns + 1 := by
  induction turns generalizing start with
  | zero =>
    cases start with
    | none => exact Or.inl ⟨[], Trail.nil, le_rfl⟩
    | some a => exact Or.inr ⟨[a], List.isChain_singleton a, rfl, rfl⟩
  | succ turns ih =>
    cases start with
    | none => exact Or.inl ⟨[], Trail.nil, Nat.zero_le _⟩
    | some a =>
      rcases ih (next a) with ⟨rest, htrail, hlength⟩ | ⟨rest, hpath, hhead, hlength⟩
      · exact Or.inl ⟨a :: rest, Trail.cons htrail, Nat.succ_le_succ hlength⟩
      · refine Or.inr ⟨a :: rest, List.isChain_cons.mpr ⟨?_, hpath⟩, rfl, by simp [hlength]⟩
        intro b hb
        rw [← hhead]
        exact hb

theorem Path.subset (h : Path next places) (hstart : ∀ a ∈ places.head?, a ∈ s)
    (hclosed : ∀ p ∈ s, ∀ b, next p = some b → b ∈ s) : places ⊆ s := by
  induction places with
  | nil => exact List.nil_subset s
  | cons a rest ih =>
    have ha : a ∈ s := hstart a rfl
    obtain ⟨hhead, hrest⟩ := List.isChain_cons.mp h
    exact List.cons_subset.mpr ⟨ha, ih hrest fun b hb => hclosed a ha b (hhead b hb)⟩

/-- In a finite set where no two places lead to the same one and none to the start, the loop
ends, and visits no place twice. -/
theorem exists_trail (hstart : ∀ a ∈ start, a ∈ s)
    (hclosed : ∀ p ∈ s, ∀ b, next p = some b → b ∈ s)
    (hinj : ∀ p ∈ s, ∀ q ∈ s, ∀ b, next p = some b → next q = some b → p = q)
    (hfirst : ∀ p ∈ s, ∀ a ∈ start, next p ≠ some a) :
    ∃ places, Trail next start places ∧ places.Nodup ∧ places ⊆ s := by
  have hnodup : ∀ places, Path next places → places.head? = start → places.Nodup ∧ places ⊆ s := by
    intro places hpath hhead
    have hsubset := hpath.subset (hhead ▸ hstart) hclosed
    refine ⟨?_, hsubset⟩
    cases places with
    | nil => exact List.nodup_nil
    | cons a rest =>
      refine hpath.nodup (fun p hp q hq => hinj p (hsubset hp) q (hsubset hq)) ?_
      exact fun p hp => hfirst p (hsubset hp) a hhead.symm
  rcases @exists_trail_or_path α next s.length start with
    ⟨places, htrail, -⟩ | ⟨places, hpath, hhead, hlength⟩
  · obtain ⟨hpath, hhead⟩ := htrail.path
    exact ⟨places, htrail, hnodup places hpath hhead⟩
  · obtain ⟨hdistinct, hsubset⟩ := hnodup places hpath hhead
    have hle := (hdistinct.subperm hsubset).length_le
    omega

end SentinelGRC.Graph
