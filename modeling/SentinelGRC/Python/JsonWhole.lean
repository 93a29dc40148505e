import SentinelGRC.Python.JsonRead
import SentinelGRC.Python.JsonRoundTrip

/-!
Text without surrogates reads as joined strings: an escaped high surrogate before an escaped low
one is read as their pair. So such a text determines a value that prints, and `json.dumps` with
sorted keys tells the values that were read apart, up to the order of their keys.
-/

namespace SentinelGRC.Python

open Json

variable {F : Type}

theorem Scalar.suffix {s t : Text} (ht : Scalar t) (h : s <:+ t) : Scalar s :=
  fun c hc => ht c (h.subset hc)

/-- The escape of a low surrogate. -/
def StartsLow (t : Text) : Prop :=
  ∃ b l₁ l₂ l₃ l₄ tail low, t = b :: ofChar 'u' :: l₁ :: l₂ :: l₃ :: l₄ :: tail ∧ b.val = 0x5C ∧
    hex4 l₁ l₂ l₃ l₄ = some low ∧ 0xDC00 ≤ low ∧ low ≤ 0xDFFF

theorem joined_cons {c : CodePoint} {t : Text} : Joined (c :: t) ↔
    (∀ d ∈ t.head?, (isHighSurrogate c && isLowSurrogate d) = false) ∧ Joined t := by
  rw [Joined, List.isChain_cons, Joined]

theorem hexValue_lt {c : CodePoint} {n : ℕ} (h : hexValue c = some n) : n < 16 := by
  unfold hexValue at h
  split_ifs at h <;> cases h <;> omega

theorem hex4_lt {a b c d : CodePoint} {n : ℕ} (h : hex4 a b c d = some n) : n < 0x10000 := by
  simp only [hex4, Option.bind_eq_bind, Option.bind_eq_some_iff, Option.pure_def,
    Option.some.injEq] at h
  obtain ⟨a', ha, b', hb, c', hc, d', hd, rfl⟩ := h
  have := hexValue_lt ha
  have := hexValue_lt hb
  have := hexValue_lt hc
  have := hexValue_lt hd
  omega

theorem val_ofCodeUnit {n : ℕ} (h : n < 0x110000) : (ofCodeUnit n).val = n := Nat.mod_eq_of_lt h

theorem isHighSurrogate_eq {c : CodePoint} :
    isHighSurrogate c = true ↔ 0xD800 ≤ c.val ∧ c.val ≤ 0xDBFF := by
  rw [isHighSurrogate, Bool.and_eq_true, decide_eq_true_iff, decide_eq_true_iff]

theorem isLowSurrogate_eq {c : CodePoint} :
    isLowSurrogate c = true ↔ 0xDC00 ≤ c.val ∧ c.val ≤ 0xDFFF := by
  rw [isLowSurrogate, Bool.and_eq_true, decide_eq_true_iff, decide_eq_true_iff]

theorem joinSurrogates_bounds {high low : ℕ} (hh : 0xD800 ≤ high ∧ high ≤ 0xDBFF)
    (hl : 0xDC00 ≤ low ∧ low ≤ 0xDFFF) :
    0x10000 ≤ joinSurrogates high low ∧ joinSurrogates high low < 0x110000 := by
  unfold joinSurrogates
  constructor
  · rw [Nat.add_assoc]
    exact Nat.le_add_right _ _
  · omega

/-- The string that the scanner reads from text without surrogates is joined, and begins with a
low one only where its escape was. -/
theorem joined_of_scanString {t s rest : Text} (ht : Scalar t) (h : scanString t = .ok (s, rest)) :
    Joined s ∧ ∀ c ∈ s.head?, isLowSurrogate c = true → StartsLow t := by
  -- a code point that is no surrogate joins what follows it
  have hplain {c : CodePoint} {s t : Text} (hc : isSurrogate c = false) (hs : Joined s) :
      Joined (c :: s) ∧ ∀ d ∈ (c :: s).head?, isLowSurrogate d = true → StartsLow t := by
    have hval := isSurrogate_eq_false.mp hc
    refine ⟨joined_cons.mpr ⟨fun d _ => ?_, hs⟩, fun d hd hlow => ?_⟩
    · rw [Bool.and_eq_false_iff, Bool.eq_false_iff, ne_eq, isHighSurrogate_eq]
      omega
    · obtain rfl := Option.mem_some_iff.mp hd
      rw [isLowSurrogate_eq] at hlow
      omega
  fun_induction scanString t generalizing s rest with
  | case2 =>
    obtain ⟨rfl, -⟩ := Prod.mk.inj (Except.ok.inj h)
    exact ⟨List.isChain_nil, fun c hc => by cases hc⟩
  | case1 | case3 | case4 | case5 | case10 | case11 | case13 => cases h
  | case6 c hquote hslash h₁ h₂ h₃ h₄ high hhex b u l₁ l₂ l₃ l₄ tail hpair low hlow hrange ih =>
    -- a pair of escapes is one code point beyond the surrogates
    obtain ⟨s, rfl, hscan⟩ := consChar_eq_ok h
    simp only [scalar_cons] at ht
    obtain ⟨hs, -⟩ := ih ht.2.2.2.2.2.2.2.2.2.2.2.2 hscan
    obtain ⟨hlower, hupper⟩ := joinSurrogates_bounds ⟨hpair.1, hpair.2.1⟩ hrange
    refine hplain (isSurrogate_eq_false.mpr (.inr ?_)) hs
    rw [val_ofCodeUnit hupper]
    omega
  | case7 c hquote hslash h₁ h₂ h₃ h₄ high hhex b u l₁ l₂ l₃ l₄ tail hpair low hlow hrange ih =>
    obtain ⟨s, rfl, hscan⟩ := consChar_eq_ok h
    have hval := val_ofCodeUnit (n := high) (by omega)
    obtain ⟨hs, hstart⟩ := ih (ht.suffix (by simp [List.suffix_cons_iff])) hscan
    refine ⟨joined_cons.mpr ⟨fun d hd => ?_, hs⟩, fun d hd hd' => ?_⟩
    · rw [Bool.and_eq_false_iff, Bool.eq_false_iff (b := isLowSurrogate d)]
      right
      intro hd'
      obtain ⟨b', k₁, k₂, k₃, k₄, tail', low', heq, -, hlow', hrange'⟩ := hstart d hd hd'
      simp only [List.cons.injEq] at heq
      obtain ⟨-, -, rfl, rfl, rfl, rfl, -⟩ := heq
      obtain rfl := Option.some.inj (hlow.symm.trans hlow')
      exact hrange hrange'
    · obtain rfl := Option.mem_some_iff.mp hd
      rw [isLowSurrogate_eq, hval] at hd'
      omega
  | case8 c hquote hslash h₁ h₂ h₃ h₄ unit hhex b u l₁ l₂ l₃ l₄ tail hpair ih =>
    obtain ⟨s, rfl, hscan⟩ := consChar_eq_ok h
    have hunit := hex4_lt hhex
    have hval := val_ofCodeUnit (n := unit) (by omega)
    obtain ⟨hs, hstart⟩ := ih (ht.suffix (by simp [List.suffix_cons_iff])) hscan
    refine ⟨joined_cons.mpr ⟨fun d hd => ?_, hs⟩, fun d hd hd' => ?_⟩
    · rw [Bool.and_eq_false_iff, or_iff_not_imp_left, Bool.not_eq_false, isHighSurrogate_eq, hval,
        Bool.eq_false_iff]
      intro hhigh hd'
      obtain ⟨b', k₁, k₂, k₃, k₄, tail', low', heq, hb, -, -⟩ := hstart d hd hd'
      simp only [List.cons.injEq] at heq
      obtain ⟨rfl, rfl, -⟩ := heq
      exact hpair ⟨hhigh.1, hhigh.2, hb, rfl⟩
    · obtain rfl := Option.mem_some_iff.mp hd
      rw [isLowSurrogate_eq, hval] at hd'
      exact ⟨_, _, _, _, _, _, unit, rfl, hslash, hhex, hd'.1, hd'.2⟩
  | case9 c hquote hslash h₁ h₂ h₃ h₄ unit hhex rest' hshort ih =>
    obtain ⟨s, rfl, hscan⟩ := consChar_eq_ok h
    have hunit := hex4_lt hhex
    have hval := val_ofCodeUnit (n := unit) (by omega)
    obtain ⟨hs, hstart⟩ := ih (ht.suffix (by simp [List.suffix_cons_iff])) hscan
    refine ⟨joined_cons.mpr ⟨fun d hd => ?_, hs⟩, fun d hd hd' => ?_⟩
    · rw [Bool.and_eq_false_iff, Bool.eq_false_iff (b := isLowSurrogate d)]
      right
      intro hd'
      obtain ⟨b', k₁, k₂, k₃, k₄, tail', low', heq, -⟩ := hstart d hd hd'
      exact hshort _ _ _ _ _ _ _ heq
    · obtain rfl := Option.mem_some_iff.mp hd
      rw [isLowSurrogate_eq, hval] at hd'
      exact ⟨_, _, _, _, _, _, unit, rfl, hslash, hhex, hd'.1, hd'.2⟩
  | case12 c hquote hslash e rest' hu d hescape ih =>
    obtain ⟨s, rfl, hscan⟩ := consChar_eq_ok h
    simp only [scalar_cons] at ht
    obtain ⟨hs, -⟩ := ih ht.2.2 hscan
    refine hplain ?_ hs
    unfold simpleEscape at hescape
    split_ifs at hescape <;> cases hescape
    · exact ht.2.1
    all_goals decide
  | case14 c rest' hquote hslash hcontrol ih =>
    obtain ⟨s, rfl, hscan⟩ := consChar_eq_ok h
    simp only [scalar_cons] at ht
    exact hplain ht.1 (ih ht.2 hscan).1

namespace Json

variable [PyFloat F] {st : Style}

theorem whole_of_loads {t : Text} {v : Json F} (ht : Scalar t) (h : loads t = .ok v) : Whole v := by
  have hscanned : Scanned (F := F) Scalar joinedNode :=
    { suffix := fun ht hs => ht.suffix hs
      str := fun ht hs => decide_eq_true (joined_of_scanString ht hs).1
      constant := by
        intro c hc
        simp only [constants, List.mem_cons, List.not_mem_nil, or_false] at hc
        rcases hc with rfl | rfl | rfl | rfl | rfl | rfl
        all_goals rfl
      numeral := by
        intro t rest m v _ hv
        rw [numeralValue] at hv
        split_ifs at hv
        all_goals
          cases hv
          rfl
      arr := fun _ => rfl
      empty := rfl
      member := by
        intro t key rest fs v ht hkey hfs
        rw [joinedNode, List.all_eq_true] at hfs ⊢
        intro k hk
        rcases mem_keys_setField hk with rfl | hk
        · exact decide_eq_true (joined_of_scanString ht hkey).1
        · exact hfs k hk }
  exact hscanned.all_of_loads ht h

/-- A value that was read from text without surrogates is read back. -/
theorem roundTrip_of_loads {t : Text} {v : Json F} (ht : Scalar t) (h : loads t = .ok v) :
    v.all (roundTripNode st) = true :=
  all_roundTripNode.mpr ⟨printable_of_loads h, distinct_of_loads h, fun _ => whole_of_loads ht h⟩

end Json

end SentinelGRC.Python
