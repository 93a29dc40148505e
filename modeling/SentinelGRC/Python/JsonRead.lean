import SentinelGRC.Python.Dict
import SentinelGRC.Python.Raises

/-!
What `json.loads` returns. A check that holds wherever the scanner makes a value holds at
every depth of the value it returns; two such checks are that the keys of an object are
distinct and that an integer has no more digits than `str` prints.
-/

namespace SentinelGRC.Python

variable {F : Type}

namespace Json

/-! ### Setting keys -/

theorem field_setField (key : Text) (v : Json F) (other : Text) : ∀ fs : Fields F,
    field other (setField key v fs) = if key = other then some v else field other fs
  | [] => rfl
  | (k, w) :: fs => by
    by_cases hk : k = key
    · subst hk
      rw [setField, if_pos rfl, field, field]
      split_ifs <;> rfl
    · rw [setField, if_neg hk, field, field, field_setField key v other fs]
      split_ifs with hother hkey
      · exact absurd (hother.trans hkey.symm) hk
      · rfl
      · rfl
      · rfl

theorem mem_keys_setField {key : Text} {v : Json F} {other : Text} : ∀ {fs : Fields F},
    other ∈ (setField key v fs).map Prod.fst → other = key ∨ other ∈ fs.map Prod.fst
  | [], h => .inl (List.mem_singleton.mp h)
  | f :: fs, h => by
    rw [setField] at h
    split_ifs at h with hk
    · rcases List.mem_cons.mp h with h | h
      · exact .inl h
      · exact .inr (List.mem_cons_of_mem _ h)
    · rcases List.mem_cons.mp h with h | h
      · exact .inr (h ▸ List.mem_cons_self)
      · exact (mem_keys_setField h).imp_right (List.mem_cons_of_mem _)

theorem nodup_setField {key : Text} {v : Json F} : ∀ {fs : Fields F},
    (fs.map Prod.fst).Nodup → ((setField key v fs).map Prod.fst).Nodup
  | [], _ => List.nodup_singleton key
  | f :: fs, h => by
    obtain ⟨hf, hfs⟩ := List.nodup_cons.mp h
    rw [setField]
    split_ifs with hk
    · subst hk
      exact h
    · refine List.nodup_cons.mpr ⟨fun hmem => ?_, nodup_setField hfs⟩
      rcases mem_keys_setField hmem with hsame | hmem
      · exact hk hsame
      · exact hf hmem

/-- `d.update(other)`. -/
def update (fs : Fields F) (other : Fields F) : Fields F :=
  other.foldl (fun d f => setField f.1 f.2 d) fs

theorem field_eq_none {key : Text} {fs : Fields F} : field key fs = none ↔ key ∉ fs.map Prod.fst := by
  induction fs with
  | nil => simp [field]
  | cons f fs ih =>
    rw [field, List.map_cons, List.mem_cons, not_or]
    split_ifs with hk
    · constructor
      · intro h
        cases h
      · intro h
        exact absurd hk.symm h.1
    · rw [ih]
      exact ⟨fun h => ⟨Ne.symm hk, h⟩, And.right⟩

/-- The keys of the argument win. -/
theorem field_update (key : Text) (fs : Fields F) {other : Fields F}
    (hd : (other.map Prod.fst).Nodup) :
    field key (update fs other) = (field key other).or (field key fs) := by
  induction other generalizing fs with
  | nil => rfl
  | cons f other ih =>
    obtain ⟨hf, hother⟩ := List.nodup_cons.mp hd
    have hstep : update fs (f :: other) = update (setField f.1 f.2 fs) other := rfl
    rw [hstep, ih _ hother, field_setField, field]
    split_ifs with hk
    · rw [field_eq_none.mpr (hk ▸ hf), Option.none_or, Option.some_or]
    · rfl

/-! ### What the scanner leaves -/

theorem consChar_eq_ok {c : CodePoint} {r : Except PyError (Text × Text)} {s rest : Text}
    (h : consChar c r = .ok (s, rest)) : ∃ tail, s = c :: tail ∧ r = .ok (tail, rest) := by
  cases r with
  | error e => cases h
  | ok q =>
    obtain ⟨tail, rest'⟩ := q
    obtain ⟨rfl, rfl⟩ := Prod.mk.inj (Except.ok.inj h)
    exact ⟨tail, rfl, rfl⟩

theorem suffix_of_scanString {t s rest : Text} (h : scanString t = .ok (s, rest)) : rest <:+ t := by
  fun_induction scanString t generalizing s rest with
  | case2 =>
    obtain ⟨-, rfl⟩ := Prod.mk.inj (Except.ok.inj h)
    exact List.suffix_cons _ _
  | case1 | case3 | case4 | case5 | case10 | case11 | case13 => cases h
  | case6 | case7 | case8 | case9 | case12 | case14 =>
    rename_i ih
    obtain ⟨tail, -, h⟩ := consChar_eq_ok h
    exact (ih h).trans (by simp [List.suffix_cons_iff])

theorem suffix_of_afterPrefix {p t rest : Text} (h : afterPrefix p t = some rest) : rest <:+ t := by
  fun_induction afterPrefix p t with
  | case1 t =>
    obtain rfl := Option.some.inj h
    exact List.suffix_refl _
  | case2 => cases h
  | case3 c p t ih => exact (ih h).trans (List.suffix_cons _ _)
  | case4 => cases h

theorem suffix_of_scanConstant {cs : List (Text × Json F)} {t rest : Text} {v : Json F}
    (h : scanConstant cs t = some (v, rest)) : rest <:+ t := by
  induction cs with
  | nil => cases h
  | cons c cs ih =>
    rw [scanConstant] at h
    split at h
    · rename_i hafter
      obtain ⟨-, rfl⟩ := Prod.mk.inj (Option.some.inj h)
      exact suffix_of_afterPrefix hafter
    · exact ih h

theorem suffix_of_scanNumeral {t rest : Text} {m : Numeral} (h : scanNumeral t = some (m, rest)) :
    rest <:+ t := by
  have hsign : (scanSign t).2 <:+ t := by
    fun_cases scanSign t <;> simp
  have hwhole : ∀ {t whole rest : Text}, scanWhole t = some (whole, rest) → rest <:+ t := by
    intro t whole rest h
    unfold scanWhole at h
    split at h
    · cases h
    · split_ifs at h
      · obtain ⟨-, rfl⟩ := Prod.mk.inj (Option.some.inj h)
        exact List.suffix_cons _ _
      · obtain ⟨-, rfl⟩ := Prod.mk.inj (Option.some.inj h)
        exact List.dropWhile_suffix _
  have hfraction : ∀ t : Text, (scanFraction t).2 <:+ t := by
    intro t
    fun_cases scanFraction t
    · exact List.suffix_refl _
    · exact (List.dropWhile_suffix _).trans (List.suffix_cons _ _)
    · exact List.suffix_refl _
  have hexponentSign : ∀ t : Text, (scanExponentSign t).2 <:+ t := by
    intro t
    fun_cases scanExponentSign t <;> simp
  have hexponent : ∀ t : Text, (scanExponent t).2 <:+ t := by
    intro t
    cases t with
    | nil => exact List.suffix_refl _
    | cons c rest =>
      have hdigits := hexponentSign rest
      rcases hs : scanExponentSign rest with ⟨sign, digits⟩
      rw [hs] at hdigits
      rw [scanExponent, hs]
      dsimp only
      split_ifs
      · exact (List.dropWhile_suffix _).trans (hdigits.trans (List.suffix_cons _ _))
      · exact List.suffix_refl _
  unfold scanNumeral at h
  simp only at h
  split at h
  · cases h
  · rename_i whole t' hw
    obtain ⟨-, rfl⟩ := Prod.mk.inj (Option.some.inj h)
    exact (hexponent _).trans ((hfraction _).trans ((hwhole hw).trans hsign))

/-! ### Values that were read -/

/-- A check that holds wherever the scanner makes a value from a text of some kind. -/
structure Scanned [PyFloat F] (T : Text → Prop) (p : Json F → Bool) : Prop where
  suffix : ∀ {s t : Text}, T t → s <:+ t → T s
  str : ∀ {t s rest : Text}, T t → scanString t = .ok (s, rest) → p (.str s) = true
  constant : ∀ c ∈ constants, c.2.all p = true
  numeral : ∀ {t rest : Text} {m : Numeral} {v : Json F}, scanNumeral t = some (m, rest) →
    numeralValue m = .ok v → v.all p = true
  arr : ∀ xs, p (.arr xs) = true
  empty : p (.obj []) = true
  member : ∀ {t key rest : Text} {fs : Fields F} (v : Json F), T t →
    scanString t = .ok (key, rest) → p (.obj fs) = true → p (.obj (setField key v fs)) = true

variable {p : Json F → Bool}

theorem scanConstant_mem : ∀ {cs : List (Text × Json F)} {t : Text} {r : Json F × Text},
    scanConstant cs t = some r → ∃ c ∈ cs, c.2 = r.1
  | [], t, r, h => by cases h
  | (name, v) :: cs, t, r, h => by
    rw [scanConstant] at h
    split at h
    · cases h
      exact ⟨_, List.mem_cons_self, rfl⟩
    · obtain ⟨c, hc, he⟩ := scanConstant_mem h
      exact ⟨c, List.mem_cons_of_mem _ hc, he⟩

theorem allFields_setField {key : Text} {v : Json F} {fs : Fields F} (hv : v.all p = true)
    (hfs : allFields p fs = true) : allFields p (setField key v fs) = true := by
  induction fs with
  | nil =>
    rw [setField, allFields, allField, hv]
    rfl
  | cons f fs ih =>
    rw [allFields, Bool.and_eq_true] at hfs
    rw [setField]
    split_ifs with hk
    · rw [allFields, allField, hv, hfs.2]
      rfl
    · rw [allFields, hfs.1, ih hfs.2]
      rfl

theorem allFields_update {fs other : Fields F} (hfs : allFields p fs = true)
    (hother : allFields p other = true) : allFields p (update fs other) = true := by
  induction other generalizing fs with
  | nil => exact hfs
  | cons f other ih =>
    rw [allFields, Bool.and_eq_true] at hother
    rcases f with ⟨key, v⟩
    exact ih (allFields_setField hother.1 hfs) hother.2

theorem allItems_concat {xs : List (Json F)} {v : Json F} (hxs : allItems p xs = true)
    (hv : v.all p = true) : allItems p (xs ++ [v]) = true := by
  induction xs with
  | nil =>
    rw [List.nil_append, allItems, hv]
    rfl
  | cons x xs ih =>
    rw [allItems, Bool.and_eq_true] at hxs
    rw [List.cons_append, allItems, hxs.1, ih hxs.2]
    rfl

variable [PyFloat F]

/-- A scanner that returns only values that pass a check, and text of the kind that it was given. -/
abbrev Yields (T : Text → Prop) (p : Json F → Bool) (r : Except PyError (Json F × Text)) : Prop :=
  Returns (fun q => q.1.all p = true ∧ T q.2) r

/-- All functions of the scanner, by the fuel they share. -/
theorem Scanned.yields {T : Text → Prop} (hp : Scanned T p) (n : ℕ) :
    (∀ t, T t → Yields T p (scanValue n t)) ∧ (∀ t, T t → Yields T p (scanObject n t)) ∧
      (∀ fs t, T t → p (.obj fs) = true → allFields p fs = true → Yields T p (scanFields n fs t)) ∧
      (∀ t, T t → Yields T p (scanArray n t)) ∧
      ∀ xs t, T t → allItems p xs = true → Yields T p (scanItems n xs t) := by
  have hskip {t : Text} (ht : T t) : T (skipWs t) := hp.suffix ht (List.dropWhile_suffix _)
  have htail {c : CodePoint} {t : Text} (ht : T (c :: t)) : T t :=
    hp.suffix ht (List.suffix_cons _ _)
  have hafter {c : CodePoint} {t u : Text} (ht : T t) (hu : skipWs t = c :: u) : T u :=
    htail (hu ▸ hskip ht)
  induction n with
  | zero =>
    refine ⟨fun t _ => ?_, fun t _ => ?_, fun fs t _ _ _ => ?_, fun t _ => ?_, fun xs t _ _ => ?_⟩
    · rw [scanValue]
      exact returns_error _
    · rw [scanObject]
      exact returns_error _
    · rw [scanFields]
      exact returns_error _
    · rw [scanArray]
      exact returns_error _
    · rw [scanItems]
      exact returns_error _
  | succ n ih =>
    obtain ⟨hvalue, hobject, hfields, harray, hitems⟩ := ih
    refine ⟨fun t ht => ?_, fun t ht => ?_, fun fs t ht hobj hfs => ?_, fun t ht => ?_,
      fun xs t ht hxs => ?_⟩
    · cases t with
      | nil =>
        rw [scanValue]
        exact returns_error _
      | cons c rest =>
        rw [scanValue]
        split_ifs
        · cases hs : scanString rest with
          | error e => exact returns_error e
          | ok r =>
            exact returns_ok ⟨hp.str (htail ht) hs, hp.suffix (htail ht) (suffix_of_scanString hs)⟩
        · exact hobject _ (hskip (htail ht))
        · exact harray _ (hskip (htail ht))
        · split
          · rename_i r hr
            obtain ⟨c, hc, he⟩ := scanConstant_mem hr
            exact returns_ok ⟨he ▸ hp.constant c hc, hp.suffix ht (suffix_of_scanConstant hr)⟩
          · split
            · rename_i m t hm
              cases hv : numeralValue (F := F) m with
              | error e => exact returns_error e
              | ok v =>
                exact returns_ok ⟨hp.numeral hm hv, hp.suffix ht (suffix_of_scanNumeral hm)⟩
            · exact returns_error _
    · cases t with
      | nil =>
        rw [scanObject]
        exact returns_error _
      | cons c rest =>
        rw [scanObject]
        split_ifs
        · refine returns_ok ⟨?_, htail ht⟩
          rw [all, hp.empty]
          rfl
        · exact hfields _ _ ht hp.empty rfl
    · cases t with
      | nil =>
        rw [scanFields]
        exact returns_error _
      | cons c rest =>
        rw [scanFields]
        split_ifs
        · exact returns_error _
        · refine Returns.bind ?_
          rintro ⟨key, t⟩ hkey
          have hrest : T t := hp.suffix (htail ht) (suffix_of_scanString hkey)
          dsimp only
          split
          · exact returns_error _
          · rename_i c t' hcolon
            split_ifs
            · exact returns_error _
            · refine Returns.bind ?_
              rintro ⟨v, t⟩ hv
              obtain ⟨hv, hrest⟩ := hvalue _ (hskip (hafter hrest hcolon)) _ hv
              have hobj' := hp.member v (htail ht) hkey hobj
              have hset : allFields p (setField key v fs) = true := allFields_setField hv hfs
              dsimp only
              split
              · exact returns_error _
              · rename_i c t' hcomma
                split_ifs
                · refine returns_ok ⟨?_, hafter hrest hcomma⟩
                  rw [all, hobj', hset]
                  rfl
                · exact hfields _ _ (hskip (hafter hrest hcomma)) hobj' hset
                · exact returns_error _
    · cases t with
      | nil =>
        rw [scanArray]
        exact returns_error _
      | cons c rest =>
        rw [scanArray]
        split_ifs
        · refine returns_ok ⟨?_, htail ht⟩
          rw [all, hp.arr]
          rfl
        · exact hitems _ _ ht rfl
    · rw [scanItems]
      refine Returns.bind ?_
      rintro ⟨v, t⟩ hv
      obtain ⟨hv, hrest⟩ := hvalue _ ht _ hv
      have hconcat := allItems_concat hxs hv
      dsimp only
      split
      · exact returns_error _
      · rename_i c t' hcomma
        split_ifs
        · refine returns_ok ⟨?_, hafter hrest hcomma⟩
          rw [all, hp.arr, hconcat]
          rfl
        · exact hitems _ _ (hskip (hafter hrest hcomma)) hconcat
        · exact returns_error _

theorem Scanned.all_of_loads {T : Text → Prop} (hp : Scanned T p) {t : Text} (ht : T t) {v : Json F}
    (h : loads t = .ok v) : v.all p = true := by
  rw [loads] at h
  split_ifs at h
  obtain ⟨⟨w, rest⟩, hw, h⟩ := bind_eq_ok.mp h
  dsimp only at h
  split_ifs at h
  cases h
  exact ((hp.yields _).1 _ (hp.suffix ht (List.dropWhile_suffix _)) _ hw).1

/-! ### Keys and digits -/

theorem distinct_of_loads {t : Text} {v : Json F} (h : loads t = .ok v) : Distinct v := by
  have hscanned : Scanned (F := F) (fun _ => True) distinctNode :=
    { suffix := fun _ _ => trivial
      str := fun _ _ => rfl
      constant := by
        intro c hc
        simp only [constants, List.mem_cons, List.not_mem_nil, or_false] at hc
        rcases hc with rfl | rfl | rfl | rfl | rfl | rfl
        all_goals rfl
      numeral := by
        intro t rest m v _ hv
        rw [numeralValue] at hv
        split_ifs at hv
        all_goals
          cases hv
          rfl
      arr := fun _ => rfl
      empty := rfl
      member := by
        intro t key rest fs v _ _ hfs
        exact decide_eq_true (nodup_setField (of_decide_eq_true hfs)) }
  exact hscanned.all_of_loads trivial h

omit [PyFloat F] in
theorem ofDigits_lt {t : Text} (h : ∀ c ∈ t, isDigit c = true) : ofDigits t < 10 ^ t.length := by
  induction t using List.reverseRecOn with
  | nil => decide
  | append_singleton t c ih =>
    have hc := isDigit_iff.mp (h c (by simp))
    have ht := ih fun d hd => h d (List.mem_append_left _ hd)
    rw [ofDigits, List.foldl_append, List.length_append, List.length_singleton, Nat.pow_succ]
    change 10 * ofDigits t + (c.val - 0x30) < _
    omega

omit [PyFloat F] in
theorem digits_scanWhole {t whole rest : Text} (h : scanWhole t = some (whole, rest)) : Digits whole := by
  cases t with
  | nil => cases h
  | cons c t =>
    rw [scanWhole] at h
    split_ifs at h with hzero hdigit
    · cases h
      refine ⟨List.cons_ne_nil _ _, fun d hd => ?_⟩
      rw [List.mem_singleton.mp hd, hzero]
      decide
    · cases h
      refine ⟨?_, fun d hd => List.mem_takeWhile_imp hd⟩
      rw [List.takeWhile_cons_of_pos hdigit]
      exact List.cons_ne_nil _ _

omit [PyFloat F] in
theorem digits_scanNumeral {t rest : Text} {m : Numeral} (h : scanNumeral t = some (m, rest)) :
    Digits m.whole := by
  unfold scanNumeral at h
  dsimp only at h
  split at h
  · cases h
  · rename_i hwhole
    cases h
    exact digits_scanWhole hwhole

/-- The digit limits of reading and of printing are the same. -/
theorem printable_of_loads {t : Text} {v : Json F} (h : loads t = .ok v) : Printable v := by
  have hscanned : Scanned (F := F) (fun _ => True) printableNode :=
    { suffix := fun _ _ => trivial
      str := fun _ _ => rfl
      constant := by
        intro c hc
        simp only [constants, List.mem_cons, List.not_mem_nil, or_false] at hc
        rcases hc with rfl | rfl | rfl | rfl | rfl | rfl
        all_goals rfl
      numeral := by
        intro t rest m v hm hv
        have hdigits := digits_scanNumeral hm
        rw [numeralValue] at hv
        split_ifs at hv with hfloat hlimit hnegative
        · cases hv
          rfl
        all_goals
          cases hv
          refine decide_eq_true ((length_natText_le ?_ ?_).trans hlimit)
          · exact List.length_pos_iff.mpr hdigits.1
          · simpa using ofDigits_lt hdigits.2
      arr := fun _ => rfl
      empty := rfl
      member := fun _ _ _ _ => rfl }
  exact hscanned.all_of_loads trivial h

end Json

end SentinelGRC.Python
