import SentinelGRC.Python.Text

/-!
Text files that are appended to. What is appended to a file whose text ends its
last line adds its own lines and changes none; to any other file it adds at most
one line, since its first line continues the last one there.
-/

namespace SentinelGRC.Python

/-! ### Decoding -/

theorem encodeUtf8_decodeUtf8 {bytes : List UInt8} {t : Text} (h : decodeUtf8 bytes = .ok t) :
    encodeUtf8 t = .ok bytes := by
  unfold decodeUtf8 at h
  cases hd : bytes.toByteArray.utf8Decode? with
  | none =>
    rw [hd] at h
    cases h
  | some chars =>
    rw [hd] at h
    obtain rfl := Except.ok.inj h
    have hget : (bytes.toByteArray.utf8Decode?.get (by rw [hd]; rfl)) = chars := by
      simp only [hd, Option.get_some]
    have hencode := ByteArray.utf8Encode_get_utf8Decode? (b := bytes.toByteArray)
      (h := by rw [hd]; rfl)
    rw [hget] at hencode
    have htoChar : ∀ c : Char, toChar (ofChar c) = c := by
      intro c
      simp only [toChar, val_ofChar, Char.ofNat_toNat]
    rw [encodeUtf8_eq_ok]
    refine ⟨?_, ?_⟩
    · intro c hc
      obtain ⟨d, -, rfl⟩ := List.mem_map.mp hc
      exact isSurrogate_ofChar d
    · have hbytes : (chars.toList.flatMap String.utf8EncodeChar).toByteArray =
          bytes.toByteArray := hencode
      rw [List.flatMap_map]
      simp only [htoChar]
      have := congrArg (fun b : ByteArray => b.data.toList) hbytes
      simpa using this

theorem decodeUtf8_append {a b : List UInt8} {s t : Text} (hs : decodeUtf8 a = .ok s)
    (ht : encodeUtf8 t = .ok b) : decodeUtf8 (a ++ b) = .ok (s ++ t) :=
  decodeUtf8_encodeUtf8 (encodeUtf8_append (encodeUtf8_decodeUtf8 hs) ht)

theorem toChar_utf8EncodeChar_append {c d : Char} {a b : List UInt8}
    (h : String.utf8EncodeChar c ++ a = String.utf8EncodeChar d ++ b) : c = d ∧ a = b := by
  have hdecode (e : Char) (z : List UInt8) :
      ((String.utf8EncodeChar e ++ z).toByteArray).utf8DecodeChar? 0 = some e := by
    rw [List.toByteArray_append]
    exact ByteArray.utf8DecodeChar?_utf8EncodeChar_append
  have hc := hdecode c a
  rw [h, hdecode d b] at hc
  obtain rfl := Option.some.inj hc
  exact ⟨rfl, List.append_cancel_left h⟩

theorem encodeUtf8_cons {c : CodePoint} {t : Text} {b : List UInt8} :
    encodeUtf8 (c :: t) = .ok b ↔ isSurrogate c = false ∧
      ∃ b', encodeUtf8 t = .ok b' ∧ b = String.utf8EncodeChar (toChar c) ++ b' := by
  simp only [encodeUtf8_eq_ok, scalar_cons, List.flatMap_cons]
  constructor
  · rintro ⟨⟨hc, ht⟩, rfl⟩
    exact ⟨hc, _, ⟨ht, rfl⟩, rfl⟩
  · rintro ⟨hc, _, ⟨ht, rfl⟩, rfl⟩
    exact ⟨⟨hc, ht⟩, rfl⟩

/-- A text whose encoding starts with that of another starts with the other. -/
theorem encodeUtf8_prefix {s : Text} : ∀ {t : Text} {a b z : List UInt8}, encodeUtf8 s = .ok a →
    encodeUtf8 t = .ok b → b = a ++ z → ∃ r, t = s ++ r ∧ encodeUtf8 r = .ok z := by
  induction s with
  | nil =>
    intro t a b z hs ht hb
    obtain ⟨-, rfl⟩ := encodeUtf8_eq_ok.mp hs
    exact ⟨t, rfl, by rw [ht, hb]; rfl⟩
  | cons c s ih =>
    intro t a b z hs ht hb
    obtain ⟨hc, a', ha', rfl⟩ := encodeUtf8_cons.mp hs
    cases t with
    | nil =>
      obtain ⟨-, rfl⟩ := encodeUtf8_eq_ok.mp ht
      have hlen := congrArg List.length hb
      have hpos := String.length_utf8EncodeChar (toChar c)
      have := (toChar c).utf8Size_pos
      simp at hlen
      omega
    | cons d t =>
      obtain ⟨hd, b', hb', rfl⟩ := encodeUtf8_cons.mp ht
      rw [List.append_assoc] at hb
      obtain ⟨hchar, hrest⟩ := toChar_utf8EncodeChar_append hb
      have hdc : d = c := by rw [← ofChar_toChar hd, ← ofChar_toChar hc, hchar]
      obtain ⟨r, rfl, hr⟩ := ih ha' hb' hrest
      exact ⟨r, by rw [hdc]; rfl, hr⟩

/-! ### Line ends -/

theorem universalNewlines_append : ∀ (s t : Text), (∀ c ∈ t, c.val ≠ 0xD) →
    (∀ c ∈ t.head?, c.val ≠ 0xA) →
    universalNewlines (s ++ t) = universalNewlines s ++ t
  | [], t, ht, _ => universalNewlines_eq_self t ht
  | [c], [], _, _ => by simp
  | [c], d :: t, ht, hd => by
    have hne : d.val ≠ 0xA := hd d rfl
    have hrest := universalNewlines_eq_self (d :: t) ht
    by_cases hc : c.val = 0xD
    · simp [universalNewlines, hc, hne, hrest]
    · simp [universalNewlines, hc, hrest]
  | c :: d :: s, t, ht, hd => by
    have hshort := universalNewlines_append s t ht hd
    have hlong := universalNewlines_append (d :: s) t ht hd
    simp only [List.cons_append] at hlong ⊢
    rw [universalNewlines, universalNewlines]
    split_ifs <;> simp [hshort, hlong]

/-- A text whose last line is ended by `\n`. -/
def Terminated (t : Text) : Prop := t = [] ∨ ∃ s, t = s ++ [0xA]

theorem terminated_append (s t : Text) : Terminated (s ++ (t ++ [0xA])) :=
  .inr ⟨s ++ t, by simp⟩

/-- A text after which whatever comes next begins a new line of `splitlines`. -/
def EndsLine (t : Text) : Prop := t = [] ∨ ∃ s c, t = s ++ [c] ∧ isLineBreak c = true

theorem Terminated.endsLine {t : Text} (h : Terminated t) : EndsLine t := by
  rcases h with rfl | ⟨s, rfl⟩
  · exact .inl rfl
  · exact .inr ⟨s, 0xA, rfl, by decide⟩

theorem splitlinesFrom_break {b : CodePoint} (hb : isLineBreak b = true) {t : Text}
    (ht : ∀ c ∈ t.head?, c.val ≠ 0xA) : ∀ line s : Text,
    splitlinesFrom line (s ++ b :: t) = splitlinesFrom line (s ++ [b]) ++ splitlines t
  | line, [] => by
    cases t with
    | nil => simp [splitlines, splitlinesFrom]
    | cons d t =>
      have hd := ht d rfl
      simp [splitlines, splitlinesFrom, hb, hd]
  | line, [c] => by
    have ih := splitlinesFrom_break hb ht (c :: line) []
    have ih' := splitlinesFrom_break hb ht [] []
    simp only [List.nil_append, List.cons_append] at ih ih' ⊢
    rw [splitlinesFrom, splitlinesFrom]
    split_ifs
    · simp [splitlines, splitlinesFrom]
    · rw [ih', List.cons_append]
    · exact ih
  | line, c :: d :: s => by
    have hshort := splitlinesFrom_break hb ht [] s
    have hbreak := splitlinesFrom_break hb ht [] (d :: s)
    have hlong := splitlinesFrom_break hb ht (c :: line) (d :: s)
    simp only [List.cons_append] at hbreak hlong ⊢
    rw [splitlinesFrom, splitlinesFrom]
    split_ifs
    · rw [hshort, List.cons_append]
    · rw [hbreak, List.cons_append]
    · exact hlong

/-- Lines written after a text that ends its last line are added after its own. -/
theorem splitlines_append {s t : Text} (hs : EndsLine s) (ht : ∀ c ∈ t.head?, c.val ≠ 0xA) :
    splitlines (s ++ t) = splitlines s ++ splitlines t := by
  rcases hs with rfl | ⟨s, b, rfl, hb⟩
  · rfl
  · rw [List.append_assoc, List.singleton_append]
    exact splitlinesFrom_break hb ht [] s

theorem splitlinesFrom_unbroken : ∀ (line t : Text), (∀ c ∈ t, isLineBreak c = false) →
    line ++ t ≠ [] → splitlinesFrom line t = [line.reverse ++ t]
  | line, [], _, hne => by
    rw [splitlinesFrom, if_neg (by simpa using hne), List.append_nil]
  | line, [c], h, _ => by
    rw [splitlinesFrom, if_neg (by simp [h c List.mem_cons_self]), List.reverse_cons]
  | line, c :: d :: t, h, _ => by
    have hc := h c List.mem_cons_self
    have hreturn : ¬ (c.val = 0xD ∧ d.val = 0xA) := by
      rintro ⟨he, -⟩
      simp [isLineBreak, he] at hc
    rw [splitlinesFrom, if_neg hreturn, if_neg (by simp [hc]),
      splitlinesFrom_unbroken (c :: line) (d :: t) (fun e he => h e (List.mem_cons_of_mem _ he))
        (by simp), List.reverse_cons, List.append_assoc, List.singleton_append]

/-- A text without breaks is one line. -/
theorem splitlines_unbroken {t : Text} (h : ∀ c ∈ t, isLineBreak c = false) (hne : t ≠ []) :
    splitlines t = [t] := splitlinesFrom_unbroken [] t h hne

/-- A line written after a text that does not end its last line only makes that line longer. -/
theorem length_splitlinesFrom_append {b : CodePoint} {t : Text}
    (ht : ∀ c ∈ b :: t, isLineBreak c = false) : ∀ line s : Text,
    (splitlinesFrom line (s ++ (b :: t ++ [0xA]))).length = (splitlinesFrom line (s ++ [b])).length
  | line, [] => by
    rw [List.nil_append, splitlinesFrom_line line (b :: t) [] ht]
    simp [splitlines, splitlinesFrom, ht b List.mem_cons_self]
  | line, [c] => by
    have ih := length_splitlinesFrom_append ht (c :: line) []
    have ih' := length_splitlinesFrom_append ht [] []
    have hb : b.val ≠ 0xA := by
      intro he
      have := ht b List.mem_cons_self
      simp [isLineBreak, he] at this
    simp only [List.nil_append, List.cons_append] at ih ih' ⊢
    rw [splitlinesFrom, splitlinesFrom]
    split_ifs with hpair
    · exact absurd hpair.2 hb
    · rw [List.length_cons, List.length_cons, ih']
    · exact ih
  | line, c :: d :: s => by
    have hshort := length_splitlinesFrom_append ht [] s
    have hbreak := length_splitlinesFrom_append ht [] (d :: s)
    have hlong := length_splitlinesFrom_append ht (c :: line) (d :: s)
    simp only [List.cons_append] at hshort hbreak hlong ⊢
    rw [splitlinesFrom, splitlinesFrom]
    split_ifs
    · rw [List.length_cons, List.length_cons, hshort]
    · rw [List.length_cons, List.length_cons, hbreak]
    · exact hlong

theorem length_splitlines_append {s t : Text} (hs : ¬ EndsLine s)
    (ht : ∀ c ∈ t, isLineBreak c = false) :
    (splitlines (s ++ (t ++ [0xA]))).length = (splitlines s).length := by
  rcases List.eq_nil_or_concat s with rfl | ⟨s, b, rfl⟩
  · exact absurd (.inl rfl) hs
  · have hb : isLineBreak b = false := by
      rw [← Bool.not_eq_true]
      exact fun h => hs (.inr ⟨s, b, List.concat_eq_append, h⟩)
    rw [List.concat_eq_append, List.append_assoc]
    refine length_splitlinesFrom_append (fun c hc => ?_) [] s
    rcases List.mem_cons.mp hc with rfl | hc
    · exact hb
    · exact ht c hc

/-- A line appended to any text adds at most one line that passes a check. -/
theorem countP_splitlinesFrom_append (p : Text → Bool) {d : CodePoint} {t : Text}
    (hd : d.val ≠ 0xA) (ht : ∀ c ∈ d :: t, isLineBreak c = false) : ∀ line s : Text,
    (splitlinesFrom line (s ++ (d :: t ++ [0xA]))).countP p ≤ (splitlinesFrom line s).countP p + 1
  | line, [] => by
    rw [List.nil_append, splitlinesFrom_line line (d :: t) [] ht]
    exact le_trans List.countP_le_length (by simp [splitlines, splitlinesFrom])
  | line, [c] => by
    have hone (line : Text) : (splitlinesFrom line (d :: t ++ [0xA])).length = 1 := by
      rw [splitlinesFrom_line line (d :: t) [] ht]
      rfl
    simp only [List.cons_append, List.nil_append] at hone ⊢
    rw [splitlinesFrom, splitlinesFrom, if_neg (by simp [hd])]
    split_ifs
    · rw [List.countP_cons, List.countP_cons, List.countP_nil]
      have := List.countP_le_length (p := p) (l := splitlinesFrom [] (d :: (t ++ [0xA])))
      rw [hone] at this
      omega
    · have := List.countP_le_length (p := p) (l := splitlinesFrom (c :: line) (d :: (t ++ [0xA])))
      rw [hone] at this
      omega
  | line, c :: e :: s => by
    have hshort := countP_splitlinesFrom_append p hd ht [] s
    have hbreak := countP_splitlinesFrom_append p hd ht [] (e :: s)
    have hlong := countP_splitlinesFrom_append p hd ht (c :: line) (e :: s)
    simp only [List.cons_append] at hshort hbreak hlong ⊢
    rw [splitlinesFrom, splitlinesFrom]
    split_ifs
    · simp only [List.countP_cons]
      omega
    · simp only [List.countP_cons]
      omega
    · exact hlong

/-! ### Breaking at `\n` alone -/

/-- A line written after a terminated text is one more piece of it. -/
theorem countP_splitOn_append (p : Text → Bool) {s line : Text} (hs : Terminated s)
    (hline : (0xA : CodePoint) ∉ line) :
    ((s ++ (line ++ [0xA])).splitOn 0xA).countP p =
      (s.splitOn 0xA).countP p + if p line then 1 else 0 := by
  have hpiece : (line ++ [0xA]).splitOn (0xA : CodePoint) = line :: ([] : Text).splitOn 0xA :=
    List.splitOn_append_cons_self_of_not_mem hline []
  rcases hs with rfl | ⟨s, rfl⟩
  · rw [List.nil_append, hpiece, List.countP_cons]
  · rw [List.append_assoc, List.singleton_append, List.splitOn_append_cons_self, hpiece,
      List.splitOn_append_cons_self, List.countP_append, List.countP_append, List.countP_cons]
    omega

end SentinelGRC.Python
