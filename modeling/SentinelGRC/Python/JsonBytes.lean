import SentinelGRC.Python.Hashlib
import SentinelGRC.Python.JsonLoads
import SentinelGRC.Python.JsonSize
import SentinelGRC.Python.TextLines

/-!
`json.loads` on bytes. The encoding is detected from a byte order mark or from the zero
bytes at the start, and lone surrogates pass through every codec. Plain ASCII is read as
the same text.
-/

namespace SentinelGRC.Python

open Json

/-! ### Characters -/

/-- The number that bytes spell. -/
def unitOf (bigEndian : Bool) (bytes : Bytes) : ℕ :=
  (if bigEndian then bytes else bytes.reverse).foldl (fun n b => 256 * n + b.toNat) 0

/-- The bits of a lead byte and of so many continuation bytes, but no longer than needed. -/
def continued (lead count least : ℕ) (rest : Bytes) : Option (ℕ × Bytes) :=
  let tail := rest.take count
  let n := tail.foldl (fun n b => 64 * n + b.toNat % 64) lead
  if tail.length = count ∧ (tail.all fun b => 0x80 ≤ b.toNat && b.toNat < 0xC0) ∧ least ≤ n then
    some (n, rest.drop count)
  else none

def utf8Char : Bytes → Option (ℕ × Bytes)
  | [] => none
  | lead :: rest =>
    let n := lead.toNat
    if n < 0x80 then some (n, rest)
    else if 0xC2 ≤ n ∧ n < 0xE0 then continued (n - 0xC0) 1 0x80 rest
    else if 0xE0 ≤ n ∧ n < 0xF0 then continued (n - 0xE0) 2 0x800 rest
    else if 0xF0 ≤ n ∧ n < 0xF5 then continued (n - 0xF0) 3 0x10000 rest
    else none

/-- A high surrogate that no low one follows stands for itself. -/
def utf16Char (bigEndian : Bool) : Bytes → Option (ℕ × Bytes)
  | a :: b :: rest =>
    let n := unitOf bigEndian [a, b]
    if 0xD800 ≤ n ∧ n < 0xDC00 then
      match rest with
      | c :: d :: rest' =>
        let m := unitOf bigEndian [c, d]
        if 0xDC00 ≤ m ∧ m < 0xE000 then some (0x10000 + 0x400 * (n - 0xD800) + (m - 0xDC00), rest')
        else some (n, rest)
      | _ => some (n, rest)
    else some (n, rest)
  | _ => none

def utf32Char (bigEndian : Bool) : Bytes → Option (ℕ × Bytes)
  | a :: b :: c :: d :: rest => some (unitOf bigEndian [a, b, c, d], rest)
  | _ => none

/-! ### Decoding -/

inductive Codec
  | utf8
  | utf16 (bigEndian : Bool)
  | utf32 (bigEndian : Bool)
  deriving DecidableEq

def Codec.char : Codec → Bytes → Option (ℕ × Bytes)
  | .utf8 => utf8Char
  | .utf16 bigEndian => utf16Char bigEndian
  | .utf32 bigEndian => utf32Char bigEndian

/-- The characters of so many bytes at most. -/
def Codec.decode (codec : Codec) : ℕ → Bytes → Option Text
  | _, [] => some []
  | 0, _ => none
  | fuel + 1, bytes => do
    let (n, rest) ← codec.char bytes
    if h : n < 0x110000 then do
      let text ← codec.decode fuel rest
      return ⟨n, h⟩ :: text
    else none

/-- `json.detect_encoding`, with the length of the byte order mark. -/
def detectEncoding (bytes : Bytes) : Codec × ℕ :=
  if [0, 0, 0xFE, 0xFF] <+: bytes then (.utf32 true, 4)
  else if [0xFF, 0xFE, 0, 0] <+: bytes then (.utf32 false, 4)
  else if [0xFE, 0xFF] <+: bytes then (.utf16 true, 2)
  else if [0xFF, 0xFE] <+: bytes then (.utf16 false, 2)
  else if [0xEF, 0xBB, 0xBF] <+: bytes then (.utf8, 3)
  else match bytes with
    | a :: b :: c :: d :: _ =>
      if a = 0 then if b = 0 then (.utf32 true, 0) else (.utf16 true, 0)
      else if b = 0 then if c = 0 ∧ d = 0 then (.utf32 false, 0) else (.utf16 false, 0)
      else (.utf8, 0)
    | [a, b] => if a = 0 then (.utf16 true, 0) else if b = 0 then (.utf16 false, 0) else (.utf8, 0)
    | _ => (.utf8, 0)

/-- `json.loads(bytes)`. -/
def loadsBytes {F : Type} [PyFloat F] (bytes : Bytes) : Except PyError (Json F) :=
  let (codec, mark) := detectEncoding bytes
  match codec.decode bytes.length (bytes.drop mark) with
  | some text => loads text
  | none => .error .unicodeDecodeError

/-! ### Plain text -/

theorem utf8EncodeChar_of_plain {c : CodePoint} (h : Plain c) :
    ∃ b : UInt8, String.utf8EncodeChar (toChar c) = [b] ∧ b.toNat = c.val := by
  refine ⟨(toChar c).val.toUInt8, String.utf8EncodeChar_eq_singleton (utf8Size_of_plain h), ?_⟩
  rw [UInt32.toNat_toUInt8, toNat_toChar (isSurrogate_of_plain h)]
  have := h.2
  omega

/-- Bytes that spell out a text in ASCII. -/
def Spells (bytes : Bytes) (t : Text) : Prop :=
  List.Forall₂ (fun (b : UInt8) (c : CodePoint) => Plain c ∧ b.toNat = c.val) bytes t

theorem spells_encodeUtf8 {t : Text} (h : ∀ c ∈ t, Plain c) :
    ∀ {bytes : Bytes}, encodeUtf8 t = .ok bytes → Spells bytes t := by
  induction t with
  | nil =>
    intro bytes hencode
    obtain ⟨-, rfl⟩ := encodeUtf8_eq_ok.mp hencode
    exact .nil
  | cons c t ih =>
    intro bytes hencode
    obtain ⟨-, rest, hrest, rfl⟩ := encodeUtf8_cons.mp hencode
    obtain ⟨b, hb, hval⟩ := utf8EncodeChar_of_plain (h c List.mem_cons_self)
    rw [hb]
    exact .cons ⟨h c List.mem_cons_self, hval⟩ (ih (fun d hd => h d (List.mem_cons_of_mem c hd)) hrest)

theorem Spells.decode {bytes : Bytes} {t : Text} (h : Spells bytes t) :
    ∀ {fuel : ℕ}, bytes.length ≤ fuel → Codec.utf8.decode fuel bytes = some t := by
  induction h with
  | nil =>
    intro fuel _
    cases fuel <;> rfl
  | cons hbc _ ih =>
    rename_i b c bytes t hspells
    intro fuel hfuel
    obtain ⟨hplain, hval⟩ := hbc
    cases fuel with
    | zero => cases hfuel
    | succ fuel =>
      have hchar : Codec.utf8.char (b :: bytes) = some (b.toNat, bytes) := by
        have hlt : b.toNat < 0x80 := by
          have := hplain.2
          omega
        simp only [Codec.char, utf8Char, if_pos hlt]
      have hbound : b.toNat < 0x110000 := by
        rw [hval]
        exact c.isLt
      simp only [Codec.decode, hchar, Option.bind_eq_bind, Option.bind_some, dif_pos hbound,
        ih (Nat.le_of_succ_le_succ hfuel)]
      exact congrArg (fun d => some (d :: t)) (Fin.ext hval)

theorem Spells.plain {bytes : Bytes} {t : Text} (h : Spells bytes t) :
    ∀ b ∈ bytes, 0x20 ≤ b.toNat ∧ b.toNat < 0x7F := by
  induction h with
  | nil => exact nofun
  | cons hbc _ ih =>
    rw [List.forall_mem_cons, hbc.2]
    exact ⟨hbc.1, ih⟩

/-- Plain text has neither a byte order mark nor zero bytes. -/
theorem detectEncoding_of_plain {bytes : Bytes} (h : ∀ b ∈ bytes, 0x20 ≤ b.toNat ∧ b.toNat < 0x7F) :
    detectEncoding bytes = (.utf8, 0) := by
  have hmark (a : UInt8) (mark : Bytes) (ha : a.toNat < 0x20 ∨ 0x7F ≤ a.toNat) :
      ¬ a :: mark <+: bytes := by
    intro hstart
    have := h a (hstart.subset List.mem_cons_self)
    omega
  have hzero {a : UInt8} (ha : a ∈ bytes) : a ≠ 0 := by
    rintro rfl
    exact absurd (h 0 ha).1 (by decide)
  unfold detectEncoding
  rw [if_neg (hmark _ _ (by decide)), if_neg (hmark _ _ (by decide)), if_neg (hmark _ _ (by decide)),
    if_neg (hmark _ _ (by decide)), if_neg (hmark _ _ (by decide))]
  split
  · rw [if_neg (hzero (by simp)), if_neg (hzero (by simp))]
  · rw [if_neg (hzero (by simp)), if_neg (hzero (by simp))]
  · rfl

variable {F : Type} [PyFloat F]

/-- Plain text is read as it is. -/
theorem loadsBytes_encodeUtf8 {t : Text} {bytes : Bytes} (h : ∀ c ∈ t, Plain c)
    (hencode : encodeUtf8 t = .ok bytes) : loadsBytes (F := F) bytes = loads t := by
  have hspells := spells_encodeUtf8 h hencode
  rw [loadsBytes, detectEncoding_of_plain hspells.plain]
  simp only [List.drop_zero, hspells.decode (le_refl _)]

end SentinelGRC.Python
