import SentinelGRC.Python.Decimal
import SentinelGRC.Python.Hashlib

/-!
The URL-safe alphabet of base 64 without padding. Four characters carry three bytes, two and
three characters one and two bytes; the bits that are left over in the last character are
not looked at, and one character alone carries nothing.
-/

namespace SentinelGRC.Python

/-- The class `[A-Za-z0-9_-]`, each character with its six bits. -/
def sextet (c : CodePoint) : Option ℕ :=
  if 0x41 ≤ c.val ∧ c.val ≤ 0x5A then some (c.val - 0x41)
  else if 0x61 ≤ c.val ∧ c.val ≤ 0x7A then some (c.val - 0x61 + 26)
  else if 0x30 ≤ c.val ∧ c.val ≤ 0x39 then some (c.val - 0x30 + 52)
  else if c = ofChar '-' then some 62
  else if c = ofChar '_' then some 63
  else none

def isBase64url (c : CodePoint) : Bool := (sextet c).isSome

/-- The bytes that a list of six-bit values carries. -/
def unpack : List ℕ → Bytes
  | a :: b :: c :: d :: rest =>
    UInt8.ofNat (a * 4 + b / 16) :: UInt8.ofNat (b % 16 * 16 + c / 4) ::
      UInt8.ofNat (c % 4 * 64 + d) :: unpack rest
  | [a, b, c] => [UInt8.ofNat (a * 4 + b / 16), UInt8.ofNat (b % 16 * 16 + c / 4)]
  | [a, b] => [UInt8.ofNat (a * 4 + b / 16)]
  | _ => []

/-- `base64.urlsafe_b64decode` of a text of that class, padded with `=`. -/
def urlsafeB64decode (t : Text) : Except PyError Bytes :=
  if t.length % 4 = 1 then
    .error (.valueError (lit "Invalid base64-encoded string: number of data characters (" ++
      natText t.length ++ lit ") cannot be 1 more than a multiple of 4"))
  else .ok (unpack (t.filterMap sextet))

/-- The text carries the bytes. -/
structure CarriesBytes (t : Text) (bytes : Bytes) : Prop where
  nonempty : t ≠ []
  alphabet : ∀ c ∈ t, isBase64url c = true
  length : t.length % 4 ≠ 1
  unpacked : unpack (t.filterMap sextet) = bytes

/-! ### Encoding -/

/-- The character of a six-bit value. -/
def base64Char (n : ℕ) : CodePoint :=
  if n < 26 then Fin.ofNat _ (0x41 + n)
  else if n < 52 then Fin.ofNat _ (0x61 + (n - 26))
  else if n < 62 then Fin.ofNat _ (0x30 + (n - 52))
  else if n = 62 then ofChar '-'
  else ofChar '_'

/-- The six-bit values that carry the bytes. -/
def sextets : Bytes → List ℕ
  | a :: b :: c :: rest =>
    a.toNat / 4 :: (a.toNat % 4 * 16 + b.toNat / 16) :: (b.toNat % 16 * 4 + c.toNat / 64) ::
      c.toNat % 64 :: sextets rest
  | [a, b] => [a.toNat / 4, a.toNat % 4 * 16 + b.toNat / 16, b.toNat % 16 * 4]
  | [a] => [a.toNat / 4, a.toNat % 4 * 16]
  | [] => []

/-- `base64.urlsafe_b64encode` without its padding. -/
def urlsafeB64encode (bytes : Bytes) : Text := (sextets bytes).map base64Char

theorem sextet_base64Char : ∀ n < 64, sextet (base64Char n) = some n := by decide

theorem sextets_lt : ∀ (bytes : Bytes), ∀ n ∈ sextets bytes, n < 64
  | a :: b :: c :: rest => by
    have ha := a.toNat_lt
    have hb := b.toNat_lt
    have hc := c.toNat_lt
    simp only [sextets, List.forall_mem_cons]
    refine ⟨by omega, by omega, by omega, by omega, sextets_lt rest⟩
  | [a, b] => by
    have ha := a.toNat_lt
    have hb := b.toNat_lt
    simp only [sextets, List.forall_mem_cons]
    refine ⟨by omega, by omega, by omega, by simp⟩
  | [a] => by
    have ha := a.toNat_lt
    simp only [sextets, List.forall_mem_cons]
    refine ⟨by omega, by omega, by simp⟩
  | [] => by simp [sextets]

theorem unpack_sextets : ∀ bytes : Bytes, unpack (sextets bytes) = bytes
  | a :: b :: c :: rest => by
    have ha := a.toNat_lt
    have hb := b.toNat_lt
    have hc := c.toNat_lt
    have h₁ : a.toNat / 4 * 4 + (a.toNat % 4 * 16 + b.toNat / 16) / 16 = a.toNat := by omega
    have h₂ : (a.toNat % 4 * 16 + b.toNat / 16) % 16 * 16 +
        (b.toNat % 16 * 4 + c.toNat / 64) / 4 = b.toNat := by omega
    have h₃ : (b.toNat % 16 * 4 + c.toNat / 64) % 4 * 64 + c.toNat % 64 = c.toNat := by omega
    simp only [sextets, unpack, h₁, h₂, h₃, UInt8.ofNat_toNat, unpack_sextets rest]
  | [a, b] => by
    have ha := a.toNat_lt
    have hb := b.toNat_lt
    have h₁ : a.toNat / 4 * 4 + (a.toNat % 4 * 16 + b.toNat / 16) / 16 = a.toNat := by omega
    have h₂ : (a.toNat % 4 * 16 + b.toNat / 16) % 16 * 16 + b.toNat % 16 * 4 / 4 = b.toNat := by
      omega
    simp only [sextets, unpack, h₁, h₂, UInt8.ofNat_toNat]
  | [a] => by
    have ha := a.toNat_lt
    have h₁ : a.toNat / 4 * 4 + a.toNat % 4 * 16 / 16 = a.toNat := by omega
    simp only [sextets, unpack, h₁, UInt8.ofNat_toNat]
  | [] => rfl

theorem length_sextets : ∀ bytes : Bytes, (sextets bytes).length % 4 ≠ 1
  | _ :: _ :: _ :: rest => by
    have ih := length_sextets rest
    simp only [sextets, List.length_cons]
    omega
  | [_, _] => by simp [sextets]
  | [_] => by simp [sextets]
  | [] => by simp [sextets]

theorem sextets_ne_nil {bytes : Bytes} (h : bytes ≠ []) : sextets bytes ≠ [] := by
  match bytes with
  | _ :: _ :: _ :: _ => simp [sextets]
  | [_, _] => simp [sextets]
  | [_] => simp [sextets]
  | [] => exact absurd rfl h

/-- What `base64.urlsafe_b64encode` writes carries the bytes. -/
theorem carriesBytes_encode {bytes : Bytes} (h : bytes ≠ []) :
    CarriesBytes (urlsafeB64encode bytes) bytes := by
  have hsextet : ∀ n ∈ sextets bytes, sextet (base64Char n) = some n :=
    fun n hn => sextet_base64Char n (sextets_lt bytes n hn)
  refine ⟨?_, ?_, ?_, ?_⟩
  · simpa [urlsafeB64encode] using sextets_ne_nil h
  · intro c hc
    obtain ⟨n, hn, rfl⟩ := List.mem_map.mp hc
    simp [isBase64url, hsextet n hn]
  · simpa [urlsafeB64encode] using length_sextets bytes
  · rw [urlsafeB64encode, List.filterMap_map]
    have hall : (sextets bytes).filterMap (sextet ∘ base64Char) = (sextets bytes).filterMap some :=
      List.filterMap_congr hsextet
    rw [hall, List.filterMap_some, unpack_sextets]

end SentinelGRC.Python
