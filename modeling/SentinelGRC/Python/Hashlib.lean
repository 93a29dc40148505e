import SentinelGRC.Python.Text

/-! The `hashlib` and `hmac` interface: a hash function with 32-byte digests,
its hexadecimal rendering, and the HMAC construction over it. Results about
programs that hash take the function as a `Digest`, so they use only its digest
length; `sha256` is the standard function itself, executable. -/

namespace SentinelGRC.Python

abbrev Bytes := List UInt8

/-- A `hashlib` constructor with a 32-byte digest and a 64-byte block. -/
structure Digest where
  digest : Bytes → Bytes
  digest_length : ∀ m, (digest m).length = 32

/-! ### Hexadecimal -/

def hexDigit (n : ℕ) : CodePoint := ofChar n.digitChar

/-- `bytes.hex()`. -/
def hexText (bytes : Bytes) : Text :=
  bytes.flatMap fun b => [hexDigit (b.toNat / 16), hexDigit (b.toNat % 16)]

/-- The class `[0-9a-f]`. -/
def isLowerHex (c : CodePoint) : Bool :=
  (0x30 ≤ c.val && c.val ≤ 0x39) || (0x61 ≤ c.val && c.val ≤ 0x66)

theorem isLowerHex_hexDigit : ∀ n < 16, isLowerHex (hexDigit n) = true := by decide

theorem isLowerHex_hexText {bytes : Bytes} : ∀ c ∈ hexText bytes, isLowerHex c = true := by
  intro c hc
  simp only [hexText, List.mem_flatMap, List.mem_cons, List.not_mem_nil, or_false] at hc
  obtain ⟨b, -, rfl | rfl⟩ := hc
  · exact isLowerHex_hexDigit _ (by have := b.toNat_lt; omega)
  · exact isLowerHex_hexDigit _ (by omega)

theorem length_hexText (bytes : Bytes) : (hexText bytes).length = 2 * bytes.length := by
  induction bytes with
  | nil => rfl
  | cons b rest ih =>
    simp only [hexText, List.flatMap_cons, List.length_append, List.length_cons, List.length_nil]
    change 0 + 1 + 1 + (hexText rest).length = _
    omega

theorem hexText_injective : Function.Injective hexText := by
  have hdigit : ∀ m < 16, ∀ n < 16, hexDigit m = hexDigit n → m = n := by decide
  intro a
  induction a with
  | nil =>
    intro b h
    cases b with
    | nil => rfl
    | cons d b => cases h
  | cons c a ih =>
    intro b h
    cases b with
    | nil => cases h
    | cons d b =>
      simp only [hexText, List.flatMap_cons, List.cons_append, List.nil_append, List.cons.injEq] at h
      obtain ⟨hhigh, hlow, hrest⟩ := h
      have hc := c.toNat_lt
      have hd := d.toNat_lt
      have hhigh := hdigit _ (by omega) _ (by omega) hhigh
      have hlow := hdigit _ (by omega) _ (by omega) hlow
      rw [ih hrest, UInt8.toNat_inj.mp (show c.toNat = d.toNat by omega)]

def Digest.hexdigest (H : Digest) (m : Bytes) : Text := hexText (H.digest m)

theorem Digest.hexdigest_length (H : Digest) (m : Bytes) : (H.hexdigest m).length = 64 := by
  rw [Digest.hexdigest, length_hexText, H.digest_length]

theorem Digest.isLowerHex_hexdigest (H : Digest) (m : Bytes) :
    ∀ c ∈ H.hexdigest m, isLowerHex c = true := isLowerHex_hexText

theorem scalar_of_isLowerHex {t : Text} (h : ∀ c ∈ t, isLowerHex c = true) : Scalar t := by
  intro c hc
  have hhex := h c hc
  simp only [isLowerHex, Bool.or_eq_true, Bool.and_eq_true, decide_eq_true_eq] at hhex
  rw [isSurrogate_eq_false]
  omega

/-! ### HMAC -/

/-- The key of an HMAC, padded to the block. -/
def hmacKey (H : Digest) (key : Bytes) : Bytes :=
  let short := if key.length ≤ 64 then key else H.digest key
  short ++ List.replicate (64 - short.length) 0

/-- `hmac.new(key, message, H)`, as its hexadecimal digest. -/
def hmacHex (H : Digest) (key message : Bytes) : Text :=
  let padded := hmacKey H key
  let inner := H.digest (padded.map (· ^^^ 0x36) ++ message)
  H.hexdigest (padded.map (· ^^^ 0x5C) ++ inner)

theorem isLowerHex_hmacHex (H : Digest) (key message : Bytes) :
    ∀ c ∈ hmacHex H key message, isLowerHex c = true := H.isLowerHex_hexdigest _

/-! ### SHA-256 -/

namespace Sha256

def word (n : ℕ) : ℕ := n % 4294967296

def rotr (n x : ℕ) : ℕ := (x >>> n) ||| word (x <<< (32 - n))

def roundConstants : List ℕ :=
  [0x428a2f98, 0x71374491, 0xb5c0fbcf, 0xe9b5dba5, 0x3956c25b, 0x59f111f1, 0x923f82a4, 0xab1c5ed5,
   0xd807aa98, 0x12835b01, 0x243185be, 0x550c7dc3, 0x72be5d74, 0x80deb1fe, 0x9bdc06a7, 0xc19bf174,
   0xe49b69c1, 0xefbe4786, 0x0fc19dc6, 0x240ca1cc, 0x2de92c6f, 0x4a7484aa, 0x5cb0a9dc, 0x76f988da,
   0x983e5152, 0xa831c66d, 0xb00327c8, 0xbf597fc7, 0xc6e00bf3, 0xd5a79147, 0x06ca6351, 0x14292967,
   0x27b70a85, 0x2e1b2138, 0x4d2c6dfc, 0x53380d13, 0x650a7354, 0x766a0abb, 0x81c2c92e, 0x92722c85,
   0xa2bfe8a1, 0xa81a664b, 0xc24b8b70, 0xc76c51a3, 0xd192e819, 0xd6990624, 0xf40e3585, 0x106aa070,
   0x19a4c116, 0x1e376c08, 0x2748774c, 0x34b0bcb5, 0x391c0cb3, 0x4ed8aa4a, 0x5b9cca4f, 0x682e6ff3,
   0x748f82ee, 0x78a5636f, 0x84c87814, 0x8cc70208, 0x90befffa, 0xa4506ceb, 0xbef9a3f7, 0xc67178f2]

/-- The eight working words. -/
structure Words where
  (a b c d e f g h : ℕ)

def initial : Words :=
  ⟨0x6a09e667, 0xbb67ae85, 0x3c6ef372, 0xa54ff53a, 0x510e527f, 0x9b05688c, 0x1f83d9ab, 0x5be0cd19⟩

/-- Continue with the value of a number; evaluation in the kernel stays linear. -/
def strict {α : Type} (n : ℕ) (k : ℕ → α) : α :=
  match n with
  | 0 => k 0
  | m + 1 => k (m + 1)

def round (s : Words) (k w : ℕ) : Words :=
  let s1 := rotr 6 s.e ^^^ rotr 11 s.e ^^^ rotr 25 s.e
  let ch := (s.e &&& s.f) ^^^ ((4294967295 - s.e) &&& s.g)
  strict (s.h + s1 + ch + k + w) fun t1 =>
    let s0 := rotr 2 s.a ^^^ rotr 13 s.a ^^^ rotr 22 s.a
    let maj := (s.a &&& s.b) ^^^ (s.a &&& s.c) ^^^ (s.b &&& s.c)
    strict (word (t1 + s0 + maj)) fun a =>
      strict (word (s.d + t1)) fun e => ⟨a, s.a, s.b, s.c, e, s.e, s.f, s.g⟩

/-- The word sixteen places after the first of the window. -/
def nextWord (w : List ℕ) : ℕ :=
  let x := w.getD 1 0
  let y := w.getD 14 0
  word ((rotr 17 y ^^^ rotr 19 y ^^^ (y >>> 10)) + w.getD 9 0 +
    (rotr 7 x ^^^ rotr 18 x ^^^ (x >>> 3)) + w.getD 0 0)

def rounds : List ℕ → List ℕ → Words → Words
  | [], _, s => s
  | k :: ks, w, s =>
    strict (nextWord w) fun next => rounds ks (w.tail ++ [next]) (round s k (w.headD 0))

def compress (s : Words) (block : List ℕ) : Words :=
  let t := rounds roundConstants block s
  strict (word (s.a + t.a)) fun a => strict (word (s.b + t.b)) fun b =>
  strict (word (s.c + t.c)) fun c => strict (word (s.d + t.d)) fun d =>
  strict (word (s.e + t.e)) fun e => strict (word (s.f + t.f)) fun f =>
  strict (word (s.g + t.g)) fun g => strict (word (s.h + t.h)) fun h => ⟨a, b, c, d, e, f, g, h⟩

/-- `n` bytes of a number, most significant first. -/
def bigEndian : ℕ → ℕ → Bytes
  | 0, _ => []
  | n + 1, x => UInt8.ofNat (x >>> (8 * n)) :: bigEndian n x

@[simp] theorem length_bigEndian (n x : ℕ) : (bigEndian n x).length = n := by
  induction n with
  | zero => rfl
  | succ n ih => rw [bigEndian, List.length_cons, ih]

def pad (m : Bytes) : Bytes :=
  m ++ 0x80 :: List.replicate ((119 - m.length % 64) % 64) 0 ++ bigEndian 8 (8 * m.length)

def toWords : Bytes → List ℕ
  | a :: b :: c :: d :: rest =>
    strict (((a.toNat * 256 + b.toNat) * 256 + c.toNat) * 256 + d.toNat) fun w => w :: toWords rest
  | _ => []

/-- Compress sixteen words at a time; the fuel bounds the number of blocks. -/
def compressAll : ℕ → List ℕ → Words → Words
  | 0, _, s => s
  | n + 1, ws, s => if ws.isEmpty then s else compressAll n (ws.drop 16) (compress s (ws.take 16))

def digest (m : Bytes) : Bytes :=
  let s := compressAll (m.length / 64 + 2) (toWords (pad m)) initial
  [s.a, s.b, s.c, s.d, s.e, s.f, s.g, s.h].flatMap (bigEndian 4)

theorem length_digest (m : Bytes) : (digest m).length = 32 := by simp [digest]

end Sha256

/-- `hashlib.sha256`. -/
def sha256 : Digest := ⟨Sha256.digest, Sha256.length_digest⟩

/-- The standard's one-block test vector. -/
example : sha256.hexdigest [0x61, 0x62, 0x63] =
    lit "ba7816bf8f01cfea414140de5dae2223b00361a396177a9cb410ff61f20015ad" := by decide +kernel

end SentinelGRC.Python
