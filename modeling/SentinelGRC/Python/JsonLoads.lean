import SentinelGRC.Python.Json

/-! `json.loads` on text: the scanner of the `json` module with its strict
strings, surrogate pairs, the constants `NaN` and `Infinity`, and dictionaries in
which a repeated key keeps its place and takes the later value. Fuel bounds the
recursion; three units for each code point are enough, since every third call
consumes one. -/

namespace SentinelGRC.Python

variable {F : Type}

def isJsonSpace (c : CodePoint) : Bool :=
  c.val == 0x20 || c.val == 0x9 || c.val == 0xA || c.val == 0xD

def skipWs (t : Text) : Text := t.dropWhile isJsonSpace

/-- What follows a given prefix. -/
def afterPrefix : Text → Text → Option Text
  | [], t => some t
  | _ :: _, [] => none
  | c :: p, d :: t => if c = d then afterPrefix p t else none

/-! ### Strings -/

def hexValue (c : CodePoint) : Option ℕ :=
  if 0x30 ≤ c.val ∧ c.val ≤ 0x39 then some (c.val - 0x30)
  else if 0x61 ≤ c.val ∧ c.val ≤ 0x66 then some (c.val - 0x57)
  else if 0x41 ≤ c.val ∧ c.val ≤ 0x46 then some (c.val - 0x37)
  else none

def hex4 (a b c d : CodePoint) : Option ℕ := do
  let a ← hexValue a
  let b ← hexValue b
  let c ← hexValue c
  let d ← hexValue d
  return ((a * 16 + b) * 16 + c) * 16 + d

/-- The one-letter escapes. -/
def simpleEscape (c : CodePoint) : Option CodePoint :=
  if c.val = 0x22 ∨ c.val = 0x5C ∨ c.val = 0x2F then some c
  else if c = ofChar 'b' then some 0x8
  else if c = ofChar 'f' then some 0xC
  else if c = ofChar 'n' then some 0xA
  else if c = ofChar 'r' then some 0xD
  else if c = ofChar 't' then some 0x9
  else none

def ofCodeUnit (n : ℕ) : CodePoint := Fin.ofNat 0x110000 n

/-- The code point of a high and a low surrogate. -/
def joinSurrogates (high low : ℕ) : ℕ := 0x10000 + (high - 0xD800) * 0x400 + (low - 0xDC00)

def consChar (c : CodePoint) (r : Except PyError (Text × Text)) : Except PyError (Text × Text) :=
  r.map fun (s, rest) => (c :: s, rest)

/-- The contents of a string after its opening quote, and what follows it. -/
def scanString : Text → Except PyError (Text × Text)
  | [] => .error .jsonDecodeError
  | c :: rest =>
    if c.val = 0x22 then .ok ([], rest)
    else if c.val = 0x5C then
      match rest with
      | [] => .error .jsonDecodeError
      | e :: rest =>
        if e = ofChar 'u' then
          match rest with
          | h₁ :: h₂ :: h₃ :: h₄ :: rest =>
            match hex4 h₁ h₂ h₃ h₄ with
            | none => .error .jsonDecodeError
            | some high =>
              match rest with
              | b :: u :: l₁ :: l₂ :: l₃ :: l₄ :: tail =>
                if 0xD800 ≤ high ∧ high ≤ 0xDBFF ∧ b.val = 0x5C ∧ u = ofChar 'u' then
                  match hex4 l₁ l₂ l₃ l₄ with
                  | none => .error .jsonDecodeError
                  | some low =>
                    if 0xDC00 ≤ low ∧ low ≤ 0xDFFF then
                      consChar (ofCodeUnit (joinSurrogates high low)) (scanString tail)
                    else consChar (ofCodeUnit high)
                      (scanString (b :: u :: l₁ :: l₂ :: l₃ :: l₄ :: tail))
                else consChar (ofCodeUnit high)
                  (scanString (b :: u :: l₁ :: l₂ :: l₃ :: l₄ :: tail))
              | rest => consChar (ofCodeUnit high) (scanString rest)
          | _ => .error .jsonDecodeError
        else match simpleEscape e with
          | none => .error .jsonDecodeError
          | some d => consChar d (scanString rest)
    else if c.val < 0x20 then .error .jsonDecodeError
    else consChar c (scanString rest)

/-! ### Numbers -/

def scanSign : Text → Bool × Text
  | [] => (false, [])
  | c :: rest => if c = ofChar '-' then (true, rest) else (false, c :: rest)

def scanWhole : Text → Option (Text × Text)
  | [] => none
  | c :: rest =>
    if c = ofChar '0' then some ([c], rest)
    else if isDigit c then some ((c :: rest).takeWhile isDigit, (c :: rest).dropWhile isDigit)
    else none

/-- A fraction, only when a digit follows the point. -/
def scanFraction : Text → Option Text × Text
  | [] => (none, [])
  | c :: rest =>
    if c = ofChar '.' ∧ rest.takeWhile isDigit ≠ [] then
      (some (rest.takeWhile isDigit), rest.dropWhile isDigit)
    else (none, c :: rest)

def scanExponentSign : Text → Option Bool × Text
  | [] => (none, [])
  | c :: rest =>
    if c = ofChar '-' then (some true, rest)
    else if c = ofChar '+' then (some false, rest)
    else (none, c :: rest)

def scanExponent : Text → Option Exponent × Text
  | [] => (none, [])
  | c :: rest =>
    let (sign, digits) := scanExponentSign rest
    if (c = ofChar 'e' ∨ c = ofChar 'E') ∧ digits.takeWhile isDigit ≠ [] then
      (some ⟨c == ofChar 'E', sign, digits.takeWhile isDigit⟩, digits.dropWhile isDigit)
    else (none, c :: rest)

def scanNumeral (t : Text) : Option (Numeral × Text) :=
  let (negative, t) := scanSign t
  match scanWhole t with
  | none => none
  | some (whole, t) =>
    let (fraction, t) := scanFraction t
    let (exponent, t) := scanExponent t
    some (⟨negative, whole, fraction, exponent⟩, t)

/-- The value of a numeral: a float, or an integer within the digit limit. -/
def numeralValue [PyFloat F] (m : Numeral) : Except PyError (Json F) :=
  if m.isFloat then .ok (.float (PyFloat.ofNumeral m))
  else if m.whole.length ≤ intMaxStrDigits then
    .ok (.int (if m.negative then -(ofDigits m.whole : ℤ) else ofDigits m.whole))
  else .error (.valueError (lit "Exceeds the limit (4300 digits) for integer string conversion"))

/-! ### Values -/

/-- `d[key] = value`. -/
def setField (key : Text) (v : Json F) : List (Text × Json F) → List (Text × Json F)
  | [] => [(key, v)]
  | f :: rest => if f.1 = key then (key, v) :: rest else f :: setField key v rest

/-- The constants, the first spelled-out alternatives of the scanner. -/
def constants : List (Text × Json F) :=
  [(lit "null", .null), (lit "true", .bool true), (lit "false", .bool false),
    (lit "NaN", .float .nan), (lit "Infinity", .float (.infinity false)),
    (lit "-Infinity", .float (.infinity true))]

def scanConstant : List (Text × Json F) → Text → Option (Json F × Text)
  | [], _ => none
  | (name, v) :: rest, t =>
    match afterPrefix name t with
    | some t => some (v, t)
    | none => scanConstant rest t

mutual
def scanValue [PyFloat F] : ℕ → Text → Except PyError (Json F × Text)
  | 0, _ => .error .jsonDecodeError
  | _ + 1, [] => .error .jsonDecodeError
  | n + 1, c :: rest =>
    if c.val = 0x22 then (scanString rest).map fun (s, t) => (.str s, t)
    else if c = ofChar '{' then scanObject n (skipWs rest)
    else if c = ofChar '[' then scanArray n (skipWs rest)
    else match scanConstant constants (c :: rest) with
      | some r => .ok r
      | none => match scanNumeral (c :: rest) with
        | some (m, t) => (numeralValue m).map fun v => (v, t)
        | none => .error .jsonDecodeError

def scanObject [PyFloat F] : ℕ → Text → Except PyError (Json F × Text)
  | 0, _ => .error .jsonDecodeError
  | _ + 1, [] => .error .jsonDecodeError
  | n + 1, c :: rest => if c = ofChar '}' then .ok (.obj [], rest) else scanFields n [] (c :: rest)

/-- The remaining members of an object, after those already read. -/
def scanFields [PyFloat F] :
    ℕ → List (Text × Json F) → Text → Except PyError (Json F × Text)
  | 0, _, _ => .error .jsonDecodeError
  | _ + 1, _, [] => .error .jsonDecodeError
  | n + 1, fs, c :: rest =>
    if c.val ≠ 0x22 then .error .jsonDecodeError
    else do
      let (key, t) ← scanString rest
      match skipWs t with
      | [] => .error .jsonDecodeError
      | c :: t =>
        if c ≠ ofChar ':' then .error .jsonDecodeError
        else do
          let (v, t) ← scanValue n (skipWs t)
          match skipWs t with
          | [] => .error .jsonDecodeError
          | c :: t =>
            if c = ofChar '}' then .ok (.obj (setField key v fs), t)
            else if c = ofChar ',' then scanFields n (setField key v fs) (skipWs t)
            else .error .jsonDecodeError

def scanArray [PyFloat F] : ℕ → Text → Except PyError (Json F × Text)
  | 0, _ => .error .jsonDecodeError
  | _ + 1, [] => .error .jsonDecodeError
  | n + 1, c :: rest => if c = ofChar ']' then .ok (.arr [], rest) else scanItems n [] (c :: rest)

def scanItems [PyFloat F] : ℕ → List (Json F) → Text → Except PyError (Json F × Text)
  | 0, _, _ => .error .jsonDecodeError
  | n + 1, xs, t => do
    let (v, t) ← scanValue n t
    match skipWs t with
    | [] => .error .jsonDecodeError
    | c :: t =>
      if c = ofChar ']' then .ok (.arr (xs ++ [v]), t)
      else if c = ofChar ',' then scanItems n (xs ++ [v]) (skipWs t)
      else .error .jsonDecodeError
end

/-- `json.loads(text)`. -/
def loads [PyFloat F] (t : Text) : Except PyError (Json F) :=
  if t.head? = some 0xFEFF then .error .jsonDecodeError
  else do
    let (v, rest) ← scanValue (3 * t.length + 3) (skipWs t)
    if (skipWs rest).isEmpty then .ok v else .error .jsonDecodeError

end SentinelGRC.Python
