import SentinelGRC.Python.Json

/-!
The text that `str` makes of a value, and the truth of a value. What a text looks like in a
`repr` and in lower case is read from the tables of the interpreter.
-/

namespace SentinelGRC.Python

/-- What the Unicode tables of the interpreter decide of a text. -/
structure UnicodeTables where
  repr : Text → Text
  lower : Text → Text

/-- The tables on ASCII texts without quotes. -/
def asciiTables : UnicodeTables where
  repr t := lit "'" ++ t ++ lit "'"
  lower t := t.map fun c => if h : 0x41 ≤ c.val ∧ c.val ≤ 0x5A then ⟨c.val + 0x20, lower_lt h⟩ else c

/-- The `str` of the `UnicodeEncodeError` that a text with surrogates raises. -/
def encodeErrorText (t : Text) : Text :=
  let first := (t.takeWhile fun c => !isSurrogate c).length
  match (t.drop first).takeWhile isSurrogate with
  | [c] => lit "'utf-8' codec can't encode character '" ++ Json.unicodeEscape c.val ++
      lit "' in position " ++ natText first ++ lit ": surrogates not allowed"
  | run => lit "'utf-8' codec can't encode characters in position " ++ natText first ++ lit "-" ++
      natText (first + run.length - 1) ++ lit ": surrogates not allowed"

variable {F : Type}

namespace Json

def strNum [PyFloat F] : PyNum F → Text
  | .finite x => (PyFloat.repr x).text
  | .nan => lit "nan"
  | .infinity negative => if negative then lit "-inf" else lit "inf"

mutual
/-- `repr`. -/
def reprText [PyFloat F] (U : UnicodeTables) : Json F → Text
  | .null => lit "None"
  | .bool b => if b then lit "True" else lit "False"
  | .int n => intText n
  | .float x => strNum x
  | .str s => U.repr s
  | .arr xs => ofChar '[' :: (reprItems U xs ++ [ofChar ']'])
  | .obj fs => ofChar '{' :: (reprFields U fs ++ [ofChar '}'])
termination_by structural v => v

def reprItems [PyFloat F] (U : UnicodeTables) : List (Json F) → Text
  | [] => []
  | x :: rest => x.reprText U ++ (if rest.isEmpty then [] else lit ", ") ++ reprItems U rest
termination_by structural v => v

def reprFields [PyFloat F] (U : UnicodeTables) : List (Text × Json F) → Text
  | [] => []
  | f :: rest => reprField U f ++ (if rest.isEmpty then [] else lit ", ") ++ reprFields U rest
termination_by structural v => v

def reprField [PyFloat F] (U : UnicodeTables) : Text × Json F → Text
  | (k, v) => U.repr k ++ lit ": " ++ v.reprText U
termination_by structural v => v
end

/-- `str`, without its limit on integers. -/
def strText [PyFloat F] (U : UnicodeTables) : Json F → Text
  | .str s => s
  | v => v.reprText U

@[simp] theorem strText_str [PyFloat F] (U : UnicodeTables) (s : Text) :
    (Json.str s : Json F).strText U = s := rfl

/-- `str`. -/
def pyStr [PyFloat F] (U : UnicodeTables) (v : Json F) : Except PyError Text :=
  if Printable v then .ok (v.strText U)
  else .error (.valueError (lit "Exceeds the limit (4300 digits) for integer string conversion"))

theorem eq_strText_of_pyStr [PyFloat F] {U : UnicodeTables} {v : Json F} {t : Text}
    (h : v.pyStr U = .ok t) : t = v.strText U := by
  unfold pyStr at h
  split_ifs at h
  exact (Except.ok.inj h).symm

/-- `bool(value)`. -/
def truthy [PyFloat F] : Json F → Bool
  | .null => false
  | .bool b => b
  | .int n => n != 0
  | .float (.finite x) => !PyFloat.beqInt x 0
  | .float _ => true
  | .str s => !s.isEmpty
  | .arr xs => !xs.isEmpty
  | .obj fs => !fs.isEmpty

/-- `value or other`. -/
def orElse [PyFloat F] (v other : Json F) : Json F := if v.truthy then v else other

end Json

end SentinelGRC.Python
