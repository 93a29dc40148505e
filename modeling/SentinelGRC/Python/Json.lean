import SentinelGRC.Python.Decimal

/-! JSON values as Python's `json` module holds them, and `json.dumps`. An
object is an association list in insertion order; numbers are unbounded integers
or floats. Finite floats are a parameter: of them only `repr` and the conversion
of a literal are used, and that the second undoes the first. Modelled options
of `dumps` are `sort_keys`, `ensure_ascii` and the two separator styles. -/

namespace SentinelGRC.Python

/-! ### Numerals -/

/-- The exponent of a numeral, with its letter case and optional sign kept. -/
structure Exponent where
  upper : Bool
  sign : Option Bool
  digits : Text
  deriving DecidableEq

/-- A JSON number as written. -/
structure Numeral where
  negative : Bool
  whole : Text
  fraction : Option Text
  exponent : Option Exponent
  deriving DecidableEq

def Digits (t : Text) : Prop := t ≠ [] ∧ ∀ c ∈ t, isDigit c = true

/-- The number grammar: no empty digit runs and no leading zero. -/
structure Numeral.Valid (m : Numeral) : Prop where
  whole : Digits m.whole
  leading : m.whole.length ≠ 1 → m.whole.head? ≠ some (ofChar '0')
  fraction : ∀ f, m.fraction = some f → Digits f
  exponent : ∀ e, m.exponent = some e → Digits e.digits

/-- A numeral with a fraction or an exponent reads as a float. -/
def Numeral.isFloat (m : Numeral) : Bool := m.fraction.isSome || m.exponent.isSome

def exponentSign : Option Bool → Text
  | none => []
  | some true => [ofChar '-']
  | some false => [ofChar '+']

def Exponent.text (e : Exponent) : Text :=
  ofChar (if e.upper then 'E' else 'e') :: (exponentSign e.sign ++ e.digits)

def fractionText : Option Text → Text
  | none => []
  | some f => ofChar '.' :: f

def exponentText : Option Exponent → Text
  | none => []
  | some e => e.text

def Numeral.text (m : Numeral) : Text :=
  (if m.negative then [ofChar '-'] else []) ++
    (m.whole ++ (fractionText m.fraction ++ exponentText m.exponent))

/-- The float values that `json` reads and prints. -/
inductive PyNum (F : Type)
  | finite (x : F)
  | nan
  | infinity (negative : Bool)

/-- Finite Python floats: the shortest decimal `repr` prints, the float a
literal denotes, and the comparisons `==` makes. -/
class PyFloat (F : Type) where
  repr : F → Numeral
  ofNumeral : Numeral → PyNum F
  beq : F → F → Bool
  beqInt : F → ℤ → Bool
  repr_valid : ∀ x, (repr x).Valid
  repr_isFloat : ∀ x, (repr x).isFloat = true
  ofNumeral_repr : ∀ x, ofNumeral (repr x) = .finite x

/-- Values that hold no finite float. -/
instance : PyFloat Empty where
  repr := Empty.elim
  ofNumeral _ := .nan
  beq := Empty.elim
  beqInt := Empty.elim
  repr_valid x := x.elim
  repr_isFloat x := x.elim
  ofNumeral_repr x := x.elim

/-- The floats `0.0` to `9.0`. -/
abbrev Tick := Fin 10

instance neZero_ticks : NeZero 10 := ⟨by decide⟩

def Tick.numeral (n : Tick) : Numeral := ⟨false, [ofChar n.val.digitChar], some (lit "0"), none⟩

def Tick.ofNumeral? (m : Numeral) : Option Tick := (List.finRange 10).find? fun n => n.numeral = m

theorem Tick.ofNumeral?_numeral : ∀ n : Tick, ofNumeral? n.numeral = some n := by decide

instance : PyFloat Tick where
  repr := Tick.numeral
  ofNumeral m := match Tick.ofNumeral? m with
    | some n => .finite n
    | none => .nan
  beq m n := m == n
  beqInt m n := (m.val : ℤ) == n
  repr_valid n :=
    have hdigit : ∀ n : Tick, isDigit (ofChar n.val.digitChar) = true := by decide
    { whole := ⟨List.cons_ne_nil _ _, fun _ hc => List.mem_singleton.mp hc ▸ hdigit n⟩
      leading := fun h => absurd rfl h
      fraction := by
        rintro f ⟨⟩
        exact ⟨by decide, List.all_eq_true.mp (by decide)⟩
      exponent := by
        rintro e ⟨⟩ }
  repr_isFloat _ := rfl
  ofNumeral_repr n := by rw [Tick.ofNumeral?_numeral]

/-! ### Values -/

inductive Json (F : Type)
  | null
  | bool (b : Bool)
  | int (n : ℤ)
  | float (x : PyNum F)
  | str (s : Text)
  | arr (items : List (Json F))
  | obj (fields : List (Text × Json F))

variable {F : Type}

/-- `d.get(key)` on an association list. -/
def field (key : Text) : List (Text × Json F) → Option (Json F)
  | [] => none
  | (k, v) :: rest => if k = key then some v else field key rest

namespace Json

mutual
/-- A check made at a value and at everything inside it. -/
def all (p : Json F → Bool) : Json F → Bool
  | .arr xs => p (.arr xs) && allItems p xs
  | .obj fs => p (.obj fs) && allFields p fs
  | .null => p .null
  | .bool b => p (.bool b)
  | .int n => p (.int n)
  | .float x => p (.float x)
  | .str s => p (.str s)
termination_by structural v => v

def allItems (p : Json F → Bool) : List (Json F) → Bool
  | [] => true
  | x :: rest => x.all p && allItems p rest
termination_by structural v => v

def allFields (p : Json F → Bool) : List (Text × Json F) → Bool
  | [] => true
  | f :: rest => allField p f && allFields p rest
termination_by structural v => v

def allField (p : Json F → Bool) : Text × Json F → Bool
  | (_, v) => v.all p
termination_by structural v => v
end

mutual
theorem all_and (p q : Json F → Bool) : ∀ v : Json F,
    v.all (fun n => p n && q n) = (v.all p && v.all q)
  | .null | .bool _ | .int _ | .float _ | .str _ => rfl
  | .arr xs => by
    simp only [all, allItems_and p q xs, Bool.and_assoc, Bool.and_left_comm, Bool.and_comm]
  | .obj fs => by
    simp only [all, allFields_and p q fs, Bool.and_assoc, Bool.and_left_comm, Bool.and_comm]

theorem allItems_and (p q : Json F → Bool) : ∀ xs : List (Json F),
    allItems (fun n => p n && q n) xs = (allItems p xs && allItems q xs)
  | [] => rfl
  | x :: xs => by
    simp only [allItems, all_and p q x, allItems_and p q xs, Bool.and_assoc, Bool.and_left_comm]

theorem allFields_and (p q : Json F → Bool) : ∀ fs : List (Text × Json F),
    allFields (fun n => p n && q n) fs = (allFields p fs && allFields q fs)
  | [] => rfl
  | (_, v) :: fs => by
    simp only [allFields, allField, all_and p q v, allFields_and p q fs, Bool.and_assoc,
      Bool.and_left_comm]
end

theorem all_imp {p q : Json F → Bool} (h : ∀ n, p n = true → q n = true) {v : Json F}
    (hv : v.all p = true) : v.all q = true := by
  have hand : (fun n => p n && q n) = p := by
    funext n
    cases hp : p n with
    | false => rfl
    | true => rw [h n hp, Bool.and_self]
  have hall := all_and p q v
  rw [hand, hv, Bool.true_and] at hall
  exact hall.symm

/-- Code-point order of `str`, the order of `sort_keys`. -/
def keyLe : Text → Text → Bool
  | [], _ => true
  | _ :: _, [] => false
  | a :: s, b :: t => a.val < b.val || (a == b && keyLe s t)

theorem keyLe_refl : ∀ t : Text, keyLe t t = true
  | [] => rfl
  | a :: t => by simp [keyLe, keyLe_refl t]

theorem keyLe_total : ∀ s t : Text, keyLe s t = true ∨ keyLe t s = true
  | [], _ => .inl rfl
  | _ :: _, [] => .inr rfl
  | a :: s, b :: t => by
    rcases Nat.lt_trichotomy a.val b.val with h | h | h
    · exact .inl (by simp [keyLe, h])
    · obtain rfl := Fin.ext h
      rcases keyLe_total s t with h | h
      · exact .inl (by simp [keyLe, h])
      · exact .inr (by simp [keyLe, h])
    · exact .inr (by simp [keyLe, h])

theorem keyLe_trans : ∀ {s t u : Text}, keyLe s t = true → keyLe t u = true → keyLe s u = true
  | [], _, _, _, _ => rfl
  | _ :: _, [], _, h, _ => by simp [keyLe] at h
  | _ :: _, _ :: _, [], _, h => by simp [keyLe] at h
  | a :: s, b :: t, c :: u, h₁, h₂ => by
    simp only [keyLe, Bool.or_eq_true, Bool.and_eq_true, decide_eq_true_eq, beq_iff_eq] at h₁ h₂ ⊢
    rcases h₁ with h₁ | ⟨rfl, h₁⟩
    · rcases h₂ with h₂ | ⟨rfl, -⟩
      · exact .inl (by omega)
      · exact .inl h₁
    · rcases h₂ with h₂ | ⟨rfl, h₂⟩
      · exact .inl h₂
      · exact .inr ⟨rfl, keyLe_trans h₁ h₂⟩

theorem keyLe_antisymm : ∀ {s t : Text}, keyLe s t = true → keyLe t s = true → s = t
  | [], [], _, _ => rfl
  | [], _ :: _, _, h => by simp [keyLe] at h
  | _ :: _, [], h, _ => by simp [keyLe] at h
  | a :: s, b :: t, h₁, h₂ => by
    simp only [keyLe, Bool.or_eq_true, Bool.and_eq_true, decide_eq_true_eq, beq_iff_eq] at h₁ h₂
    rcases h₁ with h₁ | ⟨rfl, h₁⟩
    · rcases h₂ with h₂ | ⟨rfl, -⟩ <;> omega
    · rcases h₂ with h₂ | ⟨-, h₂⟩
      · omega
      · rw [keyLe_antisymm h₁ h₂]

/-- The order of two object fields under `sort_keys`. -/
def fieldLe (f g : Text × Json F) : Prop := keyLe f.1 g.1 = true

instance : DecidableRel (fieldLe (F := F)) := fun f g => inferInstanceAs (Decidable (keyLe f.1 g.1 = true))

mutual
/-- Every object's fields in key order. -/
def sortKeys : Json F → Json F
  | .arr xs => .arr (sortItems xs)
  | .obj fs => .obj ((sortFields fs).insertionSort fieldLe)
  | .null => .null
  | .bool b => .bool b
  | .int n => .int n
  | .float x => .float x
  | .str s => .str s
termination_by structural v => v

def sortItems : List (Json F) → List (Json F)
  | [] => []
  | x :: rest => x.sortKeys :: sortItems rest
termination_by structural v => v

def sortFields : List (Text × Json F) → List (Text × Json F)
  | [] => []
  | f :: rest => sortField f :: sortFields rest
termination_by structural v => v

def sortField : Text × Json F → Text × Json F
  | (k, v) => (k, v.sortKeys)
termination_by structural v => v
end

/-! ### Rendering -/

/-- `ensure_ascii` and whether separators are followed by a space. -/
structure Style where
  ensureAscii : Bool
  spaced : Bool

/-- `separators=(",", ":")`, ASCII only. -/
def compact : Style := ⟨true, false⟩

def Style.itemSep (st : Style) : Text := if st.spaced then lit ", " else lit ","

def Style.keySep (st : Style) : Text := if st.spaced then lit ": " else lit ":"

/-- `\uXXXX`. -/
def unicodeEscape (n : ℕ) : Text :=
  [ofChar '\\', ofChar 'u', ofChar (n / 0x1000 % 16).digitChar, ofChar (n / 0x100 % 16).digitChar,
    ofChar (n / 0x10 % 16).digitChar, ofChar (n % 16).digitChar]

def escapeChar (ascii : Bool) (c : CodePoint) : Text :=
  if c.val = 0x22 then lit "\\\""
  else if c.val = 0x5C then lit "\\\\"
  else if c.val = 0xA then lit "\\n"
  else if c.val = 0xD then lit "\\r"
  else if c.val = 0x9 then lit "\\t"
  else if c.val = 0xC then lit "\\f"
  else if c.val = 0x8 then lit "\\b"
  else if c.val < 0x20 ∨ (ascii ∧ 0x7F ≤ c.val) then
    if c.val < 0x10000 then unicodeEscape c.val
    else unicodeEscape (0xD800 + (c.val - 0x10000) / 0x400) ++
      unicodeEscape (0xDC00 + (c.val - 0x10000) % 0x400)
  else [c]

def quote (st : Style) (s : Text) : Text :=
  ofChar '"' :: (s.flatMap (escapeChar st.ensureAscii) ++ [ofChar '"'])

def renderNum [PyFloat F] : PyNum F → Text
  | .finite x => (PyFloat.repr x).text
  | .nan => lit "NaN"
  | .infinity negative => if negative then lit "-Infinity" else lit "Infinity"

mutual
def render [PyFloat F] (st : Style) : Json F → Text
  | .null => lit "null"
  | .bool b => if b then lit "true" else lit "false"
  | .int n => intText n
  | .float x => renderNum x
  | .str s => quote st s
  | .arr xs => ofChar '[' :: (renderItems st xs ++ [ofChar ']'])
  | .obj fs => ofChar '{' :: (renderFields st fs ++ [ofChar '}'])
termination_by structural v => v

def renderItems [PyFloat F] (st : Style) : List (Json F) → Text
  | [] => []
  | x :: rest => x.render st ++ (if rest.isEmpty then [] else st.itemSep) ++ renderItems st rest
termination_by structural v => v

def renderFields [PyFloat F] (st : Style) : List (Text × Json F) → Text
  | [] => []
  | f :: rest => renderField st f ++ (if rest.isEmpty then [] else st.itemSep) ++ renderFields st rest
termination_by structural v => v

def renderField [PyFloat F] (st : Style) : Text × Json F → Text
  | (k, v) => quote st k ++ st.keySep ++ v.render st
termination_by structural v => v
end

/-- An integer that `str` agrees to print. -/
def printableNode : Json F → Bool
  | .int n => (natText n.natAbs).length ≤ intMaxStrDigits
  | _ => true

def Printable (v : Json F) : Prop := v.all printableNode = true

instance (v : Json F) : Decidable (Printable v) := inferInstanceAs (Decidable (_ = true))

/-- `json.dumps(value, sort_keys=True)` in a style. -/
def dumps [PyFloat F] (st : Style) (v : Json F) : Except PyError Text :=
  if Printable v then .ok (v.sortKeys.render st)
  else .error (.valueError (lit "Exceeds the limit (4300 digits) for integer string conversion"))

end Json

end SentinelGRC.Python
