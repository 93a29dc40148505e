import SentinelGRC.Python.JsonSort

/-! Operations of `dict` and the `==` of values, on what `json` reads. Keys
are distinct in a value that was read, so removing a key leaves every other
lookup and the sorted rendering of the rest as they were. -/

namespace SentinelGRC.Python

variable {F : Type}

/-- A `dict` with text keys. -/
abbrev Fields (F : Type) := List (Text × Json F)

namespace Json

/-- `d.get(key)`. -/
def get (fs : Fields F) (key : Text) : Json F := (field key fs).getD .null

/-- What `d.pop(key, None)` leaves. -/
def pop (fs : Fields F) (key : Text) : Fields F := fs.filter fun f => f.1 ≠ key

/-- The fields of an object whose keys `sort_keys` has sorted at every depth. -/
def sortDict (fs : Fields F) : Fields F := (sortFields fs).insertionSort fieldLe

theorem sortKeys_obj (fs : Fields F) : (Json.obj fs).sortKeys = .obj (sortDict fs) := by
  rw [sortKeys, sortDict]

theorem get_sortDict {fs : Fields F} (hd : (fs.map Prod.fst).Nodup) (key : Text) :
    get (sortDict fs) key = (get fs key).sortKeys := by
  rw [get, get, sortDict, field_sortKeys hd]
  cases field key fs <;> rfl

theorem field_pop {fs : Fields F} {key other : Text} (h : key ≠ other) :
    field key (pop fs other) = field key fs := by
  induction fs with
  | nil => rfl
  | cons f fs ih =>
    rcases f with ⟨k, v⟩
    by_cases hk : k = other
    · subst hk
      rw [pop, List.filter_cons_of_neg (by simp), field, if_neg (Ne.symm h)]
      exact ih
    · rw [pop, List.filter_cons_of_pos (by simpa using hk), field, field]
      split_ifs
      · rfl
      · exact ih

theorem get_pop {fs : Fields F} {key other : Text} (h : key ≠ other) :
    get (pop fs other) key = get fs key := by
  rw [get, get, field_pop h]

theorem sortFields_pop (fs : Fields F) (key : Text) :
    sortFields (pop fs key) = pop (sortFields fs) key := by
  rw [sortFields_eq_map, sortFields_eq_map, pop, pop, List.filter_map]
  congr 1
  refine List.filter_congr fun f _ => ?_
  simp only [Function.comp, sortField_fst]

/-- Removing a key from the sorted copy and from the original leaves the same rest. -/
theorem sortKeys_pop {fs : Fields F} (hd : (fs.map Prod.fst).Nodup) (key : Text) :
    (Json.obj (pop (sortDict fs) key)).sortKeys = (Json.obj (pop fs key)).sortKeys := by
  have hperm : (pop (sortDict fs) key).Perm (sortFields (pop fs key)) := by
    rw [sortFields_pop]
    exact (List.perm_insertionSort fieldLe _).filter _
  have hkeys : ((pop (sortDict fs) key).map Prod.fst).Nodup := by
    refine List.Nodup.sublist (List.filter_sublist.map _) ?_
    exact (keys_sortKeys fs).nodup_iff.mpr hd
  rw [sortKeys_perm hperm hkeys, sortKeys, sortFields_sortFields, sortKeys]

/-! ### Equality -/

/-- The number that a value is to `==`; a `bool` is an integer. -/
def number? : Json F → Option (ℤ ⊕ PyNum F)
  | .bool b => some (.inl (if b then 1 else 0))
  | .int n => some (.inl n)
  | .float x => some (.inr x)
  | _ => none

def numEq [PyFloat F] : ℤ ⊕ PyNum F → ℤ ⊕ PyNum F → Bool
  | .inl m, .inl n => m == n
  | .inl m, .inr (.finite x) => PyFloat.beqInt x m
  | .inr (.finite x), .inl n => PyFloat.beqInt x n
  | .inr (.finite x), .inr (.finite y) => PyFloat.beq x y
  | .inr (.infinity a), .inr (.infinity b) => a == b
  | _, _ => false

def leafEq [PyFloat F] (v w : Json F) : Bool :=
  match v.number?, w.number? with
  | some m, some n => numEq m n
  | _, _ => false

mutual
/-- `v == w`. -/
def pyEq [PyFloat F] : Json F → Json F → Bool
  | .null => fun w => match w with | .null => true | _ => false
  | .str s => fun w => match w with | .str t => s == t | _ => false
  | .arr xs => fun w => match w with | .arr ys => pyEqItems xs ys | _ => false
  | .obj fs => fun w => match w with | .obj gs => fs.length == gs.length && pyEqFields fs gs | _ => false
  | .bool b => leafEq (.bool b)
  | .int n => leafEq (.int n)
  | .float x => leafEq (.float x)
termination_by structural v => v

def pyEqItems [PyFloat F] : List (Json F) → List (Json F) → Bool
  | [] => fun ys => ys.isEmpty
  | x :: xs => fun ys => match ys with | y :: ys => x.pyEq y && pyEqItems xs ys | [] => false
termination_by structural v => v

def pyEqFields [PyFloat F] : Fields F → Fields F → Bool
  | [] => fun _ => true
  | f :: fs => fun gs => pyEqField f gs && pyEqFields fs gs
termination_by structural v => v

def pyEqField [PyFloat F] : Text × Json F → Fields F → Bool
  | (k, v) => fun gs => match field k gs with | some w => v.pyEq w | none => false
termination_by structural v => v
end

theorem pyEq_str [PyFloat F] {v : Json F} {t : Text} : v.pyEq (.str t) = true ↔ v = .str t := by
  cases v <;> simp [pyEq, leafEq, number?]

end Json

end SentinelGRC.Python
