import Mathlib.Data.Nat.Notation
import Mathlib.Logic.Function.Basic
import Mathlib.Tactic.SplitIfs

/-!
Files that are written once. A file is created empty and then grows byte by byte, and a
crash keeps what was written until then; where the file is there already, nothing is
written at all.
-/

namespace SentinelGRC.Store

variable {κ β : Type} [DecidableEq κ]

/-- The files there are, with their contents. -/
abbrev Files (κ β : Type) := κ → Option (List β)

inductive FileOp (β : Type)
  /-- `open(path, "xb")`. -/
  | create
  | append (b : β)

/-- The operations on one file, up to the first that fails. -/
def perform (path : κ) : Files κ β → List (FileOp β) → Files κ β
  | files, [] => files
  | files, .create :: rest =>
    match files path with
    | some _ => files
    | none => perform path (Function.update files path (some [])) rest
  | files, .append b :: rest =>
    perform path (Function.update files path ((files path).map (· ++ [b]))) rest

def creation (content : List β) : List (FileOp β) := .create :: content.map .append

def createOnly (files : Files κ β) (path : κ) (content : List β) : Files κ β :=
  perform path files (creation content)

/-- The files when the process dies after a number of operations. -/
def crashed (files : Files κ β) (path : κ) (content : List β) (n : ℕ) : Files κ β :=
  perform path files ((creation content).take n)

variable {files : Files κ β} {path : κ} {content : List β}

theorem perform_append (written : List β) (h : files path = some written) :
    perform path files (content.map .append) =
      Function.update files path (some (written ++ content)) := by
  induction content generalizing files written with
  | nil =>
    rw [List.append_nil, ← h, Function.update_eq_self]
    rfl
  | cons b rest ih =>
    change perform path (Function.update files path ((files path).map (· ++ [b]))) _ = _
    rw [ih (written ++ [b]), Function.update_idem, List.append_assoc]
    · rfl
    · rw [Function.update_self, h]
      rfl

theorem createOnly_of_some {stored : List β} (h : files path = some stored) :
    createOnly files path content = files := by
  rw [createOnly, creation, perform, h]

theorem createOnly_of_none (h : files path = none) :
    createOnly files path content = Function.update files path (some content) := by
  rw [createOnly, creation, perform, h]
  change perform path (Function.update files path (some [])) _ = _
  rw [perform_append [] (Function.update_self ..), Function.update_idem]
  rfl

theorem crashed_zero : crashed files path content 0 = files := rfl

theorem crashed_of_some {stored : List β} (h : files path = some stored) (n : ℕ) :
    crashed files path content n = files := by
  cases n with
  | zero => rfl
  | succ n => rw [crashed, creation, List.take_succ_cons, perform, h]

theorem crashed_of_none (h : files path = none) (n : ℕ) :
    crashed files path content (n + 1) = Function.update files path (some (content.take n)) := by
  rw [crashed, creation, List.take_succ_cons, perform, h, ← List.map_take]
  change perform path (Function.update files path (some [])) _ = _
  rw [perform_append [] (Function.update_self ..), Function.update_idem]
  rfl

/-- The file was complete before, or there was none and the process died before it created
the file or after its last byte. -/
def Whole (files : Files κ β) (path : κ) (content : List β) (n : ℕ) : Prop :=
  files path = some content ∨ (files path = none ∧ (n = 0 ∨ content.length < n))

/-- Writing the same content again completes the file after such a crash, and no other. -/
theorem createOnly_crashed (n : ℕ) :
    createOnly (crashed files path content n) path content path = some content ↔
      Whole files path content n := by
  unfold Whole
  cases h : files path with
  | some stored =>
    rw [crashed_of_some h, createOnly_of_some h, h]
    simp
  | none =>
    cases n with
    | zero =>
      rw [crashed_zero, createOnly_of_none h, Function.update_self]
      simp
    | succ n =>
      have hcrash : crashed files path content (n + 1) path = some (content.take n) := by
        rw [crashed_of_none h, Function.update_self]
      rw [createOnly_of_some hcrash, hcrash]
      simp only [Option.some.injEq, reduceCtorEq, Nat.add_eq_zero_iff, Nat.one_ne_zero, and_false,
        false_or, true_and, Nat.lt_succ_iff]
      constructor
      · intro htake
        have hlength := congrArg List.length htake
        rw [List.length_take] at hlength
        omega
      · exact List.take_of_length_le

end SentinelGRC.Store
