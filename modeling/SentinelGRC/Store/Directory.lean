import Mathlib.Data.List.Basic

/-!
A directory whose names others may bind anew at any moment. A name is bound to a file or to a
symbolic link. A descriptor stays with the file it was opened on, whatever its name is bound to
later; a reader that looks, opens and looks again at what it has opened reads one file.
-/

namespace SentinelGRC.Store

variable {κ ι β : Type}

/-- Where a path ends once its symbolic links are followed. -/
inductive Target (κ : Type)
  | name (k : κ)
  /-- Further down in the directory. -/
  | below
  | outside
  deriving DecidableEq

/-- What a name is bound to. -/
inductive Entry (κ ι : Type)
  /-- A regular file. -/
  | file (id : ι)
  /-- A directory, a pipe or a device. -/
  | special (id : ι)
  /-- A symbolic link, with the end of its path; a loop of links has none. -/
  | link (leads : Option (Target κ))

/-- A directory, and what its files hold. -/
structure Directory (κ ι β : Type) where
  entries : κ → Option (Entry κ ι)
  contents : ι → List β

/-- What an open descriptor stands for. -/
structure Descriptor (ι : Type) where
  id : ι
  regular : Bool

namespace Directory

variable (d : Directory κ ι β)

/-- The end of the path of a name, and the name itself when nothing is there. -/
def resolve (k : κ) : Option (Target κ) :=
  match d.entries k with
  | some (.link leads) => leads
  | _ => some (.name k)

/-- The regular file under a name, without following a link. -/
def regular? (k : κ) : Option ι :=
  match d.entries k with
  | some (.file id) => some id
  | _ => none

/-- Opens a name without following a link. -/
def open? (k : κ) : Option (Descriptor ι) :=
  match d.entries k with
  | some (.file id) => some ⟨id, true⟩
  | some (.special id) => some ⟨id, false⟩
  | _ => none

theorem regular?_eq_some {d : Directory κ ι β} {k : κ} {id : ι} :
    d.regular? k = some id ↔ d.entries k = some (.file id) := by
  unfold regular?
  split <;> simp_all

theorem open?_eq_some_regular {d : Directory κ ι β} {k : κ} {id : ι} :
    d.open? k = some ⟨id, true⟩ ↔ d.entries k = some (.file id) := by
  unfold open?
  split <;> simp_all

end Directory

end SentinelGRC.Store
