import FlightRecorder.Text.Pieces
import FlightRecorder.Wire.Bytes

/-!
# Files and directories

The tree of files that a download writes to, as a list of places and what is there. A path is text:
names with slashes between them, `.` for the same directory and `..` for the one above. It is read
from the working directory, or from the root of the tree if it begins with a slash; the directory
above the root is the root.

The tree has plain files and directories only. There are no permissions and no links, and nobody
else changes it: a path that names no directory and whose directories are there can always be
created, a file that was created can always be written and removed, and every file is reached from
one place.

* `Storage.get?` — the view: what is at a place
* `Storage.locate` — the place of the file that a path names, or why there can be none
* `Storage.create`, `Storage.write`, `Storage.remove` — the operations; each changes one place
-/

namespace FlightRecorder

/-- A place in the tree: the names on the way from the root. -/
abbrev Place := List String

/-- What is at a place. -/
inductive Entry
  | directory
  | file (content : Bytes)
  deriving DecidableEq, Repr

/-- Why a path names no file. -/
inductive StorageFault
  | notFound
  | isDirectory
  | notDirectory
  deriving DecidableEq, Repr

/-- The sentence that reports a fault. -/
def StorageFault.message : StorageFault → String
  | .notFound => "No such file or directory (os error 2)"
  | .isDirectory => "Is a directory (os error 21)"
  | .notDirectory => "Not a directory (os error 20)"

/-- The tree: every place but the root, with what is there. -/
structure Storage where
  entries : List (Place × Entry)
  /-- Where a path begins that does not begin with a slash. -/
  workingDirectory : Place
  deriving DecidableEq, Repr

namespace Storage

/-- A tree without files, seen from its root. -/
def empty : Storage := { entries := [], workingDirectory := [] }

/-! ## Places -/

/-- What is at a place; the root is always a directory. -/
def get? (s : Storage) (place : Place) : Option Entry :=
  if place = [] then some .directory else s.entries.lookup place

/-- Puts something at a place. -/
def put (s : Storage) (place : Place) (entry : Entry) : Storage :=
  { s with entries := (place, entry) :: s.entries.filter (·.1 ≠ place) }

/-- Leaves nothing at a place. -/
def erase (s : Storage) (place : Place) : Storage :=
  { s with entries := s.entries.filter (·.1 ≠ place) }

/-! ## Paths -/

/-- The directory that a walk through these names ends in. -/
def walk (s : Storage) (start : Place) : List String → Except StorageFault Place
  | [] => .ok start
  | name :: names =>
    if name = "" ∨ name = "." then s.walk start names
    else if name = ".." then s.walk start.dropLast names
    else
      match s.get? (start ++ [name]) with
      | some .directory => s.walk (start ++ [name]) names
      | some (.file _) => .error .notDirectory
      | none => .error .notFound

/-- The directory that a path begins at. -/
def origin (s : Storage) (path : String) : Place :=
  if path.startsWith "/" then [] else s.workingDirectory

/-- The names of a path, without the empty ones at its end. -/
def pathNames (path : String) : List String :=
  ((namesOf path).reverse.dropWhile (· = "")).reverse

/-- The place of the file that a path names, whether there is one or not. -/
def locate (s : Storage) (path : String) : Except StorageFault Place :=
  if path = "" then .error .notFound
  else
    match (pathNames path).getLast? with
    | none => .error .isDirectory
    | some last =>
      if last = "." ∨ last = ".." then
        match s.walk (s.origin path) (pathNames path) with
        | .error fault => .error fault
        | .ok _ => .error .isDirectory
      else
        match s.walk (s.origin path) (pathNames path).dropLast with
        | .error fault => .error fault
        | .ok directory =>
          if path.endsWith "/" then .error .isDirectory
          else
            match s.get? (directory ++ [last]) with
            | some .directory => .error .isDirectory
            | _ => .ok (directory ++ [last])

/-! ## Operations -/

/-- Creates the file that a path names, or empties it if it is there. -/
def create (s : Storage) (path : String) : Except StorageFault (Place × Storage) :=
  match s.locate path with
  | .error fault => .error fault
  | .ok place => .ok (place, s.put place (.file []))

/-- Gives the file at a place its content. -/
def write (s : Storage) (place : Place) (content : Bytes) : Storage := s.put place (.file content)

/-- Removes the file that a path names, if there is one. -/
def remove (s : Storage) (path : String) : Storage :=
  match s.locate path with
  | .error _ => s
  | .ok place => s.erase place

/-- Creates the file that a path names unless it is there; its content is kept. -/
def openLog (s : Storage) (path : String) : Except StorageFault Storage :=
  match s.locate path with
  | .error fault => .error fault
  | .ok place =>
    match s.get? place with
    | some _ => .ok s
    | none => .ok (s.put place (.file []))

/-- Creates the directories on the way through these names that are not there. -/
def createDirectories (s : Storage) (start : Place) : List String → Except StorageFault Storage
  | [] => .ok s
  | name :: names =>
    if name = "" ∨ name = "." then s.createDirectories start names
    else if name = ".." then s.createDirectories start.dropLast names
    else
      match s.get? (start ++ [name]) with
      | some .directory => s.createDirectories (start ++ [name]) names
      | some (.file _) => .error .notDirectory
      | none =>
        (s.put (start ++ [name]) .directory).createDirectories (start ++ [name]) names

/-! ## The view -/

@[simp]
theorem get?_root (s : Storage) : s.get? [] = some .directory := rfl

/-- What is put at a place is there. -/
theorem get?_put_self (s : Storage) {place : Place} (entry : Entry) (h : place ≠ []) :
    (s.put place entry).get? place = some entry := by
  simp [get?, put, h]

theorem lookup_filter_ne (entries : List (Place × Entry)) {place other : Place}
    (h : other ≠ place) : (entries.filter (·.1 ≠ place)).lookup other = entries.lookup other := by
  induction entries with
  | nil => rfl
  | cons entry entries ih =>
    obtain ⟨at_, what⟩ := entry
    by_cases hp : at_ = place
    · subst hp
      have hne : (other == at_) = false := by simpa using h
      simpa [List.lookup_cons, hne] using ih
    · by_cases ho : other = at_
      · subst ho
        simp [hp]
      · have hne : (other == at_) = false := by simpa using ho
        simpa [List.lookup_cons, hp, hne] using ih

/-- Putting something at a place changes no other place. -/
theorem get?_put_other (s : Storage) {place other : Place} (entry : Entry) (h : other ≠ place) :
    (s.put place entry).get? other = s.get? other := by
  have hne : (other == place) = false := by simpa using h
  simp only [get?, put, List.lookup_cons, hne]
  rw [lookup_filter_ne _ h]

/-- What was at a place does not matter once something else is put there. -/
theorem put_put (s : Storage) (place : Place) (entry entry' : Entry) :
    (s.put place entry).put place entry' = s.put place entry' := by
  simp [put]

/-- What was put at a place does not matter once the place is erased. -/
theorem erase_put (s : Storage) (place : Place) (entry : Entry) :
    (s.put place entry).erase place = s.erase place := by
  simp [put, erase]

/-- Nothing is left at an erased place. -/
theorem get?_erase_self (s : Storage) {place : Place} (h : place ≠ []) :
    (s.erase place).get? place = none := by
  simp only [get?, erase, if_neg h]
  induction s.entries with
  | nil => rfl
  | cons entry entries ih =>
    obtain ⟨at_, what⟩ := entry
    by_cases hp : at_ = place
    · simpa [hp] using ih
    · have hne : (place == at_) = false := by simpa using fun he : place = at_ => hp he.symm
      simpa [List.lookup_cons, hp, hne] using ih

/-- Erasing a place changes no other place. -/
theorem get?_erase_other (s : Storage) {place other : Place} (h : other ≠ place) :
    (s.erase place).get? other = s.get? other := by
  simp only [get?, erase]
  rw [lookup_filter_ne _ h]

end Storage

end FlightRecorder
