import CloudFleet.World.File

/-!
# File trees

The files of a machine that exists only in memory. Everything that changes lies below one directory, which is also
where relative paths begin; the rest of the machine consists of the directories above it and refuses to be written.
-/

set_option autoImplicit false

namespace CloudFleet.Rehearsal

/-- A place in a tree: the names on the way from the root. -/
abbrev Place := List String

/-- What is at a place. -/
inductive Entry
  | dir
  | file (text : String) (executable : Bool)
deriving DecidableEq

/-- The files of a machine. -/
structure FileTree where
  /-- The directory of everything that changes. -/
  root : Place
  /-- What lies below that directory, by the full place. -/
  entries : List (Place × Entry) := []
deriving DecidableEq

namespace FileTree

/-! ## Refusals -/

/-- Something is not there. -/
def noSuch : SystemError := ⟨true, "No such file or directory (os error 2)"⟩

/-- A file is used as a directory. -/
def notDirectory : SystemError := ⟨false, "Not a directory (os error 20)"⟩

/-- A directory is used as a file. -/
def isDirectory : SystemError := ⟨false, "Is a directory (os error 21)"⟩

/-- There is a file in the place of a directory. -/
def inTheWay : SystemError := ⟨false, "File exists (os error 17)"⟩

/-- The machine does not allow it. -/
def denied : SystemError := ⟨false, "Permission denied (os error 13)"⟩

/-! ## Places -/

/-- The place of a path that is absolute. -/
def segments (path : Path) : Place :=
  ((path.toList.splitOn '/').map String.ofList).filter fun s => s != "" && s != "."

/-- What is at a place. The directories above the root are there. -/
def entry? (t : FileTree) (place : Place) : Option Entry :=
  if place.isPrefixOf t.root then some .dir else t.entries.lookup place

/-- Whether things at a place may be made and changed. -/
def writable (t : FileTree) (place : Place) : Bool := t.root.isPrefixOf place && place != t.root

/-- The tree with something at a place. -/
def put (t : FileTree) (place : Place) (e : Entry) : FileTree :=
  if (t.entries.lookup place).isSome then
    { t with entries := t.entries.map fun old => if old.1 = place then (place, e) else old }
  else { t with entries := t.entries ++ [(place, e)] }

/-- The tree without what is at a place. -/
def drop (t : FileTree) (place : Place) : FileTree :=
  { t with entries := t.entries.filter fun old => old.1 != place }

/-- Go on from a directory by names; all but the last must lead to directories. -/
def walk (t : FileTree) (here : Place) : List String → Except SystemError Place
  | [] => .ok here
  | name :: names =>
    match t.entry? here with
    | some .dir => walk t (if name = ".." then here.dropLast else here ++ [name]) names
    | some (.file ..) => .error notDirectory
    | none => .error noSuch

/-- Where a path begins. -/
def origin (t : FileTree) (path : Path) : Place := if path.startsWith "/" then [] else t.root

/-- The place of a path. -/
def place (t : FileTree) (path : Path) : Except SystemError Place :=
  if path.isEmpty then .error noSuch else t.walk (t.origin path) (segments path)

/-! ## Calls -/

/-- The text of a file. -/
def read (t : FileTree) (path : Path) : Except SystemError String := do
  match t.entry? (← t.place path) with
  | some (.file text _) => if path.endsWith "/" then .error notDirectory else .ok text
  | some .dir => .error isDirectory
  | none => .error noSuch

/-- The tree in which a file holds what a function makes of its text, which is empty if there is no file. -/
def revise (t : FileTree) (path : Path) (f : String → String) : Except SystemError FileTree := do
  let place ← t.place path
  match t.entry? place, t.entry? place.dropLast with
  | some .dir, _ => .error isDirectory
  | some (.file text executable), _ =>
    if path.endsWith "/" then .error notDirectory else .ok (t.put place (.file (f text) executable))
  | none, some .dir =>
    if path.endsWith "/" then .error isDirectory
    else if t.writable place then .ok (t.put place (.file (f "") false)) else .error denied
  | none, some (.file ..) => .error notDirectory
  | none, none => .error noSuch

/-- The tree in which a file holds a text. -/
def write (t : FileTree) (path : Path) (text : String) : Except SystemError FileTree := t.revise path fun _ => text

/-- The tree in which a text is added at the end of a file. -/
def append (t : FileTree) (path : Path) (text : String) : Except SystemError FileTree := t.revise path (· ++ text)

/-- Make the directories along names, from a directory. -/
def makeDirs (t : FileTree) (here : Place) : List String → Except SystemError FileTree
  | [] => .ok t
  | name :: names =>
    let next := if name = ".." then here.dropLast else here ++ [name]
    match t.entry? next with
    | some .dir => makeDirs t next names
    | some (.file ..) => .error (if names.isEmpty then inTheWay else notDirectory)
    | none => if t.writable next then makeDirs (t.put next .dir) next names else .error denied

/-- The tree with a directory and all that it lies in. -/
def createDirs (t : FileTree) (path : Path) : Except SystemError FileTree := t.makeDirs (t.origin path) (segments path)

/-- The files below the root with their paths from there, ordered by path. -/
def files (t : FileTree) : List (String × String) :=
  let found := t.entries.filterMap fun e => match e.2 with
    | .file text _ => some ("/".intercalate (e.1.drop t.root.length), text)
    | .dir => none
  found.mergeSort fun a b => decide (a.1 ≤ b.1)

/-- The tree with a file and the directories that it lies in, whatever was there before. -/
def install (t : FileTree) (path : Path) (text : String) (executable : Bool) : FileTree :=
  let place := t.origin path ++ segments path
  match t.makeDirs [] place.dropLast with
  | .ok made => made.put place (.file text executable)
  | .error _ => t

end FileTree

end CloudFleet.Rehearsal
