import PlaneFigure.Files.Path
import PlaneFigure.NameMap

/-!
Files. A program reads and writes files through three operations; a tree of files in memory has
them too. Neither names nor contents need be texts.
-/

namespace PlaneFigure

/-- The operations on files that a monad offers. An operation says whether it succeeded. -/
class Files (m : Type → Type) where
  read? : Path → m (Option Bytes)
  /-- Create a directory and those above it, as far as they are missing. -/
  makeDirectories : Path → m Bool
  write : Path → Bytes → m Bool

/-- A file, or a directory with its entries in increasing order of their names. -/
inductive Entry
  | file (content : Bytes)
  | directory (entries : List (Bytes × Entry))
  deriving Repr

/-- Names on the way from a directory to an entry. -/
abbrev Location := List Bytes

namespace Entry

def isDirectory : Entry → Bool
  | directory _ => true
  | file _ => false

/-- The entry at a location below an entry. -/
def at? : Entry → Location → Option Entry
  | e, [] => some e
  | directory entries, name :: rest => (entries.lookup name).bind (at? · rest)
  | file _, _ :: _ => none

/-- Put an entry at a location. Directories that are missing on the way are created; a file on the
way remains as it is. -/
def put (new : Entry) : Location → Entry → Entry
  | [], _ => new
  | name :: rest, directory entries =>
    directory (NameMap.put name (put new rest ((entries.lookup name).getD (directory []))) entries)
  | _ :: _, file content => file content

mutual

/-- The files below an entry by their paths, when the entry itself has the path `above`. -/
def files (above : Bytes) : Entry → List (Bytes × Bytes)
  | file content => [(above, content)]
  | directory entries => filesOf above entries

/-- The files below the entries of a directory that has the path `above`. -/
def filesOf (above : Bytes) : List (Bytes × Entry) → List (Bytes × Bytes)
  | [] => []
  | (name, e) :: rest =>
    files (if above = [] then name else above ++ Path.slash :: name) e ++ filesOf above rest

end

end Entry

/-- A root with all below it, and the location of the directory at which relative paths begin. -/
structure FileTree where
  root : Entry
  working : Location
  deriving Repr

namespace FileTree

/-- The tree with nothing but its working directory, below the root. -/
def empty (working : Bytes) : FileTree := ⟨.directory [(working, .directory [])], [working]⟩

def entry? (t : FileTree) (l : Location) : Option Entry := t.root.at? l

def put (t : FileTree) (l : Location) (e : Entry) : FileTree := { t with root := e.put l t.root }

def isDirectory (t : FileTree) (l : Location) : Bool := (t.entry? l).any Entry.isDirectory

/-- The number of bytes that a name may have. -/
def maxName : Nat := 255

/-- Where a component leads from a directory. -/
def step (t : FileTree) (l : Location) (component : Bytes) : Option Location :=
  if !t.isDirectory l then none
  else if component = [] ∨ component = [Path.dot] then some l
  else if component = [Path.dot, Path.dot] then some l.dropLast
  else if maxName < component.length then none
  else some (l ++ [component])

def start (t : FileTree) (p : Path) : Location := if p.isAbsolute then [] else t.working

/-- Where a path leads; there need not be an entry. -/
def locate? (t : FileTree) (p : Path) : Option Location :=
  if p.isUsable then p.components.foldlM t.step (t.start p) else none

def read? (p : Path) (t : FileTree) : Option Bytes := do
  match t.entry? (← t.locate? p) with
  | some (.file content) => some content
  | _ => none

/-- The tree with a file of the given content, in place of what the file held before. -/
def write? (p : Path) (content : Bytes) (t : FileTree) : Option FileTree := do
  let l ← t.locate? p
  if t.isDirectory l then none else some (t.put l (.file content))

/-- Follow a component, and create a directory if there is nothing. -/
def enter (state : FileTree × Location) (component : Bytes) : Option (FileTree × Location) := do
  let (t, l) := state
  let l ← t.step l component
  return (if (t.entry? l).isNone then t.put l (.directory []) else t, l)

def makeDirectories? (p : Path) (t : FileTree) : Option FileTree := do
  if p.isUsable then
    let (t, l) ← p.components.foldlM enter (t, t.start p)
    if t.isDirectory l then some t else none
  else none

/-- Keep a changed tree; say whether there is one. -/
def attempt (change : FileTree → Option FileTree) : StateM FileTree Bool := fun t =>
  match change t with
  | some t => (true, t)
  | none => (false, t)

instance : Files (StateM FileTree) where
  read? p := return (← get).read? p
  makeDirectories p := attempt (makeDirectories? p)
  write p content := attempt (write? p content)

/-- The files below the working directory by their paths from there. -/
def workingFiles (t : FileTree) : List (Bytes × Bytes) :=
  match t.entry? t.working with
  | some e => e.files []
  | none => []

end FileTree

end PlaneFigure
