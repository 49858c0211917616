import PlaneFigure.Text.Bytes

/-!
Paths: components between slashes. Empty components and single dots mean nothing, but for a dot at
the very beginning; a path is kept as it was written. It need not be a text.
-/

namespace PlaneFigure

structure Path where
  bytes : Bytes
  deriving DecidableEq, Repr

namespace Path

def ofString (text : String) : Path := ⟨.ofString text⟩

/-- The path as it is shown and recorded, with replacements for what is no text. -/
def text (p : Path) : String := p.bytes.lossy

def slash : UInt8 := 0x2F

def dot : UInt8 := 0x2E

/-- Cut at every slash. -/
def split : Bytes → List Bytes
  | [] => [[]]
  | c :: cs =>
    if c = slash then [] :: split cs
    else match split cs with
      | [] => [[c]]
      | first :: rest => (c :: first) :: rest

/-- Everything between slashes. -/
def components (p : Path) : List Bytes := split p.bytes

/-- The number of bytes that a path may have. -/
def maxBytes : Nat := 4095

/-- Whether a path can lead anywhere: it is not too long and no null byte is in it. -/
def isUsable (p : Path) : Bool := p.bytes.length ≤ maxBytes && !p.bytes.contains 0

def isAbsolute (p : Path) : Bool := p.bytes.head? = some slash

/-- Drop slashes and single dots from the end of a path, which is given last byte first. The root
remains. -/
def trimEnd : Bytes → Bytes
  | [] => []
  | c :: cs =>
    if c = slash ∧ cs ≠ [] ∨ c = dot ∧ cs.head? = some slash then trimEnd cs else c :: cs

/-- The bytes without what means nothing at the end, last byte first. -/
def trimmed (p : Path) : Bytes := trimEnd p.bytes.reverse

/-- The path without its last component; none for the root and the empty path. -/
def parent? (p : Path) : Option Path :=
  let cs := p.trimmed
  if cs = [] ∨ cs = [slash] then none
  else some ⟨(trimEnd (cs.dropWhile (· ≠ slash))).reverse⟩

/-- The last component, if it is a name. -/
def fileName? (p : Path) : Option Bytes :=
  let name := (p.trimmed.takeWhile (· ≠ slash)).reverse
  if name = [] ∨ name = [dot] ∨ name = [dot, dot] then none else some name

/-- A name without its last dot and what follows. A dot at the beginning does not count. -/
def stem (name : Bytes) : Bytes :=
  match name.reverse.dropWhile (· ≠ dot) with
  | [] => name
  | _ :: [] => name
  | _ :: before => before.reverse

/-- A name inside a directory. -/
def inside (directory : Path) (name : Bytes) : Path :=
  if directory.bytes = [] ∨ directory.bytes.getLast? = some slash then ⟨directory.bytes ++ name⟩
  else ⟨directory.bytes ++ slash :: name⟩

/-- Another name in the same directory. -/
def sibling (p : Path) (name : Bytes) : Path :=
  match p.fileName?, p.parent? with
  | some _, some directory => directory.inside name
  | _, _ => p.inside name

end Path

end PlaneFigure
