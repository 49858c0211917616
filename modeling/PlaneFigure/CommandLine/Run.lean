import PlaneFigure.CommandLine.Arguments
import PlaneFigure.Drawing.Attempts
import PlaneFigure.Files.Tree
import PlaneFigure.Instruction.Layout

/-!
Carrying out commands. A drawing is printed, or written to a file; then a second file beside it
records where the drawing came from.
-/

namespace PlaneFigure.CommandLine

/-- Why a drawing is not built or not written. -/
inductive Failure
  | reading (p : Path)
  | parsing (p : Path)
  | compiling (e : DraftError)
  | degenerate
  | creating (p : Path)
  | writing (p : Path)
  /-- The record would hold a path as a text, and it is none. -/
  | recording (p : Path)

def Failure.message : Failure → String
  | reading p => "reading " ++ p.text
  | parsing p => "parsing " ++ p.text
  | compiling _ => "compiling instructions"
  | degenerate => "every attempt hit a numeric degeneracy"
  | creating p => "creating " ++ p.text
  | writing p => "writing " ++ p.text
  | recording _ => "path contains invalid UTF-8 characters"

/-- The version of the program, and the revision of what it was built from. -/
structure Version where
  number : String := "0.1.0"
  revision : String := "unknown"

def Version.toJson (v : Version) : Json :=
  .object [("crate", .string "diagram"), ("version", .string v.number),
    ("code_rev", .string v.revision)]

/-- Where a drawing came from. -/
structure Provenance where
  version : Version
  instructions : Path
  /-- The seed of the attempt that led to the drawing. -/
  seed : UInt64
  /-- The paths of what was written, as texts. -/
  outputs : List String

/-- A record, if the path of the instructions is a text. -/
def Provenance.toJson? (p : Provenance) : Option Json := do
  let instructions ← p.instructions.bytes.text?
  return .object [("code_rev", .string p.version.revision), ("version", .string p.version.number),
    ("instructions", .string instructions), ("seed", .nat p.seed.toNat),
    ("outputs", .strings p.outputs)]

/-- The file beside a drawing that records where it came from. -/
def Provenance.path (drawing : Path) : Path :=
  let stem := match drawing.fileName? with
    | some name => Path.stem name
    | none => .ofString "diagram"
  drawing.sibling (stem ++ .ofString ".provenance.json")

def BuildOptions.settings (o : BuildOptions) : DrawingSettings where
  draft := { DraftSettings.standard with
    regularizePoints := o.regularizePoints, makeDistinct := o.makeDistinct }
  descent := { Descent.Settings.standard with
    maxIterations := o.maxIterations, tolerance := o.tolerance }

/-- The drawing of an instruction text. -/
def draw (o : BuildOptions) (text : String) : Except Failure Drawing :=
  match Instruction.parse? text with
  | none => throw (.parsing o.instructions)
  | some is =>
    match Drawing.build o.settings is o.seed o.attempts with
    | .ok d => return d
    | .error (.refused e) => throw (.compiling e)
    | .error .degenerate => throw .degenerate

variable {m : Type → Type} [Monad m] [Files m]

/-- Read the instructions and draw them. -/
def build (o : BuildOptions) : m (Except Failure Drawing) := do
  match (← Files.read? o.instructions).bind Bytes.text? with
  | none => return .error (.reading o.instructions)
  | some text => return draw o text

/-- Create the directory of a file, if the path names one. -/
def prepare (file : Path) : m (Except Failure Unit) := do
  match file.parent? with
  | none => return .ok ()
  | some directory =>
    if directory.bytes = [] then return .ok ()
    else if ← Files.makeDirectories directory then return .ok ()
    else return .error (.creating directory)

def write (file : Path) (content : Json) : m (Except Failure Unit) := do
  if ← Files.write file (.ofString content.renderIndented) then return .ok ()
  else return .error (.writing file)

/-- Write a record, if there can be one. -/
def writeRecord (file : Path) (p : Provenance) : m (Except Failure Unit) :=
  match p.toJson? with
  | none => return .error (.recording p.instructions)
  | some record => write file record

/-- Write a drawing to a file, and where it came from to the file beside it. -/
def emit (version : Version) (instructions out : Path) (d : Drawing) : m (Except Failure Unit) :=
  ExceptT.run do
    ExceptT.mk (prepare out)
    ExceptT.mk (write out d.toJson)
    let p : Provenance := { version, instructions, seed := d.seed, outputs := [out.text] }
    ExceptT.mk (writeRecord (Provenance.path out) p)

/-- What comes of a list of arguments. -/
inductive Result
  | rejected (e : UsageError)
  | failed (f : Failure)
  | version (v : Version)
  /-- A drawing, which was also written if `written`. -/
  | drawing (d : Drawing) (written : Bool)

/-- Carry out the command that a list of arguments is. -/
def run (version : Version) (arguments : List Bytes) : m Result := do
  match Command.ofArguments arguments with
  | .error e => return .rejected e
  | .ok .report => return .version version
  | .ok (.build o) =>
    match ← build o with
    | .error f => return .failed f
    | .ok d =>
      match o.out with
      | none => return .drawing d false
      | some out =>
        match ← emit version o.instructions out d with
        | .ok () => return .drawing d true
        | .error f => return .failed f

end PlaneFigure.CommandLine
