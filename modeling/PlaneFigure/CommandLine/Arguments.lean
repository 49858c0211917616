import PlaneFigure.CommandLine.Number
import PlaneFigure.Files.Path

/-!
The arguments of a command. Options are scanned from left to right; the value of an option is looked
at when the next option begins or the arguments end, so that an argument that is no option at all
is noticed first.
-/

namespace PlaneFigure.CommandLine

/-- Why arguments are not carried out. -/
inductive UsageError
  /-- Help was asked for. -/
  | help
  | noCommand
  | unknownCommand
  /-- An argument that means nothing where it stands. -/
  | unknownArgument
  /-- A value for an option that takes none. -/
  | unexpectedValue
  /-- No value, or an empty path. -/
  | missingValue
  /-- A value that should be a number and is not even a text. -/
  | notText
  | badNumber
  | repeatedOption
  | missingOption
  deriving DecidableEq, Repr

/-- The options of the command that builds a drawing. -/
inductive Flag
  | instructions | seed | attempts | maxIterations | tolerance | regularizePoints | makeDistinct
  | out
  deriving DecidableEq, Repr

def Flag.ofName? : String → Option Flag
  | "instructions" => some .instructions
  | "seed" => some .seed
  | "attempts" => some .attempts
  | "max-iterations" => some .maxIterations
  | "tolerance" => some .tolerance
  | "regularize-points" => some .regularizePoints
  | "make-distinct" => some .makeDistinct
  | "out" => some .out
  | _ => none

/-- The values of options, as far as they are given. -/
structure Given where
  instructions : Option Path := none
  seed : Option UInt64 := none
  attempts : Option Nat := none
  maxIterations : Option Nat := none
  tolerance : Option Float := none
  regularizePoints : Option Float := none
  makeDistinct : Option Float := none
  out : Option Path := none

namespace Given

def has (g : Given) : Flag → Bool
  | .instructions => g.instructions.isSome
  | .seed => g.seed.isSome
  | .attempts => g.attempts.isSome
  | .maxIterations => g.maxIterations.isSome
  | .tolerance => g.tolerance.isSome
  | .regularizePoints => g.regularizePoints.isSome
  | .makeDistinct => g.makeDistinct.isSome
  | .out => g.out.isSome

/-- A path must not be empty. -/
def path (value : Bytes) : Except UsageError Path :=
  if value = [] then throw .missingValue else return ⟨value⟩

/-- A value that must be a number. -/
def number {α : Type} (read? : String → Option α) (value : Bytes) : Except UsageError α :=
  match value.text? with
  | none => throw .notText
  | some text =>
    match read? text with
    | some n => return n
    | none => throw .badNumber

/-- The greatest number of 64 bits. -/
def greatestWord : Nat := 0xFFFFFFFFFFFFFFFF

/-- The greatest number of 32 bits. -/
def greatestHalf : Nat := 0xFFFFFFFF

/-- Give an option its value. An option may be given once. -/
def set (g : Given) (flag : Flag) (value : Bytes) : Except UsageError Given :=
  if g.has flag then throw .repeatedOption
  else match flag with
    | .instructions => return { g with instructions := some (← path value) }
    | .seed =>
      return { g with seed := some (UInt64.ofNat (← number (readNat? greatestWord) value)) }
    | .attempts => return { g with attempts := some (← number (readSignedNat? greatestHalf) value) }
    | .maxIterations =>
      return { g with maxIterations := some (← number (readNat? greatestWord) value) }
    | .tolerance => return { g with tolerance := some (← number readReal? value) }
    | .regularizePoints => return { g with regularizePoints := some (← number readReal? value) }
    | .makeDistinct => return { g with makeDistinct := some (← number readReal? value) }
    | .out => return { g with out := some (← path value) }

end Given

/-- An argument by its first bytes. -/
inductive Argument
  /-- Two hyphens alone: what follows is no option. -/
  | escape
  /-- A name after two hyphens, if it is a text, with what follows an equals sign. -/
  | long (name : Option String) (value : Option Bytes)
  /-- Letters after one hyphen. -/
  | short (first : UInt8)
  | word (word : Bytes)
  deriving DecidableEq, Repr

def hyphen : UInt8 := 0x2D

def equalsSign : UInt8 := 0x3D

def letterH : UInt8 := 0x68

/-- What two hyphens are followed by. -/
def Argument.ofLong : Bytes → Argument
  | [] => .escape
  | cs => .long (Bytes.text? (cs.takeWhile (· ≠ equalsSign)))
      (cs.dropWhile (· ≠ equalsSign)).tail?

def Argument.ofBytes (argument : Bytes) : Argument :=
  match argument with
  | first :: second :: rest =>
    if first ≠ hyphen then .word argument
    else if second ≠ hyphen then .short second
    else .ofLong rest
  | _ => .word argument

/-- The state of a scan. -/
structure Scan where
  given : Given := {}
  /-- The option that began last, and its value if that is given, before it is looked at. -/
  pending : Option (Flag × Option Bytes) := none
  escaped : Bool := false

namespace Scan

/-- Look at the value of the pending option. -/
def settle (s : Scan) : Except UsageError Scan :=
  match s.pending with
  | none => return s
  | some (_, none) => throw .missingValue
  | some (flag, some value) =>
    return { s with given := ← s.given.set flag value, pending := none }

/-- One argument of a command with the given options. -/
def step (flag? : String → Option Flag) (s : Scan) (argument : Argument) :
    Except UsageError Scan :=
  if s.escaped then throw .unknownArgument
  else match argument with
    | .escape => return { s with escaped := true }
    | .long (some "help") none => do
      let _ ← s.settle
      throw .help
    | .long (some "help") (some _) => throw .unexpectedValue
    | .long name value =>
      match name.bind flag? with
      | none => throw .unknownArgument
      | some flag => do
        let s ← s.settle
        match value with
        | none => return { s with pending := some (flag, none) }
        | some value => return { s with given := ← s.given.set flag value }
    | .short first =>
      if first = letterH then do
        let _ ← s.settle
        throw .help
      else throw .unknownArgument
    | .word value =>
      match s.pending with
      | some (flag, none) => return { s with pending := some (flag, some value) }
      | _ => throw .unknownArgument

/-- The values of the options in a list of arguments. -/
def run (flag? : String → Option Flag) (arguments : List Bytes) : Except UsageError Given := do
  let s ← (arguments.map Argument.ofBytes).foldlM (step flag?) {}
  return (← s.settle).given

end Scan

/-- What the command that builds a drawing is told. -/
structure BuildOptions where
  instructions : Path
  seed : UInt64
  attempts : Nat
  maxIterations : Nat
  tolerance : Float
  regularizePoints : Float
  makeDistinct : Float
  out : Option Path

/-- The options that are given, and defaults for the others. Only the instructions have none. -/
def BuildOptions.ofGiven (g : Given) : Except UsageError BuildOptions :=
  match g.instructions with
  | none => throw .missingOption
  | some instructions => return {
      instructions
      seed := g.seed.getD 0
      attempts := g.attempts.getD 1
      maxIterations := g.maxIterations.getD 5000
      tolerance := g.tolerance.getD 1e-10
      regularizePoints := g.regularizePoints.getD 0.0
      makeDistinct := g.makeDistinct.getD 0.0
      out := g.out }

inductive Command
  | build (options : BuildOptions)
  /-- Tell the version. -/
  | report

/-- Whether a word is the name of a command; help is one too. -/
def isCommand (word : Bytes) : Bool :=
  match word.text? with
  | some "build" | some "report" | some "help" => true
  | _ => false

/-- An argument where the name of a command is due. -/
def refuseFirst (argument : Argument) (rest : List Bytes) : UsageError :=
  match argument with
  | .escape =>
    match rest with
    | [] => .noCommand
    | word :: _ => if isCommand word then .unknownArgument else .unknownCommand
  | .long (some "help") none => .help
  | .long (some "help") (some _) => .unexpectedValue
  | .long _ _ => .unknownArgument
  | .short first => if first = letterH then .help else .unknownArgument
  | .word _ => .unknownCommand

/-- Help on the program or on one command. -/
def refuseHelp : List Bytes → UsageError
  | [] => .help
  | [word] => if isCommand word then .help else .unknownCommand
  | _ => .unknownCommand

/-- The command that a list of arguments is. -/
def Command.ofArguments : List Bytes → Except UsageError Command
  | [] => throw .noCommand
  | first :: rest =>
    match first.text? with
    | some "build" => return .build (← BuildOptions.ofGiven (← Scan.run Flag.ofName? rest))
    | some "report" => do
      let _ ← Scan.run (fun _ => none) rest
      return .report
    | some "help" => throw (refuseHelp rest)
    | _ => throw (refuseFirst (Argument.ofBytes first) rest)

end PlaneFigure.CommandLine
