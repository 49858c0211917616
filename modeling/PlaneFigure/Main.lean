import PlaneFigure.CommandLine.Run

/-!
The program: commands on the files of the system.
-/

namespace PlaneFigure.CommandLine

/-- Whether an action succeeds. -/
def succeeds (action : IO Unit) : IO Bool := do
  try
    action
    return true
  catch _ => return false

/-- The files of the system, as far as their paths are texts. -/
instance : Files IO where
  read? p := do
    let some path := p.bytes.text? | return none
    try
      return some (← IO.FS.readBinFile path).toList
    catch _ => return none
  makeDirectories p := do
    let some path := p.bytes.text? | return false
    succeeds (IO.FS.createDirAll path)
  write p content := do
    let some path := p.bytes.text? | return false
    succeeds (IO.FS.writeBinFile path ⟨content.toArray⟩)

def usage : String :=
  "Usage: diagram-cli build --instructions <path> [--seed <n>] [--attempts <n>]\n" ++
  "         [--max-iterations <n>] [--tolerance <x>] [--regularize-points <w>]\n" ++
  "         [--make-distinct <w>] [--out <path>]\n" ++
  "       diagram-cli report\n" ++
  "       diagram-cli help [command]\n"

def UsageError.message : UsageError → String
  | help => ""
  | noCommand => "a command is needed"
  | unknownCommand => "there is no such command"
  | unknownArgument => "there is an unknown argument"
  | unexpectedValue => "an option has a value but takes none"
  | missingValue => "an option lacks its value"
  | notText => "a value is no text"
  | badNumber => "a value is not a number in range"
  | repeatedOption => "an option is given twice"
  | missingOption => "the option --instructions is needed"

/-- Print a result; the exit code. -/
def Result.print : Result → IO UInt32
  | rejected .help => do
    IO.print usage
    return 0
  | rejected e => do
    IO.eprint ("error: " ++ e.message ++ "\n" ++ usage)
    return 2
  | failed f => do
    IO.eprintln ("Error: " ++ f.message)
    if let .compiling e := f then
      IO.eprintln e.message
    return 1
  | version v => do
    IO.println v.toJson.renderIndented
    return 0
  | drawing d written => do
    unless written do
      IO.println d.toJson.renderIndented
    return 0

/-- The revision that the environment names. -/
def environmentVersion : IO Version := do
  match ← IO.getEnv "GIT_COMMIT" with
  | some revision => return if revision = "" then {} else { revision }
  | none => return {}

end PlaneFigure.CommandLine

def main (arguments : List String) : IO UInt32 := do
  let version ← PlaneFigure.CommandLine.environmentVersion
  (← PlaneFigure.CommandLine.run version (arguments.map PlaneFigure.Bytes.ofString)).print
