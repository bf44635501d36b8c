import ExprSynth.Command

/-!
The program: reads the command line and the problem file, runs the invocation, and
prints its output, its error report, and exits with its code.
-/

open ExprSynth

/-- The system's wording of an error number, followed by the number. -/
def osErrorText (code : UInt32) : String :=
  let text := match code with
    | 1 => "Operation not permitted"
    | 2 => "No such file or directory"
    | 13 => "Permission denied"
    | 20 => "Not a directory"
    | 21 => "Is a directory"
    | 36 => "File name too long"
    | 40 => "Too many levels of symbolic links"
    | _ => "Unknown error " ++ toString code
  text ++ " (os error " ++ toString code ++ ")"

/-- The reason a file cannot be read, as the system words it. -/
def readFailure : IO.Error → String
  | .noFileOrDirectory _ code _ => osErrorText code
  | .permissionDenied _ code _ => osErrorText code
  | .inappropriateType _ code _ => osErrorText code
  | .invalidArgument _ code _ => osErrorText code
  | e => toString e

/-- The text of a file, or the reason it cannot be read. -/
def readSource (path : String) : IO (Except String String) := do
  try
    pure (.ok (← IO.FS.readFile path))
  catch e =>
    pure (.error (readFailure e))

/-- Runs the program on its command line: prints what it solves, reports an error on the
error stream, and exits with the run's code. -/
def main (args : List String) : IO UInt32 := do
  let report ← match Parsed.ofArgs args with
    | .refused => pure ⟨2, "", some "error: invalid command line"⟩
    | .help page => pure ⟨0, helpText page, none⟩
    | .run inv => do
        let file ← match inv.task with
          | .solve path => readSource path
          | .demo _ => pure (.ok "")
        pure (inv.execute file)
  IO.print report.stdout
  match report.error with
  | some text => IO.eprintln text
  | none => pure ()
  pure report.exitCode.toUInt32
