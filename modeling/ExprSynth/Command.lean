import ExprSynth.Synthesis
import ExprSynth.Problem.Read
import ExprSynth.Problem.Print
import ExprSynth.Problem.Demo

/-!
The command line: `solve FILE` and `demo [SET]`, with `--depth N`, `--restricted` and
`-v` before or after the command. Reading a command line either gives an invocation,
asks for help, or refuses it; running an invocation solves its problems in order and
reports what it printed and the first error.
-/

namespace ExprSynth

/-- What the command line asks for: to solve the problem of a file, or to run a built-in
problem set, or all of them. -/
inductive Task where
  | solve (path : String)
  | demo (suite : Option String)
  deriving DecidableEq, Repr, Inhabited

/-- The options of one level of the command line, the program's or its command's. -/
structure Flags where
  verbose : Nat := 0
  restricted : Bool := false
  depth : Option Nat := none
  deriving DecidableEq, Repr, Inhabited

/-- A parsed command line. The options may be given before and after the command;
`restricted` holds when either level asks for it, and a depth given after the command
wins. -/
structure Invocation where
  verbose : Nat
  restricted : Bool
  depth : Option Nat
  task : Task
  deriving DecidableEq, Repr, Inhabited

/-- The help pages: the program's, each command's, and that of the command `help`. -/
inductive HelpPage where
  | program
  | solve
  | demo
  | help
  deriving DecidableEq, Repr, Inhabited

/-- The outcome of reading a command line: an invocation to run, a help page to show, or
a command line that is refused. -/
inductive Parsed where
  | run (inv : Invocation)
  | help (page : HelpPage)
  | refused
  deriving DecidableEq, Repr, Inhabited

/-- The help shown for the command `help` followed by `names`: the program's page for
no name, else the page of the command named. A command's own commands could follow its
name, but no command has any. -/
def Parsed.helpFor : List String → Parsed
  | [] => .help .program
  | ["solve"] => .help .solve
  | ["demo"] => .help .demo
  | ["help"] => .help .help
  | _ => .refused

/-- How far the reading of a command line has got: before the command, or after it with
its argument, if seen. -/
inductive Stage where
  | top
  | solve (path : Option String)
  | demo (suite : Option String)
  deriving DecidableEq, Repr, Inhabited

/-- The state of the command-line reader. -/
structure Reading where
  stage : Stage := .top
  top : Flags := {}
  sub : Flags := {}
  escaped : Bool := false
  deriving Inhabited

namespace Reading

/-- The flags of the level being read. -/
def flags (r : Reading) : Flags :=
  match r.stage with
  | .top => r.top
  | _ => r.sub

/-- The help page of the level being read. -/
def page (r : Reading) : HelpPage :=
  match r.stage with
  | .top => .program
  | .solve _ => .solve
  | .demo _ => .demo

/-- Replaces the flags of the level being read. -/
def setFlags (r : Reading) (f : Flags) : Reading :=
  match r.stage with
  | .top => { r with top := f }
  | _ => { r with sub := f }

/-- Takes a positional argument: the command, then its argument. -/
def positional (r : Reading) (arg : String) : Except Parsed Reading :=
  match r.stage with
  | .top =>
      if r.escaped then .error .refused
      else match arg with
        | "solve" => .ok { r with stage := .solve none }
        | "demo" => .ok { r with stage := .demo none }
        | _ => .error .refused
  | .solve none => if arg.isEmpty then .error .refused else .ok { r with stage := .solve (some arg) }
  | .demo none => .ok { r with stage := .demo (some arg) }
  | _ => .error .refused

/-- Records a depth bound given as `text`, once per level. -/
def setDepth (r : Reading) (text : String) : Except Parsed Reading :=
  let digits := if text.startsWith "+" then text.drop 1 else text.toSlice
  if r.flags.depth.isSome then .error .refused
  else if digits.isEmpty || !digits.all Char.isDigit then .error .refused
  else
    let n := digits.foldl (fun n c => 10 * n + (c.toNat - '0'.toNat)) 0
    if n ≥ Nat.pow 2 64 then .error .refused
    else .ok (r.setFlags { r.flags with depth := some n })

/-- Takes a cluster of short options. -/
def shorts (r : Reading) : List Char → Except Parsed Reading
  | [] => .ok r
  | 'v' :: rest => shorts (r.setFlags { r.flags with verbose := r.flags.verbose + 1 }) rest
  | 'h' :: _ => .error (.help r.page)
  | _ :: _ => .error .refused

/-- Takes the arguments in order. -/
def feed (r : Reading) : List String → Except Parsed Reading
  | [] => .ok r
  | arg :: rest =>
      if r.escaped then do feed (← r.positional arg) rest
      else if arg = "--" then feed { r with escaped := true } rest
      else if arg.startsWith "--" then
        let body := (arg.drop 2).toString
        let name := (body.takeWhile (· ≠ '=')).toString
        let value : Option String :=
          if body.contains '=' then some (body.dropWhile (· ≠ '=') |>.drop 1).toString else none
        match name, value with
        | "verbose", none =>
            feed (r.setFlags { r.flags with verbose := r.flags.verbose + 1 }) rest
        | "restricted", none =>
            if r.flags.restricted then .error .refused
            else feed (r.setFlags { r.flags with restricted := true }) rest
        | "depth", some v => do feed (← r.setDepth v) rest
        | "depth", none =>
            match rest with
            | v :: more => do feed (← r.setDepth v) more
            | [] => .error .refused
        | "help", none => .error (.help r.page)
        | _, _ => .error .refused
      else if arg.startsWith "-" ∧ arg.length > 1 then do
        feed (← r.shorts (arg.toList.drop 1)) rest
      else if r.stage = .top ∧ arg = "help" then .error (Parsed.helpFor rest)
      else do feed (← r.positional arg) rest

/-- The invocation read, once every argument is taken. -/
def finish (r : Reading) : Parsed :=
  let inv (task : Task) : Parsed :=
    .run ⟨r.top.verbose + r.sub.verbose, r.top.restricted || r.sub.restricted,
      r.sub.depth <|> r.top.depth, task⟩
  match r.stage with
  | .top => .refused
  | .solve none => .refused
  | .solve (some path) => inv (.solve path)
  | .demo suite => inv (.demo suite)

end Reading

/-- Reads a command line, the program's name left out. -/
def Parsed.ofArgs (args : List String) : Parsed :=
  match ({} : Reading).feed args with
  | .ok r => r.finish
  | .error p => p

/-- The options every level takes, as the help pages list them. -/
def optionsText : String :=
  "Options:\n" ++
  "  -v, --verbose...     Raise the log level, repeat for more\n" ++
  "      --restricted     Only let `*` and `<` combine variables and constants\n" ++
  "      --depth <DEPTH>  Override the max depth of every problem\n" ++
  "  -h, --help           Print help\n"

/-- The text of a help page. -/
def helpText : HelpPage → String
  | .program =>
      "Bottom-up synthesis of expressions from examples\n\n" ++
      "Usage: layersynth [OPTIONS] <COMMAND>\n\n" ++
      "Commands:\n" ++
      "  solve  Solve the problem described by a JSON file\n" ++
      "  demo   Run one of the built-in problem sets, or all of them\n" ++
      "  help   Print this message or the help of the given subcommand(s)\n\n" ++
      optionsText
  | .solve =>
      "Solve the problem described by a JSON file\n\n" ++
      "Usage: layersynth solve [OPTIONS] <PATH>\n\n" ++
      "Arguments:\n" ++
      "  <PATH>  \n\n" ++
      optionsText
  | .demo =>
      "Run one of the built-in problem sets, or all of them\n\n" ++
      "Usage: layersynth demo [OPTIONS] [SUITE]\n\n" ++
      "Arguments:\n" ++
      "  [SUITE]  \n\n" ++
      optionsText
  | .help =>
      "Print this message or the help of the given subcommand(s)\n\n" ++
      "Usage: layersynth help [COMMAND]...\n\n" ++
      "Arguments:\n" ++
      "  [COMMAND]...  Print help for the subcommand(s)\n"

/-- What a run of the program leaves: its exit code, what it printed, and its error
report, if any. -/
structure Report where
  exitCode : Nat
  stdout : String
  error : Option String
  deriving DecidableEq, Repr, Inhabited

/-- A cause as it is shown under its error: every line indented by four spaces, empty
lines included. -/
def indentCause (cause : String) : String :=
  "\n".intercalate ((cause.splitOn "\n").map ("    " ++ ·))

/-- An error report: the message, then its cause, if any. -/
def errorText (message : String) (cause : Option String) : String :=
  "Error: " ++ message ++
    match cause with
    | some c => "\n\nCaused by:\n" ++ indentCause c
    | none => ""

/-- The message and cause of a synthesis error. -/
def SynthError.report (e : SynthError) : String :=
  errorText e.message (some (match e with
    | .config c => c.message
    | .eval v => v.message))

/-- The text printed for a solved problem. -/
def solutionText (p : Problem) (s : Synthesis) : String :=
  " \n" ++ p.summary ++ "\nResult: " ++
    (match s.outcome with
      | .found e => e.render
      | .noSolution => "no solution") ++ "\n"

/-- The policy of a run: the standard restrictions when asked for. -/
def policyOf (restricted : Bool) : Policy :=
  if restricted then .restricted Restrictions.standard else .typeDirected

/-- Solves the problems in order, printing each one's result once it is found; the
first error ends the run. -/
def solveAll (policy : Policy) : List Problem → String → Report
  | [], out => ⟨0, out, none⟩
  | p :: rest, out =>
      match synthesize p policy TieBreak.keepExisting with
      | .ok s => solveAll policy rest (out ++ solutionText p s)
      | .error e => ⟨1, out, some e.report⟩

namespace Invocation

/-- The problems to solve. `file` is the text of the file to solve, or the reason it
could not be read. -/
def problems (inv : Invocation) (file : Except String String) :
    Except String (List Problem) :=
  match inv.task with
  | .solve path =>
      match file with
      | .error reason => .error (errorText ("reading " ++ path) (some reason))
      | .ok text =>
          match Problem.parse text with
          | .ok p => .ok [p]
          | .error e => .error (errorText ("parsing " ++ path) (some e.message))
  | .demo (some name) =>
      match demoSuite name with
      | some suite => .ok suite
      | none => .error (errorText ("unknown suite `" ++ name ++ "`, expected one of [" ++
          ", ".intercalate (demoSuites.map fun s => "\"" ++ s ++ "\"") ++ "]") none)
  | .demo none => .ok (demoSuites.filterMap demoSuite).flatten

/-- Whether the run uses the restricted search: when asked for, and for the set `1b`. -/
def isRestricted (inv : Invocation) : Bool :=
  inv.restricted || inv.task == .demo (some "1b")

/-- Runs the invocation. `file` is the text of the file to solve, or the reason it could
not be read; it is not looked at otherwise. -/
def execute (inv : Invocation) (file : Except String String) : Report :=
  match inv.problems file with
  | .error text => ⟨1, "", some text⟩
  | .ok problems =>
      let problems := match inv.depth with
        | some d => problems.map fun p => { p with maxDepth := d }
        | none => problems
      solveAll (policyOf inv.isRestricted) problems ""

end Invocation

/-- Runs the program on a command line. `read` gives the text of a file, or the reason
it cannot be read. -/
def runCommand (args : List String) (read : String → Except String String) : Report :=
  match Parsed.ofArgs args with
  | .refused => ⟨2, "", none⟩
  | .help page => ⟨0, helpText page, none⟩
  | .run inv =>
      let file := match inv.task with
        | .solve path => read path
        | .demo _ => .ok ""
      inv.execute file

end ExprSynth
