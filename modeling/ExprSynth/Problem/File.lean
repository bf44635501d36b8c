import ExprSynth.Json.Format
import ExprSynth.Problem.Decode
import ExprSynth.Problem.Print

/-!
Problem files in a JSON format: a problem is written as its JSON value, and a file is read
as a value, then decoded as a problem.
-/

namespace ExprSynth

open Json

end ExprSynth
