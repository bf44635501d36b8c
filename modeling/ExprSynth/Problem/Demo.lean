import ExprSynth.Problem.Basic

/-!
The built-in problem sets: the smaller of two numbers, a cube, and a function defined by
cases.
-/

namespace ExprSynth

/-- The depth bound of the built-in problems. -/
def demoDepth : Nat := 4

/-- The names of the built-in problem sets, in order. -/
def demoSuites : List String := ["1a1", "1a2", "1b"]

/-- An example with integer inputs and output. -/
def Example.ofInts (inputs : List (String × Int64)) (output : Int64) : Example :=
  ⟨Env.ofList inputs, .int output⟩

/-- Two examples of the smaller of `x` and `y`. -/
def minLike : List Example :=
  [.ofInts [("x", 5), ("y", 10)] 5, .ofInts [("x", 8), ("y", 3)] 3]

/-- Examples of a function defined by cases on `x` and `y`. -/
def piecewise : List Example :=
  [.ofInts [("x", 10), ("y", 7)] 17, .ofInts [("x", 4), ("y", 7)] (-7),
    .ofInts [("x", 10), ("y", 3)] 13, .ofInts [("x", 1), ("y", -7)] (-6),
    .ofInts [("x", 1), ("y", 8)] (-8)]

/-- The built-in problem set of a name. The set `1b` is meant for the restricted
search. -/
def demoSuite : String → Option (List Problem)
  | "1a1" => some [
      .standard demoDepth ["x", "y"] [4, 5] minLike,
      .standard demoDepth ["x", "y"] [] minLike,
      .standard demoDepth ["x"] []
        [.ofInts [("x", 2)] 8, .ofInts [("x", 3)] 27, .ofInts [("x", 4)] 64]]
  | "1a2" | "1b" => some [.standard demoDepth ["x", "y"] [-1, 5] piecewise]
  | _ => none

end ExprSynth
