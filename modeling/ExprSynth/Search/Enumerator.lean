import ExprSynth.Search.Policy

/-!
The layered bottom-up search. It starts with the terminals in the bank; each layer runs
every operator that takes arguments over the tuples of its argument pools, the last
position varying fastest, and hands the candidates to the bank, until one succeeds or
the depth bound is reached. The statistics count what the bank did with them.
-/

namespace ExprSynth

/-- Statistics of a search. `depth` is the depth reached, terminals being depth 1;
`generated` counts the candidates handed to the bank, terminals included, and
`retained` is the size of the bank. -/
structure Stats where
  depth : Nat
  layers : Nat
  generated : Nat
  retained : Nat
  discarded : Nat
  replaced : Nat
  deriving DecidableEq, Repr, Inhabited

/-- Where a search stands. -/
inductive Phase where
  | searching
  | succeeded
  | exhausted
  deriving DecidableEq, Repr, Inhabited

/-- The name of a phase in reports. -/
def Phase.name : Phase → String
  | .searching => "Searching"
  | .succeeded => "Succeeded"
  | .exhausted => "Exhausted"

/-- The terminals every search starts from: constants, variables read at one family, and
`false`. -/
structure Terminals where
  constants : List Int64
  names : List String
  variableTy : Ty
  deriving DecidableEq, Repr, Inhabited

/-- The counters a search keeps besides its bank. -/
structure Counters where
  depth : Nat
  layers : Nat
  generated : Nat
  discarded : Nat
  replaced : Nat
  deriving DecidableEq, Repr, Inhabited

/-- Counts one candidate handed to the bank and what happened to it. -/
def Counters.record (c : Counters) (ins : Insertion) : Counters :=
  { c with
    generated := c.generated + 1
    discarded := if ins = .discarded then c.discarded + 1 else c.discarded
    replaced := if ins = .replaced then c.replaced + 1 else c.replaced }

/-- Counts a batch of candidates handed to the bank. -/
def Counters.recordAll (c : Counters) (observed : Array Insertion) : Counters :=
  observed.foldl Counters.record c

/-- Visits the tuples that take one item from each pool, the first position varying
slowest, until `stop` holds. -/
def foldTuples {σ α ε : Type} (stop : σ → Bool) (visit : σ → List α → Except ε σ) :
    List (List α) → List α → σ → Except ε σ
  | [], chosen, s => visit s chosen.reverse
  | pool :: rest, chosen, s =>
      pool.foldlM (fun s a => if stop s then pure s else foldTuples stop visit rest (a :: chosen) s) s

/-- A layered bottom-up search: every layer combines the candidates retained so far
through each operator of the grammar, in catalog order, until some candidate matches all
the examples or the depth bound is reached. -/
structure Enumerator where
  grammar : ResolvedGrammar
  examples : List Example
  policy : Policy
  maxDepth : Nat
  bank : Bank
  counters : Counters

namespace Enumerator

/-- The examples' outputs. -/
def expected (e : Enumerator) : List Value :=
  e.examples.map (·.output)

/-- The statistics so far. -/
def stats (e : Enumerator) : Stats :=
  ⟨e.counters.depth, e.counters.layers, e.counters.generated, e.bank.size,
    e.counters.discarded, e.counters.replaced⟩

/-- Succeeded once a winner is set, else exhausted once the depth bound is reached. -/
def phase (e : Enumerator) : Phase :=
  if e.bank.winner.isSome then .succeeded
  else if e.counters.depth ≥ e.maxDepth then .exhausted
  else .searching

/-- The terminals as candidates to build: constants, then variables, then `false`. -/
def seeds (t : Terminals) : List (Expr × Ty) :=
  t.constants.map (fun n => (.const n, .int)) ++
    t.names.map (fun v => (.var v t.variableTy, t.variableTy)) ++ [(.falseLit, .bool)]

/-- Starts a search with the terminals in the bank. Evaluating a terminal can fail only
for a variable that an example leaves unbound, and only before a winner is found. -/
def start (grammar : ResolvedGrammar) (terminals : Terminals) (examples : List Example)
    (maxDepth : Nat) (policy : Policy) (tieBreak : TieBreak) : Except EvalError Enumerator :=
  let batch := (Bank.empty tieBreak).insertAll (seeds terminals)
    fun (expr, ty) => Candidate.ofExpr expr ty examples
  match batch.failure with
  | some err => .error err
  | none =>
      .ok ⟨grammar, examples, policy, maxDepth, batch.bank,
        Counters.recordAll ⟨1, 0, 0, 0, 0⟩ batch.observed⟩

/-- Hands the candidates of one operator to the bank: one per tuple of its argument
pools, taken from the bank as it is when the operator's turn comes. -/
def passOp (expected : List Value) (policy : Policy) (op : Operator) (s : Bank × Counters) :
    Except EvalError (Bank × Counters) :=
  let pools := policy.pools op s.1
  foldTuples (fun s => s.1.winner.isSome)
    (fun s args =>
      match s with
      | (bank, counters) =>
          match Candidate.node? op.kind op.ret expected args with
          | none => .ok (bank, counters)
          | some (.error err) => .error err
          | some (.ok c) =>
              let (bank, ins) := bank.insert c
              .ok (bank, counters.record ins))
    pools [] s

/-- Runs every operator that takes arguments once, in catalog order, stopping at a
winner. -/
def addLayer (e : Enumerator) : Except EvalError Enumerator :=
  match e with
  | ⟨grammar, examples, policy, maxDepth, bank, counters⟩ => do
      let expected := examples.map (·.output)
      let (bank, counters) ← grammar.ops.foldlM (fun s op =>
          if s.1.winner.isSome ∨ op.arity = 0 then pure s
          else passOp expected policy op s) (bank, counters)
      pure ⟨grammar, examples, policy, maxDepth, bank, counters⟩

/-- Builds the next layer, unless the search is over; returns the phase after. -/
def step (e : Enumerator) : Except EvalError (Enumerator × Phase) :=
  if e.phase ≠ .searching then .ok (e, e.phase)
  else do
    let e ← e.addLayer
    let e := { e with counters := { e.counters with
      depth := e.counters.depth + 1, layers := e.counters.layers + 1 } }
    pure (e, e.phase)

/-- Steps while the search is on, at most `n` times. -/
def stepWhile : Nat → Enumerator → Except EvalError Enumerator
  | 0, e => .ok e
  | n + 1, e =>
      if e.phase = .searching then do
        let (e, _) ← e.step
        stepWhile n e
      else .ok e

/-- Steps until the search is over, and returns the winner, if any, with the statistics.
Each step raises the depth by one, so the bound on the depth is a bound on the steps. -/
def run (e : Enumerator) : Except EvalError (Option Candidate × Stats) := do
  let e ← stepWhile e.maxDepth e
  pure (e.bank.winner, e.stats)

end Enumerator

end ExprSynth
