import ExprSynth.Bank

/-!
The list-scan bank: the plain statement of what the equivalence bank does. It keeps the
retained candidates in a list and finds an equivalent one by scanning it from the front,
where `Bank` looks values up in its index. The two agree on every insertion.
-/

namespace ExprSynth

/-- The retained candidates before the first one with the values `outputs`, that
candidate, and the ones after it; `none` when no candidate has those values. -/
def splitAtOutputs (outputs : List Value) :
    List Candidate → Option (List Candidate × Candidate × List Candidate)
  | [] => none
  | c :: rest =>
      if c.outputs = outputs then some ([], c, rest)
      else (splitAtOutputs outputs rest).map fun (pre, hit, post) => (c :: pre, hit, post)

/-- A bank held as a list of retained candidates, the first candidate that matched every
example, and the tie break. -/
structure ScanBank where
  retained : List Candidate
  winner : Option Candidate
  tieBreak : TieBreak

namespace ScanBank

/-- An empty bank that settles ties with `tieBreak`. -/
def empty (tieBreak : TieBreak) : ScanBank :=
  ⟨[], none, tieBreak⟩

/-- Hands a candidate to the bank. Once a winner is set nothing changes; a successful
candidate becomes the winner; otherwise the first retained candidate with the same values
is looked for: with none the candidate is appended, and with one the tie break either
discards the new candidate or removes the old one and appends the new. -/
def insert (b : ScanBank) (c : Candidate) : ScanBank × Insertion :=
  match b.winner with
  | some _ => (b, .frozen)
  | none =>
      if c.success then ({ b with winner := some c }, .winner)
      else
        match splitAtOutputs c.outputs b.retained with
        | none => ({ b with retained := b.retained ++ [c] }, .retained)
        | some (pre, old, post) =>
            match b.tieBreak.choose c old with
            | .existing => (b, .discarded)
            | .new => ({ b with retained := pre ++ post ++ [c] }, .replaced)

end ScanBank

end ExprSynth
