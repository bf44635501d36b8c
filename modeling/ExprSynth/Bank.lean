import Std.Data.HashMap
import ExprSynth.Candidate

/-!
The observational-equivalence bank. It retains at most one candidate per list of values,
in the order they arrived, and freezes once a candidate succeeds. Of two equivalent
candidates a tie break keeps one; keeping the new one moves it to the end. `insertAll`
hands a sequence of candidates to the bank and reports how many items it took.
-/

namespace ExprSynth

/-- Which of two equivalent candidates stays. -/
inductive Keep where
  | new
  | existing
  deriving DecidableEq, Repr, Inhabited

/-- A rule that picks, of a new candidate and the retained one it is equivalent to, the
one to keep. It is only asked about candidates with equal values. -/
structure TieBreak where
  choose : Candidate → Candidate → Keep

namespace TieBreak

/-- Keeps the candidate found first. Candidates are handed over layer by layer, but the
pools of a layer's later operators hold what its earlier ones built, so the first of two
equivalent candidates may be the deeper one. -/
def keepExisting : TieBreak := ⟨fun _ _ => .existing⟩

/-- Keeps the candidate found last. -/
def keepNew : TieBreak := ⟨fun _ _ => .new⟩

end TieBreak

/-- What happened to a candidate handed to the bank. -/
inductive Insertion where
  | winner
  | retained
  | replaced
  | discarded
  | frozen
  deriving DecidableEq, Repr, Inhabited

/-- The name of an insertion outcome in reports. -/
def Insertion.name : Insertion → String
  | .winner => "Winner"
  | .retained => "Retained"
  | .replaced => "Replaced"
  | .discarded => "Discarded"
  | .frozen => "Frozen"

/-- The observational equivalence bank: at most one retained candidate per list of
values, in the order they were retained, and the first candidate that matched every
example. `index` maps the values of each retained candidate to its position. -/
structure Bank where
  retained : Array Candidate
  index : Std.HashMap (List Value) Nat
  winner : Option Candidate
  tieBreak : TieBreak

namespace Bank

/-- An empty bank that settles ties with `tieBreak`. -/
def empty (tieBreak : TieBreak) : Bank :=
  ⟨#[], ∅, none, tieBreak⟩

/-- The retained candidates, in order. -/
def toList (b : Bank) : List Candidate :=
  b.retained.toList

/-- The number of retained candidates. -/
def size (b : Bank) : Nat :=
  b.retained.size

/-- Whether a winner is set; the bank then no longer changes. -/
def frozen (b : Bank) : Bool :=
  b.winner.isSome

/-- Records in `index` the positions of the candidates of `retained` from `pos` on. -/
def reindex (retained : Array Candidate) (index : Std.HashMap (List Value) Nat) (pos : Nat) :
    Std.HashMap (List Value) Nat :=
  if h : pos < retained.size then
    reindex retained (index.insert retained[pos].outputs pos) (pos + 1)
  else index
termination_by retained.size - pos

/-- Appends a candidate and records its position. -/
def append (b : Bank) (c : Candidate) : Bank :=
  match b with
  | ⟨retained, index, winner, tieBreak⟩ =>
      let pos := retained.size
      ⟨retained.push c, index.insert c.outputs pos, winner, tieBreak⟩

/-- Removes the candidate at `pos` and moves the later ones down by one. -/
def removeAt (b : Bank) (pos : Nat) : Bank :=
  match b with
  | ⟨retained, index, winner, tieBreak⟩ =>
      let kept := retained.eraseIdxIfInBounds pos
      ⟨kept, reindex kept index pos, winner, tieBreak⟩

/-- Hands a candidate to the bank. Once a winner is set nothing changes. A successful
candidate becomes the winner. A candidate with new values is retained at the end. One
equivalent to a retained candidate is discarded, or, when the tie break prefers it, the
retained one is removed and the new one appended. -/
def insert (b : Bank) (c : Candidate) : Bank × Insertion :=
  if b.winner.isSome then (b, .frozen)
  else if c.success then ({ b with winner := some c }, .winner)
  else
    match b.index.get? c.outputs with
    | none => (b.append c, .retained)
    | some pos =>
        match b.retained[pos]? with
        | none => (b.append c, .retained)
        | some old =>
            match b.tieBreak.choose c old with
            | .existing => (b, .discarded)
            | .new => ((b.removeAt pos).append c, .replaced)

/-- The outcome of handing a sequence of candidates to the bank: the bank after, what
happened to each inserted candidate, how many items were taken from the sequence, and
the error of the item whose candidate could not be built, if any. -/
structure Batch (ε : Type) where
  bank : Bank
  observed : Array Insertion
  pulled : Nat
  failure : Option ε

/-- Continues a batch with the items `rest`. Each item is taken before the winner check,
so the item after the winner's is taken but neither built into a candidate nor inserted;
an item whose candidate cannot be built ends the batch with its error. -/
def insertAllFrom (build : α → Except ε Candidate) (acc : Batch ε) : List α → Batch ε
  | [] => acc
  | item :: rest =>
      match acc with
      | ⟨bank, observed, pulled, failure⟩ =>
          if bank.winner.isSome then ⟨bank, observed, pulled + 1, failure⟩
          else
            match build item with
            | .error e => ⟨bank, observed, pulled + 1, some e⟩
            | .ok c =>
                let (bank, ins) := bank.insert c
                insertAllFrom build ⟨bank, observed.push ins, pulled + 1, none⟩ rest

/-- Inserts the candidates built from `items`, in order, until a winner is set or a
candidate cannot be built. -/
def insertAll (b : Bank) (items : List α) (build : α → Except ε Candidate) : Batch ε :=
  insertAllFrom build ⟨b, #[], 0, none⟩ items

end Bank

end ExprSynth
