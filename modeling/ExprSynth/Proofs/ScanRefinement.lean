import ExprSynth.Bank.Scan
import ExprSynth.Proofs.BankInvariant

/-! The indexed bank refines the list-scan bank. Read as a list-scan bank, with its retained
candidates in order, its winner and its tie break, a well-formed bank answers every insertion
as the list-scan bank does and is left as the list-scan bank is left. The index lookup finds
the one retained candidate with the new candidate's values; the values of retained candidates
are distinct, so it is also the first one the scan meets, and removing it by position removes
it from between the scan's two halves. -/
namespace ExprSynth

/-! ### Scanning for values -/

theorem splitAtOutputs_eq_none_iff {o : List Value} {l : List Candidate} :
    splitAtOutputs o l = none ↔ ∀ c ∈ l, c.outputs ≠ o := by
  induction l with
  | nil => simp [splitAtOutputs]
  | cons c rest ih => by_cases h : c.outputs = o <;> simp [splitAtOutputs, h, ih]

/-- The scan stops at the candidate at `pos` when it has the values looked for and no
candidate before it has them. -/
theorem splitAtOutputs_of_getElem? {o : List Value} {l : List Candidate} {pos : Nat}
    {c : Candidate} (hpos : l[pos]? = some c) (hc : c.outputs = o)
    (hbefore : ∀ i < pos, ∀ d, l[i]? = some d → d.outputs ≠ o) :
    splitAtOutputs o l = some (l.take pos, c, l.drop (pos + 1)) := by
  induction l generalizing pos with
  | nil => simp at hpos
  | cons d rest ih =>
      cases pos with
      | zero =>
          obtain rfl : d = c := by simpa using hpos
          simp [splitAtOutputs, hc]
      | succ pos =>
          have hd : d.outputs ≠ o := hbefore 0 (by omega) d rfl
          have hrest := ih (by simpa using hpos)
            fun i hi e he => hbefore (i + 1) (by omega) e (by simpa using he)
          simp [splitAtOutputs, hd, hrest]

namespace Bank

/-- A bank read as a list-scan bank: its retained candidates in order, its winner and its
tie break. The index is what the list-scan bank does without. -/
def toScan (b : Bank) : ScanBank :=
  ⟨b.toList, b.winner, b.tieBreak⟩

@[simp] theorem toScan_empty (tb : TieBreak) : (empty tb).toScan = ScanBank.empty tb := rfl

/-- In a well-formed bank the candidate at `pos` is the first one with its values: the
values of retained candidates are distinct. -/
theorem WellFormed.splitAtOutputs_at {b : Bank} (hb : b.WellFormed) {pos : Nat} {old : Candidate}
    (hold : b.toList[pos]? = some old) :
    splitAtOutputs old.outputs b.toList = some (b.toList.take pos, old, b.toList.drop (pos + 1)) := by
  refine splitAtOutputs_of_getElem? hold rfl ?_
  intro i hi d hd heq
  have hkey : b.keys[i]? = some old.outputs := by simp [getElem?_keys, hd, heq]
  have hpos : b.keys[pos]? = some old.outputs := by simp [getElem?_keys, hold]
  have := eq_of_getElem?_of_nodup hb.nodup hkey hpos
  omega

/-- One insertion into a well-formed bank is one insertion into the list-scan bank it reads
as: the same outcome, and the bank after reads as the list-scan bank after. -/
theorem WellFormed.insert_toScan {b : Bank} (hb : b.WellFormed) (c : Candidate) :
    (b.insert c).2 = (b.toScan.insert c).2 ∧ (b.insert c).1.toScan = (b.toScan.insert c).1 := by
  rcases hb.insert_cases c with ⟨hw, h⟩ | ⟨hw, hs, h⟩ | ⟨hw, hs, hnew, h⟩ |
      ⟨pos, old, hw, hs, hold, hout, ⟨hkeep, h⟩ | ⟨hkeep, h⟩⟩ <;> rw [h]
  · obtain ⟨w, hw⟩ := Option.isSome_iff_exists.mp hw
    simp [ScanBank.insert, toScan, hw]
  · simp [ScanBank.insert, toScan, toList, hw, hs]
  · -- values no retained candidate has are not found by the scan either
    have hnone : splitAtOutputs c.outputs b.toList = none :=
      splitAtOutputs_eq_none_iff.mpr fun d hd heq => hnew (heq ▸ List.mem_map_of_mem hd)
    simp [ScanBank.insert, toScan, hw, hs, hnone]
  · have hsplit := hb.splitAtOutputs_at hold
    rw [hout] at hsplit
    simp [ScanBank.insert, toScan, hw, hs, hsplit, hkeep]
  · -- the scan's two halves around the equivalent candidate are the list without it
    have hsplit := hb.splitAtOutputs_at hold
    rw [hout] at hsplit
    simp [ScanBank.insert, toScan, hw, hs, hsplit, hkeep, List.eraseIdx_eq_take_drop_succ]

/-- A run of insertions into a well-formed bank is the same run of insertions into the
list-scan bank it reads as, and keeps the bank well formed. -/
theorem WellFormed.foldl_insert_toScan {b : Bank} (hb : b.WellFormed) (cs : List Candidate) :
    (cs.foldl (fun b c => (b.insert c).1) b).toScan = cs.foldl (fun s c => (s.insert c).1) b.toScan ∧
      (cs.foldl (fun b c => (b.insert c).1) b).WellFormed := by
  induction cs generalizing b with
  | nil => exact ⟨rfl, hb⟩
  | cons c rest ih =>
      simp only [List.foldl_cons]
      rw [← (hb.insert_toScan c).2]
      exact ih (hb.insert c)

/-- The indexed bank refines the list-scan bank, for every tie break. After any sequence of
insertions into empty banks, the two hold the same retained candidates in the same order and
the same winner, and they answer the next insertion alike. -/
theorem insert_refines_scan (tb : TieBreak) (cs : List Candidate) :
    let b := cs.foldl (fun b c => (b.insert c).1) (empty tb)
    let s := cs.foldl (fun s c => (s.insert c).1) (ScanBank.empty tb)
    b.toList = s.retained ∧ b.winner = s.winner ∧ ∀ c, (b.insert c).2 = (s.insert c).2 := by
  intro b s
  obtain ⟨hscan, hwf⟩ := (wellFormed_empty tb).foldl_insert_toScan cs
  rw [toScan_empty] at hscan
  refine ⟨congrArg ScanBank.retained hscan, congrArg ScanBank.winner hscan, fun c => ?_⟩
  rw [(hwf.insert_toScan c).1]
  exact congrArg (fun s : ScanBank => (s.insert c).2) hscan

end Bank

end ExprSynth
