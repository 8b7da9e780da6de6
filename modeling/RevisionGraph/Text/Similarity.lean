/-!
# Similarity of texts

Two texts are as similar as their longest common subsequence is long, counted in both of them and
divided by the sum of their lengths.
-/

namespace RevisionGraph.Text

/-- One row of the table of common subsequences. `row` holds the lengths for the text so far
against each end of `bs`, longest end first; the result holds those for `a` put before that text. -/
def subsequenceRow (a : Char) : List Char → List Nat → List Nat
  | b :: bs, here :: row =>
      let after := subsequenceRow a bs row
      let best :=
        if a = b then row.headD 0 + 1 else max here (after.headD 0)
      best :: after
  | _, _ => [0]

def commonLength (as bs : List Char) : Nat :=
  (as.foldr (fun a row => subsequenceRow a bs row) (List.replicate (bs.length + 1) 0)).headD 0

def similarity (s t : String) : Rat :=
  let total := s.length + t.length
  if total = 0 then 1 else ((2 * commonLength s.toList t.toList : Nat) : Rat) / (total : Nat)

end RevisionGraph.Text
