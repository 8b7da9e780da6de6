/-!
# Text of a given length

Lengths count characters. A text that is too long ends in an ellipsis.
-/

namespace RevisionGraph.Text

/-- The first `limit` characters, the last of them an ellipsis when something is cut off. -/
def truncate (text : String) (limit : Nat) : String :=
  if text.length ≤ limit then
    text
  else if limit = 0 then
    ""
  else
    String.ofList (text.toList.take (limit - 1) ++ ['…'])

def spaces (n : Nat) : String :=
  String.ofList (List.replicate n ' ')

def fit (text : String) (width : Nat) : String :=
  let shown := truncate text width
  shown ++ spaces (width - shown.length)

def alignRight (text : String) (width : Nat) : String :=
  spaces (width - text.length) ++ text

theorem length_spaces (n : Nat) : (spaces n).length = n := by
  simp [spaces]

theorem length_truncate_le (text : String) (limit : Nat) :
    (truncate text limit).length ≤ limit := by
  unfold truncate
  split
  · assumption
  · split
    · exact Nat.zero_le _
    · simp only [String.length_ofList, List.length_append, List.length_take, List.length_cons,
        List.length_nil]
      omega

theorem length_fit (text : String) (width : Nat) : (fit text width).length = width := by
  have h := length_truncate_le text width
  simp only [fit, String.length_append, length_spaces]
  omega

end RevisionGraph.Text
