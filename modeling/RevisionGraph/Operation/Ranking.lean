import RevisionGraph.Text.Similarity

/-!
# Ranking suggestions

Suggestions that go on a name come first, the shortest of them at the front. Then come the others
that are similar enough to the name, the most similar at the front. The texts themselves decide
between equals, so the ranking does not depend on the order of the suggestions.
-/

namespace RevisionGraph.Ranking

def continues (name suggestion : String) : Bool :=
  name.toList.isPrefixOf suggestion.toList && suggestion != name

def shorter (s t : String) : Bool :=
  s.utf8ByteSize < t.utf8ByteSize || (s.utf8ByteSize == t.utf8ByteSize && decide (s ≤ t))

variable {α : Type}

def closer (le : α → α → Bool) (score : String → α) (s t : String) : Bool :=
  !le (score s) (score t) || (le (score t) (score s) && decide (s ≤ t))

/-- The name itself is no suggestion. -/
def rankWith (le : α → α → Bool) (threshold : α) (score : String → α) (name : String)
    (suggestions : List String) : List String :=
  let near (s : String) : Bool := s != name && !continues name s && le threshold (score s)
  (suggestions.filter (continues name)).mergeSort shorter ++
    (suggestions.filter near).mergeSort (closer le score)

def threshold : Rat :=
  1 / 2

def rank (name : String) (suggestions : List String) : List String :=
  rankWith (fun a b => decide (a ≤ b)) threshold (Text.similarity name) name suggestions

end RevisionGraph.Ranking
