import RevisionGraph.Key
import RevisionGraph.Operation.Ranking
import RevisionGraph.Text.Blank
import RevisionGraph.View.Decoration

/-!
# Entering a name

One line of text with a cursor and suggestions. The text stays as it was typed; blanks become
hyphens where it is shown and where the name is taken.
-/

namespace RevisionGraph

structure NameInput where
  value : List Char
  cursor : Nat
  suggestions : List String
  deriving DecidableEq, Repr

namespace NameInput

def limit : Nat :=
  120

def empty : NameInput :=
  ⟨[], 0, []⟩

def setValue (n : NameInput) (text : List Char) : NameInput :=
  let value := text.take limit
  { n with value := value, cursor := value.length }

def clear (n : NameInput) : NameInput :=
  { n with value := [], cursor := 0 }

def normalize (text : List Char) : List Char :=
  List.intercalate ['-'] (Text.words text)

def name (n : NameInput) : String :=
  String.ofList (normalize n.value)

/-! ## Suggestions -/

/-- Without a name all suggestions are listed as they came. -/
def ranked (n : NameInput) : List String :=
  if n.name.isEmpty then n.suggestions else Ranking.rank n.name n.suggestions

/-- What the best suggestion has after the name, if the cursor is at the end of the text. -/
def completion (n : NameInput) : Option String :=
  if n.name.isEmpty ∨ n.cursor ≠ n.value.length then none
  else do
    let best ← n.ranked.head?
    let rest ← n.name.toList.isPrefixOf? best.toList
    if rest.isEmpty then none else some (String.ofList rest)

def accept (n : NameInput) : NameInput × Bool :=
  match n.ranked.head? with
  | none => (n, false)
  | some best => (n.setValue best.toList, true)

/-- The text with each blank as a hyphen, then the completion. -/
def view (n : NameInput) : List Decoration :=
  let shown := n.value.map fun c => if Text.isBlank c then '-' else c
  .plain (String.ofList shown) :: (n.completion.map Decoration.dimmed).toList

/-! ## Editing -/

def insert (n : NameInput) (c : Char) : NameInput × Bool :=
  if limit ≤ n.value.length then (n, false)
  else ({ n with value := n.value.insertIdx n.cursor c, cursor := n.cursor + 1 }, true)

def deleteBefore (n : NameInput) : NameInput × Bool :=
  if n.cursor = 0 then (n, false)
  else ({ n with value := n.value.eraseIdx (n.cursor - 1), cursor := n.cursor - 1 }, true)

def deleteAfter (n : NameInput) : NameInput × Bool :=
  if n.value.length ≤ n.cursor then (n, false)
  else ({ n with value := n.value.eraseIdx n.cursor }, true)

def moveTo (n : NameInput) (cursor : Nat) : NameInput × Bool :=
  ({ n with cursor := cursor }, true)

def handleChar (n : NameInput) (key : Key) (c : Char) : NameInput × Bool :=
  if key.ctrl then
    if c = 'u' then (n.clear, true)
    else if c = 'a' then n.moveTo 0
    else if c = 'e' then n.moveTo n.value.length
    else (n, false)
  else if key.alt ∨ Text.isControl c then (n, false)
  else n.insert c

/-- True when the key edited the text or may have moved the cursor. -/
def handleKey (n : NameInput) (key : Key) : NameInput × Bool :=
  match key.code with
  | .char c => n.handleChar key c
  | .backspace => n.deleteBefore
  | .delete => n.deleteAfter
  | .left => n.moveTo (n.cursor - 1)
  | .right => n.moveTo (min (n.cursor + 1) n.value.length)
  | .home => n.moveTo 0
  | .endKey => n.moveTo n.value.length
  | .tab => n.accept
  | _ => (n, false)

end NameInput

end RevisionGraph
