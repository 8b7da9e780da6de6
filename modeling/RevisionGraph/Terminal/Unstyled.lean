/-!
# Text without graphic renditions

Takes out of a text every control sequence that sets a graphic rendition and has digits and
semicolons only as its parameters. All other characters stay.
-/

namespace RevisionGraph.Unstyled

/-- What has been read of a sequence that may turn out to be a graphic rendition. -/
inductive State where
  | text
  | escape
  | control (reversed : List Char)
  deriving DecidableEq, Repr

/-- The characters that stay if the sequence goes no further. -/
def State.held : State → List Char
  | .text => []
  | .escape => ['\x1B']
  | .control reversed => '\x1B' :: '[' :: reversed.reverse

def isParameter (c : Char) : Bool :=
  c.isDigit || c == ';'

def fresh (c : Char) : State × List Char :=
  if c = '\x1B' then (.escape, []) else (.text, [c])

def release (s : State) (c : Char) : State × List Char :=
  ((fresh c).1, s.held ++ (fresh c).2)

def State.step : State → Char → State × List Char
  | .text, c => fresh c
  | .escape, c => if c = '[' then (.control [], []) else release .escape c
  | .control reversed, c =>
      if c = 'm' then (.text, [])
      else if isParameter c then (.control (c :: reversed), [])
      else release (.control reversed) c

def State.run : State → List Char → List Char
  | s, [] => s.held
  | s, c :: cs => (s.step c).2 ++ (s.step c).1.run cs

end RevisionGraph.Unstyled

namespace RevisionGraph

def unstyled (cs : List Char) : List Char :=
  Unstyled.State.run .text cs

end RevisionGraph
