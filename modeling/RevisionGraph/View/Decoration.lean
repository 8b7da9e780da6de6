import RevisionGraph.Terminal.Segment

/-!
# Decorations

Text that panels and operations add to what is drawn. Its style is a name, which the theme turns into
colours.
-/

namespace RevisionGraph

inductive StyleKey where
  | text
  | dimmed
  | markers
  | checked
  | selected
  | title
  | empty
  | error
  | helpKey
  | helpText
  deriving DecidableEq, Repr

inductive Place where
  | beforeChangeId
  | afterRow
  deriving DecidableEq, Repr

structure Decoration where
  text : String
  key : StyleKey
  deriving DecidableEq, Repr

namespace Decoration

def marker (text : String) : Decoration :=
  ⟨text, .markers⟩

def plain (text : String) : Decoration :=
  ⟨text, .text⟩

def dimmed (text : String) : Decoration :=
  ⟨text, .dimmed⟩

def join (ds : List Decoration) : String :=
  String.join (ds.map Decoration.text)

def segment (styles : StyleKey → Style) (d : Decoration) : Segment :=
  ⟨d.text, styles d.key⟩

end Decoration

end RevisionGraph
