/-!
# Keys and mouse events
-/

namespace RevisionGraph

inductive KeyCode where
  | char (c : Char)
  | enter
  | esc
  | tab
  | backtab
  | up
  | down
  | left
  | right
  | home
  | endKey
  | pageUp
  | pageDown
  | backspace
  | delete
  | insert
  | function (n : Nat)
  deriving DecidableEq, Repr

structure Key where
  code : KeyCode
  ctrl : Bool
  alt : Bool
  shift : Bool
  deriving DecidableEq, Repr

def Key.plain (code : KeyCode) : Key :=
  ⟨code, false, false, false⟩

inductive MouseButton where
  | left
  | right
  deriving DecidableEq, Repr

inductive MouseKind where
  | down (button : MouseButton)
  | up (button : MouseButton)
  | drag (button : MouseButton)
  | moved
  | scrollDown
  | scrollUp
  | scrollLeft
  | scrollRight
  deriving DecidableEq, Repr

structure MouseEvent where
  kind : MouseKind
  x : Nat
  y : Nat
  deriving DecidableEq, Repr

structure KeyHint where
  key : String
  help : String
  deriving DecidableEq, Repr

end RevisionGraph
