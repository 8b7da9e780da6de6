/-!
# Styles of terminal text

A style may set a foreground and a background, adds modifiers and takes modifiers away. Patching one
style with another applies the second on top of the first. A pen is what a cell or a run of output
finally carries: colours and the modifiers that are on.
-/

namespace RevisionGraph

/-- One of the sixteen basic colours: black, red, green, yellow, blue, magenta, cyan and white, then
their bright forms. -/
abbrev AnsiColor := Fin 16

namespace AnsiColor

def red : AnsiColor := 1
def green : AnsiColor := 2
def yellow : AnsiColor := 3
def magenta : AnsiColor := 5
def cyan : AnsiColor := 6
def white : AnsiColor := 7
def brightBlack : AnsiColor := 8

end AnsiColor

inductive Color where
  | reset
  | ansi (color : AnsiColor)
  | indexed (index : UInt8)
  | rgb (red green blue : UInt8)
  deriving DecidableEq, Repr

/-! ## Modifiers -/

inductive Modifier where
  | bold
  | dim
  | italic
  | underlined
  | slowBlink
  | rapidBlink
  | reversed
  | hidden
  | crossedOut
  deriving DecidableEq, Repr

def Modifier.all : List Modifier :=
  [.bold, .dim, .italic, .underlined, .slowBlink, .rapidBlink, .reversed, .hidden, .crossedOut]

theorem Modifier.mem_all (m : Modifier) : m ∈ Modifier.all := by
  cases m <;> decide

structure Modifiers where
  bold : Bool
  dim : Bool
  italic : Bool
  underlined : Bool
  slowBlink : Bool
  rapidBlink : Bool
  reversed : Bool
  hidden : Bool
  crossedOut : Bool
  deriving DecidableEq, Repr

namespace Modifiers

def has (s : Modifiers) : Modifier → Bool
  | .bold => s.bold
  | .dim => s.dim
  | .italic => s.italic
  | .underlined => s.underlined
  | .slowBlink => s.slowBlink
  | .rapidBlink => s.rapidBlink
  | .reversed => s.reversed
  | .hidden => s.hidden
  | .crossedOut => s.crossedOut

def ofPred (p : Modifier → Bool) : Modifiers :=
  ⟨p .bold, p .dim, p .italic, p .underlined, p .slowBlink, p .rapidBlink, p .reversed, p .hidden,
    p .crossedOut⟩

@[simp] theorem has_ofPred (p : Modifier → Bool) (m : Modifier) : (ofPred p).has m = p m := by
  cases m <;> rfl

theorem ext_has {s t : Modifiers} (h : ∀ m, s.has m = t.has m) : s = t := by
  cases s
  cases t
  simp only [mk.injEq]
  exact ⟨h .bold, h .dim, h .italic, h .underlined, h .slowBlink, h .rapidBlink, h .reversed,
    h .hidden, h .crossedOut⟩

def empty : Modifiers :=
  ofPred fun _ => false

def ofList (ms : List Modifier) : Modifiers :=
  ofPred fun m => decide (m ∈ ms)

def toList (s : Modifiers) : List Modifier :=
  Modifier.all.filter s.has

def union (s t : Modifiers) : Modifiers :=
  ofPred fun m => s.has m || t.has m

def diff (s t : Modifiers) : Modifiers :=
  ofPred fun m => s.has m && !t.has m

@[simp] theorem has_empty (m : Modifier) : empty.has m = false :=
  has_ofPred _ m

@[simp] theorem has_ofList (ms : List Modifier) (m : Modifier) :
    (ofList ms).has m = decide (m ∈ ms) :=
  has_ofPred _ m

@[simp] theorem has_union (s t : Modifiers) (m : Modifier) :
    (s.union t).has m = (s.has m || t.has m) :=
  has_ofPred _ m

@[simp] theorem has_diff (s t : Modifiers) (m : Modifier) :
    (s.diff t).has m = (s.has m && !t.has m) :=
  has_ofPred _ m

theorem mem_toList (s : Modifiers) (m : Modifier) : m ∈ s.toList ↔ s.has m = true := by
  simp [toList, Modifier.mem_all]

@[simp] theorem ofList_toList (s : Modifiers) : ofList s.toList = s := by
  apply ext_has
  intro m
  cases h : s.has m <;> simp [mem_toList, h]

end Modifiers

/-! ## Styles -/

structure Style where
  fg : Option Color
  bg : Option Color
  added : Modifiers
  removed : Modifiers
  deriving DecidableEq, Repr

namespace Style

def plain : Style :=
  ⟨none, none, .empty, .empty⟩

def withFg (s : Style) (c : Color) : Style :=
  { s with fg := some c }

def withBg (s : Style) (c : Color) : Style :=
  { s with bg := some c }

def withModifier (s : Style) (m : Modifier) : Style :=
  { s with added := s.added.union (.ofList [m]), removed := s.removed.diff (.ofList [m]) }

def withoutModifier (s : Style) (m : Modifier) : Style :=
  { s with added := s.added.diff (.ofList [m]), removed := s.removed.union (.ofList [m]) }

def patch (s top : Style) : Style where
  fg := top.fg <|> s.fg
  bg := top.bg <|> s.bg
  added := (s.added.diff top.removed).union top.added
  removed := (s.removed.diff top.added).union top.removed

@[simp] theorem patch_plain (s : Style) : s.patch plain = s := by
  cases s
  simp only [patch, plain, mk.injEq]
  refine ⟨rfl, rfl, ?_, ?_⟩ <;> (apply Modifiers.ext_has; simp)

end Style

/-! ## Pens -/

structure Pen where
  fg : Option Color
  bg : Option Color
  modifiers : Modifiers
  deriving DecidableEq, Repr

namespace Pen

def default : Pen :=
  ⟨none, none, .empty⟩

def style (p : Pen) : Style :=
  ⟨p.fg, p.bg, p.modifiers, .empty⟩

theorem style_inj {p q : Pen} : p.style = q.style ↔ p = q := by
  cases p
  cases q
  simp [style]

def apply (p : Pen) (s : Style) : Pen where
  fg := s.fg <|> p.fg
  bg := s.bg <|> p.bg
  modifiers := (p.modifiers.union s.added).diff s.removed

end Pen

end RevisionGraph
