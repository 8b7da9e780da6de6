import RevisionGraph.Terminal.Style

/-!
# Select graphic rendition

The parameters of the control sequence that sets colours and modifiers. Parameters are separated by
semicolons or colons. Most codes stand for themselves; 38 and 48 choose a colour by the codes that
follow: 5 and an index, or 2 and three channels. The codes are read one at a time, with what an
open colour choice still expects kept between them.
-/

namespace RevisionGraph.Sgr

/-! ## Parameters -/

def maxValue : Nat :=
  4294967295

def isSeparator (b : UInt8) : Bool :=
  b == 0x3B || b == 0x3A

def isDigit (b : UInt8) : Bool :=
  0x30 ≤ b && b ≤ 0x39

/-- The digits that a parameter begins with; none of them means 0. -/
def value (bytes : List UInt8) : Nat :=
  (bytes.takeWhile isDigit).foldl
    (fun n b => min (min (n * 10) maxValue + (b.toNat - 0x30)) maxValue) 0

def parameters (bytes : List UInt8) : List Nat :=
  (bytes.splitOnP isSeparator).map value

/-! ## Codes -/

inductive Layer where
  | foreground
  | background
  deriving DecidableEq, Repr

inductive Expecting where
  | code
  | mode (layer : Layer)
  | index (layer : Layer)
  | red (layer : Layer)
  | green (layer : Layer) (r : UInt8)
  | blue (layer : Layer) (r g : UInt8)
  deriving DecidableEq, Repr

structure State where
  pen : Pen
  expecting : Expecting
  deriving DecidableEq, Repr

def setLayer (pen : Pen) (color : Option Color) : Layer → Pen
  | .foreground => { pen with fg := color }
  | .background => { pen with bg := color }

def turnOn (pen : Pen) (m : Modifier) : Pen :=
  { pen with modifiers := pen.modifiers.union (.ofList [m]) }

def turnOff (pen : Pen) (ms : List Modifier) : Pen :=
  { pen with modifiers := pen.modifiers.diff (.ofList ms) }

def byte (n : Nat) : UInt8 :=
  UInt8.ofNat (min n 255)

def basicColor (n : Nat) : Color :=
  .ansi ⟨n % 8, by omega⟩

def brightColor (n : Nat) : Color :=
  .ansi ⟨8 + n % 8, by omega⟩

def applyCode (pen : Pen) (code : Nat) : State :=
  match code with
  | 0 => ⟨.default, .code⟩
  | 1 => ⟨turnOn pen .bold, .code⟩
  | 2 => ⟨turnOn pen .dim, .code⟩
  | 3 => ⟨turnOn pen .italic, .code⟩
  | 4 => ⟨turnOn pen .underlined, .code⟩
  | 5 => ⟨turnOn pen .slowBlink, .code⟩
  | 6 => ⟨turnOn pen .rapidBlink, .code⟩
  | 7 => ⟨turnOn pen .reversed, .code⟩
  | 8 => ⟨turnOn pen .hidden, .code⟩
  | 9 => ⟨turnOn pen .crossedOut, .code⟩
  | 22 => ⟨turnOff pen [.bold, .dim], .code⟩
  | 23 => ⟨turnOff pen [.italic], .code⟩
  | 24 => ⟨turnOff pen [.underlined], .code⟩
  | 25 => ⟨turnOff pen [.slowBlink, .rapidBlink], .code⟩
  | 27 => ⟨turnOff pen [.reversed], .code⟩
  | 28 => ⟨turnOff pen [.hidden], .code⟩
  | 29 => ⟨turnOff pen [.crossedOut], .code⟩
  | 38 => ⟨pen, .mode .foreground⟩
  | 39 => ⟨setLayer pen none .foreground, .code⟩
  | 48 => ⟨pen, .mode .background⟩
  | 49 => ⟨setLayer pen none .background, .code⟩
  | n =>
      if 30 ≤ n ∧ n ≤ 37 then ⟨setLayer pen (some (basicColor (n - 30))) .foreground, .code⟩
      else if 40 ≤ n ∧ n ≤ 47 then ⟨setLayer pen (some (basicColor (n - 40))) .background, .code⟩
      else if 90 ≤ n ∧ n ≤ 97 then ⟨setLayer pen (some (brightColor (n - 90))) .foreground, .code⟩
      else if 100 ≤ n ∧ n ≤ 107 then
        ⟨setLayer pen (some (brightColor (n - 100))) .background, .code⟩
      else ⟨pen, .code⟩

/-- A mode other than 5 and 2 leaves the colour as it is and is a code of its own. -/
def State.step (s : State) (n : Nat) : State :=
  match s.expecting with
  | .code => applyCode s.pen n
  | .mode layer =>
      if n = 5 then ⟨s.pen, .index layer⟩
      else if n = 2 then ⟨s.pen, .red layer⟩
      else applyCode s.pen n
  | .index layer => ⟨setLayer s.pen (some (.indexed (byte n))) layer, .code⟩
  | .red layer => ⟨s.pen, .green layer (byte n)⟩
  | .green layer r => ⟨s.pen, .blue layer r (byte n)⟩
  | .blue layer r g => ⟨setLayer s.pen (some (.rgb r g (byte n))) layer, .code⟩

def State.run (s : State) (codes : List Nat) : State :=
  codes.foldl State.step s

/-- The pen after a control sequence with these parameter bytes. A colour choice that lacks codes
changes nothing. -/
def apply (pen : Pen) (bytes : List UInt8) : Pen :=
  (State.run ⟨pen, .code⟩ (parameters bytes)).pen

@[simp] theorem State.run_append (s : State) (p q : List Nat) :
    s.run (p ++ q) = (s.run p).run q :=
  List.foldl_append

end RevisionGraph.Sgr
