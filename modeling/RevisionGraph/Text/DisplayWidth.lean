import RevisionGraph.Text.CharRange
import RevisionGraph.Text.Ligature
import RevisionGraph.Text.Picture
import RevisionGraph.Text.WidthTable

/-!
# Display widths

The number of columns that a text takes on the screen. The characters take theirs one after the
other, except where several are shown as one picture or share a column in a ligature. A text is
measured from its end, since what follows a character decides whether it is part of such a sequence.
-/

namespace RevisionGraph.Text

def charWidth (c : Char) : Nat :=
  let n := c.toNat
  if n ≤ 0xA0 then 1
  else if n = 0x17D8 then 3
  else if inRanges n zeroWidthRanges then 0
  else if inRanges n wideRanges then 2
  else 1

/-! ## What follows a character -/

inductive Following where
  | other
  | lineFeed
  | pictures (t : PictureTail)
  | ligature (t : LigatureTail)
  deriving DecidableEq, Repr

namespace Following

def ofChar (c : Char) : Following :=
  if c = '\n' then .lineFeed
  else if c.toNat ≤ 0xA0 then .other
  else
    match PictureTail.ofChar? c, LigatureTail.ofChar? c with
    | some t, _ => .pictures t
    | none, some t => .ligature t
    | none, none => .other

/-- The columns that a character adds when it goes on a sequence, and what begins with it. -/
def before? (f : Following) (c : Char) : Option (Int × Following) :=
  match f with
  | .other => none
  | .lineFeed => if c = '\r' then some (0, .other) else none
  | .pictures t => (t.before? c).map fun (width, t) => (width, .pictures t)
  | .ligature t =>
      (t.before? (charWidth c) c).map fun (width, t) => (width, t.elim .other .ligature)

end Following

inductive Selector where
  | text
  | picture
  deriving DecidableEq, Repr

/-! ## Texts -/

/-- A measured text. When it begins with a selector, `following` is what comes after that. -/
structure Measured where
  width : Int
  selector : Option Selector
  following : Following
  deriving DecidableEq, Repr

namespace Measured

def empty : Measured :=
  ⟨0, none, .other⟩

def isJoined (m : Measured) : Bool :=
  m.following = .pictures .joined || m.following = .pictures .joinedKeycap

def base (m : Measured) : Following :=
  match m.selector, m.following with
  | none, f => f
  | some _, .ligature t => .ligature t
  | some _, _ => .other

def select (m : Measured) (s : Selector) : Measured :=
  match m.base with
  | .ligature t => ⟨m.width, some s, .ligature t⟩
  | .pictures t =>
      if s = .picture ∧ (t = .joined ∨ t = .joinedKeycap) then ⟨m.width, some s, .pictures t⟩
      else ⟨m.width, some s, .other⟩
  | _ => ⟨m.width, some s, .other⟩

def put (m : Measured) (c : Char) : Measured :=
  match m.base.before? c with
  | some (width, f) => ⟨m.width + width, none, f⟩
  | none => ⟨m.width + charWidth c, none, .ofChar c⟩

def add (c : Char) (m : Measured) : Measured :=
  if m.selector = some .picture ∧ isSelectable c then
    ⟨m.width + (if m.isJoined then 0 else 2), none, .pictures .picture⟩
  else if c = pictureSelector then m.select .picture
  else if c = textSelector then m.select .text
  else if m.selector = some .text ∧ isNarrowed c then ⟨m.width + 1, none, .other⟩
  else m.put c

def ofChars (cs : List Char) : Measured :=
  cs.foldr add empty

@[simp] theorem ofChars_nil : ofChars [] = empty :=
  rfl

@[simp] theorem ofChars_cons (c : Char) (cs : List Char) :
    ofChars (c :: cs) = (ofChars cs).add c :=
  rfl

end Measured

def textWidth (cs : List Char) : Nat :=
  (Measured.ofChars cs).width.toNat

@[simp] theorem textWidth_nil : textWidth [] = 0 :=
  rfl

end RevisionGraph.Text
