import RevisionGraph.Text.CharRange
import RevisionGraph.Text.JoiningTable
import RevisionGraph.Text.Picture

/-!
# Ligatures

Letters of some scripts share a column with the letter before them. Like pictures, they are read
backwards: from the letter that ends a ligature to the one that begins it. Marks that are not shown
do not come between them.
-/

namespace RevisionGraph.Text

/-! ## Arabic -/

def isAlef (c : Char) : Bool :=
  let n := c.toNat
  n == 0x622 || n == 0x623 || n == 0x625 || n == 0x627 || (0x671 ≤ n && n ≤ 0x673) || n == 0x675 ||
    n == 0x773 || n == 0x774 || (0x870 ≤ n && n ≤ 0x882)

def isLam (c : Char) : Bool :=
  let n := c.toNat
  n == 0x644 || (0x6B5 ≤ n && n ≤ 0x6B8) || n == 0x76A || n == 0x8A6 || n == 0x8C7

/-! ## Other scripts -/

def isSubscribed (c : Char) : Bool :=
  inRanges c.toNat
    [(0x1780, 0x1782), (0x1784, 0x1787), (0x1789, 0x178C), (0x178E, 0x1793), (0x1795, 0x1798),
      (0x179B, 0x179D), (0x17A0, 0x17A0), (0x17A2, 0x17A2), (0x17A7, 0x17A7), (0x17AB, 0x17AC),
      (0x17AF, 0x17AF)]

def coeng : Char := '\u17D2'

def isConjoining (c : Char) : Bool :=
  (0x2D31 ≤ c.toNat && c.toNat ≤ 0x2D65) || c.toNat == 0x2D6F

def consonantJoiner : Char := '\u2D7F'

def endsTone (c : Char) : Bool :=
  0xA4FC ≤ c.toNat && c.toNat ≤ 0xA4FD

def beginsTone (c : Char) : Bool :=
  0xA4F8 ≤ c.toNat && c.toNat ≤ 0xA4FB

def isHiddenMark (c : Char) : Bool :=
  let n := c.toNat
  n == 0x34F || n == 0x17B4 || n == 0x17B5 || (0x180B ≤ n && n ≤ 0x180D) || n == 0x180F ||
    (0xFE00 ≤ n && n ≤ 0xFE0F) || (0xE0100 ≤ n && n ≤ 0xE01EF)

/-! ## Ligatures read backwards -/

inductive LigatureTail where
  | alef
  | lamed
  | joinedLamed
  | ya
  | joinedYa
  | vowelAndYa
  | consonant
  | joinedConsonant
  | linkedConsonant
  | toneEnd
  | orkhonI
  | joinedOrkhonI
  | subscribed
  deriving DecidableEq, Repr

namespace LigatureTail

def ofChar? (c : Char) : Option LigatureTail :=
  if isAlef c then some .alef
  else if c = '\u05DC' then some .lamed
  else if isSubscribed c then some .subscribed
  else if c = '\u1A10' then some .ya
  else if isConjoining c then some .consonant
  else if endsTone c then some .toneEnd
  else if c.toNat = 0x10C03 then some .orkhonI
  else none

def joined : LigatureTail → LigatureTail
  | .lamed => .joinedLamed
  | .ya => .joinedYa
  | .consonant => .joinedConsonant
  | .orkhonI => .joinedOrkhonI
  | t => t

def isTransparent (width : Nat) (c : Char) : Bool :=
  width == 0 && !inRanges c.toNat disjoiningRanges

/-- Lam and alef share a column, and so do the marks between them. -/
def beforeAlef? (width : Nat) (c : Char) : Option (Int × Option LigatureTail) :=
  if isLam c then some (0, none)
  else if isTransparent width c then some (0, some .alef)
  else none

def letterBefore? (c : Char) : LigatureTail → Option (Int × Option LigatureTail)
  | .joinedLamed => if c = '\u05D0' then some (0, none) else none
  | .subscribed => if c = coeng then some (-1, none) else none
  | .joinedYa => if c = '\u1A17' then some (0, some .vowelAndYa) else none
  | .vowelAndYa => if c = '\u1A15' then some (0, none) else none
  | .consonant => if c = consonantJoiner then some (1, some .linkedConsonant) else none
  | .joinedConsonant =>
      if c = consonantJoiner then some (1, some .linkedConsonant)
      else if isConjoining c then some (0, none)
      else none
  | .linkedConsonant => if isConjoining c then some (-1, none) else none
  | .toneEnd => if beginsTone c then some (0, none) else none
  | .joinedOrkhonI => if c.toNat = 0x10C32 then some (0, none) else none
  | _ => none

def before? (t : LigatureTail) (width : Nat) (c : Char) : Option (Int × Option LigatureTail) :=
  if t = .alef then beforeAlef? width c
  else if c = joiner then some (0, some t.joined)
  else if isHiddenMark c then some (0, some t)
  else t.letterBefore? c

end LigatureTail

end RevisionGraph.Text
