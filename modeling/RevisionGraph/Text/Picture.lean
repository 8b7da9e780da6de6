import RevisionGraph.Text.CharRange
import RevisionGraph.Text.PictureTable

/-!
# Pictures

Several characters can be shown as one picture: a base and a skin tone, a pair of regional
indicators, a flag with tags, and any of these joined to another. Text is measured from its end, so
such a sequence is read backwards, and what has been read of it decides what may come before it.
-/

namespace RevisionGraph.Text

/-! ## Characters -/

def joiner : Char := '\u200D'

def pictureSelector : Char := '\uFE0F'
def textSelector : Char := '\uFE0E'

def keycap : Char := '\u20E3'

def isPicture (c : Char) : Bool :=
  inRanges c.toNat presentedRanges

def isSelectable (c : Char) : Bool :=
  inRanges c.toNat selectableRanges

def isIdeographicPicture (c : Char) : Bool :=
  0x1F200 ≤ c.toNat && c.toNat ≤ 0x1F2FF

/-- Is a picture, but a narrow character before the selector of text. -/
def isNarrowed (c : Char) : Bool :=
  isPicture c && isSelectable c && !isIdeographicPicture c

def isSkinTone (c : Char) : Bool :=
  0x1F3FB ≤ c.toNat && c.toNat ≤ 0x1F3FF

def takesTone (c : Char) : Bool :=
  inRanges c.toNat toneBaseRanges

def isRegional (c : Char) : Bool :=
  0x1F1E6 ≤ c.toNat && c.toNat ≤ 0x1F1FF

def isFlag (c : Char) : Bool :=
  c.toNat == 0x1F3F4

def isTagDigit (c : Char) : Bool :=
  0xE0030 ≤ c.toNat && c.toNat ≤ 0xE0039

def isTagLetter (c : Char) : Bool :=
  0xE0061 ≤ c.toNat && c.toNat ≤ 0xE007A

def isTagEnd (c : Char) : Bool :=
  c.toNat == 0xE007F

/-! ## Sequences read backwards -/

inductive PictureTail where
  | picture
  | tone
  | regional
  | regionals
  | joined
  | joinedKeycap
  | joinedRegional
  | joinedEvenRegionals
  | joinedOddRegionals
  | joinedTagLetters (count : Nat)
  | joinedTagDigits (count : Nat)
  deriving DecidableEq, Repr

namespace PictureTail

def ofChar? (c : Char) : Option PictureTail :=
  if isSkinTone c then some .tone
  else if isRegional c then some .regional
  else if isPicture c then some .picture
  else none

def isWhole : PictureTail → Bool
  | .picture | .tone | .regionals | .joinedEvenRegionals | .joinedOddRegionals => true
  | _ => false

/-- A region is three to six letters, or three digits and up to four letters. -/
def isRegion : PictureTail → Bool
  | .joinedTagLetters n => 3 ≤ n && n ≤ 6
  | .joinedTagDigits n => n == 3
  | _ => false

def joinBefore? (c : Char) : Option (Int × PictureTail) :=
  if c = keycap then some (0, .joinedKeycap)
  else if isRegional c then some (1, .joinedRegional)
  else if isSkinTone c then some (0, .tone)
  else if isTagEnd c then some (0, .joinedTagLetters 0)
  else if isPicture c then some (0, .picture)
  else none

/-- Another regional indicator. Every pair of them is a flag. -/
def regionalBefore? : PictureTail → Option (Int × PictureTail)
  | .regional | .regionals => some (1, .regionals)
  | .joinedRegional | .joinedOddRegionals => some (-1, .joinedEvenRegionals)
  | .joinedEvenRegionals => some (3, .joinedOddRegionals)
  | _ => none

def tagBefore? (c : Char) : PictureTail → Option (Int × PictureTail)
  | .joinedTagLetters n =>
      if isTagLetter c && n < 6 then some (0, .joinedTagLetters (n + 1))
      else if isTagDigit c && n ≤ 4 then some (0, .joinedTagDigits 1)
      else none
  | .joinedTagDigits n =>
      if isTagDigit c && n < 3 then some (0, .joinedTagDigits (n + 1)) else none
  | _ => none

def before? (t : PictureTail) (c : Char) : Option (Int × PictureTail) :=
  if t = .joined then joinBefore? c
  else if t.isWhole && c = joiner then some (0, .joined)
  else if t = .tone && takesTone c then some (0, .picture)
  else if t.isRegion && isFlag c then some (0, .picture)
  else if isRegional c then t.regionalBefore?
  else t.tagBefore? c

end PictureTail

end RevisionGraph.Text
