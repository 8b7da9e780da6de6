import RevisionGraph.Text.CharRange
import RevisionGraph.Text.ClusterTable

/-!
# Grapheme clusters

Cuts text into extended grapheme clusters, the units that a screen cell holds. Whether a cluster
goes on with the next character depends on its last character and on a little of what came before:
the parity of regional indicators, a pictograph that a joiner may link, and a consonant that a
linker may join.
-/

namespace RevisionGraph.Text

namespace Cluster

inductive CharClass where
  | carriageReturn
  | lineFeed
  | breaking
  | extend
  | joiner
  | regional
  | prepended
  | spacing
  | lead
  | vowel
  | trail
  | leadVowel
  | leadVowelTrail
  | other
  deriving DecidableEq, Repr

def classOf (c : Char) : CharClass :=
  let n := c.toNat
  if n = 0x0D then .carriageReturn
  else if n = 0x0A then .lineFeed
  else if 0x20 ≤ n ∧ n < 0x7F then .other
  else if n = 0x200D then .joiner
  else if 0x1F1E6 ≤ n ∧ n ≤ 0x1F1FF then .regional
  else if (0x1100 ≤ n ∧ n ≤ 0x115F) ∨ (0xA960 ≤ n ∧ n ≤ 0xA97C) then .lead
  else if (0x1160 ≤ n ∧ n ≤ 0x11A7) ∨ (0xD7B0 ≤ n ∧ n ≤ 0xD7C6) then .vowel
  else if n = 0x16D63 ∨ (0x16D67 ≤ n ∧ n ≤ 0x16D6A) then .vowel
  else if (0x11A8 ≤ n ∧ n ≤ 0x11FF) ∨ (0xD7CB ≤ n ∧ n ≤ 0xD7FB) then .trail
  else if 0xAC00 ≤ n ∧ n ≤ 0xD7A3 then
    if (n - 0xAC00) % 28 = 0 then .leadVowel else .leadVowelTrail
  else if inRanges n breakingRanges then .breaking
  else if inRanges n extendRanges then .extend
  else if inRanges n spacingRanges then .spacing
  else if inRanges n prependRanges then .prepended
  else .other

def isPictographic (c : Char) : Bool :=
  inRanges c.toNat pictographicRanges

def isConsonant (c : Char) : Bool :=
  inRanges c.toNat consonantRanges

def separator : Char := '\u200C'

def isLinker (c : Char) : Bool :=
  inRanges c.toNat linkerRanges

structure Ending where
  last : CharClass
  oddRegionals : Bool
  /-- A pictograph, then only extending characters. -/
  pictograph : Bool
  /-- The same, then a joiner. -/
  joinedPictograph : Bool
  /-- A consonant, then only joiners and extending characters other than the one that separates. -/
  consonant : Bool
  /-- The same with a linker among them. -/
  linkedConsonant : Bool
  deriving DecidableEq, Repr

def Ending.first (c : Char) : Ending :=
  let k := classOf c
  ⟨k, k == .regional, isPictographic c, false, isConsonant c, false⟩

def Ending.next (e : Ending) (c : Char) : Ending :=
  let k := classOf c
  let extending := k == .extend
  let continues := (extending && c ≠ separator) || k == .joiner
  { last := k
    oddRegionals := k == .regional && !e.oddRegionals
    pictograph := isPictographic c || (e.pictograph && extending)
    joinedPictograph := e.pictograph && k == .joiner
    consonant := isConsonant c || (e.consonant && continues)
    linkedConsonant := e.consonant && continues && (e.linkedConsonant || isLinker c) }

def isBreaking : CharClass → Bool
  | .carriageReturn | .lineFeed | .breaking => true
  | _ => false

def joinsSyllable : CharClass → CharClass → Bool
  | .lead, k => k ∈ [.lead, .vowel, .leadVowel, .leadVowelTrail]
  | .leadVowel, k | .vowel, k => k ∈ [.vowel, .trail]
  | .leadVowelTrail, k | .trail, k => k == .trail
  | _, _ => false

def Ending.accepts (e : Ending) (c : Char) : Bool :=
  let k := classOf c
  if e.last == .carriageReturn && k == .lineFeed then true
  else if isBreaking e.last || isBreaking k then false
  else
    joinsSyllable e.last k || k == .extend || k == .joiner || k == .spacing ||
      e.last == .prepended || (e.linkedConsonant && isConsonant c) ||
      (e.joinedPictograph && isPictographic c) || (e.oddRegionals && k == .regional)

/-- The rest of the text, with the cluster at hand in reverse. -/
def cutFrom (e : Ending) (reversed : List Char) : List Char → List (List Char)
  | [] => [reversed.reverse]
  | c :: rest =>
      if e.accepts c then cutFrom (e.next c) (c :: reversed) rest
      else reversed.reverse :: cutFrom (.first c) [c] rest

end Cluster

def clusters : List Char → List (List Char)
  | [] => []
  | c :: rest => Cluster.cutFrom (.first c) [c] rest

theorem Cluster.flatten_cutFrom (e : Ending) (reversed cs : List Char) :
    (cutFrom e reversed cs).flatten = reversed.reverse ++ cs := by
  induction cs generalizing e reversed with
  | nil => simp [cutFrom]
  | cons c cs ih =>
      simp only [cutFrom]
      split <;> simp [ih]

@[simp] theorem flatten_clusters (cs : List Char) : (clusters cs).flatten = cs := by
  cases cs with
  | nil => rfl
  | cons c cs => simp [clusters, Cluster.flatten_cutFrom]

end RevisionGraph.Text
