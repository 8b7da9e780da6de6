import RevisionGraph.Log.Commit
import RevisionGraph.Log.Glyph
import RevisionGraph.Terminal.Segment
import RevisionGraph.Text.Fit

/-!
# Rows of the log

A row is one revision: the line that carries its change id and the lines below it up to the next
one. A line starts a row when its first identifier is not its last segment, because descriptions
often end in a single styled word that looks like an identifier.
-/

namespace RevisionGraph

/-! ## Lines -/

structure LineFlags where
  revision : Bool
  highlightable : Bool
  elided : Bool
  deriving DecidableEq, Repr

structure GraphLine where
  segments : Line
  flags : LineFlags
  deriving DecidableEq, Repr

namespace GraphLine

def text (line : GraphLine) : String :=
  line.segments.text

end GraphLine

namespace Line

def identifierIndex? (line : Line) : Option Nat :=
  line.findIdx? fun s => isIdentifier s.text

def startsRow (line : Line) : Bool :=
  line.identifierIndex?.any fun i => i + 1 ≠ line.length

def changeIdIndex? (line : Line) : Option Nat :=
  line.identifierIndex?.filter fun i => i + 1 ≠ line.length

/-- The first identifier that has a style other than the plain one and that of the change id. -/
def findCommitId? (line : Line) (change : Style) : Option String :=
  (line.find? fun s => s.style ≠ .plain ∧ s.style ≠ change ∧ isIdentifier s.text).map Segment.text

/-- The first character outside the connectors and blanks is the elision mark. -/
def isElided (line : Line) : Bool :=
  (line.text.toList.find? fun c => !Text.isBlank c && !Glyph.isConnector c) == some Glyph.elided

def hasTextAfter (line : Line) (indent : Nat) : Bool :=
  (line.text.toList.drop indent).any fun c => !Text.isBlank c && !Glyph.isGraph c

end Line

/-- A line that starts a row, cut at its change id. -/
structure RevisionLine where
  gutter : Line
  change : Segment
  tail : Line
  deriving DecidableEq, Repr

namespace RevisionLine

def ofLine? : Line → Option RevisionLine
  | [] => none
  | s :: rest =>
      if isIdentifier s.text then
        if rest.isEmpty then none else some ⟨[], s, rest⟩
      else
        (ofLine? rest).map fun r => { r with gutter := s :: r.gutter }

def line (r : RevisionLine) : Line :=
  r.gutter ++ r.change :: r.tail

def joins (s : Segment) : Bool :=
  !s.isBlank && !s.text.toList.any Text.isBlank

def suffix (r : RevisionLine) : Line :=
  r.tail.takeWhile joins

def afterWord (r : RevisionLine) : Line :=
  r.tail.dropWhile joins

/-- The whole word if it marks the id as ambiguous, and the segment of the id otherwise. -/
def changeId (r : RevisionLine) : String :=
  let word := r.change.text ++ r.suffix.text
  if isAmbiguous word then word else r.change.text

def isWorkingCopy (r : RevisionLine) : Bool :=
  r.gutter.any fun s => s.text.toList.contains Glyph.workingCopy

def isConflicted (r : RevisionLine) : Bool :=
  isAmbiguous r.changeId ||
    (r.gutter.any fun s => s.text.toList.contains Glyph.conflict) ||
    (r.afterWord.any fun s => Text.trim s.text == "conflict")

def commit (r : RevisionLine) : Commit :=
  ⟨r.changeId, r.afterWord.findCommitId? r.change.style, r.isWorkingCopy, r.isConflicted⟩

theorem line_of_ofLine? {l : Line} {r : RevisionLine} (h : ofLine? l = some r) : r.line = l := by
  induction l generalizing r with
  | nil => simp [ofLine?] at h
  | cons s rest ih =>
      simp only [ofLine?] at h
      split at h
      · split at h
        · simp at h
        · simp only [Option.some.injEq] at h
          subst h
          rfl
      · obtain ⟨r', hr', rfl⟩ := Option.map_eq_some_iff.1 h
        simp only [line, List.cons_append, List.cons.injEq, true_and]
        exact ih hr'

theorem changeIdIndex?_eq (l : Line) :
    l.changeIdIndex? = (ofLine? l).map fun r => r.gutter.length := by
  induction l with
  | nil => rfl
  | cons s rest ih =>
      simp only [Line.changeIdIndex?, Line.identifierIndex?, List.findIdx?_cons, ofLine?] at ih ⊢
      by_cases hs : isIdentifier s.text
      · cases rest with
        | nil => simp [hs]
        | cons t rest => simp [hs]
      · have hlength (i : Nat) : i + 1 + 1 ≠ rest.length + 1 ↔ i + 1 ≠ rest.length := by omega
        simp only [hs, Bool.false_eq_true, if_false, List.length_cons, Option.filter_map,
          Function.comp_def, hlength]
        rw [ih]
        simp [Function.comp_def]

theorem isSome_ofLine? (l : Line) : (ofLine? l).isSome = l.startsRow := by
  have h := congrArg Option.isSome (changeIdIndex?_eq l)
  rw [Option.isSome_map, Line.changeIdIndex?, Option.isSome_filter] at h
  exact h.symm

end RevisionLine

/-! ## Rows -/

structure Row where
  commit : Commit
  indent : Nat
  lines : List GraphLine
  previous : Option Nat
  deriving DecidableEq, Repr

namespace Row

def flagsBelow (indent : Nat) (line : Line) : LineFlags :=
  if line.isElided then ⟨false, false, true⟩ else ⟨false, line.hasTextAfter indent, false⟩

def ofLines (r : RevisionLine) (below : List Line) (previous : Option Nat) : Row where
  commit := r.commit
  indent := r.gutter.width
  lines :=
    ⟨r.line, ⟨true, true, false⟩⟩ :: below.map fun line => ⟨line, flagsBelow r.gutter.width line⟩
  previous := previous

def height (row : Row) : Nat :=
  row.lines.length

def changeIdIndex? (row : Row) : Option Nat :=
  row.lines.head?.bind fun line => line.segments.changeIdIndex?

/-- The first `n` characters of a line as they look where the graph goes on below it. -/
def continueGutter : Nat → Line → Line
  | 0, _ => []
  | n + 1, [] => [.plain (Text.spaces (n + 1))]
  | n + 1, s :: rest =>
      let shown := s.text.toList.take (n + 1)
      ⟨String.ofList (shown.map Glyph.continuation), s.style⟩ ::
        continueGutter (n + 1 - shown.length) rest

def extension (row : Row) : Line :=
  continueGutter row.indent ((row.lines.getLast?.map GraphLine.segments).getD [])

end Row

end RevisionGraph
