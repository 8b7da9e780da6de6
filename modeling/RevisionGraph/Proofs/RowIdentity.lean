import Mathlib.Data.List.TakeWhile
import RevisionGraph.Proofs.RowPartition

/-!
# What a row takes from its first line

A line that starts a row is cut at its first identifier and at the end of the word which begins
there. The change id comes from the word, the commit id and the label of a conflict from behind it,
and the indent from before it (`identifiedBy_of_startsRow`). Lines added below change none of this.
-/

namespace RevisionGraph

/-! ## The word of the change id -/

/-- The first identifier of a line is `change`, at index `first`. The word that it begins goes on
over the segments behind it that are neither blank nor hold a blank, up to `stop`. -/
structure Line.Word (l : Line) (first stop : Nat) (change : Segment) : Prop where
  getElem_first : l[first]? = some change
  isIdentifier_change : isIdentifier change.text = true
  before : ∀ s ∈ l.take first, isIdentifier s.text = false
  first_lt : first < stop
  stop_le : stop ≤ l.length
  inside : ∀ s ∈ (l.take stop).drop (first + 1),
    s.isBlank = false ∧ ∀ c ∈ s.text.toList, Text.isBlank c = false
  ends : ∀ s, l[stop]? = some s → s.isBlank = true ∨ ∃ c ∈ s.text.toList, Text.isBlank c = true

namespace Line.Word

variable {l : Line} {first stop first' stop' : Nat} {change change' : Segment}

theorem first_le (h : l.Word first stop change) (h' : l.Word first' stop' change') :
    first ≤ first' := by
  refine Nat.le_of_not_lt fun hlt => ?_
  have hmem : change' ∈ l.take first :=
    List.mem_of_getElem? ((List.getElem?_take_of_lt hlt).trans h'.getElem_first)
  have hnot := h.before change' hmem
  rw [h'.isIdentifier_change] at hnot
  contradiction

theorem stop_le_stop (h : l.Word first stop change) (h' : l.Word first stop' change') :
    stop ≤ stop' := by
  refine Nat.le_of_not_lt fun hlt => ?_
  have hlength : stop' < l.length := Nat.lt_of_lt_of_le hlt h.stop_le
  have hmem : l[stop'] ∈ (l.take stop).drop (first + 1) := by
    have hfirst := h'.first_lt
    rw [List.mem_drop_iff_getElem]
    refine ⟨stop' - (first + 1), ?_, ?_⟩
    · rw [List.length_take]
      omega
    · simp only [List.getElem_take]
      congr 1
      omega
  obtain ⟨hblank, hblanks⟩ := h.inside _ hmem
  rcases h'.ends _ (List.getElem?_eq_getElem hlength) with hends | ⟨c, hc, hends⟩
  · rw [hblank] at hends
    contradiction
  · rw [hblanks c hc] at hends
    contradiction

theorem unique (h : l.Word first stop change) (h' : l.Word first' stop' change') :
    first = first' ∧ stop = stop' ∧ change = change' := by
  obtain rfl : first = first' := Nat.le_antisymm (h.first_le h') (h'.first_le h)
  refine ⟨rfl, Nat.le_antisymm (h.stop_le_stop h') (h'.stop_le_stop h), ?_⟩
  exact Option.some.inj (h.getElem_first.symm.trans h'.getElem_first)

end Line.Word

structure Segment.MayBeCommitId (change s : Segment) : Prop where
  isIdentifier : isIdentifier s.text = true
  style_ne_plain : s.style ≠ .plain
  style_ne_change : s.style ≠ change.style

namespace Line

variable {line : Line} {change : Segment}

theorem decide_mayBeCommitId_iff {s : Segment} :
    decide (s.style ≠ .plain ∧ s.style ≠ change.style ∧ isIdentifier s.text = true) = true ↔
      change.MayBeCommitId s := by
  rw [decide_eq_true_eq]
  constructor
  · rintro ⟨hplain, hchange, hidentifier⟩
    exact ⟨hidentifier, hplain, hchange⟩
  · exact fun h => ⟨h.style_ne_plain, h.style_ne_change, h.isIdentifier⟩

theorem findCommitId?_eq_some_iff {text : String} :
    line.findCommitId? change.style = some text ↔
      ∃ between s behind, line = between ++ s :: behind ∧
        (∀ t ∈ between, ¬ change.MayBeCommitId t) ∧ change.MayBeCommitId s ∧ s.text = text := by
  rw [findCommitId?, Option.map_eq_some_iff]
  constructor
  · rintro ⟨s, hs, htext⟩
    obtain ⟨hfound, between, behind, hline, hbetween⟩ := List.find?_eq_some_iff_append.mp hs
    refine ⟨between, s, behind, hline, ?_, decide_mayBeCommitId_iff.mp hfound, htext⟩
    intro t ht hmayBe
    have hnot := hbetween t ht
    rw [decide_mayBeCommitId_iff.mpr hmayBe] at hnot
    contradiction
  · rintro ⟨between, s, behind, hline, hbetween, hfound, htext⟩
    refine ⟨s, List.find?_eq_some_iff_append.mpr
      ⟨decide_mayBeCommitId_iff.mpr hfound, between, behind, hline, ?_⟩, htext⟩
    intro t ht
    rw [Bool.not_eq_true', Bool.eq_false_iff]
    exact fun h => hbetween t ht (decide_mayBeCommitId_iff.mp h)

theorem findCommitId?_eq_none_iff :
    line.findCommitId? change.style = none ↔ ∀ s ∈ line, ¬ change.MayBeCommitId s := by
  rw [findCommitId?, Option.map_eq_none_iff, List.find?_eq_none]
  exact forall₂_congr fun s _ => not_congr decide_mayBeCommitId_iff

end Line

namespace RevisionLine

variable {line : Line} {r : RevisionLine}

theorem isIdentifier_of_mem_gutter (h : ofLine? line = some r) :
    ∀ s ∈ r.gutter, isIdentifier s.text = false := by
  induction line generalizing r with
  | nil => simp [ofLine?] at h
  | cons t rest ih =>
      simp only [ofLine?] at h
      split at h
      · split at h
        · simp at h
        · obtain rfl := Option.some.inj h
          simp
      · next hidentifier =>
          obtain ⟨r', hr', rfl⟩ := Option.map_eq_some_iff.1 h
          intro s hs
          rcases List.mem_cons.mp hs with rfl | hs
          · simpa using hidentifier
          · exact ih hr' s hs

def stop (r : RevisionLine) : Nat :=
  (r.gutter ++ r.change :: r.suffix).length

theorem line_eq (r : RevisionLine) :
    r.line = r.gutter ++ r.change :: r.suffix ++ r.afterWord := by
  rw [line, List.append_assoc, List.cons_append, suffix, afterWord, List.takeWhile_append_dropWhile]

theorem take_gutter (r : RevisionLine) : r.line.take r.gutter.length = r.gutter := by
  rw [line, List.take_left]

theorem take_stop (r : RevisionLine) : r.line.take r.stop = r.gutter ++ r.change :: r.suffix := by
  rw [line_eq, stop, List.take_left]

theorem drop_stop (r : RevisionLine) : r.line.drop r.stop = r.afterWord := by
  rw [line_eq, stop, List.drop_left]

theorem text_word (r : RevisionLine) :
    Line.text ((r.line.take r.stop).drop r.gutter.length) = r.change.text ++ r.suffix.text := by
  rw [take_stop, List.drop_left, Line.text_cons]

theorem joins_eq_true_iff {s : Segment} :
    joins s = true ↔ s.isBlank = false ∧ ∀ c ∈ s.text.toList, Text.isBlank c = false := by
  simp [joins]

theorem joins_eq_false_iff {s : Segment} :
    joins s = false ↔ s.isBlank = true ∨ ∃ c ∈ s.text.toList, Text.isBlank c = true := by
  simp only [joins, Bool.and_eq_false_iff, Bool.not_eq_false', List.any_eq_true]

theorem word_of_ofLine? (h : ofLine? line = some r) :
    line.Word r.gutter.length r.stop r.change := by
  obtain rfl := line_of_ofLine? h
  constructor
  case getElem_first => simp [RevisionLine.line]
  case isIdentifier_change => exact isIdentifier_of_ofLine? h
  case before =>
    rw [take_gutter]
    exact isIdentifier_of_mem_gutter h
  case first_lt =>
    rw [stop, List.length_append, List.length_cons]
    omega
  case stop_le =>
    rw [line_eq, List.length_append, stop]
    omega
  case inside =>
    have hdrop : (r.line.take r.stop).drop (r.gutter.length + 1) = r.suffix := by
      rw [take_stop, List.drop_append]
      simp
    rw [hdrop]
    intro s hs
    exact joins_eq_true_iff.mp (List.mem_takeWhile_imp hs)
  case ends =>
    intro s hs
    have hhead : r.afterWord.head? = some s := by
      rw [← drop_stop, List.head?_drop, hs]
    have hends := List.head?_dropWhile_not joins r.tail
    rw [afterWord] at hhead
    rw [hhead] at hends
    exact joins_eq_false_iff.mp hends

theorem isConflicted_iff (r : RevisionLine) :
    r.isConflicted = true ↔
      isAmbiguous r.changeId = true ∨ (∃ s ∈ r.gutter, Glyph.conflict ∈ s.text.toList) ∨
        ∃ s ∈ r.afterWord, Text.trim s.text = "conflict" := by
  simp [RevisionLine.isConflicted, or_assoc]

end RevisionLine

/-! ## Rows -/

/-- What a row with `change` as the first identifier of its line says of itself: everything is read
from before the word, from the word, or from behind it. -/
structure Row.IdentifiedBy (row : Row) (line : Line) (first stop : Nat) (change : Segment) :
    Prop where
  indent : row.indent = (Line.text (line.take first)).length
  changeIdIndex : row.changeIdIndex? = some first
  changeId : row.commit.changeId =
    if isAmbiguous (Line.text ((line.take stop).drop first)) then
      Line.text ((line.take stop).drop first)
    else change.text
  commitId : ∀ text, row.commit.commitId = some text ↔
    ∃ between s behind, line.drop stop = between ++ s :: behind ∧
      (∀ t ∈ between, ¬ change.MayBeCommitId t) ∧ change.MayBeCommitId s ∧ s.text = text
  commitId_none : row.commit.commitId = none ↔ ∀ s ∈ line.drop stop, ¬ change.MayBeCommitId s
  isConflicted : row.commit.isConflicted = true ↔
    isAmbiguous row.commit.changeId = true ∨
      (∃ s ∈ line.take first, Glyph.conflict ∈ s.text.toList) ∨
      ∃ s ∈ line.drop stop, Text.trim s.text = "conflict"
  isConflicted_of_isDivergent : row.commit.isDivergent = true → row.commit.isConflicted = true

theorem identifiedBy_ofLines {line : Line} {r : RevisionLine}
    (h : RevisionLine.ofLine? line = some r) (below : List Line) (previous : Option Nat) :
    (Row.ofLines r below previous).IdentifiedBy line r.gutter.length r.stop r.change := by
  obtain rfl := RevisionLine.line_of_ofLine? h
  constructor
  case indent =>
    rw [r.take_gutter, Line.length_text]
    rfl
  case changeIdIndex =>
    have hindex : (Row.ofLines r below previous).changeIdIndex? = r.line.changeIdIndex? := rfl
    rw [hindex, RevisionLine.changeIdIndex?_eq, h]
    rfl
  case changeId =>
    rw [r.text_word]
    rfl
  case commitId =>
    intro text
    rw [r.drop_stop]
    exact Line.findCommitId?_eq_some_iff
  case commitId_none =>
    rw [r.drop_stop]
    exact Line.findCommitId?_eq_none_iff
  case isConflicted =>
    rw [r.take_gutter, r.drop_stop]
    simp only [Row.ofLines, RevisionLine.commit]
    exact r.isConflicted_iff
  case isConflicted_of_isDivergent =>
    simp only [Row.ofLines, RevisionLine.commit, Commit.isDivergent]
    exact fun h => r.isConflicted_iff.mpr (.inl h)

namespace OpenRow

theorem row_addLines (o : OpenRow) (below : List Line) :
    (below.foldl addLine o).row = .ofLines o.revision (o.below.reverse ++ below) o.previous := by
  induction below generalizing o with
  | nil => simp [row]
  | cons line rest ih =>
      rw [List.foldl_cons, ih]
      simp [addLine]

end OpenRow

theorem unsealed_push {line : Line} {r : RevisionLine} (h : RevisionLine.ofLine? line = some r)
    (b : RowBuilder) : ∃ previous, (b.push line).1.unsealed = some ⟨r, previous, []⟩ := by
  unfold RowBuilder.push
  rw [h]
  cases b.unsealed with
  | none => exact ⟨none, rfl⟩
  | some o => exact ⟨some b.sealed, rfl⟩

/-- A line that starts a row has a word of the change id. In any builder the line opens a row, and
that word identifies the row whatever lines are added below. -/
theorem identifiedBy_of_startsRow {line : Line} (h : line.startsRow = true) :
    (∃ first stop change, line.Word first stop change) ∧
      ∀ first stop change, line.Word first stop change → ∀ b : RowBuilder,
        ∃ o, (b.push line).1.unsealed = some o ∧
          ∀ below : List Line,
            (below.foldl OpenRow.addLine o).row.IdentifiedBy line first stop change := by
  rw [← RevisionLine.isSome_ofLine?, Option.isSome_iff_exists] at h
  obtain ⟨r, hr⟩ := h
  refine ⟨⟨_, _, _, RevisionLine.word_of_ofLine? hr⟩, fun first stop change hword b => ?_⟩
  obtain ⟨rfl, rfl, rfl⟩ := (RevisionLine.word_of_ofLine? hr).unique hword
  obtain ⟨previous, hopen⟩ := unsealed_push hr b
  refine ⟨_, hopen, fun below => ?_⟩
  rw [OpenRow.row_addLines]
  exact identifiedBy_ofLines hr _ _

theorem identifiedBy_of_startsRow_of_divergent :
    let line : Line :=
      [.plain "×  ", ⟨"p", Style.plain.withFg (.ansi .magenta)⟩,
        ⟨"??", Style.plain.withFg (.ansi .brightBlack)⟩, .plain " ",
        ⟨"9c1f", Style.plain.withFg (.ansi .cyan)⟩, .plain " divergent"]
    line.startsRow = true ∧
      ∃ o, (RowBuilder.empty.push line).1.unsealed = some o ∧
        o.row.commit = ⟨"p??", some "9c1f", false, true⟩ ∧
          ∃ first stop change, line.Word first stop change ∧
            (o.addLine [.plain "│  text"]).row.IdentifiedBy line first stop change := by
  intro line
  have hstarts : line.startsRow = true := by decide
  obtain ⟨⟨first, stop, change, hword⟩, hidentified⟩ := identifiedBy_of_startsRow hstarts
  obtain ⟨o, hopen, hbelow⟩ := hidentified first stop change hword RowBuilder.empty
  have hcommit : ((RowBuilder.empty.push line).1.unsealed.map fun o => o.row.commit) =
      some ⟨"p??", some "9c1f", false, true⟩ := by decide
  rw [hopen] at hcommit
  exact ⟨hstarts, o, hopen, Option.some.inj hcommit, first, stop, change, hword,
    hbelow [[.plain "│  text"]]⟩

end RevisionGraph
