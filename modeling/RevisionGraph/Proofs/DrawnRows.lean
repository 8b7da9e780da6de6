import RevisionGraph.Proofs.Exchange
import RevisionGraph.Proofs.RowIdentity
import RevisionGraph.View.RowLines

/-!
# What drawn rows read

The place for decorations is looked for in the line that is drawn, while the indent was measured
when the row was built. In the rows of a log the two are one place, so the decorations stand behind
the first `indent` characters (`drawnLines_of_parseLog`). All else that is drawn reads as the lines
of the row do, and the highlight changes nothing but styles.
-/

namespace RevisionGraph

/-! ## Texts of lines -/

def Text.insertAt (n : Nat) (inserted text : String) : String :=
  String.ofList (text.toList.take n ++ inserted.toList ++ text.toList.drop n)

theorem Text.insertAt_length (xs ys inserted : String) :
    insertAt xs.length inserted (xs ++ ys) = xs ++ inserted ++ ys := by
  rw [insertAt, String.toList_append, ← String.length_toList, List.take_left, List.drop_left,
    String.ofList_append, String.ofList_append, String.ofList_toList, String.ofList_toList,
    String.ofList_toList]

namespace Line

@[simp] theorem text_map_patch (line : Line) (top : Option Style) :
    text (line.map (·.patch top)) = line.text := by
  rw [text, text, List.map_map]
  rfl

theorem map_patch_none (line : Line) : line.map (·.patch none) = line :=
  List.map_id line

theorem text_decorations (ds : List Decoration) (styles : StyleKey → Style) :
    text (ds.map (Decoration.segment styles)) = Decoration.join ds := by
  rw [text, List.map_map]
  rfl

end Line

namespace Row

variable {row : Row} {overlay : Overlay} {highlight : Option Style} {styles : StyleKey → Style}

theorem length_text_continueGutter (n : Nat) (line : Line) :
    (Line.text (continueGutter n line)).length = n := by
  induction line generalizing n with
  | nil =>
      cases n with
      | zero => rfl
      | succ n =>
          rw [continueGutter, Line.text_cons, Line.text_nil, String.append_empty]
          exact Text.length_spaces (n + 1)
  | cons s rest ih =>
      cases n with
      | zero => rfl
      | succ n =>
          rw [continueGutter, Line.text_cons, String.length_append, ih]
          simp only [String.length_ofList, List.length_map, List.length_take]
          omega

theorem map_text_laterLines (lines : List GraphLine) :
    (lines.map (laterLine · highlight)).map Line.text = lines.map GraphLine.text := by
  rw [List.map_map]
  exact List.map_congr_left fun line _ => Line.text_map_patch line.segments _

theorem text_firstLine {first : GraphLine} {i : Nat} (h : first.segments.changeIdIndex? = some i) :
    (firstLine first overlay highlight styles).text =
      Text.insertAt (Line.text (first.segments.take i)).length
        (Decoration.join overlay.beforeChangeId) first.text := by
  have htext : first.text =
      Line.text (first.segments.take i) ++ Line.text (first.segments.drop i) := by
    rw [← Line.text_append, List.take_append_drop]
    rfl
  rw [firstLine, Line.text_map_patch, h, insertAt, Line.text_append, Line.text_append,
    Line.text_decorations, htext, Text.insertAt_length]

theorem map_text_lineAfter :
    (row.lineAfter overlay styles).map Line.text =
      if overlay.afterRow.isEmpty then []
      else [row.extension.text ++ Decoration.join overlay.afterRow] := by
  unfold lineAfter
  split
  · rfl
  · rw [List.map_singleton, Line.text_append, Line.text_decorations]

theorem map_text_drawnLines {first : GraphLine} {below : List GraphLine} {i : Nat}
    (hlines : row.lines = first :: below) (hindex : first.segments.changeIdIndex? = some i)
    (hindent : row.indent = (Line.text (first.segments.take i)).length) :
    (row.drawnLines overlay highlight styles).map Line.text =
      Text.insertAt row.indent (Decoration.join overlay.beforeChangeId) first.text ::
        below.map GraphLine.text ++
          if overlay.afterRow.isEmpty then []
          else [row.extension.text ++ Decoration.join overlay.afterRow] := by
  rw [drawnLines, List.map_append, map_text_lineAfter, hlines, ownLines, List.map_cons,
    text_firstLine hindex, map_text_laterLines, hindent]

/-! ## The highlight -/

def isLit (row : Row) (i : Nat) : Bool :=
  row.lines[i]?.any fun line => line.flags.highlightable

theorem map_patch_highlightOf (line : GraphLine) (drawn : Line) :
    drawn.map (·.patch (highlightOf line highlight)) =
      if line.flags.highlightable then drawn.map (·.patch highlight) else drawn := by
  unfold highlightOf
  split
  · rfl
  · exact Line.map_patch_none drawn

theorem firstLine_none (first : GraphLine) :
    firstLine first overlay none styles =
      insertAt first.segments.changeIdIndex? (overlay.beforeChangeId.map (Decoration.segment styles))
        first.segments := by
  rw [firstLine, map_patch_highlightOf, Line.map_patch_none, ite_self]

theorem laterLine_none (line : GraphLine) : laterLine line none = line.segments := by
  rw [laterLine, map_patch_highlightOf, Line.map_patch_none, ite_self]

theorem getElem?_ownLines (lines : List GraphLine) (i : Nat) :
    (ownLines overlay highlight styles lines)[i]? =
      (ownLines overlay none styles lines)[i]?.map fun drawn =>
        if lines[i]?.any fun line => line.flags.highlightable then drawn.map (·.patch highlight)
        else drawn := by
  cases lines with
  | nil => rfl
  | cons first rest =>
      simp only [ownLines, firstLine_none, laterLine_none]
      cases i with
      | zero => simp [firstLine, map_patch_highlightOf]
      | succ i => cases hrest : rest[i]? <;> simp [hrest, laterLine, map_patch_highlightOf]

theorem getElem?_drawnLines (i : Nat) :
    (row.drawnLines overlay highlight styles)[i]? =
      (row.drawnLines overlay none styles)[i]?.map fun drawn =>
        if row.isLit i then drawn.map (·.patch highlight) else drawn := by
  by_cases hi : i < row.lines.length
  · rw [drawnLines, drawnLines, List.getElem?_append_left (by simpa using hi),
      List.getElem?_append_left (by simpa using hi)]
    exact getElem?_ownLines row.lines i
  · have hlit : row.isLit i = false := by
      rw [isLit, List.getElem?_eq_none (by omega)]
      rfl
    rw [drawnLines, drawnLines, List.getElem?_append_right (by simpa using hi),
      List.getElem?_append_right (by simpa using hi)]
    simp [hlit]

end Row

/-! ## Rows of a log -/

/-- Every row of a log is drawn on as many lines as its height says. The first line reads as the
revision line with the decorations put in behind the first `indent` characters, the others as they
are; decorations below the row come behind a gutter of `indent` characters. The highlight is patched
over the lines that take part in it, and no text depends on it. -/
theorem drawnLines_of_parseLog {source : Source} {rows : List Row}
    (hrows : parseLog source = .ok rows) {row : Row} (hrow : row ∈ rows) (overlay : Overlay)
    (highlight : Option Style) (styles : StyleKey → Style) :
    (row.drawnLines overlay highlight styles).length = row.heightWith overlay ∧
      (∃ first below, row.Cut first below ∧
        (row.drawnLines overlay highlight styles).map Line.text =
          Text.insertAt row.indent (Decoration.join overlay.beforeChangeId) first.text ::
            below.map GraphLine.text ++
              if overlay.afterRow.isEmpty then []
              else [row.extension.text ++ Decoration.join overlay.afterRow]) ∧
      row.extension.text.length = row.indent ∧
      ∀ i drawn, (row.drawnLines overlay none styles)[i]? = some drawn →
        (row.drawnLines overlay highlight styles)[i]? =
          some (if row.isLit i then drawn.map (·.patch highlight) else drawn) := by
  rw [rows_of_parseLog hrows] at hrow
  obtain ⟨block, htight, previous, rfl⟩ := exists_block_of_mem_rowsOf hrow
  refine ⟨Row.length_drawnLines .., ?_, Row.length_text_continueGutter .., ?_⟩
  · obtain ⟨first, below, hcut⟩ := htight.cut previous
    have hsegments : first.segments = block.1.line := by
      have hlines := Row.segmentLines_ofLines block.1 block.2 previous
      rw [Row.segmentLines, hcut.lines_eq, List.map_cons] at hlines
      exact (List.cons.inj hlines).1
    have hidentified := identifiedBy_ofLines htight.1 block.2 previous
    have hindex := hidentified.changeIdIndex
    have hindent := hidentified.indent
    rw [Row.changeIdIndex?, hcut.lines_eq] at hindex
    rw [← hsegments] at hindent
    exact ⟨first, below, hcut, Row.map_text_drawnLines hcut.lines_eq hindex hindent⟩
  · intro i drawn hdrawn
    rw [Row.getElem?_drawnLines, hdrawn]
    rfl

theorem drawnLines_of_parseLog_of_elision :
    let log : Source := [.bytes (Text.Utf8.bytes "○  \x1B[1mk\x1B[m x\n│  text\n~\n")]
    let overlay : Overlay := ⟨[.marker "<< on >>", .plain " "], [.marker "<< onto >>"]⟩
    let highlight := Style.plain.withBg (.ansi .brightBlack)
    ∃ rows row, parseLog log = .ok rows ∧ row ∈ rows ∧
      (row.drawnLines overlay highlight fun _ => .plain).length = row.heightWith overlay ∧
      (row.drawnLines overlay highlight fun _ => .plain).map Line.text =
        ["○  << on >> k x", "│  text", "~", "   << onto >>"] ∧
      (row.drawnLines overlay highlight fun _ => .plain)[1]? = some [⟨"│  text", highlight⟩] ∧
      (row.drawnLines overlay highlight fun _ => .plain)[2]? = some [.plain "~"] := by
  intro log overlay highlight
  let row : Row :=
    .ofLines ⟨[.plain "○  "], ⟨"k", Style.plain.withModifier .bold⟩, [.plain " x"]⟩
      [[.plain "│  text"], [.plain "~"]] none
  have hrows : parseLog log = .ok (rowsOf log.transcript.lines) := parseLog_of_failure? rfl
  have hrow : row ∈ rowsOf log.transcript.lines := by
    rw [Source.transcript_eq_ofChunks, Source.chunks_eq]
    decide +kernel
  obtain ⟨hlength, -, -, hlit⟩ :=
    drawnLines_of_parseLog hrows hrow overlay (some highlight) fun _ => .plain
  refine ⟨_, row, hrows, hrow, hlength, by decide +kernel, ?_, ?_⟩
  · exact hlit 1 _ rfl
  · exact hlit 2 _ rfl

end RevisionGraph
