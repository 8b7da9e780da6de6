import RevisionGraph.Proofs.DrawnRows

/-!
# Gutters that go on below a row

What stands below a row goes on from its last line, character by character: each glyph is continued
in the style it has there, and behind the end of the line the gutter is filled up with plain blanks.
The gutter is cut by segments, so the account is kept over characters with their styles
(`Line.styledChars`), where a segment that reaches over the indent is nothing special.
-/

namespace RevisionGraph

namespace Glyph

theorem continuation_mem (c : Char) : continuation c ∈ ['│', '|', ' '] := by
  unfold continuation
  split
  · simp
  · split <;> simp

end Glyph

/-! ## Characters with their styles -/

namespace Line

/-- The characters of a line, each in the style of the segment that it stands in. -/
def styledChars (line : Line) : List (Char × Style) :=
  line.flatMap fun s => s.text.toList.map (·, s.style)

theorem styledChars_cons (s : Segment) (line : Line) :
    styledChars (s :: line) = s.text.toList.map (·, s.style) ++ line.styledChars :=
  List.flatMap_cons

theorem map_fst_styledChars (line : Line) : line.styledChars.map Prod.fst = line.text.toList := by
  induction line with
  | nil => rfl
  | cons s rest ih =>
      rw [styledChars_cons, List.map_append, List.map_map, ih, text_cons, String.toList_append]
      exact congrArg (· ++ (text rest).toList) (List.map_id s.text.toList)

theorem length_styledChars (line : Line) : line.styledChars.length = line.width := by
  rw [← length_text, ← String.length_toList, ← map_fst_styledChars, List.length_map]

theorem styledChars_spaces (n : Nat) :
    styledChars [.plain (Text.spaces n)] = List.replicate n (' ', .plain) := by
  simp [styledChars, Segment.plain, Text.spaces]

end Line

/-! ## The gutter below a row -/

namespace Row

def continued (c : Char × Style) : Char × Style :=
  (Glyph.continuation c.1, c.2)

def lastLine (row : Row) : Line :=
  (row.lines.getLast?.map GraphLine.segments).getD []

theorem styledChars_continueGutter (n : Nat) (line : Line) :
    (continueGutter n line).styledChars =
      (line.styledChars.take n).map continued ++
        List.replicate (n - line.width) (' ', .plain) := by
  induction line generalizing n with
  | nil =>
      cases n with
      | zero => rfl
      | succ n =>
          rw [continueGutter, Line.styledChars_spaces]
          rfl
  | cons s rest ih =>
      cases n with
      | zero => simp [continueGutter, Line.styledChars]
      | succ n =>
          have hleft : n + 1 - (s.text.toList.take (n + 1)).length = n + 1 - s.width := by
            rw [List.length_take, Segment.width, String.length_toList]
            omega
          have hwidth : n + 1 - Line.width (s :: rest) = n + 1 - s.width - Line.width rest := by
            rw [Line.width]
            omega
          have hcut : n + 1 - (s.text.toList.map (·, s.style)).length = n + 1 - s.width := by
            rw [List.length_map, Segment.width, String.length_toList]
          have hshown : ((s.text.toList.take (n + 1)).map Glyph.continuation).map (·, s.style) =
              ((s.text.toList.map (·, s.style)).take (n + 1)).map continued := by
            rw [← List.map_take, List.map_map, List.map_map]
            rfl
          rw [continueGutter, Line.styledChars_cons, String.toList_ofList, hshown, hleft, ih,
            Line.styledChars_cons, List.take_append, List.map_append, hcut, hwidth,
            List.append_assoc]

theorem getElem?_styledChars_extension (row : Row) {k : Nat} (hk : k < row.indent) :
    row.extension.styledChars[k]? =
      some ((row.lastLine.styledChars[k]?.map continued).getD (' ', .plain)) := by
  have hchars : row.extension.styledChars =
      (row.lastLine.styledChars.take row.indent).map continued ++
        List.replicate (row.indent - row.lastLine.width) (' ', .plain) :=
    styledChars_continueGutter row.indent row.lastLine
  have hlength := row.lastLine.length_styledChars
  rw [hchars]
  by_cases hend : k < row.lastLine.width
  · rw [List.getElem?_append_left (by simp; omega), List.getElem?_map,
      List.getElem?_take_of_lt hk, List.getElem?_eq_getElem (by omega)]
    rfl
  · rw [List.getElem?_append_right (by simp; omega), List.getElem?_replicate_of_lt (by simp; omega),
      List.getElem?_eq_none (by omega)]
    rfl

/-- The gutter below a row is as wide as the indent and holds nothing but vertical lines and blanks.
Each of its characters continues the one above it in the last line, and stands in the same style;
behind the end of that line there are plain blanks. -/
theorem extension_continues_last_line (row : Row) :
    row.extension.width = row.indent ∧
      (∀ c ∈ row.extension.text.toList, c ∈ ['│', '|', ' ']) ∧
      (∀ k < row.indent, row.extension.text.toList[k]? =
        some ((row.lastLine.text.toList[k]?.map Glyph.continuation).getD ' ')) ∧
      ∀ k < row.indent, row.extension.styledChars[k]? =
        some ((row.lastLine.styledChars[k]?.map continued).getD (' ', .plain)) := by
  have hwidth : row.extension.width = row.indent := by
    rw [← Line.length_text]
    exact length_text_continueGutter row.indent row.lastLine
  have htext (k : Nat) (hk : k < row.indent) : row.extension.text.toList[k]? =
      some ((row.lastLine.text.toList[k]?.map Glyph.continuation).getD ' ') := by
    rw [← Line.map_fst_styledChars, ← Line.map_fst_styledChars, List.getElem?_map,
      List.getElem?_map, getElem?_styledChars_extension row hk]
    cases row.lastLine.styledChars[k]? <;> rfl
  refine ⟨hwidth, fun c hc => ?_, htext, fun k hk => row.getElem?_styledChars_extension hk⟩
  obtain ⟨k, hk⟩ := List.mem_iff_getElem?.mp hc
  obtain ⟨hlt, -⟩ := List.getElem?_eq_some_iff.mp hk
  rw [String.length_toList, Line.length_text, hwidth] at hlt
  obtain rfl := Option.some.inj ((htext k hlt).symm.trans hk)
  cases row.lastLine.text.toList[k]? with
  | none => simp
  | some above => exact Glyph.continuation_mem above

example :
    let red := Style.plain.withFg (.ansi .red)
    let row : Row :=
      ⟨.ofChangeId "k", 5, [⟨[⟨"├ ○", red⟩, .plain "─╯ text"], ⟨false, true, false⟩⟩], none⟩
    row.extension = [⟨"│ │", red⟩, .plain "  "] := by
  decide +kernel

end Row

end RevisionGraph
