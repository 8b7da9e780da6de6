import RevisionGraph.Log.Builder

/-!
# Rows partition the lines

Lines fall into those above the first row and blocks, each a line that starts a row with the lines
below it. `blocks` cuts them so from the end, where every line knows what stands below it. The
builder goes from the front; `build_open` and `build_empty` say that it gives the same blocks,
numbered.
-/

namespace RevisionGraph

/-! ## Blocks -/

/-- A line that starts a row, cut at its change id, and the lines below it. -/
abbrev Block := RevisionLine × List Line

namespace Block

def lines (block : Block) : List Line :=
  block.1.line :: block.2

/-- The first line is cut where the reader of rows cuts it, and no other line starts a row. -/
def Tight (block : Block) : Prop :=
  RevisionLine.ofLine? block.1.line = some block.1 ∧
    ∀ line ∈ block.2, RevisionLine.ofLine? line = none

end Block

def blocks : List Line → List Line × List Block
  | [] => ([], [])
  | line :: rest =>
      let (above, bs) := blocks rest
      match RevisionLine.ofLine? line with
      | none => (line :: above, bs)
      | some r => ([], (r, above) :: bs)

theorem blocks_cons_of_none {line : Line} (h : RevisionLine.ofLine? line = none)
    (rest : List Line) : blocks (line :: rest) = (line :: (blocks rest).1, (blocks rest).2) := by
  simp only [blocks, h]

theorem blocks_cons_of_some {line : Line} {r : RevisionLine}
    (h : RevisionLine.ofLine? line = some r) (rest : List Line) :
    blocks (line :: rest) = ([], (r, (blocks rest).1) :: (blocks rest).2) := by
  simp only [blocks, h]

theorem RevisionLine.isIdentifier_of_ofLine? {l : Line} {r : RevisionLine} (h : ofLine? l = some r) :
    isIdentifier r.change.text = true := by
  induction l generalizing r with
  | nil => simp [ofLine?] at h
  | cons s rest ih =>
      simp only [ofLine?] at h
      split at h
      · next hidentifier =>
          split at h
          · simp at h
          · obtain rfl := Option.some.inj h
            exact hidentifier
      · obtain ⟨r', hr', rfl⟩ := Option.map_eq_some_iff.1 h
        have hchange := ih hr'
        exact hchange

theorem startsRow_eq_false_iff {line : Line} :
    line.startsRow = false ↔ RevisionLine.ofLine? line = none := by
  rw [← RevisionLine.isSome_ofLine?, Option.isSome_eq_false_iff, Option.isNone_iff_eq_none]

theorem startsRow_of_ofLine? {line : Line} {r : RevisionLine}
    (h : RevisionLine.ofLine? line = some r) : line.startsRow = true := by
  rw [← RevisionLine.isSome_ofLine?, h]
  rfl

theorem ofLine?_above (lines : List Line) :
    ∀ line ∈ (blocks lines).1, RevisionLine.ofLine? line = none := by
  induction lines with
  | nil => simp [blocks]
  | cons line rest ih =>
      cases hline : RevisionLine.ofLine? line with
      | none =>
          rw [blocks_cons_of_none hline]
          intro l hl
          rcases List.mem_cons.mp hl with rfl | hl
          · exact hline
          · exact ih l hl
      | some r =>
          rw [blocks_cons_of_some hline]
          simp

theorem tight_of_mem_blocks (lines : List Line) : ∀ b ∈ (blocks lines).2, b.Tight := by
  induction lines with
  | nil => simp [blocks]
  | cons line rest ih =>
      cases hline : RevisionLine.ofLine? line with
      | none =>
          rw [blocks_cons_of_none hline]
          exact ih
      | some r =>
          rw [blocks_cons_of_some hline]
          intro b hb
          rcases List.mem_cons.mp hb with rfl | hb
          · refine ⟨?_, ofLine?_above rest⟩
            rw [RevisionLine.line_of_ofLine? hline]
            exact hline
          · exact ih b hb

theorem above_append_flatMap_blocks (lines : List Line) :
    (blocks lines).1 ++ (blocks lines).2.flatMap Block.lines = lines := by
  induction lines with
  | nil => rfl
  | cons line rest ih =>
      cases hline : RevisionLine.ofLine? line with
      | none =>
          rw [blocks_cons_of_none hline, List.cons_append, ih]
      | some r =>
          rw [blocks_cons_of_some hline, List.nil_append, List.flatMap_cons]
          simp only [Block.lines, List.cons_append, ih, RevisionLine.line_of_ofLine? hline]

theorem flatMap_blocks_eq_dropWhile (lines : List Line) :
    (blocks lines).2.flatMap Block.lines = lines.dropWhile fun line => !line.startsRow := by
  induction lines with
  | nil => rfl
  | cons line rest ih =>
      cases hline : RevisionLine.ofLine? line with
      | none =>
          have hstarts := startsRow_eq_false_iff.mpr hline
          rw [blocks_cons_of_none hline, List.dropWhile_cons_of_pos (by simp [hstarts]), ih]
      | some r =>
          have hstarts := startsRow_of_ofLine? hline
          have hrest := above_append_flatMap_blocks rest
          rw [blocks_cons_of_some hline, List.dropWhile_cons_of_neg (by simp [hstarts]),
            List.flatMap_cons]
          simp only [Block.lines, List.cons_append, hrest, RevisionLine.line_of_ofLine? hline]

theorem length_blocks (lines : List Line) :
    (blocks lines).2.length = lines.countP Line.startsRow := by
  induction lines with
  | nil => rfl
  | cons line rest ih =>
      cases hline : RevisionLine.ofLine? line with
      | none =>
          have hstarts := startsRow_eq_false_iff.mpr hline
          rw [blocks_cons_of_none hline, List.countP_cons_of_neg (by simp [hstarts]), ih]
      | some r =>
          have hstarts := startsRow_of_ofLine? hline
          rw [blocks_cons_of_some hline, List.countP_cons_of_pos hstarts, List.length_cons, ih]

private theorem blocks_append_of_none {above : List Line}
    (habove : ∀ line ∈ above, RevisionLine.ofLine? line = none) (rest : List Line) :
    blocks (above ++ rest) = (above ++ (blocks rest).1, (blocks rest).2) := by
  induction above with
  | nil => rfl
  | cons line above ih =>
      have hrest := ih fun l hl => habove l (by simp [hl])
      rw [List.cons_append, blocks_cons_of_none (habove line (by simp)), hrest]
      rfl

theorem blocks_flatMap_lines {bs : List Block} (hbs : ∀ b ∈ bs, b.Tight) :
    blocks (bs.flatMap Block.lines) = ([], bs) := by
  induction bs with
  | nil => rfl
  | cons b bs ih =>
      obtain ⟨hfirst, hbelow⟩ := hbs b (by simp)
      have hrest := ih fun c hc => hbs c (by simp [hc])
      have happend := blocks_append_of_none hbelow (bs.flatMap Block.lines)
      rw [hrest, List.append_nil] at happend
      rw [List.flatMap_cons, Block.lines, List.cons_append, blocks_cons_of_some hfirst, happend]

/-! ## Rows of blocks -/

namespace Row

def segmentLines (row : Row) : List Line :=
  row.lines.map GraphLine.segments

def above : Nat → Option Nat
  | 0 => none
  | i + 1 => some i

@[simp] theorem segmentLines_ofLines (r : RevisionLine) (below : List Line)
    (previous : Option Nat) : (ofLines r below previous).segmentLines = r.line :: below := by
  simp [segmentLines, ofLines, Function.comp_def]

theorem flagsBelow_revision (indent : Nat) (line : Line) :
    (flagsBelow indent line).revision = false := by
  unfold flagsBelow
  split <;> rfl

theorem flagsBelow_elided (indent : Nat) (line : Line) :
    ¬((flagsBelow indent line).elided = true ∧ (flagsBelow indent line).highlightable = true) := by
  unfold flagsBelow
  split <;> simp

/-- The row has a first line, which alone starts a row and carries the change id. No line below it
is both an elision and part of the highlight. -/
structure Cut (row : Row) (first : GraphLine) (below : List GraphLine) : Prop where
  lines_eq : row.lines = first :: below
  first_startsRow : first.segments.startsRow = true
  below_startsRow : ∀ line ∈ below, line.segments.startsRow = false
  first_revision : first.flags.revision = true
  below_revision : ∀ line ∈ below, line.flags.revision = false
  first_highlightable : first.flags.highlightable = true
  below_elided : ∀ line ∈ below, ¬(line.flags.elided = true ∧ line.flags.highlightable = true)

end Row

def rowsOfBlocks : Nat → List Block → List Row
  | _, [] => []
  | n, (r, below) :: bs => .ofLines r below (Row.above n) :: rowsOfBlocks (n + 1) bs

theorem length_rowsOfBlocks (n : Nat) (bs : List Block) :
    (rowsOfBlocks n bs).length = bs.length := by
  induction bs generalizing n with
  | nil => rfl
  | cons b bs ih => simp only [rowsOfBlocks, List.length_cons, ih]

theorem flatMap_segmentLines_rowsOfBlocks (n : Nat) (bs : List Block) :
    (rowsOfBlocks n bs).flatMap Row.segmentLines = bs.flatMap Block.lines := by
  induction bs generalizing n with
  | nil => rfl
  | cons b bs ih =>
      simp only [rowsOfBlocks, List.flatMap_cons, Row.segmentLines_ofLines, Block.lines, ih]

theorem map_previous_rowsOfBlocks (n : Nat) (bs : List Block) :
    (rowsOfBlocks n bs).map Row.previous = (List.range' n bs.length).map Row.above := by
  induction bs generalizing n with
  | nil => rfl
  | cons b bs ih =>
      simp only [rowsOfBlocks, List.map_cons, List.length_cons, List.range'_succ, ih]
      rfl

theorem Block.Tight.cut {b : Block} (h : b.Tight) (previous : Option Nat) :
    ∃ first below, (Row.ofLines b.1 b.2 previous).Cut first below := by
  obtain ⟨hfirst, hbelow⟩ := h
  refine ⟨⟨b.1.line, ⟨true, true, false⟩⟩,
    b.2.map fun line => ⟨line, Row.flagsBelow b.1.gutter.width line⟩, ?_⟩
  constructor
  case lines_eq => rfl
  case first_startsRow => exact startsRow_of_ofLine? hfirst
  case below_startsRow =>
    intro line hline
    obtain ⟨l, hl, rfl⟩ := List.mem_map.mp hline
    exact startsRow_eq_false_iff.mpr (hbelow l hl)
  case first_revision => rfl
  case below_revision =>
    intro line hline
    obtain ⟨l, -, rfl⟩ := List.mem_map.mp hline
    exact Row.flagsBelow_revision ..
  case first_highlightable => rfl
  case below_elided =>
    intro line hline
    obtain ⟨l, -, rfl⟩ := List.mem_map.mp hline
    exact Row.flagsBelow_elided _ l

theorem exists_block_of_mem_rowsOfBlocks {n : Nat} {bs : List Block} {row : Row}
    (h : row ∈ rowsOfBlocks n bs) : ∃ b ∈ bs, ∃ previous, row = .ofLines b.1 b.2 previous := by
  induction bs generalizing n with
  | nil => simp [rowsOfBlocks] at h
  | cons b bs ih =>
      rcases List.mem_cons.mp h with rfl | hrest
      · exact ⟨b, List.mem_cons_self, _, rfl⟩
      · obtain ⟨c, hc, hrow⟩ := ih hrest
        exact ⟨c, List.mem_cons_of_mem _ hc, hrow⟩

theorem cut_of_mem_rowsOfBlocks {n : Nat} {bs : List Block} (hbs : ∀ b ∈ bs, b.Tight) :
    ∀ row ∈ rowsOfBlocks n bs, ∃ first below, row.Cut first below := by
  intro row hrow
  obtain ⟨b, hb, previous, rfl⟩ := exists_block_of_mem_rowsOfBlocks hrow
  exact (hbs b hb).cut previous

/-! ## The builder -/

namespace RowBuilder

theorem build_cons (b : RowBuilder) (line : Line) (rest : List Line) :
    b.build (line :: rest) =
      (((b.push line).1.build rest).1,
        (b.push line).2.toList ++ ((b.push line).1.build rest).2) := by
  simp only [build, pushAll, List.append_assoc]

theorem build_open (o : OpenRow) (n : Nat) (ho : o.previous = Row.above n) (lines : List Line) :
    build ⟨some o, n⟩ lines =
      (⟨none, n + 1 + (blocks lines).2.length⟩,
        rowsOfBlocks n
          ((o.revision, o.below.reverse ++ (blocks lines).1) :: (blocks lines).2)) := by
  -- The open row and the number of rows sealed change together, so both are generalised.
  induction lines generalizing o n with
  | nil =>
      simp only [build, pushAll, finish, blocks, rowsOfBlocks, OpenRow.row, ho, List.append_nil]
      rfl
  | cons line rest ih =>
      rw [build_cons]
      cases hline : RevisionLine.ofLine? line with
      | none =>
          have hrest := ih (o.addLine line) n ho
          simp only [OpenRow.addLine, List.reverse_cons, List.append_assoc] at hrest
          simp only [push, hline, Option.map_some, blocks_cons_of_none hline, OpenRow.addLine,
            hrest]
          rfl
      | some r =>
          have hrest := ih ⟨r, some n, []⟩ (n + 1) rfl
          simp only [push, hline, blocks_cons_of_some hline, hrest]
          simp only [rowsOfBlocks, OpenRow.row, ho, List.length_cons, List.append_nil,
            List.reverse_nil, List.nil_append, Option.toList_some, List.cons_append]
          congr 2
          omega

theorem build_empty (lines : List Line) :
    empty.build lines =
      (⟨none, (blocks lines).2.length⟩, rowsOfBlocks 0 (blocks lines).2) := by
  induction lines with
  | nil => rfl
  | cons line rest ih =>
      rw [build_cons]
      cases hline : RevisionLine.ofLine? line with
      | none =>
          have hpush : empty.push line = (empty, none) := by
            simp only [push, hline, empty, Option.map_none]
          rw [hpush, ih, blocks_cons_of_none hline]
          rfl
      | some r =>
          have hrest := build_open ⟨r, none, []⟩ 0 rfl rest
          simp only [push, hline, empty, blocks_cons_of_some hline, hrest, List.length_cons,
            List.reverse_nil, List.nil_append]
          congr 2
          omega

end RowBuilder

theorem rowsOf_eq (lines : List Line) : rowsOf lines = rowsOfBlocks 0 (blocks lines).2 := by
  rw [rowsOf, RowBuilder.rows, RowBuilder.build_empty]

theorem exists_block_of_mem_rowsOf {lines : List Line} {row : Row} (h : row ∈ rowsOf lines) :
    ∃ b : Block, b.Tight ∧ ∃ previous, row = .ofLines b.1 b.2 previous := by
  rw [rowsOf_eq] at h
  obtain ⟨b, hb, hrow⟩ := exists_block_of_mem_rowsOfBlocks h
  exact ⟨b, tight_of_mem_blocks lines b hb, hrow⟩

theorem exists_revisionLine_of_mem_rowsOf {lines : List Line} {row : Row} (h : row ∈ rowsOf lines) :
    ∃ line r, RevisionLine.ofLine? line = some r ∧ row.commit = r.commit := by
  obtain ⟨b, htight, previous, rfl⟩ := exists_block_of_mem_rowsOf h
  exact ⟨_, b.1, htight.1, rfl⟩

theorem mem_of_mem_segmentLines {lines : List Line} {row : Row} (hrow : row ∈ rowsOf lines)
    {line : Line} (hline : line ∈ row.segmentLines) : line ∈ lines := by
  have hmem : line ∈ (rowsOf lines).flatMap Row.segmentLines :=
    List.mem_flatMap.mpr ⟨row, hrow, hline⟩
  rw [rowsOf_eq, flatMap_segmentLines_rowsOfBlocks, flatMap_blocks_eq_dropWhile] at hmem
  exact (List.dropWhile_sublist _).subset hmem

theorem length_rowsOf (lines : List Line) :
    (rowsOf lines).length = lines.countP Line.startsRow := by
  rw [rowsOf_eq, length_rowsOfBlocks, length_blocks]

theorem previous_rowsOf (lines : List Line) :
    (rowsOf lines).map Row.previous = (List.range (rowsOf lines).length).map Row.above := by
  rw [rowsOf_eq, map_previous_rowsOfBlocks, length_rowsOfBlocks, List.range_eq_range']

/-- The rows hold the lines from the first one that starts a row on, each line once and in order. -/
theorem rows_partition_lines (lines : List Line) :
    (rowsOf lines).flatMap Row.segmentLines = lines.dropWhile (fun line => !line.startsRow) ∧
      (∀ row ∈ rowsOf lines, ∃ first below, row.Cut first below) ∧
      (rowsOf lines).length = lines.countP Line.startsRow ∧
      (rowsOf lines).map Row.previous = (List.range (rowsOf lines).length).map Row.above ∧
      (RowBuilder.empty.build lines).1.sealed = (rowsOf lines).length ∧
      rowsOf ((rowsOf lines).flatMap Row.segmentLines) = rowsOf lines := by
  have hlines : (rowsOf lines).flatMap Row.segmentLines =
      (blocks lines).2.flatMap Block.lines := by
    rw [rowsOf_eq, flatMap_segmentLines_rowsOfBlocks]
  refine ⟨?_, ?_, length_rowsOf lines, previous_rowsOf lines, ?_, ?_⟩
  · rw [hlines, flatMap_blocks_eq_dropWhile]
  · rw [rowsOf_eq]
    exact cut_of_mem_rowsOfBlocks (tight_of_mem_blocks lines)
  · rw [RowBuilder.build_empty, rowsOf_eq, length_rowsOfBlocks]
  · rw [hlines, rowsOf_eq, rowsOf_eq, blocks_flatMap_lines (tight_of_mem_blocks lines)]

theorem rows_partition_lines_around_elision :
    let lines : List Line :=
      [[.plain "above"], [.plain "*  ", .plain "kx", .plain " a"], [.plain "~"],
        [.plain "*  ", .plain "mz", .plain " b"]]
    ∃ row ∈ rowsOf lines, row.height = 2 ∧ ∃ first below, row.Cut first below := by
  intro lines
  have hlength : 0 < (rowsOf lines).length := by decide
  have hmem := List.getElem_mem hlength
  exact ⟨_, hmem, rfl, (rows_partition_lines lines).2.1 _ hmem⟩

end RevisionGraph
