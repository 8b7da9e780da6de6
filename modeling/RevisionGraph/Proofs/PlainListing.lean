import RevisionGraph.Bookmark.Listing
import RevisionGraph.Proofs.Unstyling

/-!
# Colours in plain listings

A plain listing comes in colour, and the reader takes the renditions out of the name of a line only.
Taking them out of the whole listing first is the same as taking them out of each line, and of each
word in it (`words_unstyled`), so the two readings can be compared line by line: they agree exactly
where the mark and the id that are read stay as they are (`readPlainListing_unstyled_iff`).
-/

namespace RevisionGraph

open Unstyled (Composed EscapesSet isRendition_of_all)

/-! ## Words and lines of a text without renditions -/

namespace Text

theorem words_dropReturn (cs : List Char) : words (dropReturn cs) = words cs := by
  unfold dropReturn
  split
  · next hlast =>
      obtain ⟨front, rfl⟩ := List.getLast?_eq_some_iff.mp hlast
      have hblank : isBlank '\r' = true := by decide
      rw [List.dropLast_concat, words, words, List.splitOnP_append_cons _ _ hblank]
      simp
  · rfl

theorem exists_piece_of_mem_endLines {pieces : List (List Char)} {line : List Char}
    (h : line ∈ endLines pieces) : ∃ piece ∈ pieces, words piece = words line := by
  induction pieces with
  | nil => exact absurd h List.not_mem_nil
  | cons piece rest ih =>
      cases rest with
      | nil =>
          unfold endLines at h
          split at h
          · exact absurd h List.not_mem_nil
          · exact ⟨line, h, rfl⟩
      | cons next rest =>
          rcases List.mem_cons.mp h with rfl | hrest
          · exact ⟨piece, List.mem_cons_self .., (words_dropReturn piece).symm⟩
          · obtain ⟨other, hmem, hwords⟩ := ih hrest
            exact ⟨other, List.mem_cons_of_mem _ hmem, hwords⟩

theorem filterMap_lines {α : Type} {f : List Char → Option α} (hempty : f [] = none)
    (hreturn : ∀ piece, f (dropReturn piece) = f piece) (cs : List Char) :
    (lines cs).filterMap f = (cs.splitOn '\n').filterMap f := by
  unfold lines
  induction cs.splitOn '\n' with
  | nil => rfl
  | cons piece rest ih =>
      cases rest with
      | nil => cases piece <;> simp [endLines, hempty]
      | cons next rest =>
          have hlines : endLines (piece :: next :: rest) =
              dropReturn piece :: endLines (next :: rest) := rfl
          rw [hlines, List.filterMap_cons, hreturn, ih, ← List.filterMap_cons]

theorem words_unstyled (cs : List Char) :
    words (unstyled cs) = ((words cs).map unstyled).filter fun w => !w.isEmpty := by
  rw [words, words, Unstyled.splitOnP_unstyled fun _ => Unstyled.isOutside_of_isBlank,
    List.filter_map, List.filter_map, List.filter_filter]
  congr 1
  apply List.filter_congr
  intro w _
  cases w <;> simp

theorem length_words_unstyled_le (cs : List Char) :
    (words (unstyled cs)).length ≤ (words cs).length := by
  rw [words_unstyled]
  exact Nat.le_trans (List.length_filter_le _ _) (Nat.le_of_eq (List.length_map unstyled))

end Text

/-! ## One line -/

/-- The id that is read, and whether the bookmark is in conflict, by the words behind the name. -/
def idAndMark (second : List Char) : Option (List Char) → List Char × Bool
  | some third => if second = conflictMark then (third, true) else (second, false)
  | none => (second, false)

theorem idAndMark_inj {second second' : List Char} {third third' : Option (List Char)} :
    idAndMark second third = idAndMark second' third' ↔
      second = second' ∧ (second = conflictMark → third = third') := by
  cases third <;> cases third' <;> simp only [idAndMark] <;> grind

theorem plainBookmark_inj {name name' id id' : List Char} {mark mark' : Bool} :
    plainBookmark name id mark = plainBookmark name' id' mark' ↔
      unstyled name = unstyled name' ∧ (id, mark) = (id', mark') := by
  simp only [plainBookmark, Bookmark.mk.injEq, Option.some_inj, Pointer.mk.injEq, String.ofList_inj,
    Prod.mk.injEq, true_and, and_true]
  tauto

theorem plainBookmark?_of_words {line name second : List Char} {rest : List (List Char)}
    (h : Text.words line = name :: second :: rest) :
    plainBookmark? line =
      some (plainBookmark name (idAndMark second rest.head?).1 (idAndMark second rest.head?).2) := by
  cases rest with
  | nil => simp [plainBookmark?, h, idAndMark]
  | cons third rest =>
      simp only [plainBookmark?, h, List.head?_cons, idAndMark]
      split <;> rfl

theorem plainBookmark?_eq_none_iff {line : List Char} :
    plainBookmark? line = none ↔ (Text.words line).length < 2 := by
  match h : Text.words line with
  | [] => simp [plainBookmark?, h]
  | [name] => simp [plainBookmark?, h]
  | name :: second :: rest => simp [plainBookmark?_of_words h]

theorem exists_words_of_plainBookmark? {line : List Char} {b : Bookmark}
    (h : plainBookmark? line = some b) :
    ∃ name second rest, Text.words line = name :: second :: rest ∧
      b = plainBookmark name (idAndMark second rest.head?).1 (idAndMark second rest.head?).2 := by
  match hwords : Text.words line with
  | [] | [_] => simp [plainBookmark?, hwords] at h
  | name :: second :: rest =>
      rw [plainBookmark?_of_words hwords, Option.some_inj] at h
      exact ⟨name, second, rest, rfl, h.symm⟩

/-- Without its renditions a line still has its second word, after a name that reads the same, and the
third if that is the id. -/
def KeepsReading (line : List Char) : Prop :=
  ∀ name second rest, Text.words line = name :: second :: rest →
    ∃ name' rest', Text.words (unstyled line) = name' :: second :: rest' ∧
      unstyled name' = unstyled name ∧ (second = conflictMark → rest'.head? = rest.head?)

theorem plainBookmark?_unstyled_eq_iff {line : List Char} :
    plainBookmark? (unstyled line) = plainBookmark? line ↔ KeepsReading line := by
  constructor
  · intro h name second rest hwords
    rw [plainBookmark?_of_words hwords] at h
    obtain ⟨name', second', rest', hwords', hsame⟩ := exists_words_of_plainBookmark? h
    obtain ⟨hname, hrest⟩ := plainBookmark_inj.mp hsame
    obtain ⟨rfl, hthird⟩ := idAndMark_inj.mp hrest
    exact ⟨name', rest', hwords', hname.symm, fun hmark => (hthird hmark).symm⟩
  · intro h
    match hwords : Text.words line with
    | name :: second :: rest =>
        obtain ⟨name', rest', hwords', hname, hthird⟩ := h name second rest hwords
        have hsame : idAndMark second rest'.head? = idAndMark second rest.head? :=
          idAndMark_inj.mpr ⟨rfl, hthird⟩
        rw [plainBookmark?_of_words hwords, plainBookmark?_of_words hwords', hsame, Option.some_inj,
          plainBookmark_inj]
        exact ⟨hname, rfl⟩
    | [] | [_] =>
        have hshort : (Text.words line).length < 2 := by simp [hwords]
        have hle := Text.length_words_unstyled_le line
        rw [plainBookmark?_eq_none_iff.mpr hshort, plainBookmark?_eq_none_iff]
        omega

/-! ## Lines in which every escape begins a rendition -/

/-- No rendition is in the words behind the name that are read, and the name is more than renditions. -/
def ColoursNameAlone (line : List Char) : Prop :=
  ∀ name second rest, Text.words line = name :: second :: rest →
    unstyled name ≠ [] ∧ unstyled second = second ∧
      (second = conflictMark → ∀ third ∈ rest.head?, unstyled third = third)

theorem keepsReading_iff {line : List Char}
    (h : ∀ w ∈ Text.words line, '\x1B' ∉ unstyled w) :
    KeepsReading line ↔ ColoursNameAlone line := by
  have hplain : ∀ w ∈ Text.words (unstyled line), w ≠ [] ∧ unstyled w = w := by
    intro w hw
    rw [Text.words_unstyled, List.mem_filter, List.mem_map] at hw
    obtain ⟨⟨v, hv, rfl⟩, hne⟩ := hw
    exact ⟨by simpa using hne, Unstyled.unstyled_eq_self (h v hv)⟩
  refine forall₃_congr fun name second rest => forall_congr' fun hwords => ?_
  have hwords' := Text.words_unstyled line
  rw [hwords] at hwords'
  constructor
  · rintro ⟨name', rest', hkept, hname, hthird⟩
    obtain ⟨hne, hsame⟩ := hplain name' (by simp [hkept])
    obtain ⟨-, hsecond⟩ := hplain second (by simp [hkept])
    rw [← hname, hsame]
    refine ⟨hne, hsecond, fun hmark third hmem => ?_⟩
    rw [← hthird hmark] at hmem
    exact (hplain third (by simp [hkept, List.mem_of_mem_head? hmem])).2
  · rintro ⟨hne, hsecond, hthird⟩
    have hwhole : ∀ w ∈ Text.words line, w ≠ [] := by
      intro w hw
      simpa using (List.mem_filter.mp hw).2
    have hkept : second ≠ [] := hwhole second (by simp [hwords])
    refine ⟨unstyled name, (rest.map unstyled).filter fun w => !w.isEmpty, ?_, ?_, fun hmark => ?_⟩
    · rw [hwords']
      simp [hsecond, hne, hkept]
    · exact Unstyled.unstyled_eq_self (h name (by simp [hwords]))
    · cases rest with
      | nil => rfl
      | cons third rest =>
          have hsame : unstyled third = third := hthird hmark third rfl
          have hne : third ≠ [] := hwhole third (by simp [hwords])
          simp [hsame, hne]

/-! ## Whole listings -/

section FilterMap

variable {α β : Type} {f g : α → Option β} {as : List α}

theorem length_filterMap_le_of_none (h : ∀ a ∈ as, f a = none → g a = none) :
    (as.filterMap g).length ≤ (as.filterMap f).length := by
  induction as with
  | nil => exact Nat.le_refl _
  | cons a as ih =>
      obtain ⟨ha, has⟩ := List.forall_mem_cons.mp h
      have hrest := ih has
      cases hf : f a with
      | none => simpa [hf, ha hf] using hrest
      | some b => cases hg : g a <;> simp [hf, hg] <;> omega

theorem filterMap_eq_filterMap_iff (h : ∀ a ∈ as, f a = none → g a = none) :
    as.filterMap g = as.filterMap f ↔ ∀ a ∈ as, g a = f a := by
  refine ⟨fun heq => ?_, List.filterMap_congr⟩
  induction as with
  | nil => exact List.forall_mem_nil _
  | cons a as ih =>
      obtain ⟨ha, has⟩ := List.forall_mem_cons.mp h
      have hle := length_filterMap_le_of_none has
      rw [List.forall_mem_cons]
      cases hf : f a with
      | none =>
          rw [List.filterMap_cons_none hf, List.filterMap_cons_none (ha hf)] at heq
          exact ⟨ha hf, ih has heq⟩
      | some b =>
          rw [List.filterMap_cons_some hf] at heq
          cases hg : g a with
          | none =>
              -- A line that is lost leaves too few bookmarks, since no other line makes up for it.
              rw [List.filterMap_cons_none hg] at heq
              have hlength := congrArg List.length heq
              rw [List.length_cons] at hlength
              omega
          | some c =>
              rw [List.filterMap_cons_some hg] at heq
              obtain ⟨rfl, hrest⟩ := List.cons.inj heq
              exact ⟨rfl, ih has hrest⟩

end FilterMap

theorem plainBookmark?_eq_of_words {line line' : List Char} (h : Text.words line = Text.words line') :
    plainBookmark? line = plainBookmark? line' := by
  rw [plainBookmark?, plainBookmark?, h]

theorem isOutside_of_isBreak (c : Char) (h : (c == '\n') = true) : Unstyled.IsOutside c := by
  rw [beq_iff_eq.mp h]
  exact Unstyled.isOutside_of_isBlank (by decide)

theorem readPlainListing_unstyled (output : String) :
    readPlainListing (String.ofList (unstyled output.toList)) =
      (Text.lines output.toList).filterMap fun line => plainBookmark? (unstyled line) := by
  have hreturn (piece : List Char) :
      plainBookmark? (unstyled (Text.dropReturn piece)) = plainBookmark? (unstyled piece) := by
    apply plainBookmark?_eq_of_words
    rw [Text.words_unstyled, Text.words_unstyled, Text.words_dropReturn]
  have hplain (piece : List Char) :
      plainBookmark? (Text.dropReturn piece) = plainBookmark? piece :=
    plainBookmark?_eq_of_words (Text.words_dropReturn piece)
  rw [readPlainListing, String.toList_ofList, Text.filterMap_lines rfl hplain,
    Text.filterMap_lines rfl hreturn, List.splitOn_eq_splitOnP, List.splitOn_eq_splitOnP,
    Unstyled.splitOnP_unstyled isOutside_of_isBreak, List.filterMap_map]
  rfl

theorem escape_notMem_of_word {output line w : List Char} (h : EscapesSet output)
    (hline : line ∈ Text.lines output) (hw : w ∈ Text.words line) : '\x1B' ∉ unstyled w := by
  obtain ⟨piece, hpiece, hwords⟩ := Text.exists_piece_of_mem_endLines hline
  rw [← hwords] at hw
  rw [List.splitOn_eq_splitOnP] at hpiece
  have hword : unstyled w ⊆ unstyled piece :=
    Unstyled.unstyled_subset_of_mem_splitOnP (fun _ => Unstyled.isOutside_of_isBlank)
      (List.mem_of_mem_filter hw)
  have hwhole : unstyled piece ⊆ unstyled output :=
    Unstyled.unstyled_subset_of_mem_splitOnP isOutside_of_isBreak hpiece
  exact fun hescape => Unstyled.escape_notMem_unstyled h.composed (hwhole (hword hescape))

/-- Reading a listing without its renditions gives the same bookmarks exactly if every line keeps what
is read of it. Where every escape begins a rendition, this is to say that the colours are in names
alone; no name has an escape then. -/
theorem readPlainListing_unstyled_iff (output : String) :
    (readPlainListing (String.ofList (unstyled output.toList)) = readPlainListing output ↔
      ∀ line ∈ Text.lines output.toList, KeepsReading line) ∧
    (EscapesSet output.toList →
      (readPlainListing (String.ofList (unstyled output.toList)) = readPlainListing output ↔
        ∀ line ∈ Text.lines output.toList, ColoursNameAlone line) ∧
      ∀ b ∈ readPlainListing output, '\x1B' ∉ b.name.toList) := by
  have hkeeps : readPlainListing (String.ofList (unstyled output.toList)) = readPlainListing output ↔
      ∀ line ∈ Text.lines output.toList, KeepsReading line := by
    rw [readPlainListing_unstyled, readPlainListing, filterMap_eq_filterMap_iff]
    · exact forall₂_congr fun line _ => plainBookmark?_unstyled_eq_iff
    · intro line _ hnone
      have hle := Text.length_words_unstyled_le line
      rw [plainBookmark?_eq_none_iff] at hnone ⊢
      omega
  refine ⟨hkeeps, fun h => ⟨?_, ?_⟩⟩
  · rw [hkeeps]
    exact forall₂_congr fun line hline => keepsReading_iff fun w => escape_notMem_of_word h hline
  · intro b hb
    obtain ⟨line, hline, hread⟩ := List.mem_filterMap.mp hb
    obtain ⟨name, second, rest, hwords, rfl⟩ := exists_words_of_plainBookmark? hread
    have hname : '\x1B' ∉ unstyled name := escape_notMem_of_word h hline (by simp [hwords])
    rwa [plainBookmark, String.toList_ofList]

theorem readPlainListing_unstyled_iff_of_coloured_name :
    let output := "\x1B[38;5;5mdev\x1B[39m (conflict) zzz\n"
    EscapesSet output.toList ∧
      readPlainListing (String.ofList (unstyled output.toList)) = readPlainListing output ∧
        ∀ b ∈ readPlainListing output, '\x1B' ∉ b.name.toList := by
  intro output
  have hescape : EscapesSet output.toList := by
    have hchars : output.toList = ['\x1B', '[', '3', '8', ';', '5', ';', '5', 'm'] ++ 'd' :: 'e' ::
        'v' :: (['\x1B', '[', '3', '9', 'm'] ++ " (conflict) zzz\n".toList) := by
      decide
    rw [hchars]
    apply Composed.escapesSet
    refine .rendition (isRendition_of_all ['3', '8', ';', '5', ';', '5'] rfl) ?_
    refine .char (by decide) (.char (by decide) (.char (by decide) ?_))
    refine .rendition (isRendition_of_all ['3', '9'] rfl) ?_
    exact Unstyled.composed_of_escape_notMem (by decide)
  have hcolours : ∀ line ∈ Text.lines output.toList, ColoursNameAlone line := by
    have hlines : Text.lines output.toList = ["\x1B[38;5;5mdev\x1B[39m (conflict) zzz".toList] := by
      decide
    have hwords : Text.words "\x1B[38;5;5mdev\x1B[39m (conflict) zzz".toList =
        ["\x1B[38;5;5mdev\x1B[39m".toList, conflictMark, "zzz".toList] := by
      decide
    rw [hlines, List.forall_mem_singleton]
    intro name second rest hline
    rw [hwords, List.cons_eq_cons, List.cons_eq_cons] at hline
    obtain ⟨rfl, rfl, rfl⟩ := hline
    decide
  have hread := (readPlainListing_unstyled_iff output).2 hescape
  exact ⟨hescape, hread.1.mpr hcolours, hread.2⟩

/-- The colours of an id go into the bookmark. -/
theorem readPlainListing_unstyled_ne_of_coloured_id :
    let output :=
      "\x1B[38;5;5mmain\x1B[39m \x1B[1m\x1B[38;5;5mq\x1B[0m\x1B[38;5;8mpvuns\x1B[39m\n"
    readPlainListing (String.ofList (unstyled output.toList)) ≠ readPlainListing output ∧
      (readPlainListing output).map Bookmark.commitId =
        ["\x1B[1m\x1B[38;5;5mq\x1B[0m\x1B[38;5;8mpvuns\x1B[39m"] := by
  decide +kernel

end RevisionGraph
