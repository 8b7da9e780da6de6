import RevisionGraph.View.BookmarkPanel

/-!
# Lines of the bookmark panel

A line of the panel has up to three parts: the name, the commit id behind a blank, and blanks that
fill up the line of the selected bookmark. Each part gets the room that the parts before it leave.
A part without enough room ends in an ellipsis, and where there is no room for an ellipsis either,
it is empty (`Text.truncate_zero`).
-/

namespace RevisionGraph

namespace Text

variable {text : String} {limit : Nat}

/-- The text as it is if it has at most `limit` characters, and else its first `limit - 1`
characters and an ellipsis. -/
inductive Shortened (text : String) (limit : Nat) : String → Prop
  | whole (fits : text.length ≤ limit) : Shortened text limit text
  | cut {kept : String} (long : limit < text.length)
      (kept_eq : kept.toList = text.toList.take (limit - 1)) :
      Shortened text limit (kept ++ "…")

theorem truncate_of_le (h : text.length ≤ limit) : truncate text limit = text :=
  if_pos h

theorem truncate_of_lt (h : limit < text.length) (hlimit : 0 < limit) :
    truncate text limit = String.ofList (text.toList.take (limit - 1)) ++ "…" := by
  rw [truncate, if_neg (Nat.not_le.mpr h), if_neg (Nat.ne_of_gt hlimit), String.ofList_append]

theorem truncate_zero (text : String) : truncate text 0 = "" :=
  String.length_eq_zero_iff.mp (Nat.le_zero.mp (length_truncate_le text 0))

theorem shortened_truncate (text : String) (hlimit : 0 < limit) :
    Shortened text limit (truncate text limit) := by
  rcases Nat.lt_or_ge limit text.length with hlong | hfits
  · rw [truncate_of_lt hlong hlimit]
    exact .cut hlong String.toList_ofList
  · rw [truncate_of_le hfits]
    exact .whole hfits

theorem truncate_blank_append (text : String) (hlimit : 1 < limit) :
    truncate (" " ++ text) limit = " " ++ truncate text (limit - 1) := by
  have hlength : (" " ++ text).length = text.length + 1 := by
    rw [String.length_append, Nat.add_comm]
    rfl
  rcases Nat.lt_or_ge (limit - 1) text.length with hlong | hfits
  · have hkept : (" " ++ text).toList.take (limit - 1) =
        ' ' :: text.toList.take (limit - 1 - 1) := by
      obtain ⟨n, rfl⟩ : ∃ n, limit = n + 2 := ⟨limit - 2, by omega⟩
      rw [String.toList_append]
      rfl
    rw [truncate_of_lt (by omega) (by omega), truncate_of_lt hlong (by omega), hkept,
      ← String.append_assoc]
    congr 1
    exact String.ofList_cons
  · rw [truncate_of_le (by omega), truncate_of_le hfits]

end Text

namespace BookmarkPanel

/-! ## The parts of a line -/

variable (b : Bookmark) (width : Nat) (isSelected : Bool) (theme : Theme)

def shownName : String :=
  Text.truncate (nameText b) width

/-- The columns behind the name, but for one that stays free. -/
def idRoom : Nat :=
  width - ((shownName b width).length + 1)

def shownId? : Option String :=
  if b.commitId.isEmpty ∨ idRoom b width ≤ 1 then none
  else some (Text.truncate (" " ++ b.commitId) (idRoom b width))

def shownText : String :=
  shownName b width ++ (shownId? b width).getD ""

theorem length_shownId_le : ((shownId? b width).getD "").length ≤ idRoom b width := by
  unfold shownId?
  split
  · exact Nat.zero_le _
  · exact Text.length_truncate_le ..

theorem length_shownText_le : (shownText b width).length ≤ width := by
  have hname := Text.length_truncate_le (nameText b) width
  have hid := length_shownId_le b width
  rw [shownText, String.length_append]
  unfold idRoom at hid
  unfold shownName at hid ⊢
  omega

def shade (key : StyleKey) : Style :=
  if isSelected then (theme.style key).patch (theme.style .selected) else theme.style key

def shownLine : Line :=
  ⟨shownName b width, shade isSelected theme .text⟩ ::
    ((shownId? b width).map fun id => ⟨id, shade isSelected theme .dimmed⟩).toList

theorem text_shownLine : (shownLine b width isSelected theme).text = shownText b width := by
  rw [shownLine, Line.text_cons, shownText]
  cases shownId? b width with
  | none => rfl
  | some id =>
      rw [Option.map_some, Option.toList_some, Line.text_cons, Line.text_nil, String.append_empty]
      rfl

theorem bookmarkLine_eq :
    let line := shownLine b width isSelected theme
    bookmarkLine b width isSelected theme =
      if isSelected ∧ line.width < width then
        line ++ [⟨Text.spaces (width - line.width), shade isSelected theme .text⟩]
      else line := by
  have hid : ((shownId? b width).map fun id => ⟨id, shade isSelected theme .dimmed⟩).toList =
      if b.commitId.isEmpty ∨ idRoom b width ≤ 1 then ([] : Line)
      else
        [⟨Text.truncate (" " ++ b.commitId) (idRoom b width), shade isSelected theme .dimmed⟩] := by
    unfold shownId?
    split <;> rfl
  rw [shownLine, hid]
  rfl

theorem text_bookmarkLine :
    (bookmarkLine b width isSelected theme).text =
      shownText b width ++
        if isSelected then Text.spaces (width - (shownText b width).length) else "" := by
  rw [bookmarkLine_eq, ← text_shownLine b width isSelected theme, Line.length_text]
  cases isSelected with
  | false =>
      rw [if_neg (fun h => Bool.false_ne_true h.1), if_neg Bool.false_ne_true, String.append_empty]
  | true =>
      split
      · rw [if_pos rfl, Line.text_append, Line.text_cons, Line.text_nil, String.append_empty]
      · next hfull =>
          have hspaces : width - (shownLine b width true theme).width = 0 := by
            have hge : ¬(shownLine b width true theme).width < width := fun hlt => hfull ⟨rfl, hlt⟩
            omega
          rw [if_pos rfl, hspaces]
          exact String.append_empty.symm

theorem shownId?_cases :
    (shownId? b width = none ∧ (b.commitId = "" ∨ width < (shownName b width).length + 3)) ∨
      b.commitId ≠ "" ∧ (shownName b width).length + 3 ≤ width ∧
        ∃ shown, Text.Shortened b.commitId (width - (shownName b width).length - 2) shown ∧
          shownId? b width = some (" " ++ shown) := by
  unfold shownId?
  split
  · next habsent =>
      refine .inl ⟨rfl, ?_⟩
      rcases habsent with hempty | hroom
      · exact .inl (String.isEmpty_iff.mp hempty)
      · unfold idRoom at hroom
        exact .inr (by omega)
  · next hpresent =>
      obtain ⟨hid, hroom⟩ := not_or.mp hpresent
      have hlimit : idRoom b width - 1 = width - (shownName b width).length - 2 := by
        unfold idRoom
        omega
      refine .inr ⟨fun hempty => hid (String.isEmpty_iff.mpr hempty), ?_, _,
        Text.shortened_truncate b.commitId (Nat.sub_pos_of_lt ?_), ?_⟩
      · unfold idRoom at hroom
        omega
      · unfold idRoom at hroom
        omega
      · rw [Text.truncate_blank_append b.commitId (Nat.lt_of_not_le hroom), hlimit]

/-- A line is never longer than the width, and that of the selected bookmark is just as long. On any
width it is the name, shortened only if it is longer than the width, then the commit id, and then
spaces if the bookmark is selected. The id comes behind a blank, shortened only if it is longer than
what is left but for one column, or not at all if that is not even room for one character. -/
theorem bookmarkLine_fits_width :
    let line := (bookmarkLine b width isSelected theme).text
    line.length ≤ width ∧ (isSelected = true → line.length = width) ∧
      (0 < width → ∃ name id padding, line = name ++ id ++ padding ∧
        Text.Shortened (nameText b) width name ∧
        (id = "" ∧ (b.commitId = "" ∨ width < name.length + 3) ∨
          b.commitId ≠ "" ∧ name.length + 3 ≤ width ∧
            ∃ shown, Text.Shortened b.commitId (width - name.length - 2) shown ∧
              id = " " ++ shown) ∧
        padding = if isSelected then Text.spaces (width - (name ++ id).length) else "") := by
  intro line
  have hline : line = _ := text_bookmarkLine b width isSelected theme
  have hle := length_shownText_le b width
  refine ⟨?_, fun hselected => ?_, fun hwidth => ?_⟩
  · rw [hline, String.length_append]
    split
    · rw [Text.length_spaces]
      omega
    · rw [String.length_empty, Nat.add_zero]
      exact hle
  · rw [hline, if_pos hselected, String.length_append, Text.length_spaces]
    omega
  · refine ⟨shownName b width, (shownId? b width).getD "", _, hline,
      Text.shortened_truncate _ hwidth, ?_, rfl⟩
    rcases shownId?_cases b width with ⟨hid, habsent⟩ | ⟨hid, hroom, shown, hshown, heq⟩
    · rw [hid]
      exact .inl ⟨rfl, habsent⟩
    · rw [heq]
      exact .inr ⟨hid, hroom, shown, hshown, rfl⟩

/-- Without any width nothing is shown of the name, not even an ellipsis. -/
theorem bookmarkLine_without_width :
    let b : Bookmark := ⟨"main", none, [], false, false, "abc123"⟩
    let line := (bookmarkLine b 0 false ⟨none⟩).text
    0 < (nameText b).length ∧ line = "" ∧
      ¬ (nameText b).toList.take (0 - 1) ++ ['…'] <+: line.toList := by
  decide

example : (bookmarkLine ⟨"main", none, [], false, false, "abcdef123456"⟩ 12 false ⟨none⟩).text =
    " main abcd…" := by
  decide

end BookmarkPanel

end RevisionGraph
