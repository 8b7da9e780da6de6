import RevisionGraph.Screen.Paint
import RevisionGraph.Text.Fit
import RevisionGraph.View.Theme

/-!
# The help text
-/

namespace RevisionGraph.Help

structure Entry where
  key : String
  text : String
  deriving DecidableEq, Repr

structure Topic where
  title : String
  entries : List Entry
  deriving DecidableEq, Repr

def topics : List Topic :=
  [⟨"Global",
      [⟨"?", "Help (toggle)"⟩, ⟨"q, Ctrl-C", "Quit"⟩, ⟨"r", "Reload the log"⟩,
        ⟨"b", "Toggle bookmark panel"⟩, ⟨"Tab", "Switch panel focus"⟩]⟩,
    ⟨"Revisions",
      [⟨"j/k, ↑/↓", "Move cursor"⟩, ⟨"PgUp/PgDn", "Move one page"⟩,
        ⟨"g/G, Home/End", "First/last revision"⟩, ⟨"space", "Toggle checked"⟩,
        ⟨"v", "Batch toggle a range"⟩, ⟨"Esc", "Clear checked"⟩]⟩,
    ⟨"Bookmarks",
      [⟨"Enter", "Show trunk()::bookmark"⟩, ⟨"m", "Move bookmark"⟩, ⟨"c", "Create bookmark"⟩,
        ⟨"n", "New change on bookmark"⟩, ⟨"d/f", "Delete/forget"⟩, ⟨"t/u", "Track/untrack"⟩,
        ⟨"Esc", "Hide panel"⟩]⟩]

def keyWidth : Nat :=
  (topics.flatMap Topic.entries).foldl (fun n e => max n e.key.length) 0

def entryLine (theme : Theme) (e : Entry) : Line :=
  [⟨Text.alignRight e.key keyWidth, theme.style .helpKey⟩, .plain "  ",
    ⟨e.text, theme.style .helpText⟩]

def topicLines (theme : Theme) (t : Topic) : List Line :=
  [⟨"--- " ++ t.title ++ " ---", theme.style .title⟩] :: t.entries.map (entryLine theme)

def lines (theme : Theme) : List Line :=
  [[]].intercalate (topics.map (topicLines theme))

def share (n percent : Nat) : Nat :=
  (n * percent + 50) / 100

def boxArea (area : Rect) : Rect :=
  let left := share area.width 15
  let top := share area.height 10
  ⟨area.x + left, area.y + top, share area.width 85 - left, share area.height 90 - top⟩

def inside (area : Rect) : Rect :=
  ⟨area.x + 1, area.y + 1, area.width - 2, area.height - 2⟩

def paint (theme : Theme) (main : Rect) : List Paint :=
  let area := boxArea main
  [.clear area, .tint area theme.base, .box area (theme.border true),
    .title ⟨area.x + 1, area.y, area.width - 2, min area.height 1⟩ (.plain " Help "),
    .wrapped (inside area) (lines theme)]

end RevisionGraph.Help
