import RevisionGraph.Bookmark.Listing
import RevisionGraph.Effect
import RevisionGraph.Key
import RevisionGraph.Layout.Viewport
import RevisionGraph.Log.Commit
import RevisionGraph.Runner
import RevisionGraph.Screen.Paint
import RevisionGraph.Text.Fit
import RevisionGraph.Text.Utf8
import RevisionGraph.View.ScreenTarget
import RevisionGraph.View.Theme

/-!
# The bookmark panel

Lists the bookmarks beside the log. While a bookmark is being moved or created the panel is in a mode
of its own and shows the revision at hand.
-/

namespace RevisionGraph

inductive PanelMode where
  | browse
  | moving
  | creating
  deriving DecidableEq, Repr

structure BookmarkPanel where
  bookmarks : List Bookmark
  cursor : Nat
  visible : Bool
  /-- Counts only while the panel is visible. -/
  wantsFocus : Bool
  mode : PanelMode
  target : Option Commit
  viewport : Viewport
  deriving DecidableEq, Repr

namespace BookmarkPanel

def initial : BookmarkPanel :=
  ⟨[], 0, false, false, .browse, none, .initial⟩

def isFocused (p : BookmarkPanel) : Bool :=
  p.visible && p.wantsFocus

def selected (p : BookmarkPanel) : Option Bookmark :=
  p.bookmarks[p.cursor]?

def setFocus (p : BookmarkPanel) (focused : Bool) : BookmarkPanel :=
  { p with wantsFocus := focused }

def setTarget (p : BookmarkPanel) (target : Option Commit) : BookmarkPanel :=
  { p with target := target }

def toggleVisible (p : BookmarkPanel) : BookmarkPanel :=
  { p with visible := !p.visible, wantsFocus := !p.visible }

def startMode (p : BookmarkPanel) (mode : PanelMode) (target : Option Commit) : BookmarkPanel :=
  { p with mode := mode, target := target, wantsFocus := false }

def endMode (p : BookmarkPanel) : BookmarkPanel :=
  { p with mode := .browse, target := none }

/-! ## Bookmarks -/

def lastIndex (p : BookmarkPanel) : Nat :=
  p.bookmarks.length - 1

def setBookmarks (p : BookmarkPanel) (bookmarks : List Bookmark) : BookmarkPanel :=
  { p with bookmarks := bookmarks, cursor := min p.cursor (bookmarks.length - 1) }

/-- Takes in a listing; a failed one leaves the bookmarks as they are. -/
def load (p : BookmarkPanel) (answer : Except RunError (List UInt8)) :
    BookmarkPanel × Option RunError :=
  match answer with
  | .ok output => (p.setBookmarks (readPlainListing (Text.Utf8.text output)), none)
  | .error e => (p, some e)

def select (p : BookmarkPanel) (index : Nat) : BookmarkPanel :=
  if index < p.bookmarks.length then { p with cursor := index } else p

def moveCursor (p : BookmarkPanel) (delta : Int) : BookmarkPanel :=
  { p with cursor := min (moveBy p.cursor delta) p.lastIndex }

/-! ## Keys -/

def reloading (command : Command) : Effect :=
  .run command [.refresh, .reloadBookmarks]

def withBookmark (bookmark : Option Bookmark) (effect : Bookmark → Effect) : Outcome :=
  bookmark.elim .consumed fun b => .effect (effect b)

def untrack? (b : Bookmark) : Option Command :=
  b.remotes.head?.map fun p => .untrackBookmark b.name p.remote

def bookmarkKey (p : BookmarkPanel) (remote : String) (c : Char) : Outcome :=
  match c with
  | 'n' =>
      withBookmark p.selected fun b => .run (.new [b.name]) [.refreshAndSelect "@"]
  | 'd' =>
      withBookmark (p.selected.filter (·.isDeletable)) fun b => reloading (.deleteBookmark b.name)
  | 'f' => withBookmark p.selected fun b => reloading (.forgetBookmark b.name)
  | 't' =>
      withBookmark (p.selected.filter (·.isTrackable)) fun b =>
        reloading (.trackBookmark b.name remote)
  | 'u' =>
      match p.selected.bind untrack? with
      | none => .consumed
      | some command => .effect (reloading command)
  | _ => .pass

def startMoving (p : BookmarkPanel) : BookmarkPanel × Outcome :=
  match p.selected with
  | none => (p, .consumed)
  | some b => (p.startMode .moving none, .effect (.emit (.startMoveMode b.name)))

def startCreating (p : BookmarkPanel) : BookmarkPanel × Outcome :=
  (p.startMode .creating none, .effect (.emit .startCreateMode))

def handleKey (p : BookmarkPanel) (remote : String) (key : Key) : BookmarkPanel × Outcome :=
  match key.code with
  | .esc => (p.toggleVisible, .consumed)
  | .down | .char 'j' => (p.moveCursor 1, .consumed)
  | .up | .char 'k' => (p.moveCursor (-1), .consumed)
  | .home | .char 'g' => ({ p with cursor := 0 }, .consumed)
  | .endKey | .char 'G' => ({ p with cursor := p.lastIndex }, .consumed)
  | .enter =>
      (p, withBookmark p.selected fun b => .emit (.updateRevset ("trunk()::" ++ b.name)))
  | .char 'm' => p.startMoving
  | .char 'c' => p.startCreating
  | .char c => (p, p.bookmarkKey remote c)
  | _ => (p, .pass)

def hints : List KeyHint :=
  [⟨"enter", "view revset"⟩, ⟨"c", "create"⟩, ⟨"n", "new revision"⟩, ⟨"m", "move"⟩,
    ⟨"d", "delete"⟩, ⟨"f", "forget"⟩, ⟨"t", "track"⟩, ⟨"u", "untrack"⟩, ⟨"esc", "close"⟩]

/-! ## Drawing -/

def title (p : BookmarkPanel) : String :=
  match p.mode, p.target with
  | .moving, some target => "Move bookmark to: " ++ target.changeId
  | .creating, _ => "Create bookmark: select revision"
  | _, _ => "Bookmarks (" ++ toString p.bookmarks.length ++ ")"

def nameText (b : Bookmark) : String :=
  " " ++ b.name ++ if b.conflict then " (conflict)" else ""

/-- The name and, if there is room, the commit id; the line of the selected bookmark is filled up
with spaces. -/
def bookmarkLine (b : Bookmark) (width : Nat) (isSelected : Bool) (theme : Theme) : Line :=
  let shade (key : StyleKey) : Style :=
    if isSelected then (theme.style key).patch (theme.style .selected) else theme.style key
  let name := Text.truncate (nameText b) width
  let room := width - (name.length + 1)
  let id : Line :=
    if b.commitId.isEmpty ∨ room ≤ 1 then []
    else [⟨Text.truncate (" " ++ b.commitId) room, shade .dimmed⟩]
  let line : Line := ⟨name, shade .text⟩ :: id
  if isSelected ∧ line.width < width then
    line ++ [⟨Text.spaces (width - line.width), shade .text⟩]
  else line

def listArea (area : Rect) : Rect :=
  let inner : Rect :=
    ⟨min (area.x + 1) area.right, min (area.y + 1) area.bottom, area.width - 1, area.height - 1⟩
  ⟨inner.x, inner.y + 1, inner.width, inner.height - 1⟩

def frame (p : BookmarkPanel) (area : Rect) (theme : Theme) : List Paint :=
  [.leftBorder area (theme.border p.isFocused),
    .title ⟨area.x + 1, area.y, area.width - 1, min area.height 1⟩
      ⟨" " ++ p.title, theme.style .title⟩]

def paintSpan (p : BookmarkPanel) (width : Nat) (theme : Theme) (s : ItemSpan) : Paint :=
  .lines s.rect
    (p.bookmarks[s.index]?.map fun b => bookmarkLine b width (s.index == p.cursor) theme).toList

def draw (p : BookmarkPanel) (area : Rect) (theme : Theme) (targets : Targets ScreenTarget) :
    BookmarkPanel × List Paint × Targets ScreenTarget :=
  let list := listArea area
  if p.bookmarks.isEmpty then
    ({ p with viewport := p.viewport.reset },
      p.frame area theme ++ [.lines list [[⟨" No bookmarks found", theme.style .empty⟩]]], targets)
  else
    let viewport := p.viewport.arrange list (p.bookmarks.map fun _ => 1) (some p.cursor)
    let targets := viewport.registerItems .click .bookmarkRow targets
    let targets := viewport.registerScroll .bookmarks targets
    ({ p with viewport := viewport },
      p.frame area theme ++ viewport.spans.map (p.paintSpan list.width theme), targets)

end BookmarkPanel

end RevisionGraph
