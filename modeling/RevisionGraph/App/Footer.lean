import RevisionGraph.App.State

/-!
# The footer

One line with what the operation is about, the keys that can be used, and the toast.
-/

namespace RevisionGraph.App

def revisionsHints : List KeyHint :=
  [⟨"j/k", "move"⟩, ⟨"space", "toggle"⟩, ⟨"v", "batch"⟩, ⟨"b", "bookmarks"⟩, ⟨"r", "refresh"⟩,
    ⟨"?", "help"⟩, ⟨"q", "quit"⟩]

def separator (theme : Theme) : Segment :=
  ⟨" | ", theme.style .dimmed⟩

def addHints (theme : Theme) : Line → List KeyHint → Line
  | line, [] => line
  | line, hint :: rest =>
      let before := if line.isEmpty then [] else [separator theme]
      addHints theme
        (line ++ before ++
          [⟨hint.key, theme.style .helpKey⟩, .plain " ", ⟨hint.help, theme.style .helpText⟩])
        rest

def operationFooter (theme : Theme) (operation : Operation) : Line :=
  let status : Line :=
    operation.status.elim [] fun s => [separator theme, ⟨s, theme.style .text⟩]
  addHints theme (⟨operation.name, theme.style .markers⟩ :: status) operation.hints

def revisionsFooter (theme : Theme) (checked : Nat) : Line :=
  let count : Line :=
    if checked = 0 then [] else [⟨toString checked ++ " checked", theme.style .checked⟩]
  addHints theme count revisionsHints

def toastText (app : App) : Option String :=
  app.toast.bind fun t => if t.expired then none else some t.text

def footer (app : App) : Line :=
  let line :=
    match app.operation with
    | some operation => operationFooter app.theme operation
    | none =>
        if app.focus = .bookmarks ∧ app.panel.isFocused then
          addHints app.theme [] BookmarkPanel.hints
        else revisionsFooter app.theme app.revisions.checked.ids.length
  line ++ (app.toastText.map fun t => (⟨" | " ++ t, app.theme.style .error⟩ : Segment)).toList

end RevisionGraph.App
