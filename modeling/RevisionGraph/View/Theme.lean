import RevisionGraph.Text.Blank
import RevisionGraph.Text.Numeral
import RevisionGraph.View.Decoration
import RevisionGraph.Config

/-!
# Themes

A palette is a list of eighteen colours between commas: foreground, background and the sixteen basic
colours. A colour is `rgb:` and three channels between slashes, or six hexadecimal digits. Without a
palette the terminal's own colours are used.
-/

namespace RevisionGraph

inductive PaletteError where
  | count (found : Nat)
  | emptyColor
  | channels (color : String)
  | hexColor (color : String)
  | component (text : String)
  | componentLength (text : String)
  deriving DecidableEq, Repr

namespace PaletteError

def message : PaletteError → String
  | .count found =>
      "expected 18 comma-separated colors (fg,bg,black,red,green,yellow,blue,magenta,cyan,white," ++
        "bright_black,bright_red,bright_green,bright_yellow,bright_blue,bright_magenta," ++
        "bright_cyan,bright_white), got " ++ toString found
  | .emptyColor => "empty color"
  | .channels color => "invalid rgb: value: " ++ color
  | .hexColor color => "invalid hex color: " ++ color ++ " (expected #RRGGBB)"
  | .component text => "invalid rgb: component " ++ text
  | .componentLength text => "invalid rgb: component " ++ text ++ " (expected 2 or 4 hex digits)"

end PaletteError

structure Palette where
  colors : Vector Color 18
  deriving DecidableEq, Repr

namespace Palette

def fg (p : Palette) : Color :=
  p.colors[0]

def bg (p : Palette) : Color :=
  p.colors[1]

def ansi (p : Palette) (c : AnsiColor) : Color :=
  p.colors[c.val + 2]

/-- The channel that two digits give, or four of which the first two count. Lengths are those of the
text in bytes. -/
def channel (text : List Char) : Except PaletteError UInt8 :=
  let text := Text.trimWhere Text.isBlank text
  let shown := String.ofList text
  if shown.utf8ByteSize = 2 then
    match Text.numeral? 16 0xFF text with
    | some n => .ok (UInt8.ofNat n)
    | none => .error (.component shown)
  else if shown.utf8ByteSize = 4 then
    match Text.numeral? 16 0xFFFF text with
    | some n => .ok (UInt8.ofNat (n / 256))
    | none => .error (.component shown)
  else .error (.componentLength shown)

def rgbColor (color : String) (channels : List Char) : Except PaletteError Color :=
  match channels.splitOn '/' with
  | [r, g, b] => do
      let r ← channel r
      let g ← channel g
      let b ← channel b
      pure (.rgb r g b)
  | _ => .error (.channels color)

def hexDigits : List Char → List Char
  | '#' :: rest => rest
  | '0' :: 'x' :: rest => rest
  | cs => cs

def hexColor (color : String) : Except PaletteError Color :=
  match (hexDigits color.toList).map (Text.digitValue? 16) with
  | [some a, some b, some c, some d, some e, some f] =>
      .ok (.rgb (UInt8.ofNat (a * 16 + b)) (UInt8.ofNat (c * 16 + d)) (UInt8.ofNat (e * 16 + f)))
  | _ => .error (.hexColor color)

def toLower (c : Char) : Char :=
  if 'A' ≤ c ∧ c ≤ 'Z' then Char.ofNat (c.toNat + 32) else c

def color (text : String) : Except PaletteError Color :=
  let text := Text.trim text
  if text.isEmpty then .error .emptyColor
  else
    match text.toList.map toLower with
    | 'r' :: 'g' :: 'b' :: ':' :: channels => rgbColor text channels
    | _ => hexColor text

/-- The number of colours counts before the colours themselves. -/
def parse (text : String) : Except PaletteError Palette :=
  let parts := text.toList.splitOn ','
  if parts.length ≠ 18 then .error (.count parts.length)
  else do
    let colors ← parts.mapM fun part => color (String.ofList part)
    if h : colors.toArray.size = 18 then
      pure ⟨⟨colors.toArray, h⟩⟩
    else
      .error (.count colors.length)

end Palette

structure Theme where
  palette : Option Palette
  deriving DecidableEq, Repr

namespace Theme

def variableName : String :=
  "JJGRAPH_PALETTE"

/-- A blank text stands for no palette. -/
def ofText (text : String) : Except InvalidVariable Theme :=
  let text := Text.trim text
  if text.isEmpty then .ok ⟨none⟩
  else
    match Palette.parse text with
    | .ok palette => .ok ⟨some palette⟩
    | .error e => .error ⟨variableName, text ++ " (" ++ e.message ++ ")"⟩

def ofEnvironment (lookup : String → Variable) : Except InvalidVariable Theme :=
  match lookup variableName with
  | .unset => .ok ⟨none⟩
  | .notUnicode => .error (.notUnicode variableName)
  | .text value => ofText value

def base (t : Theme) : Style :=
  match t.palette with
  | none => .plain
  | some p => (Style.plain.withFg p.fg).withBg p.bg

def color (t : Theme) (c : AnsiColor) : Color :=
  t.palette.elim (.ansi c) (·.ansi c)

def border (t : Theme) (focused : Bool) : Style :=
  t.base.withFg (t.color (if focused then .yellow else .brightBlack))

def style (t : Theme) : StyleKey → Style
  | .text => t.base
  | .dimmed => t.base.withFg (t.color .brightBlack)
  | .markers => (t.base.withFg (t.color .yellow)).withModifier .bold
  | .checked => (t.base.withFg (t.color .green)).withModifier .bold
  | .selected => Style.plain.withBg (t.color .brightBlack)
  | .title => (t.base.withFg (t.color .magenta)).withModifier .bold
  | .empty => (t.base.withFg (t.color .brightBlack)).withModifier .italic
  | .error => t.base.withFg (t.color .red)
  | .helpKey => (t.base.withFg (t.color .cyan)).withModifier .bold
  | .helpText => t.base.withFg (t.color .white)

end Theme

end RevisionGraph
