import RevisionGraph.Terminal.Segment
import RevisionGraph.Terminal.Sgr
import RevisionGraph.Text.Utf8

/-!
# Decoding terminal output

The decoder reads output in slices and gives segments of text and line breaks. Graphic renditions
change the pen; all other escape sequences are left out, and so are carriage returns. Text is given
out when the pen changes, when a line ends and when the input does, so that text is one segment as
long as the pen stays the same.

`step` says what a byte does. A slice is not read byte by byte: text and the inside of a command are
taken in one go up to the next byte that may end them.
-/

namespace RevisionGraph

inductive Chunk where
  | segment (s : Segment)
  | lineBreak
  deriving DecidableEq, Repr

namespace Decoder

inductive Mode where
  | text
  | escape
  | control (parameters : Array UInt8)
  | command
  | commandEscape
  deriving DecidableEq, Repr

end Decoder

structure Decoder where
  mode : Decoder.Mode
  pen : Pen
  /-- The text bytes that have not been given out. -/
  held : Array UInt8
  deriving DecidableEq, Repr

namespace Decoder

def initial : Decoder :=
  ⟨.text, .default, #[]⟩

def style (d : Decoder) : Style :=
  d.pen.style

def heldChunks (d : Decoder) : List Chunk :=
  if d.held.isEmpty then [] else [.segment ⟨Text.Utf8.text d.held.toList, d.style⟩]

/-- A graphic rendition gives out the text held only if it changes the pen. -/
def select (d : Decoder) (parameters : List UInt8) : Decoder × List Chunk :=
  let pen := Sgr.apply d.pen parameters
  if pen = d.pen then ({ d with mode := .text }, [])
  else (⟨.text, pen, #[]⟩, d.heldChunks)

def isFinal (b : UInt8) : Bool :=
  0x40 ≤ b && b ≤ 0x7E

def step (d : Decoder) (b : UInt8) : Decoder × List Chunk :=
  match d.mode with
  | .text =>
      if b = 0x1B then ({ d with mode := .escape }, [])
      else if b = 0x0A then ({ d with held := #[] }, d.heldChunks ++ [.lineBreak])
      else if b = 0x0D then (d, [])
      else ({ d with held := d.held.push b }, [])
  | .escape =>
      if b = 0x5B then ({ d with mode := .control #[] }, [])
      else if b = 0x5D then ({ d with mode := .command }, [])
      else ({ d with mode := .text }, [])
  | .control parameters =>
      if isFinal b then
        if b = 0x6D then d.select parameters.toList else ({ d with mode := .text }, [])
      else ({ d with mode := .control (parameters.push b) }, [])
  | .command =>
      if b = 0x07 then ({ d with mode := .text }, [])
      else if b = 0x1B then ({ d with mode := .commandEscape }, [])
      else (d, [])
  | .commandEscape => ({ d with mode := .text }, [])

def push (s : Decoder × Array Chunk) (b : UInt8) : Decoder × Array Chunk :=
  let (d, out) := s.1.step b
  (d, s.2 ++ out.toArray)

/-! ## Slices -/

def endsText (b : UInt8) : Bool :=
  b == 0x1B || b == 0x0A || b == 0x0D

def endsCommand (b : UInt8) : Bool :=
  b == 0x07 || b == 0x1B

/-- Takes the front of a slice in one go, as far as the mode allows, and gives what is left. -/
def skim (d : Decoder) (bytes : List UInt8) : Decoder × List UInt8 :=
  match d.mode with
  | .text =>
      ({ d with held := d.held ++ bytes.takeWhile fun b => !endsText b },
        bytes.dropWhile fun b => !endsText b)
  | .command => (d, bytes.dropWhile fun b => !endsCommand b)
  | .escape | .control _ | .commandEscape => (d, bytes)

theorem length_skim_le (d : Decoder) (bytes : List UInt8) :
    (d.skim bytes).2.length ≤ bytes.length := by
  simp only [skim]
  split
  · exact (List.dropWhile_sublist _).length_le
  · exact (List.dropWhile_sublist _).length_le
  all_goals exact Nat.le_refl _

theorem length_lt_of_skim {d d' : Decoder} {b : UInt8} {bytes rest : List UInt8}
    (h : d.skim bytes = (d', b :: rest)) : rest.length < bytes.length := by
  have hle := length_skim_le d bytes
  rw [h, List.length_cons] at hle
  exact hle

/-- Reads a slice: what can be taken in one go, and then the byte behind it. -/
def scan (s : Decoder × Array Chunk) (bytes : List UInt8) : Decoder × Array Chunk :=
  match _ : s.1.skim bytes with
  | (d, []) => (d, s.2)
  | (d, b :: rest) => scan (push (d, s.2) b) rest
termination_by bytes.length
decreasing_by exact length_lt_of_skim ‹_›

def feed (d : Decoder) (bytes : List UInt8) : Decoder × List Chunk :=
  let (d', out) := scan (d, #[]) bytes
  (d', out.toList)

def finish (d : Decoder) : Decoder × List Chunk :=
  (⟨.text, d.pen, #[]⟩, d.heldChunks)

end Decoder

end RevisionGraph
