/-!
# UTF-8

`encode` writes characters as bytes. `decode` reads any bytes: what is not well-formed becomes
U+FFFD, one for each maximal piece that could have begun a character. The reader takes one byte at a
time, so it is a fold over the bytes.
-/

namespace RevisionGraph.Text.Utf8

def encodeChar (c : Char) : List UInt8 :=
  let n := c.toNat
  if n < 0x80 then
    [UInt8.ofNat n]
  else if n < 0x800 then
    [UInt8.ofNat (0xC0 + n / 64), UInt8.ofNat (0x80 + n % 64)]
  else if n < 0x10000 then
    [UInt8.ofNat (0xE0 + n / 4096), UInt8.ofNat (0x80 + n / 64 % 64), UInt8.ofNat (0x80 + n % 64)]
  else
    [UInt8.ofNat (0xF0 + n / 262144), UInt8.ofNat (0x80 + n / 4096 % 64),
      UInt8.ofNat (0x80 + n / 64 % 64), UInt8.ofNat (0x80 + n % 64)]

def encode (cs : List Char) : List UInt8 :=
  cs.flatMap encodeChar

def replacement : Char :=
  '\uFFFD'

/-- Where the reader stands: between characters, or inside one of which `missing + 1` bytes are to
come. `value` is read from the bytes so far, and the next byte must lie from `low` to `high`. -/
inductive State where
  | start
  | inside (missing value low high : Nat)
  deriving DecidableEq, Repr

def first (b : Nat) : State × List Char :=
  if b < 0x80 then (.start, [Char.ofNat b])
  else if b < 0xC2 then (.start, [replacement])
  else if b < 0xE0 then (.inside 0 (b - 0xC0) 0x80 0xBF, [])
  else if b = 0xE0 then (.inside 1 0 0xA0 0xBF, [])
  else if b = 0xED then (.inside 1 0xD 0x80 0x9F, [])
  else if b < 0xF0 then (.inside 1 (b - 0xE0) 0x80 0xBF, [])
  else if b = 0xF0 then (.inside 2 0 0x90 0xBF, [])
  else if b < 0xF4 then (.inside 2 (b - 0xF0) 0x80 0xBF, [])
  else if b = 0xF4 then (.inside 2 4 0x80 0x8F, [])
  else (.start, [replacement])

def step : State → Nat → State × List Char
  | .start, b => first b
  | .inside missing value low high, b =>
      if low ≤ b ∧ b ≤ high then
        let value := value * 64 + (b - 0x80)
        match missing with
        | 0 => (.start, [Char.ofNat value])
        | m + 1 => (.inside m value 0x80 0xBF, [])
      else
        let (state, out) := first b
        (state, replacement :: out)

def leftover : State → List Char
  | .start => []
  | .inside .. => [replacement]

def run (read : State × Array Char) (bytes : List UInt8) : State × Array Char :=
  bytes.foldl (fun (state, out) b =>
    let (state', more) := step state b.toNat
    (state', out ++ more)) read

def decode (bytes : List UInt8) : List Char :=
  let (state, out) := run (.start, #[]) bytes
  out.toList ++ leftover state

def bytes (s : String) : List UInt8 :=
  encode s.toList

/-- The text that bytes stand for, with U+FFFD for what is not well-formed. -/
def text (bytes : List UInt8) : String :=
  String.ofList (decode bytes)

theorem encodeChar_eq (c : Char) : encodeChar c = String.utf8EncodeChar c := by
  have hc : c.val.toNat < 0x110000 := by
    rcases c.valid with h | ⟨_, h⟩
    · exact Nat.lt_trans h (by decide)
    · exact h
  simp only [encodeChar, String.utf8EncodeChar, Char.toNat]
  generalize c.val.toNat = n at hc
  have h7 : n ≤ 0x7F ↔ n < 0x80 := by omega
  have h11 : n ≤ 0x7FF ↔ n < 0x800 := by omega
  have h16 : n ≤ 0xFFFF ↔ n < 0x10000 := by omega
  simp only [h7, h11, h16, Nat.add_comm]
  split
  · rfl
  · split
    · rw [Nat.mod_eq_of_lt (show n / 64 < 0x20 by omega)]
    · split
      · rw [Nat.mod_eq_of_lt (show n / 4096 < 0x10 by omega)]
      · rw [Nat.mod_eq_of_lt (show n / 262144 < 0x08 by omega)]

theorem toByteArray_bytes (s : String) : (bytes s).toByteArray = s.toUTF8 := by
  have h : encodeChar = String.utf8EncodeChar := funext encodeChar_eq
  rw [String.toUTF8_eq_toByteArray, ← String.utf8Encode_toList, List.utf8Encode, bytes, encode, h]

end RevisionGraph.Text.Utf8
