/-!
# Blank characters, trimming, words and lines

Text is cut here on lists of characters. A character is blank when it has the property
White_Space; trimming takes blanks from both ends, words are the runs between blanks, and lines end
with a line feed that may have a carriage return before it.
-/

namespace RevisionGraph.Text

def isBlank (c : Char) : Bool :=
  let n := c.toNat
  (9 ≤ n && n ≤ 13) || n == 0x20 || n == 0x85 || n == 0xA0 || n == 0x1680 ||
    (0x2000 ≤ n && n ≤ 0x200A) || n == 0x2028 || n == 0x2029 || n == 0x202F || n == 0x205F ||
    n == 0x3000

def isControl (c : Char) : Bool :=
  c.toNat < 0x20 || (0x7F ≤ c.toNat && c.toNat < 0xA0)

/-! ## Trimming -/

def trimWhere (p : Char → Bool) (cs : List Char) : List Char :=
  ((cs.dropWhile p).reverse.dropWhile p).reverse

def trimEnd (cs : List Char) : List Char :=
  (cs.reverse.dropWhile isBlank).reverse

def trim (s : String) : String :=
  String.ofList (trimWhere isBlank s.toList)

def isBlankText (s : String) : Bool :=
  s.toList.all isBlank

/-! ## Words and lines -/

def words (cs : List Char) : List (List Char) :=
  (cs.splitOnP isBlank).filter (fun w => !w.isEmpty)

def dropReturn (cs : List Char) : List Char :=
  if cs.getLast? = some '\r' then cs.dropLast else cs

/-- Ends the pieces between line feeds: the last piece has no line feed after it, so it keeps its
carriage return, and it is no line when it is empty. -/
def endLines : List (List Char) → List (List Char)
  | [] => []
  | [last] => if last.isEmpty then [] else [last]
  | piece :: rest => dropReturn piece :: endLines rest

def lines (cs : List Char) : List (List Char) :=
  endLines (cs.splitOn '\n')

end RevisionGraph.Text
