/-!
# Numerals

Unsigned numerals: one or more digits, a plus sign allowed in front, and a value that does not pass
a given bound.
-/

namespace RevisionGraph.Text

def digitValue? (radix : Nat) (c : Char) : Option Nat :=
  let value :=
    if '0' ≤ c ∧ c ≤ '9' then some (c.toNat - '0'.toNat)
    else if 'a' ≤ c ∧ c ≤ 'f' then some (c.toNat - 'a'.toNat + 10)
    else if 'A' ≤ c ∧ c ≤ 'F' then some (c.toNat - 'A'.toNat + 10)
    else none
  value.filter (· < radix)

def digitsValue? (radix : Nat) (cs : List Char) : Option Nat :=
  cs.foldl (fun value c => do
    let v ← value
    let d ← digitValue? radix c
    pure (v * radix + d)) (some 0)

def dropPlus : List Char → List Char
  | '+' :: rest => rest
  | cs => cs

def numeral? (radix bound : Nat) (cs : List Char) : Option Nat :=
  let digits := dropPlus cs
  if digits.isEmpty then none else (digitsValue? radix digits).filter (· ≤ bound)

/-- The greatest size that a machine word of 64 bits holds. -/
def maxSize : Nat :=
  18446744073709551615

def size? (s : String) : Option Nat :=
  numeral? 10 maxSize s.toList

end RevisionGraph.Text
