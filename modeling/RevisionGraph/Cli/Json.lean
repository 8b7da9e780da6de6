import RevisionGraph.Log.Summary

/-!
# JSON text

Values and their text with two blanks for each level. Inside strings quotes, backslashes and control
characters are escaped, the latter with a short form where there is one.
-/

namespace RevisionGraph

inductive JsonValue where
  | null
  | bool (b : Bool)
  | number (n : Nat)
  | string (s : String)
  | array (items : List JsonValue)
  | object (fields : List (String × JsonValue))

namespace JsonValue

def hexDigit (n : Nat) : Char :=
  if n < 10 then Char.ofNat ('0'.toNat + n) else Char.ofNat ('a'.toNat + (n - 10))

def escape (c : Char) : List Char :=
  match c with
  | '"' => ['\\', '"']
  | '\\' => ['\\', '\\']
  | '\x08' => ['\\', 'b']
  | '\x0c' => ['\\', 'f']
  | '\n' => ['\\', 'n']
  | '\r' => ['\\', 'r']
  | '\t' => ['\\', 't']
  | c =>
      if c.toNat < 0x20 then ['\\', 'u', '0', '0', hexDigit (c.toNat / 16), hexDigit (c.toNat % 16)]
      else [c]

def quote (s : String) : String :=
  "\"" ++ String.ofList (s.toList.flatMap escape) ++ "\""

def newLine (level : Nat) : String :=
  "\n" ++ String.ofList (List.replicate (2 * level) ' ')

mutual

def render (level : Nat) : JsonValue → String
  | .null => "null"
  | .bool b => if b then "true" else "false"
  | .number n => toString n
  | .string s => quote s
  | .array [] => "[]"
  | .array (v :: rest) =>
      "[" ++ newLine (level + 1) ++ render (level + 1) v ++ renderItems (level + 1) rest ++
        newLine level ++ "]"
  | .object [] => "\x7b\x7d"
  | .object ((k, v) :: rest) =>
      "\x7b" ++ newLine (level + 1) ++ quote k ++ ": " ++ render (level + 1) v ++
        renderFields (level + 1) rest ++ newLine level ++ "\x7d"

def renderItems (level : Nat) : List JsonValue → String
  | [] => ""
  | v :: rest => "," ++ newLine level ++ render level v ++ renderItems level rest

def renderFields (level : Nat) : List (String × JsonValue) → String
  | [] => ""
  | (k, v) :: rest =>
      "," ++ newLine level ++ quote k ++ ": " ++ render level v ++ renderFields level rest

end

end JsonValue

def RowSummary.json (r : RowSummary) : JsonValue :=
  .object
    [("change_id", .string r.changeId),
      ("commit_id", r.commitId.elim .null .string),
      ("is_working_copy", .bool r.isWorkingCopy),
      ("is_conflicted", .bool r.isConflicted),
      ("indent", .number r.indent),
      ("previous", r.previous.elim .null .number),
      ("lines", .array (r.lines.map .string))]

def dumpText (rows : List Row) : String :=
  (JsonValue.array (rows.map fun r => r.summary.json)).render 0 ++ "\n"

end RevisionGraph
