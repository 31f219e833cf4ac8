import Parimutuel.Json.Value

namespace Parimutuel.Json

def codeEscape (unit : Nat) : String := "\\u" ++ Text.hex 4 unit

-- A character beyond the first 65536 takes two escapes.
def escapedCode (c : Nat) : String :=
  if c = 0x22 then "\\\""
  else if c = 0x5c then "\\\\"
  else if c = 0x08 then "\\b"
  else if c = 0x09 then "\\t"
  else if c = 0x0a then "\\n"
  else if c = 0x0c then "\\f"
  else if c = 0x0d then "\\r"
  else if 0x20 ≤ c ∧ c ≤ 0x7e then String.singleton (Char.ofNat c)
  else if c < 0x10000 then codeEscape c
  else codeEscape (0xd800 + (c - 0x10000) / 0x400) ++ codeEscape (0xdc00 + (c - 0x10000) % 0x400)

def writtenText (t : Text) : String := "\"" ++ String.join (t.map escapedCode) ++ "\""

def documentLayout : Decimal.Layout := { numberLayout with nan := "NaN", infinite := "Infinity" }

def leaf : Json → String
  | .null => "null"
  | .bool true => "true"
  | .bool false => "false"
  | .int n => toString n
  | .real x => documentLayout.render x
  | .text t => writtenText t
  | .list _ => "[]"
  | .object _ => "\x7b\x7d"

mutual

def compact : Json → String
  | .list items => "[" ++ compactItems items ++ "]"
  | .object members => "\x7b" ++ compactMembers members ++ "\x7d"
  | value => leaf value

def compactItems : List Json → String
  | [] => ""
  | [item] => compact item
  | item :: next :: rest => compact item ++ ", " ++ compactItems (next :: rest)

def compactMembers : List (Text × Json) → String
  | [] => ""
  | [(name, value)] => writtenText name ++ ": " ++ compact value
  | (name, value) :: next :: rest =>
    writtenText name ++ ": " ++ compact value ++ ", " ++ compactMembers (next :: rest)

end

def newLine (depth : Nat) : String := "\n" ++ String.ofList (List.replicate (2 * depth) ' ')

mutual

def indented (depth : Nat) : Json → String
  | .list (item :: rest) =>
    "[" ++ newLine (depth + 1) ++ indentedItems (depth + 1) (item :: rest) ++ newLine depth ++ "]"
  | .object (member :: rest) =>
    "\x7b" ++ newLine (depth + 1) ++ indentedMembers (depth + 1) (member :: rest) ++ newLine depth
      ++ "\x7d"
  | value => leaf value

def indentedItems (depth : Nat) : List Json → String
  | [] => ""
  | [item] => indented depth item
  | item :: next :: rest =>
    indented depth item ++ "," ++ newLine depth ++ indentedItems depth (next :: rest)

def indentedMembers (depth : Nat) : List (Text × Json) → String
  | [] => ""
  | [(name, value)] => writtenText name ++ ": " ++ indented depth value
  | (name, value) :: next :: rest =>
    writtenText name ++ ": " ++ indented depth value ++ "," ++ newLine depth
      ++ indentedMembers depth (next :: rest)

end

mutual

def sortNames : Json → Json
  | .list items => .list (sortNamesItems items)
  | .object members =>
    .object ((sortNamesMembers members).mergeSort fun a b => !decide (b.1 < a.1))
  | value => value

def sortNamesItems : List Json → List Json
  | [] => []
  | item :: rest => sortNames item :: sortNamesItems rest

def sortNamesMembers : List (Text × Json) → List (Text × Json)
  | [] => []
  | (name, value) :: rest => (name, sortNames value) :: sortNamesMembers rest

end

mutual

def hasLongInteger (limit : Nat) : Json → Bool
  | .int n => Nat.pow 10 limit ≤ n.natAbs
  | .list items => hasLongIntegerItems limit items
  | .object members => hasLongIntegerMembers limit members
  | _ => false

def hasLongIntegerItems (limit : Nat) : List Json → Bool
  | [] => false
  | item :: rest => hasLongInteger limit item || hasLongIntegerItems limit rest

def hasLongIntegerMembers (limit : Nat) : List (Text × Json) → Bool
  | [] => false
  | (_, value) :: rest => hasLongInteger limit value || hasLongIntegerMembers limit rest

end

def ofFields (fields : List (String × Json)) : Json :=
  .object (fields.map fun f => (Text.ofString f.1, f.2))

def ofString (s : String) : Json := .text (Text.ofString s)

def ofInts (row : List Int) : Json := .list (row.map .int)

end Parimutuel.Json
