import PlaneFigure.Json.Basic

/-!
Writing documents, on one line or indented by two blanks per level.
-/

namespace PlaneFigure.Json

/-- The digit of a number below sixteen. -/
def hexDigit (n : Nat) : Char :=
  if n < 10 then Char.ofNat (48 + n) else Char.ofNat (87 + n)

/-- A character inside a string. Quotes, backslashes and control characters are escaped, the latter
by a letter where there is one. -/
def escapeChar (c : Char) : List Char :=
  if c = '"' then ['\\', '"']
  else if c = '\\' then ['\\', '\\']
  else if c = '\x08' then ['\\', 'b']
  else if c = '\t' then ['\\', 't']
  else if c = '\n' then ['\\', 'n']
  else if c = '\x0c' then ['\\', 'f']
  else if c = '\r' then ['\\', 'r']
  else if c.toNat < 0x20 then
    ['\\', 'u', '0', '0', hexDigit (c.toNat / 16), hexDigit (c.toNat % 16)]
  else [c]

def quoted (s : String) : List Char :=
  '"' :: (s.toList.flatMap escapeChar ++ ['"'])

/-- The text of a document without containers; empty for a container. -/
def atom : Json → List Char
  | .null => ['n', 'u', 'l', 'l']
  | .bool true => ['t', 'r', 'u', 'e']
  | .bool false => ['f', 'a', 'l', 's', 'e']
  | .number literal => literal.toList
  | .string s => quoted s
  | .array _ => []
  | .object _ => []

mutual

/-- A document on one line, without blanks. -/
def compact : Json → List Char
  | .array items => '[' :: (compactItems items ++ [']'])
  | .object members => '{' :: (compactMembers members ++ ['}'])
  | v => atom v

def compactItems : List Json → List Char
  | [] => []
  | [v] => compact v
  | v :: vs => compact v ++ ',' :: compactItems vs

def compactMembers : List (String × Json) → List Char
  | [] => []
  | [(name, v)] => quoted name ++ ':' :: compact v
  | (name, v) :: ms => quoted name ++ ':' :: (compact v ++ ',' :: compactMembers ms)

end

/-- A line break and the indentation of a level. -/
def newline (level : Nat) : List Char := '\n' :: List.replicate (2 * level) ' '

mutual

/-- A document with every item and every member on a line of its own. -/
def indented (level : Nat) : Json → List Char
  | .array [] => ['[', ']']
  | .array items => '[' :: (indentedItems (level + 1) items ++ newline level ++ [']'])
  | .object [] => ['{', '}']
  | .object members => '{' :: (indentedMembers (level + 1) members ++ newline level ++ ['}'])
  | v => atom v

def indentedItems (level : Nat) : List Json → List Char
  | [] => []
  | [v] => newline level ++ indented level v
  | v :: vs => newline level ++ indented level v ++ ',' :: indentedItems level vs

def indentedMembers (level : Nat) : List (String × Json) → List Char
  | [] => []
  | [(name, v)] => newline level ++ quoted name ++ [':', ' '] ++ indented level v
  | (name, v) :: ms =>
    newline level ++ quoted name ++ [':', ' '] ++ indented level v ++
      ',' :: indentedMembers level ms

end

def render (v : Json) : String := String.ofList (compact v)

def renderIndented (v : Json) : String := String.ofList (indented 0 v)

end PlaneFigure.Json
