/-
Texts of JSON documents.

The text is compact.  In strings only the quotation mark, the backslash and the control
characters below U+0020 are escaped; everything else stands for itself.
-/
import CaseGateway.Json.Numeral

namespace CaseGateway.Json

/-- The two hexadecimal digits of a number below 256, in lower case. -/
def hexPair (n : Nat) : List Char :=
  [Nat.digitChar (n / 16), Nat.digitChar (n % 16)]

/-- How a character is written inside a string. -/
def escape (c : Char) : List Char :=
  if c = '\"' then ['\\', '\"']
  else if c = '\\' then ['\\', '\\']
  else if c.toNat = 0x08 then ['\\', 'b']
  else if c.toNat = 0x09 then ['\\', 't']
  else if c.toNat = 0x0A then ['\\', 'n']
  else if c.toNat = 0x0C then ['\\', 'f']
  else if c.toNat = 0x0D then ['\\', 'r']
  else if c.toNat < 0x20 then '\\' :: 'u' :: '0' :: '0' :: hexPair c.toNat
  else [c]

/-- A string in quotation marks. -/
def quoted (s : String) : List Char :=
  '\"' :: s.toList.flatMap escape ++ ['\"']

mutual

/-- The characters of a document's text. -/
def chars : Json → List Char
  | .null => "null".toList
  | .bool true => "true".toList
  | .bool false => "false".toList
  | .number n => n.text.toList
  | .string s => quoted s
  | .array items => '[' :: (itemChars items ++ [']'])
  | .object members => '\x7b' :: (memberChars members ++ ['\x7d'])

/-- The texts of an array's items with commas between them. -/
def itemChars : List Json → List Char
  | [] => []
  | [j] => chars j
  | j :: k :: js => chars j ++ ',' :: itemChars (k :: js)

/-- The texts of an object's members with commas between them. -/
def memberChars : List (String × Json) → List Char
  | [] => []
  | [(name, j)] => quoted name ++ ':' :: chars j
  | (name, j) :: m :: ms => quoted name ++ ':' :: (chars j ++ ',' :: memberChars (m :: ms))

end

/-- The text of a document. -/
def text (j : Json) : String :=
  String.ofList j.chars

end CaseGateway.Json
