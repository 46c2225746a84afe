/-
Percent escapes in paths and query strings.

An escape is a percent sign and two hexadecimal digits; a percent sign that starts no
escape stands for itself.
-/
import CaseGateway.Text.Pieces
import CaseGateway.Text.Utf8

namespace CaseGateway.Text

/-- The number a hexadecimal digit stands for, given as a byte. -/
def hexValue? (b : UInt8) : Option UInt8 :=
  if 0x30 ≤ b ∧ b ≤ 0x39 then some (b - 0x30)
  else if 0x41 ≤ b ∧ b ≤ 0x46 then some (b - 0x37)
  else if 0x61 ≤ b ∧ b ≤ 0x66 then some (b - 0x57)
  else none

/-- The bytes with every escape replaced by the byte it names. -/
def unescape : Bytes → Bytes
  | [] => []
  | [a] => [a]
  | [a, b] => [a, b]
  | a :: b :: c :: bs =>
    if a = 0x25 then
      match hexValue? b, hexValue? c with
      | some high, some low => (16 * high + low) :: unescape bs
      | _, _ => a :: unescape (b :: c :: bs)
    else a :: unescape (b :: c :: bs)
termination_by bs => bs.length

/-- The text of a path segment, if its bytes are well-formed once unescaped. -/
def ofPathSegment? (segment : String) : Option String :=
  ofUtf8? (unescape (toUtf8 segment))

/-- The text of a name or value of a query string, in which a plus sign is a space. -/
def ofFormText (cs : List Char) : String :=
  let bytes := (toUtf8 (String.ofList cs)).map fun b => if b = 0x2B then 0x20 else b
  ofUtf8Lossy (unescape bytes)

/-- The pairs of a query string, in its order. -/
def formPairs (query : String) : List (String × String) :=
  ((pieces '&' query.toList).filter (!·.isEmpty)).map fun piece =>
    let (name, value) := cutAt '=' piece
    (ofFormText name, ofFormText value)

end CaseGateway.Text
