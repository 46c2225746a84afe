/-
Reading of JSON documents.

The grammar is that of RFC 8259 and nothing beyond it, with at most 127 arrays and
objects inside each other.  A reader takes characters from the front of a text and hands
on the rest; nesting is bounded by a number that falls at each level, and the members of
one array or object by the length of what is left to read.
-/
import CaseGateway.Json.Numeral
import CaseGateway.Text.Utf8

namespace CaseGateway.Json

/-- Reads a value from the front of a text. -/
abbrev Reader (α : Type) := List Char → Option (α × List Char)

/-- The four blank characters of the grammar. -/
def isSpace (c : Char) : Bool :=
  c == ' ' || c == '\t' || c == '\n' || c == '\r'

/-- The text from its first character that is not blank. -/
def skipSpace (cs : List Char) : List Char :=
  cs.dropWhile isSpace

/-! ### Strings -/

/-- The number of a hexadecimal digit. -/
def hexDigit? (c : Char) : Option Nat :=
  if c.isDigit then some (c.toNat - '0'.toNat)
  else if 'a' ≤ c ∧ c ≤ 'f' then some (c.toNat - 'a'.toNat + 10)
  else if 'A' ≤ c ∧ c ≤ 'F' then some (c.toNat - 'A'.toNat + 10)
  else none

/-- The number of four hexadecimal digits. -/
def hexUnit? (a b c d : Char) : Option Nat := do
  return (((← hexDigit? a) * 16 + (← hexDigit? b)) * 16 + (← hexDigit? c)) * 16 + (← hexDigit? d)

/-- The character that stands for itself or another one after a backslash. -/
def shortEscape? (c : Char) : Option Char :=
  if c = '\"' ∨ c = '\\' ∨ c = '/' then some c
  else if c = 'b' then some (Char.ofNat 0x08)
  else if c = 'f' then some (Char.ofNat 0x0C)
  else if c = 'n' then some (Char.ofNat 0x0A)
  else if c = 'r' then some (Char.ofNat 0x0D)
  else if c = 't' then some (Char.ofNat 0x09)
  else none

/-- A character in front of what was read. -/
def prepend (c : Char) : Option (List Char × List Char) → Option (List Char × List Char)
  | some (cs, rest) => some (c :: cs, rest)
  | none => none

/-- The characters up to the closing quotation mark.  A surrogate counts only as half of a
pair. -/
def readQuoted : Reader (List Char)
  | [] => none
  | '\"' :: rest => some ([], rest)
  | '\\' :: 'u' :: a :: b :: c :: d :: rest =>
    match hexUnit? a b c d with
    | none => none
    | some u =>
      if u < 0xD800 ∨ 0xE000 ≤ u then prepend (Char.ofNat u) (readQuoted rest)
      else
        match rest with
        | '\\' :: 'u' :: e :: f :: g :: h :: more =>
          match hexUnit? e f g h with
          | none => none
          | some v =>
            if u < 0xDC00 ∧ 0xDC00 ≤ v ∧ v < 0xE000 then
              prepend (Char.ofNat (0x10000 + 0x400 * (u - 0xD800) + (v - 0xDC00))) (readQuoted more)
            else none
        | _ => none
  | '\\' :: c :: rest =>
    match shortEscape? c with
    | some e => prepend e (readQuoted rest)
    | none => none
  | c :: rest => if c = '\\' ∨ c.toNat < 0x20 then none else prepend c (readQuoted rest)

/-! ### Numbers -/

/-- The exponent behind its letter, if there is one. -/
def readExponent : Reader (Option Int)
  | [] => some (none, [])
  | c :: cs =>
    if c = 'e' ∨ c = 'E' then
      let (negative, ds) := Double.signOfChars cs
      let digits := ds.takeWhile Char.isDigit
      if digits.isEmpty then none
      else
        let n : Int := Text.naturalOfDigits digits
        some (some (if negative then -n else n), ds.dropWhile Char.isDigit)
    else some (none, c :: cs)

/-- The digits behind the point, if there is one. -/
def readFraction : Reader (List Char)
  | '.' :: cs =>
    let digits := cs.takeWhile Char.isDigit
    if digits.isEmpty then none else some (digits, cs.dropWhile Char.isDigit)
  | cs => some ([], cs)

/-- A number literal: no plus sign, and no zeros in front of other digits. -/
def readLiteral : Reader Number.Literal := fun cs => do
  let (negative, ds) :=
    match cs with
    | '-' :: ds => (true, ds)
    | ds => (false, ds)
  let whole := ds.takeWhile Char.isDigit
  if whole.isEmpty || (whole.head? == some '0' && 1 < whole.length) then none
  else
    let (fraction, rest) ← readFraction (ds.dropWhile Char.isDigit)
    let (exponent, rest) ← readExponent rest
    return (⟨negative, whole, fraction, exponent⟩, rest)

/-! ### Documents -/

/-- Null, a truth value, a string or a number. -/
def readScalar : Reader Json
  | 'n' :: 'u' :: 'l' :: 'l' :: rest => some (.null, rest)
  | 't' :: 'r' :: 'u' :: 'e' :: rest => some (.bool true, rest)
  | 'f' :: 'a' :: 'l' :: 's' :: 'e' :: rest => some (.bool false, rest)
  | '\"' :: rest => do
    let (cs, rest) ← readQuoted rest
    return (.string (String.ofList cs), rest)
  | cs => do
    let (l, rest) ← readLiteral cs
    let n ← l.value?
    return (.number n, rest)

/-- At least one item, commas between them, up to the closing character. -/
def readItems {α : Type} (item : Reader α) (close : Char) : (fuel : Nat) → Reader (List α)
  | 0, _ => none
  | fuel + 1, cs => do
    let (a, rest) ← item (skipSpace cs)
    match skipSpace rest with
    | [] => none
    | c :: more =>
      if c = close then return ([a], more)
      else if c = ',' then
        let (as, rest) ← readItems item close fuel more
        return (a :: as, rest)
      else none

/-- Any number of items up to the closing character. -/
def readSequence {α : Type} (item : Reader α) (close : Char) : Reader (List α) := fun cs =>
  match skipSpace cs with
  | [] => none
  | c :: more => if c = close then some ([], more) else readItems item close (cs.length + 1) cs

/-- A name, a colon and a value. -/
def readMember (value : Reader Json) : Reader (String × Json)
  | '\"' :: rest => do
    let (name, rest) ← readQuoted rest
    match skipSpace rest with
    | ':' :: more =>
      let (j, rest) ← value (skipSpace more)
      return ((String.ofList name, j), rest)
    | _ => none
  | _ => none

/-- A document with at most `depth` arrays and objects inside each other.  Of several members
of one name the last counts. -/
def readNested : (depth : Nat) → Reader Json
  | 0, cs => readScalar cs
  | depth + 1, cs =>
    match cs with
    | '[' :: rest => do
      let (items, rest) ← readSequence (readNested depth) ']' rest
      return (.array items, rest)
    | '\x7b' :: rest => do
      let (members, rest) ← readSequence (readMember (readNested depth)) '\x7d' rest
      return (ofDictionary (.ofList members), rest)
    | cs => readScalar cs

/-- How deep arrays and objects may stand inside each other. -/
def maximalDepth : Nat := 127

/-- The document a text spells. -/
def ofChars? (cs : List Char) : Option Json := do
  let (j, rest) ← readNested maximalDepth (skipSpace cs)
  if (skipSpace rest).isEmpty then some j else none

/-- The document a text spells. -/
def parse? (s : String) : Option Json :=
  ofChars? s.toList

/-- The document a byte sequence spells in UTF-8. -/
def ofBytes? (bs : Bytes) : Option Json :=
  (Text.ofUtf8? bs).bind parse?

end CaseGateway.Json
