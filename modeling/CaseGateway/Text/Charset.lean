/-
Texts in bytes of one charset or another.

Bytes that start with a byte order mark are in the charset that goes with the mark, whatever
is said of them elsewhere, and the mark is no part of the text.  No byte sequence is
refused: U+FFFD stands for each part that spells no character.
-/
import CaseGateway.Text.Ascii
import CaseGateway.Text.Utf8

namespace CaseGateway.Text

/-- Charsets that texts come in. -/
inductive Charset
  | utf8
  | utf16BigEndian
  | utf16LittleEndian
  | western
  deriving DecidableEq

/-! ### Sixteen-bit units -/

/-- The sixteen-bit units of a byte sequence, read by `join`, without an odd byte at the
end. -/
def units16 (join : UInt8 → UInt8 → Nat) : Bytes → List Nat
  | a :: b :: bs => join a b :: units16 join bs
  | _ => []

/-- The first half of a pair of units. -/
def isHighSurrogate (u : Nat) : Bool :=
  0xD800 ≤ u && u < 0xDC00

/-- The second half of a pair of units. -/
def isLowSurrogate (u : Nat) : Bool :=
  0xDC00 ≤ u && u < 0xE000

/-- The character of a unit on its own, U+FFFD for half a pair. -/
def ofLoneUnit (u : Nat) : Char :=
  if isHighSurrogate u || isLowSurrogate u then Char.ofNat 0xFFFD else Char.ofNat u

/-- The characters of sixteen-bit units: one for a high surrogate with a low one behind it,
and one for any other unit. -/
def ofUnits16 : List Nat → List Char
  | u :: v :: us =>
    if isHighSurrogate u && isLowSurrogate v then
      Char.ofNat (0x10000 + 0x400 * (u - 0xD800) + (v - 0xDC00)) :: ofUnits16 us
    else ofLoneUnit u :: ofUnits16 (v :: us)
  | [u] => [ofLoneUnit u]
  | [] => []

/-- The characters of bytes in UTF-16.  An odd byte at the end spells no character, and makes
one broken part with a high surrogate before it. -/
def ofUtf16 (join : UInt8 → UInt8 → Nat) (bs : Bytes) : List Char :=
  let units := units16 join bs
  let odd := bs.length % 2 == 1 && !units.getLast?.any isHighSurrogate
  ofUnits16 units ++ if odd then [Char.ofNat 0xFFFD] else []

/-! ### Single bytes -/

/-- The characters of the bytes from `0x80` to `0x9F` in the western charset. -/
def westernMarks : List Nat := [
  0x20AC, 0x0081, 0x201A, 0x0192, 0x201E, 0x2026, 0x2020, 0x2021,
  0x02C6, 0x2030, 0x0160, 0x2039, 0x0152, 0x008D, 0x017D, 0x008F,
  0x0090, 0x2018, 0x2019, 0x201C, 0x201D, 0x2022, 0x2013, 0x2014,
  0x02DC, 0x2122, 0x0161, 0x203A, 0x0153, 0x009D, 0x017E, 0x0178]

/-- The character of a byte in the western charset; outside of the marks it has the byte's
number. -/
def ofWesternByte (b : UInt8) : Char :=
  if 0x80 ≤ b then Char.ofNat (westernMarks[b.toNat - 0x80]?.getD b.toNat)
  else Char.ofNat b.toNat

namespace Charset

/-- The labels of a charset. -/
def labels : Charset → List String
  | utf8 =>
    ["unicode-1-1-utf-8", "unicode11utf8", "unicode20utf8", "utf-8", "utf8", "x-unicode20utf8"]
  | utf16BigEndian => ["unicodefffe", "utf-16be"]
  | utf16LittleEndian =>
    ["csunicode", "iso-10646-ucs-2", "ucs-2", "unicode", "unicodefeff", "utf-16", "utf-16le"]
  | western =>
    ["ansi_x3.4-1968", "ascii", "cp1252", "cp819", "csisolatin1", "ibm819", "iso-8859-1",
      "iso-ir-100", "iso8859-1", "iso88591", "iso_8859-1", "iso_8859-1:1987", "l1", "latin1",
      "us-ascii", "windows-1252", "x-cp1252"]

/-- All charsets. -/
def all : List Charset :=
  [utf8, utf16BigEndian, utf16LittleEndian, western]

/-- The charset with a label, in any letter case and with blanks around it. -/
def named? (label : String) : Option Charset :=
  let inner := ((label.toList.dropWhile (· == ' ')).reverse.dropWhile (· == ' ')).reverse
  all.find? fun c => c.labels.contains (lower (String.ofList inner))

/-- The text of a byte sequence in a charset. -/
def decode : Charset → Bytes → String
  | utf8, bs => ofUtf8Lossy bs
  | utf16BigEndian, bs =>
    String.ofList (ofUtf16 (fun a b => 256 * a.toNat + b.toNat) bs)
  | utf16LittleEndian, bs =>
    String.ofList (ofUtf16 (fun a b => 256 * b.toNat + a.toNat) bs)
  | western, bs => String.ofList (bs.map ofWesternByte)

end Charset

/-- The text of a byte sequence: in the charset of its byte order mark, otherwise in the one that
is given. -/
def ofMarkedBytes (given : Charset) : Bytes → String
  | 0xEF :: 0xBB :: 0xBF :: bs => Charset.utf8.decode bs
  | 0xFE :: 0xFF :: bs => Charset.utf16BigEndian.decode bs
  | 0xFF :: 0xFE :: bs => Charset.utf16LittleEndian.decode bs
  | bs => given.decode bs

end CaseGateway.Text
