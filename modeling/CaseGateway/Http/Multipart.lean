/-
Multipart bodies.

A body is cut at its boundary: two hyphens and the text that the content type names.
What stands before the first boundary does not matter, and neither does what follows the
last one, which has two hyphens behind it.  In between each part has header lines, an
empty line, and its content up to the line break before the next boundary.

The name of a part stands in its content disposition, which need not be well formed: the
first free-standing `name` decides, whatever else the line holds.
-/
import CaseGateway.Http.MediaType
import CaseGateway.Text.Charset
import CaseGateway.Text.Pieces
import CaseGateway.Text.Utf8

namespace CaseGateway.Http

/-- A part of a multipart body. -/
structure Part where
  name : Option String
  contentType : Option MediaType
  content : Bytes
  deriving DecidableEq

/-- The text that a part holds. -/
def Part.text (p : Part) : String :=
  let charset := do Text.Charset.named? (← (← p.contentType).parameter? "charset")
  Text.ofMarkedBytes (charset.getD .utf8) p.content

namespace Multipart

/-- How many header lines a part may have. -/
def maxHeaders : Nat := 32

/-- The boundary that a content type names for a form. -/
def boundary? (contentType : Option String) : Option String := do
  let mediaType ← MediaType.parse? (← contentType)
  if mediaType.type = "multipart" ∧ mediaType.subtype = "form-data" then
    mediaType.parameter? "boundary"
  else none

/-- A line break. -/
def lineBreak : Bytes := [0x0D, 0x0A]

/-- What stands before the first occurrence of `mark`, and what follows it. -/
def cutAtMark (mark : Bytes) : Bytes → Option (Bytes × Bytes)
  | [] => if mark.isEmpty then some ([], []) else none
  | b :: bs =>
    if mark.isPrefixOf (b :: bs) then some ([], (b :: bs).drop mark.length)
    else (cutAtMark mark bs).map fun (before, after) => (b :: before, after)

/-- A line without the carriage return at its end. -/
def withoutReturn (line : Bytes) : Bytes :=
  if line.getLast? = some 0x0D then line.dropLast else line

/-- The lines of a header block, up to the first empty one. -/
def headerLines (block : Bytes) : List Bytes :=
  ((Text.pieces 0x0A (block ++ lineBreak)).dropLast.map withoutReturn).takeWhile (!·.isEmpty)

/-- Whether a byte is a blank or a tab. -/
def isHeaderBlank (b : UInt8) : Bool :=
  b == 0x20 || b == 0x09

/-- The name, in lower case, and the value of a header line. -/
def readHeader (line : Bytes) : Option (String × Bytes) :=
  let name := line.takeWhile (· != 0x3A)
  match line.dropWhile (· != 0x3A) with
  | [] => none
  | _ :: rest =>
    let chars := name.map fun b => Char.ofNat b.toNat
    let value := ((rest.dropWhile isHeaderBlank).reverse.dropWhile isHeaderBlank).reverse
    if chars.isEmpty || !chars.all MediaType.isToken then none
    else if value.all fun b => b == 0x09 || (0x20 ≤ b && b != 0x7F) then
      some (Text.lower (String.ofList chars), value)
    else none

/-- The text between the quotation mark before `bs` and the next one that no backslash
precedes. -/
def quotedText : Bytes → Option Bytes
  | [] => none
  | 0x22 :: _ => some []
  | 0x5C :: 0x22 :: bs => (quotedText bs).map (0x22 :: ·)
  | b :: bs => (quotedText bs).map (b :: ·)

/-- The value behind the name of an attribute: an equals sign, and a text that is in quotation
marks or ends at a semicolon or a blank. -/
def attributeValue? (bs : Bytes) : Option Bytes :=
  match bs.dropWhile isHeaderBlank with
  | 0x3D :: rest =>
    match rest.dropWhile isHeaderBlank with
    | 0x22 :: quoted => quotedText quoted
    | plain => some (plain.takeWhile fun b => b != 0x3B && b != 0x20)
  | _ => none

/-- The value of the attribute `name` in a content disposition.  The first occurrence of the
word decides, with or without a value, but not one inside another word such as `filename`. -/
def dispositionName? : (fuel : Nat) → Bytes → Option String
  | 0, _ => none
  | fuel + 1, bs => do
    let (skipped, after) ← cutAtMark (Text.toUtf8 "name") bs
    if skipped.getLast?.all fun b => isHeaderBlank b || b == 0x3B then
      Text.ofUtf8? (← attributeValue? after)
    else dispositionName? fuel after

/-- The value of the last header of a name. -/
def header? (headers : List (String × Bytes)) (name : String) : Option Bytes :=
  (headers.reverse.find? (·.1 == name)).map (·.2)

/-- The part with a header block and a content. -/
def partOf (block content : Bytes) : Option Part := do
  let headers ← (headerLines block).mapM readHeader
  guard (headers.length ≤ maxHeaders)
  let disposition := header? headers "content-disposition"
  let contentType := do
    let value ← header? headers "content-type"
    if value.all fun b => 0x20 ≤ b && b < 0x7F then
      MediaType.parse? (← Text.ofUtf8? value)
    else none
  return {
    name := disposition.bind fun value => dispositionName? value.length value
    contentType, content }

/-- Header block and rest of a part that starts behind its boundary; none behind the last. -/
def openPart (bs : Bytes) : Option (Option (Bytes × Bytes)) :=
  match bs with
  | 0x2D :: 0x2D :: _ => some none
  | _ =>
    match bs.dropWhile isHeaderBlank with
    | 0x0D :: 0x0A :: rest => (cutAtMark (lineBreak ++ lineBreak) rest).map some
    | _ => none

/-- The parts behind a boundary. -/
def readParts (boundary : Bytes) : (fuel : Nat) → Bytes → Option (List Part)
  | 0, _ => none
  | fuel + 1, bs => do
    match ← openPart bs with
    | none => return []
    | some (block, rest) =>
      let (content, more) ← cutAtMark (lineBreak ++ boundary) rest
      let part ← partOf block content
      let parts ← readParts boundary fuel more
      return part :: parts

/-- The parts of a body with the given boundary, if the body is complete. -/
def parts? (boundary : String) (body : Bytes) : Option (List Part) := do
  let mark := Text.toUtf8 ("--" ++ boundary)
  let (_, rest) ← cutAtMark mark body
  readParts mark (body.length + 1) rest

end Multipart

end CaseGateway.Http
