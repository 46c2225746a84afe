/-
Media types.

A media type is a type and a subtype with a slash between them, and parameters behind
semicolons, their values plain or in quotation marks.  A subtype may end in a plus sign and
the name of the format that it builds on.  The canonical text of a media type is in lower
case except for the values of parameters, of which only that of `charset` is lowered.
-/
import CaseGateway.Text.Ascii
import CaseGateway.Text.Pieces

namespace CaseGateway.Http

/-- A media type. -/
structure MediaType where
  /-- The type in lower case. -/
  type : String
  /-- The subtype in lower case, without the plus sign and the format behind it. -/
  subtype : String
  /-- The names, in lower case, and values of the parameters. -/
  parameters : List (String × String)
  /-- The canonical text. -/
  text : String
  deriving DecidableEq

namespace MediaType

/-- The characters of types, of names and of plain values. -/
def isToken (c : Char) : Bool :=
  c.isAlphanum || "!#$%&'*+-.^_`|~".toList.contains c

/-- The characters that a value in quotation marks may hold. -/
def isQuotable (c : Char) : Bool :=
  0x20 ≤ c.toNat && c.toNat < 0x7F && c != '\"'

/-- A value and the text behind the quotation mark that ends it.  A value has at least one
character, and the first one may be a quotation mark itself. -/
def readQuoted : List Char → Option (List Char × List Char)
  | [] => none
  | c :: cs =>
    if isQuotable c || c == '\"' then
      match cs.dropWhile isQuotable with
      | '\"' :: rest => some (c :: cs.takeWhile isQuotable, rest)
      | _ => none
    else none

/-- What stands before the last plus sign, if that is not the first character. -/
def withoutFormat : List Char → List Char
  | [] => []
  | c :: cs =>
    c :: if cs.contains '+' then ((cs.reverse.dropWhile (· != '+')).drop 1).reverse else cs

/-- A parameter's name, its value, and its canonical text, with the rest of the text behind the
semicolon that follows it. -/
structure Piece where
  name : String
  value : String
  text : List Char
  rest : List Char

/-- A value in the case in which it is kept. -/
def keptValue (name : String) (value : List Char) : List Char :=
  if name = "charset" then value.map Char.toLower else value

/-- Reads one parameter, which stands at the front of the text without blanks. -/
def readParameter (cs : List Char) : Option Piece :=
  let name := Text.lower (String.ofList (cs.takeWhile isToken))
  match cs.dropWhile isToken with
  | '=' :: '\"' :: quoted => do
    let (value, more) ← readQuoted quoted
    let value := keptValue name value
    let blanks := more.takeWhile (· == ' ')
    let text := name.toList ++ '=' :: '\"' :: value ++ '\"' :: blanks
    if name.isEmpty then none
    else
      match more.dropWhile (· == ' ') with
      | [] => some ⟨name, String.ofList value, text, []⟩
      | ';' :: rest => some ⟨name, String.ofList value, text ++ [';'], rest⟩
      | _ => none
  | '=' :: plain =>
    let value := keptValue name (plain.takeWhile isToken)
    let text := name.toList ++ '=' :: value
    if name.isEmpty then none
    else
      match plain.dropWhile isToken with
      | [] => some ⟨name, String.ofList value, text, []⟩
      | ';' :: rest =>
        if value.isEmpty then none else some ⟨name, String.ofList value, text ++ [';'], rest⟩
      | _ => none
  | _ => none

/-- Reads the parameters of a text, with blanks allowed in front of each; yields names and
values, and the canonical text. -/
def readParameters : (fuel : Nat) → List Char → Option (List (String × String) × List Char)
  | 0, _ => none
  | fuel + 1, cs =>
    let blanks := cs.takeWhile (· == ' ')
    let more := cs.dropWhile (· == ' ')
    if more.isEmpty then some ([], blanks)
    else do
      let piece ← readParameter more
      let (parameters, text) ← readParameters fuel piece.rest
      return ((piece.name, piece.value) :: parameters, blanks ++ piece.text ++ text)

/-- The media type of a text of visible ASCII characters and blanks.  No blank may stand before
the first semicolon, and a subtype without any character is taken as one if nothing follows
it. -/
def parse? (s : String) : Option MediaType := do
  let cs := s.toList
  let type := cs.takeWhile isToken
  match cs.dropWhile isToken with
  | '/' :: afterSlash =>
    let subtype := afterSlash.takeWhile isToken
    if type.isEmpty then none
    else
      let essence := Text.lower (String.ofList (type ++ '/' :: subtype))
      let named := fun parameters text =>
        some ⟨Text.lower (String.ofList type), Text.lower (String.ofList (withoutFormat subtype)),
          parameters, text⟩
      match afterSlash.dropWhile isToken with
      | [] => named [] essence
      | ';' :: rest =>
        if subtype.isEmpty then none
        else do
          let (parameters, text) ← readParameters (rest.length + 1) rest
          named parameters <|
            if parameters.isEmpty then essence else essence ++ String.ofList (';' :: text)
      | _ => none
  | _ => none

/-- The value of a parameter. -/
def parameter? (m : MediaType) (name : String) : Option String :=
  (m.parameters.find? (·.1 == name)).map (·.2)

end MediaType

end CaseGateway.Http
