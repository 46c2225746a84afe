/-
Texts as bytes, and bytes as texts.

A lead byte fixes how many bytes follow it and in which range each of them lies, so a
character is read by walking along those ranges.  Where a byte leaves its range the
part read so far is a maximal ill-formed part: a strict reader gives up, a lenient one
puts U+FFFD in its place and goes on with the byte that did not fit.
-/

namespace CaseGateway

/-- A sequence of bytes. -/
abbrev Bytes := List UInt8

namespace Text

/-- The bits a lead byte contributes, and the range of each byte that has to follow it. -/
def followers (lead : Nat) : Option (Nat × List (Nat × Nat)) :=
  if lead < 0x80 then some (lead, [])
  else if lead < 0xC2 then none
  else if lead < 0xE0 then some (lead - 0xC0, [(0x80, 0xBF)])
  else if lead = 0xE0 then some (0, [(0xA0, 0xBF), (0x80, 0xBF)])
  else if lead = 0xED then some (0x0D, [(0x80, 0x9F), (0x80, 0xBF)])
  else if lead < 0xF0 then some (lead - 0xE0, [(0x80, 0xBF), (0x80, 0xBF)])
  else if lead = 0xF0 then some (0, [(0x90, 0xBF), (0x80, 0xBF), (0x80, 0xBF)])
  else if lead < 0xF4 then some (lead - 0xF0, [(0x80, 0xBF), (0x80, 0xBF), (0x80, 0xBF)])
  else if lead = 0xF4 then some (4, [(0x80, 0x8F), (0x80, 0xBF), (0x80, 0xBF)])
  else none

/-- Walks along the expected ranges, adding six bits a byte; stops before the first byte
that is out of its range. -/
def follow : Nat → List (Nat × Nat) → Bytes → Option Nat × Bytes
  | code, [], bs => (some code, bs)
  | _, _ :: _, [] => (none, [])
  | code, (first, last) :: ranges, b :: bs =>
    if first ≤ b.toNat ∧ b.toNat ≤ last then follow (64 * code + (b.toNat - 0x80)) ranges bs
    else (none, b :: bs)

/-- The first character of `lead :: bs`, or nothing for an ill-formed part, and the rest. -/
def readCharacter (lead : UInt8) (bs : Bytes) : Option Char × Bytes :=
  match followers lead.toNat with
  | none => (none, bs)
  | some (code, ranges) =>
    let (code?, rest) := follow code ranges bs
    (code?.map Char.ofNat, rest)

theorem follow_length_le (code : Nat) (ranges : List (Nat × Nat)) (bs : Bytes) :
    (follow code ranges bs).2.length ≤ bs.length := by
  fun_induction follow code ranges bs with
  | case1 => simp
  | case2 => simp
  | case3 code first last ranges b bs h ih =>
    simp only [List.length_cons]
    omega
  | case4 => simp

theorem readCharacter_length_le (lead : UInt8) (bs : Bytes) :
    (readCharacter lead bs).2.length ≤ bs.length := by
  unfold readCharacter
  split
  · simp
  · exact follow_length_le ..

/-- The characters a byte sequence spells, with nothing in the place of each maximal
ill-formed part. -/
def characters : Bytes → List (Option Char)
  | [] => []
  | lead :: bs => (readCharacter lead bs).1 :: characters (readCharacter lead bs).2
termination_by bs => bs.length
decreasing_by
  have := readCharacter_length_le lead bs
  simp only [List.length_cons]
  omega

/-- The text of a well-formed byte sequence. -/
def ofUtf8? (bs : Bytes) : Option String :=
  (characters bs).mapM id |>.map String.ofList

/-- The text of any byte sequence, U+FFFD standing for each maximal ill-formed part. -/
def ofUtf8Lossy (bs : Bytes) : String :=
  String.ofList ((characters bs).map (·.getD (Char.ofNat 0xFFFD)))

/-- The bytes of a text. -/
def toUtf8 (s : String) : Bytes :=
  s.toList.flatMap String.utf8EncodeChar

end Text

end CaseGateway
