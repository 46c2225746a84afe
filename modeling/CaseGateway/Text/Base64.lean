/-
Base64 with the standard alphabet and padding.

Every byte sequence has exactly one text: `decode` refuses missing or surplus padding,
characters outside the alphabet, and bits that the last symbol carries in vain.  All
groups of four but the last are read first, so a fault in them is reported before one
at the end.
-/
import CaseGateway.Text.Ascii
import CaseGateway.Text.Utf8

namespace CaseGateway.Base64

/-- Why a text is not base64. -/
inductive Fault
  /-- A byte that may not stand at this offset. -/
  | symbol (byte : UInt8) (offset : Nat)
  /-- The text ends after a single symbol of a group. -/
  | length (n : Nat)
  /-- The last symbol, at this offset, carries bits that no byte takes up. -/
  | lastSymbol (byte : UInt8) (offset : Nat)
  /-- The last group is not filled up with padding. -/
  | padding
  deriving DecidableEq, Repr

/-- The wording of a fault. -/
def Fault.message : Fault → String
  | .symbol byte offset =>
    "Invalid symbol " ++ toString byte.toNat ++ ", offset " ++ toString offset ++ "."
  | .length n => "Invalid input length: " ++ toString n
  | .lastSymbol byte offset =>
    "Invalid last symbol " ++ toString byte.toNat ++ ", offset " ++ toString offset ++ "."
  | .padding => "Invalid padding"

/-- The padding byte, an equals sign. -/
def pad : UInt8 := 0x3D

/-- The symbol of a value below sixty-four. -/
def symbol (v : Nat) : UInt8 :=
  if v < 26 then UInt8.ofNat (0x41 + v)
  else if v < 52 then UInt8.ofNat (0x61 + (v - 26))
  else if v < 62 then UInt8.ofNat (0x30 + (v - 52))
  else if v = 62 then 0x2B
  else 0x2F

/-- The value of a symbol. -/
def value? (b : UInt8) : Option Nat :=
  if 0x41 ≤ b ∧ b ≤ 0x5A then some (b.toNat - 0x41)
  else if 0x61 ≤ b ∧ b ≤ 0x7A then some (b.toNat - 0x61 + 26)
  else if 0x30 ≤ b ∧ b ≤ 0x39 then some (b.toNat - 0x30 + 52)
  else if b = 0x2B then some 62
  else if b = 0x2F then some 63
  else none

/-- The symbols of a byte sequence: four for three bytes, the last group padded. -/
def symbols : Bytes → Bytes
  | [] => []
  | [a] =>
    let n := a.toNat * 16
    [symbol (n / 64), symbol (n % 64), pad, pad]
  | [a, b] =>
    let n := (a.toNat * 256 + b.toNat) * 4
    [symbol (n / 4096), symbol (n / 64 % 64), symbol (n % 64), pad]
  | a :: b :: c :: rest =>
    let n := (a.toNat * 256 + b.toNat) * 256 + c.toNat
    symbol (n / 262144) :: symbol (n / 4096 % 64) :: symbol (n / 64 % 64) :: symbol (n % 64) ::
      symbols rest

/-- The base64 text of a byte sequence. -/
def encode (bs : Bytes) : String :=
  String.ofList ((symbols bs).map fun b => Char.ofNat b.toNat)

/-- The value of a symbol at an offset. -/
def valueAt (b : UInt8) (offset : Nat) : Except Fault Nat :=
  match value? b with
  | some v => .ok v
  | none => .error (.symbol b offset)

/-- What the last group holds: the values of its symbols, and the number of paddings after
them.  `position` counts the bytes of the group before `bs`, and `padAt` is the place of
the first padding seen. -/
def lastGroup (start : Nat) :
    (position : Nat) → (padAt : Option Nat) → Bytes → Except Fault (List Nat × Nat)
  | _, _, [] => .ok ([], 0)
  | position, padAt, b :: bs =>
    if b = pad then
      if position < 2 then .error (.symbol b (start + position))
      else do
        let (vs, pads) ← lastGroup start (position + 1) (some (padAt.getD position)) bs
        return (vs, pads + 1)
    else
      match padAt with
      | some first => .error (.symbol pad (start + first))
      | none => do
        let v ← valueAt b (start + position)
        let (vs, pads) ← lastGroup start (position + 1) none bs
        return (v :: vs, pads)

/-- The bytes of the last group, which starts at offset `start`. -/
def decodeLast (start : Nat) (group : Bytes) : Except Fault Bytes := do
  let (vs, pads) ← lastGroup start 0 none group
  if !group.isEmpty && vs.length < 2 then throw (.length (start + vs.length))
  if (vs.length + pads) % 4 != 0 then throw .padding
  let wasted := Fault.lastSymbol (group.getD (vs.length - 1) 0) (start + vs.length - 1)
  match vs with
  | [a, b] =>
    if b % 16 = 0 then return [UInt8.ofNat (a * 4 + b / 16)] else throw wasted
  | [a, b, c] =>
    if c % 4 = 0 then
      return [UInt8.ofNat (a * 4 + b / 16), UInt8.ofNat (b % 16 * 16 + c / 4)]
    else throw wasted
  | [a, b, c, d] =>
    return [UInt8.ofNat (a * 4 + b / 16), UInt8.ofNat (b % 16 * 16 + c / 4),
      UInt8.ofNat (c % 4 * 64 + d)]
  | _ => return []

/-- The bytes of the groups from offset `start` on. -/
def decodeGroups (start : Nat) : Bytes → Except Fault Bytes
  | a :: b :: c :: d :: e :: rest => do
    let va ← valueAt a start
    let vb ← valueAt b (start + 1)
    let vc ← valueAt c (start + 2)
    let vd ← valueAt d (start + 3)
    let more ← decodeGroups (start + 4) (e :: rest)
    return UInt8.ofNat (va * 4 + vb / 16) :: UInt8.ofNat (vb % 16 * 16 + vc / 4) ::
      UInt8.ofNat (vc % 4 * 64 + vd) :: more
  | group => decodeLast start group

/-- A byte outside the alphabet that follows complete groups on its own, such as a line
feed at the end of the text. -/
def strayByte? (bs : Bytes) : Option Fault :=
  match bs.getLast? with
  | some b =>
    if bs.length % 4 = 1 ∧ b ≠ pad ∧ (value? b).isNone then some (.symbol b (bs.length - 1))
    else none
  | none => none

/-- The bytes a base64 text stands for. -/
def decode (s : String) : Except Fault Bytes :=
  let bs := Text.toUtf8 s
  match strayByte? bs with
  | some fault => .error fault
  | none => decodeGroups 0 bs

end CaseGateway.Base64
