import Daybook.Text.Numeral

/-!
# UTF-8

Texts are stored as UTF-8. Encoding never fails; decoding fails at the first byte
that no encoding has in its place, and says which bytes are at fault and why.

Positions in a text count characters, positions in a file count bytes. `Offsets`
turns the first into the second.
-/
namespace Daybook.Text.Utf8

/-- The bytes of a text. -/
def encode (text : Text) : Bytes :=
  text.flatMap String.utf8EncodeChar

/-- Why bytes are not the encoding of a text. -/
inductive Flaw where
  /-- The byte cannot begin a character. -/
  | badStart
  /-- A byte that should continue a character does not. -/
  | badContinuation
  /-- The bytes end inside a character. -/
  | truncated
  deriving DecidableEq, Repr

/-- Bytes that are no text: the bytes from `start` up to `stop` are at fault, of
which `lead` is the first. -/
structure Malformed where
  start : Nat
  stop : Nat
  lead : UInt8
  flaw : Flaw
  deriving DecidableEq, Repr

/-- The fault in words. -/
def Flaw.message : Flaw → Text
  | .badStart => "invalid start byte"
  | .badContinuation => "invalid continuation byte"
  | .truncated => "unexpected end of data"

/-- The fault and its place in words. -/
def Malformed.message (malformed : Malformed) : Text :=
  let place :=
    if malformed.stop = malformed.start + 1 then
      "byte 0x" ++ hexadecimal 2 malformed.lead.toNat ++ " in position " ++ decimal malformed.start
    else
      "bytes in position " ++ decimal malformed.start ++ "-" ++ decimal (malformed.stop - 1)
  "'utf-8' codec can't decode " ++ place ++ ": " ++ malformed.flaw.message

/-- Bytes that continue a character. -/
def isTail (b : UInt8) : Bool :=
  0x80 ≤ b && b ≤ 0xBF

/-- Whether `b` may follow the lead byte `lead` of a character of three bytes. Too
small characters and the halves of pairs have no encoding. -/
def isSecondOfThree (lead b : UInt8) : Bool :=
  isTail b && !(lead == 0xE0 && b < 0xA0) && !(lead == 0xED && b ≥ 0xA0)

/-- Whether `b` may follow the lead byte `lead` of a character of four bytes. Too
small characters and those past the last one have no encoding. -/
def isSecondOfFour (lead b : UInt8) : Bool :=
  isTail b && !(lead == 0xF0 && b < 0x90) && !(lead == 0xF4 && b ≥ 0x90)

/-- The six low bits of a byte below the bits of `high`. -/
def append (high : Nat) (b : UInt8) : Nat :=
  high * 0x40 + (b.toNat - 0x80)

/-- Decodes bytes of which the first stands at `position`. -/
def decodeFrom (position : Nat) : Bytes → Except Malformed Text
  | [] => .ok []
  | lead :: rest =>
    let fault (length : Nat) (flaw : Flaw) : Except Malformed Text :=
      .error ⟨position, position + length, lead, flaw⟩
    if lead < 0x80 then
      (decodeFrom (position + 1) rest).map (Char.ofNat lead.toNat :: ·)
    else if lead < 0xC2 then fault 1 .badStart
    else if lead < 0xE0 then
      match rest with
      | [] => fault 1 .truncated
      | second :: rest =>
        if !isTail second then fault 1 .badContinuation
        else
          let code := append (lead.toNat - 0xC0) second
          (decodeFrom (position + 2) rest).map (Char.ofNat code :: ·)
    else if lead < 0xF0 then
      match rest with
      | [] => fault 1 .truncated
      | second :: rest =>
        if !isSecondOfThree lead second then fault 1 .badContinuation
        else match rest with
          | [] => fault 2 .truncated
          | third :: rest =>
            if !isTail third then fault 2 .badContinuation
            else
              let code := append (append (lead.toNat - 0xE0) second) third
              (decodeFrom (position + 3) rest).map (Char.ofNat code :: ·)
    else if lead < 0xF5 then
      match rest with
      | [] => fault 1 .truncated
      | second :: rest =>
        if !isSecondOfFour lead second then fault 1 .badContinuation
        else match rest with
          | [] => fault 2 .truncated
          | third :: rest =>
            if !isTail third then fault 2 .badContinuation
            else match rest with
              | [] => fault 3 .truncated
              | fourth :: rest =>
                if !isTail fourth then fault 3 .badContinuation
                else
                  let code := append (append (append (lead.toNat - 0xF0) second) third) fourth
                  (decodeFrom (position + 4) rest).map (Char.ofNat code :: ·)
    else fault 1 .badStart

/-- The text of bytes, or the first place where they are no text. -/
def decode (bytes : Bytes) : Except Malformed Text :=
  decodeFrom 0 bytes

/-- The byte offsets of the positions of a text. A text in which every character
takes one byte needs no table. -/
structure Offsets where
  table : Option (Array Nat)

/-- The byte offset of every position from `offset` on, the end included. -/
def runningOffsets (offset : Nat) : Text → List Nat
  | [] => [offset]
  | c :: rest => offset :: runningOffsets (offset + c.utf8Size) rest

/-- The offsets of a text. -/
def Offsets.ofText (text : Text) : Offsets :=
  if text.all fun c => c.toNat < 0x80 then ⟨none⟩ else ⟨some (runningOffsets 0 text).toArray⟩

/-- The byte offset of a position. -/
def Offsets.byte (offsets : Offsets) (position : Nat) : Nat :=
  match offsets.table with
  | none => position
  | some table => table.getD position 0

end Daybook.Text.Utf8
