import Daybook.Text

/-!
# Base 64

Bytes may be written with 64 characters, of which each stands for six bits, so that four
characters write three bytes. Padding fills up the last four. Reading is liberal: it passes
over all other characters, and stops at padding that completes four.
-/
namespace Daybook.Text.Base64

/-- The six bits that a character stands for. -/
def value? (c : Char) : Option Nat :=
  if 'A' ≤ c ∧ c ≤ 'Z' then some (c.toNat - 'A'.toNat)
  else if 'a' ≤ c ∧ c ≤ 'z' then some (c.toNat - 'a'.toNat + 26)
  else if c.isDigit then some (c.toNat - '0'.toNat + 52)
  else if c = '+' then some 62
  else if c = '/' then some 63
  else none

/-- The bytes of the characters from a place among four on. The bits that belong to the next
byte are `left`, and `padding` counts the padding since the last character that counts. -/
def decodeFrom (place left padding : Nat) : Text → Option Bytes
  | [] => if place = 0 then some [] else none
  | c :: rest =>
    if c = '=' then
      if place < 2 then decodeFrom place left padding rest
      else if 4 ≤ place + padding + 1 then some []
      else decodeFrom place left (padding + 1) rest
    else match value? c with
      | none => decodeFrom place left padding rest
      | some bits =>
        match place with
        | 0 => decodeFrom 1 bits 0 rest
        | 1 => (decodeFrom 2 (bits % 16) 0 rest).map ((4 * left + bits / 16).toUInt8 :: ·)
        | 2 => (decodeFrom 3 (bits % 4) 0 rest).map ((16 * left + bits / 4).toUInt8 :: ·)
        | _ => (decodeFrom 0 0 0 rest).map ((64 * left + bits).toUInt8 :: ·)

/-- The bytes that a text writes, if the last of them is complete. -/
def decode? (text : Text) : Option Bytes :=
  decodeFrom 0 0 0 text

end Daybook.Text.Base64
