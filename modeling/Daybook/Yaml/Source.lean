import Daybook.Yaml

/-!
# The text of a settings file

A settings file is not read as a whole. Its bytes are decoded piece by piece, and its
characters are taken over in portions, the first one twice as large as the others; what is
wrong with a portion is found when the portion is taken over, and that only happens when a
character of it is asked for. A source is therefore the text in front of the first bad portion,
and the fault that waits behind it.

Line ends of all three customary kinds become line feeds.
-/
namespace Daybook.Yaml

/-- The text of a settings file, up to a fault that stops the reading, if there is one. -/
structure Source where
  text : Text
  behind : Option Fault := none

/-- The text with line feeds for all customary line ends. -/
def unifyBreaks : Text → Text
  | [] => []
  | '\r' :: '\n' :: rest => '\n' :: unifyBreaks rest
  | '\r' :: rest => '\n' :: unifyBreaks rest
  | c :: rest => c :: unifyBreaks rest

/-- The characters that may occur in a settings file. -/
def isPrintable (c : Char) : Bool :=
  let code := c.toNat
  c == '\t' || c == '\n' || c == '\r' || (0x20 ≤ code && code ≤ 0x7E) || code == 0x85 ||
    (0xA0 ≤ code && code ≤ 0xFFFD) || 0x10000 ≤ code

namespace Source

/-- The number of characters of a portion. -/
def portion : Nat := 4096

/-- The number of bytes that are decoded together, unless more characters are asked for. -/
def piece : Nat := 8192

/-- Where the portion begins that the character at `position` is taken over with. -/
def portionStart (position : Nat) : Nat :=
  if position < 2 * portion then 0 else position / portion * portion

/-- How far the bytes of a settings file have been decoded. -/
structure Decoding where
  /-- The text so far, last character first. -/
  reversed : Text := []
  /-- The number of its characters. -/
  count : Nat := 0
  /-- A carriage return that may belong to a line feed in the next piece. -/
  pending : Bool := false
  /-- The first bytes of a character that goes on in the next piece. -/
  carried : Bytes := []
  /-- How many bytes the last piece had and how many characters it gave. -/
  lastBytes : Nat := 0
  lastCount : Nat := 0

/-- The number of bytes of the next piece: as many as will give the characters that are
missing in the portion, by the measure of the last piece. -/
def Decoding.nextPiece (decoding : Decoding) : Nat :=
  let missing := portion - decoding.count % portion
  max piece (decoding.lastBytes * missing / decoding.lastCount)

/-- Decoding after a piece of `length` bytes that gave `text`. -/
def Decoding.after (decoding : Decoding) (length : Nat) (text : Text) (carried : Bytes) :
    Decoding :=
  let whole := if decoding.pending && !text.isEmpty then '\r' :: text else text
  let pending := if text.isEmpty then decoding.pending else whole.getLast? = some '\r'
  let unified := unifyBreaks (if pending && !text.isEmpty then whole.dropLast else whole)
  { reversed := unified.reverse ++ decoding.reversed
    count := decoding.count + unified.length
    pending, carried, lastBytes := length, lastCount := unified.length }

/-- What is decoded after the last piece. -/
def Decoding.text (decoding : Decoding) : Text :=
  decoding.reversed.reverse

/-- The text in front of the portion that more characters are needed for, with the fault that
is found then. -/
def Decoding.stopped (decoding : Decoding) (malformed : Text.Utf8.Malformed) : Source :=
  { text := decoding.text.take (portionStart decoding.count)
    behind := some (.undecodable malformed) }

/-- Whether the bytes at fault may still be judged otherwise with the next piece in hand: they
are cut short, or they are the first two bytes of half a pair, which is only refused when its
third byte is there. -/
def waits (input : Bytes) (malformed : Text.Utf8.Malformed) : Bool :=
  malformed.flaw = .truncated ||
    match input.drop malformed.start with
    | [lead, second] => lead == 0xED && Text.Utf8.isTail second
    | _ => false

/-- Decodes piece by piece. The positions in a fault count from the beginning of the piece, or
of the character that was carried over to it. The allowance bounds the number of pieces. -/
def decode : Nat → Decoding → Bytes → Source
  | 0, decoding, _ => { text := decoding.text }
  | allowance + 1, decoding, bytes =>
    let length := min decoding.nextPiece bytes.length
    let input := decoding.carried ++ bytes.take length
    match Text.Utf8.decode input with
    | .ok text =>
      let next := decoding.after length text []
      if length = 0 then
        { text := if next.pending then next.text ++ ['\n'] else next.text }
      else decode allowance next (bytes.drop length)
    | .error malformed =>
      if waits input malformed ∧ length ≠ 0 then
        match Text.Utf8.decode (input.take malformed.start) with
        | .ok text =>
          decode allowance (decoding.after length text (input.drop malformed.start))
            (bytes.drop length)
        | .error _ => decoding.stopped malformed
      else decoding.stopped malformed

/-- The source without the portions from the first one on that has a character that may not
occur. -/
def checked (source : Source) : Source :=
  let good := Text.stretch isPrintable source.text
  if good < source.text.length then
    { text := source.text.take (portionStart good), behind := some .character }
  else source

/-- The source that the bytes of a settings file make. -/
def ofBytes (bytes : Bytes) : Source :=
  (decode (bytes.length + 2) {} bytes).checked

end Source

end Daybook.Yaml
