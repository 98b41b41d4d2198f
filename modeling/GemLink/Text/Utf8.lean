import GemLink.Bytes

/-!
UTF-8 text: its bytes, its longest front of a given size, and the reading of byte strings that
may be malformed. Each maximal front of a character that goes wrong counts as one fault.
-/

namespace GemLink.Utf8

/-- The bytes of a text. -/
def encode (s : String) : Bytes :=
  s.toList.flatMap String.utf8EncodeChar

/-- The number of bytes of a text. -/
def size (s : String) : Nat :=
  s.utf8ByteSize

/-- The longest front of a row of characters that takes at most `limit` bytes. -/
def front : Nat → List Char → List Char
  | _, [] => []
  | limit, c :: cs => if c.utf8Size ≤ limit then c :: front (limit - c.utf8Size) cs else []

/-- A character that has begun: the bytes still owed, the range of the next one, and the bits so
far. -/
structure Begun where
  /-- Continuation bytes still owed. -/
  owed : Nat
  /-- Least next byte. -/
  low : Nat
  /-- Greatest next byte. -/
  high : Nat
  /-- The bits read so far. -/
  bits : Nat

/-- What the first byte of a character says about the rest; `none` if no character begins so. -/
def begin? (b : Nat) : Option Begun :=
  if b < 0x80 then some ⟨0, 0, 0, b⟩
  else if 0xC2 ≤ b ∧ b ≤ 0xDF then some ⟨1, 0x80, 0xBF, b - 0xC0⟩
  else if b = 0xE0 then some ⟨2, 0xA0, 0xBF, 0⟩
  else if b = 0xED then some ⟨2, 0x80, 0x9F, 0x0D⟩
  else if 0xE1 ≤ b ∧ b ≤ 0xEF then some ⟨2, 0x80, 0xBF, b - 0xE0⟩
  else if b = 0xF0 then some ⟨3, 0x90, 0xBF, 0⟩
  else if 0xF1 ≤ b ∧ b ≤ 0xF3 then some ⟨3, 0x80, 0xBF, b - 0xF0⟩
  else if b = 0xF4 then some ⟨3, 0x80, 0x8F, 4⟩
  else none

/-- Where a reading stands: the parts found, last first, and the character that has begun. -/
structure Reading where
  /-- The characters found, last first, `none` for a fault. -/
  parts : List (Option Char) := []
  /-- The character that has begun. -/
  begun : Option Begun := none

/-- Reads a byte that begins a character. -/
def Reading.first (parts : List (Option Char)) (b : Nat) : Reading :=
  match begin? b with
  | none => ⟨none :: parts, none⟩
  | some begun => if begun.owed = 0 then ⟨some (Char.ofNat begun.bits) :: parts, none⟩
    else ⟨parts, some begun⟩

/-- Reads one byte. -/
def Reading.next (r : Reading) (b : UInt8) : Reading :=
  match r.begun with
  | none => Reading.first r.parts b.toNat
  | some c =>
    if c.low ≤ b.toNat ∧ b.toNat ≤ c.high then
      let bits := c.bits * 64 + (b.toNat - 0x80)
      if c.owed = 1 then ⟨some (Char.ofNat bits) :: r.parts, none⟩
      else ⟨r.parts, some ⟨c.owed - 1, 0x80, 0xBF, bits⟩⟩
    else Reading.first (none :: r.parts) b.toNat

/-- The parts in order once the bytes have ended. -/
def Reading.finish (r : Reading) : List (Option Char) :=
  match r.begun with
  | none => r.parts.reverse
  | some _ => (none :: r.parts).reverse

/-- The characters of a byte string in order, with `none` for each fault. -/
def parts (bs : Bytes) : List (Option Char) :=
  (bs.foldl Reading.next {}).finish

/-- Whether a byte string is well-formed. -/
def wellFormed (bs : Bytes) : Bool :=
  (parts bs).all Option.isSome

/-- Reads a byte string with U+FFFD in the place of each fault. -/
def decodeLossy (bs : Bytes) : String :=
  String.ofList ((parts bs).map fun part => part.getD '\uFFFD')

/-- Reads a well-formed byte string. -/
def decode? (bs : Bytes) : Option String :=
  if wellFormed bs then some (decodeLossy bs) else none

end GemLink.Utf8
