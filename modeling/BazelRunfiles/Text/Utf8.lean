import BazelRunfiles.Text

/-!
UTF-8, read strictly. The reader stands between characters or owes some following bytes,
the next of which must lie in a known range; the range after the first byte shuts out
overlong forms, surrogates and values beyond the last code point. Reading stops at the
first fault and keeps the text before it.

A fault either is seen at a byte that cannot stand where it does, or only when the bytes have run
out; `Fault.isAtEnd` tells which. A surrogate has three bytes, so the first two of one at the very
end belong to the second kind.
-/

namespace BazelRunfiles

namespace Utf8

/-- Why bytes are no UTF-8. -/
inductive Fault where
  /-- A byte that starts no character stands where one has to start. -/
  | badStart
  /-- A byte that cannot stand there follows the start of a character. -/
  | badContinuation
  /-- The bytes end inside a character. -/
  | truncated
  /-- The bytes end inside a surrogate, which is no character. -/
  | truncatedSurrogate
  deriving DecidableEq, Repr

/-- The wording of a fault. -/
def Fault.message : Fault → String
  | .badStart => "invalid start byte"
  | .badContinuation | .truncatedSurrogate => "invalid continuation byte"
  | .truncated => "unexpected end of data"

/-- Whether a fault is seen only when the bytes have run out. -/
def Fault.isAtEnd : Fault → Bool
  | .truncated | .truncatedSurrogate => true
  | .badStart | .badContinuation => false

/-- A character under way: the bits so far, the bytes owed, and the range of the next one. -/
structure Pending where
  bits : Nat
  owed : Nat
  low : Nat
  high : Nat

/-- What the first byte of a longer character begins. -/
def start? (b : Nat) : Option Pending :=
  if b < 0xC2 then none
  else if b < 0xE0 then some ⟨b - 0xC0, 1, 0x80, 0xBF⟩
  else if b = 0xE0 then some ⟨0, 2, 0xA0, 0xBF⟩
  else if b = 0xED then some ⟨0xD, 2, 0x80, 0x9F⟩
  else if b < 0xF0 then some ⟨b - 0xE0, 2, 0x80, 0xBF⟩
  else if b = 0xF0 then some ⟨0, 3, 0x90, 0xBF⟩
  else if b < 0xF4 then some ⟨b - 0xF0, 3, 0x80, 0xBF⟩
  else if b = 0xF4 then some ⟨4, 3, 0x80, 0x8F⟩
  else none

/-- Whether a byte makes a surrogate of the character under way. Only after 0xED is 0x9F the highest
byte that may follow. -/
def Pending.isSurrogate (p : Pending) (b : Nat) : Bool := p.high = 0x9F && 0xA0 ≤ b && b ≤ 0xBF

/-- The text before the first fault, and that fault if there is one. -/
structure Decoded where
  text : Text
  fault : Option Fault

/-- Puts a character in front. -/
def Decoded.cons (c : Char) (d : Decoded) : Decoded := { d with text := c :: d.text }

/-- Reads on from a state. -/
def decodeFrom : Option Pending → List UInt8 → Decoded
  | none, [] => ⟨[], none⟩
  | some _, [] => ⟨[], some .truncated⟩
  | none, b :: rest =>
    if b.toNat < 0x80 then (decodeFrom none rest).cons (Char.ofNat b.toNat)
    else match start? b.toNat with
      | none => ⟨[], some .badStart⟩
      | some p => decodeFrom (some p) rest
  | some p, b :: rest =>
    if p.low ≤ b.toNat ∧ b.toNat ≤ p.high then
      let bits := p.bits * 0x40 + (b.toNat - 0x80)
      if p.owed ≤ 1 then (decodeFrom none rest).cons (Char.ofNat bits)
      else decodeFrom (some ⟨bits, p.owed - 1, 0x80, 0xBF⟩) rest
    else if p.isSurrogate b.toNat && rest.isEmpty then ⟨[], some .truncatedSurrogate⟩
    else ⟨[], some .badContinuation⟩

/-- Reads bytes from between characters. -/
def decode (bytes : List UInt8) : Decoded := decodeFrom none bytes

/-- The bytes of a text. -/
def encode (t : Text) : List UInt8 := t.flatMap String.utf8EncodeChar

/-- The number of bytes of a text. -/
def size (t : Text) : Nat := (encode t).length

end Utf8

end BazelRunfiles
