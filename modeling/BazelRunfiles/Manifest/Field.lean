import BazelRunfiles.Text

/-!
The two fields of an escaped manifest line. A backslash and a newline never stand in such a
field, and a space never in a key: a backslash and a letter are written instead. Reading
replaces those pairs and leaves every other backslash alone. By `letter?_eq_some_iff` a letter
stands for one character only.
-/

namespace BazelRunfiles

namespace Manifest

/-- A field of a manifest line: the runfile path or the location. -/
inductive Field where
  | key
  | value
  deriving DecidableEq, Repr

namespace Field

/-- The letter that stands for a character that cannot be written as it is. -/
def letter? : Field → Char → Option Char
  | .key, ' ' => some 's'
  | _, '\n' => some 'n'
  | _, '\\' => some 'b'
  | _, _ => none

/-- The character that a letter behind a backslash stands for. -/
def char? : Field → Char → Option Char
  | .key, 's' => some ' '
  | _, 'n' => some '\n'
  | _, 'b' => some '\\'
  | _, _ => none

theorem letter?_eq_some_iff {f : Field} {c l : Char} :
    f.letter? c = some l ↔ f.char? l = some c := by
  unfold letter? char?
  split <;> split <;> simp_all <;> grind

/-- A character as it is written in the field. -/
def escapeChar (f : Field) (c : Char) : Text :=
  match f.letter? c with
  | some l => ['\\', l]
  | none => [c]

/-- A text as it is written in the field. -/
def escape (f : Field) (t : Text) : Text := t.flatMap f.escapeChar

/-- The text that is written in the field. -/
def unescape (f : Field) : Text → Text
  | [] => []
  | [c] => [c]
  | c :: d :: rest =>
    if c = '\\' then
      match f.char? d with
      | some x => x :: unescape f rest
      | none => c :: unescape f (d :: rest)
    else c :: unescape f (d :: rest)

/-- Whether the field can hold a text only in escaped form. -/
def mustEscape (f : Field) (t : Text) : Bool := t.any fun c => (f.letter? c).isSome

end Field

end Manifest

end BazelRunfiles
