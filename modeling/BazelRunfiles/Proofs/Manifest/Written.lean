import BazelRunfiles.Manifest.Entry
import BazelRunfiles.Proofs.Manifest.Field

/-!
Written fields as a grammar. A field that was written consists of characters that can be
written as they are and of pairs of a backslash and a letter (`Written`), so a text is one
exactly if it has none of the other characters and a letter behind every backslash
(`written_iff`). On these texts reading is undone by writing, as writing is by reading on all
texts: `written_escape` and `escape_unescape` are the two halves, and `escape_inverse_unescape`
puts them together for the two fields.
-/

namespace BazelRunfiles

namespace Text

/-- The text with `part` in place of every `c`. -/
def replaceAll (c : Char) (part : String) (t : Text) : Text :=
  t.flatMap fun d => if d = c then part.toList else [d]

/-- Whether one of the letters stands behind every backslash. -/
def HasLettersBehindBackslashes (letters : List Char) (t : Text) : Prop :=
  ∀ before after, t = before ++ '\\' :: after → ∃ l ∈ letters, after.head? = some l

end Text

namespace Manifest

namespace Field

/-- The texts that a field holds when it was written. -/
inductive Written (f : Field) : Text → Prop where
  | nil : Written f []
  | plain {c : Char} {t : Text} : f.letter? c = none → Written f t → Written f (c :: t)
  | pair {c l : Char} {t : Text} : f.char? l = some c → Written f t → Written f ('\\' :: l :: t)

/-- The letters that may stand behind a backslash. -/
def letters : Field → List Char
  | .key => ['s', 'n', 'b']
  | .value => ['n', 'b']

variable {f : Field} {c l : Char} {t : Text}

/-! ### Writing and reading -/

theorem written_escape (f : Field) (t : Text) : Written f (f.escape t) := by
  induction t with
  | nil => exact .nil
  | cons c rest ih =>
    rw [escape_cons, escapeChar]
    cases h : f.letter? c with
    | none => exact .plain h ih
    | some l => exact .pair (letter?_eq_some_iff.mp h) ih

/-- Writing takes back what reading did to a written field. -/
theorem escape_unescape (h : Written f t) : f.escape (f.unescape t) = t := by
  induction h with
  | nil => rfl
  | plain hc _ ih =>
    rw [unescape_cons_of_ne (ne_backslash_of_letter?_eq_none hc), escape_cons, ih, escapeChar, hc]
    rfl
  | pair hl _ ih =>
    rw [unescape_pair hl, escape_cons, ih, escapeChar, letter?_eq_some_iff.mpr hl]
    rfl

/-- Whatever is written has been written so: reading any other text loses how it was spelled. -/
theorem escape_unescape_iff : f.escape (f.unescape t) = t ↔ Written f t := by
  constructor
  · intro h
    rw [← h]
    exact written_escape f (f.unescape t)
  · exact escape_unescape

theorem escape_injective (f : Field) : Function.Injective f.escape := by
  intro s t h
  rw [← unescape_escape f s, h, unescape_escape]

/-! ### Written fields by their characters -/

/-- A letter can be written as it is. -/
theorem letter?_eq_none_of_char? (h : f.char? l = some c) : f.letter? l = none := by
  unfold char? at h
  split at h
  · rfl
  · cases f <;> rfl
  · cases f <;> rfl
  · cases h

theorem char?_backslash (f : Field) : f.char? '\\' = none := by cases f <;> rfl

theorem mem_letters_iff : l ∈ f.letters ↔ (f.char? l).isSome := by
  cases f <;> unfold char? <;> split <;> simp_all [letters]

theorem Written.forall_mem (h : Written f t) : ∀ c ∈ t, (f.letter? c).isSome → c = '\\' := by
  induction h with
  | nil => simp
  | plain hc _ ih =>
    rintro d (_ | ⟨_, hd⟩) hs
    · rw [hc] at hs
      cases hs
    · exact ih d hd hs
  | pair hl _ ih =>
    rintro d (_ | ⟨_, _ | ⟨_, hd⟩⟩) hs
    · rfl
    · rw [letter?_eq_none_of_char? hl] at hs
      cases hs
    · exact ih d hd hs

theorem Written.hasLettersBehindBackslashes (h : Written f t) :
    t.HasLettersBehindBackslashes f.letters := by
  induction h with
  | nil => simp [Text.HasLettersBehindBackslashes]
  | plain hc _ ih =>
    rintro (_ | ⟨d, before⟩) after heq
    · obtain ⟨rfl, -⟩ := List.cons.inj heq
      exact absurd rfl (ne_backslash_of_letter?_eq_none hc)
    · exact ih before after (List.cons.inj heq).2
  | @pair c l t hl _ ih =>
    rintro (_ | ⟨d, _ | ⟨d', before⟩⟩) after heq
    · obtain ⟨-, rfl⟩ := List.cons.inj heq
      exact ⟨l, mem_letters_iff.mpr (by rw [hl]; rfl), rfl⟩
    · -- a letter is no backslash
      obtain ⟨rfl, -⟩ := List.cons.inj (List.cons.inj heq).2
      rw [char?_backslash] at hl
      cases hl
    · exact ih before after (List.cons.inj (List.cons.inj heq).2).2

theorem written_of_hasLettersBehindBackslashes (f : Field) : ∀ t : Text,
    (∀ c ∈ t, (f.letter? c).isSome → c = '\\') → t.HasLettersBehindBackslashes f.letters →
      Written f t
  | [], _, _ => .nil
  | c :: rest, hmem, hback => by
    by_cases hc : c = '\\'
    · subst hc
      obtain ⟨l, hl, hhead⟩ := hback [] rest rfl
      obtain ⟨more, rfl⟩ := List.head?_eq_some_iff.mp hhead
      obtain ⟨x, hx⟩ := Option.isSome_iff_exists.mp (mem_letters_iff.mp hl)
      refine .pair hx (written_of_hasLettersBehindBackslashes f more ?_ ?_)
      · intro d hd
        exact hmem d (by simp [hd])
      · rintro before after rfl
        exact hback ('\\' :: l :: before) after rfl
    · have hn : f.letter? c = none := by
        rw [← Option.not_isSome_iff_eq_none]
        exact fun hs => hc (hmem c (by simp) hs)
      refine .plain hn (written_of_hasLettersBehindBackslashes f rest ?_ ?_)
      · intro d hd
        exact hmem d (by simp [hd])
      · rintro before after rfl
        exact hback (c :: before) after rfl

/-- A text is a written field exactly if of the characters that cannot be written it has the
backslash only, and a letter behind every backslash. -/
theorem written_iff : Written f t ↔
    (∀ c ∈ t, (f.letter? c).isSome → c = '\\') ∧ t.HasLettersBehindBackslashes f.letters := by
  constructor
  · intro h
    exact ⟨h.forall_mem, h.hasLettersBehindBackslashes⟩
  · rintro ⟨hmem, hback⟩
    exact written_of_hasLettersBehindBackslashes f t hmem hback

theorem written_key_iff :
    Written key t ↔ ' ' ∉ t ∧ '\n' ∉ t ∧ t.HasLettersBehindBackslashes ['s', 'n', 'b'] := by
  rw [written_iff, ← and_assoc]
  refine and_congr_left fun _ => ?_
  simp only [isSome_letter?_key]
  constructor
  · intro h
    exact ⟨fun hs => absurd (h ' ' hs (.inl rfl)) (by decide),
      fun hn => absurd (h '\n' hn (.inr (.inl rfl))) (by decide)⟩
  · rintro ⟨hs, hn⟩ c hc (rfl | rfl | rfl)
    · exact absurd hc hs
    · exact absurd hc hn
    · rfl

theorem written_value_iff :
    Written value t ↔ '\n' ∉ t ∧ t.HasLettersBehindBackslashes ['n', 'b'] := by
  rw [written_iff]
  refine and_congr_left fun _ => ?_
  simp only [isSome_letter?_value]
  constructor
  · intro h hn
    exact absurd (h '\n' hn (.inl rfl)) (by decide)
  · rintro hn c hc (rfl | rfl)
    · exact absurd hc hn
    · rfl

/-! ### Writing as replacement -/

theorem escapeChar_of_not_isSome (h : ¬ (f.letter? c).isSome) : f.escapeChar c = [c] := by
  rw [escapeChar, Option.not_isSome_iff_eq_none.mp h]

/-- Backslashes are replaced first, and what stands for them is left alone by
the replacements that follow. -/
theorem escape_key_eq_replaceAll (t : Text) :
    key.escape t = ((t.replaceAll '\\' "\\b").replaceAll ' ' "\\s").replaceAll '\n' "\\n" := by
  simp only [escape, Text.replaceAll, List.flatMap_assoc]
  congr 1
  funext c
  by_cases hb : c = '\\'
  · subst hb; decide
  by_cases hs : c = ' '
  · subst hs; decide
  by_cases hn : c = '\n'
  · subst hn; decide
  have h : ¬ (key.letter? c).isSome := by simp [isSome_letter?_key, hs, hn, hb]
  simp [escapeChar_of_not_isSome h, hb, hs, hn]

theorem escape_value_eq_replaceAll (t : Text) :
    value.escape t = (t.replaceAll '\\' "\\b").replaceAll '\n' "\\n" := by
  simp only [escape, Text.replaceAll, List.flatMap_assoc]
  congr 1
  funext c
  by_cases hb : c = '\\'
  · subst hb; decide
  by_cases hn : c = '\n'
  · subst hn; decide
  have h : ¬ (value.letter? c).isSome := by simp [isSome_letter?_value, hn, hb]
  simp [escapeChar_of_not_isSome h, hb, hn]

end Field

namespace Entry

/-- The first space behind the one in front of an escaped line divides the two fields. -/
theorem cut_line (e : Entry) (h : e.mustEscape) : e.line.head? = some ' ' ∧
    Text.cut ' ' e.line.tail = (Field.key.escape e.key, Field.value.escape e.value ++ ['\n']) := by
  rw [line, if_pos h]
  refine ⟨rfl, ?_⟩
  rw [List.cons_append, List.cons_append, List.append_assoc]
  exact Text.cut_append_cons (Field.space_notMem_escape_key e.key) _

end Entry

/-- Reading undoes writing on all texts, and writing undoes reading exactly on the texts that can
have been written: those without the characters that are escaped, except that a backslash may stand
before a letter. So no two texts are written alike. A field is written by replacing one character
after the other, the backslash first. A written key has no space, and so the first space of an
escaped line behind the one in front of it is the one between the fields. -/
theorem escape_inverse_unescape :
    ((∀ k, Field.key.unescape (Field.key.escape k) = k) ∧
      (∀ k, ' ' ∉ Field.key.escape k ∧ '\n' ∉ Field.key.escape k) ∧
      (∀ x, Field.key.escape (Field.key.unescape x) = x ↔
        ' ' ∉ x ∧ '\n' ∉ x ∧ x.HasLettersBehindBackslashes ['s', 'n', 'b']) ∧
      Function.Injective Field.key.escape ∧
      ∀ k, Field.key.escape k =
        ((k.replaceAll '\\' "\\b").replaceAll ' ' "\\s").replaceAll '\n' "\\n") ∧
    ((∀ v, Field.value.unescape (Field.value.escape v) = v) ∧
      (∀ x, Field.value.escape (Field.value.unescape x) = x ↔
        '\n' ∉ x ∧ x.HasLettersBehindBackslashes ['n', 'b']) ∧
      Function.Injective Field.value.escape ∧
      ∀ v, Field.value.escape v = (v.replaceAll '\\' "\\b").replaceAll '\n' "\\n") ∧
    ∀ e : Entry, e.mustEscape → e.line.head? = some ' ' ∧
      Text.cut ' ' e.line.tail =
        (Field.key.escape e.key, Field.value.escape e.value ++ ['\n']) := by
  refine ⟨
    ⟨Field.unescape_escape .key, ?spaces, ?key, Field.escape_injective .key,
      Field.escape_key_eq_replaceAll⟩,
    ⟨Field.unescape_escape .value, ?value, Field.escape_injective .value,
      Field.escape_value_eq_replaceAll⟩,
    Entry.cut_line⟩
  case spaces =>
    intro k
    exact ⟨Field.space_notMem_escape_key k, Field.newline_notMem_escape .key k⟩
  case key =>
    intro x
    rw [Field.escape_unescape_iff, Field.written_key_iff]
  case value =>
    intro x
    rw [Field.escape_unescape_iff, Field.written_value_iff]

/-- Spaces in both fields, and backslashes before a letter and before another backslash. -/
theorem escape_inverse_unescape_of_spaces :
    let e : Entry := ⟨"a \\s\\\\b".toList, "c \\n d".toList⟩
    e.mustEscape ∧ e.line.head? = some ' ' ∧
      Text.cut ' ' e.line.tail = ("a\\s\\bs\\b\\bb".toList, "c \\bn d\n".toList) ∧
      Field.key.unescape "a\\s\\bs\\b\\bb".toList = e.key := by
  intro e
  have h : e.mustEscape := by decide
  obtain ⟨⟨hkey, -⟩, -, hline⟩ := escape_inverse_unescape
  obtain ⟨hhead, hcut⟩ := hline e h
  exact ⟨h, hhead, hcut, hkey e.key⟩

end Manifest

end BazelRunfiles
