import BazelRunfiles.Text

/-!
The lines of a text. A text is a line that lacks its newline, or a line with its newline and a text
behind it (`lineInduction`), and dividing a text goes along with that. A newline ends a line
wherever it stands, and nothing else does: `IsDivided` says so of a text and its lines, and by
`lines_eq_iff` a text is divided in no other way.
-/

namespace BazelRunfiles

namespace Text

/-- What holds of the texts without a newline, and of a line and its newline
before a text of which it holds. -/
@[elab_as_elim]
theorem lineInduction {motive : Text → Prop} (last : ∀ line, '\n' ∉ line → motive line)
    (ended : ∀ line rest, '\n' ∉ line → motive rest → motive (line ++ '\n' :: rest)) (t : Text) :
    motive t := by
  -- `line` is what has been seen of the line in which the rest of the text begins
  suffices h : ∀ t line, '\n' ∉ line → motive (line ++ t) from h t [] (by simp)
  intro t
  induction t with
  | nil =>
    intro line hline
    rw [List.append_nil]
    exact last line hline
  | cons c t ih =>
    intro line hline
    by_cases hc : c = '\n'
    · subst hc
      exact ended line t hline (ih [] (by simp))
    · rw [List.append_cons]
      exact ih (line ++ [c]) (by simp [hline, Ne.symm hc])

theorem lines_of_notMem {t : Text} (h : '\n' ∉ t) : lines t = if t = [] then [] else [t] := by
  induction t with
  | nil => rfl
  | cons c t ih =>
    simp only [List.mem_cons, not_or] at h
    rw [lines, if_neg (Ne.symm h.1), ih h.2]
    cases t <;> rfl

/-- Whether a line begins behind a text. -/
def EndsLine (t : Text) : Prop := t = [] ∨ t.getLast? = some '\n'

theorem EndsLine.of_append_newline {line rest : Text} (h : EndsLine (line ++ '\n' :: rest)) :
    EndsLine rest := by
  rcases h with h | h
  · simp at h
  · cases rest with
    | nil => exact .inl rfl
    | cons c rest =>
      right
      rw [← h, List.getLast?_append, List.getLast?_cons_cons, List.getLast?_cons, Option.some_or]

theorem lines_append {before : Text} (h : EndsLine before) (after : Text) :
    lines (before ++ after) = lines before ++ lines after := by
  induction before using lineInduction with
  | last line hline =>
    rcases h with rfl | h
    · rfl
    · exact absurd (List.mem_of_getLast? h) hline
  | ended line rest hline ih =>
    rw [List.append_assoc, List.cons_append, lines_append_newline hline, ih h.of_append_newline,
      lines_append_newline hline, List.cons_append]

/-! ### Where a text is divided -/

/-- What the lines of a text are. -/
structure IsDivided (t : Text) (lines : List Text) : Prop where
  /-- They are all of the text. -/
  flatten : lines.flatten = t
  /-- Something stands in each. -/
  ne_nil : ∀ line ∈ lines, line ≠ []
  /-- A newline ends a line, and so none stands before the end of one. -/
  newline : ∀ line ∈ lines, '\n' ∉ line.dropLast
  /-- Nothing else ends a line, except that the text does. -/
  complete : ∀ line ∈ lines.dropLast, line.getLast? = some '\n'

/-- A line may have its newline or lack it. -/
theorem line_cases {line : Text} (hn : line ≠ []) (h : '\n' ∉ line.dropLast) :
    '\n' ∉ line ∨ ∃ start, line = start ++ ['\n'] ∧ '\n' ∉ start := by
  rcases List.eq_nil_or_concat line with rfl | ⟨start, c, rfl⟩
  · exact absurd rfl hn
  · rw [List.concat_eq_append] at h ⊢
    rw [List.dropLast_concat] at h
    by_cases hc : c = '\n'
    · subst hc
      exact .inr ⟨start, rfl, h⟩
    · left
      simp [h, Ne.symm hc]

theorem isDivided_singleton {line : Text} (hn : line ≠ []) (h : '\n' ∉ line) :
    IsDivided line [line] := by
  have hbefore : '\n' ∉ line.dropLast := fun hm => h (List.dropLast_subset line hm)
  exact ⟨by simp, by simpa using hn, by simpa using hbefore, by simp⟩

theorem IsDivided.cons {line t : Text} {ls : List Text} (hline : '\n' ∉ line) (h : IsDivided t ls) :
    IsDivided (line ++ '\n' :: t) ((line ++ ['\n']) :: ls) := by
  refine ⟨by simp [h.flatten], ?_, ?_, ?_⟩
  · intro l hl
    rcases List.mem_cons.mp hl with rfl | hl
    · simp
    · exact h.ne_nil l hl
  · intro l hl
    rcases List.mem_cons.mp hl with rfl | hl
    · simpa using hline
    · exact h.newline l hl
  · intro l hl
    cases ls with
    | nil => simp at hl
    | cons first more =>
      rw [List.dropLast_cons_cons] at hl
      rcases List.mem_cons.mp hl with rfl | hl
      · simp
      · exact h.complete l hl

theorem IsDivided.tail {line t : Text} {ls : List Text} (h : IsDivided t (line :: ls)) :
    IsDivided ls.flatten ls := by
  refine ⟨rfl, fun l hl => h.ne_nil l (.tail _ hl), fun l hl => h.newline l (.tail _ hl), ?_⟩
  intro l hl
  cases ls with
  | nil => simp at hl
  | cons first more => exact h.complete l (.tail _ hl)

theorem isDivided_lines (t : Text) : IsDivided t (lines t) := by
  induction t using lineInduction with
  | last line hline =>
    rw [lines_of_notMem hline]
    split
    · next hn => exact ⟨hn.symm, by simp, by simp, by simp⟩
    · next hn => exact isDivided_singleton hn hline
  | ended line rest hline ih =>
    rw [lines_append_newline hline]
    exact ih.cons hline

theorem IsDivided.eq_lines {t : Text} {ls : List Text} (h : IsDivided t ls) : lines t = ls := by
  induction ls generalizing t with
  | nil =>
    obtain rfl := h.flatten
    rfl
  | cons line rest ih =>
    obtain rfl := h.flatten
    have hn := h.ne_nil line (by simp)
    rw [List.flatten_cons]
    rcases line_cases hn (h.newline line (by simp)) with hline | ⟨start, rfl, hstart⟩
    · -- a line that lacks its newline is the last one
      cases rest with
      | nil => rw [List.flatten_nil, List.append_nil, lines_of_notMem hline, if_neg hn]
      | cons first more =>
        exact absurd (List.mem_of_getLast? (h.complete line (by simp))) hline
    · rw [List.append_assoc, List.singleton_append, lines_append_newline hstart, ih h.tail]

/-- A text is divided behind its newlines and nowhere else. -/
theorem lines_eq_iff {t : Text} {ls : List Text} : lines t = ls ↔ IsDivided t ls := by
  constructor
  · rintro rfl
    exact isDivided_lines t
  · exact IsDivided.eq_lines

/-! ### Carriage returns before the newlines -/

/-- The text with a carriage return before every newline. -/
def crlf (t : Text) : Text := t.flatMap fun c => if c = '\n' then ['\r', '\n'] else [c]

theorem crlf_of_notMem {t : Text} (h : '\n' ∉ t) : crlf t = t := by
  induction t with
  | nil => rfl
  | cons c t ih =>
    simp only [List.mem_cons, not_or] at h
    rw [crlf, List.flatMap_cons, if_neg (Ne.symm h.1), List.singleton_append]
    exact congrArg (c :: ·) (ih h.2)

theorem crlf_append_newline {line : Text} (h : '\n' ∉ line) (rest : Text) :
    crlf (line ++ '\n' :: rest) = (line ++ ['\r']) ++ '\n' :: crlf rest := by
  have hline := crlf_of_notMem h
  simp only [crlf] at hline ⊢
  rw [List.flatMap_append, hline, List.flatMap_cons, if_pos rfl]
  simp

end Text

end BazelRunfiles
