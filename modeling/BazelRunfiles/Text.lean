/-!
Texts: names, paths, lines and file contents, all as lists of characters, so that a statement about
a text is a statement about a list. A text is cut at a character, stripped at its end, searched for
an inner part, compared, and divided into lines that keep their newline; `trimEnd_eq_iff`,
`stem?_eq_some_iff` and `cut_eq_iff` say what stripping and the two ways of cutting find, and
`includes_iff` that the search finds the inner parts.
-/

namespace BazelRunfiles

/-- A sequence of characters. -/
abbrev Text := List Char

/-- A literal may stand where a text is expected. -/
instance : Coe String Text := ⟨String.toList⟩

namespace Text

/-- The text without the characters at its end that satisfy `drop`. -/
def trimEnd (drop : Char → Bool) (t : Text) : Text := (t.reverse.dropWhile drop).reverse

theorem trimEnd_concat (drop : Char → Bool) (t : Text) (c : Char) :
    trimEnd drop (t ++ [c]) = if drop c then trimEnd drop t else t ++ [c] := by
  rw [trimEnd, List.reverse_concat, List.dropWhile_cons]
  split
  · rfl
  · simp

/-- What is stripped is the longest end of characters to drop. -/
theorem trimEnd_eq_iff {drop : Char → Bool} {s t : Text} :
    trimEnd drop t = s ↔
      ∃ tail, t = s ++ tail ∧ (∀ c ∈ tail, drop c) ∧ ∀ c ∈ s.getLast?, drop c = false := by
  refine ⟨?_, ?_⟩
  · rintro rfl
    refine ⟨(t.reverse.takeWhile drop).reverse, ?_, ?_, ?_⟩
    · rw [trimEnd, ← List.reverse_append, List.takeWhile_append_dropWhile, List.reverse_reverse]
    · intro c hc
      exact List.all_eq_true.mp List.all_takeWhile c (List.mem_reverse.mp hc)
    · intro c hc
      rw [trimEnd, List.getLast?_reverse] at hc
      have := List.head?_dropWhile_not drop t.reverse
      rw [hc] at this
      simpa using this
  · rintro ⟨tail, rfl, htail, hs⟩
    rw [trimEnd, List.reverse_append, List.dropWhile_append_of_pos (by simpa using htail),
      List.reverse_eq_iff]
    rw [← List.head?_reverse] at hs
    cases h : s.reverse with
    | nil => rfl
    | cons c rest =>
      rw [h] at hs
      exact List.dropWhile_cons_of_neg (by simp [hs c rfl])

/-- What stands before `ending`, if the text ends so. -/
def stem? (ending t : Text) : Option Text :=
  if ending.isSuffixOf t then some (t.take (t.length - ending.length)) else none

theorem stem?_eq_some_iff {ending t stem : Text} :
    stem? ending t = some stem ↔ t = stem ++ ending := by
  simp only [stem?, List.isSuffixOf_iff_suffix, Option.ite_none_right_eq_some, Option.some.injEq]
  refine ⟨?_, ?_⟩
  · rintro ⟨⟨s, rfl⟩, rfl⟩
    simp
  · rintro rfl
    simp

/-- The text before the first `sep` and the text behind it; without `sep`, all of it and nothing. -/
def cut (sep : Char) (t : Text) : Text × Text :=
  (t.takeWhile (· != sep), (t.dropWhile (· != sep)).tail)

theorem cut_append_cons {sep : Char} {before : Text} (h : sep ∉ before) (after : Text) :
    cut sep (before ++ sep :: after) = (before, after) := by
  induction before with
  | nil => simp [cut]
  | cons c rest ih =>
    simp only [List.mem_cons, not_or] at h
    have hc : (c != sep) = true := by simpa using Ne.symm h.1
    have := ih h.2
    simp only [cut, Prod.mk.injEq] at this
    simp [cut, hc, this.1, this.2]

theorem cut_of_notMem {sep : Char} {t : Text} (h : sep ∉ t) : cut sep t = (t, []) := by
  induction t with
  | nil => rfl
  | cons c rest ih =>
    simp only [List.mem_cons, not_or] at h
    have hc : (c != sep) = true := by simpa using Ne.symm h.1
    have := ih h.2
    simp only [cut, Prod.mk.injEq] at this
    simp [cut, hc, this.1, this.2]

theorem notMem_cut (sep : Char) (t : Text) : sep ∉ (cut sep t).1 := by
  intro h
  simpa using List.all_eq_true.mp List.all_takeWhile sep h

theorem append_cut {sep : Char} {t : Text} (h : sep ∈ t) :
    (cut sep t).1 ++ sep :: (cut sep t).2 = t := by
  induction t with
  | nil => simp at h
  | cons c rest ih =>
    by_cases hc : c = sep
    · subst hc; simp [cut]
    · have hr : sep ∈ rest := by simpa [Ne.symm hc] using h
      simpa [cut, hc] using ih hr

theorem cut_eq_iff {sep : Char} {t before after : Text} :
    cut sep t = (before, after) ↔
      sep ∉ before ∧ (t = before ++ sep :: after ∨ (t = before ∧ after = [])) := by
  refine ⟨?_, ?_⟩
  · intro h
    have hn := notMem_cut sep t
    rw [h] at hn
    refine ⟨hn, ?_⟩
    by_cases hs : sep ∈ t
    · have := append_cut hs
      rw [h] at this
      exact .inl this.symm
    · rw [cut_of_notMem hs, Prod.mk.injEq] at h
      exact .inr ⟨h.1, h.2.symm⟩
  · rintro ⟨hs, rfl | ⟨rfl, rfl⟩⟩
    · exact cut_append_cons hs after
    · exact cut_of_notMem hs

theorem length_cut_le (sep : Char) (t : Text) : (cut sep t).2.length ≤ t.length - 1 := by
  have := (List.dropWhile_suffix (l := t) (· != sep)).length_le
  rw [cut, List.length_tail]
  omega

theorem notMem_of_mem_splitOn {sep : Char} {t piece : Text} (h : piece ∈ t.splitOn sep) :
    sep ∉ piece := by
  induction t generalizing piece with
  | nil =>
    obtain rfl : piece = [] := by simpa using h
    simp
  | cons c rest ih =>
    rw [List.splitOn_cons_eq_if_modifyHead] at h
    split at h
    · rcases List.mem_cons.mp h with rfl | h
      · simp
      · exact ih h
    · next hc =>
      cases hs : rest.splitOn sep with
      | nil => exact absurd hs (List.splitOn_ne_nil sep rest)
      | cons first more =>
        rw [hs, List.modifyHead_cons] at h
        rcases List.mem_cons.mp h with rfl | h
        · have hf : sep ∉ first := ih (by simp [hs])
          have hne : sep ≠ c := fun heq => hc (by simp [heq])
          simp [hf, hne]
        · exact ih (by simp [hs, h])

theorem length_splitOn (sep : Char) (t : Text) : (t.splitOn sep).length = t.count sep + 1 := by
  induction t with
  | nil => rfl
  | cons c rest ih =>
    rw [List.splitOn_cons_eq_if_modifyHead, List.count_cons]
    split
    · rw [List.length_cons, ih]
    · rw [List.length_modifyHead, ih, Nat.add_zero]

/-- Whether `part` occurs somewhere in the text. -/
def includes (part : Text) : Text → Bool
  | [] => part.isEmpty
  | c :: rest => part.isPrefixOf (c :: rest) || includes part rest

theorem includes_iff {part t : Text} : includes part t = true ↔ part <:+: t := by
  induction t with
  | nil => simp [includes]
  | cons c rest ih => simp [includes, List.infix_cons_iff, ih]

/-- Whether a text comes no later than another one where texts are ordered by their first
characters, characters by their codes, and a text comes before its continuations. -/
def isAtMost : Text → Text → Bool
  | [], _ => true
  | _ :: _, [] => false
  | a :: s, b :: t => a.toNat < b.toNat || (a = b && isAtMost s t)

/-- The lines of a text: each keeps its newline, and only the last may lack one. -/
def lines : Text → List Text
  | [] => []
  | c :: rest =>
    if c = '\n' then [c] :: lines rest
    else match lines rest with
      | [] => [[c]]
      | line :: more => (c :: line) :: more

theorem lines_append_newline {t : Text} (h : '\n' ∉ t) (rest : Text) :
    lines (t ++ '\n' :: rest) = (t ++ ['\n']) :: lines rest := by
  induction t with
  | nil => simp [lines]
  | cons c t ih =>
    simp only [List.mem_cons, not_or] at h
    simp [lines, Ne.symm h.1, ih h.2]

end Text

end BazelRunfiles
