import BazelRunfiles.Path
import Mathlib.Data.List.Basic

/-!
Paths by their segments. The tests that a path must pass look for texts in it; `isAdmissible_iff`
says the same about its segments. A text without slashes is a segment in one of four ways, according
to what stands around it, and the tests look for the dot segments in all four; the empty segments
inside a path are its double slashes. A slash divides the segments as it divides the path, so a path
is judged piece by piece: `isRelative_append_slash_iff` says when a text may stand in front of one.
-/

namespace BazelRunfiles

namespace Path

variable {p s t : Text} {before after parts : List Text}

/-! ### Cutting and joining -/

theorem segments_ne_nil (p : Text) : segments p ≠ [] := List.splitOn_ne_nil '/' p

theorem segments_append_slash (s t : Text) : segments (s ++ '/' :: t) = segments s ++ segments t :=
  List.splitOn_append_cons_self s t

theorem segments_slash_cons (t : Text) : segments ('/' :: t) = [] :: segments t :=
  segments_append_slash [] t

theorem segments_of_notMem (h : '/' ∉ s) : segments s = [s] := List.splitOn_eq_singleton h

theorem slash_notMem_of_mem_segments (h : s ∈ segments p) : '/' ∉ s := Text.notMem_of_mem_splitOn h

theorem segments_ofSegments (hne : parts ≠ []) (h : ∀ s ∈ parts, '/' ∉ s) :
    segments (ofSegments parts) = parts := List.splitOn_intercalate '/' h hne

theorem ofSegments_append (hb : before ≠ []) (ha : after ≠ []) :
    ofSegments (before ++ after) = ofSegments before ++ '/' :: ofSegments after := by
  induction before with
  | nil => exact absurd rfl hb
  | cons s rest ih =>
    obtain ⟨a, more, rfl⟩ := List.exists_cons_of_ne_nil ha
    cases rest with
    | nil => simp [ofSegments, List.intercalate]
    | cons r rest =>
      have ih := ih (by simp)
      simp only [ofSegments, List.intercalate, List.cons_append, List.intersperse_cons_cons,
        List.flatten_cons] at ih ⊢
      rw [ih]
      simp

theorem segments_eq_singleton_iff : segments p = [s] ↔ p = s ∧ '/' ∉ s := by
  refine ⟨?_, ?_⟩
  · intro h
    refine ⟨?_, slash_notMem_of_mem_segments (p := p) (by simp [h])⟩
    rw [← ofSegments_segments p, h]
    simp [ofSegments]
  · rintro ⟨rfl, h⟩
    exact segments_of_notMem h

/-- The segments fall apart where the path has a slash. -/
theorem segments_eq_append_iff (hb : before ≠ []) (ha : after ≠ []) :
    segments p = before ++ after ↔
      ∃ s t, p = s ++ '/' :: t ∧ segments s = before ∧ segments t = after := by
  refine ⟨?_, ?_⟩
  · intro h
    have hn : ∀ s ∈ before ++ after, '/' ∉ s := fun s hs => slash_notMem_of_mem_segments (h ▸ hs)
    refine ⟨ofSegments before, ofSegments after, ?_, ?_, ?_⟩
    · rw [← ofSegments_append hb ha, ← h, ofSegments_segments]
    · exact segments_ofSegments hb fun s hs => hn s (List.mem_append_left _ hs)
    · exact segments_ofSegments ha fun s hs => hn s (List.mem_append_right _ hs)
  · rintro ⟨s, t, rfl, rfl, rfl⟩
    exact segments_append_slash s t

/-- The first segment is all of the path, or ends at a slash. -/
theorem segments_eq_cons_iff (ha : after ≠ []) :
    segments p = s :: after ↔ '/' ∉ s ∧ ∃ t, p = s ++ '/' :: t ∧ segments t = after := by
  rw [← List.singleton_append, segments_eq_append_iff (by simp) ha]
  refine ⟨?_, ?_⟩
  · rintro ⟨u, t, rfl, hu, ht⟩
    obtain ⟨rfl, hs⟩ := segments_eq_singleton_iff.mp hu
    exact ⟨hs, t, rfl, ht⟩
  · rintro ⟨hs, t, rfl, ht⟩
    exact ⟨s, t, rfl, segments_of_notMem hs, ht⟩

/-! ### Single segments -/

/-- A text without slashes is a segment if it is the whole path, or stands at its start, at its end
or inside, with slashes where the path goes on. -/
theorem mem_segments_iff (hs : '/' ∉ s) :
    s ∈ segments p ↔
      p = s ∨ s ++ ['/'] <+: p ∨ '/' :: s <:+ p ∨ '/' :: s ++ ['/'] <:+: p := by
  have first {p : Text} {after : List Text} (h : segments p = s :: after) :
      p = s ∨ ∃ t, p = s ++ '/' :: t := by
    by_cases ha : after = []
    · subst ha
      exact .inl (segments_eq_singleton_iff.mp h).1
    · obtain ⟨-, t, hp, -⟩ := (segments_eq_cons_iff ha).mp h
      exact .inr ⟨t, hp⟩
  refine ⟨?_, ?_⟩
  · intro hm
    obtain ⟨before, after, h⟩ := List.append_of_mem hm
    by_cases hb : before = []
    · subst hb
      rcases first h with rfl | ⟨t, rfl⟩
      · exact .inl rfl
      · exact .inr (.inl ⟨t, by simp⟩)
    · obtain ⟨u, v, rfl, -, hv⟩ := (segments_eq_append_iff hb (by simp)).mp h
      rcases first hv with rfl | ⟨t, rfl⟩
      · exact .inr (.inr (.inl ⟨u, rfl⟩))
      · exact .inr (.inr (.inr ⟨u, t, by simp⟩))
  · rintro (rfl | ⟨t, rfl⟩ | ⟨u, rfl⟩ | ⟨u, t, rfl⟩)
    · simp [segments_of_notMem hs]
    · simp [segments_append_slash, segments_of_notMem hs]
    · simp [segments_append_slash, segments_of_notMem hs]
    · simp [segments_append_slash, segments_of_notMem hs]

theorem mem_dropLast_iff {α : Type} {x : α} {l : List α} :
    x ∈ l.dropLast ↔ ∃ before after, after ≠ [] ∧ l = before ++ x :: after := by
  refine ⟨?_, ?_⟩
  · intro h
    have hl : l ≠ [] := by rintro rfl; simp at h
    obtain ⟨before, after, hd⟩ := List.append_of_mem h
    refine ⟨before, after ++ [l.getLast hl], by simp, ?_⟩
    rw [← List.cons_append, ← List.append_assoc, ← hd, List.dropLast_concat_getLast hl]
  · rintro ⟨before, after, ha, rfl⟩
    simp [List.dropLast_append_of_ne_nil, List.dropLast_cons_of_ne_nil ha]

/-- The empty segments inside a path are its double slashes. -/
theorem infix_double_slash_iff : ['/', '/'] <:+: p ↔ [] ∈ (segments p).tail.dropLast := by
  rw [mem_dropLast_iff]
  refine ⟨?_, ?_⟩
  · rintro ⟨s, t, rfl⟩
    obtain ⟨first, before, hs⟩ := List.exists_cons_of_ne_nil (segments_ne_nil s)
    refine ⟨before, segments t, segments_ne_nil t, ?_⟩
    rw [List.append_assoc, List.cons_append, segments_append_slash, List.singleton_append,
      segments_slash_cons, hs, List.cons_append, List.tail_cons]
  · rintro ⟨before, after, ha, h⟩
    obtain ⟨first, rest, hp⟩ := List.exists_cons_of_ne_nil (segments_ne_nil p)
    rw [hp, List.tail_cons] at h
    rw [h, ← List.cons_append] at hp
    obtain ⟨s, t, rfl, -, ht⟩ := (segments_eq_append_iff (by simp) (by simp)).mp hp
    obtain ⟨-, t, rfl, -⟩ := (segments_eq_cons_iff ha).mp ht
    exact ⟨s, t, by simp⟩

theorem head?_eq_slash_iff :
    p.head? = some '/' ↔ ∃ after, after ≠ [] ∧ segments p = [] :: after := by
  refine ⟨?_, ?_⟩
  · intro h
    obtain ⟨t, rfl⟩ := List.head?_eq_some_iff.mp h
    exact ⟨segments t, segments_ne_nil t, segments_slash_cons t⟩
  · rintro ⟨after, ha, h⟩
    obtain ⟨-, t, rfl, -⟩ := (segments_eq_cons_iff ha).mp h
    rfl

theorem getLast?_eq_slash_iff :
    p.getLast? = some '/' ↔ ∃ before, before ≠ [] ∧ segments p = before ++ [[]] := by
  refine ⟨?_, ?_⟩
  · intro h
    obtain ⟨s, rfl⟩ := List.getLast?_eq_some_iff.mp h
    exact ⟨segments s, segments_ne_nil s, segments_append_slash s []⟩
  · rintro ⟨before, hb, h⟩
    obtain ⟨s, t, rfl, -, ht⟩ := (segments_eq_append_iff hb (by simp)).mp h
    obtain ⟨rfl, -⟩ := segments_eq_singleton_iff.mp ht
    simp

/-! ### Admissible paths -/

/-- Whether no segment is a dot segment. -/
def NoDots (parts : List Text) : Prop := ∀ s ∈ parts, s ≠ ['.'] ∧ s ≠ ['.', '.']

theorem noDots_append : NoDots (before ++ after) ↔ NoDots before ∧ NoDots after :=
  List.forall_mem_append

theorem noDots_iff_notMem : NoDots parts ↔ ['.'] ∉ parts ∧ ['.', '.'] ∉ parts := by
  refine ⟨?_, ?_⟩
  · intro h
    exact ⟨fun hm => (h _ hm).1 rfl, fun hm => (h _ hm).2 rfl⟩
  · rintro ⟨h1, h2⟩ s hs
    exact ⟨by rintro rfl; exact h1 hs, by rintro rfl; exact h2 hs⟩

theorem singleton_prefix_iff {c : Char} : [c] <+: p ↔ p.head? = some c := by
  cases p <;> simp [eq_comm]

/-- A path is admissible if it is not empty, does not start with a backslash, has no dot segments,
and has no empty segments but the first and the last one. -/
theorem isAdmissible_iff :
    isAdmissible p ↔
      p ≠ [] ∧ p.head? ≠ some '\\' ∧ NoDots (segments p) ∧ [] ∉ (segments p).tail.dropLast := by
  have hdot := mem_segments_iff (p := p) (s := ['.']) (by simp)
  have hdots := mem_segments_iff (p := p) (s := ['.', '.']) (by simp)
  rw [noDots_iff_notMem, hdot, hdots, ← infix_double_slash_iff, ne_eq, ne_eq,
    ← singleton_prefix_iff]
  simp only [isAdmissible, badStarts, badParts, badEnds, List.any_cons, List.any_nil, Bool.or_false,
    Bool.and_eq_true, Bool.not_eq_true', ← Bool.not_eq_true, Bool.or_eq_true, not_or,
    Text.includes_iff, decide_eq_true_eq, List.isPrefixOf_iff_prefix, List.isSuffixOf_iff_suffix,
    String.reduceToList, List.cons_append, List.nil_append, ne_eq]
  -- the same eleven texts in another order: whole, in front, at the end, inside
  refine ⟨?_, ?_⟩
  · rintro ⟨⟨⟨⟨⟨h0, w1⟩, w2⟩, f2, f1, hb⟩, i2, i1, hs⟩, e2, e1⟩
    exact ⟨h0, hb, ⟨⟨w1, f1, e1, i1⟩, w2, f2, e2, i2⟩, hs⟩
  · rintro ⟨h0, hb, ⟨⟨w1, f1, e1, i1⟩, w2, f2, e2, i2⟩, hs⟩
    exact ⟨⟨⟨⟨⟨h0, w1⟩, w2⟩, f2, f1, hb⟩, i2, i1, hs⟩, e2, e1⟩

/-- An admissible path that does not start with a slash. -/
def IsRelative (p : Text) : Prop := isAdmissible p ∧ p.head? ≠ some '/'

theorem isRelative_iff :
    IsRelative p ↔
      p ≠ [] ∧ p.head? ≠ some '\\' ∧ NoDots (segments p) ∧ [] ∉ (segments p).dropLast := by
  obtain ⟨first, rest, h⟩ := List.exists_cons_of_ne_nil (segments_ne_nil p)
  rw [IsRelative, isAdmissible_iff, ne_eq (p.head?) (some '/'), head?_eq_slash_iff, h,
    List.tail_cons]
  by_cases hr : rest = []
  · subst hr
    simp
  · have hfirst : (∃ after, after ≠ [] ∧ first :: rest = [] :: after) ↔ [] = first := by
      refine ⟨?_, ?_⟩
      · rintro ⟨after, -, h⟩
        exact (List.cons.inj h).1.symm
      · rintro rfl
        exact ⟨rest, hr, rfl⟩
    rw [hfirst, List.dropLast_cons_of_ne_nil hr, List.mem_cons, not_or]
    refine ⟨?_, ?_⟩
    · rintro ⟨⟨hp, hb, hd, hi⟩, hf⟩
      exact ⟨hp, hb, hd, hf, hi⟩
    · rintro ⟨hp, hb, hd, hf, hi⟩
      exact ⟨⟨hp, hb, hd, hi⟩, hf⟩

/-- A relative path that ends in no slash either has no empty segment at all. -/
theorem isRelative_and_getLast?_ne_iff :
    IsRelative p ∧ p.getLast? ≠ some '/' ↔
      p.head? ≠ some '\\' ∧ NoDots (segments p) ∧ [] ∉ segments p := by
  rw [isRelative_iff]
  refine ⟨?_, ?_⟩
  · rintro ⟨⟨hp, hb, hd, hn⟩, hl⟩
    refine ⟨hb, hd, fun hm => ?_⟩
    -- an empty segment that is not among the first ones is the last one
    obtain ⟨before, last, h⟩ :=
      (List.eq_nil_or_concat (segments p)).resolve_left (segments_ne_nil p)
    rw [List.concat_eq_append] at h
    rw [h, List.dropLast_concat] at hn
    rw [h, List.mem_append, List.mem_singleton] at hm
    obtain rfl := hm.resolve_left hn
    by_cases hbefore : before = []
    · subst hbefore
      exact hp (segments_eq_singleton_iff.mp h).1
    · exact hl (getLast?_eq_slash_iff.mpr ⟨before, hbefore, h⟩)
  · rintro ⟨hb, hd, hn⟩
    refine ⟨⟨?_, hb, hd, fun hm => hn (List.dropLast_subset _ hm)⟩, fun hl => ?_⟩
    · rintro rfl
      simp [segments] at hn
    · obtain ⟨before, -, h⟩ := getLast?_eq_slash_iff.mp hl
      exact hn (by simp [h])

/-- A text may stand in front of a slash in a relative path if it is relative itself and ends in no
slash; what follows it may be empty. -/
theorem isRelative_append_slash_iff :
    IsRelative (s ++ '/' :: t) ↔
      (IsRelative s ∧ s.getLast? ≠ some '/') ∧ NoDots (segments t) ∧
        [] ∉ (segments t).dropLast := by
  rw [isRelative_and_getLast?_ne_iff, isRelative_iff, segments_append_slash, noDots_append,
    List.dropLast_append_of_ne_nil (segments_ne_nil t), List.mem_append, not_or]
  refine ⟨?_, ?_⟩
  · rintro ⟨-, hb, ⟨hs, ht⟩, ns, nt⟩
    refine ⟨⟨?_, hs, ns⟩, ht, nt⟩
    cases s <;> simp_all
  · rintro ⟨⟨hb, hs, ns⟩, ht, nt⟩
    refine ⟨by simp, ?_, ⟨hs, ht⟩, ns, nt⟩
    cases s <;> simp_all

end Path

end BazelRunfiles
