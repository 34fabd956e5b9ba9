import BazelRunfiles.Proofs.Path.Segments

/-!
Admissible paths, segment by segment. The eleven texts for which a path is searched come down to
three rules: what the path starts with, dot segments, which are ruled out everywhere, and empty
segments, which are ruled out inside. So an empty segment comes from a slash in front or from one at
the end, and a path of one segment is judged as a whole.
-/

namespace BazelRunfiles

namespace Path

variable {p : Text}

/-- What stands inside a list has a place that is neither the first nor the last. -/
theorem mem_tail_dropLast_iff {α : Type} {x : α} {l : List α} :
    x ∈ l.tail.dropLast ↔ ∃ i, l[i]? = some x ∧ i ≠ 0 ∧ i + 1 ≠ l.length := by
  rw [List.mem_iff_getElem?]
  simp only [List.getElem?_dropLast, List.getElem?_tail, List.length_tail]
  constructor
  · rintro ⟨i, h⟩
    split at h
    · exact ⟨i + 1, h, by omega, by omega⟩
    · cases h
  · rintro ⟨i, h, hfirst, hlast⟩
    have hi : i < l.length := (List.getElem?_eq_some_iff.mp h).1
    obtain ⟨j, rfl⟩ := Nat.exists_eq_succ_of_ne_zero hfirst
    exact ⟨j, by rw [if_pos (by omega)]; exact h⟩

theorem inner_ne_nil_iff :
    [] ∉ (segments p).tail.dropLast ↔
      ∀ i, (segments p)[i]? = some [] → i = 0 ∨ i + 1 = (segments p).length := by
  rw [mem_tail_dropLast_iff]
  constructor
  · intro h i hi
    by_contra hc
    rw [not_or] at hc
    exact h ⟨i, hi, hc⟩
  · rintro h ⟨i, hi, hfirst, hlast⟩
    exact (h i hi).elim hfirst hlast

/-- An empty segment at the start is the one before a slash. -/
theorem head?_eq_slash_of_first (hp : p ≠ []) (h : (segments p)[0]? = some []) :
    p.head? = some '/' := by
  obtain ⟨first, rest, hs⟩ := List.exists_cons_of_ne_nil (segments_ne_nil p)
  rw [hs, List.getElem?_cons_zero, Option.some.injEq] at h
  subst h
  refine head?_eq_slash_iff.mpr ⟨rest, ?_, hs⟩
  rintro rfl
  exact hp (segments_eq_singleton_iff.mp hs).1

/-- An empty segment at the end is the one behind a slash. -/
theorem getLast?_eq_slash_of_last {i : Nat} (hp : p ≠ []) (h : (segments p)[i]? = some [])
    (hi : i + 1 = (segments p).length) : p.getLast? = some '/' := by
  have hlast : (segments p).getLast? = some [] := by
    rw [List.getLast?_eq_getElem?, ← hi, Nat.add_sub_cancel, h]
  have hs := List.dropLast_append_getLast? [] hlast
  refine getLast?_eq_slash_iff.mpr ⟨_, ?_, hs.symm⟩
  intro hnil
  rw [hnil, List.nil_append] at hs
  exact hp (segments_eq_singleton_iff.mp hs.symm).1

/-- A path is admissible if it is not empty, does not start with a backslash, has no dot segment,
and has no empty segment but at its two ends. There the empty segment is due to one slash in
front or one slash at the end. A path of one segment is admissible unless it is a dot segment
itself, however many dots it has. -/
theorem isAdmissible_iff_segmentwise (p : Text) :
    (isAdmissible p ↔
      p ≠ [] ∧ p.head? ≠ some '\\' ∧ (∀ s ∈ segments p, s ≠ ['.'] ∧ s ≠ ['.', '.']) ∧
        ∀ i, (segments p)[i]? = some [] → i = 0 ∨ i + 1 = (segments p).length) ∧
    (isAdmissible p → ∀ i, (segments p)[i]? = some [] →
      (i = 0 ∧ p.head? = some '/') ∨ (i + 1 = (segments p).length ∧ p.getLast? = some '/')) ∧
    ('/' ∉ p →
      (isAdmissible p ↔ p ≠ [] ∧ p.head? ≠ some '\\' ∧ p ≠ ['.'] ∧ p ≠ ['.', '.'])) := by
  have hsegmentwise := isAdmissible_iff (p := p)
  rw [inner_ne_nil_iff] at hsegmentwise
  refine ⟨hsegmentwise, ?_, ?_⟩
  · intro h i hi
    obtain ⟨hp, -, -, hends⟩ := hsegmentwise.mp h
    rcases hends i hi with rfl | hlast
    · exact .inl ⟨rfl, head?_eq_slash_of_first hp hi⟩
    · exact .inr ⟨hlast, getLast?_eq_slash_of_last hp hi hlast⟩
  · intro hs
    rw [hsegmentwise, segments_of_notMem hs]
    refine ⟨?_, ?_⟩
    · rintro ⟨hp, hb, hdots, -⟩
      exact ⟨hp, hb, hdots p (by simp)⟩
    · rintro ⟨hp, hb, hdots⟩
      refine ⟨hp, hb, List.forall_mem_singleton.mpr hdots, fun i hi => .inl ?_⟩
      have := (List.getElem?_eq_some_iff.mp hi).1
      simpa using this

/-- Names of more dots than two, or of dots and more. -/
theorem isAdmissible_of_dottedNames :
    isAdmissible "..bar".toList ∧ isAdmissible ".hidden".toList ∧ isAdmissible "...".toList ∧
      ¬ isAdmissible "..".toList := by
  refine ⟨?_, ?_, ?_, ?_⟩
  · exact ((isAdmissible_iff_segmentwise "..bar".toList).2.2 (by decide)).mpr (by decide)
  · exact ((isAdmissible_iff_segmentwise ".hidden".toList).2.2 (by decide)).mpr (by decide)
  · exact ((isAdmissible_iff_segmentwise "...".toList).2.2 (by decide)).mpr (by decide)
  · intro h
    exact absurd (((isAdmissible_iff_segmentwise "..".toList).2.2 (by decide)).mp h) (by decide)

end Path

end BazelRunfiles
