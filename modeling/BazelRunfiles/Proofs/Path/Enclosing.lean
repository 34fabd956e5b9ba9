import BazelRunfiles.Path
import Mathlib.Data.List.Induction
import Mathlib.Logic.Function.Iterate

/-!
The directories around a name. They are the texts before its slashes, but the walk upwards goes from
one directory part to the next, and a directory part loses the slashes at its end unless there is
nothing else. So the walk may stop at a name of slashes only, and where slashes follow each other it
comes through one text once that stands before several of them. `find?_enclosing` says that no
search for a name with an ending can tell: nothing is skipped, and the order is kept.
-/

namespace BazelRunfiles

namespace Path

variable {p : Text}

/-- The texts before the slashes of a name without the slashes at their ends, the longest first. -/
def beforeSlashes (p : Text) : List Text :=
  ((List.range p.length).reverse.filter fun i => p[i]? = some '/').map fun i =>
    Text.trimEnd (· = '/') (p.take i)

/-- A slash at the end adds one text, and any other character none. -/
theorem beforeSlashes_concat (p : Text) (c : Char) :
    beforeSlashes (p ++ [c]) =
      if c = '/' then Text.trimEnd (· = '/') p :: beforeSlashes p else beforeSlashes p := by
  have hlast : (p ++ [c])[p.length]? = some c := by simp
  have hbefore {i : Nat} (hi : i ∈ (List.range p.length).reverse) :
      (p ++ [c])[i]? = p[i]? ∧ (p ++ [c]).take i = p.take i := by
    have hi : i < p.length := by simpa using hi
    exact ⟨List.getElem?_append_left hi, List.take_append_of_le_length (Nat.le_of_lt hi)⟩
  have hrest : ((List.range p.length).reverse.filter fun i => (p ++ [c])[i]? = some '/').map
      (fun i => Text.trimEnd (· = '/') ((p ++ [c]).take i)) = beforeSlashes p := by
    rw [beforeSlashes, List.filter_congr fun i hi => by rw [(hbefore hi).1]]
    refine List.map_congr_left fun i hi => ?_
    rw [(hbefore (List.mem_filter.mp hi).1).2]
  rw [beforeSlashes, List.length_append, List.length_singleton, List.range_succ,
    List.reverse_concat, List.filter_cons, hlast]
  by_cases hc : c = '/'
  · subst hc
    simp only [decide_true, if_true, List.map_cons, hrest, List.take_left]
  · simp only [Option.some.injEq, hc, decide_false, Bool.false_eq_true, if_false, hrest]

theorem directory_concat (p : Text) (c : Char) :
    directory (p ++ [c]) =
      if c = '/' then (if p.all (· = '/') then p ++ ['/'] else Text.trimEnd (· = '/') p)
      else directory p := by
  rw [directory, List.reverse_concat, directoryBackwards]
  by_cases hc : c = '/'
  · subst hc
    by_cases hp : p.all (· = '/')
    · simp [hp]
    · simp [hp, Text.trimEnd]
  · simp [hc, directory, directoryBackwards]

/-- A name of slashes only is all there is above it. -/
theorem eq_of_mem_upwards_of_all (h : p.all (· = '/')) : ∀ d ∈ upwards p, d = p := by
  intro d hd
  rw [upwards] at hd
  split at hd
  · cases hd
  · rw [dif_pos (directory_eq_self_iff.mpr h)] at hd
    exact List.mem_singleton.mp hd

theorem upwards_of_not_all (h : ¬ p.all (· = '/')) : upwards p = p :: upwards (directory p) := by
  have hp : p ≠ [] := by
    rintro rfl
    exact h rfl
  rw [upwards, if_neg hp, dif_neg (mt directory_eq_self_iff.mp h)]

/-- The slashes at the end of a name are the first step upwards. -/
theorem trimEnd_eq_self_or_directory (h : ¬ p.all (· = '/')) :
    Text.trimEnd (· = '/') p = p ∨ Text.trimEnd (· = '/') p = directory p := by
  rcases List.eq_nil_or_concat p with rfl | ⟨q, c, rfl⟩
  · exact .inl rfl
  · rw [List.concat_eq_append] at h ⊢
    rw [Text.trimEnd_concat, directory_concat]
    by_cases hc : c = '/'
    · subst hc
      have hq : ¬ q.all (· = '/') := by simpa using h
      right
      simp [hq]
    · left
      simp [hc]

theorem trimEnd_not_all (h : ¬ p.all (· = '/')) : ¬ (Text.trimEnd (· = '/') p).all (· = '/') := by
  obtain ⟨tail, hp, htail, -⟩ := Text.trimEnd_eq_iff.mp (rfl : Text.trimEnd (· = '/') p = _)
  intro hall
  refine h ?_
  rw [hp, List.all_append, hall, Bool.true_and]
  exact List.all_eq_true.mpr htail

/-- A test that no name with a slash at its end passes is passed by none of slashes only. -/
theorem eq_false_of_all {test : Text → Bool} (h : ∀ d, test d → d ≠ [] ∧ d.getLast? ≠ some '/')
    (hp : p.all (· = '/')) : test p = false := by
  by_contra ht
  obtain ⟨hne, hlast⟩ := h p (by simpa using ht)
  rw [List.getLast?_eq_some_getLast hne] at hlast
  have := List.all_eq_true.mp hp _ (List.getLast_mem hne)
  exact hlast (by simpa using this)

theorem find?_upwards_of_all {test : Text → Bool} (h : ∀ d, test d → d ≠ [] ∧ d.getLast? ≠ some '/')
    (hp : p.all (· = '/')) : (upwards p).find? test = none := by
  rw [List.find?_eq_none]
  intro d hd
  rw [eq_of_mem_upwards_of_all hp d hd, eq_false_of_all h hp]
  exact Bool.false_ne_true

/-- The walk upwards comes through the texts before the slashes in their order. It may come through
a name of slashes only, and it does not repeat a text between slashes that follow each other; a
search for a name that does not end in a slash hears nothing of either. -/
theorem find?_enclosing (test : Text → Bool) (h : ∀ d, test d → d ≠ [] ∧ d.getLast? ≠ some '/')
    (p : Text) : (enclosing p).find? test = (beforeSlashes p).find? test := by
  simp only [enclosing]
  induction p using List.reverseRecOn with
  | nil => rw [directory_eq_self_iff.mpr rfl, find?_upwards_of_all h rfl]; rfl
  | append_singleton p c ih =>
    rw [directory_concat, beforeSlashes_concat]
    by_cases hc : c = '/'
    · rw [if_pos hc, if_pos hc, List.find?_cons, ← ih]
      by_cases hp : p.all (· = '/')
      · have htrim : Text.trimEnd (· = '/') p = [] :=
          Text.trimEnd_eq_iff.mpr ⟨p, rfl, by simpa using hp, by simp⟩
        have hslash : (p ++ ['/']).all (· = '/') := by simpa using hp
        rw [if_pos hp, find?_upwards_of_all h hslash, htrim, eq_false_of_all h rfl,
          directory_eq_self_iff.mpr hp, find?_upwards_of_all h hp]
      · rw [if_neg hp, upwards_of_not_all (trimEnd_not_all hp), List.find?_cons]
        cases ht : test (Text.trimEnd (· = '/') p) with
        | true => rfl
        | false =>
          rcases trimEnd_eq_self_or_directory hp with heq | heq
          · simp only [heq]
          · -- the directory part is this text once more
            rw [← heq, upwards_of_not_all (trimEnd_not_all hp), List.find?_cons, ht]
    · rw [if_neg hc, if_neg hc, ih]

/-- Going upwards ends, at the latest after as many steps as the name has characters. -/
theorem exists_iterate_directory_eq (p : Text) :
    ∃ n ≤ p.length, directory (directory^[n] p) = directory^[n] p := by
  by_cases hp : directory p = p
  · exact ⟨0, Nat.zero_le _, hp⟩
  · have hlt := length_directory_lt hp
    obtain ⟨n, hn, hstays⟩ := exists_iterate_directory_eq (directory p)
    exact ⟨n + 1, by omega, hstays⟩
termination_by p.length
decreasing_by exact length_directory_lt hp

end Path

end BazelRunfiles
