import BazelRunfiles.Proofs.Path.Segments
import BazelRunfiles.SourceRepository

/-!
The repository of a source file, read off the segments of its name. A pattern is tried on
texts, but it only says what their first segments are, and the search tries it once for each
segment: at the start and behind every slash. So the search finds the first place where the
segments are as the pattern says.
-/

namespace BazelRunfiles

namespace SourceRepository

variable {t name rest : Text} {parts : List Text} {i : Nat}

open BazelRunfiles.Path (segments segments_eq_cons_iff segments_eq_singleton_iff segments_ne_nil)

/-! ### Places among the segments -/

/-- From place `i` on, the segments are `external`, the name of a
repository, and at least one more. -/
def IsCheckedOut (parts : List Text) (i : Nat) (name : Text) : Prop :=
  i + 2 < parts.length ∧ parts[i]? = some "external".toList ∧ parts[i + 1]? = some name ∧ name ≠ []

/-- From place `i` on, the segments are `bazel-out`, a configuration, `bin`, and then those of a
repository that is checked out. -/
def IsGenerated (parts : List Text) (i : Nat) (name : Text) : Prop :=
  parts[i]? = some "bazel-out".toList ∧
    (∃ configuration, parts[i + 1]? = some configuration ∧ configuration ≠ []) ∧
    parts[i + 2]? = some "bin".toList ∧ IsCheckedOut parts (i + 3) name

/-- The name at the first place that has one. -/
def Leftmost (place : Nat → Text → Prop) (name : Text) : Prop :=
  ∃ i, place i name ∧ ∀ j < i, ∀ other, ¬ place j other

/-- The first place that reads like a generated file names the repository; if there is
none, the first place that reads like a file that is checked out; and if there is none
either, it is the main repository. -/
def IsRepositoryOf (parts : List Text) (name : Text) : Prop :=
  Leftmost (IsGenerated parts) name ∨
    (∀ i other, ¬ IsGenerated parts i other) ∧
      (Leftmost (IsCheckedOut parts) name ∨
        (∀ i other, ¬ IsCheckedOut parts i other) ∧ name = [])

theorem leftmost_iff {place : Nat → Text → Prop} :
    Leftmost place name ↔
      place 0 name ∨ (∀ other, ¬ place 0 other) ∧ Leftmost (fun i => place (i + 1)) name := by
  refine ⟨?_, ?_⟩
  · rintro ⟨i, hi, hbefore⟩
    rcases i with - | i
    · exact .inl hi
    · exact .inr ⟨hbefore 0 (by omega), i, hi, fun j hj => hbefore (j + 1) (by omega)⟩
  · rintro (h | ⟨h0, i, hi, hbefore⟩)
    · exact ⟨0, h, fun j hj => absurd hj (Nat.not_lt_zero j)⟩
    · refine ⟨i + 1, hi, fun j hj => ?_⟩
      rcases j with - | j
      · exact h0
      · exact hbefore j (by omega)

theorem not_isCheckedOut_nil : ¬ IsCheckedOut [] i name := by simp [IsCheckedOut]

theorem not_isGenerated_nil : ¬ IsGenerated [] i name := by simp [IsGenerated]

theorem isCheckedOut_cons_succ {s : Text} :
    IsCheckedOut (s :: parts) (i + 1) name ↔ IsCheckedOut parts i name := by
  have hlength : i + 1 + 2 < (s :: parts).length ↔ i + 2 < parts.length := by
    rw [List.length_cons]
    omega
  simp only [IsCheckedOut, hlength, List.getElem?_cons_succ]

theorem isGenerated_cons_succ {s : Text} :
    IsGenerated (s :: parts) (i + 1) name ↔ IsGenerated parts i name := by
  simp [IsGenerated, isCheckedOut_cons_succ]

theorem isCheckedOut_zero_iff :
    IsCheckedOut parts 0 name ↔
      ∃ more, more ≠ [] ∧ parts = "external".toList :: name :: more ∧ name ≠ [] := by
  rcases parts with - | ⟨s, - | ⟨n, - | ⟨m, more⟩⟩⟩
  · simp [IsCheckedOut]
  · simp [IsCheckedOut]
  · simp [IsCheckedOut]
  · refine ⟨?_, ?_⟩
    · rintro ⟨-, hs, hn, hname⟩
      obtain rfl := Option.some.inj hs
      obtain rfl := Option.some.inj hn
      exact ⟨m :: more, by simp, rfl, hname⟩
    · rintro ⟨more, -, h, hname⟩
      injection h with hs h
      injection h with hn h
      exact ⟨by simp, by simp [hs], by simp [hn], hname⟩

theorem isGenerated_zero_iff :
    IsGenerated parts 0 name ↔
      ∃ configuration more, configuration ≠ [] ∧
        parts = "bazel-out".toList :: configuration :: "bin".toList :: more ∧
        IsCheckedOut more 0 name := by
  rcases parts with - | ⟨s, - | ⟨n, - | ⟨m, more⟩⟩⟩
  · simp [IsGenerated]
  · simp [IsGenerated]
  · simp [IsGenerated]
  · simp only [IsGenerated, Nat.zero_add, isCheckedOut_cons_succ]
    refine ⟨?_, ?_⟩
    · rintro ⟨hs, ⟨configuration, hn, hc⟩, hm, h⟩
      obtain rfl := Option.some.inj hs
      obtain rfl := Option.some.inj hn
      obtain rfl := Option.some.inj hm
      exact ⟨n, more, hc, rfl, h⟩
    · rintro ⟨configuration, more, hc, h, hmore⟩
      injection h with hs h
      injection h with hn h
      injection h with hm h
      exact ⟨by simp [hs], ⟨configuration, by simp [hn], hc⟩, by simp [hm], h ▸ hmore⟩

/-! ### Patterns -/

theorem after?_eq_some_iff {word : String} :
    after? word t = some rest ↔ t = word.toList ++ rest := by
  rw [after?, Option.ite_none_right_eq_some, List.isPrefixOf_iff_prefix, Option.some.injEq,
    ← String.length_toList]
  refine ⟨?_, ?_⟩
  · rintro ⟨⟨more, rfl⟩, rfl⟩
    rw [List.drop_left]
  · rintro rfl
    exact ⟨List.prefix_append _ _, List.drop_left⟩

/-- A segment reaches to the next slash. -/
theorem segment?_eq_some_iff {more : Text} :
    segment? t = some (name, '/' :: more) ↔ t = name ++ '/' :: more ∧ name ≠ [] ∧ '/' ∉ name := by
  simp only [segment?, Option.ite_none_left_eq_some, Option.some.injEq, Prod.mk.injEq]
  refine ⟨?_, ?_⟩
  · rintro ⟨hname, rfl, hmore⟩
    refine ⟨?_, hname, Text.notMem_cut '/' t⟩
    rw [← hmore, List.takeWhile_append_dropWhile]
  · rintro ⟨rfl, hname, hn⟩
    have htake : (name ++ '/' :: more).takeWhile (· != '/') = name :=
      congrArg Prod.fst (Text.cut_append_cons hn more)
    have hdrop := List.takeWhile_append_dropWhile (p := (· != '/')) (l := name ++ '/' :: more)
    rw [htake] at hdrop ⊢
    exact ⟨hname, rfl, List.append_cancel_left hdrop⟩

theorem checkedOut?_eq_some_iff : checkedOut? t = some name ↔ IsCheckedOut (segments t) 0 name := by
  rw [isCheckedOut_zero_iff]
  simp only [checkedOut?, Option.bind_eq_bind, Option.bind_eq_some_iff, after?_eq_some_iff,
    Prod.exists, Option.pure_def, Option.some.injEq]
  refine ⟨?_, ?_⟩
  · rintro ⟨s, rfl, n, -, hs, more, rfl, rfl⟩
    obtain ⟨rfl, hname, hn⟩ := segment?_eq_some_iff.mp hs
    refine ⟨segments more, segments_ne_nil more, ?_, hname⟩
    exact (segments_eq_cons_iff (by simp)).mpr ⟨by decide, _, rfl,
      (segments_eq_cons_iff (segments_ne_nil more)).mpr ⟨hn, more, rfl, rfl⟩⟩
  · rintro ⟨more, hmore, h, hname⟩
    obtain ⟨-, u, rfl, hu⟩ := (segments_eq_cons_iff (by simp)).mp h
    obtain ⟨hn, v, rfl, -⟩ := (segments_eq_cons_iff hmore).mp hu
    have hsegment : segment? (name ++ '/' :: v) = some (name, '/' :: v) :=
      segment?_eq_some_iff.mpr ⟨rfl, hname, hn⟩
    exact ⟨name ++ '/' :: v, rfl, name, '/' :: v, hsegment, v, rfl, rfl⟩

theorem generated?_eq_some_iff : generated? t = some name ↔ IsGenerated (segments t) 0 name := by
  rw [isGenerated_zero_iff]
  simp only [generated?, Option.bind_eq_bind, Option.bind_eq_some_iff, after?_eq_some_iff,
    Prod.exists, checkedOut?_eq_some_iff]
  refine ⟨?_, ?_⟩
  · rintro ⟨s, rfl, configuration, -, hs, more, rfl, hmore⟩
    obtain ⟨rfl, hc, hn⟩ := segment?_eq_some_iff.mp hs
    refine ⟨configuration, segments more, hc, ?_, hmore⟩
    exact (segments_eq_cons_iff (by simp)).mpr ⟨by decide, _, rfl,
      (segments_eq_cons_iff (by simp)).mpr ⟨hn, "bin".toList ++ '/' :: more, rfl,
        (segments_eq_cons_iff (segments_ne_nil more)).mpr ⟨by decide, more, rfl, rfl⟩⟩⟩
  · rintro ⟨configuration, more, hc, h, hmore⟩
    have hne : more ≠ [] := by
      rintro rfl
      exact not_isCheckedOut_nil hmore
    obtain ⟨-, u, rfl, hu⟩ := (segments_eq_cons_iff (by simp)).mp h
    obtain ⟨hn, v, rfl, hv⟩ := (segments_eq_cons_iff (by simp)).mp hu
    obtain ⟨-, w, rfl, rfl⟩ := (segments_eq_cons_iff hne).mp hv
    exact ⟨_, rfl, configuration, _, segment?_eq_some_iff.mpr ⟨rfl, hc, hn⟩, w, rfl, hmore⟩

/-! ### The search -/

theorem searchBehind_of_notMem {pattern : Text → Option Text} (h : '/' ∉ t) :
    searchBehind pattern t = none := by
  induction t with
  | nil => rfl
  | cons c more ih =>
    rw [List.mem_cons, not_or] at h
    rw [searchBehind, if_neg (Ne.symm h.1), ih h.2]

/-- Behind a first segment, the search starts again. -/
theorem searchBehind_append_slash {pattern : Text → Option Text} {s : Text} (hs : '/' ∉ s) :
    searchBehind pattern (s ++ '/' :: t) = search pattern t := by
  induction s with
  | nil => rfl
  | cons c more ih =>
    rw [List.mem_cons, not_or] at hs
    rw [List.cons_append, searchBehind, if_neg (Ne.symm hs.1), ih hs.2]

/-- The search for a pattern that is about the first segments finds the first place that it fits. -/
theorem search_eq_some_iff {pattern : Text → Option Text} {place : List Text → Nat → Text → Prop}
    (hpattern : ∀ t name, pattern t = some name ↔ place (segments t) 0 name)
    (hnil : ∀ i name, ¬ place [] i name)
    (hcons : ∀ s parts i name, place (s :: parts) (i + 1) name ↔ place parts i name) :
    search pattern t = some name ↔ Leftmost (place (segments t)) name := by
  have hnone {t : Text} : pattern t = none ↔ ∀ other, ¬ place (segments t) 0 other := by
    simp only [Option.eq_none_iff_forall_ne_some, ne_eq, hpattern]
  generalize h : segments t = parts
  induction parts generalizing t with
  | nil => exact absurd h (segments_ne_nil t)
  | cons s parts ih =>
    have hplace : (fun i => place (s :: parts) (i + 1)) = place parts :=
      funext₂ fun i name => propext (hcons s parts i name)
    rw [leftmost_iff, hplace, search, Option.or_eq_some_iff, hpattern, hnone, h]
    by_cases hp : parts = []
    · -- the only segment: there is no place behind it
      subst hp
      obtain ⟨rfl, hs⟩ := segments_eq_singleton_iff.mp h
      simp [searchBehind_of_notMem hs, Leftmost, hnil]
    · obtain ⟨hs, u, rfl, hu⟩ := (segments_eq_cons_iff hp).mp h
      have hsearch : search pattern u = some name ↔ Leftmost (place parts) name := ih hu
      rw [searchBehind_append_slash hs, hsearch]

/-- A first place is there as soon as there is any. -/
theorem forall_not_leftmost_iff {place : Nat → Text → Prop} :
    (∀ name, ¬ Leftmost place name) ↔ ∀ i name, ¬ place i name := by
  refine ⟨?_, ?_⟩
  · intro h i
    induction i using Nat.strongRecOn with
    | ind i ih => exact fun name hi => h name ⟨i, hi, ih⟩
  · rintro h name ⟨i, hi, -⟩
    exact h i name hi

theorem search_eq_none_iff {pattern : Text → Option Text} {place : Nat → Text → Prop}
    (h : ∀ name, search pattern t = some name ↔ Leftmost place name) :
    search pattern t = none ↔ ∀ i other, ¬ place i other := by
  rw [← forall_not_leftmost_iff, Option.eq_none_iff_forall_ne_some]
  simp only [ne_eq, h]

theorem search_checkedOut?_iff :
    search checkedOut? t = some name ↔ Leftmost (IsCheckedOut (segments t)) name :=
  search_eq_some_iff (fun _ _ => checkedOut?_eq_some_iff) (fun _ _ => not_isCheckedOut_nil)
    fun _ _ _ _ => isCheckedOut_cons_succ

theorem search_generated?_iff :
    search generated? t = some name ↔ Leftmost (IsGenerated (segments t)) name :=
  search_eq_some_iff (fun _ _ => generated?_eq_some_iff) (fun _ _ => not_isGenerated_nil)
    fun _ _ _ _ => isGenerated_cons_succ

/-! ### The repository of a file -/

/-- The segments of a file name that may be written with backslashes. -/
def segmentsOfFile (file : Text) : List Text :=
  segments (file.map fun c => if c = '\\' then '/' else c)

theorem ofFile_eq_iff {file : Text} :
    ofFile file = name ↔ IsRepositoryOf (segmentsOfFile file) name := by
  rw [ofFile, Option.getD_eq_iff]
  simp only [Option.or_eq_some_iff, Option.or_eq_none_iff, search_generated?_iff,
    search_checkedOut?_iff, search_eq_none_iff fun _ => search_generated?_iff,
    search_eq_none_iff fun _ => search_checkedOut?_iff]
  rw [IsRepositoryOf, segmentsOfFile, and_or_left, or_assoc, and_assoc, eq_comm (a := [])]

theorem mem_of_mem_segments {s p : Text} {c : Char} (hs : s ∈ segments p) (hc : c ∈ s) : c ∈ p := by
  rcases (Path.mem_segments_iff (Path.slash_notMem_of_mem_segments hs)).mp hs with rfl | h | h | h
  · exact hc
  · exact h.subset (by simp [hc])
  · exact h.subset (by simp [hc])
  · exact h.subset (by simp [hc])

theorem notMem_of_isCheckedOut {file : Text} (h : IsCheckedOut (segmentsOfFile file) i name) :
    '/' ∉ name ∧ '\\' ∉ name := by
  have hmem : name ∈ segmentsOfFile file := List.mem_of_getElem? h.2.2.1
  refine ⟨Path.slash_notMem_of_mem_segments hmem, fun hb => ?_⟩
  -- no backslash is left in the text that is cut
  obtain ⟨c, -, hc⟩ := List.mem_map.mp (mem_of_mem_segments hmem hb)
  by_cases h : c = '\\'
  · simp [h] at hc
  · simp [h] at hc

/-- The repository of a source file is the one that the segments of its name say; its name is
free of slashes of both kinds. -/
theorem isRepositoryOf_ofFile (file name : Text) :
    (ofFile file = name ↔ IsRepositoryOf (segmentsOfFile file) name) ∧
      '/' ∉ ofFile file ∧ '\\' ∉ ofFile file := by
  refine ⟨ofFile_eq_iff, ?_⟩
  rcases ofFile_eq_iff.mp rfl with ⟨i, h, -⟩ | ⟨-, ⟨i, h, -⟩ | ⟨-, h⟩⟩
  · exact notMem_of_isCheckedOut h.2.2.2
  · exact notMem_of_isCheckedOut h
  · simp [h]

-- a name must not be empty, and the partial segment in front is none
example : ofFile "my_external/a/external//external/x/b".toList = "x".toList := by decide

end SourceRepository

end BazelRunfiles
