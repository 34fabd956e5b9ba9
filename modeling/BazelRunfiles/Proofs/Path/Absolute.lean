import BazelRunfiles.Path.Normal
import BazelRunfiles.Proofs.Path.Segments

/-!
The names in an absolute path. Collapsing keeps a stack of names, and only a `..` takes one back, so
parts without dot segments are put on top of whatever the parts before them have left.
`names_absolute_append` is what follows for a path below a directory: it adds its names to those of
the directory, wherever the directory is seen from. On a stack that starts at the root no `..` is
left, so `isPlain_absolute` finds nothing but names in an absolute path.
-/

namespace BazelRunfiles

namespace Path

variable {p : Text} {before after parts stack : List Text} {rooted : Bool}

/-! ### The stack -/

/-- Parts without dot segments take nothing back. -/
theorem foldl_push_of_noDots (h : NoDots parts) (stack : List Text) :
    parts.foldl (push rooted) stack = (parts.filter (· ≠ [])).reverse ++ stack := by
  induction parts generalizing stack with
  | nil => rfl
  | cons s rest ih =>
    obtain ⟨hs, hrest⟩ := List.forall_mem_cons.mp h
    rw [List.foldl_cons, ih hrest]
    by_cases hn : s = []
    · simp [push, hn]
    · simp [push, hn, hs]

theorem collapse_append_of_noDots (h : NoDots after) :
    collapse rooted (before ++ after) = collapse rooted before ++ after.filter (· ≠ []) := by
  rw [collapse, List.foldl_append, foldl_push_of_noDots h, List.reverse_append,
    List.reverse_reverse, collapse]

/-- A part comes onto the stack only if it names something. -/
theorem mem_push {s part : Text} (h : s ∈ push rooted stack part) :
    s ∈ stack ∨ (s = part ∧ s ≠ [] ∧ s ≠ ['.']) := by
  unfold push at h
  split at h
  · exact .inl h
  · next hp =>
    rw [not_or] at hp
    split at h
    · rcases List.mem_cons.mp h with rfl | h
      · exact .inr ⟨rfl, hp⟩
      · exact .inl h
    · next hdots =>
      obtain rfl : part = ['.', '.'] := by simpa using hdots
      cases stack with
      | nil =>
        cases rooted with
        | true => simp at h
        | false => exact .inr ⟨by simpa using h, by simp_all⟩
      | cons top below =>
        simp only at h
        split at h
        · rcases List.mem_cons.mp h with rfl | h
          · exact .inr ⟨rfl, hp⟩
          · exact .inl h
        · exact .inl (List.mem_cons_of_mem _ h)

theorem mem_foldl_push {s : Text} (h : s ∈ parts.foldl (push rooted) stack) :
    s ∈ stack ∨ (s ∈ parts ∧ s ≠ [] ∧ s ≠ ['.']) := by
  induction parts generalizing stack with
  | nil => exact .inl h
  | cons part rest ih =>
    rcases ih h with h | ⟨h, hs⟩
    · rcases mem_push h with h | ⟨rfl, hs⟩
      · exact .inl h
      · exact .inr ⟨List.mem_cons_self, hs⟩
    · exact .inr ⟨List.mem_cons_of_mem _ h, hs⟩

/-- What is left after collapsing are parts that name something. -/
theorem mem_collapse {s : Text} (h : s ∈ collapse rooted parts) :
    s ∈ parts ∧ s ≠ [] ∧ s ≠ ['.'] := by
  rw [collapse, List.mem_reverse] at h
  exact (mem_foldl_push h).resolve_left (by simp)

/-- A stack that starts at the root keeps no `..`: one either takes a name back or is dropped. -/
theorem dots_notMem_push {part : Text} (h : ['.', '.'] ∉ stack) :
    ['.', '.'] ∉ push true stack part := by
  unfold push
  split
  · exact h
  split
  · next hp => simp [h, Ne.symm hp]
  cases stack with
  | nil => simp
  | cons top below =>
    simp only [List.mem_cons, not_or] at h
    simp only
    split
    · next ht => exact absurd ht.symm h.1
    · exact h.2

theorem dots_notMem_collapse (parts : List Text) : ['.', '.'] ∉ collapse true parts := by
  rw [collapse, List.mem_reverse]
  suffices h : ∀ stack, ['.', '.'] ∉ stack →
      ['.', '.'] ∉ parts.foldl (push true) stack from h [] (by simp)
  induction parts with
  | nil => exact fun stack h => h
  | cons part rest ih => exact fun stack h => ih (push true stack part) (dots_notMem_push h)

/-! ### The text of a collapsed path -/

/-- The names in a path, which are its segments but the empty ones and the single dots. -/
def names (p : Text) : List Text := (segments p).filter fun s => s ≠ [] ∧ s ≠ ['.']

theorem root_cases (p : Text) : root p = [] ∨ root p = ['/'] ∨ root p = ['/', '/'] := by
  unfold root
  split <;> simp

theorem root_ne_nil_iff : root p ≠ [] ↔ p.head? = some '/' := by
  unfold root
  split
  · simp
  · simp
  · simp
  · next h =>
    cases p with
    | nil => simp
    | cons c rest =>
      have hc : c ≠ '/' := by
        rintro rfl
        exact h rest rfl
      simp [hc]

/-- The slashes in front name nothing. -/
theorem names_root_append (p t : Text) : names (root p ++ t) = names t := by
  rcases root_cases p with h | h | h
  · rw [h, List.nil_append]
  · simp [h, names, segments_slash_cons]
  · simp [h, names, segments_slash_cons]

theorem names_ofSegments (h : ∀ s ∈ parts, '/' ∉ s ∧ s ≠ [] ∧ s ≠ ['.']) :
    names (ofSegments parts) = parts := by
  by_cases hp : parts = []
  · subst hp
    rfl
  · rw [names, segments_ofSegments hp fun s hs => (h s hs).1]
    exact List.filter_eq_self.mpr fun s hs => by simp [(h s hs).2]

/-- The names in a collapsed path are the ones that are left on the stack. -/
theorem names_tidy (p : Text) : names (tidy p) = collapse (root p ≠ []) (segments p) := by
  have hnames := names_root_append p (ofSegments (collapse (root p ≠ []) (segments p)))
  rw [names_ofSegments] at hnames
  · unfold tidy
    simp only
    split
    · next h =>
      -- nothing is left, and a single dot names nothing
      rw [h] at hnames
      rw [← hnames]
      rfl
    · exact hnames
  · intro s hs
    obtain ⟨hm, hn⟩ := mem_collapse hs
    exact ⟨slash_notMem_of_mem_segments hm, hn⟩

/-! ### Paths below a directory -/

theorem join_append_slash {base directory : Text} (h : directory ≠ []) (p : Text) :
    join base (directory ++ '/' :: p) = join base directory ++ '/' :: p := by
  have hh : (directory ++ '/' :: p).head? = directory.head? := by
    obtain ⟨c, rest, rfl⟩ := List.exists_cons_of_ne_nil h
    rfl
  unfold join
  rw [hh]
  by_cases hs : directory.head? = some '/'
  · rw [if_pos hs, if_pos hs]
  · rw [if_neg hs, if_neg hs]
    split <;> simp

theorem join_ne_nil (base : Text) (h : p ≠ []) : join base p ≠ [] := by
  unfold join
  split
  · exact h
  · split <;> simp [h]

/-- Below a directory, a path without dot segments adds its names to those of the directory,
whatever the names of the directory are. -/
theorem names_absolute_append {directory : Text} (hd : directory ≠ []) (hp : NoDots (segments p))
    (workingDirectory : Text) :
    names (absolute workingDirectory (directory ++ '/' :: p)) =
      names (absolute workingDirectory directory) ++ (segments p).filter (· ≠ []) := by
  obtain ⟨c, rest, hj⟩ := List.exists_cons_of_ne_nil (join_ne_nil workingDirectory hd)
  have hroot : root (join workingDirectory directory ++ '/' :: p) ≠ [] ↔
      root (join workingDirectory directory) ≠ [] := by
    rw [root_ne_nil_iff, root_ne_nil_iff, hj]
    rfl
  rw [absolute, absolute, names_tidy, names_tidy, join_append_slash hd, segments_append_slash,
    collapse_append_of_noDots hp, decide_eq_decide.mpr hroot]

/-! ### Absolute names -/

/-- A file name that starts at the root and holds nothing but names. -/
def IsPlain (p : Text) : Prop :=
  ∃ slashes parts, p = slashes ++ ofSegments parts ∧ (slashes = ['/'] ∨ slashes = ['/', '/']) ∧
    ∀ s ∈ parts, '/' ∉ s ∧ s ≠ [] ∧ s ≠ ['.'] ∧ s ≠ ['.', '.']

theorem head?_join {base : Text} (h : base.head? = some '/') (p : Text) :
    (join base p).head? = some '/' := by
  have hne : base ≠ [] := by
    rintro rfl
    cases h
  unfold join
  split
  · assumption
  split
  · rw [List.head?_append_of_ne_nil base hne, h]
  · rw [List.head?_append_of_ne_nil base hne, h]

/-- Seen from a directory with an absolute name, every path is one of names only. -/
theorem isPlain_absolute {workingDirectory : Text} (h : workingDirectory.head? = some '/')
    (p : Text) : IsPlain (absolute workingDirectory p) := by
  have hroot := root_ne_nil_iff.mpr (head?_join h p)
  unfold absolute tidy
  simp only
  rw [if_neg (by simp [hroot])]
  refine ⟨_, _, rfl, (root_cases _).resolve_left hroot, fun s hs => ?_⟩
  rw [decide_eq_true hroot] at hs
  obtain ⟨hm, hne, hdot⟩ := mem_collapse hs
  refine ⟨slash_notMem_of_mem_segments hm, hne, hdot, ?_⟩
  rintro rfl
  exact dots_notMem_collapse _ hs

end Path

end BazelRunfiles
