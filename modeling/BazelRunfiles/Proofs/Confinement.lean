import BazelRunfiles.Proofs.Path.Absolute
import BazelRunfiles.Resolver

/-!
Paths stay inside. A path is checked before its first segment is replaced by a canonical name, and
not again afterwards; so what the store is asked for is as good as the canonical name.
`storePath_confined` says how good that has to be, and that a path which passes leads below the root
of a directory, from wherever the root is seen.
-/

namespace BazelRunfiles

namespace RepoMapping

variable {first path : Text}

theorem apply_of_notMem (m : RepoMapping) (source : Text) (h : '/' ∉ path) :
    m.apply source path = path := if_neg h

theorem apply_of_eq_none {m : RepoMapping} {source : Text} (hs : '/' ∉ first)
    (hm : m.canonical? source first = none) (rest : Text) :
    m.apply source (first ++ '/' :: rest) = first ++ '/' :: rest := by
  simp [apply, Text.cut_append_cons hs, hm]

theorem apply_of_eq_some {m : RepoMapping} {source canonical : Text} (hs : '/' ∉ first)
    (hm : m.canonical? source first = some canonical) (rest : Text) :
    m.apply source (first ++ '/' :: rest) = canonical ++ '/' :: rest := by
  simp [apply, Text.cut_append_cons hs, hm]

/-- What a path becomes. The first segment of a path with a slash is replaced by its canonical name
if the mapping has one; nothing else is. -/
inductive Remaps (m : RepoMapping) (source : Text) : (path target : Text) → Prop where
  | single {path : Text} : '/' ∉ path → Remaps m source path path
  | unmapped {first : Text} (rest : Text) : '/' ∉ first → m.canonical? source first = none →
      Remaps m source (first ++ '/' :: rest) (first ++ '/' :: rest)
  | mapped {first canonical : Text} (rest : Text) : '/' ∉ first →
      m.canonical? source first = some canonical →
      Remaps m source (first ++ '/' :: rest) (canonical ++ '/' :: rest)

theorem remaps_apply (m : RepoMapping) (source path : Text) :
    Remaps m source path (m.apply source path) := by
  by_cases hs : '/' ∈ path
  · obtain ⟨first, rest, hfirst, rfl⟩ : ∃ first rest, '/' ∉ first ∧ path = first ++ '/' :: rest :=
      ⟨_, _, Text.notMem_cut '/' path, (Text.append_cut hs).symm⟩
    cases hm : m.canonical? source first with
    | none =>
      rw [apply_of_eq_none hfirst hm]
      exact .unmapped rest hfirst hm
    | some canonical =>
      rw [apply_of_eq_some hfirst hm]
      exact .mapped rest hfirst hm
  · rw [apply_of_notMem m source hs]
    exact .single hs

theorem apply_eq_iff {m : RepoMapping} {source target : Text} :
    m.apply source path = target ↔ Remaps m source path target := by
  refine ⟨?_, ?_⟩
  · rintro rfl
    exact remaps_apply m source path
  · rintro (hs | ⟨rest, hs, hm⟩ | ⟨rest, hs, hm⟩)
    · exact apply_of_notMem m source hs
    · exact apply_of_eq_none hs hm rest
    · exact apply_of_eq_some hs hm rest

end RepoMapping

namespace Path

theorem isAbsolute_posix_iff {p : Text} : isAbsolute .posix p ↔ p.head? = some '/' := by
  simp [isAbsolute]

theorem isRelative_of_checked {platform : Platform} {p : Text} (ha : isAdmissible p)
    (hr : ¬ isAbsolute platform p) : IsRelative p := by
  refine ⟨ha, fun hh => hr ?_⟩
  simp [isAbsolute, hh]

end Path

namespace Resolver

variable {platform : Platform} {path first : Text} {rest : List Text}

theorem find?_of_checked (r : Resolver) (source? : Option Text) (ha : Path.isAdmissible path)
    (hr : ¬ Path.isAbsolute platform path) :
    r.find? platform path source? = r.store.locate? (r.storePath source? path) := by
  rw [find?, if_pos ha, if_neg hr]

/-- A checked path asks the store for itself, or for a path with a canonical name in place of its
first segment. That is again a relative path exactly if the canonical name is one and ends in no
slash. A relative path that is asked for of a directory leads to the directory's names followed by
its own, none of which is a dot segment: no path leads out of the directory. -/
theorem storePath_confined (r : Resolver) (source? : Option Text)
    (admissible : Path.isAdmissible path) (relative : ¬ Path.isAbsolute platform path)
    (divided : Path.segments path = first :: rest) :
    let target := r.storePath source? path
    let canonical? := r.mapping.canonical? (source?.getD r.source) first
    r.find? platform path source? = r.store.locate? target ∧
    (rest = [] ∨ canonical? = none → target = path ∧ Path.IsRelative target) ∧
    (∀ canonical, rest ≠ [] → canonical? = some canonical →
      (Path.IsRelative target ↔ Path.IsRelative canonical ∧ canonical.getLast? ≠ some '/')) ∧
    (Path.IsRelative target → ∀ root workingDirectory, root ≠ [] →
      { r with store := .directory root }.find? platform path source? =
        some (root ++ '/' :: target) ∧
      Path.names (Path.absolute workingDirectory (root ++ '/' :: target)) =
        Path.names (Path.absolute workingDirectory root) ++ (Path.segments target).filter (· ≠ []) ∧
      Path.NoDots (Path.segments target)) := by
  intro target canonical?
  have hpath := Path.isRelative_of_checked admissible relative
  refine ⟨find?_of_checked r source? admissible relative, ?_, ?_, ?_⟩
  · intro h
    have htarget : target = path := by
      by_cases hrest : rest = []
      · subst hrest
        obtain ⟨rfl, hs⟩ := Path.segments_eq_singleton_iff.mp divided
        exact RepoMapping.apply_of_notMem _ _ hs
      · obtain ⟨hs, t, rfl, -⟩ := (Path.segments_eq_cons_iff hrest).mp divided
        exact RepoMapping.apply_of_eq_none hs (h.resolve_left hrest) t
    exact ⟨htarget, htarget ▸ hpath⟩
  · intro canonical hrest hc
    obtain ⟨hs, t, rfl, -⟩ := (Path.segments_eq_cons_iff hrest).mp divided
    have htarget : target = canonical ++ '/' :: t := RepoMapping.apply_of_eq_some hs hc t
    -- what follows the first segment was checked with it
    obtain ⟨-, ht⟩ := Path.isRelative_append_slash_iff.mp hpath
    rw [htarget, Path.isRelative_append_slash_iff, and_iff_left ht]
  · intro htarget root workingDirectory hroot
    obtain ⟨-, -, hdots, -⟩ := Path.isRelative_iff.mp htarget
    exact ⟨find?_of_checked _ source? admissible relative,
      Path.names_absolute_append hroot hdots workingDirectory, hdots⟩

/-- A repository that is known as `a`, and one known as `u` whose
canonical name no path may have. -/
def twoRepositories : Resolver where
  store := .directory "r".toList
  mapping :=
    (RepoMapping.empty.add ⟨[], "a".toList, "c+v".toList⟩).add ⟨[], "u".toList, "..".toList⟩
  source := []

/-- A path with a slash at its end, below a root that is seen from elsewhere; and a
canonical name that would lead out. -/
theorem storePath_of_twoRepositories :
    (Path.isAdmissible "a/x/".toList ∧ ¬ Path.isAbsolute .posix "a/x/".toList ∧
      Path.segments "a/x/".toList = ["a".toList, "x".toList, []]) ∧
    twoRepositories.storePath none "a/x/".toList = "c+v/x/".toList ∧
    Path.IsRelative (twoRepositories.storePath none "a/x/".toList) ∧
    Path.names (Path.absolute "/w/d".toList ("../r".toList ++ '/' :: "c+v/x/".toList)) =
      ["w".toList, "r".toList, "c+v".toList, "x".toList] ∧
    ¬ Path.IsRelative (twoRepositories.storePath none "u/x".toList) := by
  have ha : Path.isAdmissible "a/x/".toList := by decide
  have hr : ¬ Path.isAbsolute .posix "a/x/".toList := by decide
  have hd : Path.segments "a/x/".toList = ["a".toList, "x".toList, []] := by decide
  have htarget : twoRepositories.storePath none "a/x/".toList = "c+v/x/".toList := by decide
  obtain ⟨-, -, hmapped, hinside⟩ := storePath_confined twoRepositories none ha hr hd
  have hrel := (hmapped "c+v".toList (by decide) (by decide)).mpr
    ⟨⟨by decide, by decide⟩, by decide⟩
  refine ⟨⟨ha, hr, hd⟩, htarget, hrel, ?_, ?_⟩
  · obtain ⟨-, hnames, -⟩ := hinside hrel "../r".toList "/w/d".toList (by decide)
    rw [htarget] at hnames
    rw [hnames]
    decide
  · have ha : Path.isAdmissible "u/x".toList := by decide
    have hr : ¬ Path.isAbsolute .posix "u/x".toList := by decide
    have hd : Path.segments "u/x".toList = ["u".toList, "x".toList] := by decide
    obtain ⟨-, -, hmapped, -⟩ := storePath_confined twoRepositories none ha hr hd
    rw [hmapped "..".toList (by decide) (by decide)]
    rintro ⟨⟨h, -⟩, -⟩
    exact absurd h (by decide)

end Resolver

end BazelRunfiles
