import BazelRunfiles.Proofs.Confinement
import Mathlib.Data.List.Induction

/-!
The two names of a repository. One repository knows another by an apparent name, and a path that
starts with it has the same location as the path with the canonical name in its place, asked for by
a repository that does not know the canonical name for anything else. The mapping is applied once:
what it says of the canonical name for the repository that asked does not count.

A repository asks in one of two ways, by being named with the path or by being the last
one that the resolver was made to speak for; `find?_withSources` says that nothing else
of the resolver's past counts.
-/

namespace BazelRunfiles

namespace Path

variable {s t : Text}

/-- What a first segment has to be so that the path is relative, whatever segments follow it. -/
structure CanStart (s : Text) : Prop where
  ne_nil : s ≠ []
  slash_notMem : '/' ∉ s
  ne_dot : s ≠ ['.']
  ne_dots : s ≠ ['.', '.']
  head?_ne : s.head? ≠ some '\\'

theorem CanStart.isRelative (h : CanStart s) : IsRelative s ∧ s.getLast? ≠ some '/' := by
  rw [isRelative_and_getLast?_ne_iff, segments_of_notMem h.slash_notMem]
  refine ⟨h.head?_ne, ?_, ?_⟩
  · intro part hpart
    obtain rfl := List.mem_singleton.mp hpart
    exact ⟨h.ne_dot, h.ne_dots⟩
  · intro hmem
    exact h.ne_nil (List.mem_singleton.mp hmem).symm

/-- In a relative path another text that can start one may stand for the first segment. -/
theorem CanStart.isRelative_append_slash {first : Text} (h : CanStart s)
    (hp : IsRelative (first ++ '/' :: t)) : IsRelative (s ++ '/' :: t) := by
  obtain ⟨-, ht⟩ := isRelative_append_slash_iff.mp hp
  exact isRelative_append_slash_iff.mpr ⟨h.isRelative, ht⟩

end Path

namespace Resolver

/-- The same runfiles as several repositories see them, one after the other; the last one counts. -/
def withSources (r : Resolver) (sources : List Text) : Resolver := sources.foldl withSource r

theorem withSources_concat (r : Resolver) (sources : List Text) (bound : Text) :
    r.withSources (sources ++ [bound]) = (r.withSources sources).withSource bound := by
  rw [withSources, List.foldl_append, List.foldl_cons, List.foldl_nil, withSources]

/-- Only the repository changes. -/
theorem withSources_eq (r : Resolver) (sources : List Text) :
    r.withSources sources = r.withSource (sources.getLast?.getD r.source) := by
  induction sources using List.reverseRecOn with
  | nil => rfl
  | append_singleton sources bound ih =>
    rw [withSources_concat, ih, List.getLast?_concat, Option.getD_some]
    rfl

/-- A path is looked up for the repository that is named with it, or else for the one that the
resolver speaks for at last. -/
theorem find?_withSources (platform : Platform) (r : Resolver) (sources : List Text) (path : Text)
    (source? : Option Text) :
    (r.withSources sources).find? platform path source? =
      r.find? platform path (some (source?.getD (r.withSources sources).source)) := by
  rw [withSources_eq]
  rfl

variable {source source' apparent canonical rest : Text}

/-- A path with an apparent name in front has the location that the store
has for the canonical name. -/
theorem find?_of_apparent (r : Resolver) (undivided : '/' ∉ apparent)
    (hp : Path.IsRelative (apparent ++ '/' :: rest))
    (known : r.mapping.canonical? source apparent = some canonical) :
    r.find? .posix (apparent ++ '/' :: rest) (some source) =
      r.store.locate? (canonical ++ '/' :: rest) := by
  have hr : ¬ Path.isAbsolute .posix (apparent ++ '/' :: rest) :=
    mt Path.isAbsolute_posix_iff.mp hp.2
  rw [find?_of_checked r (some source) hp.1 hr]
  exact congrArg r.store.locate? (RepoMapping.apply_of_eq_some undivided known rest)

/-- So has a path with the canonical name in front, for a repository
that knows it for nothing else. -/
theorem find?_of_canonical (r : Resolver) (undivided : '/' ∉ canonical)
    (hp : Path.IsRelative (canonical ++ '/' :: rest))
    (final : r.mapping.canonical? source' canonical = none ∨
      r.mapping.canonical? source' canonical = some canonical) :
    r.find? .posix (canonical ++ '/' :: rest) (some source') =
      r.store.locate? (canonical ++ '/' :: rest) := by
  have hr : ¬ Path.isAbsolute .posix (canonical ++ '/' :: rest) :=
    mt Path.isAbsolute_posix_iff.mp hp.2
  rw [find?_of_checked r (some source') hp.1 hr]
  refine congrArg r.store.locate? ?_
  rcases final with h | h
  · exact RepoMapping.apply_of_eq_none undivided h rest
  · exact RepoMapping.apply_of_eq_some undivided h rest

/-- The apparent and the canonical name of a repository lead to one location, that of the canonical
name. The two paths may be asked for by two repositories, each of which is named with its path or is
the last one that the resolver speaks for, after any others. Of the repository that asks for the
apparent name it does not matter what the canonical name is to it. A repository that is named counts
before the one that the resolver speaks for, also if its name is empty. -/
theorem find?_apparent_and_canonical (r : Resolver) (undivided : '/' ∉ apparent)
    (admissible : Path.isAdmissible (apparent ++ '/' :: rest))
    (relative : ¬ Path.isAbsolute .posix (apparent ++ '/' :: rest))
    (known : r.mapping.canonical? source apparent = some canonical)
    (canStart : Path.CanStart canonical)
    (final : r.mapping.canonical? source' canonical = none ∨
      r.mapping.canonical? source' canonical = some canonical) :
    (∀ sources sources' source? source?',
      source?.getD (r.withSources sources).source = source →
      source?'.getD (r.withSources sources').source = source' →
      (r.withSources sources).find? .posix (apparent ++ '/' :: rest) source? =
          (r.withSources sources').find? .posix (canonical ++ '/' :: rest) source?' ∧
        (r.withSources sources).find? .posix (apparent ++ '/' :: rest) source? =
          r.store.locate? (canonical ++ '/' :: rest)) ∧
    (∀ sources bound, (r.withSources (sources ++ [bound])).source = bound) ∧
    ∀ platform path sources given,
      (r.withSources sources).find? platform path (some given) =
        r.find? platform path (some given) := by
  have hp : Path.IsRelative (apparent ++ '/' :: rest) :=
    Path.isRelative_of_checked admissible relative
  refine ⟨?_, ?_, ?_⟩
  · intro sources sources' source? source?' hs hs'
    rw [find?_withSources, find?_withSources, hs, hs', find?_of_apparent r undivided hp known,
      find?_of_canonical r canStart.slash_notMem (canStart.isRelative_append_slash hp) final]
    exact ⟨rfl, rfl⟩
  · intro sources bound
    rw [withSources_concat]
    rfl
  · intro platform path sources given
    exact find?_withSources platform r sources path (some given)

/-- A repository that the main repository knows by a name which it has again for a third one. -/
def chainedNames : Resolver where
  store := .manifest "m".toList (Manifest.ofLines ["c /r\n".toList, "d /s\n".toList])
  mapping := (RepoMapping.empty.add ⟨[], "a".toList, "c".toList⟩).add ⟨[], "c".toList, "d".toList⟩
  source := "e".toList

/-- The repository `c` asks for itself, named or after another one, and the main repository asks for
`a`; when it asks for `c` it gets the third repository. -/
theorem find?_of_chainedNames :
    (chainedNames.withSources ["x".toList, []]).find? .posix "a/f".toList none =
        chainedNames.find? .posix "c/f".toList (some "c".toList) ∧
      chainedNames.find? .posix "a/f".toList (some []) =
        (chainedNames.withSources ["x".toList, "c".toList]).find? .posix "c/f".toList none ∧
      chainedNames.find? .posix "a/f".toList (some []) = some "/r/f".toList ∧
      chainedNames.find? .posix "c/f".toList (some []) = some "/s/f".toList := by
  have admissible : Path.isAdmissible ("a".toList ++ '/' :: "f".toList) := by decide
  have known : chainedNames.mapping.canonical? [] "a".toList = some "c".toList := by decide
  have canStart : Path.CanStart "c".toList :=
    ⟨by decide, by decide, by decide, by decide, by decide⟩
  have final : chainedNames.mapping.canonical? "c".toList "c".toList = none := by decide
  obtain ⟨agree, -, -⟩ :=
    find?_apparent_and_canonical chainedNames (by decide) admissible (by decide) known canStart
      (.inl final)
  have hbound := agree ["x".toList, []] [] none (some "c".toList) (by decide) (by decide)
  have hnamed := agree [] ["x".toList, "c".toList] (some []) none (by decide) (by decide)
  exact ⟨hbound.1, hnamed.1, by decide, by decide⟩

end Resolver

end BazelRunfiles
