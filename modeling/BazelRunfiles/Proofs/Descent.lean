import BazelRunfiles.Proofs.Confinement
import BazelRunfiles.Proofs.Manifest.Lookup

/-!
Looking up what lies below a path. A longer path takes the same entry of the mapping, since that
goes by the first segment, and the longer path is checked as a whole, so the shorter one passes too.
A manifest then cuts the longer path back until it comes to the shorter one, unless it lists
something in between; from there on the two searches are one. `find?_append_slash` puts this
together: what lies below a path has its location below that of the path.
-/

namespace BazelRunfiles

/-! ### Manifests -/

namespace Manifest

variable {m : Manifest} {key path below : Text}

/-- What serves a longer path lies below the shorter one, or serves that. -/
theorem serves_of_serves_append_slash (h : Serves key (path ++ '/' :: below))
    (hk : ¬ path ++ ['/'] <+: key) : Serves key path := by
  rcases serves_iff.mp h with rfl | ⟨hne, rest, heq⟩
  · exact absurd ⟨below, by simp⟩ hk
  · rcases List.append_eq_append_iff.mp heq with ⟨more, rfl, hmore⟩ | ⟨more, rfl, hmore⟩
    · cases more with
      | nil => exact .inl (List.append_nil path)
      | cons c more =>
        obtain ⟨rfl, -⟩ := List.cons.inj hmore
        exact absurd ⟨more, by simp⟩ hk
    · cases more with
      | nil => exact .inl (List.append_nil key).symm
      | cons c more =>
        obtain ⟨rfl, -⟩ := List.cons.inj hmore
        exact serves_iff.mpr (.inr ⟨hne, more, rfl⟩)

theorem Serves.append_slash (h : Serves key path) (hp : path ≠ []) (below : Text) :
    Serves key (path ++ '/' :: below) := by
  rcases serves_iff.mp h with rfl | ⟨hne, rest, rfl⟩
  · exact serves_iff.mpr (.inr ⟨hp, below, rfl⟩)
  · exact serves_iff.mpr (.inr ⟨hne, rest ++ '/' :: below, by simp⟩)

/-- Unless a manifest lists something below a path, what lies below the path is
served by what serves the path. -/
theorem locate?_append_slash (hp : path ≠ [])
    (h : ∀ key, path ++ ['/'] <+: key → m.find? key = none) :
    m.locate? (path ++ '/' :: below) = (m.locate? path).map (· ++ '/' :: below) := by
  have hshort {k : Text} (hk : Serves k (path ++ '/' :: below)) (hl : (m.find? k).isSome) :
      Serves k path := by
    refine serves_of_serves_append_slash hk fun hbelow => ?_
    rw [h k hbelow] at hl
    cases hl
  rcases locate?_cases m path with ⟨key, location, hb, hf, hl⟩ | ⟨hn, hl⟩
  · rw [hl, Option.map_some, locate?_eq_some_iff]
    refine ⟨key, location, ⟨hb.serves.append_slash hp below, hb.listed, ?_⟩, hf, ?_⟩
    · intro k hk hs
      exact hb.longest k (hshort hk hs) hs
    · rw [List.drop_append_of_le_length hb.serves.prefix.length_le, List.append_assoc]
  · rw [hl, Option.map_none, locate?_eq_none_iff]
    intro k hk
    by_contra hs
    exact hs (hn k (hshort hk (Option.ne_none_iff_isSome.mp hs)))

end Manifest

/-- A store with nothing listed below a path has what lies there below the location of the path. -/
theorem Store.locate?_append_slash {store : Store} {path : Text} (hp : path ≠ [])
    (h : ∀ file entries, store = .manifest file entries →
      ∀ key, path ++ ['/'] <+: key → entries.find? key = none) (below : Text) :
    store.locate? (path ++ '/' :: below) = (store.locate? path).map (· ++ '/' :: below) := by
  cases store with
  | directory root => simp [Store.locate?]
  | manifest file entries => exact Manifest.locate?_append_slash hp (h file entries rfl)

/-! ### Mapping and checks -/

namespace RepoMapping

variable {path : Text}

/-- The first segment of a path with a slash is that of every path below. -/
theorem apply_append_slash (m : RepoMapping) (source : Text) (hs : '/' ∈ path) (below : Text) :
    m.apply source (path ++ '/' :: below) = m.apply source path ++ '/' :: below := by
  have hfirst := Text.notMem_cut '/' path
  rw [← Text.append_cut hs, List.append_assoc, List.cons_append]
  cases hm : m.canonical? source (path.cut '/').1 with
  | none => simp [apply_of_eq_none hfirst hm]
  | some canonical => simp [apply_of_eq_some hfirst hm]

theorem apply_ne_nil (m : RepoMapping) (source : Text) (hp : path ≠ []) :
    m.apply source path ≠ [] := by
  unfold apply
  split
  · split
    · simp
    · exact hp
  · exact hp

end RepoMapping

namespace Path

variable {platform : Platform} {p below : Text}

/-- A drive takes three characters. -/
theorem hasDrive_append (h : 2 < p.length) (t : Text) : hasDrive (p ++ t) = hasDrive p := by
  match p, h with
  | a :: b :: c :: rest, _ =>
    by_cases hb : b = ':'
    · subst hb
      rfl
    · simp [hasDrive, hb]

/-- A path with a segment on both sides of a slash has three characters. -/
theorem two_lt_length (hs : '/' ∈ p) (hh : p.head? ≠ some '/') (hl : p.getLast? ≠ some '/') :
    2 < p.length := by
  obtain ⟨before, after, rfl⟩ := List.append_of_mem hs
  have hb : before ≠ [] := by
    rintro rfl
    exact hh rfl
  have ha : after ≠ [] := by
    rintro rfl
    simp at hl
  have := List.length_pos_iff.mpr hb
  have := List.length_pos_iff.mpr ha
  simp only [List.length_append, List.length_cons]
  omega

theorem head?_ne_slash (h : ¬ isAbsolute platform p) : p.head? ≠ some '/' := by
  intro hh
  exact h (by simp [isAbsolute, hh])

/-- What passes the checks together with a path below it passes them alone. -/
theorem checked_of_append_slash (hs : '/' ∈ p) (hr : ¬ isAbsolute platform p)
    (ha : isAdmissible (p ++ '/' :: below)) :
    isAdmissible p ∧ ¬ isAbsolute platform (p ++ '/' :: below) := by
  have hne : p ≠ [] := List.ne_nil_of_mem hs
  have hhead : (p ++ '/' :: below).head? = p.head? := List.head?_append_of_ne_nil p hne
  have hrel : IsRelative (p ++ '/' :: below) := ⟨ha, hhead ▸ head?_ne_slash hr⟩
  obtain ⟨⟨hp, hlast⟩, -⟩ := isRelative_append_slash_iff.mp hrel
  refine ⟨hp.1, ?_⟩
  rwa [isAbsolute, hhead, hasDrive_append (two_lt_length hs hp.2 hlast), ← isAbsolute]

end Path

namespace Resolver

variable {platform : Platform} {path below : Text}

theorem storePath_ne_nil (r : Resolver) (source? : Option Text) (hp : path ≠ []) :
    r.storePath source? path ≠ [] := RepoMapping.apply_ne_nil _ _ hp

/-- What lies below a path with a repository has its location below that of the path, and none if
the path has none, unless a manifest lists something below the path that the store is asked for. -/
theorem find?_append_slash (r : Resolver) (source? : Option Text) (divided : '/' ∈ path)
    (relative : ¬ Path.isAbsolute platform path)
    (admissible : Path.isAdmissible (path ++ '/' :: below))
    (unlisted : ∀ file entries, r.store = .manifest file entries →
      ∀ key, r.storePath source? path ++ ['/'] <+: key → entries.find? key = none) :
    (∀ location, r.find? platform path source? = some location →
      r.find? platform (path ++ '/' :: below) source? = some (location ++ '/' :: below)) ∧
    (r.find? platform path source? = none →
      r.find? platform (path ++ '/' :: below) source? = none) := by
  obtain ⟨ha, hr⟩ := Path.checked_of_append_slash divided relative admissible
  have htarget := r.storePath_ne_nil source? (List.ne_nil_of_mem divided)
  have hmapped : r.storePath source? (path ++ '/' :: below) =
      r.storePath source? path ++ '/' :: below :=
    RepoMapping.apply_append_slash _ _ divided below
  have hfind : r.find? platform (path ++ '/' :: below) source? =
      (r.find? platform path source?).map (· ++ '/' :: below) := by
    rw [find?_of_checked r source? admissible hr, find?_of_checked r source? ha relative, hmapped,
      Store.locate?_append_slash htarget unlisted]
  rw [hfind]
  refine ⟨fun location h => ?_, fun h => ?_⟩
  · rw [h, Option.map_some]
  · rw [h, Option.map_none]

/-- A manifest that lists a repository, and one file inside. -/
def repositoryAndFile : Resolver where
  store := .manifest "m".toList (Manifest.ofLines ["c+v /r\n".toList, "c+v/e/f /s\n".toList])
  mapping := twoRepositories.mapping
  source := []

/-- What lies below a path that is found by an entry for a directory; below a path with an entry
inside that does not hold, nor for a path that is no more than the name of a repository. -/
theorem find?_below_of_repositoryAndFile :
    repositoryAndFile.find? .posix "a/d/x/".toList none = some "/r/d/x/".toList ∧
      repositoryAndFile.find? .posix "a/e".toList none = some "/r/e".toList ∧
      repositoryAndFile.find? .posix "a/e/f".toList none = some "/s".toList ∧
      repositoryAndFile.find? .posix "a".toList none = none ∧
      repositoryAndFile.find? .posix "a/d".toList none = some "/r/d".toList := by
  have hfound : repositoryAndFile.find? .posix "a/d".toList none = some "/r/d".toList := by decide
  have relative : ¬ Path.isAbsolute .posix "a/d".toList := by decide
  have admissible : Path.isAdmissible ("a/d".toList ++ '/' :: "x/".toList) := by decide
  have unlisted : ∀ file entries, repositoryAndFile.store = .manifest file entries →
      ∀ key, repositoryAndFile.storePath none "a/d".toList ++ ['/'] <+: key →
        entries.find? key = none := by
    rintro file entries ⟨⟩ key ⟨rest, rfl⟩
    rfl
  obtain ⟨hbelow, -⟩ :=
    find?_append_slash repositoryAndFile none (by decide) relative admissible unlisted
  exact ⟨hbelow _ hfound, by decide, by decide, by decide, hfound⟩

end Resolver

end BazelRunfiles
