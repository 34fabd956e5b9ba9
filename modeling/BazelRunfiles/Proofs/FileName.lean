import BazelRunfiles.Proofs.Descent
import BazelRunfiles.Proofs.Listing
import BazelRunfiles.Proofs.Propagation

/-!
The file name of a runfile. A name may be spelled with empty and single-dot segments; what
counts are the names in it, with slashes between them, and `fileName_ofText` says that nothing
else does. The names in a path are never empty, so what keeps their text from being looked up
is a `..` or a backslash in front. The location that is found is not empty either, since a
manifest gives no empty location to a runfile path that has characters; so every location that
is found leads to a file name.
-/

namespace BazelRunfiles

/-! ### The names in a path -/

namespace Path

variable {x s : Text} {parts : List Text}

theorem mem_names_iff : s ∈ names x ↔ s ∈ segments x ∧ s ≠ [] ∧ s ≠ ['.'] := by
  simp [names]

theorem names_ofSegments_names (x : Text) : names (ofSegments (names x)) = names x := by
  refine names_ofSegments fun s hs => ?_
  obtain ⟨hm, hs⟩ := mem_names_iff.mp hs
  exact ⟨slash_notMem_of_mem_segments hm, hs⟩

theorem ofSegments_names_eq_nil_iff : ofSegments (names x) = [] ↔ names x = [] := by
  refine ⟨fun h => ?_, fun h => ?_⟩
  · rw [← names_ofSegments_names, h]
    rfl
  · rw [h]
    rfl

theorem segments_ofSegments_names (h : names x ≠ []) : segments (ofSegments (names x)) = names x :=
  segments_ofSegments h fun _ hs => slash_notMem_of_mem_segments (mem_names_iff.mp hs).1

theorem head?_ofSegments_names (x : Text) : (ofSegments (names x)).head? ≠ some '/' := by
  by_cases hn : names x = []
  · rw [hn]
    simp [ofSegments]
  · rw [ne_eq, head?_eq_slash_iff, segments_ofSegments_names hn]
    rintro ⟨after, -, h⟩
    exact (mem_names_iff.mp (h ▸ List.mem_cons_self : [] ∈ names x)).2.1 rfl

/-- Of what a path may not have, the text of names can only have a `..`, or a backslash in front. -/
theorem isAdmissible_ofSegments_names (hn : names x ≠ []) :
    isAdmissible (ofSegments (names x)) ↔
      ['.', '.'] ∉ names x ∧ (ofSegments (names x)).head? ≠ some '\\' := by
  have hempty : [] ∉ (names x).tail.dropLast := by
    intro h
    have hm := List.mem_of_mem_tail (List.dropLast_subset _ h)
    exact (mem_names_iff.mp hm).2.1 rfl
  have hdot : ['.'] ∉ names x := fun h => (mem_names_iff.mp h).2.2 rfl
  rw [isAdmissible_iff, segments_ofSegments_names hn, noDots_iff_notMem, ne_eq,
    ofSegments_names_eq_nil_iff]
  refine ⟨?_, ?_⟩
  · rintro ⟨-, hb, ⟨-, hdots⟩, -⟩
    exact ⟨hdots, hb⟩
  · rintro ⟨hdots, hb⟩
    exact ⟨hn, hb, ⟨hdot, hdots⟩, hempty⟩

namespace Normal

theorem isAbsolute_ofText_iff : (ofText x).isAbsolute ↔ x.head? = some '/' := by
  simp only [isAbsolute, ofText, root_ne_nil_iff, decide_eq_true_eq]

theorem root_ofText (h : x.head? ≠ some '/') : (ofText x).root = [] := by
  by_contra hr
  exact h (root_ne_nil_iff.mp hr)

theorem segments_ofText (x : Text) : (ofText x).segments = names x := rfl

theorem isEmpty_ofText_iff : (ofText x).isEmpty ↔ x.head? ≠ some '/' ∧ names x = [] := by
  rw [isEmpty, Bool.and_eq_true, decide_eq_true_iff, decide_eq_true_iff, segments_ofText, ne_eq,
    ← root_ne_nil_iff, not_not]
  rfl

theorem toText_ofText (h : x.head? ≠ some '/') (hn : names x ≠ []) :
    (ofText x).toText = ofSegments (names x) := by
  rw [toText, if_neg fun he => hn (isEmpty_ofText_iff.mp he).2, root_ofText h, List.nil_append,
    segments_ofText]

end Normal

end Path

/-! ### Locations that are not empty -/

namespace Manifest

variable {m : Manifest} {path location : Text}

/-- Whether every runfile path with characters has a location with characters. -/
def HasLocations (m : Manifest) : Prop :=
  ∀ key value, m.find? key = some value → key ≠ [] → value ≠ []

/-- A line without a location gives the runfile path itself. -/
theorem Entry.value_ne_nil_of_reads {line : Text} {e : Entry} (h : Reads line e) (hk : e.key ≠ []) :
    e.value ≠ [] := by
  have fallback {key value : Text} (hk : key ≠ []) : (if value = [] then key else value) ≠ [] := by
    split
    · exact hk
    · assumption
  cases h with
  | plain => exact fallback hk
  | escaped => exact fallback hk

theorem hasLocations_ofLines (lines : List Text) : (ofLines lines).HasLocations := by
  intro key value hf hk
  obtain ⟨-, line, -, -, hg, -⟩ := find?_ofLines_eq_some_iff.mp hf
  exact Entry.value_ne_nil_of_reads hg hk

theorem ne_nil_of_locate? (h : m.HasLocations) (hp : path ≠ [])
    (hl : m.locate? path = some location) : location ≠ [] := by
  obtain ⟨key, value, hb, hv, rfl⟩ := locate?_eq_some_iff.mp hl
  have hk : key ≠ [] := by
    rintro rfl
    exact hp (eq_nil_of_serves_nil hb.serves)
  simp [h key value hv hk]

theorem load_eq_ok {fs : FileSystem} {file : Text} (h : load fs file = .ok m) :
    ∃ lines, m = ofLines lines := by
  unfold load at h
  split at h
  · cases h
  · cases h
  · split at h
    · cases h
    · cases h
      exact ⟨_, rfl⟩

end Manifest

namespace Store

variable {store : Store} {path location : Text}

/-- Whether a store has a location for a path. A directory has one for every path, and a manifest if
it lists the path, or what the path has before a slash. -/
def Has : Store → Text → Prop
  | .directory _, _ => True
  | .manifest _ entries, path =>
    ∃ key, key ≠ [] ∧ (entries.find? key).isSome ∧ (path = key ∨ key ++ ['/'] <+: path)

theorem locate?_eq_none_iff (hp : path ≠ []) : store.locate? path = none ↔ ¬ store.Has path := by
  cases store with
  | directory root => simp [locate?, Has]
  | manifest file entries =>
    rw [locate?, Manifest.locate?_eq_none_iff, Has, not_exists]
    refine forall_congr' fun key => ?_
    by_cases hk : key = []
    · subst hk
      have hs : ¬ Manifest.Serves [] path := fun h => hp (Manifest.eq_nil_of_serves_nil h)
      simp [hs]
    · rw [Manifest.serves_iff_of_ne_nil hk, ← Option.not_isSome_iff_eq_none]
      refine ⟨?_, ?_⟩
      · rintro h ⟨-, hs, hserves⟩
        exact h hserves hs
      · intro h hserves hs
        exact h ⟨hk, hs, hserves⟩

/-- Whether all locations that a store has are not empty. -/
def HasLocations (store : Store) : Prop :=
  ∀ file entries, store = .manifest file entries → Manifest.HasLocations entries

theorem ne_nil_of_locate? (h : store.HasLocations) (hp : path ≠ [])
    (hl : store.locate? path = some location) : location ≠ [] := by
  cases store with
  | directory root =>
    obtain rfl := Option.some.inj hl
    simp
  | manifest file entries => exact Manifest.ne_nil_of_locate? (h file entries rfl) hp hl

end Store

namespace Resolver

variable {fs : FileSystem} {r : Resolver} {path location workingDirectory x : Text}

theorem find?_ne_nil (h : r.store.HasLocations) (platform : Platform) (path : Text)
    (source? : Option Text) : r.find? platform path source? ≠ some [] := by
  intro hl
  unfold find? at hl
  split at hl
  · next ha =>
    have hp : path ≠ [] := (Path.isAdmissible_iff.mp ha).1
    split at hl
    · exact hp (Option.some.inj hl)
    · exact Store.ne_nil_of_locate? h (r.storePath_ne_nil source? hp) hl rfl
  · cases hl

/-- A resolver that can be made has read its manifest. -/
theorem Made.hasLocations (made : Made fs r) : r.store.HasLocations := by
  intro file entries hs
  obtain ⟨hl, -⟩ := made.ofLocation_eq
  rw [hs] at hl
  obtain ⟨store, hstore, hr⟩ := Error.bind_eq_ok_iff.mp hl
  obtain ⟨read, hread, rfl⟩ := Error.map_eq_ok_iff.mp hstore
  obtain ⟨lines, rfl⟩ := Manifest.load_eq_ok hread
  obtain ⟨hs', -⟩ := ofStore_eq_ok hr
  rw [hs] at hs'
  cases hs'
  exact Manifest.hasLocations_ofLines lines

theorem hasLocations_of_ofDirectory {root source : Text} (h : ofDirectory fs root source = .ok r) :
    r.store.HasLocations := by
  obtain ⟨hs, -⟩ := ofStore_eq_ok h
  intro file entries he
  rw [hs] at he
  cases he

/-! ### File names -/

/-- The names in a path say what becomes of it. -/
theorem fileName_ofText (h : r.store.HasLocations) (workingDirectory x : Text) :
    r.fileName .posix workingDirectory (.ofText x) =
      if x.head? = some '/' then .error (.absolute (Path.Normal.ofText x).toText)
      else if Path.names x = [] then .error .missing
      else match r.find? .posix (Path.ofSegments (Path.names x)) none with
        | none => .error (.notFound (Path.ofSegments (Path.names x)))
        | some location => .ok (Path.absolute workingDirectory location) := by
  unfold fileName
  simp only [Path.Normal.isEmpty_ofText_iff, Path.Normal.isAbsolute_ofText_iff]
  by_cases hx : x.head? = some '/'
  · rw [if_neg fun he => he.1 hx, if_pos hx, if_pos hx]
  rw [if_neg hx, if_neg hx]
  by_cases hn : Path.names x = []
  · rw [if_pos ⟨hx, hn⟩, if_pos hn]
  rw [if_neg fun he => hn he.2, if_neg hn, Path.Normal.toText_ofText hx hn]
  cases hf : r.find? .posix (Path.ofSegments (Path.names x)) none with
  | none => rfl
  | some location =>
    have hne : location ≠ [] := by
      rintro rfl
      exact find?_ne_nil h _ _ _ hf
    have hkeep : (some location).filter (fun l => decide (l ≠ [])) = some location :=
      Option.filter_some_pos (decide_eq_true hne)
    rw [hkeep]

theorem exists_fileName_eq_absolute_iff (h : r.store.HasLocations) :
    (∃ shown, r.fileName .posix workingDirectory (.ofText x) = .error (.absolute shown)) ↔
      x.head? = some '/' := by
  rw [fileName_ofText h]
  split
  · next hx => simp [hx]
  · next hx =>
    refine iff_of_false ?_ hx
    rintro ⟨shown, he⟩
    split at he
    · cases he
    · split at he <;> cases he

theorem fileName_eq_missing_iff (h : r.store.HasLocations) :
    r.fileName .posix workingDirectory (.ofText x) = .error .missing ↔
      x.head? ≠ some '/' ∧ Path.names x = [] := by
  rw [fileName_ofText h]
  split
  · next hx => simp [hx]
  · next hx =>
    split
    · next hn => simp [hx, hn]
    · next hn =>
      refine iff_of_false (fun he => ?_) fun he => hn he.2
      split at he <;> cases he

theorem fileName_of_find?_eq_none (h : r.store.HasLocations) (hx : x.head? ≠ some '/')
    (hn : Path.names x ≠ []) (hf : r.find? .posix (Path.ofSegments (Path.names x)) none = none) :
    r.fileName .posix workingDirectory (.ofText x) =
      .error (.notFound (Path.ofSegments (Path.names x))) := by
  rw [fileName_ofText h, if_neg hx, if_neg hn, hf]

theorem fileName_of_find?_eq_some (h : r.store.HasLocations) (hx : x.head? ≠ some '/')
    (hn : Path.names x ≠ [])
    (hf : r.find? .posix (Path.ofSegments (Path.names x)) none = some location) :
    r.fileName .posix workingDirectory (.ofText x) =
      .ok (Path.absolute workingDirectory location) := by
  rw [fileName_ofText h, if_neg hx, if_neg hn, hf]

/-- Two spellings of one name have one outcome. -/
theorem fileName_congr (h : r.store.HasLocations) {y : Text} (hx : x.head? ≠ some '/')
    (hy : y.head? ≠ some '/')
    (hxy : Path.ofSegments (Path.names y) = Path.ofSegments (Path.names x)) :
    r.fileName .posix workingDirectory (.ofText y) =
      r.fileName .posix workingDirectory (.ofText x) := by
  have hnames : Path.names y = Path.names x := by
    rw [← Path.names_ofSegments_names y, hxy, Path.names_ofSegments_names]
  rw [fileName_ofText h, fileName_ofText h, hnames, if_neg hx, if_neg hy]

/-- A path of names has no location if it has a `..`, if a backslash stands in front, or if the
store has none for what the path becomes. -/
theorem find?_names_eq_none_iff (r : Resolver) (source? : Option Text) (hn : Path.names x ≠ []) :
    r.find? .posix (Path.ofSegments (Path.names x)) source? = none ↔
      ['.', '.'] ∈ Path.names x ∨ (Path.ofSegments (Path.names x)).head? = some '\\' ∨
        ∃ target, r.mapping.Remaps (source?.getD r.source) (Path.ofSegments (Path.names x)) target ∧
          ¬ r.store.Has target := by
  have hne : Path.ofSegments (Path.names x) ≠ [] := mt Path.ofSegments_names_eq_nil_iff.mp hn
  have hr : ¬ Path.isAbsolute .posix (Path.ofSegments (Path.names x)) :=
    mt Path.isAbsolute_posix_iff.mp (Path.head?_ofSegments_names x)
  have hchecked := Path.isAdmissible_ofSegments_names hn
  simp only [← RepoMapping.apply_eq_iff, exists_eq_left']
  by_cases ha : Path.isAdmissible (Path.ofSegments (Path.names x))
  · obtain ⟨hdots, hb⟩ := hchecked.mp ha
    rw [find?_of_checked r source? ha hr,
      Store.locate?_eq_none_iff (r.storePath_ne_nil source? hne), or_iff_right hdots,
      or_iff_right hb, storePath]
  · have hfaulty : ['.', '.'] ∈ Path.names x ∨
        (Path.ofSegments (Path.names x)).head? = some '\\' := by
      by_contra h
      rw [not_or] at h
      exact ha (hchecked.mpr h)
    rw [find?, if_neg ha, ← or_assoc]
    exact iff_of_true rfl (.inl hfaulty)

/-- The outcome for a name, however it is spelled. A name that starts with a slash is absolute, and
one without any names in it is missing. Any other is not found if it has a `..`, if it starts with a
backslash, or if the store has no location for what the mapping makes of it; and else it gets the
location that is found, as seen from the root. Two spellings of one name have one outcome. What is
found is never empty, so that no hit is taken for a miss. -/
theorem fileName_of_spelling (made : Made fs r ∨ ∃ source, ofDirectory fs [] source = .ok r)
    (rooted : workingDirectory.head? = some '/') (x : Text) :
    let name := Path.ofSegments (Path.names x)
    let outcome := r.fileName .posix workingDirectory (.ofText x)
    let lost := ['.', '.'] ∈ Path.names x ∨ name.head? = some '\\' ∨
      ∃ target, r.mapping.Remaps r.source name target ∧ ¬ r.store.Has target
    ((∃ shown, outcome = .error (.absolute shown)) ↔ x.head? = some '/') ∧
    (outcome = .error .missing ↔ x.head? ≠ some '/' ∧ name = []) ∧
    (x.head? ≠ some '/' → name ≠ [] →
      ((∃ shown, outcome = .error (.notFound shown)) ↔ lost) ∧
      (lost → outcome = .error (.notFound name)) ∧
      (¬ lost → ∃ location, r.find? .posix name none = some location ∧
        outcome = .ok (Path.absolute workingDirectory location) ∧
        Path.IsPlain (Path.absolute workingDirectory location))) ∧
    (x.head? ≠ some '/' → ∀ y, y.head? ≠ some '/' → Path.ofSegments (Path.names y) = name →
      r.fileName .posix workingDirectory (.ofText y) = outcome) ∧
    (∀ lines, (Manifest.ofLines lines).HasLocations) ∧
    ∀ platform path source?, r.find? platform path source? ≠ some [] := by
  intro name outcome lost
  have hlocations : r.store.HasLocations := by
    rcases made with made | ⟨source, h⟩
    · exact made.hasLocations
    · exact hasLocations_of_ofDirectory h
  refine ⟨exists_fileName_eq_absolute_iff hlocations, ?missing, ?named, ?spellings,
    Manifest.hasLocations_ofLines, find?_ne_nil hlocations⟩
  case missing =>
    rw [Path.ofSegments_names_eq_nil_iff]
    exact fileName_eq_missing_iff hlocations
  case named =>
    intro hx hname
    have hn : Path.names x ≠ [] := mt Path.ofSegments_names_eq_nil_iff.mpr hname
    have hlost : r.find? .posix name none = none ↔ lost := find?_names_eq_none_iff r none hn
    cases hf : r.find? .posix name none with
    | none =>
      have hl : lost := hlost.mp hf
      have houtcome : outcome = .error (.notFound name) :=
        fileName_of_find?_eq_none hlocations hx hn hf
      exact ⟨iff_of_true ⟨name, houtcome⟩ hl, fun _ => houtcome, fun h => absurd hl h⟩
    | some location =>
      have hl : ¬ lost := by
        rw [← hlost, hf]
        simp
      have houtcome : outcome = .ok (Path.absolute workingDirectory location) :=
        fileName_of_find?_eq_some hlocations hx hn hf
      refine ⟨iff_of_false ?_ hl, fun h => absurd h hl, fun _ => ?_⟩
      · rintro ⟨shown, h⟩
        rw [houtcome] at h
        cases h
      · exact ⟨location, rfl, houtcome, Path.isPlain_absolute rooted location⟩
  case spellings =>
    intro hx y hy hyx
    exact fileName_congr hlocations hx hy hyx

/-- A manifest with one file, which is beside the working directory, and with a repository mapping,
by which `c` is the repository of the file. -/
def filesBesideManifest : FileSystem where
  workingDirectory := "/w/v".toList
  kind? name := if name = "MANIFEST".toList ∨ name = "/m".toList then some .file else none
  contents name := .ok <| Utf8.encode <|
    if name = "/m".toList then ",c,c+\n".toList else "_repo_mapping /m\nc+/d ../e//\n".toList
  target? _ := none
  kind?_nil := by decide

/-- The resolver for that manifest. -/
def besideManifest : Resolver where
  store := .manifest "MANIFEST".toList
    (Manifest.ofLines ["_repo_mapping /m\n".toList, "c+/d ../e//\n".toList])
  mapping := RepoMapping.empty.add ⟨[], "c".toList, "c+".toList⟩
  source := []

/-- A file below the listed one, whose name is spelled with more segments than it has
names, and another that is not listed; a name that leads up; and the working directory,
for which there is no name. -/
theorem fileName_of_besideManifest :
    ofManifestFile filesBesideManifest "MANIFEST".toList [] = .ok besideManifest ∧
      besideManifest.fileName .posix "/w/v".toList (.ofText ".//c/./d/f/".toList) =
        .ok "/w/e/f".toList ∧
      besideManifest.fileName .posix "/w/v".toList (.ofText "c/e".toList) =
        .error (.notFound "c/e".toList) ∧
      besideManifest.fileName .posix "/w/v".toList (.ofText "c/d/../d".toList) =
        .error (.notFound "c/d/../d".toList) ∧
      besideManifest.fileName .posix "/w/v".toList (.ofText ".//.".toList) = .error .missing := by
  have hr : ofManifestFile filesBesideManifest "MANIFEST".toList [] = .ok besideManifest := rfl
  have rooted : "/w/v".toList.head? = some '/' := by decide
  have outcomes (x : Text) := fileName_of_spelling (.inl (.manifestFile hr)) rooted x
  have hmapped : besideManifest.mapping.canonical? besideManifest.source "c".toList =
      some "c+".toList := by decide
  refine ⟨hr, ?_, ?_, ?_, ?_⟩
  · obtain ⟨-, -, hnamed, -⟩ := outcomes ".//c/./d/f/".toList
    obtain ⟨-, -, hfound⟩ := hnamed (by decide) (by decide)
    have hserved : besideManifest.store.Has "c+/d/f".toList :=
      ⟨"c+/d".toList, by decide, by decide, by decide⟩
    have hplace :
        besideManifest.find? .posix "c/d/f".toList none = some "../e///f".toList := by decide
    obtain ⟨location, hl, hok, -⟩ := hfound (by
      rintro (h | h | ⟨target, htarget, h⟩)
      · exact absurd h (by decide)
      · exact absurd h (by decide)
      · rw [← RepoMapping.apply_eq_iff.mpr htarget] at h
        exact h hserved)
    obtain rfl := Option.some.inj (hplace.symm.trans hl)
    rw [hok]
    decide
  · obtain ⟨-, -, hnamed, -⟩ := outcomes "c/e".toList
    obtain ⟨-, hlost, -⟩ := hnamed (by decide) (by decide)
    have hmissed : ¬ besideManifest.store.Has "c+/e".toList :=
      (Store.locate?_eq_none_iff (by decide)).mp (by decide)
    exact hlost (.inr (.inr ⟨_, .mapped "e".toList (by decide) hmapped, hmissed⟩))
  · obtain ⟨-, -, hnamed, -⟩ := outcomes "c/d/../d".toList
    obtain ⟨-, hlost, -⟩ := hnamed (by decide) (by decide)
    exact hlost (.inl (by decide))
  · obtain ⟨-, hmissing, -⟩ := outcomes ".//.".toList
    exact hmissing.mpr ⟨by decide, by decide⟩

end Resolver

end BazelRunfiles
