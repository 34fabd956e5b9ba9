import BazelRunfiles.Proofs.Candidates
import BazelRunfiles.Proofs.Selection

/-!
The two searches compared. Discovery takes what is given and rules out everything else, while
the search for a directory skips what is not there and looks further; but what they have in
common they do in the same order. So a directory that discovery ends at, if it is there, is the
one that the search for a directory finds, unless a test names its own
(`discoverDirectory_of_discover`). In the other direction a directory that was searched for can
be handed on as given, and discovery ends at it.
-/

namespace BazelRunfiles

namespace Location

variable {probes : Probes} {hints : Hints} {file root program found : Text}

/-! ### The directories that discovery ends at -/

theorem explicit_eq_directory (given : file ≠ [] ∨ root ≠ [])
    (h : explicit probes file root = .ok (.directory found)) : found = root ∧ root ≠ [] := by
  have hname : found ≠ [] := name_ne_nil_of_explicit given h
  rcases explicit_eq_ok h with hl | hl
  · cases hl
  · cases hl
    exact ⟨rfl, hname⟩

theorem beside_eq_directory (h : beside probes program = .ok (.directory found)) :
    program ≠ [] ∧ found = directoryBeside program := by
  obtain ⟨hp, hl⟩ := beside_eq_ok h
  exact ⟨hp, by simpa [besideProgram_eq] using hl⟩

/-- A directory that discovery ends at is given, or it is next to the
program and nothing is given. -/
theorem discover_eq_directory (h : discover probes hints = .ok (.directory found)) :
    (hints.runfilesDir ≠ [] ∧ found = hints.runfilesDir) ∨
      (hints.runfilesDir = [] ∧ hints.program ≠ [] ∧ found = directoryBeside hints.program) := by
  by_cases given : hints.manifestFile ≠ [] ∨ hints.runfilesDir ≠ []
  · rw [discover_of_given given] at h
    obtain ⟨hfound, hr⟩ := explicit_eq_directory given h
    exact .inl ⟨hr, hfound⟩
  · simp only [not_or, ne_eq, not_not] at given
    rw [discover_of_not_given given.1 given.2] at h
    exact .inr ⟨given.2, beside_eq_directory h⟩

/-- A directory that is given alone is not looked at. -/
theorem discover_of_directory (h : root ≠ []) (probes : Probes) (program testSrcdir : Text) :
    discover probes ⟨program, [], root, testSrcdir⟩ = .ok (.directory root) := by
  rw [discover_of_given (.inr h), explicit_nil_left]

/-! ### The directories that are searched for -/

theorem isDirectory_of_around {isDirectory : Text → Bool}
    (h : around isDirectory program = some found) : isDirectory found := by
  rw [around_eq_find?] at h
  exact List.find?_some h

theorem isDirectory_of_aroundTarget (h : aroundTarget probes program = .ok (some found)) :
    probes.isDirectory found := by
  obtain ⟨target, -, ht⟩ := Error.map_eq_ok_iff.mp h
  obtain ⟨t, -, ha⟩ := Option.bind_eq_some_iff.mp ht
  exact isDirectory_of_around ha

/-- A directory that was searched for is there. -/
theorem isDirectory_of_discoverDirectory (h : discoverDirectory probes hints = .ok found) :
    probes.isDirectory found := by
  unfold discoverDirectory at h
  split at h
  · next hr => cases h; exact hr.2
  split at h
  · next ht => cases h; exact ht.2
  split at h
  · cases h
  split at h
  · next ha => cases h; exact isDirectory_of_around ha
  split at h
  · cases h
  · next ha => cases h; exact isDirectory_of_aroundTarget ha
  · cases h

theorem discoverDirectory_of_runfilesDir (hr : hints.runfilesDir ≠ [])
    (there : probes.isDirectory hints.runfilesDir) :
    discoverDirectory probes hints = .ok hints.runfilesDir := if_pos ⟨hr, there⟩

theorem discoverDirectory_of_testSrcdir (hr : hints.runfilesDir = []) (ht : hints.testSrcdir ≠ [])
    (there : probes.isDirectory hints.testSrcdir) :
    discoverDirectory probes hints = .ok hints.testSrcdir := by
  rw [discoverDirectory, if_neg (by simp [hr]), if_pos ⟨ht, there⟩]

theorem discoverDirectory_of_directoryBeside (hr : hints.runfilesDir = [])
    (ht : ¬ (hints.testSrcdir ≠ [] ∧ probes.isDirectory hints.testSrcdir)) (hp : hints.program ≠ [])
    (there : probes.isDirectory (directoryBeside hints.program)) :
    discoverDirectory probes hints = .ok (directoryBeside hints.program) := by
  rw [discoverDirectory, if_neg (by simp [hr]), if_neg ht, if_neg hp, around, if_pos there]

/-- A directory that discovery ends at, if it is there, is what the search for a directory finds,
except that a test's own directory comes before the one next to the program. -/
theorem discoverDirectory_of_discover (h : discover probes hints = .ok (.directory found))
    (there : probes.isDirectory found) :
    discoverDirectory probes hints = .ok
      (if hints.runfilesDir = [] ∧ hints.testSrcdir ≠ [] ∧ probes.isDirectory hints.testSrcdir then
        hints.testSrcdir
      else found) := by
  rcases discover_eq_directory h with ⟨hr, rfl⟩ | ⟨hr, hp, rfl⟩
  · rw [if_neg (fun ht => hr ht.1)]
    exact discoverDirectory_of_runfilesDir hr there
  · by_cases ht : hints.testSrcdir ≠ [] ∧ probes.isDirectory hints.testSrcdir
    · rw [if_pos ⟨hr, ht⟩]
      exact discoverDirectory_of_testSrcdir hr ht.1 ht.2
    · rw [if_neg (fun h => ht h.2)]
      exact discoverDirectory_of_directoryBeside hr ht hp there

end Location

namespace Resolver

/-- A directory that was searched for can be handed on as given: a program makes the same resolver
of it as the test that searched for it, or fails in the same way. -/
theorem discover_of_discoverDirectory {fs : FileSystem} {hints : Hints} {root : Text}
    (h : Location.discoverDirectory fs.probes hints = .ok root) {vars : Variables}
    (hm : vars.value Variables.manifestFile = []) (hr : vars.value Variables.runfilesDir = root)
    (program : Text) (caller : Caller) :
    discover fs (.ofVariables vars program) caller = discoverDirectory fs hints caller := by
  have hl : Location.discover fs.probes (.ofVariables vars program) = .ok (.directory root) := by
    rw [Hints.ofVariables, hm, hr]
    exact Location.discover_of_directory
      (Location.ne_nil_of_discoverDirectory h) fs.probes program _
  rw [discover, discoverDirectory, hl, h]
  rfl

end Resolver

namespace Location

/-- The two searches agree on directories. A directory that discovery ends at, if it is there, is
the one that the search for a directory finds, except that a test's own directory comes first where
none is given. What the search for a directory finds is there and has a name, and discovery ends at
it when it is given alone, for any program and whatever it asks; so a program to which it is handed
on has the resolver of the test. -/
theorem searches_agree (probes : Probes) (hints : Hints) :
    (∀ root, discover probes hints = .ok (.directory root) → probes.isDirectory root →
      discoverDirectory probes hints = .ok
        (if hints.runfilesDir = [] ∧ hints.testSrcdir ≠ [] ∧
            probes.isDirectory hints.testSrcdir then
          hints.testSrcdir
        else root)) ∧
    (∀ root, discoverDirectory probes hints = .ok root → probes.isDirectory root ∧ root ≠ [] ∧
      ∀ probes' program testSrcdir,
        discover probes' ⟨program, [], root, testSrcdir⟩ = .ok (.directory root)) ∧
    ∀ fs root, discoverDirectory fs.probes hints = .ok root → ∀ vars program caller,
      vars.value Variables.manifestFile = [] → vars.value Variables.runfilesDir = root →
        Resolver.discover fs (.ofVariables vars program) caller =
          Resolver.discoverDirectory fs hints caller := by
  refine ⟨?_, ?_, ?_⟩
  · intro root h there
    exact discoverDirectory_of_discover h there
  · intro root h
    have hn : root ≠ [] := ne_nil_of_discoverDirectory h
    exact ⟨isDirectory_of_discoverDirectory h, hn, discover_of_directory hn⟩
  · intro fs root h vars program caller hm hr
    exact Resolver.discover_of_discoverDirectory h hm hr program caller

/-- A program p with a runfiles directory next to it, and a directory of a test's sources. -/
def filesOfTest : FileSystem where
  workingDirectory := "/".toList
  kind? name := if name = "p.runfiles".toList ∨ name = "/t".toList then some .directory else none
  contents _ := .error .notFound
  target? _ := none
  kind?_nil := by decide

/-- Both searches end at the directory next to the program, but the test's own comes first, and
another program to which that is handed on goes by it. -/
theorem searches_agree_of_test :
    let vars : Variables := Table.ofList [("RUNFILES_DIR".toList, "/t".toList)]
    let caller := Caller.repository []
    discover filesOfTest.probes ⟨['p'], [], [], []⟩ = .ok (.directory "p.runfiles".toList) ∧
    discoverDirectory filesOfTest.probes ⟨['p'], [], [], []⟩ = .ok "p.runfiles".toList ∧
    discoverDirectory filesOfTest.probes ⟨['p'], [], [], "/t".toList⟩ = .ok "/t".toList ∧
    discover filesOfTest.probes ⟨['q'], [], "/t".toList, []⟩ = .ok (.directory "/t".toList) ∧
    Resolver.discover filesOfTest (.ofVariables vars ['q']) caller =
      Resolver.discoverDirectory filesOfTest ⟨['p'], [], [], "/t".toList⟩ caller := by
  intro vars caller
  have hbeside : discover filesOfTest.probes ⟨['p'], [], [], []⟩ =
      .ok (.directory "p.runfiles".toList) := by rfl
  have htest : discover filesOfTest.probes ⟨['p'], [], [], "/t".toList⟩ =
      .ok (.directory "p.runfiles".toList) := by
    rfl
  have there : filesOfTest.probes.isDirectory "p.runfiles".toList := by decide
  obtain ⟨hfound, -, -⟩ := searches_agree filesOfTest.probes ⟨['p'], [], [], []⟩
  obtain ⟨hfoundTest, hgiven, hresolver⟩ :=
    searches_agree filesOfTest.probes ⟨['p'], [], [], "/t".toList⟩
  have hsources : discoverDirectory filesOfTest.probes ⟨['p'], [], [], "/t".toList⟩ =
      .ok "/t".toList :=
    hfoundTest _ htest there
  refine ⟨hbeside, hfound _ hbeside there, hsources, ?_, ?_⟩
  · exact (hgiven _ hsources).2.2 filesOfTest.probes ['q'] []
  · exact hresolver filesOfTest _ hsources vars ['q'] caller (by decide) (by decide)

end Location

end BazelRunfiles
