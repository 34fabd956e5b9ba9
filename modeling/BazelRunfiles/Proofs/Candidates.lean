import BazelRunfiles.Location
import BazelRunfiles.Proofs.Path.Enclosing

/-!
The directories among which the search for a runfiles directory decides. The search asks one
question after the other and ends with the first directory it is told of;
`discoverDirectory_eq_find?` lists in advance what it asks about. The list needs the target of one
link, that of the program, and goes by the texts of the names alone.
-/

namespace BazelRunfiles

namespace Location

/-- The directory next to a program, and the ones around it that end like a runfiles
directory, innermost first. -/
def candidatesAround (program : Text) : List Text :=
  (program ++ ".runfiles".toList) ::
    (Path.beforeSlashes program).filter (".runfiles".toList.isSuffixOf ·)

/-- The target of a program that is a link; a relative one is seen from
the directory of the program. -/
def seenFrom (program target : Text) : Text :=
  let directory := Path.directory program
  if ['/'] <+: target then target
  else if directory = [] ∨ ['/'] <:+ directory then directory ++ target
  else directory ++ ['/'] ++ target

/-- What is given, unless it is empty; then what there is around the program, and
around the target of its link. -/
def candidates (hints : Hints) (target? : Option Text) : List Text :=
  [hints.runfilesDir, hints.testSrcdir].filter (· ≠ []) ++
    if hints.program = [] then []
    else candidatesAround hints.program ++
      match target?.filter (· ≠ []) with
      | some target => candidatesAround (seenFrom hints.program target)
      | none => []

theorem find?_given (isDirectory : Text → Bool) (runfilesDir testSrcdir : Text) :
    ([runfilesDir, testSrcdir].filter (· ≠ [])).find? isDirectory =
      if runfilesDir ≠ [] ∧ isDirectory runfilesDir then some runfilesDir
      else if testSrcdir ≠ [] ∧ isDirectory testSrcdir then some testSrcdir else none := by
  rw [List.find?_filter, List.find?_cons, List.find?_cons, List.find?_nil]
  by_cases hr : runfilesDir ≠ [] ∧ isDirectory runfilesDir <;>
    by_cases ht : testSrcdir ≠ [] ∧ isDirectory testSrcdir <;> simp [hr, ht]

/-- A name that ends like a runfiles directory does not end in a slash. -/
theorem ne_slash_of_directoryEnding {d : Text} (h : ".runfiles".toList.isSuffixOf d) :
    d ≠ [] ∧ d.getLast? ≠ some '/' := by
  obtain ⟨stem, rfl⟩ := List.isSuffixOf_iff_suffix.mp h
  simp

/-- The search around a program finds the first candidate that is there. -/
theorem around_eq_find? (isDirectory : Text → Bool) (program : Text) :
    around isDirectory program = (candidatesAround program).find? isDirectory := by
  have hwalk := Path.find?_enclosing
    (fun d => ".runfiles".toList.isSuffixOf d && isDirectory d)
    (fun d hd => ne_slash_of_directoryEnding (Bool.and_eq_true_iff.mp hd).1) program
  have hbeside : directoryBeside program = program ++ ".runfiles".toList := rfl
  have hending : Manifest.directoryEnding.toList = ".runfiles".toList := rfl
  rw [around, Path.findUpwards?_eq_find?, ← Path.enclosing, hending, hwalk, hbeside,
    candidatesAround, List.find?_cons, List.find?_filter]
  simp only [Bool.decide_and, Bool.decide_eq_true]
  cases isDirectory (program ++ ".runfiles".toList) <;> rfl

theorem join_directory (program target : Text) :
    Path.join (Path.directory program) target = seenFrom program target := by
  have habsolute : ['/'] <+: target ↔ target.head? = some '/' := by
    cases target <;> simp [eq_comm]
  have hends : ['/'] <:+ Path.directory program ↔ (Path.directory program).getLast? = some '/' := by
    rw [List.getLast?_eq_some_iff]
    exact exists_congr fun start => eq_comm
  simp only [Path.join, seenFrom, habsolute, hends, List.append_assoc, List.singleton_append]

/-- The search for a runfiles directory finds the first candidate that is a directory, and
fails exactly if none is. The walk upwards that it takes from a name comes to an end,
whatever slashes the name has. -/
theorem discoverDirectory_eq_find? (isFile isDirectory : Text → Bool) (target? : Text → Option Text)
    (hints : Hints) :
    (discoverDirectory ⟨isFile, isDirectory, fun name => .ok (target? name)⟩ hints =
      match (candidates hints (target? hints.program)).find? isDirectory with
      | some root => .ok root
      | none => .error (.noDirectory hints.program)) ∧
    ∀ name, ∃ n ≤ name.length,
      Path.directory (Path.directory^[n] name) = Path.directory^[n] name := by
  refine ⟨?_, Path.exists_iterate_directory_eq⟩
  rw [candidates, List.find?_append, find?_given, discoverDirectory]
  split
  · rfl
  split
  · rfl
  split
  · rfl
  rw [List.find?_append, ← around_eq_find?]
  cases around isDirectory hints.program with
  | some found => rfl
  | none =>
    -- only the link is left
    simp only [aroundTarget, Except.map, Option.none_or]
    cases (target? hints.program).filter (· ≠ []) with
    | none => rfl
    | some target =>
      simp only [Option.bind_some, around_eq_find?, join_directory]
      cases (candidatesAround (seenFrom hints.program target)).find? isDirectory <;> rfl

end Location

end BazelRunfiles
