import BazelRunfiles.Text

/-!
Paths as texts: segments between slashes, the tests that a path must pass before it is looked
up, the directory part and the directories above it, and joining. `directory_prefix_self`
drives the walk upwards: a directory part is never longer, so a walk ends at an empty part or
at one that is its own. A long name is cut from its end, so a search upwards reads it once,
spelled from the end; `findUpwards?_eq_find?` says that the search finds the first of the
names that the walk comes through.
-/

namespace BazelRunfiles

/-- The family of systems whose file names a program deals with. -/
inductive Platform where
  | posix
  | windows
  deriving DecidableEq, Repr

namespace Path

/-- The texts between slashes; one more than there are slashes. -/
def segments (p : Text) : List Text := p.splitOn '/'

/-- Segments with slashes between them. -/
def ofSegments (parts : List Text) : Text := List.intercalate ['/'] parts

theorem ofSegments_segments (p : Text) : ofSegments (segments p) = p :=
  List.intercalate_splitOn '/'

/-- Texts with which no runfile path starts. -/
def badStarts : List String := ["../", "./", "\\"]

/-- Texts that no runfile path holds. -/
def badParts : List String := ["/../", "/./", "//"]

/-- Texts with which no runfile path ends. -/
def badEnds : List String := ["/..", "/."]

/-- Whether a path may be looked up: it is not empty, starts with no backslash, and has no dot
segment and no empty segment inside. One slash in front and one at the end are let through. -/
def isAdmissible (p : Text) : Bool :=
  p ≠ [] && p ≠ ['.'] && p ≠ ['.', '.']
    && !badStarts.any (fun s => s.toList.isPrefixOf p)
    && !badParts.any (fun s => Text.includes s.toList p)
    && !badEnds.any (fun s => s.toList.isSuffixOf p)

/-- Whether a path starts with a drive: a letter of the English
alphabet, a colon and a separator. -/
def hasDrive : Text → Bool
  | letter :: ':' :: sep :: _ => letter.isAlpha && (sep = '/' || sep = '\\')
  | _ => false

/-- Whether a path already is a file name of its own. -/
def isAbsolute (platform : Platform) (p : Text) : Bool :=
  p.head? = some '/' || (platform = .windows && hasDrive p)

/-- The directory part of a name; both are spelled from the end. -/
def directoryBackwards (back : Text) : Text :=
  let rest := back.dropWhile (· != '/')
  if rest.all (· = '/') then rest else rest.dropWhile (· = '/')

theorem directoryBackwards_suffix_self (back : Text) : directoryBackwards back <:+ back := by
  have h : back.dropWhile (· != '/') <:+ back := List.dropWhile_suffix _
  simp only [directoryBackwards]
  split
  · exact h
  · exact (List.dropWhile_suffix _).trans h

/-- Only a name without any parts is its own directory part. -/
theorem directoryBackwards_eq_self_iff {back : Text} :
    directoryBackwards back = back ↔ back.all (· = '/') := by
  cases back with
  | nil => simp [directoryBackwards]
  | cons c rest =>
    by_cases hc : c = '/'
    · subst hc
      simp only [directoryBackwards]
      split
      · next h => simpa using h
      · next h =>
        have := (List.dropWhile_suffix (l := rest) (· = '/')).length_le
        refine ⟨?_, ?_⟩
        · intro heq
          have := congrArg List.length heq
          simp at this
          omega
        · intro hall
          simp_all
    · have := (List.dropWhile_suffix (l := rest) (· != '/')).length_le
      have hle := (List.dropWhile_suffix (l := rest.dropWhile (· != '/')) (· = '/')).length_le
      refine ⟨?_, ?_⟩
      · intro heq
        have := congrArg List.length heq
        simp only [directoryBackwards] at this
        split at this <;> simp [hc] at this <;> omega
      · simp [hc]

/-- The text before the last slash, without the slashes at its end unless there is nothing else. -/
def directory (p : Text) : Text := (directoryBackwards p.reverse).reverse

theorem directory_prefix_self (p : Text) : directory p <+: p := by
  simpa [directory] using List.reverse_prefix.mpr (directoryBackwards_suffix_self p.reverse)

theorem directory_eq_self_iff {p : Text} : directory p = p ↔ p.all (· = '/') := by
  rw [directory, List.reverse_eq_iff, directoryBackwards_eq_self_iff, List.all_reverse]

theorem length_directory_lt {p : Text} (h : directory p ≠ p) : (directory p).length < p.length := by
  have hle := (directory_prefix_self p).length_le
  have hne : (directory p).length ≠ p.length :=
    fun heq => h ((directory_prefix_self p).eq_of_length heq)
  omega

/-- A directory name and the names above it, innermost first. -/
def upwards (d : Text) : List Text :=
  if d = [] then []
  else if _h : directory d = d then [d]
  else d :: upwards (directory d)
termination_by d.length
decreasing_by exact length_directory_lt _h

/-- The directories around a file name, innermost first. -/
def enclosing (p : Text) : List Text := upwards (directory p)

/-- The first name with an ending that passes a test, from a name upwards. That name and the
ending are spelled from the end. -/
def findBackwards? (ending : Text) (test : Text → Bool) (back : Text) : Option Text :=
  if back = [] then none
  else if ending.isPrefixOf back && test back.reverse then some back.reverse
  else if _h : back.all (· = '/') then none
  else findBackwards? ending test (directoryBackwards back)
termination_by back.length
decreasing_by
  have hne := mt directoryBackwards_eq_self_iff.mp _h
  have hs := directoryBackwards_suffix_self back
  exact Nat.lt_of_le_of_ne hs.length_le fun h => hne (hs.eq_of_length h)

/-- The first directory name with an ending that passes a test, from `d` upwards. -/
def findUpwards? (ending : Text) (test : Text → Bool) (d : Text) : Option Text :=
  findBackwards? ending.reverse test d.reverse

theorem findUpwards?_of_ne_nil {ending : Text} {test : Text → Bool} {d : Text} (h : d ≠ []) :
    findUpwards? ending test d =
      if ending.isSuffixOf d && test d then some d
      else if directory d = d then none
      else findUpwards? ending test (directory d) := by
  simp only [directory_eq_self_iff]
  rw [findUpwards?, findBackwards?]
  simp [h, List.isSuffixOf, findUpwards?, directory]

theorem findUpwards?_eq_find? (ending : Text) (test : Text → Bool) (d : Text) :
    findUpwards? ending test d = (upwards d).find? fun name =>
      ending.isSuffixOf name && test name := by
  fun_induction upwards d with
  | case1 => simp [findUpwards?, findBackwards?]
  | case2 d hd h =>
    rw [findUpwards?_of_ne_nil hd, List.find?_cons]
    cases ending.isSuffixOf d && test d <;> simp [h]
  | case3 d hd h ih =>
    rw [findUpwards?_of_ne_nil hd, List.find?_cons]
    cases ending.isSuffixOf d && test d <;> simp [h, ih]

/-- A name as seen from a directory; an absolute name stays as it is. -/
def join (base p : Text) : Text :=
  if p.head? = some '/' then p
  else if base = [] ∨ base.getLast? = some '/' then base ++ p
  else base ++ '/' :: p

end Path

end BazelRunfiles
