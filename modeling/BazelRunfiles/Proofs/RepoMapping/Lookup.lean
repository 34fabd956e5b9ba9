import BazelRunfiles.Proofs.RepoMapping.Line
import BazelRunfiles.Proofs.Scan

/-!
Looking up a repository in a mapping. An entry is added to one of two tables: for a single source it
replaces what is there, and for sources that start alike it is left out if its key is there.
`exact_add` and `startingWith?_add` say what one entry adds to a look-up, and the folds carry that
through all lines: the last line for the very source counts, and after those the first line for
sources that start alike, although a repeated one is not kept.
-/

namespace BazelRunfiles

namespace RepoMapping

variable {source apparent canonical line : Text}

/-! ### One entry -/

namespace Entry

/-- The canonical name that an entry has for a single source. -/
def exactly? (source apparent : Text) (e : Entry) : Option Text :=
  if Text.stem? ['*'] e.source = none ∧ e.source = source ∧ e.apparent = apparent then
    some e.canonical
  else none

/-- The canonical name that an entry has for a source that starts with
the text before its asterisk. -/
def startingWith? (source apparent : Text) (e : Entry) : Option Text :=
  (Text.stem? ['*'] e.source).bind fun start =>
    if e.apparent = apparent && start.isPrefixOf source then some e.canonical else none

theorem stem?_asterisk_eq_none_iff {t : Text} :
    Text.stem? ['*'] t = none ↔ t.getLast? ≠ some '*' := by
  simp only [Option.eq_none_iff_forall_ne_some, ne_eq, Text.stem?_eq_some_iff,
    List.getLast?_eq_some_iff, not_exists]

end Entry

/-- The canonical name by the first entry for sources that start alike. -/
def startingWith? (m : RepoMapping) (source apparent : Text) : Option Text :=
  m.starting.rows.findSome? fun row =>
    if row.1.apparent = apparent && row.1.source.isPrefixOf source then some row.2 else none

theorem canonical?_eq (m : RepoMapping) (source apparent : Text) :
    m.canonical? source apparent =
      (m.exact.find? ⟨source, apparent⟩).or (m.startingWith? source apparent) := rfl

/-- An entry for a single source hides the ones before it. -/
theorem exact_add (m : RepoMapping) (e : Entry) (source apparent : Text) :
    (m.add e).exact.find? ⟨source, apparent⟩ =
      (e.exactly? source apparent).or (m.exact.find? ⟨source, apparent⟩) := by
  unfold add Entry.exactly?
  split
  · next start h => simp [h]
  · next h =>
    rw [Table.find?_insert]
    by_cases hk : e.source = source ∧ e.apparent = apparent
    · obtain ⟨rfl, rfl⟩ := hk
      simp [h]
    · have hne : (⟨source, apparent⟩ : Key) ≠ ⟨e.source, e.apparent⟩ := by
        rintro ⟨⟩
        exact hk ⟨rfl, rfl⟩
      rw [if_neg hne, if_neg fun hc => hk hc.2, Option.none_or]

/-- An entry for sources that start alike counts after the ones before
it, also when it is left out. -/
theorem startingWith?_add (m : RepoMapping) (e : Entry) (source apparent : Text) :
    (m.add e).startingWith? source apparent =
      (m.startingWith? source apparent).or (e.startingWith? source apparent) := by
  unfold add Entry.startingWith?
  split
  · next start h =>
    rw [h]
    exact Table.findSome?_rows_insertNew m.starting ⟨start, e.apparent⟩ e.canonical fun k =>
      k.apparent = apparent && k.source.isPrefixOf source
  · next h => rw [h, Option.bind_none, Option.or_none]; rfl

/-! ### All entries -/

theorem exact_foldl_add (entries : List Entry) (m : RepoMapping) (source apparent : Text) :
    (entries.foldl add m).exact.find? ⟨source, apparent⟩ =
      (entries.reverse.findSome? (Entry.exactly? source apparent)).or
        (m.exact.find? ⟨source, apparent⟩) := by
  induction entries generalizing m with
  | nil => rfl
  | cons e rest ih =>
    rw [List.foldl_cons, ih, exact_add, List.reverse_cons, List.findSome?_append, Option.or_assoc]
    simp

theorem startingWith?_foldl_add (entries : List Entry) (m : RepoMapping) (source apparent : Text) :
    (entries.foldl add m).startingWith? source apparent =
      (m.startingWith? source apparent).or
        (entries.findSome? (Entry.startingWith? source apparent)) := by
  induction entries generalizing m with
  | nil => exact (Option.or_none).symm
  | cons e rest ih =>
    rw [List.foldl_cons, ih, startingWith?_add, Option.or_assoc]
    cases h : e.startingWith? source apparent <;> simp [h]

/-- Reading stops at the first malformed line; without one, all entries are added in their order. -/
theorem addLines_eq (m : RepoMapping) (lines : List Text) :
    m.addLines lines =
      match lines.findSome? Entry.malformed? with
      | some rest => .error (.malformedMapping rest)
      | none => .ok ((lines.filterMap Entry.found?).foldl add m) := by
  induction lines generalizing m with
  | nil => rfl
  | cons line rest ih =>
    rw [addLines, List.findSome?_cons, List.filterMap_cons]
    rcases Entry.line_cases line with hb | ⟨e, he⟩ | ⟨left, hm⟩
    · simp [Entry.malformed?, Entry.found?, Entry.ofLine_of_body_eq_nil hb, ih]
    · simp [Entry.malformed?, Entry.found?, Entry.ofLine_of_reads he, ih]
    · simp [Entry.malformed?, Entry.ofLine_of_malformed hm]

/-! ### Scans of lines -/

/-- Whether a line is for the very source, and with which canonical name. -/
def ExactGives (source apparent line canonical : Text) : Prop :=
  Entry.Reads line ⟨source, apparent, canonical⟩ ∧ source.getLast? ≠ some '*'

/-- Whether a line is for all sources that start with a text with which the source starts,
and with which canonical name. -/
def StartGives (source apparent line canonical : Text) : Prop :=
  ∃ start, Entry.Reads line ⟨start ++ ['*'], apparent, canonical⟩ ∧ start <+: source

theorem bind_exactly?_eq_some_iff (line canonical : Text) :
    ((Entry.found? line).bind (Entry.exactly? source apparent)) = some canonical ↔
      ExactGives source apparent line canonical := by
  simp only [Option.bind_eq_some_iff, Entry.found?_eq_some_iff, Entry.exactly?, ExactGives,
    ← Entry.stem?_asterisk_eq_none_iff, Option.ite_none_right_eq_some, Option.some.injEq]
  refine ⟨?_, ?_⟩
  · rintro ⟨e, he, ⟨hs, rfl, rfl⟩, rfl⟩
    exact ⟨he, hs⟩
  · rintro ⟨he, hs⟩
    exact ⟨_, he, ⟨hs, rfl, rfl⟩, rfl⟩

theorem bind_startingWith?_eq_some_iff (line canonical : Text) :
    ((Entry.found? line).bind (Entry.startingWith? source apparent)) = some canonical ↔
      StartGives source apparent line canonical := by
  simp only [Option.bind_eq_some_iff, Entry.found?_eq_some_iff, Entry.startingWith?, StartGives,
    Text.stem?_eq_some_iff, Option.ite_none_right_eq_some, Option.some.injEq, Bool.and_eq_true,
    decide_eq_true_eq, List.isPrefixOf_iff_prefix]
  refine ⟨?_, ?_⟩
  · rintro ⟨⟨s, a, c⟩, he, start, rfl, ⟨rfl, hp⟩, rfl⟩
    exact ⟨start, he, hp⟩
  · rintro ⟨start, he, hp⟩
    exact ⟨_, he, start, rfl, ⟨rfl, hp⟩, rfl⟩

variable {lines : List Text} {m : RepoMapping}

theorem ofLines_eq_error_iff {e : Error} :
    ofLines lines = .error e ↔
      ∃ rest, FirstOf Entry.Malformed lines rest ∧ e = .malformedMapping rest := by
  simp only [← findSome?_eq_some_iff_firstOf Entry.malformed?_eq_some_iff]
  rw [ofLines, addLines_eq]
  cases lines.findSome? Entry.malformed? with
  | none => simp
  | some rest => simp [eq_comm]

theorem ofLines_eq_ok_iff :
    ofLines lines = .ok m ↔
      ¬ AnyOf Entry.Malformed lines ∧ m = (lines.filterMap Entry.found?).foldl add empty := by
  rw [← findSome?_eq_none_iff_not_anyOf Entry.malformed?_eq_some_iff, ofLines, addLines_eq]
  cases lines.findSome? Entry.malformed? with
  | none => simp [eq_comm]
  | some rest => simp

theorem exact_of_ofLines (h : ofLines lines = .ok m) (source apparent : Text) :
    m.exact.find? ⟨source, apparent⟩ =
      lines.reverse.findSome? fun line =>
        (Entry.found? line).bind (Entry.exactly? source apparent) := by
  rw [(ofLines_eq_ok_iff.mp h).2, exact_foldl_add, ← List.filterMap_reverse, findSome?_filterMap]
  exact Option.or_none

theorem startingWith?_of_ofLines (h : ofLines lines = .ok m) (source apparent : Text) :
    m.startingWith? source apparent =
      lines.findSome? fun line =>
        (Entry.found? line).bind (Entry.startingWith? source apparent) := by
  rw [(ofLines_eq_ok_iff.mp h).2, startingWith?_foldl_add, findSome?_filterMap]
  rfl

theorem exists_ofLines_eq_error_iff :
    (∃ e, ofLines lines = .error e) ↔ AnyOf Entry.Malformed lines := by
  refine ⟨?_, ?_⟩
  · rintro ⟨e, h⟩
    obtain ⟨rest, ⟨before, line, after, rfl, hm, -⟩, -⟩ := ofLines_eq_error_iff.mp h
    exact ⟨line, by simp, rest, hm⟩
  · intro h
    cases hl : ofLines lines with
    | ok m => exact absurd h (ofLines_eq_ok_iff.mp hl).1
    | error e => exact ⟨e, rfl⟩

theorem find?_exact_eq_some_iff (h : ofLines lines = .ok m) :
    m.exact.find? ⟨source, apparent⟩ = some canonical ↔
      LastOf (ExactGives source apparent) lines canonical := by
  rw [exact_of_ofLines h, reverse_findSome?_eq_some_iff_lastOf bind_exactly?_eq_some_iff]

theorem find?_exact_eq_none_iff (h : ofLines lines = .ok m) :
    m.exact.find? ⟨source, apparent⟩ = none ↔ ¬ AnyOf (ExactGives source apparent) lines := by
  rw [exact_of_ofLines h, findSome?_eq_none_iff_not_anyOf bind_exactly?_eq_some_iff]
  simp [AnyOf]

theorem startingWith?_eq_some_iff (h : ofLines lines = .ok m) :
    m.startingWith? source apparent = some canonical ↔
      FirstOf (StartGives source apparent) lines canonical := by
  rw [startingWith?_of_ofLines h, findSome?_eq_some_iff_firstOf bind_startingWith?_eq_some_iff]

theorem startingWith?_eq_none_iff (h : ofLines lines = .ok m) :
    m.startingWith? source apparent = none ↔ ¬ AnyOf (StartGives source apparent) lines := by
  rw [startingWith?_of_ofLines h, findSome?_eq_none_iff_not_anyOf bind_startingWith?_eq_some_iff]

/-- Reading a mapping and looking a name up in it is a scan of the lines. Reading fails if some line
is malformed, with what is left of the first such line. Otherwise the last line for the very source
counts, or else the first line for sources that start alike, also if its canonical name is empty. -/
theorem canonical?_ofLines (lines : List Text) :
    ((∃ e, ofLines lines = .error e) ↔ AnyOf Entry.Malformed lines) ∧
    (∀ e, ofLines lines = .error e ↔
      ∃ rest, FirstOf Entry.Malformed lines rest ∧ e = .malformedMapping rest) ∧
    ∀ m, ofLines lines = .ok m → ∀ source apparent,
      (∀ canonical, m.canonical? source apparent = some canonical ↔
        LastOf (ExactGives source apparent) lines canonical ∨
          (¬ AnyOf (ExactGives source apparent) lines ∧
            FirstOf (StartGives source apparent) lines canonical)) ∧
      (m.canonical? source apparent = none ↔
        ¬ AnyOf (ExactGives source apparent) lines ∧
          ¬ AnyOf (StartGives source apparent) lines) := by
  refine ⟨exists_ofLines_eq_error_iff, fun e => ofLines_eq_error_iff,
    fun m h source apparent => ⟨?_, ?_⟩⟩
  · intro canonical
    rw [canonical?_eq, Option.or_eq_some_iff, find?_exact_eq_some_iff h, find?_exact_eq_none_iff h,
      startingWith?_eq_some_iff h]
  · rw [canonical?_eq, Option.or_eq_none_iff, find?_exact_eq_none_iff h,
      startingWith?_eq_none_iff h]

/-- Lines for sources that start alike, one of them repeated, and a
line for one of these sources. -/
def overlappingLines : List Text :=
  ["e+*,a,b\n".toList, "e+*,a,c\r\n".toList, "e*,a,d\n".toList, "e+f,a,\n".toList]

theorem canonical?_of_overlappingLines :
    ∃ m, ofLines overlappingLines = .ok m ∧ m.canonical? "e+f".toList ['a'] = some [] ∧
      m.canonical? "e+g".toList ['a'] = some ['b'] ∧
      (LastOf (ExactGives "e+f".toList ['a']) overlappingLines [] ∨
        (¬ AnyOf (ExactGives "e+f".toList ['a']) overlappingLines ∧
          FirstOf (StartGives "e+f".toList ['a']) overlappingLines [])) := by
  obtain ⟨m, h⟩ : ∃ m, ofLines overlappingLines = .ok m := ⟨_, rfl⟩
  have hf : m.canonical? "e+f".toList ['a'] = some [] := by
    cases h
    decide
  have hg : m.canonical? "e+g".toList ['a'] = some ['b'] := by
    cases h
    decide
  exact ⟨m, h, hf, hg, (((canonical?_ofLines _).2.2 m h _ _).1 _).mp hf⟩

end RepoMapping

end BazelRunfiles
