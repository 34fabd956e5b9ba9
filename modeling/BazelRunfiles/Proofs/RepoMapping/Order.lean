import BazelRunfiles.Proofs.Reordered
import BazelRunfiles.Proofs.RepoMapping.Lookup

/-!
The order of the lines of a repository mapping. A look-up is a scan for lines of one kind, and two
lines of one kind always conflict: lines for one source and one apparent name do, and so do lines
for sources that start alike where one start goes on from the other, since both can fit a source
only then. What a scan finds depends on the lines of its kind in their order
(`Reordered.filter_eq`), and so another order of the lines counts only where conflicting ones change
places. Lines for single sources and lines for sources that start alike even go to different tables.
-/

namespace BazelRunfiles

/-- Where a step changes what is seen of a state for some members only,
the others may be left out. -/
theorem view_foldl_filter {α β σ : Type} {step : σ → α → σ} {view : σ → β} {counts : α → Bool}
    (hstep : ∀ s s' x, view s = view s' →
      view (step s x) = if counts x then view (step s' x) else view s')
    (xs : List α) {s s' : σ} (h : view s = view s') :
    view (xs.foldl step s) = view ((xs.filter counts).foldl step s') := by
  induction xs generalizing s s' with
  | nil => exact h
  | cons x rest ih =>
    have hx := hstep s s' x h
    rw [List.foldl_cons, List.filter_cons]
    cases hc : counts x with
    | true =>
      rw [if_pos hc] at hx
      exact ih hx
    | false =>
      rw [if_neg (by simp [hc])] at hx
      exact ih hx

/-! ### Sizes of tables -/

namespace Table

variable {κ ν : Type} [DecidableEq κ] {s t : Table κ ν}

theorem mem_keys_iff {k : κ} : k ∈ t.rows.map Prod.fst ↔ (t.find? k).isSome := by
  constructor
  · intro hk
    by_contra hn
    exact notMem_keys_of_find?_eq_none (Option.not_isSome_iff_eq_none.mp hn) hk
  · intro h
    obtain ⟨v, hv⟩ := Option.isSome_iff_exists.mp h
    exact List.mem_map.mpr ⟨(k, v), mem_rows_iff_find?.mpr hv, rfl⟩

/-- Tables with the same keys are of the same size, in whatever order the keys were put. -/
theorem size_eq_of_find? (h : ∀ k, s.find? k = t.find? k) : s.size = t.size := by
  have hkeys : (s.rows.map Prod.fst).Perm (t.rows.map Prod.fst) := by
    rw [List.perm_ext_iff_of_nodup s.nodup_keys t.nodup_keys]
    intro k
    rw [mem_keys_iff, mem_keys_iff, h]
  simpa [size] using hkeys.length_eq

end Table

namespace RepoMapping

/-! ### Lines that conflict -/

namespace Entry

/-- Whether the order of two entries can count: they are for one source and one apparent name, or
for sources that start alike, where one start goes on from the other. -/
def Conflicts (e e' : Entry) : Prop :=
  e.apparent = e'.apparent ∧
    ((e.source.getLast? ≠ some '*' ∧ e.source = e'.source) ∨
      ∃ start start', e.source = start ++ ['*'] ∧ e'.source = start' ++ ['*'] ∧
        (start <+: start' ∨ start' <+: start))

/-- The canonical name that an entry puts under a key for sources that start alike. -/
def startingAt? (k : Key) (e : Entry) : Option Text :=
  (Text.stem? ['*'] e.source).bind fun start =>
    if ⟨start, e.apparent⟩ = k then some e.canonical else none

/-- Whether an entry is for all sources that start alike. -/
def isStarting (e : Entry) : Bool := e.source.getLast? = some '*'

end Entry

/-- Whether two lines have entries whose order can count. -/
def Conflict (x y : Text) : Prop := ∃ e e', Entry.Reads x e ∧ Entry.Reads y e' ∧ e.Conflicts e'

namespace Entry

variable {e e' : Entry} {source apparent : Text} {k : Key}

theorem isSome_exactly?_iff : (e.exactly? source apparent).isSome ↔
    e.source.getLast? ≠ some '*' ∧ e.source = source ∧ e.apparent = apparent := by
  rw [exactly?, ← stem?_asterisk_eq_none_iff]
  by_cases h : Text.stem? ['*'] e.source = none ∧ e.source = source ∧ e.apparent = apparent
  · rw [if_pos h]
    exact iff_of_true rfl h
  · rw [if_neg h]
    exact iff_of_false Bool.false_ne_true h

theorem isSome_startingWith?_iff : (e.startingWith? source apparent).isSome ↔
    e.apparent = apparent ∧ ∃ start, e.source = start ++ ['*'] ∧ start <+: source := by
  simp only [startingWith?, Option.isSome_iff_exists, Option.bind_eq_some_iff,
    Text.stem?_eq_some_iff, Option.ite_none_right_eq_some, Bool.and_eq_true, decide_eq_true_eq,
    List.isPrefixOf_iff_prefix]
  constructor
  · rintro ⟨-, start, hs, ⟨ha, hp⟩, -⟩
    exact ⟨ha, start, hs, hp⟩
  · rintro ⟨ha, start, hs, hp⟩
    exact ⟨_, start, hs, ⟨ha, hp⟩, rfl⟩

theorem isSome_startingAt?_iff : (e.startingAt? k).isSome ↔
    e.apparent = k.apparent ∧ e.source = k.source ++ ['*'] := by
  simp only [startingAt?, Option.isSome_iff_exists, Option.bind_eq_some_iff, Text.stem?_eq_some_iff,
    Option.ite_none_right_eq_some]
  constructor
  · rintro ⟨-, start, hs, rfl, -⟩
    exact ⟨rfl, hs⟩
  · rintro ⟨ha, hs⟩
    exact ⟨_, _, hs, by rw [ha], rfl⟩

theorem conflicts_of_exactly? (h : (e.exactly? source apparent).isSome)
    (h' : (e'.exactly? source apparent).isSome) : e.Conflicts e' := by
  obtain ⟨hn, hs, ha⟩ := isSome_exactly?_iff.mp h
  obtain ⟨-, hs', ha'⟩ := isSome_exactly?_iff.mp h'
  exact ⟨by rw [ha, ha'], .inl ⟨hn, by rw [hs, hs']⟩⟩

/-- Of two starts of one source one goes on from the other. -/
theorem conflicts_of_startingWith? (h : (e.startingWith? source apparent).isSome)
    (h' : (e'.startingWith? source apparent).isSome) : e.Conflicts e' := by
  obtain ⟨ha, start, hs, hp⟩ := isSome_startingWith?_iff.mp h
  obtain ⟨ha', start', hs', hp'⟩ := isSome_startingWith?_iff.mp h'
  exact ⟨by rw [ha, ha'], .inr ⟨start, start', hs, hs', List.prefix_or_prefix_of_prefix hp hp'⟩⟩

theorem conflicts_of_startingAt? (h : (e.startingAt? k).isSome) (h' : (e'.startingAt? k).isSome) :
    e.Conflicts e' := by
  obtain ⟨ha, hs⟩ := isSome_startingAt?_iff.mp h
  obtain ⟨ha', hs'⟩ := isSome_startingAt?_iff.mp h'
  exact ⟨by rw [ha, ha'], .inr ⟨k.source, k.source, hs, hs', .inl (List.prefix_refl _)⟩⟩

end Entry

instance (e e' : Entry) : Decidable (e.Conflicts e') :=
  decidable_of_iff (e.apparent = e'.apparent ∧
    ((e.source.getLast? ≠ some '*' ∧ e.source = e'.source) ∨
      ∃ start ∈ Text.stem? ['*'] e.source, ∃ start' ∈ Text.stem? ['*'] e'.source,
        start <+: start' ∨ start' <+: start))
    (by simp [Entry.Conflicts, Option.mem_def, Text.stem?_eq_some_iff])

instance (x y : Text) : Decidable (Conflict x y) :=
  decidable_of_iff (∃ e ∈ Entry.found? x, ∃ e' ∈ Entry.found? y, e.Conflicts e')
    (by simp [Conflict, Option.mem_def, Entry.found?_eq_some_iff])

/-- Lines conflict if their entries do. -/
theorem conflict_of_found? {f : Entry → Option Text}
    (hf : ∀ e e', (f e).isSome → (f e').isSome → e.Conflicts e') (x y : Text)
    (hx : ((Entry.found? x).bind f).isSome) (hy : ((Entry.found? y).bind f).isSome) :
    Conflict x y := by
  simp only [Option.isSome_iff_exists, Option.bind_eq_some_iff, Entry.found?_eq_some_iff] at hx hy
  obtain ⟨_, e, he, hx⟩ := hx
  obtain ⟨_, e', he', hy⟩ := hy
  exact ⟨e, e', he, he', hf e e' (by rw [hx]; rfl) (by rw [hy]; rfl)⟩

/-! ### Keys for sources that start alike -/

theorem find?_starting_add (m : RepoMapping) (e : Entry) (k : Key) :
    (m.add e).starting.find? k = (m.starting.find? k).or (e.startingAt? k) := by
  unfold add Entry.startingAt?
  split
  · next start h =>
    rw [h, Table.find?_insertNew]
    by_cases hk : k = ⟨start, e.apparent⟩
    · subst hk
      cases m.starting.find? ⟨start, e.apparent⟩ <;> simp
    · simp [hk, Ne.symm hk]
  · next h => rw [h, Option.bind_none, Option.or_none]

theorem find?_starting_foldl_add (entries : List Entry) (m : RepoMapping) (k : Key) :
    (entries.foldl add m).starting.find? k =
      (m.starting.find? k).or (entries.findSome? (Entry.startingAt? k)) := by
  induction entries generalizing m with
  | nil => exact (Option.or_none).symm
  | cons e rest ih =>
    rw [List.foldl_cons, ih, find?_starting_add, Option.or_assoc]
    cases h : e.startingAt? k <;> simp [h]

theorem find?_starting_of_ofLines {lines : List Text} {m : RepoMapping} (h : ofLines lines = .ok m)
    (k : Key) :
    m.starting.find? k =
      lines.findSome? fun line => (Entry.found? line).bind (Entry.startingAt? k) := by
  rw [(ofLines_eq_ok_iff.mp h).2, find?_starting_foldl_add, findSome?_filterMap]
  rfl

/-! ### Mappings from lines in another order -/

section

variable {xs ys : List Text} {m m' : RepoMapping}

theorem find?_exact_eq_of_reordered (h : Reordered Conflict xs ys) (hx : ofLines xs = .ok m)
    (hy : ofLines ys = .ok m') (k : Key) : m.exact.find? k = m'.exact.find? k := by
  rw [exact_of_ofLines hx, exact_of_ofLines hy]
  exact h.reverse_findSome?_eq (conflict_of_found? fun _ _ => Entry.conflicts_of_exactly?)

theorem find?_starting_eq_of_reordered (h : Reordered Conflict xs ys) (hx : ofLines xs = .ok m)
    (hy : ofLines ys = .ok m') (k : Key) : m.starting.find? k = m'.starting.find? k := by
  rw [find?_starting_of_ofLines hx, find?_starting_of_ofLines hy]
  exact h.findSome?_eq (conflict_of_found? fun _ _ => Entry.conflicts_of_startingAt?)

theorem startingWith?_eq_of_reordered (h : Reordered Conflict xs ys) (hx : ofLines xs = .ok m)
    (hy : ofLines ys = .ok m') (source apparent : Text) :
    m.startingWith? source apparent = m'.startingWith? source apparent := by
  rw [startingWith?_of_ofLines hx, startingWith?_of_ofLines hy]
  exact h.findSome?_eq (conflict_of_found? fun _ _ => Entry.conflicts_of_startingWith?)

end

/-! ### The two tables -/

/-- The entries of lines for single sources. -/
def exactEntries (lines : List Text) : List Entry :=
  (lines.filterMap Entry.found?).filter (!·.isStarting)

/-- The entries of lines for sources that start alike. -/
def startingEntries (lines : List Text) : List Entry :=
  (lines.filterMap Entry.found?).filter (·.isStarting)

theorem Entry.isStarting_eq (e : Entry) : e.isStarting = (Text.stem? ['*'] e.source).isSome := by
  rw [Bool.eq_iff_iff, Option.isSome_iff_ne_none, ne_eq, stem?_asterisk_eq_none_iff]
  simp [isStarting]

/-- An entry for sources that start alike leaves the table for single sources alone. -/
theorem exact_add_eq {m m' : RepoMapping} (e : Entry) (h : m.exact = m'.exact) :
    (m.add e).exact = if !e.isStarting then (m'.add e).exact else m'.exact := by
  rw [Entry.isStarting_eq, add, add]
  cases Text.stem? ['*'] e.source with
  | none => simp [h]
  | some start => exact h

/-- An entry for a single source leaves the table for sources that start alike alone. -/
theorem starting_add_eq {m m' : RepoMapping} (e : Entry) (h : m.starting = m'.starting) :
    (m.add e).starting = if e.isStarting then (m'.add e).starting else m'.starting := by
  rw [Entry.isStarting_eq, add, add]
  cases Text.stem? ['*'] e.source with
  | none => exact h
  | some start => simp [h]

theorem eq_of_tables_eq {m m' : RepoMapping} (hexact : m.exact = m'.exact)
    (hstarting : m.starting = m'.starting) : m = m' := by
  cases m
  cases m'
  cases hexact
  cases hstarting
  rfl

/-- Entries of the two kinds may be taken in any order among each other. -/
theorem foldl_add_eq_of_filter_eq {entries entries' : List Entry}
    (hexact : entries.filter (!·.isStarting) = entries'.filter (!·.isStarting))
    (hstarting : entries.filter (·.isStarting) = entries'.filter (·.isStarting)) (m : RepoMapping) :
    entries.foldl add m = entries'.foldl add m := by
  refine eq_of_tables_eq ?_ ?_
  · have hview := view_foldl_filter (fun _ _ e h => exact_add_eq e h)
    rw [hview entries rfl, hexact, ← hview entries' rfl]
  · have hview := view_foldl_filter (fun _ _ e h => starting_add_eq e h)
    rw [hview entries rfl, hstarting, ← hview entries' rfl]

/-- The order of the lines of a mapping matters only where conflicting lines change places:
otherwise the same names are found for all repositories, and the mapping is of the same size. In
particular lines for single sources and lines for sources that start alike may be moved past each
other; that does not even change the mapping. -/
theorem canonical?_of_reordered :
    (∀ xs ys, ¬ AnyOf Entry.Malformed xs → Reordered Conflict xs ys →
      ∃ m m', ofLines xs = .ok m ∧ ofLines ys = .ok m' ∧
        (∀ source apparent, m.canonical? source apparent = m'.canonical? source apparent) ∧
        m.size = m'.size) ∧
    ∀ xs ys, ¬ AnyOf Entry.Malformed xs → ¬ AnyOf Entry.Malformed ys →
      exactEntries xs = exactEntries ys → startingEntries xs = startingEntries ys →
        ∃ m, ofLines xs = .ok m ∧ ofLines ys = .ok m := by
  constructor
  · intro xs ys hwell h
    have hwell' : ¬ AnyOf Entry.Malformed ys := by
      rintro ⟨line, hline, rest, hm⟩
      exact hwell ⟨line, (h.mem_iff line).mpr hline, rest, hm⟩
    have hx := ofLines_eq_ok_iff.mpr ⟨hwell, rfl⟩
    have hy := ofLines_eq_ok_iff.mpr ⟨hwell', rfl⟩
    refine ⟨_, _, hx, hy, ?_, ?_⟩
    · intro source apparent
      rw [canonical?_eq, canonical?_eq, find?_exact_eq_of_reordered h hx hy,
        startingWith?_eq_of_reordered h hx hy]
    · rw [size, size, Table.size_eq_of_find? (find?_exact_eq_of_reordered h hx hy),
        Table.size_eq_of_find? (find?_starting_eq_of_reordered h hx hy)]
  · intro xs ys hwell hwell' hexact hstarting
    refine ⟨_, ofLines_eq_ok_iff.mpr ⟨hwell, rfl⟩, ofLines_eq_ok_iff.mpr ⟨hwell', ?_⟩⟩
    exact foldl_add_eq_of_filter_eq hexact hstarting empty

/-- Lines for one source and lines for sources that start alike. -/
def mixedLines : List Text :=
  ["e*,a,b\n".toList, "f,a,c\n".toList, "g*,a,d\n".toList, "f,a,\n".toList, "ef*,a,x\n".toList]

/-- The first line and the third change places, and both pass the second. -/
def movedLines : List Text :=
  ["g*,a,d\n".toList, "f,a,c\n".toList, "e*,a,b\n".toList, "f,a,\n".toList, "ef*,a,x\n".toList]

/-- Where the lines go. -/
def movedPlaces : Fin mixedLines.length ≃ Fin movedLines.length :=
  (finCongr (by rfl : mixedLines.length = 5)).trans
    ((Equiv.swap 0 2).trans (finCongr (by rfl : 5 = movedLines.length)))

/-- The lines of the two kinds apart. -/
def sortedLines : List Text :=
  ["f,a,c\n".toList, "f,a,\n".toList, "e*,a,b\n".toList, "g*,a,d\n".toList, "ef*,a,x\n".toList]

/-- Neither of the two lines that change places conflicts with a line that it passes. -/
theorem canonical?_of_movedLines :
    Reordered Conflict mixedLines movedLines ∧
      (∃ m m', ofLines mixedLines = .ok m ∧ ofLines movedLines = .ok m' ∧
        m.canonical? "ef".toList ['a'] = some ['b'] ∧ m'.canonical? "ef".toList ['a'] = some ['b'] ∧
        m.canonical? ['f'] ['a'] = some [] ∧ m'.canonical? ['f'] ['a'] = some [] ∧
        m.size = 4 ∧ m'.size = 4) ∧
      ∃ m, ofLines mixedLines = .ok m ∧ ofLines sortedLines = .ok m := by
  have moved : Reordered Conflict mixedLines movedLines :=
    ⟨movedPlaces, by decide +kernel, by decide +kernel⟩
  have hmixed : ¬ AnyOf Entry.Malformed mixedLines := by
    rw [← exists_ofLines_eq_error_iff]
    rintro ⟨e, ⟨⟩⟩
  have hsorted : ¬ AnyOf Entry.Malformed sortedLines := by
    rw [← exists_ofLines_eq_error_iff]
    rintro ⟨e, ⟨⟩⟩
  obtain ⟨hreordered, happart⟩ := canonical?_of_reordered
  obtain ⟨m, m', hx, hy, hsame, hsize⟩ := hreordered _ _ hmixed moved
  refine ⟨moved, ⟨m, m', hx, hy, ?_⟩, ?_⟩
  · rw [← hsame, ← hsame, ← hsize]
    cases hx
    decide +kernel
  · exact happart _ _ hmixed hsorted (by decide +kernel) (by decide +kernel)

end RepoMapping

end BazelRunfiles
