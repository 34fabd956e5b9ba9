import BazelRunfiles.Proofs.Confinement
import BazelRunfiles.Proofs.Manifest.Lookup
import BazelRunfiles.Proofs.Manifest.RoundTrip

/-!
Manifests that list a directory. Such a manifest has an entry for each of some runfile paths, and
leads it to where the directory has it. An entry also serves the paths below its own, and gives them
what the directory gives them, since the root stands in front of both: whichever entry the search
ends at, cutting a path in two and gluing it together again leaves it as it was. So the manifest and
the directory agree on every path that some entry serves, and the manifest has no other.
-/

namespace BazelRunfiles

namespace Manifest

variable {root key path : Text} {keys : List Text}

namespace Entry

/-- The entry that leads a runfile path to where a directory has it. -/
def below (root key : Text) : Entry := ⟨key, root ++ '/' :: key⟩

theorem located_below (root key : Text) : (below root key).located = below root key := by
  simp [located, below]

/-- Behind the last slash of such an entry there is the end of the runfile path. -/
theorem isRepresentable_below (hk : key ≠ []) (hr : key.getLast? ≠ some '\r') (root : Text) :
    (below root key).IsRepresentable := by
  refine ⟨.inl ?_, .inl hk⟩
  obtain ⟨c, rest, rfl⟩ := List.exists_cons_of_ne_nil hk
  simpa [below] using hr

end Entry

/-- A manifest that lists runfile paths of a directory, as it is written and read again. -/
def listing (root : Text) (keys : List Text) : Manifest :=
  ofLines (render (keys.map (Entry.below root))).lines

/-- Whether a runfile path can be listed. -/
def CanList (key : Text) : Prop := key ≠ [] ∧ key.getLast? ≠ some '\r'

instance (key : Text) : Decidable (CanList key) := inferInstanceAs (Decidable (_ ∧ _))

theorem listing_eq_ofEntries (h : ∀ k ∈ keys, CanList k) (root : Text) :
    listing root keys = ofEntries (keys.map (Entry.below root)) := by
  have hread : (keys.map (Entry.below root)).filterMap (fun e => Entry.ofLine? e.line) =
      (keys.map (Entry.below root)).filterMap some := by
    refine List.filterMap_congr fun e he => ?_
    obtain ⟨k, hk, rfl⟩ := List.mem_map.mp he
    rw [Entry.ofLine?_line_iff.mpr (Entry.isRepresentable_below (h k hk).1 (h k hk).2 root),
      Entry.located_below]
  rw [listing, ofLines_lines_render, hread, List.filterMap_some]

theorem find?_listing (h : ∀ k ∈ keys, CanList k) (root key : Text) :
    (listing root keys).find? key = if key ∈ keys then some (root ++ '/' :: key) else none := by
  rw [listing_eq_ofEntries h, ofEntries, Table.find?_foldl_insert, Table.find?_empty,
    Option.or_none]
  cases hf : (keys.map (Entry.below root)).reverse.findSome? fun e =>
      if e.key = key then some e.value else none with
  | none =>
    have hn : key ∉ keys := by
      intro hk
      have he : Entry.below root key ∈ (keys.map (Entry.below root)).reverse :=
        List.mem_reverse.mpr (List.mem_map_of_mem hk)
      simpa [Entry.below] using List.findSome?_eq_none_iff.mp hf _ he
    rw [if_neg hn]
  | some value =>
    obtain ⟨e, he, hv⟩ := List.exists_of_findSome?_eq_some hf
    obtain ⟨k, hk, rfl⟩ := List.mem_map.mp (List.mem_reverse.mp he)
    rw [Option.ite_none_right_eq_some, Option.some.injEq] at hv
    obtain ⟨rfl, rfl⟩ := hv
    exact (if_pos hk).symm

/-- A listing leads each path that it serves to where the directory has it, by whichever entry. -/
theorem locate?_listing (h : ∀ k ∈ keys, CanList k) (root path : Text) :
    ((∃ k ∈ keys, Serves k path) → (listing root keys).locate? path = some (root ++ '/' :: path)) ∧
      ((¬ ∃ k ∈ keys, Serves k path) → (listing root keys).locate? path = none) := by
  rcases locate?_cases (listing root keys) path with ⟨key, value, hb, hv, hl⟩ | ⟨hn, hl⟩
  · rw [find?_listing h, Option.ite_none_right_eq_some, Option.some.injEq] at hv
    obtain ⟨hk, rfl⟩ := hv
    have hglued : root ++ '/' :: key ++ path.drop key.length = root ++ '/' :: path := by
      rw [List.append_assoc, List.cons_append, List.prefix_iff_eq_append.mp hb.serves.prefix]
    refine ⟨fun _ => by rw [hl, hglued], fun hs => absurd ⟨key, hk, hb.serves⟩ hs⟩
  · refine ⟨?_, fun _ => hl⟩
    rintro ⟨k, hk, hs⟩
    have := hn k hs
    rw [find?_listing h, if_pos hk] at this
    cases this

theorem serves_iff_of_ne_nil (hk : key ≠ []) :
    Serves key path ↔ path = key ∨ key ++ ['/'] <+: path := by
  rw [serves_iff]
  refine or_congr eq_comm ?_
  refine ⟨?_, ?_⟩
  · rintro ⟨-, rest, rfl⟩
    exact ⟨rest, by simp⟩
  · rintro ⟨rest, rfl⟩
    exact ⟨hk, rest, by simp⟩

end Manifest

namespace Resolver

open Manifest (CanList listing)

/-- A resolver with a manifest that lists a directory, and the one with that directory. Where
a path is not looked up at all they agree; elsewhere the directory has every path below its
root, and the manifest has the same location for a path that is listed or lies below one that
is, and none for any other. -/
theorem find?_listing_and_directory {keys : List Text} (canList : ∀ k ∈ keys, CanList k)
    (root file : Text) (mapping : RepoMapping) (source : Text) (platform : Platform) (path : Text)
    (source? : Option Text) :
    let listed : Resolver := ⟨.manifest file (listing root keys), mapping, source⟩
    let stored : Resolver := ⟨.directory root, mapping, source⟩
    let target := mapping.apply (source?.getD source) path
    (¬ Path.isAdmissible path ∨ Path.isAbsolute platform path →
      listed.find? platform path source? = stored.find? platform path source?) ∧
    (Path.isAdmissible path → ¬ Path.isAbsolute platform path →
      stored.find? platform path source? = some (root ++ '/' :: target) ∧
      ((∃ k ∈ keys, target = k ∨ k ++ ['/'] <+: target) →
        listed.find? platform path source? = some (root ++ '/' :: target)) ∧
      ((¬ ∃ k ∈ keys, target = k ∨ k ++ ['/'] <+: target) →
        listed.find? platform path source? = none)) ∧
    ∀ location, listed.find? platform path source? = some location →
      stored.find? platform path source? = some location := by
  intro listed stored target
  have hserves : (∃ k ∈ keys, target = k ∨ k ++ ['/'] <+: target) ↔
      ∃ k ∈ keys, Manifest.Serves k target :=
    exists_congr fun k => and_congr_right fun hk =>
      (Manifest.serves_iff_of_ne_nil (canList k hk).1).symm
  obtain ⟨hhit, hmiss⟩ := Manifest.locate?_listing canList root target
  have hskip (h : ¬ Path.isAdmissible path ∨ Path.isAbsolute platform path) :
      listed.find? platform path source? = stored.find? platform path source? := by
    rcases h with h | h
    · simp [find?, h]
    · simp [find?, h]
  have hlisted (ha : Path.isAdmissible path) (hr : ¬ Path.isAbsolute platform path) :
      listed.find? platform path source? = (listing root keys).locate? target :=
    find?_of_checked listed source? ha hr
  have hstored (ha : Path.isAdmissible path) (hr : ¬ Path.isAbsolute platform path) :
      stored.find? platform path source? = some (root ++ '/' :: target) :=
    find?_of_checked stored source? ha hr
  refine ⟨hskip, fun ha hr => ⟨hstored ha hr, ?_, ?_⟩, fun location hl => ?_⟩
  · rw [hserves, hlisted ha hr]
    exact hhit
  · rw [hserves, hlisted ha hr]
    exact hmiss
  · by_cases h : ¬ Path.isAdmissible path ∨ Path.isAbsolute platform path
    · rwa [← hskip h]
    · rw [not_or, not_not] at h
      rw [hlisted h.1 h.2] at hl
      by_cases hs : ∃ k ∈ keys, Manifest.Serves k target
      · rw [hhit hs] at hl
        rw [hstored h.1 h.2, hl]
      · rw [hmiss hs] at hl
        cases hl

/-- Runfile paths inside one another, with a space, a newline and a backslash; a path that lies
below two of them once its repository is mapped, and one that only starts like one of them. -/
theorem find?_of_nested_listing :
    let keys := ["c+v".toList, "c+v/b c\n\\".toList]
    let listed : Resolver :=
      ⟨.manifest "m".toList (listing "/r".toList keys), twoRepositories.mapping, []⟩
    (∀ k ∈ keys, CanList k) ∧
      listed.find? .posix "a/b c\n\\/d".toList none = some "/r/c+v/b c\n\\/d".toList ∧
      listed.find? .posix "c+vw/d".toList none = none := by
  intro keys listed
  have hk : ∀ k ∈ keys, CanList k := by decide
  have agree (path : Text) := find?_listing_and_directory hk "/r".toList "m".toList
    twoRepositories.mapping [] .posix path none
  refine ⟨hk, ?_, ?_⟩
  · obtain ⟨-, hfound, -⟩ := (agree "a/b c\n\\/d".toList).2.1 (by decide) (by decide)
    exact hfound ⟨"c+v".toList, by decide, .inr (by decide)⟩
  · obtain ⟨-, -, hmissed⟩ := (agree "c+vw/d".toList).2.1 (by decide) (by decide)
    exact hmissed (by decide)

end Resolver

end BazelRunfiles
