import BazelRunfiles.Manifest
import BazelRunfiles.Proofs.Manifest.Line
import BazelRunfiles.Proofs.Scan

/-!
Looking up a path in a manifest. The search cuts the path back from slash to slash;
`searched_locateInside?` carries through it that no longer directory with an entry has been passed
over, and `locate?_cases` says what is found: the location of the longest runfile path that serves
the path. A manifest read from lines has for each runfile path what the last line for it says, so a
look-up is a scan of the lines.
-/

namespace BazelRunfiles

namespace Manifest

variable {m : Manifest} {key path : Text}

/-! ### What serves a path -/

/-- Whether an entry for `key` serves a path: it is for the path itself, or for what the path has
before one of its slashes other than a slash in front. -/
def Serves (key path : Text) : Prop :=
  key = path ∨ ∃ i, 0 < i ∧ path[i]? = some '/' ∧ key = path.take i

theorem serves_iff :
    Serves key path ↔ key = path ∨ (key ≠ [] ∧ ∃ rest, path = key ++ '/' :: rest) := by
  refine or_congr_right ⟨?_, ?_⟩
  · rintro ⟨i, hi, hs, rfl⟩
    obtain ⟨hlt, hc⟩ := List.getElem?_eq_some_iff.mp hs
    refine ⟨List.ne_nil_of_length_pos (by rw [List.length_take]; omega), path.drop (i + 1), ?_⟩
    rw [← hc, ← List.drop_eq_getElem_cons hlt, List.take_append_drop]
  · rintro ⟨hk, rest, rfl⟩
    exact ⟨key.length, List.length_pos_iff.mpr hk, by simp, by simp⟩

theorem eq_nil_of_serves_nil (h : Serves [] path) : path = [] := by
  rcases serves_iff.mp h with h | ⟨h, -⟩
  · exact h.symm
  · exact absurd rfl h

/-- Behind a runfile path that serves a path there is nothing, or a slash. -/
theorem Serves.drop_eq (h : Serves key path) :
    path.drop key.length = if key = path then [] else '/' :: path.drop (key.length + 1) := by
  rcases serves_iff.mp h with rfl | ⟨-, rest, rfl⟩
  · simp
  · simp [List.drop_append]

/-- The location of a path is that of the runfile path that serves it,
with what the path has behind. -/
theorem Serves.append_drop (h : Serves key path) (value : Text) :
    value ++ path.drop key.length =
      if key = path then value else value ++ '/' :: path.drop (key.length + 1) := by
  rw [h.drop_eq]
  split
  · exact List.append_nil value
  · rfl

theorem Serves.prefix (h : Serves key path) : key <+: path := by
  rcases serves_iff.mp h with rfl | ⟨-, rest, rfl⟩
  · exact List.prefix_rfl
  · exact List.prefix_append _ _

/-- The runfile path whose entry counts for a path: the longest that has an entry and serves it. -/
structure IsBest (m : Manifest) (path key : Text) : Prop where
  serves : Serves key path
  listed : (m.find? key).isSome
  longest : ∀ k, Serves k path → (m.find? k).isSome → k.length ≤ key.length

theorem IsBest.unique {key' : Text} (h : IsBest m path key) (h' : IsBest m path key') :
    key = key' := by
  have hl : key.length = key'.length :=
    Nat.le_antisymm (h'.longest _ h.serves h.listed) (h.longest _ h'.serves h'.listed)
  have hprefix : key <+: key' :=
    List.prefix_of_prefix_length_le h.serves.prefix h'.serves.prefix (Nat.le_of_eq hl)
  exact hprefix.eq_of_length hl

/-! ### The search -/

/-- A directory around a text, and what the text has behind it. -/
def Around (key before rest : Text) : Prop := key ≠ [] ∧ before = key ++ '/' :: rest

/-- The directories around a text with one more character: the text itself if that is a slash, and
those that were around it before. -/
theorem around_concat_iff {before rest : Text} {c : Char} :
    Around key (before ++ [c]) rest ↔
      (c = '/' ∧ before ≠ [] ∧ key = before ∧ rest = []) ∨
        ∃ r, rest = r ++ [c] ∧ Around key before r := by
  refine ⟨?_, ?_⟩
  · rintro ⟨hk, h⟩
    obtain rfl | ⟨r, d, rfl⟩ := List.eq_nil_or_concat rest
    · obtain ⟨rfl, hc⟩ := List.append_inj' h rfl
      exact .inl ⟨by simpa using hc, hk, rfl, rfl⟩
    · rw [List.concat_eq_append, ← List.cons_append, ← List.append_assoc] at h
      obtain ⟨hb, hc⟩ := List.append_inj' h rfl
      obtain rfl : c = d := by simpa using hc
      exact .inr ⟨r, List.concat_eq_append, hk, hb⟩
  · rintro (⟨rfl, hb, rfl, rfl⟩ | ⟨r, rfl, hk, rfl⟩)
    · exact ⟨hb, rfl⟩
    · exact ⟨hk, by simp⟩

/-- What a search in the directories around `before` ends with, where `behind` follows: the longest
one that has an entry, or nothing if there is none. -/
inductive Searched (m : Manifest) (before behind : Text) : Option Text → Prop where
  | found {key rest location : Text} : Around key before rest → m.find? key = some location →
      (∀ k r, Around k before r → (m.find? k).isSome → k.length ≤ key.length) →
      Searched m before behind (some (location ++ '/' :: (rest ++ behind)))
  | missed : (∀ k r, Around k before r → m.find? k = none) → Searched m before behind none

theorem Searched.hit {before location : Text} (hb : before ≠ [])
    (h : m.find? before = some location) (behind : Text) :
    Searched m (before ++ ['/']) behind (some (location ++ '/' :: behind)) := by
  refine .found (⟨hb, rfl⟩ : Around before _ []) h fun k r hk _ => ?_
  rcases around_concat_iff.mp hk with ⟨-, -, rfl, -⟩ | ⟨r, -, -, rfl⟩
  · exact Nat.le_refl _
  · rw [List.length_append]
    omega

/-- A character is passed over unless what stands before it is a directory with an entry. -/
theorem Searched.skip {before behind : Text} {c : Char} {found? : Option Text}
    (hc : c = '/' → before ≠ [] → m.find? before = none)
    (h : Searched m before (c :: behind) found?) : Searched m (before ++ [c]) behind found? := by
  cases h with
  | @found key rest location ha hf hl =>
    have hr : rest ++ c :: behind = (rest ++ [c]) ++ behind := by simp
    rw [hr]
    refine .found (around_concat_iff.mpr (.inr ⟨rest, rfl, ha⟩)) hf fun k r hk hs => ?_
    rcases around_concat_iff.mp hk with ⟨hslash, hb, rfl, -⟩ | ⟨r, -, hk⟩
    · rw [hc hslash hb] at hs
      cases hs
    · exact hl k r hk hs
  | missed hm =>
    refine .missed fun k r hk => ?_
    rcases around_concat_iff.mp hk with ⟨hslash, hb, rfl, -⟩ | ⟨r, -, hk⟩
    · exact hc hslash hb
    · exact hm k r hk

/-- The search passes over no directory with an entry. -/
theorem searched_locateInside? (m : Manifest) (back behind : Text) :
    Searched m back.reverse behind (m.locateInside? back behind) := by
  induction back generalizing behind with
  | nil => exact .missed fun k r h => by simp [Around] at h
  | cons c back ih =>
    rw [List.reverse_cons, locateInside?]
    split
    · next hc =>
      subst hc
      split
      · next hb =>
        -- a slash in front has no directory before it
        subst hb
        exact .skip (fun _ h => absurd rfl h) (ih ('/' :: behind))
      · next hb =>
        cases hf : m.find? back.reverse with
        | some location => exact .hit (by simpa using hb) hf behind
        | none => exact .skip (fun _ _ => hf) (ih ('/' :: behind))
    · next hc => exact .skip (fun h => absurd h hc) (ih (c :: behind))

/-- A look-up gives the location of the longest runfile path that serves the path, with what the
path has behind it, or nothing if there is none. -/
theorem locate?_cases (m : Manifest) (path : Text) :
    (∃ key location, IsBest m path key ∧ m.find? key = some location ∧
      m.locate? path = some (location ++ path.drop key.length)) ∨
    ((∀ k, Serves k path → m.find? k = none) ∧ m.locate? path = none) := by
  unfold locate?
  cases hp : m.find? path with
  | some location =>
    refine .inl ⟨path, location, ⟨.inl rfl, by simp [hp], ?_⟩, hp, by simp⟩
    exact fun k hk _ => hk.prefix.length_le
  | none =>
    have hs := searched_locateInside? m path.reverse []
    rw [List.reverse_reverse] at hs
    have around {k : Text} (hk : Serves k path) (hn : (m.find? k).isSome) :
        ∃ r, Around k path r := by
      rcases serves_iff.mp hk with rfl | ⟨hk, r, hr⟩
      · rw [hp] at hn
        cases hn
      · exact ⟨r, hk, hr⟩
    generalize m.locateInside? path.reverse [] = found? at hs
    cases hs with
    | @found key rest location ha hf hl =>
      obtain ⟨hk, rfl⟩ := ha
      refine .inl ⟨key, location, ⟨serves_iff.mpr (.inr ⟨hk, rest, rfl⟩), by simp [hf], ?_⟩,
        hf, by simp⟩
      intro k hs hn
      obtain ⟨r, hr⟩ := around hs hn
      exact hl k r hr hn
    | missed hm =>
      refine .inr ⟨fun k hk => ?_, rfl⟩
      by_cases hn : (m.find? k).isSome
      · obtain ⟨r, hr⟩ := around hk hn
        exact hm k r hr
      · simpa using hn

theorem locate?_eq_some_iff {location : Text} :
    m.locate? path = some location ↔
      ∃ key value, IsBest m path key ∧ m.find? key = some value ∧
        location = value ++ path.drop key.length := by
  refine ⟨?_, ?_⟩
  · intro h
    rcases locate?_cases m path with ⟨key, value, hb, hv, hl⟩ | ⟨-, hn⟩
    · rw [hl, Option.some.injEq] at h
      exact ⟨key, value, hb, hv, h.symm⟩
    · rw [hn] at h
      cases h
  · rintro ⟨key, value, hb, hv, rfl⟩
    rcases locate?_cases m path with ⟨key', value', hb', hv', hl⟩ | ⟨hn, -⟩
    · obtain rfl := hb.unique hb'
      rw [hv, Option.some.injEq] at hv'
      rw [hl, hv']
    · rw [hn key hb.serves] at hv
      cases hv

theorem locate?_eq_none_iff : m.locate? path = none ↔ ∀ k, Serves k path → m.find? k = none := by
  refine ⟨?_, ?_⟩
  · intro h
    rcases locate?_cases m path with ⟨key, value, -, -, hl⟩ | ⟨hn, -⟩
    · rw [hl] at h
      cases h
    · exact hn
  · intro h
    rcases locate?_cases m path with ⟨key, value, hb, hv, -⟩ | ⟨-, hn⟩
    · rw [h key hb.serves] at hv
      cases hv
    · exact hn

/-! ### Manifests read from lines -/

/-- Whether a line has a runfile path, and with which location. -/
def LineGives (key : Text) (line value : Text) : Prop := Entry.Reads line ⟨key, value⟩

/-- The location that a line has for a runfile path. -/
def lineValue? (key line : Text) : Option Text :=
  (Entry.ofLine? line).bind fun e => if e.key = key then some e.value else none

theorem lineValue?_eq_some_iff (line value : Text) :
    lineValue? key line = some value ↔ LineGives key line value := by
  rw [LineGives, ← Entry.ofLine?_eq_some_iff, lineValue?, Option.bind_eq_some_iff]
  refine ⟨?_, ?_⟩
  · rintro ⟨⟨k, v⟩, hl, hv⟩
    obtain ⟨rfl, rfl⟩ : k = key ∧ v = value := by simpa using hv
    exact hl
  · intro hl
    exact ⟨_, hl, by simp⟩

theorem find?_ofLines (lines : List Text) (key : Text) :
    (ofLines lines).find? key = lines.reverse.findSome? (lineValue? key) := by
  rw [ofLines, ofEntries, Table.find?_foldl_insert, Table.find?_empty, Option.or_none,
    ← List.filterMap_reverse, findSome?_filterMap]
  rfl

theorem find?_ofLines_eq_some_iff {lines : List Text} {value : Text} :
    (ofLines lines).find? key = some value ↔ LastOf (LineGives key) lines value := by
  rw [find?_ofLines, reverse_findSome?_eq_some_iff_lastOf lineValue?_eq_some_iff]

theorem find?_ofLines_eq_none_iff {lines : List Text} :
    (ofLines lines).find? key = none ↔ ¬ AnyOf (LineGives key) lines := by
  rw [find?_ofLines, findSome?_eq_none_iff_not_anyOf lineValue?_eq_some_iff]
  simp [AnyOf]

theorem isSome_find?_ofLines_iff {lines : List Text} :
    ((ofLines lines).find? key).isSome ↔ AnyOf (LineGives key) lines := by
  rw [← Option.ne_none_iff_isSome, ne_eq, find?_ofLines_eq_none_iff, Classical.not_not]

/-- The longest runfile path of the lines that serves a path. -/
structure IsLongestKey (lines : List Text) (path key : Text) : Prop where
  serves : Serves key path
  given : AnyOf (LineGives key) lines
  longest : ∀ k, Serves k path → AnyOf (LineGives k) lines → k.length ≤ key.length

theorem isBest_ofLines_iff {lines : List Text} :
    IsBest (ofLines lines) path key ↔ IsLongestKey lines path key := by
  refine ⟨?_, ?_⟩
  · rintro ⟨hs, hl, hm⟩
    exact ⟨hs, isSome_find?_ofLines_iff.mp hl,
      fun k hk hg => hm k hk (isSome_find?_ofLines_iff.mpr hg)⟩
  · rintro ⟨hs, hg, hm⟩
    exact ⟨hs, isSome_find?_ofLines_iff.mpr hg,
      fun k hk hl => hm k hk (isSome_find?_ofLines_iff.mp hl)⟩

/-- A look-up in a manifest is a scan of its lines: it finds the longest runfile path
that serves the path, and for it the location in the last line that has it. An empty
runfile path serves only itself. -/
theorem locate?_ofLines (lines : List Text) (path : Text) :
    (∀ location, (ofLines lines).locate? path = some location ↔
      ∃ key value, IsLongestKey lines path key ∧ LastOf (LineGives key) lines value ∧
        location = if key = path then value else value ++ '/' :: path.drop (key.length + 1)) ∧
    ((ofLines lines).locate? path = none ↔ ∀ key, Serves key path → ¬ AnyOf (LineGives key) lines) ∧
    (path = [] ∨ ¬ IsLongestKey lines path []) := by
  refine ⟨fun location => ?_, ?_, ?_⟩
  · simp only [locate?_eq_some_iff, isBest_ofLines_iff, find?_ofLines_eq_some_iff]
    refine ⟨?_, ?_⟩
    · rintro ⟨key, value, hk, hv, rfl⟩
      exact ⟨key, value, hk, hv, hk.serves.append_drop value⟩
    · rintro ⟨key, value, hk, hv, rfl⟩
      exact ⟨key, value, hk, hv, (hk.serves.append_drop value).symm⟩
  · simp only [locate?_eq_none_iff, find?_ofLines_eq_none_iff]
  · by_cases hp : path = []
    · exact .inl hp
    · exact .inr fun h => hp (eq_nil_of_serves_nil h.serves)

/-- The inner directory counts, and for that the line that comes last; the
empty path serves nothing else. -/
example :
    let m := ofLines ["a /x\n".toList, "a/b /y\n".toList, " a/b /z\r\n".toList, "  /w\n".toList]
    m.locate? "a/b//c".toList = some "/z//c".toList ∧ m.locate? "/c".toList = none ∧
      m.locate? [] = some "/w".toList := by
  decide

end Manifest

end BazelRunfiles
