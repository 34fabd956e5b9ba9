import BazelRunfiles.Manifest
import BazelRunfiles.Proofs.Manifest.Field
import BazelRunfiles.Proofs.Manifest.Line
import Mathlib.Data.List.Basic

/-!
Writing a manifest and reading it again. Every entry is written as one line, so the round trip
of a manifest is that of its entries. A single entry comes back unless one of two things
happens to it: a carriage return at the end of its location is taken for a part of the line's
end, or an empty runfile path leaves the line with a space in front, which is taken for the
mark of an escaped line. `IsRepresentable` says when neither does any harm; `ofLine?_line_iff`
shows that this is the exact condition.
-/

namespace BazelRunfiles

namespace Manifest

namespace Entry

variable {e : Entry}

/-! ### One line -/

/-- The line that holds an entry, without its newline. -/
def text (e : Entry) : Text :=
  if e.mustEscape then ' ' :: Field.key.escape e.key ++ ' ' :: Field.value.escape e.value
  else e.key ++ ' ' :: e.value

theorem line_eq (e : Entry) : e.line = e.text ++ ['\n'] := by
  unfold line text
  split <;> simp

theorem mustEscape_iff :
    e.mustEscape ↔
      (' ' ∈ e.key ∨ '\n' ∈ e.key ∨ '\\' ∈ e.key) ∨ '\n' ∈ e.value ∨ '\\' ∈ e.value := by
  rw [mustEscape, Bool.or_eq_true, Field.mustEscape_key_iff, Field.mustEscape_value_iff]

theorem newline_notMem_text (e : Entry) : '\n' ∉ e.text := by
  unfold text
  split
  · have hk := Field.newline_notMem_escape .key e.key
    have hv := Field.newline_notMem_escape .value e.value
    simp [hk, hv]
  · next h =>
    rw [mustEscape_iff] at h
    simp only [not_or] at h
    simp [h.1.2.1, h.2.1]

/-- Behind the dividing space there is nothing, or the end of the location. -/
theorem getLast?_of_getLast?_text (h : e.text.getLast? = some '\r') :
    e.value.getLast? = some '\r' := by
  have last {before after : Text} (h : (before ++ ' ' :: after).getLast? = some '\r') :
      after.getLast? = some '\r' := by
    rw [List.getLast?_append, List.getLast?_cons, Option.some_or, Option.some.injEq] at h
    cases ha : after.getLast? with
    | none => rw [ha] at h; exact absurd h (by decide)
    | some c => rw [ha] at h; exact congrArg some h
  unfold text at h
  split at h
  · exact Field.getLast?_of_getLast?_escape rfl (last h)
  · exact last h

theorem mustEscape_concat_carriageReturn (key value : Text) :
    mustEscape ⟨key, value ++ ['\r']⟩ = mustEscape ⟨key, value⟩ := by
  simp [mustEscape, Field.mustEscape, Field.letter?]

/-- A carriage return at the end of a location stands at the end of the line. -/
theorem text_concat_carriageReturn (key value : Text) :
    text ⟨key, value ++ ['\r']⟩ = text ⟨key, value⟩ ++ ['\r'] := by
  unfold text
  rw [mustEscape_concat_carriageReturn]
  split
  · simp [Field.escape_concat (f := .value) (c := '\r') rfl]
  · simp

/-- An entry as the end of its line leaves it: without a carriage return
at the end of its location. -/
def clipped (e : Entry) : Entry :=
  if e.value.getLast? = some '\r' then { e with value := e.value.dropLast } else e

/-- The location of an entry ends in a carriage return, or it does not. -/
theorem carriageReturn_cases (e : Entry) :
    (∃ key value, e = ⟨key, value ++ ['\r']⟩) ∨ e.value.getLast? ≠ some '\r' := by
  obtain ⟨key, value⟩ := e
  by_cases h : value.getLast? = some '\r'
  · obtain ⟨value, rfl⟩ := List.getLast?_eq_some_iff.mp h
    exact .inl ⟨key, value, rfl⟩
  · exact .inr h

theorem clipped_of_concat (key value : Text) : clipped ⟨key, value ++ ['\r']⟩ = ⟨key, value⟩ := by
  simp [clipped]

theorem clipped_of_ne (h : e.value.getLast? ≠ some '\r') : e.clipped = e := if_neg h

theorem clipped_key : e.clipped.key = e.key := by
  unfold clipped
  split <;> rfl

theorem mustEscape_clipped : e.clipped.mustEscape = e.mustEscape := by
  rcases e.carriageReturn_cases with ⟨key, value, rfl⟩ | h
  · rw [clipped_of_concat, mustEscape_concat_carriageReturn]
  · rw [clipped_of_ne h]

theorem length_clipped_le (e : Entry) : e.clipped.value.length ≤ e.value.length := by
  unfold clipped
  split
  · simp
  · exact Nat.le_refl _

theorem body_line (e : Entry) : body e.line = e.clipped.text := by
  rw [line_eq, body_eq_iff]
  rcases e.carriageReturn_cases with ⟨key, value, rfl⟩ | h
  · rw [clipped_of_concat, text_concat_carriageReturn, List.append_assoc]
    exact .carriageReturn 1 _
  · rw [clipped_of_ne h]
    refine .plain 1 fun c hc => ⟨?_, ?_⟩
    · rintro rfl
      exact newline_notMem_text _ (List.mem_of_getLast? hc)
    · rintro rfl
      exact h (getLast?_of_getLast?_text hc)

/-- A line that is divided by the space that was put there holds the entry. -/
theorem ofBody?_text (h : e.key ≠ [] ∨ e.mustEscape) : ofBody? e.text = some e.located := by
  obtain ⟨key, value⟩ := e
  unfold text
  split
  · have hk := Field.space_notMem_escape_key key
    simp [ofBody?, Text.cut_append_cons hk, Field.unescape_escape]
  · next hm =>
    have hs : ' ' ∉ key := fun hs => hm (mustEscape_iff.mpr (.inl (.inl hs)))
    cases key with
    | nil => simp_all
    | cons c key =>
      have hc : c ≠ ' ' := by rintro rfl; simp at hs
      have hcut := Text.cut_append_cons hs value
      simp only [List.cons_append] at hcut ⊢
      simp [ofBody?, hc, hcut]

/-- The space behind an empty runfile path marks the line as escaped,
and the location is divided. -/
theorem ofBody?_text_of_bare (hk : e.key = []) (hm : ¬ e.mustEscape) :
    ofBody? e.text = some (located ⟨(e.value.cut ' ').1, (e.value.cut ' ').2⟩) := by
  obtain ⟨key, value⟩ := e
  obtain rfl : key = [] := hk
  have hb : '\\' ∉ value := fun hb => hm (mustEscape_iff.mpr (.inr (.inr hb)))
  have h1 : '\\' ∉ (value.cut ' ').1 := fun h => hb ((List.takeWhile_prefix _).subset h)
  have h2 : '\\' ∉ (value.cut ' ').2 :=
    fun h => hb ((List.dropWhile_suffix _).subset (List.mem_of_mem_tail h))
  simp [text, hm, ofBody?, Field.unescape_of_notMem h1, Field.unescape_of_notMem h2]

/-! ### Which entries come back -/

/-- Whether an entry survives being written. Its location ends in no carriage return, unless the
runfile path is the same lone carriage return; and an empty runfile path has no location of its own,
unless the location makes the line an escaped one anyway. -/
def IsRepresentable (e : Entry) : Prop :=
  (e.value.getLast? ≠ some '\r' ∨ (e.key = ['\r'] ∧ e.value = ['\r'])) ∧
    (e.key ≠ [] ∨ e.value = [] ∨ '\n' ∈ e.value ∨ '\\' ∈ e.value)

instance (e : Entry) : Decidable e.IsRepresentable := inferInstanceAs (Decidable (_ ∧ _))

theorem located_key (e : Entry) : e.located.key = e.key := by
  unfold located
  split <;> rfl

theorem located_of_key_nil (value : Text) : located ⟨[], value⟩ = ⟨[], value⟩ := by
  cases value <;> rfl

/-- Dropping a carriage return changes an entry, unless the runfile path takes its place. -/
theorem located_clipped_iff :
    e.clipped.located = e.located ↔
      e.value.getLast? ≠ some '\r' ∨ (e.key = ['\r'] ∧ e.value = ['\r']) := by
  rcases e.carriageReturn_cases with ⟨key, value, rfl⟩ | h
  · rw [clipped_of_concat]
    cases value with
    | nil => simp [located]
    | cons c rest =>
      have hr : (c :: rest ++ ['\r']).getLast? = some '\r' := List.getLast?_concat
      simpa [located] using hr
  · rw [clipped_of_ne h]
    simp [h]

/-- What stands behind a space is shorter than the whole, so a location that is divided is lost. -/
theorem eq_nil_of_located_cut {t value : Text} (hl : t.length ≤ value.length)
    (h : located ⟨(t.cut ' ').1, (t.cut ' ').2⟩ = ⟨[], value⟩) : value = [] := by
  have hk : (t.cut ' ').1 = [] := (located_key _).symm.trans (congrArg Entry.key h)
  rw [hk, located_of_key_nil] at h
  have hv : (t.cut ' ').2 = value := congrArg Entry.value h
  have hlt := Text.length_cut_le ' ' t
  rw [hv] at hlt
  exact List.length_eq_zero_iff.mp (by omega)

/-- An entry is read from its own line exactly if it is representable. -/
theorem ofLine?_line_iff : ofLine? e.line = some e.located ↔ e.IsRepresentable := by
  rw [ofLine?, body_line, IsRepresentable]
  by_cases h : e.key ≠ [] ∨ e.mustEscape
  · have hc : e.clipped.key ≠ [] ∨ e.clipped.mustEscape := by
      rwa [clipped_key, mustEscape_clipped]
    have hstart : e.key ≠ [] ∨ e.value = [] ∨ '\n' ∈ e.value ∨ '\\' ∈ e.value := by
      rcases h with h | h
      · exact .inl h
      · rw [mustEscape_iff] at h
        by_cases hk : e.key = []
        · simp only [hk, List.not_mem_nil, or_self, false_or] at h
          exact .inr (.inr h)
        · exact .inl hk
    rw [ofBody?_text hc, Option.some.injEq, located_clipped_iff, and_iff_left hstart]
  · -- without a runfile path and unescaped, the line is taken for an escaped one
    obtain ⟨hk, hm⟩ := not_or.mp h
    rw [Decidable.not_not] at hk
    rw [ofBody?_text_of_bare (clipped_key.trans hk) (by rwa [mustEscape_clipped]),
      Option.some.injEq]
    obtain ⟨key, value⟩ := e
    obtain rfl : key = [] := hk
    rw [mustEscape_iff] at hm
    simp only [not_or] at hm
    rw [located_of_key_nil]
    refine ⟨?_, ?_⟩
    · intro heq
      obtain rfl := eq_nil_of_located_cut (length_clipped_le _) heq
      simp
    · rintro ⟨-, hv⟩
      obtain rfl : value = [] := by simpa [hm.2.1, hm.2.2] using hv
      rfl

end Entry

/-! ### Whole manifests -/

theorem lines_render (entries : List Entry) : (render entries).lines = entries.map Entry.line := by
  induction entries with
  | nil => rfl
  | cons e rest ih =>
    have hn := Text.lines_append_newline e.newline_notMem_text (render rest)
    have hr : render (e :: rest) = e.text ++ '\n' :: render rest := by
      simp [render, Entry.line_eq]
    rw [hr, hn, ih, List.map_cons, Entry.line_eq]

theorem ofLines_lines_render (entries : List Entry) :
    ofLines (render entries).lines =
      ofEntries (entries.filterMap fun e => Entry.ofLine? e.line) := by
  rw [ofLines, lines_render, List.filterMap_map]
  rfl

theorem find?_ofEntries_singleton (e : Entry) (path : Text) :
    (ofEntries [e]).find? path = if path = e.key then some e.value else none := by
  simp [ofEntries]

/-- Two entries that differ make manifests that differ, and so do an entry and none. -/
theorem exists_find?_ne {found? : Option Entry} {e : Entry} (h : found? ≠ some e) :
    ∃ path, (ofEntries found?.toList).find? path ≠ (ofEntries [e]).find? path := by
  refine ⟨e.key, ?_⟩
  rw [find?_ofEntries_singleton, if_pos rfl]
  cases found? with
  | none => simp [ofEntries]
  | some found =>
    rw [Option.toList_some, find?_ofEntries_singleton]
    split
    · next hk =>
      intro hv
      obtain ⟨key, value⟩ := found
      obtain ⟨key', value'⟩ := e
      simp_all
    · simp

/-- A manifest that is written and read again holds what was written, the last entry for a path and
for an entry without a location its path, if all entries are representable; and an entry that is not
representable never comes back. -/
theorem render_round_trip :
    (∀ entries : List Entry, (∀ e ∈ entries, e.IsRepresentable) →
      ofLines (render entries).lines = ofEntries (entries.map Entry.located)) ∧
    ∀ e : Entry, ¬ e.IsRepresentable →
      ∃ path, (ofLines (render [e]).lines).find? path ≠ (ofEntries [e.located]).find? path := by
  refine ⟨?_, ?_⟩
  · intro entries h
    have hread : entries.filterMap (fun e => Entry.ofLine? e.line) =
        entries.filterMap (some ∘ Entry.located) :=
      List.filterMap_congr fun e he => Entry.ofLine?_line_iff.mpr (h e he)
    rw [ofLines_lines_render, hread, List.filterMap_eq_map]
  · intro e h
    have hl := exists_find?_ne (mt Entry.ofLine?_line_iff.mp h)
    have hs : [e].filterMap (fun e => Entry.ofLine? e.line) = (Entry.ofLine? e.line).toList := by
      cases he : Entry.ofLine? e.line <;> simp [he]
    rwa [ofLines_lines_render, hs]

/-- Entries that need care: a space and a backslash, a newline without a runfile
path, a lone carriage return, and a path that is given again without a location. A
location without a path is lost. -/
theorem round_trip_of_awkward_entries :
    let entries : List Entry :=
      [⟨"a b", "c\\s"⟩, ⟨[], "x\ny"⟩, ⟨['\r'], ['\r']⟩, ⟨"a b", []⟩]
    (∀ e ∈ entries, e.IsRepresentable) ∧
      (ofLines (render entries).lines).rows =
        [("a b".toList, "a b".toList), ([], "x\ny".toList), (['\r'], ['\r'])] ∧
      ¬ Entry.IsRepresentable ⟨[], "v"⟩ ∧
      ∃ path, (ofLines (render [⟨[], "v"⟩]).lines).find? path ≠
        (ofEntries [Entry.located ⟨[], "v"⟩]).find? path := by
  intro entries
  have hr : ∀ e ∈ entries, e.IsRepresentable := by decide
  have hn : ¬ Entry.IsRepresentable ⟨[], "v"⟩ := by decide
  refine ⟨hr, ?_, hn, render_round_trip.2 _ hn⟩
  rw [render_round_trip.1 entries hr]
  rfl

end Manifest

end BazelRunfiles
