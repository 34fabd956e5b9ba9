import BazelRunfiles.RepoMapping
import Mathlib.Data.List.Basic

/-!
The lines of a repository mapping as a grammar. `Leaves` says what is left of a line once its end is
stripped; what is left is nothing, three fields between two commas (`Reads`), or `Malformed`.
-/

namespace BazelRunfiles

namespace RepoMapping

namespace Entry

/-- What is left of a line: all carriage returns and newlines at its end go. -/
def Leaves (line rest : Text) : Prop :=
  ∃ tail, line = rest ++ tail ∧ (∀ c ∈ tail, c = '\r' ∨ c = '\n') ∧
    ∀ c ∈ rest.getLast?, c ≠ '\r' ∧ c ≠ '\n'

theorem body_eq_iff {line rest : Text} : body line = rest ↔ Leaves line rest := by
  simp [body, Text.trimEnd_eq_iff, Leaves]

/-- The entry that a line holds: its fields stand between two commas. -/
def Reads (line : Text) (e : Entry) : Prop :=
  Leaves line (e.source ++ ',' :: (e.apparent ++ ',' :: e.canonical)) ∧
    ',' ∉ e.source ∧ ',' ∉ e.apparent ∧ ',' ∉ e.canonical

/-- What is left of a line that holds no entry although something is left: it has not two commas. -/
def Malformed (line rest : Text) : Prop := Leaves line rest ∧ rest ≠ [] ∧ rest.count ',' ≠ 2

theorem splitOn_eq_fields_iff {t source apparent canonical : Text} :
    t.splitOn ',' = [source, apparent, canonical] ↔
      t = source ++ ',' :: (apparent ++ ',' :: canonical) ∧
        ',' ∉ source ∧ ',' ∉ apparent ∧ ',' ∉ canonical := by
  refine ⟨?_, ?_⟩
  · intro h
    have hn {piece : Text} (hp : piece ∈ [source, apparent, canonical]) : ',' ∉ piece :=
      Text.notMem_of_mem_splitOn (h ▸ hp)
    refine ⟨?_, hn (by simp), hn (by simp), hn (by simp)⟩
    have ht : [','].intercalate (t.splitOn ',') = t := List.intercalate_splitOn ','
    rw [h] at ht
    rw [← ht]
    simp [List.intercalate]
  · rintro ⟨rfl, hs, ha, hc⟩
    rw [List.splitOn_append_cons_self_of_not_mem hs, List.splitOn_append_cons_self_of_not_mem ha,
      List.splitOn_eq_singleton hc]

/-- Every line holds nothing, an entry, or something malformed. -/
theorem line_cases (line : Text) :
    body line = [] ∨ (∃ e, Reads line e) ∨ ∃ rest, Malformed line rest := by
  by_cases hb : body line = []
  · exact .inl hb
  · by_cases hc : (body line).count ',' = 2
    · -- two commas make three fields
      have hl := Text.length_splitOn ',' (body line)
      rw [hc] at hl
      obtain ⟨source, apparent, canonical, h⟩ := List.length_eq_three.mp hl
      obtain ⟨ht, hn⟩ := splitOn_eq_fields_iff.mp h
      exact .inr (.inl ⟨⟨source, apparent, canonical⟩, body_eq_iff.mp ht, hn⟩)
    · exact .inr (.inr ⟨body line, body_eq_iff.mp rfl, hb, hc⟩)

variable {line rest : Text} {e : Entry}

theorem ofLine_of_body_eq_nil (h : body line = []) : ofLine line = .ok none := if_pos h

theorem ofLine_of_reads (h : Reads line e) : ofLine line = .ok (some e) := by
  obtain ⟨hl, hn⟩ := h
  have hs := splitOn_eq_fields_iff.mpr ⟨rfl, hn⟩
  rw [ofLine, body_eq_iff.mpr hl, if_neg (by simp), hs]

theorem ofLine_of_malformed (h : Malformed line rest) :
    ofLine line = .error (.malformedMapping rest) := by
  obtain ⟨hl, hr, hc⟩ := h
  rw [ofLine, body_eq_iff.mpr hl, if_neg hr]
  split
  · next hs =>
    have := Text.length_splitOn ',' rest
    rw [hs] at this
    simp at this
    omega
  · rfl

/-- The entry in a line, if there is one. -/
def found? (line : Text) : Option Entry :=
  match ofLine line with
  | .ok e? => e?
  | .error _ => none

theorem found?_eq_some_iff (line : Text) (e : Entry) : found? line = some e ↔ Reads line e := by
  refine ⟨?_, ?_⟩
  · intro h
    rcases line_cases line with hb | ⟨e', he⟩ | ⟨rest, hm⟩
    · simp [found?, ofLine_of_body_eq_nil hb] at h
    · obtain rfl : e' = e := by simpa [found?, ofLine_of_reads he] using h
      exact he
    · simp [found?, ofLine_of_malformed hm] at h
  · intro h
    simp [found?, ofLine_of_reads h]

/-- What is left of a line, if that is malformed. -/
def malformed? (line : Text) : Option Text :=
  match ofLine line with
  | .error (.malformedMapping rest) => some rest
  | _ => none

theorem malformed?_eq_some_iff (line rest : Text) :
    malformed? line = some rest ↔ Malformed line rest := by
  refine ⟨?_, ?_⟩
  · intro h
    rcases line_cases line with hb | ⟨e, he⟩ | ⟨rest', hm⟩
    · simp [malformed?, ofLine_of_body_eq_nil hb] at h
    · simp [malformed?, ofLine_of_reads he] at h
    · obtain rfl : rest' = rest := by simpa [malformed?, ofLine_of_malformed hm] using h
      exact hm
  · intro h
    simp [malformed?, ofLine_of_malformed h]

end Entry

end RepoMapping

end BazelRunfiles
