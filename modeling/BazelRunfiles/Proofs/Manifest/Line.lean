import BazelRunfiles.Manifest.Entry
import BazelRunfiles.Proofs.Manifest.Field

/-!
The lines of a manifest as a grammar. `Leaves` says what is left of a line once its end is stripped,
`Halves` what stands on both sides of the first space, `Field.Decodes` what the halves of an escaped
line stand for, and `Reads` which entry a line holds; each is stated by how the line is put
together, and each is met by one result only, since a function computes it.
-/

namespace BazelRunfiles

namespace Manifest

namespace Entry

/-- What is left of a line: all newlines at its end go, and then at most one carriage return. -/
inductive Leaves : (line rest : Text) → Prop where
  | plain (n : Nat) {rest : Text} : (∀ c ∈ rest.getLast?, c ≠ '\n' ∧ c ≠ '\r') →
      Leaves (rest ++ List.replicate n '\n') rest
  | carriageReturn (n : Nat) (rest : Text) : Leaves (rest ++ '\r' :: List.replicate n '\n') rest

theorem trimEnd_newlines {rest : Text} (n : Nat) (h : ∀ c ∈ rest.getLast?, c ≠ '\n') :
    (rest ++ List.replicate n '\n').trimEnd (· = '\n') = rest := by
  refine Text.trimEnd_eq_iff.mpr ⟨_, rfl, fun c hc => ?_, fun c hc => ?_⟩
  · simpa using List.eq_of_mem_replicate hc
  · simpa using h c hc

theorem body_eq_iff {line rest : Text} : body line = rest ↔ Leaves line rest := by
  refine ⟨?_, ?_⟩
  · rintro rfl
    obtain ⟨tail, hl, htail, hlast⟩ := Text.trimEnd_eq_iff.mp (rfl : line.trimEnd (· = '\n') = _)
    have ht : tail = List.replicate tail.length '\n' :=
      List.eq_replicate_of_mem fun c hc => by simpa using htail c hc
    simp only [body]
    rw [ht] at hl
    generalize line.trimEnd (· = '\n') = t at hl hlast
    subst hl
    split
    · next hr =>
      -- the carriage return is the last character that is left
      obtain ⟨rest, rfl⟩ := List.getLast?_eq_some_iff.mp hr
      rw [List.dropLast_concat, List.append_assoc]
      exact .carriageReturn _ rest
    · next hr =>
      refine .plain _ fun c hc => ⟨by simpa using hlast c hc, ?_⟩
      rintro rfl
      exact hr hc
  · rintro (⟨n, h⟩ | ⟨n, rest⟩)
    · rw [body, trimEnd_newlines n fun c hc => (h c hc).1]
      exact if_neg fun hr => (h _ hr).2 rfl
    · have ht : (rest ++ '\r' :: List.replicate n '\n').trimEnd (· = '\n') = rest ++ ['\r'] := by
        rw [List.append_cons]
        exact trimEnd_newlines n (by simp)
      rw [body, ht]
      simp

/-- The two halves of a text on both sides of its first space; without
one, nothing stands behind. -/
def Halves (t before after : Text) : Prop :=
  ' ' ∉ before ∧ (t = before ++ ' ' :: after ∨ (t = before ∧ after = []))

/-- The entry that a line holds. A space in front tells that the halves are escaped, the runfile
path by three letters and the location by two. A location that is left out is the runfile path. -/
inductive Reads : (line : Text) → Entry → Prop where
  | plain {line rest key value : Text} : Leaves line rest → rest ≠ [] → rest.head? ≠ some ' ' →
      Halves rest key value → Reads line ⟨key, if value = [] then key else value⟩
  | escaped {line rest before after key value : Text} : Leaves line (' ' :: rest) →
      Halves rest before after → Field.Decodes [('s', ' '), ('n', '\n'), ('b', '\\')] before key →
      Field.Decodes [('n', '\n'), ('b', '\\')] after value →
      Reads line ⟨key, if value = [] then key else value⟩

theorem located_mk (key value : Text) :
    located ⟨key, value⟩ = ⟨key, if value = [] then key else value⟩ := by
  rw [located]
  split <;> rfl

theorem reads_of_ofLine? {line : Text} {e : Entry} (h : ofLine? line = some e) : Reads line e := by
  have hl := body_eq_iff.mp (rfl : body line = _)
  unfold ofLine? at h
  cases hb : body line with
  | nil => simp [hb, ofBody?] at h
  | cons c rest =>
    rw [hb] at h hl
    simp only [ofBody?] at h
    split at h
    · next hc =>
      subst hc
      obtain rfl := Option.some.inj h
      rw [located_mk]
      exact .escaped hl (Text.cut_eq_iff.mp rfl) (Field.decodes_key_iff.mpr rfl)
        (Field.decodes_value_iff.mpr rfl)
    · next hc =>
      obtain rfl := Option.some.inj h
      rw [located_mk]
      exact .plain hl (by simp) (by simpa using hc) (Text.cut_eq_iff.mp rfl)

theorem Reads.ofLine?_eq {line : Text} {e : Entry} (h : Reads line e) : ofLine? line = some e := by
  unfold ofLine?
  cases h with
  | @plain rest key value hl hn hs hh =>
    rw [body_eq_iff.mpr hl]
    cases rest with
    | nil => exact absurd rfl hn
    | cons c rest =>
      have hc : c ≠ ' ' := by simpa using hs
      simp only [ofBody?, if_neg hc, Text.cut_eq_iff.mpr hh, located_mk]
  | escaped hl hh hk hv =>
    rw [body_eq_iff.mpr hl]
    simp only [ofBody?, if_pos, Text.cut_eq_iff.mpr hh, located_mk, Field.decodes_key_iff.mp hk,
      Field.decodes_value_iff.mp hv]

theorem ofLine?_eq_some_iff {line : Text} {e : Entry} : ofLine? line = some e ↔ Reads line e :=
  ⟨reads_of_ofLine?, Reads.ofLine?_eq⟩

end Entry

end Manifest

end BazelRunfiles
