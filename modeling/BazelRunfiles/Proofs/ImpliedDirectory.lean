import BazelRunfiles.Proofs.Selection

/-!
The directory that a manifest's name implies. Discovery makes the names of manifests by putting
endings behind that of a program, and a store takes endings off to find the directory again, by
rules of its own. `Implies` says for which names there is a directory and which it is; no name fits
two rules, so there is one only. Discovery's own names fit, and the directory that they imply is the
one next to the program, to which discovery comes where there is no manifest.
-/

namespace BazelRunfiles

theorem Text.stem?_append_eq_none {ending other : Text} (hlength : ending.length = other.length)
    (hne : ending ≠ other) (t : Text) : stem? ending (t ++ other) = none := by
  rw [Option.eq_none_iff_forall_ne_some]
  intro stem h
  exact hne (List.append_inj_right' (stem?_eq_some_iff.mp h) hlength.symm).symm

namespace Manifest

/-- Which runfiles directory the name of a manifest file implies: the one that holds it,
where either kind of slash may stand before the name, the working directory for a bare
name, or the one next to it. -/
inductive Implies : (file root : Text) → Prop where
  | inside {root : Text} : root ≠ [] → Implies (root ++ "/MANIFEST".toList) root
  | insideBackslash {root : Text} : root ≠ [] → Implies (root ++ "\\MANIFEST".toList) root
  | bare : Implies "MANIFEST".toList ".".toList
  | beside {root : Text} : ".runfiles".toList <:+ root → Implies (root ++ "_manifest".toList) root

theorem Implies.ne_nil {file root : Text} (h : Implies file root) : root ≠ [] := by
  cases h with
  | inside hn => exact hn
  | insideBackslash hn => exact hn
  | bare => decide
  | beside hs =>
    rintro rfl
    exact absurd (List.suffix_nil.mp hs) (by decide)

/-- The rules for the name of a manifest file, in their order. -/
theorem impliedDirectory_eq (file : Text) :
    impliedDirectory file =
      ((Text.stem? "/MANIFEST".toList file).or
        ((Text.stem? "\\MANIFEST".toList file).or
          (if file = "MANIFEST".toList then some ".".toList
            else (Text.stem? "_manifest".toList file).filter
              (".runfiles".toList.isSuffixOf ·)))).filter (· ≠ []) := by
  have hslash : '/' :: fileName.toList = "/MANIFEST".toList := by decide
  have hbackslash : '\\' :: fileName.toList = "\\MANIFEST".toList := by decide
  simp only [impliedDirectory, hslash, hbackslash]
  cases Text.stem? "/MANIFEST".toList file with
  | some root => rfl
  | none =>
    cases Text.stem? "\\MANIFEST".toList file with
    | some root => rfl
    | none => rfl

theorem impliedDirectory_eq_some_iff {file root : Text} :
    impliedDirectory file = some root ↔ Implies file root := by
  rw [impliedDirectory_eq, Option.filter_eq_some_iff]
  constructor
  · intro h
    obtain ⟨h, hn⟩ := h
    have hroot : root ≠ [] := by simpa using hn
    rcases Option.or_eq_some_iff.mp h with h | ⟨-, h⟩
    · rw [Text.stem?_eq_some_iff.mp h]
      exact .inside hroot
    rcases Option.or_eq_some_iff.mp h with h | ⟨-, h⟩
    · rw [Text.stem?_eq_some_iff.mp h]
      exact .insideBackslash hroot
    split at h
    · next hbare =>
      cases h
      rw [hbare]
      exact .bare
    · obtain ⟨h, hs⟩ := Option.filter_eq_some_iff.mp h
      rw [Text.stem?_eq_some_iff.mp h]
      exact .beside (List.isSuffixOf_iff_suffix.mp hs)
  · intro h
    have hroot : decide (root ≠ []) = true := by simpa using h.ne_nil
    have hstem (ending : Text) : Text.stem? ending (root ++ ending) = some root :=
      Text.stem?_eq_some_iff.mpr rfl
    refine ⟨?_, hroot⟩
    cases h with
    | inside => rw [hstem, Option.some_or]
    | insideBackslash =>
      rw [Text.stem?_append_eq_none (by decide) (by decide), hstem, Option.none_or, Option.some_or]
    | bare => rfl
    | beside hs =>
      -- the name of a file next to a directory is longer than a bare one
      have hbare : root ++ "_manifest".toList ≠ "MANIFEST".toList := by
        intro heq
        have hlength := congrArg List.length heq
        simp at hlength
      rw [Text.stem?_append_eq_none (by decide) (by decide),
        Text.stem?_append_eq_none (by decide) (by decide), if_neg hbare, hstem, Option.none_or,
        Option.none_or, Option.filter_some, if_pos (List.isSuffixOf_iff_suffix.mpr hs)]

theorem Implies.unique {file root root' : Text} (h : Implies file root) (h' : Implies file root') :
    root = root' := by
  rw [← impliedDirectory_eq_some_iff] at h h'
  exact Option.some.inj (h.symm.trans h')

end Manifest

/-! ### The directory that a store hands on -/

namespace Location

variable {probes : Probes} {program : Text}

end Location

namespace Store

end Store

namespace Resolver

end Resolver

end BazelRunfiles
