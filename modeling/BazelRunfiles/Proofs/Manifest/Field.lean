import BazelRunfiles.Manifest.Field

/-!
Escaped fields. Writing puts a backslash and a letter for every character that a field cannot hold,
so a written field holds none of those characters but the backslash, and `unescape_escape` says that
reading gives the text back. A carriage return is written as it is, and so the end of a written
field shows whether the text ends in one.
-/

namespace BazelRunfiles

namespace Manifest

namespace Field

variable {f : Field} {c l : Char} {t : Text}

/-! ### Single characters -/

theorem letter?_backslash (f : Field) : f.letter? '\\' = some 'b' := by cases f <;> rfl

theorem ne_backslash_of_letter?_eq_none (h : f.letter? c = none) : c ≠ '\\' := by
  rintro rfl
  rw [letter?_backslash] at h
  cases h

theorem mem_escapeChar {d : Char} (h : c ∈ f.escapeChar d) :
    c = '\\' ∨ (f.char? c).isSome ∨ f.letter? c = none := by
  unfold escapeChar at h
  cases hd : f.letter? d with
  | none =>
    rw [hd] at h
    obtain rfl := List.mem_singleton.mp h
    exact .inr (.inr hd)
  | some l =>
    simp only [hd, List.mem_cons, List.not_mem_nil, or_false] at h
    rcases h with rfl | rfl
    · exact .inl rfl
    · exact .inr (.inl (by rw [letter?_eq_some_iff.mp hd]; rfl))

/-! ### Texts as they are written -/

@[simp] theorem escape_nil (f : Field) : f.escape [] = [] := rfl

@[simp] theorem escape_cons (f : Field) (c : Char) (t : Text) :
    f.escape (c :: t) = f.escapeChar c ++ f.escape t := rfl

theorem escape_append (f : Field) (s t : Text) : f.escape (s ++ t) = f.escape s ++ f.escape t :=
  List.flatMap_append

theorem escape_concat (h : f.letter? c = none) (t : Text) :
    f.escape (t ++ [c]) = f.escape t ++ [c] := by
  rw [escape_append]
  simp [escapeChar, h]

/-- A character that cannot be written, and is neither the backslash nor a letter behind one, is not
in a written field. -/
theorem notMem_escape (hc : (f.letter? c).isSome) (hb : c ≠ '\\') (hl : f.char? c = none)
    (t : Text) : c ∉ f.escape t := by
  intro h
  obtain ⟨d, -, hd⟩ := List.mem_flatMap.mp h
  rcases mem_escapeChar hd with rfl | hs | hn
  · exact hb rfl
  · rw [hl] at hs; cases hs
  · rw [hn] at hc; cases hc

theorem newline_notMem_escape (f : Field) (t : Text) : '\n' ∉ f.escape t := by
  cases f <;> exact notMem_escape rfl (by decide) rfl t

theorem space_notMem_escape_key (t : Text) : ' ' ∉ key.escape t :=
  notMem_escape rfl (by decide) rfl t

/-- A written field ends in a character that is no letter only if the text does. -/
theorem getLast?_of_getLast?_escape (hl : f.char? c = none) (h : (f.escape t).getLast? = some c) :
    t.getLast? = some c := by
  obtain rfl | ⟨s, d, rfl⟩ := List.eq_nil_or_concat t
  · simp at h
  · rw [List.concat_eq_append] at h ⊢
    rw [escape_append, escape_cons, escape_nil, List.append_nil, escapeChar] at h
    cases hd : f.letter? d with
    | none => simpa [hd] using h
    | some l =>
      simp only [hd, List.getLast?_append, List.getLast?_cons_cons, List.getLast?_singleton,
        Option.some_or, Option.some.injEq] at h
      rw [h] at hd
      rw [letter?_eq_some_iff.mp hd] at hl
      cases hl

/-! ### Texts as they are read -/

theorem unescape_cons_of_ne (h : c ≠ '\\') (t : Text) :
    f.unescape (c :: t) = c :: f.unescape t := by
  cases t with
  | nil => rfl
  | cons d rest => rw [unescape, if_neg h]

theorem unescape_pair (h : f.char? l = some c) (t : Text) :
    f.unescape ('\\' :: l :: t) = c :: f.unescape t := by
  rw [unescape, if_pos rfl, h]

theorem unescape_of_notMem (h : '\\' ∉ t) : f.unescape t = t := by
  induction t with
  | nil => rfl
  | cons c rest ih =>
    simp only [List.mem_cons, not_or] at h
    rw [unescape_cons_of_ne (Ne.symm h.1), ih h.2]

/-- Reading takes back what writing did. -/
theorem unescape_escape (f : Field) (t : Text) : f.unescape (f.escape t) = t := by
  induction t with
  | nil => rfl
  | cons c rest ih =>
    cases h : f.letter? c with
    | none =>
      have hw : f.escape (c :: rest) = c :: f.escape rest := by simp [escapeChar, h]
      rw [hw, unescape_cons_of_ne (ne_backslash_of_letter?_eq_none h), ih]
    | some l =>
      have hw : f.escape (c :: rest) = '\\' :: l :: f.escape rest := by simp [escapeChar, h]
      rw [hw, unescape_pair (letter?_eq_some_iff.mp h), ih]

/-! ### What a written text stands for -/

/-- What a written text stands for, read from the left: a backslash and the letter of a pair stand
for the character of the pair, and every other character stands for itself. -/
inductive Decodes (pairs : List (Char × Char)) : (written text : Text) → Prop where
  | nil : Decodes pairs [] []
  | pair {l c : Char} {written text : Text} : (l, c) ∈ pairs → Decodes pairs written text →
      Decodes pairs ('\\' :: l :: written) (c :: text)
  | plain {c : Char} {written text : Text} :
      (c = '\\' → ∀ p ∈ pairs, written.head? ≠ some p.1) → Decodes pairs written text →
        Decodes pairs (c :: written) (c :: text)

theorem unescape_backslash (h : ∀ l ∈ t.head?, f.char? l = none) :
    f.unescape ('\\' :: t) = '\\' :: f.unescape t := by
  cases t with
  | nil => rfl
  | cons l rest => rw [unescape, if_pos rfl, h l rfl]

section

variable {pairs : List (Char × Char)}

/-- Reading goes through the text as the constructors do. -/
theorem decodes_unescape (hpairs : ∀ l c, (l, c) ∈ pairs ↔ f.char? l = some c) (t : Text) :
    Decodes pairs t (f.unescape t) := by
  fun_induction unescape f t with
  | case1 => exact .nil
  | case2 c => exact .plain (by simp) .nil
  | case3 d rest x hx ih => exact .pair ((hpairs d x).mpr hx) ih
  | case4 d rest hd ih =>
    refine .plain (fun _ p hp hhead => ?_) ih
    have hsome : f.char? d = some p.2 := (hpairs d p.2).mp (by
      rw [Option.some.inj hhead]
      exact hp)
    rw [hd] at hsome
    cases hsome
  | case5 c d rest hc ih => exact .plain (fun h => absurd h hc) ih

theorem Decodes.unescape_eq (hpairs : ∀ l c, (l, c) ∈ pairs ↔ f.char? l = some c) {s : Text}
    (h : Decodes pairs s t) : f.unescape s = t := by
  induction h with
  | nil => rfl
  | pair hp _ ih => rw [unescape_pair ((hpairs _ _).mp hp), ih]
  | @plain c written text hplain _ ih =>
    by_cases hc : c = '\\'
    · subst hc
      rw [unescape_backslash, ih]
      intro l hl
      rw [Option.eq_none_iff_forall_ne_some]
      intro x hx
      exact hplain rfl (l, x) ((hpairs l x).mpr hx) hl
    · rw [unescape_cons_of_ne hc, ih]

theorem decodes_iff (hpairs : ∀ l c, (l, c) ∈ pairs ↔ f.char? l = some c) {s : Text} :
    Decodes pairs s t ↔ f.unescape s = t := by
  refine ⟨Decodes.unescape_eq hpairs, ?_⟩
  rintro rfl
  exact decodes_unescape hpairs s

end

theorem decodes_key_iff {s : Text} :
    Decodes [('s', ' '), ('n', '\n'), ('b', '\\')] s t ↔ key.unescape s = t := by
  refine decodes_iff fun l c => ?_
  unfold char?
  split <;> simp_all [eq_comm]

theorem decodes_value_iff {s : Text} :
    Decodes [('n', '\n'), ('b', '\\')] s t ↔ value.unescape s = t := by
  refine decodes_iff fun l c => ?_
  unfold char?
  split <;> simp_all [eq_comm]

/-! ### When a field has to be escaped -/

theorem isSome_letter?_key : (key.letter? c).isSome ↔ c = ' ' ∨ c = '\n' ∨ c = '\\' := by
  unfold letter?
  split <;> simp_all

theorem isSome_letter?_value : (value.letter? c).isSome ↔ c = '\n' ∨ c = '\\' := by
  unfold letter?
  split <;> simp_all

theorem mustEscape_key_iff : key.mustEscape t ↔ ' ' ∈ t ∨ '\n' ∈ t ∨ '\\' ∈ t := by
  simp only [mustEscape, List.any_eq_true, isSome_letter?_key]
  refine ⟨?_, ?_⟩
  · rintro ⟨c, hc, rfl | rfl | rfl⟩
    · exact .inl hc
    · exact .inr (.inl hc)
    · exact .inr (.inr hc)
  · rintro (h | h | h)
    · exact ⟨' ', h, .inl rfl⟩
    · exact ⟨'\n', h, .inr (.inl rfl)⟩
    · exact ⟨'\\', h, .inr (.inr rfl)⟩

theorem mustEscape_value_iff : value.mustEscape t ↔ '\n' ∈ t ∨ '\\' ∈ t := by
  simp only [mustEscape, List.any_eq_true, isSome_letter?_value]
  refine ⟨?_, ?_⟩
  · rintro ⟨c, hc, rfl | rfl⟩
    · exact .inl hc
    · exact .inr hc
  · rintro (h | h)
    · exact ⟨'\n', h, .inl rfl⟩
    · exact ⟨'\\', h, .inr rfl⟩

end Field

end Manifest

end BazelRunfiles
