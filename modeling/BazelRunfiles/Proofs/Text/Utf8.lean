import BazelRunfiles.Text.Utf8

/-!
Reading UTF-8 finds exactly what writing it produces. `Spells` says which bytes stand for which
code, by the number of bytes: the bits of the code are spread over them, in the shortest form that
holds them, and surrogates and values beyond the last code point have none. A character is written
as the bytes that spell its code (`spells_encodeChar`, `encodeChar_of_spells`), and the reader takes
just such bytes for a character (`decodeFrom_spelling`, `exists_spelling`); so reading without a
fault and being written text are one thing.
-/

namespace BazelRunfiles

namespace Utf8

/-! ### The bytes of a code -/

/-- Whether a byte can only follow others. -/
def Continues (b : UInt8) : Prop := 0x80 ≤ b.toNat ∧ b.toNat ≤ 0xBF

/-- Bytes that spell a code. -/
inductive Spells : List UInt8 → Nat → Prop where
  | one {a : UInt8} : a.toNat < 0x80 → Spells [a] a.toNat
  | two {a b : UInt8} {v : Nat} : 0xC0 ≤ a.toNat → a.toNat < 0xE0 → Continues b →
      v = (a.toNat - 0xC0) * 0x40 + (b.toNat - 0x80) → 0x80 ≤ v → Spells [a, b] v
  | three {a b c : UInt8} {v : Nat} : 0xE0 ≤ a.toNat → a.toNat < 0xF0 → Continues b → Continues c →
      v = ((a.toNat - 0xE0) * 0x40 + (b.toNat - 0x80)) * 0x40 + (c.toNat - 0x80) → 0x800 ≤ v →
      (v < 0xD800 ∨ 0xDFFF < v) → Spells [a, b, c] v
  | four {a b c d : UInt8} {v : Nat} : 0xF0 ≤ a.toNat → Continues b → Continues c → Continues d →
      v = (((a.toNat - 0xF0) * 0x40 + (b.toNat - 0x80)) * 0x40 + (c.toNat - 0x80)) * 0x40
        + (d.toNat - 0x80) → 0x10000 ≤ v → v < 0x110000 → Spells [a, b, c, d] v

variable {bytes : List UInt8} {v : Nat}

theorem Spells.isValidChar (h : Spells bytes v) : v.isValidChar := by
  cases h with
  | one ha => exact .inl (by omega)
  | two ha ha' hb hv hlow => exact .inl (by have := hb.2; omega)
  | three ha ha' hb hc hv hlow hs =>
    have hb := hb.2
    have hc := hc.2
    rcases hs with hs | hs
    · exact .inl hs
    · exact .inr ⟨hs, by omega⟩
  | four ha hb hc hd hv hlow hhigh => exact .inr ⟨by omega, hhigh⟩

theorem Spells.length_pos (h : Spells bytes v) : 0 < bytes.length := by
  cases h <;> exact Nat.succ_pos _

theorem toNat_ofNat {n : Nat} (h : n < 256) : (UInt8.ofNat n).toNat = n :=
  UInt8.toNat_ofNat_of_lt' h

theorem continues_ofNat {n : Nat} (h : n < 0x40) : Continues (UInt8.ofNat (n + 0x80)) := by
  rw [Continues, toNat_ofNat (by omega)]
  omega

/-- A character is written as bytes that spell its code. -/
theorem spells_encodeChar (c : Char) : Spells (String.utf8EncodeChar c) c.toNat := by
  have hvalid : c.toNat < 0xD800 ∨ 0xDFFF < c.toNat ∧ c.toNat < 0x110000 := c.valid
  have hmax : c.toNat < 0x110000 := by omega
  have hsurr : c.toNat < 0xD800 ∨ 0xDFFF < c.toNat := hvalid.imp_right And.left
  simp only [String.utf8EncodeChar, Char.toNat_val]
  generalize c.toNat = v at hmax hsurr
  split
  · next h1 =>
    have h := Spells.one (a := UInt8.ofNat v) (by rw [toNat_ofNat] <;> omega)
    rwa [toNat_ofNat (by omega)] at h
  · next h1 =>
    split
    · next h2 =>
      refine .two ?_ ?_ (continues_ofNat (by omega)) ?_ (by omega) <;>
        simp only [toNat_ofNat (show v / 64 % 32 + 192 < 256 by omega),
          toNat_ofNat (show v % 64 + 128 < 256 by omega)] <;> omega
    · next h2 =>
      split
      · next h3 =>
        refine .three ?_ ?_ (continues_ofNat (by omega)) (continues_ofNat (by omega)) ?_ (by omega)
            hsurr <;>
          simp only [toNat_ofNat (show v / 4096 % 16 + 224 < 256 by omega),
            toNat_ofNat (show v / 64 % 64 + 128 < 256 by omega),
            toNat_ofNat (show v % 64 + 128 < 256 by omega)] <;> omega
      · next h3 =>
        refine .four ?_ (continues_ofNat (by omega)) (continues_ofNat (by omega))
            (continues_ofNat (by omega)) ?_ (by omega) hmax <;>
          simp only [toNat_ofNat (show v / 262144 % 8 + 240 < 256 by omega),
            toNat_ofNat (show v / 4096 % 64 + 128 < 256 by omega),
            toNat_ofNat (show v / 64 % 64 + 128 < 256 by omega),
            toNat_ofNat (show v % 64 + 128 < 256 by omega)] <;> omega

theorem toNat_charOfNat (h : v.isValidChar) : (Char.ofNat v).toNat = v := by
  rw [Char.ofNat, dif_pos h]
  rfl

theorem ofNat_eq_iff {n : Nat} {a : UInt8} (h : n < 256) : UInt8.ofNat n = a ↔ n = a.toNat := by
  rw [← UInt8.toNat_inj, toNat_ofNat h]

/-- Bytes that spell a code are what its character is written as. -/
theorem encodeChar_of_spells (h : Spells bytes v) :
    String.utf8EncodeChar (Char.ofNat v) = bytes := by
  simp only [String.utf8EncodeChar, Char.toNat_val, toNat_charOfNat h.isValidChar]
  cases h with
  | one ha =>
    rw [if_pos (by omega), UInt8.ofNat_toNat]
  | two ha ha' hb hv hlow =>
    obtain ⟨hb, hb'⟩ := hb
    rw [if_neg (by omega), if_pos (by omega)]
    simp only [List.cons.injEq, and_true]
    refine ⟨(ofNat_eq_iff ?_).mpr ?_, (ofNat_eq_iff ?_).mpr ?_⟩ <;> omega
  | three ha ha' hb hc hv hlow hs =>
    obtain ⟨⟨hb, hb'⟩, hc, hc'⟩ := And.intro hb hc
    rw [if_neg (by omega), if_neg (by omega), if_pos (by omega)]
    simp only [List.cons.injEq, and_true]
    refine ⟨(ofNat_eq_iff ?_).mpr ?_, (ofNat_eq_iff ?_).mpr ?_, (ofNat_eq_iff ?_).mpr ?_⟩ <;> omega
  | four ha hb hc hd hv hlow hhigh =>
    obtain ⟨⟨hb, hb'⟩, ⟨hc, hc'⟩, hd, hd'⟩ := And.intro hb (And.intro hc hd)
    rw [if_neg (by omega), if_neg (by omega), if_neg (by omega)]
    simp only [List.cons.injEq, and_true]
    refine ⟨(ofNat_eq_iff ?_).mpr ?_, (ofNat_eq_iff ?_).mpr ?_, (ofNat_eq_iff ?_).mpr ?_,
      (ofNat_eq_iff ?_).mpr ?_⟩ <;> omega

/-! ### Reading a character -/

/-- The first byte of a longer character tells how many are owed, and
shuts out some second bytes. -/
theorem start?_eq_some_iff {b : Nat} {p : Pending} :
    start? b = some p ↔ 0xC2 ≤ b ∧ b ≤ 0xF4 ∧ p =
      if b < 0xE0 then ⟨b - 0xC0, 1, 0x80, 0xBF⟩
      else if b < 0xF0 then
        ⟨b - 0xE0, 2, if b = 0xE0 then 0xA0 else 0x80, if b = 0xED then 0x9F else 0xBF⟩
      else ⟨b - 0xF0, 3, if b = 0xF0 then 0x90 else 0x80, if b = 0xF4 then 0x8F else 0xBF⟩ := by
  unfold start?
  grind

section

variable {bits owed low high : Nat} {b : UInt8}

/-- The last byte owed ends the character. -/
theorem decodeFrom_last (h : low ≤ b.toNat ∧ b.toNat ≤ high) (rest : List UInt8) :
    decodeFrom (some ⟨bits, 1, low, high⟩) (b :: rest) =
      (decodeFrom none rest).cons (Char.ofNat (bits * 0x40 + (b.toNat - 0x80))) := by
  rw [decodeFrom, if_pos h]
  rfl

/-- Any other byte in range leaves one byte less owed. -/
theorem decodeFrom_more (h : low ≤ b.toNat ∧ b.toNat ≤ high) (rest : List UInt8) :
    decodeFrom (some ⟨bits, owed + 2, low, high⟩) (b :: rest) =
      decodeFrom (some ⟨bits * 0x40 + (b.toNat - 0x80), owed + 1, 0x80, 0xBF⟩) rest := by
  rw [decodeFrom, if_pos h]
  exact if_neg (by dsimp only; omega)

end

/-- Inside a character no fault means a byte in range. -/
theorem exists_cons_of_fault_eq_none {p : Pending} {bytes : List UInt8}
    (h : (decodeFrom (some p) bytes).fault = none) :
    ∃ b rest, bytes = b :: rest ∧ p.low ≤ b.toNat ∧ b.toNat ≤ p.high := by
  cases bytes with
  | nil => cases h
  | cons b rest =>
    refine ⟨b, rest, rfl, ?_⟩
    by_cases hb : p.low ≤ b.toNat ∧ b.toNat ≤ p.high
    · exact hb
    · rw [decodeFrom, if_neg hb] at h
      split at h <;> cases h

theorem decodeFrom_none_of_lt {a : UInt8} (h : a.toNat < 0x80) (rest : List UInt8) :
    decodeFrom none (a :: rest) = (decodeFrom none rest).cons (Char.ofNat a.toNat) := by
  rw [decodeFrom, if_pos h]

theorem decodeFrom_none_of_start {a : UInt8} {p : Pending} (h : start? a.toNat = some p)
    (rest : List UInt8) : decodeFrom none (a :: rest) = decodeFrom (some p) rest := by
  have := (start?_eq_some_iff.mp h).1
  rw [decodeFrom, if_neg (by omega), h]

/-- Bytes that spell a code are read as its character. -/
theorem decodeFrom_spelling (h : Spells bytes v) (rest : List UInt8) :
    decodeFrom none (bytes ++ rest) = (decodeFrom none rest).cons (Char.ofNat v) := by
  cases h with
  | one ha => exact decodeFrom_none_of_lt ha rest
  | @two a b _ ha ha' hb hv hlow =>
    have ⟨_, _⟩ := hb
    have hs : start? a.toNat = some ⟨a.toNat - 0xC0, 1, 0x80, 0xBF⟩ :=
      start?_eq_some_iff.mpr ⟨by omega, by omega, by rw [if_pos ha']⟩
    calc decodeFrom none (a :: b :: rest)
      _ = decodeFrom (some ⟨a.toNat - 0xC0, 1, 0x80, 0xBF⟩) (b :: rest) :=
        decodeFrom_none_of_start hs _
      _ = (decodeFrom none rest).cons (Char.ofNat v) := by rw [decodeFrom_last hb, hv]
  | @three a b c _ ha ha' hb hc hv hlow hsur =>
    have ⟨_, _⟩ := hb
    have ⟨_, _⟩ := hc
    have hs := start?_eq_some_iff.mpr ⟨show 0xC2 ≤ a.toNat by omega, by omega, rfl⟩
    rw [if_neg (by omega), if_pos ha'] at hs
    calc decodeFrom none (a :: b :: c :: rest)
      _ = decodeFrom (some ⟨a.toNat - 0xE0, 2, _, _⟩) (b :: c :: rest) :=
        decodeFrom_none_of_start hs _
      _ = decodeFrom (some ⟨_, 1, 0x80, 0xBF⟩) (c :: rest) :=
        decodeFrom_more ⟨by split <;> omega, by split <;> omega⟩ _
      _ = (decodeFrom none rest).cons (Char.ofNat v) := by rw [decodeFrom_last hc, hv]
  | @four a b c d _ ha hb hc hd hv hlow hhigh =>
    have ⟨_, _⟩ := hb
    have ⟨_, _⟩ := hc
    have ⟨_, _⟩ := hd
    have hs := start?_eq_some_iff.mpr ⟨show 0xC2 ≤ a.toNat by omega, by omega, rfl⟩
    rw [if_neg (by omega), if_neg (by omega)] at hs
    calc decodeFrom none (a :: b :: c :: d :: rest)
      _ = decodeFrom (some ⟨a.toNat - 0xF0, 3, _, _⟩) (b :: c :: d :: rest) :=
        decodeFrom_none_of_start hs _
      _ = decodeFrom (some ⟨_, 2, 0x80, 0xBF⟩) (c :: d :: rest) :=
        decodeFrom_more ⟨by split <;> omega, by split <;> omega⟩ _
      _ = decodeFrom (some ⟨_, 1, 0x80, 0xBF⟩) (d :: rest) := decodeFrom_more hc _
      _ = (decodeFrom none rest).cons (Char.ofNat v) := by rw [decodeFrom_last hd, hv]

/-- What is read without a fault begins with bytes that spell a code. -/
theorem exists_spelling (h : (decodeFrom none bytes).fault = none) :
    bytes = [] ∨ ∃ first rest v, bytes = first ++ rest ∧ Spells first v := by
  cases bytes with
  | nil => exact .inl rfl
  | cons a rest =>
    right
    by_cases ha : a.toNat < 0x80
    · exact ⟨[a], rest, _, rfl, .one ha⟩
    cases hs : start? a.toNat with
    | none =>
      rw [decodeFrom, if_neg ha, hs] at h
      cases h
    | some p =>
      rw [decodeFrom_none_of_start hs] at h
      obtain ⟨b, rest, rfl, hb, hb'⟩ := exists_cons_of_fault_eq_none h
      obtain ⟨hlow, hhigh, hp⟩ := start?_eq_some_iff.mp hs
      -- The number of bytes owed is known once the range of the first byte is.
      split at hp
      · next ha' =>
        subst hp
        exact ⟨[a, b], rest, _, rfl, .two (by omega) ha' ⟨hb, hb'⟩ rfl (by omega)⟩
      split at hp
      · next ha' =>
        subst hp
        rw [decodeFrom_more ⟨hb, hb'⟩] at h
        obtain ⟨c, rest, rfl, hc⟩ := exists_cons_of_fault_eq_none h
        have hcont : Continues b := ⟨by grind, by grind⟩
        refine ⟨[a, b, c], rest, _, rfl, .three (by omega) ha' hcont hc rfl ?_ ?_⟩ <;> grind
      · subst hp
        rw [decodeFrom_more ⟨hb, hb'⟩] at h
        obtain ⟨c, rest, rfl, hc⟩ := exists_cons_of_fault_eq_none h
        rw [decodeFrom_more hc] at h
        obtain ⟨d, rest, rfl, hd⟩ := exists_cons_of_fault_eq_none h
        have hcont : Continues b := ⟨by grind, by grind⟩
        refine ⟨[a, b, c, d], rest, _, rfl, .four (by omega) hcont hc hd rfl ?_ ?_⟩ <;> grind

/-! ### Reading and writing -/

theorem encode_cons (c : Char) (t : Text) : encode (c :: t) = String.utf8EncodeChar c ++ encode t :=
  rfl

/-- What is written is read without a fault. -/
theorem decode_encode (t : Text) : decode (encode t) = ⟨t, none⟩ := by
  induction t with
  | nil => rfl
  | cons c rest ih =>
    rw [decode] at ih
    rw [decode, encode_cons, decodeFrom_spelling (spells_encodeChar c), ih, Char.ofNat_toNat]
    rfl

/-- Bytes are read without a fault if and only if they are the bytes of a text. -/
theorem fault_decode_eq_none_iff : (decode bytes).fault = none ↔ ∃ t, encode t = bytes := by
  constructor
  · intro h
    -- A character takes at least one byte away, so the induction is on the number of bytes.
    induction hn : bytes.length using Nat.strongRecOn generalizing bytes with
    | ind n ih =>
      obtain rfl | ⟨first, rest, v, rfl, hs⟩ := exists_spelling h
      · exact ⟨[], rfl⟩
      · have hlt : rest.length < n := by
          have := hs.length_pos
          simp only [List.length_append] at hn
          omega
        rw [decode, decodeFrom_spelling hs] at h
        obtain ⟨t, rfl⟩ := ih rest.length hlt h rfl
        exact ⟨Char.ofNat v :: t, by rw [encode_cons, encodeChar_of_spells hs]⟩
  · rintro ⟨t, rfl⟩
    rw [decode_encode]

end Utf8

end BazelRunfiles
