import BazelRunfiles.Proofs.Text.Utf8
import Mathlib.Data.List.Induction

/-!
Where bytes stop being UTF-8, and how. Behind the bytes of a text there may stand the beginning of
one more character: either a byte with which no character goes on breaks it off, or the bytes have
run out. `exists_text_and_rest` says that all bytes end in one of these ways, and the lemmas
`decode_of_…` what the reader makes of each. A state of the reader stands for the bytes that have
begun a character (`UnderWay`), and the character goes on with just the bytes that the state admits.

There is one exception. The first two bytes of a surrogate begin no character, but where they are
the last ones, the reader waits for a third before it says so.
-/

namespace BazelRunfiles

namespace Utf8

variable {bytes start more rest : List UInt8} {a b : UInt8} {v : Nat} {p q : Pending} {t : Text}

/-- Bytes with which a character begins and does not end yet; no bytes at all are among them. -/
def IsUnfinished (bytes : List UInt8) : Prop := ∃ more v, more ≠ [] ∧ Spells (bytes ++ more) v

/-- A byte with which no character goes on that has begun so. -/
def Breaks (start : List UInt8) (b : UInt8) : Prop :=
  IsUnfinished start ∧ ¬ ∃ more v, Spells (start ++ b :: more) v

/-- The first two bytes of a surrogate. -/
def IsHalfSurrogate (bytes : List UInt8) : Prop :=
  ∃ b : UInt8, bytes = [0xED, b] ∧ 0xA0 ≤ b.toNat ∧ b.toNat ≤ 0xBF

/-! ### What a state waits for -/

/-- Whether a byte may come next. -/
def Pending.Admits (p : Pending) (b : UInt8) : Prop := p.low ≤ b.toNat ∧ b.toNat ≤ p.high

/-- The state behind one more byte. -/
def Pending.next (p : Pending) (b : UInt8) : Pending :=
  ⟨p.bits * 0x40 + (b.toNat - 0x80), p.owed - 1, 0x80, 0xBF⟩

@[simp] theorem Pending.owed_next (p : Pending) (b : UInt8) : (p.next b).owed = p.owed - 1 := rfl

@[simp] theorem Pending.bits_next (p : Pending) (b : UInt8) :
    (p.next b).bits = p.bits * 0x40 + (b.toNat - 0x80) := rfl

/-- After the second byte any byte may come next that can follow others at all. -/
@[simp] theorem Pending.admits_next_iff : (p.next a).Admits b ↔ Continues b := Iff.rfl

/-- The bytes that end the character under way, and its code. -/
inductive Completes : Pending → List UInt8 → Nat → Prop where
  | last {p : Pending} {b : UInt8} : p.Admits b → p.owed ≤ 1 → Completes p [b] (p.next b).bits
  | more {p : Pending} {b : UInt8} {rest : List UInt8} {v : Nat} : p.Admits b → 1 < p.owed →
      Completes (p.next b) rest v → Completes p (b :: rest) v

/-- One byte that is owed ends the character. -/
theorem Completes.of_owed_eq_one (h : Completes p bytes v) (hp : p.owed = 1) :
    ∃ b, bytes = [b] ∧ p.Admits b ∧ v = p.bits * 0x40 + (b.toNat - 0x80) := by
  cases h with
  | last hb _ => exact ⟨_, rfl, hb, rfl⟩
  | more _ ho _ => omega

/-- Of more bytes that are owed the first leaves one less. -/
theorem Completes.of_one_lt_owed (h : Completes p bytes v) (hp : 1 < p.owed) :
    ∃ b rest, bytes = b :: rest ∧ p.Admits b ∧ Completes (p.next b) rest v := by
  cases h with
  | last _ ho => omega
  | more hb _ h => exact ⟨_, _, rfl, hb, h⟩

theorem completes_cons_iff (hb : p.Admits b) (hp : 1 < p.owed) :
    Completes p (b :: rest) v ↔ Completes (p.next b) rest v := by
  refine ⟨fun h => ?_, .more hb hp⟩
  obtain ⟨_, _, ⟨⟩, -, h⟩ := h.of_one_lt_owed hp
  exact h

theorem completes_singleton (hb : p.Admits b) (hp : p.owed ≤ 1)
    (hv : v = p.bits * 0x40 + (b.toNat - 0x80)) : Completes p [b] v := by
  rw [hv]
  exact .last hb hp

/-- What may come next can be followed up to the end of a character. -/
theorem exists_completes (hb : p.Admits b) : ∃ more v, Completes p (b :: more) v := by
  induction hn : p.owed using Nat.strongRecOn generalizing p b with
  | ind n ih =>
    by_cases hp : p.owed ≤ 1
    · exact ⟨[], _, .last hb hp⟩
    · have hnext : (p.next b).Admits 0x80 := ⟨Nat.le_refl 0x80, show 0x80 ≤ 0xBF by omega⟩
      obtain ⟨more, v, h⟩ := ih (p.owed - 1) (by omega) hnext rfl
      exact ⟨0x80 :: more, v, .more hb (by omega) h⟩

/-- The state that a first byte sets, by the number of bytes owed. -/
theorem start?_cases (h : start? a.toNat = some p) :
    (0xC2 ≤ a.toNat ∧ a.toNat < 0xE0 ∧ p.owed = 1 ∧ p.bits = a.toNat - 0xC0 ∧
      p.low = 0x80 ∧ p.high = 0xBF) ∨
    (0xE0 ≤ a.toNat ∧ a.toNat < 0xF0 ∧ p.owed = 2 ∧ p.bits = a.toNat - 0xE0 ∧
      p.low = (if a.toNat = 0xE0 then 0xA0 else 0x80) ∧
      p.high = if a.toNat = 0xED then 0x9F else 0xBF) ∨
    (0xF0 ≤ a.toNat ∧ a.toNat ≤ 0xF4 ∧ p.owed = 3 ∧ p.bits = a.toNat - 0xF0 ∧
      p.low = (if a.toNat = 0xF0 then 0x90 else 0x80) ∧
      p.high = if a.toNat = 0xF4 then 0x8F else 0xBF) := by
  obtain ⟨hlow, hhigh, rfl⟩ := start?_eq_some_iff.mp h
  split
  · next ha => exact .inl ⟨hlow, ha, rfl, rfl, rfl, rfl⟩
  split
  · next ha => exact .inr (.inl ⟨by omega, ha, rfl, rfl, rfl, rfl⟩)
  · exact .inr (.inr ⟨by omega, hhigh, rfl, rfl, rfl, rfl⟩)

/-- A range is never empty. -/
theorem start?_low_le_high (h : start? a.toNat = some p) : p.low ≤ p.high ∧ p.high < 0x100 := by
  obtain ⟨-, -, -, -, hl, hh⟩ | ⟨-, -, -, -, hl, hh⟩ | ⟨-, -, -, -, hl, hh⟩ := start?_cases h <;>
    grind

/-- Only the first byte of a surrogate shuts out the highest of the bytes that follow others. -/
theorem start?_high_eq_iff (h : start? a.toNat = some p) : p.high = 0x9F ↔ a = 0xED := by
  rw [← UInt8.toNat_inj]
  obtain ⟨_, _, -, -, -, hh⟩ | ⟨_, _, -, -, -, hh⟩ | ⟨_, _, -, -, -, hh⟩ := start?_cases h <;>
    grind

/-- Bytes that spell a code are one byte, or a first byte that sets a
state and those that end it. -/
theorem Spells.cases_cons (h : Spells (a :: more) v) :
    (a.toNat < 0x80 ∧ more = [] ∧ v = a.toNat) ∨
      ∃ p, start? a.toNat = some p ∧ Completes p more v := by
  cases h with
  | one ha => exact .inl ⟨ha, rfl, rfl⟩
  | @two _ b _ ha ha' hb hv hlow =>
    have ⟨_, _⟩ := hb
    have hs := start?_eq_some_iff.mpr ⟨show 0xC2 ≤ a.toNat by omega, by omega, rfl⟩
    rw [if_pos ha'] at hs
    exact .inr ⟨_, hs, completes_singleton hb (Nat.le_refl 1) hv⟩
  | @three _ b c _ ha ha' hb hc hv hlow hsur =>
    have ⟨_, _⟩ := hb
    have ⟨_, _⟩ := hc
    have hs := start?_eq_some_iff.mpr ⟨show 0xC2 ≤ a.toNat by omega, by omega, rfl⟩
    rw [if_neg (by omega), if_pos ha'] at hs
    refine .inr ⟨_, hs, .more ⟨?_, ?_⟩ (Nat.le_refl 2)
      (completes_singleton hc (Nat.le_refl 1) hv)⟩ <;>
      dsimp only <;> split <;> omega
  | @four _ b c d _ ha hb hc hd hv hlow hhigh =>
    have ⟨_, _⟩ := hb
    have ⟨_, _⟩ := hc
    have ⟨_, _⟩ := hd
    have hs := start?_eq_some_iff.mpr ⟨show 0xC2 ≤ a.toNat by omega, by omega, rfl⟩
    rw [if_neg (by omega), if_neg (by omega)] at hs
    refine .inr ⟨_, hs, .more ⟨?_, ?_⟩ (Nat.le_succ 2)
      (.more hc (Nat.le_refl 2) (completes_singleton hd (Nat.le_refl 1) hv))⟩ <;>
      dsimp only <;> split <;> omega

/-- What ends the state that a first byte sets makes a character with it: the ranges of the states
shut out just the overlong forms, the surrogates and what lies beyond the last code point. -/
theorem Completes.spells (hs : start? a.toNat = some p) (h : Completes p more v) :
    Spells (a :: more) v := by
  -- The number of bytes that follow is known once the range of the first byte is.
  rcases start?_cases hs with
    ⟨ha, ha', ho, hbits, hl, hh⟩ | ⟨ha, ha', ho, hbits, hl, hh⟩ | ⟨ha, ha', ho, hbits, hl, hh⟩
  · obtain ⟨b, rfl, hb, hv⟩ := h.of_owed_eq_one ho
    rw [Pending.Admits, hl, hh] at hb
    rw [hbits] at hv
    exact .two (by omega) ha' hb hv (by omega)
  · obtain ⟨b, rest, rfl, ⟨hb, hb'⟩, h⟩ := h.of_one_lt_owed (by omega)
    obtain ⟨c, rfl, hc, hv⟩ := h.of_owed_eq_one (by rw [Pending.owed_next, ho])
    rw [Pending.admits_next_iff] at hc
    rw [Pending.bits_next, hbits] at hv
    have ⟨hc₁, hc₂⟩ := hc
    have hcont : Continues b := ⟨by grind, by grind⟩
    refine .three ha ha' hcont hc hv ?_ ?_ <;> grind
  · obtain ⟨b, rest, rfl, ⟨hb, hb'⟩, h⟩ := h.of_one_lt_owed (by omega)
    obtain ⟨c, rest, rfl, hc, h⟩ :=
      h.of_one_lt_owed (by rw [Pending.owed_next, ho]; exact Nat.le_refl 2)
    obtain ⟨d, rfl, hd, hv⟩ := h.of_owed_eq_one (by rw [Pending.owed_next, Pending.owed_next, ho])
    rw [Pending.admits_next_iff] at hc hd
    rw [Pending.bits_next, Pending.bits_next, hbits] at hv
    have ⟨hc₁, hc₂⟩ := hc
    have ⟨hd₁, hd₂⟩ := hd
    have hcont : Continues b := ⟨by grind, by grind⟩
    refine .four ha hcont hc hd hv ?_ ?_ <;> grind

/-! ### The beginning of a character -/

/-- The state behind the bytes that have begun a character. -/
inductive UnderWay : List UInt8 → Pending → Prop where
  | first {a : UInt8} {p : Pending} : start? a.toNat = some p → UnderWay [a] p
  | next {start : List UInt8} {b : UInt8} {p : Pending} :
      UnderWay start p → p.Admits b → 1 < p.owed → UnderWay (start ++ [b]) (p.next b)

theorem UnderWay.ne_nil (h : UnderWay start p) : start ≠ [] := by
  cases h <;> simp

/-- Some byte may come next. -/
theorem UnderWay.exists_admits (h : UnderWay start p) : ∃ b, p.Admits b := by
  cases h with
  | first h =>
    have ⟨hle, hlt⟩ := start?_low_le_high h
    exact ⟨UInt8.ofNat p.low, by rw [Pending.Admits, toNat_ofNat (by omega)]; omega⟩
  | next _ _ _ => exact ⟨0x80, Nat.le_refl 0x80, show 0x80 ≤ 0xBF by omega⟩

/-- The state stands for the bytes: what ends the character behind them is
what ends it from the state. -/
theorem UnderWay.spells_append_iff (h : UnderWay start p) :
    Spells (start ++ more) v ↔ Completes p more v := by
  induction h generalizing more with
  | first h =>
    have hge := (start?_eq_some_iff.mp h).1
    refine ⟨fun hs => ?_, Completes.spells h⟩
    obtain ⟨hlt, -⟩ | ⟨q, hq, hc⟩ := hs.cases_cons
    · omega
    · cases h.symm.trans hq
      exact hc
  | next _ hb ho ih => rw [List.append_assoc, List.singleton_append, ih, completes_cons_iff hb ho]

theorem UnderWay.isUnfinished (h : UnderWay start p) : IsUnfinished start := by
  obtain ⟨b, hb⟩ := h.exists_admits
  obtain ⟨more, v, hc⟩ := exists_completes hb
  exact ⟨b :: more, v, List.cons_ne_nil b more, h.spells_append_iff.mpr hc⟩

/-- A character is broken off by the bytes that its state does not admit. -/
theorem UnderWay.breaks_iff (h : UnderWay start p) : Breaks start b ↔ ¬ p.Admits b := by
  constructor
  · rintro ⟨-, hb⟩ ha
    obtain ⟨more, v, hc⟩ := exists_completes ha
    exact hb ⟨more, v, h.spells_append_iff.mpr hc⟩
  · refine fun hb => ⟨h.isUnfinished, ?_⟩
    rintro ⟨more, v, hs⟩
    cases h.spells_append_iff.mp hs with
    | last ha _ => exact hb ha
    | more ha _ _ => exact hb ha

theorem isUnfinished_nil : IsUnfinished [] := ⟨[0], _, List.cons_ne_nil 0 [], .one (by decide)⟩

/-- Where a character has to begin, the bytes break it off that begin none. -/
theorem breaks_nil_iff : Breaks [] b ↔ 0x80 ≤ b.toNat ∧ start? b.toNat = none := by
  constructor
  · rintro ⟨-, hb⟩
    have hge : 0x80 ≤ b.toNat := Nat.le_of_not_lt fun hlt => hb ⟨[], _, .one hlt⟩
    refine ⟨hge, Option.eq_none_iff_forall_ne_some.mpr fun p hs => ?_⟩
    have hw := UnderWay.first hs
    obtain ⟨c, hc⟩ := hw.exists_admits
    obtain ⟨more, v, hm⟩ := exists_completes hc
    exact hb ⟨c :: more, v, hw.spells_append_iff.mpr hm⟩
  · rintro ⟨hge, hs⟩
    refine ⟨isUnfinished_nil, ?_⟩
    rintro ⟨more, v, h⟩
    obtain ⟨hlt, -⟩ | ⟨p, hp, -⟩ := h.cases_cons
    · omega
    · rw [hs] at hp
      cases hp

/-- Bytes begin a character if they have led to a state. -/
theorem isUnfinished_iff : IsUnfinished start ↔ start = [] ∨ ∃ p, UnderWay start p := by
  constructor
  · rintro ⟨more, v, hmore, hs⟩
    induction start using List.reverseRecOn generalizing more with
    | nil => exact .inl rfl
    | append_singleton start b ih =>
      right
      rw [List.append_assoc, List.singleton_append] at hs
      obtain rfl | ⟨p, hp⟩ := ih (b :: more) (List.cons_ne_nil b more) hs
      · obtain ⟨-, rfl, -⟩ | ⟨p, hp, -⟩ := Spells.cases_cons hs
        · exact absurd rfl hmore
        · exact ⟨p, .first hp⟩
      · cases hp.spells_append_iff.mp hs with
        | last _ _ => exact absurd rfl hmore
        | more hb ho _ => exact ⟨p.next b, .next hp hb ho⟩
  · rintro (rfl | ⟨p, hp⟩)
    · exact isUnfinished_nil
    · exact hp.isUnfinished

/-! ### What the reader makes of it -/

theorem decodeFrom_of_admits (hb : p.Admits b) (ho : 1 < p.owed) (rest : List UInt8) :
    decodeFrom (some p) (b :: rest) = decodeFrom (some (p.next b)) rest := by
  rw [decodeFrom, if_pos ⟨hb.1, hb.2⟩]
  exact if_neg (by omega)

/-- The reader comes to the state that the bytes stand for. -/
theorem UnderWay.decodeFrom_append (h : UnderWay start p) (rest : List UInt8) :
    decodeFrom none (start ++ rest) = decodeFrom (some p) rest := by
  induction h generalizing rest with
  | first h => exact decodeFrom_none_of_start h rest
  | next _ hb ho ih => rw [List.append_assoc, List.singleton_append, ih, decodeFrom_of_admits hb ho]

/-- Only the first byte of a surrogate leads to a state that takes a byte for its second one. -/
theorem UnderWay.isSurrogate_iff (h : UnderWay start p) :
    p.isSurrogate b.toNat = true ↔ IsHalfSurrogate (start ++ [b]) := by
  have hbyte (p : Pending) :
      p.isSurrogate b.toNat = true ↔ p.high = 0x9F ∧ 0xA0 ≤ b.toNat ∧ b.toNat ≤ 0xBF := by
    simp [Pending.isSurrogate, and_assoc]
  rw [hbyte]
  cases h with
  | first h => simp [start?_high_eq_iff h, IsHalfSurrogate]
  | @next start _ _ h _ _ =>
    -- Behind a second byte the range is the one of any following byte, and the bytes are too many.
    constructor
    · exact fun ⟨hhigh, _⟩ => absurd hhigh (show 0xBF ≠ 0x9F by omega)
    · rintro ⟨c, hc, -⟩
      have hlen := congrArg List.length hc
      have hpos := List.length_pos_iff.mpr h.ne_nil
      simp only [List.length_append, List.length_cons, List.length_nil] at hlen
      omega

/-- The text in front of the first fault is kept. -/
theorem decode_encode_append (t : Text) (rest : List UInt8) :
    decode (encode t ++ rest) = ⟨t ++ (decode rest).text, (decode rest).fault⟩ := by
  induction t with
  | nil => rfl
  | cons c t ih =>
    rw [decode] at ih
    rw [decode, encode_cons, List.append_assoc, decodeFrom_spelling (spells_encodeChar c), ih,
      Char.ofNat_toNat]
    rfl

theorem decode_of_isUnfinished (h : IsUnfinished start) (hs : start ≠ []) :
    decode start = ⟨[], some .truncated⟩ := by
  obtain rfl | ⟨p, hp⟩ := isUnfinished_iff.mp h
  · exact absurd rfl hs
  · have hd := hp.decodeFrom_append []
    rwa [List.append_nil] at hd

theorem UnderWay.decode_of_breaks (h : UnderWay start p) (hb : Breaks start b) (rest : List UInt8) :
    decode (start ++ b :: rest) =
      ⟨[], some (if p.isSurrogate b.toNat && rest.isEmpty then .truncatedSurrogate
        else .badContinuation)⟩ := by
  have hna := h.breaks_iff.mp hb
  rw [decode, h.decodeFrom_append, decodeFrom, if_neg (fun ha => hna ⟨ha.1, ha.2⟩)]
  split <;> rfl

/-- A byte that breaks a character off is named by its place. -/
theorem decode_of_breaks (hb : Breaks start b) (hs : ¬ IsHalfSurrogate (start ++ b :: rest)) :
    decode (start ++ b :: rest) =
      ⟨[], some (if start = [] then .badStart else .badContinuation)⟩ := by
  obtain rfl | ⟨p, hp⟩ := isUnfinished_iff.mp hb.1
  · obtain ⟨hge, hnone⟩ := breaks_nil_iff.mp hb
    rw [decode, List.nil_append, decodeFrom, if_neg (by omega), hnone, if_pos rfl]
  · rw [hp.decode_of_breaks hb, if_neg hp.ne_nil, if_neg]
    rw [Bool.and_eq_true, List.isEmpty_iff, hp.isSurrogate_iff]
    rintro ⟨hhalf, rfl⟩
    exact hs hhalf

theorem underWay_surrogate : UnderWay [0xED] ⟨0xD, 2, 0x80, 0x9F⟩ := .first rfl

/-- The second byte of a surrogate breaks off what the first one has begun. -/
theorem IsHalfSurrogate.exists_breaks (h : IsHalfSurrogate bytes) :
    ∃ b, bytes = [0xED, b] ∧ Breaks [0xED] b := by
  obtain ⟨b, rfl, hlow, hhigh⟩ := h
  refine ⟨b, rfl, underWay_surrogate.breaks_iff.mpr fun hb => ?_⟩
  have hmost : b.toNat ≤ 0x9F := hb.2
  omega

/-- Of a surrogate the reader waits for the last byte. -/
theorem decode_of_isHalfSurrogate (h : IsHalfSurrogate bytes) :
    decode bytes = ⟨[], some .truncatedSurrogate⟩ := by
  obtain ⟨b, rfl, hb⟩ := h.exists_breaks
  have hs := underWay_surrogate.isSurrogate_iff.mpr h
  have hd := underWay_surrogate.decode_of_breaks hb []
  rwa [hs, List.isEmpty_nil, Bool.and_self, if_pos rfl] at hd

/-! ### The ways that bytes end -/

/-- From a state, the bytes are used up, break the character off or end it. -/
theorem UnderWay.append_cases (h : UnderWay start p) (rest : List UInt8) :
    IsUnfinished (start ++ rest) ∨
    (∃ more b tail, rest = more ++ b :: tail ∧ Breaks (start ++ more) b) ∨
    ∃ first v tail, rest = first ++ tail ∧ Spells (start ++ first) v := by
  induction rest generalizing start p with
  | nil => exact .inl (by rw [List.append_nil]; exact h.isUnfinished)
  | cons b rest ih =>
    by_cases hb : p.Admits b
    · by_cases ho : p.owed ≤ 1
      · exact .inr (.inr ⟨[b], _, rest, rfl, h.spells_append_iff.mpr (.last hb ho)⟩)
      · obtain hu | ⟨more, c, tail, rfl, hc⟩ | ⟨first, v, tail, rfl, hv⟩ :=
          ih (.next h hb (by omega))
        · exact .inl (by rwa [List.append_assoc] at hu)
        · exact .inr (.inl ⟨b :: more, c, tail, rfl, by rwa [List.append_assoc] at hc⟩)
        · exact .inr (.inr ⟨b :: first, v, tail, rfl, by rwa [List.append_assoc] at hv⟩)
    · exact .inr (.inl ⟨[], b, rest, rfl, by rw [List.append_nil]; exact h.breaks_iff.mpr hb⟩)

/-- Bytes begin a character, hold one that is broken off, or hold one first. -/
theorem bytes_cases (bytes : List UInt8) :
    IsUnfinished bytes ∨ (∃ start b more, bytes = start ++ b :: more ∧ Breaks start b) ∨
    ∃ first v tail, bytes = first ++ tail ∧ Spells first v := by
  cases bytes with
  | nil => exact .inl isUnfinished_nil
  | cons a rest =>
    by_cases ha : a.toNat < 0x80
    · exact .inr (.inr ⟨[a], _, rest, rfl, .one ha⟩)
    cases hs : start? a.toNat with
    | none => exact .inr (.inl ⟨[], a, rest, rfl, breaks_nil_iff.mpr ⟨by omega, hs⟩⟩)
    | some p =>
      obtain hu | ⟨more, b, tail, rfl, hb⟩ | ⟨first, v, tail, rfl, hv⟩ :=
        (UnderWay.first hs).append_cases rest
      · exact .inl hu
      · exact .inr (.inl ⟨a :: more, b, tail, rfl, hb⟩)
      · exact .inr (.inr ⟨a :: first, v, tail, rfl, hv⟩)

/-- All bytes are the bytes of a text, and either the beginning of a character, or bytes of which
one breaks a character off. -/
theorem exists_text_and_rest (bytes : List UInt8) :
    ∃ t rest, bytes = encode t ++ rest ∧
      (IsUnfinished rest ∨ ∃ start b more, rest = start ++ b :: more ∧ Breaks start b) := by
  -- A character takes at least one byte away, so the induction is on the number of bytes.
  induction hn : bytes.length using Nat.strongRecOn generalizing bytes with
  | ind n ih =>
    obtain hu | hb | ⟨first, v, tail, rfl, hv⟩ := bytes_cases bytes
    · exact ⟨[], bytes, rfl, .inl hu⟩
    · exact ⟨[], bytes, rfl, .inr hb⟩
    · have hpos := hv.length_pos
      rw [List.length_append] at hn
      obtain ⟨t, rest, rfl, hrest⟩ := ih tail.length (by omega) tail rfl
      refine ⟨Char.ofNat v :: t, rest, ?_, hrest⟩
      rw [encode_cons, encodeChar_of_spells hv, List.append_assoc]

end Utf8

end BazelRunfiles
