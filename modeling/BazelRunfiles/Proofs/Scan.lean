/-!
Scans of a list. A scan looks for the first or the last member that gives something, where a
relation says what a member gives. `findSome?_eq_some_iff_firstOf` and
`reverse_findSome?_eq_some_iff_lastOf` find them by a function that agrees with the relation.
-/

namespace BazelRunfiles

variable {α β γ : Type}

/-- Of the members that give something, the first one gives `b`. -/
def FirstOf (gives : α → β → Prop) (xs : List α) (b : β) : Prop :=
  ∃ before x after, xs = before ++ x :: after ∧ gives x b ∧ ∀ y ∈ before, ∀ b', ¬ gives y b'

/-- Of the members that give something, the last one gives `b`. -/
def LastOf (gives : α → β → Prop) (xs : List α) (b : β) : Prop :=
  ∃ before x after, xs = before ++ x :: after ∧ gives x b ∧ ∀ y ∈ after, ∀ b', ¬ gives y b'

/-- Some member gives something. -/
def AnyOf (gives : α → β → Prop) (xs : List α) : Prop := ∃ x ∈ xs, ∃ b, gives x b

variable {gives : α → β → Prop} {f : α → Option β} {xs : List α} {b : β}

/-- What comes first in a part at the front comes first in all. -/
theorem FirstOf.append (h : FirstOf gives xs b) (more : List α) : FirstOf gives (xs ++ more) b := by
  obtain ⟨before, x, after, rfl, hx, hbefore⟩ := h
  exact ⟨before, x, after ++ more, by rw [List.append_assoc, List.cons_append], hx, hbefore⟩

theorem eq_none_iff_of_gives (hf : ∀ x b, f x = some b ↔ gives x b) (x : α) :
    f x = none ↔ ∀ b, ¬ gives x b := by
  simp only [Option.eq_none_iff_forall_ne_some, ne_eq, hf]

theorem findSome?_eq_some_iff_firstOf (hf : ∀ x b, f x = some b ↔ gives x b) :
    xs.findSome? f = some b ↔ FirstOf gives xs b := by
  simp only [List.findSome?_eq_some_iff, hf, eq_none_iff_of_gives hf, FirstOf]

theorem reverse_findSome?_eq_some_iff_lastOf (hf : ∀ x b, f x = some b ↔ gives x b) :
    xs.reverse.findSome? f = some b ↔ LastOf gives xs b := by
  rw [findSome?_eq_some_iff_firstOf hf]
  refine ⟨?_, ?_⟩
  · rintro ⟨before, x, after, h, hx, hbefore⟩
    refine ⟨after.reverse, x, before.reverse, ?_, hx, by simpa using hbefore⟩
    rw [← List.reverse_reverse xs, h]
    simp
  · rintro ⟨before, x, after, rfl, hx, hafter⟩
    exact ⟨after.reverse, x, before.reverse, by simp, hx, by simpa using hafter⟩

theorem findSome?_eq_none_iff_not_anyOf (hf : ∀ x b, f x = some b ↔ gives x b) :
    xs.findSome? f = none ↔ ¬ AnyOf gives xs := by
  simp only [List.findSome?_eq_none_iff, eq_none_iff_of_gives hf, AnyOf, not_exists, not_and]

theorem findSome?_filterMap (f : β → Option γ) (g : α → Option β) (xs : List α) :
    (xs.filterMap g).findSome? f = xs.findSome? fun x => (g x).bind f := by
  induction xs with
  | nil => rfl
  | cons x rest ih => cases h : g x <;> simp [h, ih, List.findSome?_cons]

end BazelRunfiles
