import Mathlib.Data.List.NodupEquivFin

/-!
Lists in another order. Some members of a list conflict, and a reordering may move all
others past each other. Members of a kind of which any two conflict then stand in the same
order in both lists (`Reordered.filter_eq`), and a scan for members of such a kind ends
alike, from the front and from the end.
-/

namespace BazelRunfiles

variable {α β : Type} {conflict : α → α → Prop} {xs ys : List α}

/-- The second list has the members of the first in other places, but
conflicting ones in the same order. -/
def Reordered (conflict : α → α → Prop) (xs ys : List α) : Prop :=
  ∃ place : Fin xs.length ≃ Fin ys.length, (∀ i, ys.get (place i) = xs.get i) ∧
    ∀ i j, conflict (xs.get i) (xs.get j) → (i < j ↔ place i < place j)

theorem Reordered.symm (h : Reordered conflict xs ys) : Reordered conflict ys xs := by
  obtain ⟨place, hplace, horder⟩ := h
  have hback (i : Fin ys.length) : xs.get (place.symm i) = ys.get i := by
    rw [← hplace, Equiv.apply_symm_apply]
  refine ⟨place.symm, hback, ?_⟩
  intro i j hconflict
  rw [← hback i, ← hback j] at hconflict
  have := horder _ _ hconflict
  rw [Equiv.apply_symm_apply, Equiv.apply_symm_apply] at this
  exact this.symm

/-- Members of a kind keep their order if any two of them conflict. -/
theorem Reordered.filter_sublist {kind : α → Bool} (h : Reordered conflict xs ys)
    (hkind : ∀ x y, kind x → kind y → conflict x y) :
    (xs.filter kind).Sublist (ys.filter kind) := by
  obtain ⟨place, hplace, horder⟩ := h
  obtain ⟨f, hf⟩ :=
    List.sublist_iff_exists_fin_orderEmbedding_get_eq.mp (List.filter_sublist (p := kind) (l := xs))
  have hmember (i : Fin (xs.filter kind).length) : kind (xs.get (f i)) := by
    rw [← hf]
    exact (List.mem_filter.mp (List.get_mem _ i)).2
  have hmono : StrictMono fun i => place (f i) := by
    intro i j hij
    exact (horder _ _ (hkind _ _ (hmember i) (hmember j))).mp (f.strictMono hij)
  have hsublist : (xs.filter kind).Sublist ys := by
    refine List.sublist_iff_exists_fin_orderEmbedding_get_eq.mpr
      ⟨OrderEmbedding.ofStrictMono _ hmono, ?_⟩
    intro i
    rw [hf]
    exact (hplace (f i)).symm
  simpa using hsublist.filter kind

theorem Reordered.filter_eq {kind : α → Bool} (h : Reordered conflict xs ys)
    (hkind : ∀ x y, kind x → kind y → conflict x y) : xs.filter kind = ys.filter kind :=
  (h.filter_sublist hkind).antisymm (h.symm.filter_sublist hkind)

theorem Reordered.mem_iff (h : Reordered conflict xs ys) (x : α) : x ∈ xs ↔ x ∈ ys := by
  have mem {us vs : List α} (h : Reordered conflict us vs) (hx : x ∈ us) : x ∈ vs := by
    obtain ⟨place, hplace, -⟩ := h
    obtain ⟨i, rfl⟩ := List.get_of_mem hx
    rw [← hplace]
    exact List.get_mem vs _
  exact ⟨mem h, mem h.symm⟩

theorem findSome?_filter_isSome (f : α → Option β) (xs : List α) :
    (xs.filter fun x => (f x).isSome).findSome? f = xs.findSome? f := by
  rw [← List.head?_filterMap, List.filterMap_filter, ← List.head?_filterMap]
  congr 2
  funext x
  cases f x <;> rfl

/-- A scan finds the same first member in both lists if any two of those
that give something conflict. -/
theorem Reordered.findSome?_eq {f : α → Option β} (h : Reordered conflict xs ys)
    (hf : ∀ x y, (f x).isSome → (f y).isSome → conflict x y) : xs.findSome? f = ys.findSome? f := by
  rw [← findSome?_filter_isSome, h.filter_eq hf, findSome?_filter_isSome]

/-- So does a scan from the end. -/
theorem Reordered.reverse_findSome?_eq {f : α → Option β} (h : Reordered conflict xs ys)
    (hf : ∀ x y, (f x).isSome → (f y).isSome → conflict x y) :
    xs.reverse.findSome? f = ys.reverse.findSome? f := by
  rw [← findSome?_filter_isSome, List.filter_reverse, h.filter_eq hf, ← List.filter_reverse,
    findSome?_filter_isSome]

end BazelRunfiles
