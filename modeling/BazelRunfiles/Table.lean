/-!
Tables: finite maps that remember the order in which their keys were first put. A repeated key keeps
its place; `insert` gives it the new value and `insertNew` leaves it the old one. Keys never repeat,
and that is part of the type.
-/

namespace BazelRunfiles

namespace Rows

variable {κ ν : Type} [DecidableEq κ]

/-- The value of `k`. -/
def find? (k : κ) (rows : List (κ × ν)) : Option ν := rows.lookup k

/-- The rows without that of `k`. -/
def erase (k : κ) (rows : List (κ × ν)) : List (κ × ν) := rows.filter (·.1 ≠ k)

/-- Gives `k` the value `v` in its place, or behind all rows if it is new. -/
def put (k : κ) (v : ν) : List (κ × ν) → List (κ × ν)
  | [] => [(k, v)]
  | row :: rest => if row.1 = k then (k, v) :: rest else row :: put k v rest

theorem mem_keys_put {k x : κ} {v : ν} {rows : List (κ × ν)} :
    x ∈ (put k v rows).map Prod.fst ↔ x = k ∨ x ∈ rows.map Prod.fst := by
  induction rows with
  | nil => simp [put]
  | cons row rest ih =>
    simp only [put]
    split
    · next h => subst h; simp
    · simp only [List.map_cons, List.mem_cons, ih]
      constructor <;> rintro (h | h | h) <;> simp [h]

theorem nodup_keys_put {k : κ} {v : ν} {rows : List (κ × ν)} (h : (rows.map Prod.fst).Nodup) :
    ((put k v rows).map Prod.fst).Nodup := by
  induction rows with
  | nil => simp [put]
  | cons row rest ih =>
    simp only [List.map_cons, List.nodup_cons] at h
    simp only [put]
    split
    · next hk => subst hk; simpa using h
    · next hk =>
      simp only [List.map_cons, List.nodup_cons, mem_keys_put, not_or]
      exact ⟨⟨hk, h.1⟩, ih h.2⟩

theorem put_of_notMem {k : κ} {rows : List (κ × ν)} (h : k ∉ rows.map Prod.fst) (v : ν) :
    put k v rows = rows ++ [(k, v)] := by
  induction rows with
  | nil => rfl
  | cons row rest ih =>
    simp only [List.map_cons, List.mem_cons, not_or] at h
    rw [put, if_neg (Ne.symm h.1), ih h.2, List.cons_append]

theorem find?_put {k x : κ} {v : ν} {rows : List (κ × ν)} :
    find? x (put k v rows) = if x = k then some v else find? x rows := by
  simp only [find?]
  induction rows with
  | nil =>
    by_cases h : x = k
    · simp [put, h]
    · simp [put, List.lookup_cons, h, beq_eq_false_iff_ne.mpr h]
  | cons row rest ih =>
    obtain ⟨k', v'⟩ := row
    by_cases hk : k' = k <;> by_cases h : x = k'
    · subst hk h; simp [put]
    · subst hk; simp [put, List.lookup_cons, h, beq_eq_false_iff_ne.mpr h]
    · subst h; simp [put, hk]
    · simp [put, hk, List.lookup_cons, beq_eq_false_iff_ne.mpr h, ih]

end Rows

/-- A finite map that keeps the order of first insertion. -/
structure Table (κ ν : Type) where
  /-- Keys and values in order. -/
  rows : List (κ × ν)
  /-- No key stands in two rows. -/
  nodup_keys : (rows.map Prod.fst).Nodup

namespace Table

variable {κ ν : Type} [DecidableEq κ]

/-- The table without rows. -/
def empty : Table κ ν := ⟨[], by simp⟩

/-- The value of a key. -/
def find? (t : Table κ ν) (k : κ) : Option ν := Rows.find? k t.rows

/-- Gives a key a value; the last value put counts. -/
def insert (t : Table κ ν) (k : κ) (v : ν) : Table κ ν :=
  ⟨Rows.put k v t.rows, Rows.nodup_keys_put t.nodup_keys⟩

/-- Gives a key a value unless it has one; the first value put counts. -/
def insertNew (t : Table κ ν) (k : κ) (v : ν) : Table κ ν :=
  if (t.find? k).isSome then t else t.insert k v

/-- Takes a key out. -/
def erase (t : Table κ ν) (k : κ) : Table κ ν :=
  ⟨Rows.erase k t.rows, t.nodup_keys.sublist (List.filter_sublist.map _)⟩

/-- Inserts rows one after the other. -/
def ofList (rows : List (κ × ν)) : Table κ ν :=
  rows.foldl (fun t row => t.insert row.1 row.2) empty

/-- The number of keys. -/
def size (t : Table κ ν) : Nat := t.rows.length

omit [DecidableEq κ] in
@[ext] theorem ext {s t : Table κ ν} (h : s.rows = t.rows) : s = t := by
  cases s; cases t; cases h; rfl

@[simp] theorem find?_empty (k : κ) : (empty : Table κ ν).find? k = none := rfl

@[simp] theorem find?_insert (t : Table κ ν) (k x : κ) (v : ν) :
    (t.insert k v).find? x = if x = k then some v else t.find? x := Rows.find?_put

/-- Of the values that are put for a key, the last one counts. -/
theorem find?_foldl_insert {α : Type} (key : α → κ) (value : α → ν) (xs : List α) (t : Table κ ν)
    (k : κ) :
    (xs.foldl (fun t x => t.insert (key x) (value x)) t).find? k =
      (xs.reverse.findSome? fun x => if key x = k then some (value x) else none).or
        (t.find? k) := by
  induction xs generalizing t with
  | nil => rfl
  | cons x rest ih =>
    rw [List.foldl_cons, ih, List.reverse_cons, List.findSome?_append, find?_insert]
    by_cases h : key x = k
    · simp [h]
    · simp [h, Ne.symm h]

theorem find?_insertNew (t : Table κ ν) (k x : κ) (v : ν) :
    (t.insertNew k v).find? x = if x = k then some ((t.find? k).getD v) else t.find? x := by
  unfold insertNew
  split
  · next h =>
    split
    · next hx => subst hx; obtain ⟨w, hw⟩ := Option.isSome_iff_exists.mp h; simp [hw]
    · rfl
  · next h =>
    simp only [Option.not_isSome_iff_eq_none] at h
    simp [h]

theorem mem_rows_iff_find? {t : Table κ ν} {k : κ} {v : ν} :
    (k, v) ∈ t.rows ↔ t.find? k = some v := by
  obtain ⟨rows, h⟩ := t
  simp only [find?, Rows.find?]
  induction rows with
  | nil => simp
  | cons row rest ih =>
    simp only [List.map_cons, List.nodup_cons] at h
    have ih := ih h.2
    obtain ⟨k', v'⟩ := row
    by_cases hk : k = k'
    · subst hk
      have hn : (k, v) ∉ rest := fun hm => h.1 (List.mem_map.mpr ⟨_, hm, rfl⟩)
      simp [hn, eq_comm]
    · simp [hk, List.lookup_cons, beq_eq_false_iff_ne.mpr hk, ih]

theorem notMem_keys_of_find?_eq_none {t : Table κ ν} {k : κ} (h : t.find? k = none) :
    k ∉ t.rows.map Prod.fst := by
  intro hk
  obtain ⟨⟨_, v⟩, hm, rfl⟩ := List.mem_map.mp hk
  rw [mem_rows_iff_find?.mp hm] at h
  cases h

/-- Of the values that are put for new keys only, the first one counts where keys are looked for by
a test: a value that is not put has a row for its key before it. -/
theorem findSome?_rows_insertNew (t : Table κ ν) (k : κ) (v : ν) (test : κ → Bool) :
    ((t.insertNew k v).rows.findSome? fun row => if test row.1 then some row.2 else none) =
      (t.rows.findSome? fun row => if test row.1 then some row.2 else none).or
        (if test k then some v else none) := by
  unfold insertNew
  split
  · next h =>
    obtain ⟨w, hw⟩ := Option.isSome_iff_exists.mp h
    by_cases hk : test k
    · have hs : (t.rows.findSome? fun row => if test row.1 then some row.2 else none).isSome :=
        List.findSome?_isSome_iff.mpr ⟨(k, w), mem_rows_iff_find?.mpr hw, by simp [hk]⟩
      rw [Option.or_of_isSome hs]
    · simp [hk]
  · next h =>
    have hn := notMem_keys_of_find?_eq_none (Option.not_isSome_iff_eq_none.mp h)
    have hr : (t.insert k v).rows = t.rows ++ [(k, v)] := Rows.put_of_notMem hn v
    rw [hr, List.findSome?_append]
    simp

end Table

end BazelRunfiles
