import Mathlib.Data.List.Basic

/-! # Tables of rows

A table is the list of its rows in insertion order. Queries select by a key;
updates rewrite every row that meets a condition and never change the key. -/

namespace Table

variable {α κ : Type*} [DecidableEq κ] {key : α → κ} {k : κ} {p : α → Prop} [DecidablePred p]
  {f : α → α} {rows : List α}

/-- `SELECT … WHERE key = k`, all matching rows. -/
def select (key : α → κ) (k : κ) (rows : List α) : List α :=
  rows.filter fun row => key row = k

/-- `SELECT … WHERE key = k`, the row a single-row query returns. -/
def lookup (key : α → κ) (k : κ) (rows : List α) : Option α :=
  rows.find? fun row => key row = k

/-- `UPDATE … SET f WHERE p`. -/
def update (p : α → Prop) [DecidablePred p] (f : α → α) (rows : List α) : List α :=
  rows.map fun row => if p row then f row else row

theorem lookup_eq_head_select : lookup key k rows = (select key k rows).head? := by
  simp [lookup, select, List.head?_filter]

variable {row : α} {more : List α}

theorem lookup_key (h : lookup key k rows = some row) : key row = k := by
  simpa using List.find?_some h

theorem select_key (h : row ∈ select key k rows) : key row = k := by
  simpa [select] using (List.mem_filter.mp h).2

@[simp] theorem select_nil : select key k [] = [] := rfl

theorem select_append : select key k (rows ++ more) = select key k rows ++ select key k more := by
  simp [select]

theorem select_append_self (h : key row = k) :
    select key k (rows ++ [row]) = select key k rows ++ [row] := by
  simp [select, h]

theorem select_append_ne (h : key row ≠ k) : select key k (rows ++ [row]) = select key k rows := by
  simp [select, h]

/-- Rows of one key, appended. -/
theorem select_append_all (h : ∀ row ∈ more, key row = k) :
    select key k (rows ++ more) = select key k rows ++ more := by
  rw [select_append]
  congr 1
  exact List.filter_eq_self.mpr fun row hrow => by simp [h row hrow]

/-- Rows of other keys, appended. -/
theorem select_append_none (h : ∀ row ∈ more, key row ≠ k) :
    select key k (rows ++ more) = select key k rows := by
  rw [select_append]
  have hnil : select key k more = [] :=
    List.filter_eq_nil_iff.mpr fun row hrow => by simp [h row hrow]
  rw [hnil, List.append_nil]

theorem lookup_append_ne (h : key row ≠ k) : lookup key k (rows ++ [row]) = lookup key k rows := by
  simp [lookup_eq_head_select, select_append_ne h]

theorem lookup_append_self (h : key row = k) (hn : lookup key k rows = none) :
    lookup key k (rows ++ [row]) = some row := by
  simp only [lookup, List.find?_append] at *
  simp [hn, h]

theorem lookup_append_of_some (h : lookup key k rows = some row) :
    lookup key k (rows ++ more) = some row := by
  simp only [lookup, List.find?_append] at *
  simp [h]

theorem update_eq_self (h : ∀ row ∈ rows, ¬ p row) : update p f rows = rows := by
  unfold update
  conv_rhs => rw [← List.map_id rows]
  exact List.map_congr_left fun row hrow => by simp [h row hrow]

section

variable (hf : ∀ row, key (f row) = key row)
include hf

theorem select_update : select key k (update p f rows) = update p f (select key k rows) := by
  induction rows with
  | nil => rfl
  | cons row rest ih =>
    have hkey : key (if p row then f row else row) = key row := by
      split
      · exact hf row
      · rfl
    simp only [select, update, List.map_cons, List.filter_cons, hkey] at ih ⊢
    split
    · rw [List.map_cons, ih]
    · exact ih

theorem lookup_update :
    lookup key k (update p f rows) =
      (lookup key k rows).map fun row => if p row then f row else row := by
  rw [lookup_eq_head_select, select_update hf, lookup_eq_head_select, update, List.head?_map]

/-- An update of one key, seen from the rows of that key. -/
theorem select_update_self :
    select key k (update (fun row => key row = k ∧ p row) f rows) =
      update p f (select key k rows) := by
  rw [select_update hf]
  refine List.map_congr_left fun row hrow => ?_
  simp [select_key hrow]

/-- An update guarded by another key leaves the rows of this key alone. -/
theorem select_update_ne (hp : ∀ row, key row = k → ¬ p row) :
    select key k (update p f rows) = select key k rows := by
  rw [select_update hf]
  exact update_eq_self fun row hrow => hp row (select_key hrow)

theorem lookup_update_ne (hp : ∀ row, key row = k → ¬ p row) :
    lookup key k (update p f rows) = lookup key k rows := by
  rw [lookup_eq_head_select, select_update_ne hf hp, lookup_eq_head_select]

end

/-! ## Distinct keys -/

theorem mem_of_lookup (h : lookup key k rows = some row) : row ∈ rows :=
  List.mem_of_find?_eq_some h

theorem key_ne_of_lookup_none (h : lookup key k rows = none) (hrow : row ∈ rows) : key row ≠ k := by
  simpa using List.find?_eq_none.mp h row hrow

theorem lookup_of_mem (hd : (rows.map key).Nodup) (h : row ∈ rows) :
    lookup key (key row) rows = some row := by
  induction rows with
  | nil => cases h
  | cons head rest ih =>
    rw [List.map_cons, List.nodup_cons] at hd
    rcases List.mem_cons.mp h with rfl | h
    · simp [lookup]
    have hne : key head ≠ key row := by
      intro heq
      exact hd.1 (heq ▸ List.mem_map_of_mem h)
    simpa [lookup, hne] using ih hd.2 h

omit [DecidableEq κ] in
theorem map_key_update (hf : ∀ row, key (f row) = key row) :
    (update p f rows).map key = rows.map key := by
  rw [update, List.map_map]
  refine List.map_congr_left fun row _ => ?_
  simp only [Function.comp_apply]
  split
  · exact hf row
  · rfl

theorem nodup_append (hd : (rows.map key).Nodup) (h : lookup key (key row) rows = none) :
    ((rows ++ [row]).map key).Nodup := by
  rw [List.map_append, List.map_singleton, List.nodup_append]
  refine ⟨hd, by simp, ?_⟩
  rintro _ hx _ hy rfl
  obtain rfl := List.mem_singleton.mp hy
  obtain ⟨other, hother, heq⟩ := List.mem_map.mp hx
  exact key_ne_of_lookup_none h hother heq

/-- A property of all rows after the row of one key is rewritten. -/
theorem forall_update {P : α → Prop} (hd : (rows.map key).Nodup) (hP : ∀ row ∈ rows, P row)
    (hf : ∀ row, lookup key k rows = some row → P (f row)) :
    ∀ row ∈ update (fun row => key row = k) f rows, P row := by
  intro row hrow
  obtain ⟨old, hold, rfl⟩ := List.mem_map.mp hrow
  split
  · rename_i hk
    exact hf old (hk ▸ lookup_of_mem hd hold)
  · exact hP old hold

end Table
