import Mathlib.Algebra.GroupWithZero.Nat
import Mathlib.Data.List.GetD
import Mathlib.Data.Set.Lattice
import Mathlib.Order.CompletePartialOrder
import Mathlib.Order.Interval.Set.Basic
import Mathlib.Tactic.WLOG

/-!
# Lists packed one after another

Parts laid end to end in one list. Every part is found again at its start,
the places of two parts never meet, and together the places are the list.
-/

set_option autoImplicit false

namespace Slices

variable {α : Type*} (parts : List (List α))

def start (k : ℕ) : ℕ := ((parts.take k).map List.length).sum

def places (k : ℕ) : Set ℕ := Set.Ico (start parts k) (start parts k + (parts.getD k []).length)

def tupleAt (list : List α) (index components : ℕ) : List α := (list.drop index).take components

@[simp] theorem start_zero : start parts 0 = 0 := by simp [start]

@[simp] theorem start_cons (part : List α) (k : ℕ) :
    start (part::parts) (k + 1) = part.length + start parts k := by simp [start]

@[simp] theorem start_nil (k : ℕ) : start ([] : List (List α)) k = 0 := by simp [start]

theorem start_succ (k : ℕ) : start parts (k + 1) = start parts k + (parts.getD k []).length := by
  induction parts generalizing k with
  | nil => simp
  | cons part parts ih =>
    cases k with
    | zero => simp
    | succ k => simp [ih, Nat.add_assoc]

theorem start_mono {j k : ℕ} (h : j ≤ k) : start parts j ≤ start parts k := by
  induction k, h using Nat.le_induction with
  | base => exact Nat.le_refl _
  | succ k _ ih =>
    rw [start_succ]
    omega

theorem drop_start (k : ℕ) : parts.flatten.drop (start parts k) = (parts.drop k).flatten := by
  induction parts generalizing k with
  | nil => simp
  | cons part parts ih =>
    cases k with
    | zero => simp
    | succ k => simp [List.drop_append, ih]

theorem drop_flatten (k : ℕ) :
    (parts.drop k).flatten = parts.getD k [] ++ (parts.drop (k + 1)).flatten := by
  induction parts generalizing k with
  | nil => simp
  | cons part parts ih =>
    cases k with
    | zero => simp
    | succ k => simpa using ih k

theorem tupleAt_start {k index components : ℕ}
    (h : index + components ≤ (parts.getD k []).length) :
    tupleAt parts.flatten (start parts k + index) components =
      tupleAt (parts.getD k []) index components := by
  have hi : index ≤ (parts.getD k []).length := by omega
  have hc : components ≤ ((parts.getD k []).drop index).length := by
    rw [List.length_drop]
    omega
  rw [tupleAt, ← List.drop_drop, drop_start, drop_flatten, List.drop_append_of_le_length hi,
    List.take_append_of_le_length hc, tupleAt]

theorem tupleAt_eq {list : List α} {index components : ℕ} (h : index + components ≤ list.length)
    (default : α) : tupleAt list index components =
      (List.range components).map fun j => list.getD (index + j) default := by
  apply List.ext_getElem
  · simp only [tupleAt, List.length_take, List.length_drop, List.length_map, List.length_range]
    omega
  · intro j hj hj'
    have hlt : j < components := by simpa using hj'
    rw [List.getElem_map, List.getElem_range, List.getD_eq_getElem _ _ (by omega)]
    simp [tupleAt]

theorem slice_eq (k : ℕ) :
    tupleAt parts.flatten (start parts k) (parts.getD k []).length = parts.getD k [] := by
  rw [tupleAt, drop_start, drop_flatten, List.take_left]

theorem places_disjoint {j k : ℕ} (h : j ≠ k) : Disjoint (places parts j) (places parts k) := by
  wlog hlt : j < k generalizing j k
  · exact (this h.symm (by omega)).symm
  have hle : start parts (j + 1) ≤ start parts k := start_mono parts hlt
  rw [start_succ] at hle
  rw [Set.disjoint_left]
  rintro index ⟨-, hj⟩ ⟨hk, -⟩
  omega

theorem mem_places_iff (index : ℕ) :
    (∃ k < parts.length, index ∈ places parts k) ↔ index < parts.flatten.length := by
  induction parts generalizing index with
  | nil => simp
  | cons part parts ih =>
    by_cases h : index < part.length
    · refine iff_of_true ⟨0, by simp, by simpa [places] using h⟩ ?_
      rw [List.flatten_cons, List.length_append]
      omega
    have hrest := ih (index - part.length)
    rw [List.flatten_cons, List.length_append]
    constructor
    · rintro ⟨k, hk, hmem⟩
      cases k with
      | zero => exact absurd (by simpa [places] using hmem) h
      | succ k =>
        simp only [places, start_cons, List.getD_cons_succ, Set.mem_Ico] at hmem
        have := hrest.mp ⟨k, by simpa using hk, by simp only [places, Set.mem_Ico]; omega⟩
        omega
    · intro hlt
      obtain ⟨k, hk, hmem⟩ := hrest.mpr (by omega)
      simp only [places, Set.mem_Ico] at hmem
      refine ⟨k + 1, by simpa using hk, ?_⟩
      simp only [places, start_cons, List.getD_cons_succ, Set.mem_Ico]
      omega

end Slices
