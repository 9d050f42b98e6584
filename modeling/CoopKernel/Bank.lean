/-!
# Banks of cells

A bank is a table of cells addressed by numbered keys. A cell that was never
written reads as the blank value, so reading and writing are total and obey one
law, `get_set`.
-/

namespace CoopKernel

universe u

/-- Keys that are told apart by a number. -/
class Numbered (ι : Type) where
  number : ι → Nat
  number_inj : ∀ i j, number i = number j → i = j

instance : Numbered Nat := ⟨id, fun _ _ h => h⟩

structure Bank (ι : Type) (α : Type u) where
  blank : α
  cells : Array α := #[]

namespace Bank

open Numbered

variable {ι : Type} [Numbered ι] {α : Type u}

def ofList (blank : α) (values : List α) : Bank Nat α := ⟨blank, values.toArray⟩

/-- Cells beyond the last written one are not counted. -/
def size (b : Bank ι α) : Nat := b.cells.size

def get (b : Bank ι α) (i : ι) : α := b.cells.getD (number i) b.blank

/-- Writing past the end fills the gap with blank cells. -/
def set (b : Bank ι α) (i : ι) (a : α) : Bank ι α :=
  if h : number i < b.cells.size then { b with cells := b.cells.set (number i) a h }
  else { b with cells := (b.cells ++ Array.replicate (number i - b.cells.size) b.blank).push a }

def modify (b : Bank ι α) (i : ι) (f : α → α) : Bank ι α := b.set i (f (b.get i))

/-- The values of the counted cells, in the order of their numbers. -/
def toList (b : Bank ι α) : List α := b.cells.toList

theorem get_set_number (b : Bank ι α) (i j : ι) (a : α) :
    (b.set i a).get j = if number j = number i then a else b.get j := by
  unfold set get
  generalize number j = n
  generalize number i = m
  split <;> rename_i h
  · by_cases hj : n = m
    · subst hj; simp [h]
    · simp [hj, Array.getElem?_set_ne, Ne.symm hj]
  · have hs : b.cells.size + (m - b.cells.size) = m := by omega
    simp only [Array.getD_eq_getD_getElem?, Array.getElem?_push, Array.size_append,
      Array.size_replicate, hs, Array.getElem?_append, Array.getElem?_replicate]
    by_cases hj : n = m
    · simp [hj]
    · by_cases hlt : n < b.cells.size
      · simp [hj, hlt]
      · simp only [hj, if_false, hlt]
        split <;> simp [hlt]

theorem get_set [DecidableEq ι] (b : Bank ι α) (i j : ι) (a : α) :
    (b.set i a).get j = if j = i then a else b.get j := by
  rw [get_set_number]
  by_cases h : j = i
  · simp [h]
  · rw [if_neg h, if_neg fun e => h (number_inj j i e)]

@[simp] theorem get_set_same (b : Bank ι α) (i : ι) (a : α) : (b.set i a).get i = a := by
  simp [get_set_number]

theorem get_set_ne (b : Bank ι α) {i j : ι} (a : α) (h : j ≠ i) : (b.set i a).get j = b.get j := by
  rw [get_set_number, if_neg fun e => h (number_inj j i e)]

theorem get_modify [DecidableEq ι] (b : Bank ι α) (i j : ι) (f : α → α) :
    (b.modify i f).get j = if j = i then f (b.get i) else b.get j := get_set b i j _

theorem size_set (b : Bank ι α) (i : ι) (a : α) :
    (b.set i a).size = max b.size (number i + 1) := by
  unfold set size
  split <;> simp <;> omega

end Bank

end CoopKernel
