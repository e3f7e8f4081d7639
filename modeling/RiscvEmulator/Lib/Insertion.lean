/-
Insertion sort by swaps.

The cells of an array are the values of a function on the numbers below `n`,
ordered by a key. `SortedBut key v i j` is the state of the inner loop: the
cells up to `i` are in order but for the one at `j`, which is smaller than
those after it. It comes from a sorted stretch and the cell after that
(`SortedBelow.insert`), goes from one cell to the one before
(`SortedBut.swap`), and ends in a sorted stretch (`SortedBut.close`). Swaps
permute the cells (`perm_swap`).
-/
import Mathlib.Data.List.Nodup
import Mathlib.Data.List.Perm.Basic
import Mathlib.Data.List.Range
import Mathlib.Logic.Equiv.Basic
import Mathlib.Order.Lattice

namespace Insertion

variable {α β : Type} [LinearOrder β] {key : α → β} {v : Nat → α} {i j n : Nat}

/-- The cells below `n` are in order. -/
def SortedBelow (key : α → β) (v : Nat → α) (n : Nat) : Prop := ∀ p q, p < q → q < n → key (v p) ≤ key (v q)

/-- Those up to `i` are, if the one at `j` comes before all that follow it
only. -/
def SortedBut (key : α → β) (v : Nat → α) (i j : Nat) : Prop :=
  ∀ p q, p < q → q ≤ i → q ≠ j → key (v p) ≤ key (v q)

theorem SortedBelow.one : SortedBelow key v 1 := fun _ _ _ _ => by omega

theorem SortedBelow.insert (h : SortedBelow key v i) : SortedBut key v i i :=
  fun p q hpq hq hne => h p q hpq (by omega)

/-- The cell moves down past a greater one. -/
theorem SortedBut.swap (h : SortedBut key v i (j + 1)) (hj : j + 1 ≤ i) (hlt : key (v (j + 1)) < key (v j)) :
    SortedBut key (v ∘ Equiv.swap j (j + 1)) i j := by
  intro p q hpq hq hne
  have hother : ∀ k, k ≠ j → k ≠ j + 1 → (v ∘ Equiv.swap j (j + 1)) k = v k := fun k hk hk' => by
    rw [Function.comp, Equiv.swap_apply_of_ne_of_ne hk hk']
  have hlow : (v ∘ Equiv.swap j (j + 1)) j = v (j + 1) := by rw [Function.comp, Equiv.swap_apply_left]
  have hhigh : (v ∘ Equiv.swap j (j + 1)) (j + 1) = v j := by rw [Function.comp, Equiv.swap_apply_right]
  by_cases hq1 : q = j + 1
  · subst hq1
    rw [hhigh]
    by_cases hp : p = j
    · rw [hp, hlow]
      exact hlt.le
    · rw [hother p hp (by omega)]
      exact h p j (by omega) (by omega) (by omega)
  · rw [hother q hne hq1]
    by_cases hp : p = j
    · rw [hp, hlow]
      exact h (j + 1) q (by omega) hq hq1
    · by_cases hp1 : p = j + 1
      · rw [hp1, hhigh]
        exact h j q (by omega) hq hq1
      · rw [hother p hp hp1]
        exact h p q hpq hq hq1

/-- The cell is in its place. -/
theorem SortedBut.close (h : SortedBut key v i j) (hj : ∀ k, j = k + 1 → key (v k) ≤ key (v j)) :
    SortedBelow key v (i + 1) := by
  intro p q hpq hq
  by_cases hne : q = j
  · subst hne
    obtain ⟨k, rfl⟩ : ∃ k, q = k + 1 := ⟨q - 1, by omega⟩
    by_cases hp : p = k
    · rw [hp]
      exact hj k rfl
    · exact (h p k (by omega) (by omega) (by omega)).trans (hj k rfl)
  · exact h p q hpq (by omega) hne

/-! ## Cells as a list -/

theorem perm_swap (v : Nat → α) (hi : i < n) (hj : j < n) :
    ((List.range n).map (v ∘ Equiv.swap i j)).Perm ((List.range n).map v) := by
  rw [← List.map_map]
  refine List.Perm.map v ((List.perm_ext_iff_of_nodup ?_ List.nodup_range).mpr fun k => ?_)
  · exact List.Nodup.map (Equiv.swap i j).injective List.nodup_range
  · have hbelow : ∀ k, Equiv.swap i j k < n ↔ k < n := by
      intro k
      rw [Equiv.swap_apply_def]
      split_ifs <;> omega
    rw [List.mem_map, List.mem_range]
    constructor
    · rintro ⟨l, hl, rfl⟩
      exact (hbelow l).mpr (List.mem_range.mp hl)
    · intro hk
      exact ⟨Equiv.swap i j k, List.mem_range.mpr ((hbelow k).mpr hk), Equiv.swap_apply_self i j k⟩

theorem SortedBelow.pairwise (h : SortedBelow key v n) :
    ((List.range n).map v).Pairwise fun x y => key x ≤ key y := by
  rw [List.pairwise_map]
  exact List.pairwise_lt_range.imp_of_mem fun _ hq hpq => h _ _ hpq (List.mem_range.mp hq)

theorem SortedBelow.mono {m : Nat} (h : SortedBelow key v n) (hm : m ≤ n) : SortedBelow key v m :=
  fun p q hpq hq => h p q hpq (by omega)

end Insertion
