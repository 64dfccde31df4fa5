import Mathlib

/-!
# Running totals

The totals that a counter runs through while amounts are added to it one after
the other.
-/
namespace OpenRune.RunningTotals

/-- The totals after each of the amounts, from a first total on. -/
def totals (start : Nat) (amounts : List Nat) : List Nat := amounts.partialSums.tail.map (start + ·)

variable {start amount : Nat} {amounts more : List Nat}

@[simp] theorem totals_nil : totals start [] = [] := rfl

@[simp] theorem totals_cons : totals start (amount :: amounts) = (start + amount) :: totals (start + amount) amounts := by
  unfold totals
  cases amounts with
  | nil => simp [List.partialSums_cons]
  | cons next rest => simp [List.partialSums_cons,Function.comp_def,Nat.add_assoc]

theorem totals_append : totals start (amounts ++ more) = totals start amounts ++ totals (start + amounts.sum) more := by
  induction amounts generalizing start with
  | nil => simp
  | cons amount amounts ih => simp [ih,Nat.add_assoc]

theorem totals_least : ∀ total ∈ totals start amounts, start ≤ total := by
  intro total member
  obtain ⟨added,-,rfl⟩ := List.mem_map.mp member
  exact Nat.le_add_right start added

theorem totals_most : ∀ total ∈ totals start amounts, total ≤ start + amounts.sum := by
  induction amounts generalizing start with
  | nil => simp
  | cons amount amounts ih =>
    intro total member
    rw [List.sum_cons,← Nat.add_assoc]
    rw [totals_cons] at member
    rcases List.mem_cons.mp member with rfl | later
    · exact Nat.le_add_right _ _
    · exact ih total later

theorem totals_ascending : (totals start amounts).Pairwise (· ≤ ·) := by
  induction amounts generalizing start with
  | nil => exact .nil
  | cons amount amounts ih =>
    rw [totals_cons]
    exact .cons totals_least ih

theorem totals_above (positive : ∀ amount ∈ amounts, 0 < amount) : ∀ total ∈ totals start amounts, start < total := by
  intro total member
  cases amounts with
  | nil => cases member
  | cons amount amounts =>
    have added := positive amount List.mem_cons_self
    rw [totals_cons] at member
    rcases List.mem_cons.mp member with rfl | later
    · omega
    · have least := totals_least total later
      omega

/-- With amounts that are not zero no total is seen twice. -/
theorem totals_strict (positive : ∀ amount ∈ amounts, 0 < amount) : (totals start amounts).Pairwise (· < ·) := by
  induction amounts generalizing start with
  | nil => exact .nil
  | cons amount amounts ih =>
    have later : ∀ next ∈ amounts, 0 < next := fun next member => positive next (List.mem_cons_of_mem _ member)
    rw [totals_cons]
    exact .cons (totals_above later) (ih later)

/-- The lengths of pieces none of which is empty. -/
theorem lengths_positive {α : Type} {pieces : List (List α)} (filled : ∀ piece ∈ pieces, piece ≠ []) :
    ∀ amount ∈ pieces.map List.length, 0 < amount := by
  intro amount member
  obtain ⟨piece,listed,rfl⟩ := List.mem_map.mp member
  exact List.length_pos_iff.mpr (filled piece listed)

theorem totals_last (given : amounts ≠ []) : (totals start amounts).getLast? = some (start + amounts.sum) := by
  induction amounts generalizing start with
  | nil => exact absurd rfl given
  | cons amount amounts ih =>
    rw [totals_cons]
    cases amounts with
    | nil => simp
    | cons next rest =>
      rw [totals_cons,List.getLast?_cons_cons,← totals_cons,ih (by simp)]
      simp [Nat.add_assoc]

end OpenRune.RunningTotals
