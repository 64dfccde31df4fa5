import Mathlib

/-!
# Binary search

The search for the first place at which a property fails, where those at which it holds
come first.
-/
namespace OpenRune.BinarySearches

/-- `std::lower_bound` on the places from `first` on. -/
def lowerBound (P : Nat → Bool) (first len : Nat) : Nat :=
  if len = 0 then first
  else if P (first + len / 2) then lowerBound P (first + len / 2 + 1) (len - len / 2 - 1)
  else lowerBound P first (len / 2)
  termination_by len

/-- The search where it takes a computation to tell whether the property holds. -/
def lowerBoundM {m : Type → Type} [Monad m] (P : Nat → m Bool) (first len : Nat) : m Nat :=
  if len = 0 then pure first
  else do
    if ← P (first + len / 2) then lowerBoundM P (first + len / 2 + 1) (len - len / 2 - 1)
    else lowerBoundM P first (len / 2)
  termination_by len

section
variable {P : Nat → Bool} {first len : Nat}

/-- The property holds before the place that is found, and not from there on. -/
theorem lowerBound_spec (parted : ∀ i j, first ≤ i → i ≤ j → j < first + len → P j = true → P i = true) :
    first ≤ lowerBound P first len ∧ lowerBound P first len ≤ first + len ∧
      (∀ i, first ≤ i → i < lowerBound P first len → P i = true) ∧
      ∀ i, lowerBound P first len ≤ i → i < first + len → P i = false := by
  induction len using Nat.strong_induction_on generalizing first with
  | _ len ih =>
    rw [lowerBound]
    split
    · next none' => exact ⟨Nat.le_refl _,Nat.le_add_right _ _,by omega,by omega⟩
    · next some' =>
      split
      · next holds =>
        obtain ⟨above,below,before,behind⟩ := @ih (len - len / 2 - 1) (by omega) (first + len / 2 + 1)
          fun i j low le high => parted i j (by omega) le (by omega)
        refine ⟨by omega,by omega,fun i low high => ?_,fun i low high => behind i low (by omega)⟩
        by_cases half : i ≤ first + len / 2
        · exact parted i _ low half (by omega) holds
        · exact before i (by omega) high
      · next fails =>
        obtain ⟨above,below,before,behind⟩ := @ih (len / 2) (by omega) first
          fun i j low le high => parted i j low le (by omega)
        refine ⟨above,by omega,before,fun i low high => ?_⟩
        by_cases half : i < first + len / 2
        · exact behind i low half
        · have later := parted (first + len / 2) i (by omega) (by omega) high
          exact Bool.eq_false_iff.mpr fun holds => fails (later holds)

/-- Where every place can be told, the computation finds what the search finds. -/
theorem lowerBoundM_pure {m : Type → Type} [Monad m] [LawfulMonad m] {computed : Nat → m Bool}
    (told : ∀ i, first ≤ i → i < first + len → computed i = pure (P i)) :
    lowerBoundM computed first len = pure (lowerBound P first len) := by
  induction len using Nat.strong_induction_on generalizing first with
  | _ len ih =>
    rw [lowerBoundM,lowerBound]
    split
    · rfl
    · next some' =>
      rw [told (first + len / 2) (by omega) (by omega),pure_bind]
      split
      · exact ih _ (by omega) fun i low high => told i (by omega) (by omega)
      · exact ih _ (by omega) fun i low high => told i low (by omega)

end
end OpenRune.BinarySearches
