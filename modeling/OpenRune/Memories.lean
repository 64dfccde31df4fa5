import Mathlib

/-!
# Memory

Words at addresses; what was never written cannot be read. A block is a list of words
side by side, and a change may be confined to a window.
-/
namespace OpenRune.Memories

abbrev Memory := Nat → Option Nat

/-- The words from an address on. -/
def Block (m : Memory) : Nat → List Nat → Prop
  | _, [] => True
  | lo, word :: words => m lo = some word ∧ Block m (lo + 1) words

/-- Nothing has changed but from `lo` up to `hi`. -/
def Within (lo hi : Nat) (m m' : Memory) : Prop := ∀ i, i < lo ∨ hi ≤ i → m' i = m i

/-- Words written side by side. -/
def writeAll (m : Memory) : Nat → List Nat → Memory
  | _, [] => m
  | lo, word :: words => writeAll (Function.update m lo (some word)) (lo + 1) words

section
variable {m m' m'' : Memory} {lo hi lo' hi' : Nat} {words words' : List Nat}

theorem block_append : Block m lo (words ++ words') ↔ Block m lo words ∧ Block m (lo + words.length) words' := by
  induction words generalizing lo with
  | nil => simp [Block]
  | cons word words ih =>
    have shifted : lo + 1 + words.length = lo + (word :: words).length := by
      rw [List.length_cons]
      omega
    rw [List.cons_append,Block,Block,ih,and_assoc,shifted]

theorem block_get (block : Block m lo words) {i : Nat} {word : Nat} (at' : words[i]? = some word) :
    m (lo + i) = some word := by
  induction words generalizing lo i with
  | nil => simp at at'
  | cons first words ih =>
    cases i with
    | zero =>
      obtain rfl : first = word := by simpa using at'
      exact block.1
    | succ i =>
      have later := ih block.2 (by simpa using at')
      rwa [show lo + 1 + i = lo + (i + 1) by omega] at later

/-- A block outside of the window. -/
theorem block_within (block : Block m lo words) (within : Within lo' hi' m m')
    (outside : lo + words.length ≤ lo' ∨ hi' ≤ lo) : Block m' lo words := by
  induction words generalizing lo with
  | nil => trivial
  | cons word words ih =>
    rw [List.length_cons] at outside
    exact ⟨(within lo (by omega)).trans block.1,ih block.2 (by omega)⟩

theorem within_refl (lo hi : Nat) (m : Memory) : Within lo hi m m := fun _ _ => rfl

theorem within_trans (first : Within lo hi m m') (second : Within lo hi m' m'') : Within lo hi m m'' :=
  fun i outside => (second i outside).trans (first i outside)

theorem within_sub (within : Within lo hi m m') (below : lo' ≤ lo) (above : hi ≤ hi') : Within lo' hi' m m' :=
  fun i outside => within i (by omega)

theorem within_update {i : Nat} (after : lo ≤ i) (before : i < hi) (word : Option Nat) :
    Within lo hi m (Function.update m i word) := by
  intro j outside
  have other : j ≠ i := by omega
  simp [Function.update,other]

theorem within_writeAll {start : Nat} (after : lo ≤ start) (before : start + words.length ≤ hi) :
    Within lo hi m (writeAll m start words) := by
  induction words generalizing m start with
  | nil => exact within_refl lo hi m
  | cons word words ih =>
    rw [List.length_cons] at before
    exact within_trans (within_update after (by omega) _) (ih (by omega) (by omega))

theorem block_writeAll : Block (writeAll m lo words) lo words := by
  induction words generalizing m lo with
  | nil => trivial
  | cons word words ih =>
    refine ⟨?_,ih⟩
    have kept := @within_writeAll (Function.update m lo (some word)) (lo + 1) (lo + 1 + words.length) words (lo + 1)
      (Nat.le_refl _) (Nat.le_refl _)
    rw [writeAll,kept lo (.inl (Nat.lt_succ_self lo)),Function.update_self]

end
end OpenRune.Memories
