import Mathlib

/-!
# Comparators

Comparators that answer with an integer whose sign counts. A comparator that
orders by a key in a linear order is a total preorder, and comparing lists
position by position, with the shorter list smaller, orders by the list of keys.
-/
namespace OpenRune.Comparators

section
variable {α κ : Type} [LinearOrder κ]

/-- The comparator compares the keys. -/
structure OrdersBy (cmp : α → α → Int) (key : α → κ) : Prop where
  less : ∀ a b, cmp a b < 0 ↔ key a < key b
  greater : ∀ a b, 0 < cmp a b ↔ key b < key a

variable {cmp : α → α → Int} {key : α → κ}

theorem OrdersBy.equal (orders : OrdersBy cmp key) (a b : α) : cmp a b = 0 ↔ key a = key b := by
  have less := orders.less a b
  have greater := orders.greater a b
  constructor
  · intro zero
    exact le_antisymm (not_lt.mp (mt greater.mpr (by omega))) (not_lt.mp (mt less.mpr (by omega)))
  · intro same
    have notLess := mt less.mp (by rw [same]; exact lt_irrefl _)
    have notGreater := mt greater.mp (by rw [same]; exact lt_irrefl _)
    omega

theorem OrdersBy.atMost (orders : OrdersBy cmp key) (a b : α) : cmp a b ≤ 0 ↔ key a ≤ key b := by
  rw [← not_lt,orders.greater,not_lt]

theorem OrdersBy.atLeast (orders : OrdersBy cmp key) (a b : α) : 0 ≤ cmp a b ↔ key b ≤ key a := by
  rw [← not_lt,orders.less,not_lt]

/-- Swapping the arguments turns the sign around. -/
theorem OrdersBy.swap (orders : OrdersBy cmp key) (a b : α) : (cmp b a).sign = -(cmp a b).sign := by
  rcases lt_trichotomy (key a) (key b) with lt | same | gt
  · rw [Int.sign_eq_neg_one_of_neg ((orders.less a b).mpr lt),Int.sign_eq_one_of_pos ((orders.greater b a).mpr lt)]
    rfl
  · rw [(orders.equal a b).mpr same,(orders.equal b a).mpr same.symm]
    rfl
  · rw [Int.sign_eq_one_of_pos ((orders.greater a b).mpr gt),Int.sign_eq_neg_one_of_neg ((orders.less b a).mpr gt)]

theorem OrdersBy.trans (orders : OrdersBy cmp key) {a b c : α} (first : cmp a b ≤ 0) (second : cmp b c ≤ 0) :
    cmp a c ≤ 0 :=
  (orders.atMost a c).mpr (le_trans ((orders.atMost a b).mp first) ((orders.atMost b c).mp second))

/-- Position by position until the first difference; when one list is used up,
    `tie` compares what is left of both. -/
def lexCompare (cmp : α → α → Int) (tie : Nat → Nat → Int) : List α → List α → Int
  | a :: as, b :: bs => if cmp a b ≠ 0 then cmp a b else lexCompare cmp tie as bs
  | as, bs => tie as.length bs.length

private theorem lexCompare_signs {tie : Nat → Nat → Int} (orders : OrdersBy cmp key) (ties : OrdersBy tie id)
    (as bs : List α) : (lexCompare cmp tie as bs < 0 ↔ as.map key < bs.map key) ∧
      (0 < lexCompare cmp tie as bs ↔ bs.map key < as.map key) := by
  induction as generalizing bs with
  | nil => cases bs <;> simp [lexCompare,ties.less,ties.greater]
  | cons a as ih =>
    cases bs with
    | nil => simp [lexCompare,ties.less,ties.greater]
    | cons b bs =>
      rw [lexCompare,List.map_cons,List.map_cons,List.cons_lt_cons_iff,List.cons_lt_cons_iff]
      by_cases same : cmp a b = 0
      · simp [same,(orders.equal a b).mp same,ih]
      · have differ := mt (orders.equal a b).mpr same
        simp [same,differ,Ne.symm differ,orders.less,orders.greater]

/-- Comparing lists orders by the lists of keys, a proper prefix being smaller. -/
theorem lexCompare_orders {tie : Nat → Nat → Int} (orders : OrdersBy cmp key) (ties : OrdersBy tie id) :
    OrdersBy (lexCompare cmp tie) (List.map key) :=
  ⟨fun as bs => (lexCompare_signs orders ties as bs).1,fun as bs => (lexCompare_signs orders ties as bs).2⟩

end
end OpenRune.Comparators
