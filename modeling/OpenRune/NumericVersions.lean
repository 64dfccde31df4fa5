import OpenRune.Versions

/-!
# Numeric versions

Versions made of decimal numbers joined by single separators. `compareVersion`
reads each number as an `int`; a number that does not fit is compared as text.
`Faithful` says for which pairs of versions the result is still the order of the
numbers.
-/
namespace OpenRune.Versions
open OpenRune.Java OpenRune.Comparators

/-- A token of at least one decimal digit. -/
structure Numeral where
  digits : List Char
  valid : isNumeral digits = true
  deriving DecidableEq

/-- Decimal digit tokens joined by single separators. -/
structure NumericVersion where
  first : Numeral
  rest : List ({c : Char // isSeparator c = true} × Numeral)

namespace Numeral

def value (numeral : Numeral) : Nat := digitsValue numeral.digits

/-- The value is one of an `int`. -/
def fits (numeral : Numeral) : Prop := numeral.value < 2 ^ 31

instance (numeral : Numeral) : Decidable numeral.fits := inferInstanceAs (Decidable (_ < _))

theorem nonempty (numeral : Numeral) : numeral.digits ≠ [] := by
  have valid := numeral.valid
  intro empty
  simp [isNumeral,empty] at valid

theorem all_digits (numeral : Numeral) : ∀ c ∈ numeral.digits, c.isDigit = true := by
  have valid := numeral.valid
  simp only [isNumeral,Bool.and_eq_true,List.all_eq_true] at valid
  exact valid.2

theorem parse (numeral : Numeral) :
    parseInt numeral.digits = if numeral.fits then some (numeral.value : Int) else none := by
  obtain ⟨digits,valid⟩ := numeral
  have digit : ∀ c ∈ digits, c.isDigit = true := all_digits ⟨digits,valid⟩
  unfold parseInt
  split
  · next digits begins =>
    cases begins
    exact absurd (digit '-' List.mem_cons_self) (by decide)
  · next digits begins =>
    cases begins
    exact absurd (digit '+' List.mem_cons_self) (by decide)
  · simp only [valid,true_and]
    exact if_congr Iff.rfl rfl rfl

/-- The letters of a numeral do not change with case. -/
theorem lower (numeral : Numeral) : numeral.digits.map foldCase = numeral.digits := by
  refine (List.map_congr_left ?_).trans (List.map_id _)
  intro c member
  have digit := numeral.all_digits c member
  rw [foldCase,Char.toLower_toUpper_eq_toLower,id]
  apply Char.toLower_eq_of_not_isUpper
  simp only [Char.isDigit,Char.isUpper,Bool.and_eq_true,decide_eq_true_eq,not_and,UInt32.le_iff_toNat_le,ge_iff_le,
    not_le] at digit ⊢
  intro above
  exact absurd (le_trans above digit.2) (by decide)

end Numeral

namespace NumericVersion

def numerals (version : NumericVersion) : List Numeral := version.first :: version.rest.map Prod.snd

/-- The version as it is written. -/
def text (version : NumericVersion) : String :=
  String.ofList (version.first.digits ++ version.rest.flatMap fun piece => piece.1.val :: piece.2.digits)

theorem splitOnP_text (first : Numeral) (rest : List ({c : Char // isSeparator c = true} × Numeral)) :
    (first.digits ++ rest.flatMap fun piece => piece.1.val :: piece.2.digits).splitOnP isSeparator =
      first.digits :: rest.map fun piece => piece.2.digits := by
  have plain (numeral : Numeral) : ∀ c ∈ numeral.digits, isSeparator c = false := by
    intro c member
    simp [isSeparator,Char.isAlphanum,numeral.all_digits c member]
  induction rest generalizing first with
  | nil => simpa using List.splitOnP_eq_singleton (plain first)
  | cons piece rest ih =>
    rw [List.flatMap_cons,List.cons_append,List.splitOnP_append_cons_of_forall_mem (plain first) _ piece.1.property,ih]
    rfl

theorem tokens_text (version : NumericVersion) :
    tokens version.text = version.numerals.map Numeral.digits := by
  have characters : version.text ≠ "" := by
    intro empty
    have none := congrArg String.toList empty
    simp [text,version.first.nonempty] at none
  rw [tokens_eq,if_neg characters,pieces,text,String.toList_ofList,splitOnP_text,List.rdropWhile_eq_self_iff.mpr]
  · simp [numerals]
  · intro some
    have member := List.getLast_mem some
    simp only [List.mem_cons,List.mem_map] at member
    rcases member with last | ⟨piece,_,last⟩
    · simpa [last] using version.first.nonempty
    · simpa [← last] using piece.2.nonempty

def values (version : NumericVersion) : List Nat := version.numerals.map Numeral.value

end NumericVersion

/-- The lexicographic comparison of two lists of numbers. -/
def compareValues (as bs : List Nat) : Int := if as < bs then -1 else if bs < as then 1 else 0

/-- Walking along two versions while their tokens are equal, as small numbers or
    as text: at the first other position either both numbers are small, or both
    are large and the dictionary has them in the order of the numbers. -/
def Faithful : List Numeral → List Numeral → Prop
  | a :: as, b :: bs =>
    if a.fits ∧ b.fits then a.value = b.value → Faithful as bs
    else if a.digits = b.digits then Faithful as bs
    else ¬ a.fits ∧ ¬ b.fits ∧
      compareValues ((a :: as).map Numeral.value) ((b :: bs).map Numeral.value) =
        if a.digits < b.digits then -1 else 1
  | _, _ => True

theorem compareValues_cons (m n : Nat) (ms ns : List Nat) :
    compareValues (m :: ms) (n :: ns) = if m < n then -1 else if n < m then 1 else compareValues ms ns := by
  unfold compareValues
  simp only [List.cons_lt_cons_iff]
  rcases lt_trichotomy m n with lt | same | gt
  · simp [lt]
  · simp [same]
  · simp [gt,gt.ne',not_lt_of_gt gt]

section
variable (a b : Numeral)

theorem compareToken_small (small : a.fits ∧ b.fits) :
    (compareToken a.digits b.digits).sign = if a.value < b.value then -1 else if b.value < a.value then 1 else 0 := by
  unfold compareToken
  rw [a.parse,b.parse,if_pos small.1,if_pos small.2]
  unfold compareInt
  split_ifs <;> simp_all <;> omega

theorem compareToken_text (large : ¬ a.fits ∧ ¬ b.fits) :
    (compareToken a.digits b.digits).sign =
      if a.digits < b.digits then -1 else if b.digits < a.digits then 1 else 0 := by
  have less := compareToIgnoreCase_orders.less a.digits b.digits
  have greater := compareToIgnoreCase_orders.greater a.digits b.digits
  rw [a.lower,b.lower] at less greater
  unfold compareToken
  rw [a.parse,b.parse,if_neg large.1,if_neg large.2]
  split_ifs with below above
  · exact Int.sign_eq_neg_one_of_neg (less.mpr below)
  · exact Int.sign_eq_one_of_pos (greater.mpr above)
  · exact Int.sign_eq_zero_iff_zero.mpr (le_antisymm (not_lt.mp (mt greater.mp above)) (not_lt.mp (mt less.mp below)))

theorem compareToken_mixed : (a.fits → ¬ b.fits → (compareToken a.digits b.digits).sign = 1) ∧
    (¬ a.fits → b.fits → (compareToken a.digits b.digits).sign = -1) := by
  constructor <;> intro first second <;> simp [compareToken,a.parse,b.parse,first,second]

end

/-- `compareVersion` on the numerals of two versions. -/
def compareNumerals (as bs : List Numeral) : Int :=
  lexCompare compareToken (fun m n => compareInt m n) (as.map Numeral.digits) (bs.map Numeral.digits)

theorem compareNumerals_cons (a b : Numeral) (as bs : List Numeral) :
    (compareNumerals (a :: as) (b :: bs)).sign =
      if (compareToken a.digits b.digits).sign = 0 then (compareNumerals as bs).sign
      else (compareToken a.digits b.digits).sign := by
  simp only [compareNumerals,List.map_cons,lexCompare,Int.sign_eq_zero_iff_zero]
  split_ifs <;> simp_all

theorem compareNumerals_faithful (as bs : List Numeral) :
    (compareNumerals as bs).sign = compareValues (as.map Numeral.value) (bs.map Numeral.value) ↔ Faithful as bs := by
  induction as generalizing bs with
  | nil =>
    cases bs with
    | nil => simp [Faithful,compareNumerals,lexCompare,compareInt,compareValues]
    | cons b bs => simp [Faithful,compareNumerals,lexCompare,compareInt,compareValues]
  | cons a as ih =>
    cases bs with
    | nil => simp [Faithful,compareNumerals,lexCompare,compareInt,compareValues]
    | cons b bs =>
      rw [compareNumerals_cons,Faithful]
      by_cases small : a.fits ∧ b.fits
      · rw [if_pos small,compareToken_small a b small,List.map_cons,List.map_cons,compareValues_cons,← ih]
        rcases lt_trichotomy a.value b.value with lt | same | gt
        · simp [lt,lt.ne]
        · simp [same]
        · simp [gt,gt.ne',not_lt_of_gt gt]
      · rw [if_neg small]
        by_cases large : ¬ a.fits ∧ ¬ b.fits
        · rw [compareToken_text a b large]
          by_cases same : a.digits = b.digits
          · have sameValue : a.value = b.value := congrArg digitsValue same
            simp [same,sameValue,compareValues_cons,ih]
          · rcases lt_or_gt_of_ne same with below | above
            · simp [same,large,below,eq_comm]
            · simp [same,large,above,not_lt_of_gt above,eq_comm]
        · have opposite := compareToken_mixed a b
          by_cases first : a.fits
          · have second : ¬ b.fits := fun second => small ⟨first,second⟩
            have order : a.value < b.value := lt_of_lt_of_le first (not_lt.mp second)
            have differ : a.digits ≠ b.digits := fun same => order.ne (congrArg digitsValue same)
            simp [opposite.1 first second,compareValues_cons,order,differ,first]
          · have second : b.fits := not_not.mp fun second => large ⟨first,second⟩
            have order : b.value < a.value := lt_of_lt_of_le second (not_lt.mp first)
            have differ : a.digits ≠ b.digits := fun same => order.ne' (congrArg digitsValue same)
            simp [opposite.2 first second,compareValues_cons,order,not_lt_of_gt order,differ,second]

/-- On numeric versions the sign is that of the numbers exactly for the faithful
    pairs. -/
theorem compareVersion_numeric (a b : NumericVersion) :
    (compareVersion a.text b.text).sign = compareValues a.values b.values ↔ Faithful a.numerals b.numerals := by
  rw [compareVersion,a.tokens_text,b.tokens_text]
  exact compareNumerals_faithful a.numerals b.numerals

/-- One more than the greatest `int`, and the greatest `int`. -/
theorem compareVersion_overflows :
    ¬ ∀ a b : NumericVersion, (compareVersion a.text b.text).sign = compareValues a.values b.values := by
  intro claim
  have signs := claim ⟨⟨"2147483648".toList,by decide⟩,[]⟩ ⟨⟨"2147483647".toList,by decide⟩,[]⟩
  exact absurd signs (by decide)

end OpenRune.Versions
