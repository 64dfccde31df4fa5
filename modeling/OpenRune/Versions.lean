import OpenRune.Java
import OpenRune.Comparators

/-!
# Version numbers

`Launcher.compareVersion` splits both versions into tokens and compares them
position by position: numbers by value, other tokens ignoring case, and every
number above every other token. `versionKey` maps a version into a linear order,
and `compareVersion_orders` shows that the method compares these keys.
-/
namespace OpenRune.Versions
open OpenRune.Java OpenRune.Comparators

/-- A separator of tokens, the pattern `[^0-9a-zA-Z]`. -/
def isSeparator (c : Char) : Bool := !c.isAlphanum

def tokens (version : String) : List (List Char) := split isSeparator version.toList

/-- One character of `String.compareToIgnoreCase`: the upper cases are compared
    first, then their lower cases. -/
def compareCharIgnoreCase (a b : Char) : Int :=
  if a = b then 0 else
  if a.toUpper = b.toUpper then 0 else (a.toUpper.toLower.toNat : Int) - b.toUpper.toLower.toNat

def compareToIgnoreCase (a b : List Char) : Int := lexCompare compareCharIgnoreCase (fun m n => (m : Int) - n) a b

/-- The body of the loop of `compareVersion`. -/
def compareToken (tokenA tokenB : List Char) : Int :=
  match parseInt tokenA, parseInt tokenB with
  | some intA, some intB => compareInt intA intB
  | some _, none => 1
  | none, some _ => -1
  | none, none => compareToIgnoreCase tokenA tokenB

/-- `Launcher.compareVersion`. -/
def compareVersion (a b : String) : Int :=
  lexCompare compareToken (fun m n => compareInt m n) (tokens a) (tokens b)

example : 0 < compareVersion "1.2.3-SNAPSHOT" "1.2.3" := by decide
example : compareVersion "1.2.3-SNAPSHOT" "1.2.3.1" < 0 := by decide

/-! ## The order -/

theorem compareInt_orders : OrdersBy compareInt (id : Int → Int) := by
  refine ⟨?_,?_⟩ <;> intro a b <;> unfold compareInt <;> simp only [id] <;> split_ifs <;> omega

/-- What counts of a character when case is ignored. -/
def foldCase (c : Char) : Char := c.toUpper.toLower

private theorem compareChar_eq (a b : Char) : compareCharIgnoreCase a b = ((foldCase a).toNat : Int) - (foldCase b).toNat := by
  unfold compareCharIgnoreCase foldCase
  split_ifs with same upper
  · simp [same]
  · simp [upper]
  · rfl

private theorem char_lt_iff (a b : Char) : a < b ↔ a.toNat < b.toNat := Iff.rfl

theorem compareCharIgnoreCase_orders : OrdersBy compareCharIgnoreCase foldCase := by
  refine ⟨?_,?_⟩ <;> intro a b <;> rw [compareChar_eq,char_lt_iff] <;> omega

theorem compareToIgnoreCase_orders : OrdersBy compareToIgnoreCase (List.map foldCase) :=
  lexCompare_orders compareCharIgnoreCase_orders ⟨fun m n => by simp,fun m n => by simp⟩

/-- A number is a number, any other token its characters without case; numbers
    are the greater ones. -/
def tokenKey (token : List Char) : List Char ⊕ₗ Int :=
  match parseInt token with
  | some value => toLex (.inr value)
  | none => toLex (.inl (token.map foldCase))

theorem compareToken_orders : OrdersBy compareToken tokenKey := by
  refine ⟨?_,?_⟩ <;> intro a b <;> unfold compareToken tokenKey <;>
    cases parseInt a <;> cases parseInt b <;>
    simp [compareToIgnoreCase_orders.less,compareToIgnoreCase_orders.greater,compareInt_orders.less,
      compareInt_orders.greater]

/-- A version as a point of a linear order. -/
def versionKey (version : String) : List (List Char ⊕ₗ Int) := (tokens version).map tokenKey

theorem compareVersion_orders : OrdersBy compareVersion versionKey := by
  have ties : OrdersBy (fun m n : Nat => compareInt m n) id :=
    ⟨fun m n => by simp [compareInt_orders.less],fun m n => by simp [compareInt_orders.greater]⟩
  have lists := lexCompare_orders compareToken_orders ties
  exact ⟨fun a b => lists.less _ _,fun a b => lists.greater _ _⟩

/-! ## What compares equal -/

/-- Two tokens that are taken for the same. -/
def Agree (tokenA tokenB : List Char) : Prop :=
  match parseInt tokenA, parseInt tokenB with
  | some intA, some intB => intA = intB
  | none, none => toLowerCase tokenA = toLowerCase tokenB
  | _, _ => False

theorem foldCase_lower (token : List Char) : token.map foldCase = toLowerCase token := by
  simp [toLowerCase,foldCase]

theorem agree_iff (tokenA tokenB : List Char) : Agree tokenA tokenB ↔ tokenKey tokenA = tokenKey tokenB := by
  unfold Agree tokenKey
  cases parseInt tokenA <;> cases parseInt tokenB <;> simp [foldCase_lower]

theorem compareVersion_equal (a b : String) :
    compareVersion a b = 0 ↔ List.Forall₂ Agree (tokens a) (tokens b) := by
  rw [compareVersion_orders.equal,versionKey,versionKey,← List.forall₂_eq_eq_eq,List.forall₂_map_left_iff,
    List.forall₂_map_right_iff]
  exact ⟨List.Forall₂.imp fun tokenA tokenB => (agree_iff tokenA tokenB).mpr,
    List.Forall₂.imp fun tokenA tokenB => (agree_iff tokenA tokenB).mp⟩

/-- The pieces between the separators without the empty ones at the end. -/
def pieces (version : String) : List (List Char) :=
  (version.toList.splitOnP isSeparator).rdropWhile List.isEmpty

/-- Only the empty version keeps an empty token at its end. -/
theorem tokens_eq (version : String) : tokens version = if version = "" then [[]] else pieces version := by
  unfold tokens split pieces
  by_cases empty : version = ""
  · simp [empty]
  · have characters : version.toList ≠ [] := by simpa using empty
    cases separated : version.toList.any isSeparator with
    | true => simp [empty]
    | false =>
      have whole : version.toList.splitOnP isSeparator = [version.toList] :=
        List.splitOnP_eq_singleton (by simpa using separated)
      simp [empty,whole,List.rdropWhile_singleton]

/-- `compareVersion` is a total preorder, and it takes two versions for the same
    when their tokens agree position by position. -/
theorem compareVersion_preorder (a b c : String) :
    (compareVersion a b).sign = -(compareVersion b a).sign ∧
      (compareVersion a b ≤ 0 ∧ compareVersion b c ≤ 0 → compareVersion a c ≤ 0) ∧
      (compareVersion a b = 0 ↔ List.Forall₂ Agree (tokens a) (tokens b)) ∧
      tokens a = if a = "" then [[]] else pieces a :=
  ⟨compareVersion_orders.swap b a,fun below => compareVersion_orders.trans below.1 below.2,
    compareVersion_equal a b,tokens_eq a⟩

/-- Nothing is left of either version, and yet they are told apart. -/
theorem empty_version_differs :
    ¬ (compareVersion "" "." = 0 ↔ List.Forall₂ Agree (pieces "") (pieces ".")) := by
  have nothing : pieces "" = [] ∧ pieces "." = [] := by decide
  have apart : compareVersion "" "." = 1 := by decide
  rw [nothing.1,nothing.2,apart]
  simp

end OpenRune.Versions
