import Mathlib

/-!
# What the model uses of Java

Exceptions as they matter to the `catch` clauses of the launcher, 32-bit
arithmetic, references that may be null, doubles as far as comparisons see them,
and the few string methods the launcher calls.
-/
namespace OpenRune.Java

/-- How a method can end other than by returning. `unchecked` stands for every
    `RuntimeException`, `security` for the checked exceptions of certificates
    and signatures, and `exit` for `System.exit`, which no `catch` sees. -/
inductive Thrown
  | fileNotFound
  | io
  | verification
  | security
  | unchecked
  | error
  | exit
  deriving DecidableEq, Repr

/-- Caught by `catch (IOException e)`. -/
def Thrown.isIOException : Thrown → Bool
  | .fileNotFound => true
  | .io => true
  | _ => false

/-- Caught by `catch (Exception e)`. -/
def Thrown.isException : Thrown → Bool
  | .error => false
  | .exit => false
  | _ => true

/-- A reference that is used as an object: null throws. -/
def deref {α : Type} : Option α → Except Thrown α
  | some value => .ok value
  | none => .error .unchecked

@[simp] theorem deref_some {α : Type} (value : α) : deref (some value) = .ok value := rfl
@[simp] theorem deref_none {α : Type} : deref (none : Option α) = .error .unchecked := rfl
@[simp] theorem ok_bind {ε α β : Type} (value : α) (f : α → Except ε β) : (Except.ok value >>= f) = f value := rfl
@[simp] theorem error_bind {ε α β : Type} (error : ε) (f : α → Except ε β) :
    (Except.error error >>= f) = .error error := rfl
@[simp] theorem pure_ok {ε α : Type} (value : α) : (pure value : Except ε α) = .ok value := rfl

/-- A loop that collects results and has not thrown. -/
theorem mapM_ok {ε α β : Type} {f : α → Except ε β} {items : List α} {results : List β}
    (mapped : items.mapM f = .ok results) : List.Forall₂ (fun item result => f item = .ok result) items results := by
  induction items generalizing results with
  | nil =>
    cases mapped
    exact .nil
  | cons item rest ih =>
    rw [List.mapM_cons] at mapped
    cases first : f item with
    | error error => simp [first] at mapped
    | ok result =>
      cases later : rest.mapM f with
      | error error => simp [first,later] at mapped
      | ok others =>
        rw [first,later] at mapped
        cases mapped
        exact .cons first (ih later)

/-- The value of an `int` after arithmetic. -/
def int32 (n : Int) : Int := n.bmod (2 ^ 32)

theorem int32_eq {n : Int} (low : -2 ^ 31 ≤ n) (high : n < 2 ^ 31) : int32 n = n := by
  unfold int32
  rw [Int.bmod_def]
  split <;> omega

/-- The value of a `long` after arithmetic. -/
def int64 (n : Int) : Int := n.bmod (2 ^ 64)

theorem int64_eq {n : Int} (low : -2 ^ 63 ≤ n) (high : n < 2 ^ 63) : int64 n = n := by
  unfold int64
  rw [Int.bmod_def]
  split <;> omega

theorem int64_lt (n : Int) : int64 n < 2 ^ 63 := by
  unfold int64
  rw [Int.bmod_def]
  split <;> omega

/-- A `double`, as far as `<` and `>` can tell. -/
inductive Double
  | nan
  | negativeInfinity
  | finite (value : Rat)
  | positiveInfinity
  deriving DecidableEq, Repr

/-- `a > b`; every comparison with NaN is false. -/
def Double.gt : Double → Double → Bool
  | .finite a, .finite b => decide (b < a)
  | .finite _, .negativeInfinity => true
  | .positiveInfinity, .finite _ => true
  | .positiveInfinity, .negativeInfinity => true
  | _, _ => false

/-! ## Strings -/

/-- `Integer.compare`. -/
def compareInt (a b : Int) : Int := if a < b then -1 else if a = b then 0 else 1

def digitsValue (digits : List Char) : Nat := digits.foldl (fun n c => 10 * n + (c.toNat - '0'.toNat)) 0

/-- The digits of a number, all ASCII and at least one. -/
def isNumeral (cs : List Char) : Bool := !cs.isEmpty && cs.all Char.isDigit

/-- `Integer.parseInt` on ASCII digits, `none` for a `NumberFormatException`. -/
def parseInt : List Char → Option Int
  | '-' :: digits =>
    if isNumeral digits ∧ digitsValue digits ≤ 2 ^ 31 then some (-(digitsValue digits : Int)) else none
  | '+' :: digits => if isNumeral digits ∧ digitsValue digits < 2 ^ 31 then some (digitsValue digits) else none
  | digits => if isNumeral digits ∧ digitsValue digits < 2 ^ 31 then some (digitsValue digits) else none

/-- `String.split` at every character of a class: without a match the input is
    the only piece, otherwise empty pieces at the end are dropped. -/
def split (separator : Char → Bool) (cs : List Char) : List (List Char) :=
  if cs.any separator then (cs.splitOnP separator).rdropWhile List.isEmpty else [cs]

/-- `String.toLowerCase` for ASCII. -/
def toLowerCase (cs : List Char) : List Char := cs.map Char.toLower

/-- `String.trim`. -/
def trim (text : String) : List Char :=
  (text.toList.dropWhile fun c => c ≤ ' ').rdropWhile fun c => c ≤ ' '

/-- `String.contains`. -/
def contains (cs pattern : List Char) : Bool := decide (pattern <:+: cs)

end OpenRune.Java
