import Mathlib

/-!
# Outcomes

Rules for computations that end in a value or in an error: what may come out of one, and
when two of them come to the same.
-/
namespace OpenRune.Outcomes

section
variable {ε α β γ δ : Type} {E : ε → Prop} {P P' : α → Prop} {Q : β → Prop}

/-- The errors are among `E`, the values among `P`. -/
def Ends (E : ε → Prop) (P : α → Prop) : Except ε α → Prop
  | .ok a => P a
  | .error e => E e

/-- The same error, or values that are related. -/
def Matches (R : α → β → Prop) : Except ε α → Except ε β → Prop
  | .ok a, .ok b => R a b
  | .error e, .error e' => e = e'
  | _, _ => False

theorem ok_bind (a : α) (f : α → Except ε β) : (Except.ok a >>= f) = f a := rfl

/-- Two branches that go on alike. -/
theorem ite_bind (p : Prop) [Decidable p] (x y : Except ε α) (f : α → Except ε β) :
    (if p then x >>= f else y >>= f) = (if p then x else y) >>= f := by
  split <;> rfl

theorem ends_bind {x : Except ε α} {f : α → Except ε β} (first : Ends E P x) (then' : ∀ a, P a → Ends E Q (f a)) :
    Ends E Q (x >>= f) := by
  cases x with
  | error e => exact first
  | ok a => exact then' a first

theorem ends_weaken {x : Except ε α} (ends : Ends E P x) (weaker : ∀ a, P a → P' a) : Ends E P' x := by
  cases x with
  | error e => exact ends
  | ok a => exact weaker a ends

theorem ends_of_ok {x : Except ε α} (ends : Ends E P x) {a : α} (ok : x = .ok a) : P a := by
  subst ok
  exact ends

theorem ends_of_error {x : Except ε α} (ends : Ends E P x) {e : ε} (error : x = .error e) : E e := by
  subst error
  exact ends

theorem matches_bind {R : α → β → Prop} {S : γ → δ → Prop} {x : Except ε α} {y : Except ε β} {f : α → Except ε γ}
    {g : β → Except ε δ} (first : Matches R x y) (then' : ∀ a b, R a b → Matches S (f a) (g b)) :
    Matches S (x >>= f) (y >>= g) := by
  cases x with
  | error e =>
    cases y with
    | error e' => exact first
    | ok b => exact first.elim
  | ok a =>
    cases y with
    | error e' => exact first.elim
    | ok b => exact then' a b first

theorem matches_weaken {R R' : α → β → Prop} {x : Except ε α} {y : Except ε β} (same : Matches R x y)
    (weaker : ∀ a b, R a b → R' a b) : Matches R' x y := by
  cases x with
  | error e =>
    cases y with
    | error e' => exact same
    | ok b => exact same.elim
  | ok a =>
    cases y with
    | error e' => exact same.elim
    | ok b => exact weaker a b same

/-- A computation and itself. -/
theorem matches_self {x : Except ε α} (ends : Ends E P x) : Matches (fun a b => a = b ∧ P a) x x := by
  cases x with
  | error e => rfl
  | ok a => exact ⟨rfl,ends⟩

/-- Two computations that begin with the same one. -/
theorem matches_bind_self {S : γ → δ → Prop} {x : Except ε α} {f : α → Except ε γ} {g : α → Except ε δ} (ends : Ends E P x)
    (then' : ∀ a, P a → Matches S (f a) (g a)) : Matches S (x >>= f) (x >>= g) := by
  refine matches_bind (matches_self ends) ?_
  rintro a b ⟨rfl,holds⟩
  exact then' a holds

/-! ## Lists -/

/-- What is done at the places of a list. -/
theorem map_range {as : List α} {f : Nat → β} {g : α → β} (same : ∀ i a, as[i]? = some a → f i = g a) :
    (List.range as.length).map f = as.map g := by
  refine List.ext_getElem (by simp) fun i inside inside' => ?_
  rw [List.length_map] at inside'
  rw [List.getElem_map,List.getElem_map,List.getElem_range]
  exact same i _ (List.getElem?_eq_getElem inside')

/-- A loop over the places of a list. -/
theorem mapM_range {as : List α} {f : Nat → Except ε β} {g : α → Except ε β}
    (same : ∀ i a, as[i]? = some a → f i = g a) : (List.range as.length).mapM f = as.mapM g := by
  have places := congrArg (List.mapM id) (map_range same)
  rwa [List.mapM_map,List.mapM_map] at places

theorem matches_trans {R : α → β → Prop} {S : β → γ → Prop} {x : Except ε α} {y : Except ε β} {z : Except ε γ}
    (first : Matches R x y) (second : Matches S y z) : Matches (fun a c => ∃ b, R a b ∧ S b c) x z := by
  cases x with
  | error e =>
    cases y with
    | ok b => exact first.elim
    | error e' =>
      obtain rfl : e = e' := first
      cases z with
      | error e'' => exact second
      | ok c => exact second.elim
  | ok a =>
    cases y with
    | error e' => exact first.elim
    | ok b =>
      cases z with
      | error e' => exact second.elim
      | ok c => exact ⟨b,first,second⟩

/-- Where all errors are the same one, the order of a list does not matter. -/
theorem mapM_perm {f : α → Except ε β} {e : ε} (only : ∀ a e', f a = .error e' → e' = e) {as bs : List α} (order : as.Perm bs) :
    Matches List.Perm (as.mapM f) (bs.mapM f) := by
  induction order with
  | nil => exact List.Perm.refl _
  | cons a _ ih =>
    rw [List.mapM_cons,List.mapM_cons]
    cases f a with
    | error e => rfl
    | ok b =>
      rw [ok_bind,ok_bind]
      refine matches_bind ih ?_
      intro bs bs' order
      exact List.Perm.cons b order
  | swap a b as =>
    rw [List.mapM_cons,List.mapM_cons,List.mapM_cons,List.mapM_cons]
    cases first : f a with
    | error e' =>
      cases second : f b with
      | error e'' => exact (only b e'' second).trans (only a e' first).symm
      | ok d => rfl
    | ok c =>
      cases f b with
      | error e' => rfl
      | ok d =>
        cases as.mapM f with
        | error e => rfl
        | ok ds => exact List.Perm.swap _ _ _
  | trans _ _ ih ih' =>
    refine matches_weaken (matches_trans ih ih') ?_
    rintro as cs ⟨bs,first,second⟩
    exact first.trans second

end
end OpenRune.Outcomes
