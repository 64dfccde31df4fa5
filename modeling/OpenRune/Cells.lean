import OpenRune.Interleaving

/-!
# Two writers of one cell

Programs that load a value, change it and save the result, without a lock. How
an interleaving of two of them ends depends on the order of the loads and saves:
both changes are made when one program loads after the other has saved, otherwise
only the change of the one that saves last.
-/
namespace OpenRune.Cells
open OpenRune.Programs OpenRune.Interleaving

inductive Op (V : Type)
  | load
  | save (value : V)

def Reply {V : Type} : Op V → Type
  | .load => V
  | .save _ => Unit

abbrev cell (V : Type) : Signature := ⟨Op V,Reply⟩

section
variable {V ε : Type}

/-- Loads and saves succeed. -/
def Holds : Environment (cell V) V := fun op value =>
  match op with
  | .load => fun reply value' => reply = value ∧ value' = value
  | .save saved => fun _ value' => value' = saved

def holding : Handler (cell V) V := fun op value =>
  match op with
  | .load => (value,value)
  | .save saved => ((),saved)

theorem holding_holds (op : Op V) (value : V) : Holds op value (holding op value).1 (holding op value).2 := by
  cases op with
  | load => exact ⟨rfl,rfl⟩
  | save saved => rfl

def writer (change : V → V) : Program (cell V) ε Unit :=
  .call .load fun value => .call (.save (change value)) fun _ => .done ()

inductive Writer
  | left
  | right
  deriving DecidableEq, Repr

/-! ## How far the writers are -/

inductive Stage (V : Type)
  | begun
  | loaded (value : V)
  | ended

/-- What is left of a writer. -/
def Stage.rest (change : V → V) : Stage V → Program (cell V) ε Unit
  | .begun => writer change
  | .loaded value => .call (.save (change value)) fun _ => .done ()
  | .ended => .done ()

/-- One operation of a writer, on the stages of both and the value. -/
def advanced (change : Writer → V → V) (now : (Writer → Stage V) × V) (writer : Writer) :
    Option ((Writer → Stage V) × V) :=
  match now.1 writer with
  | .begun => some (Function.update now.1 writer (.loaded now.2),now.2)
  | .loaded value => some (Function.update now.1 writer .ended,change writer value)
  | .ended => none

/-- Whose turn it was. -/
def turns (events : List (Event Writer (cell V))) : List Writer := events.map Event.actor

theorem trace_stages {change : Writer → V → V} {old value : V} {events : List (Event Writer (cell V))}
    {now : Writer → Program (cell V) ε Unit}
    (trace : Trace Holds (fun actor => writer (change actor)) old events now value) :
    ∃ stages, (now = fun actor => (stages actor).rest (change actor)) ∧
      (turns events).foldlM (advanced change) (fun _ => .begun,old) = some (stages,value) := by
  induction trace with
  | start => exact ⟨fun _ => .begun,rfl,rfl⟩
  | @step events now t u actor op next reply before turn reacts ih =>
    obtain ⟨stages,isNow,reached⟩ := ih
    rw [isNow] at turn
    have further : (turns (events ++ [⟨actor,op,reply⟩])).foldlM (advanced change) (fun _ => .begun,old) =
        advanced change (stages,t) actor := by
      simp [turns,List.foldlM_append] at reached ⊢
      simp [reached]
    rw [further]
    have moved (stage : Stage V) (writes : next reply = stage.rest (change actor)) :
        Function.update now actor (next reply) =
          fun other => (Function.update stages actor stage other).rest (change other) := by
      funext other
      by_cases same : other = actor
      · subst same
        simp [writes]
      · simp [same,isNow]
    cases stage : stages actor with
    | begun =>
      simp only [stage,Stage.rest,writer] at turn
      cases turn
      obtain ⟨rfl,rfl⟩ := reacts
      exact ⟨_,moved (.loaded u) rfl,by simp [advanced,stage]⟩
    | loaded loaded =>
      simp only [stage,Stage.rest] at turn
      cases turn
      cases reacts
      exact ⟨_,moved .ended rfl,by simp [advanced,stage]⟩
    | ended => simp [stage,Stage.rest] at turn

/-- The operations that are left to a writer. -/
def Stage.remaining : Stage V → Nat
  | .begun => 2
  | .loaded _ => 1
  | .ended => 0

theorem advanced_remaining {change : Writer → V → V} {now next : (Writer → Stage V) × V} {writer : Writer}
    (step : advanced change now writer = some next) :
    (next.1 .left).remaining + (next.1 .right).remaining + 1 =
      (now.1 .left).remaining + (now.1 .right).remaining := by
  unfold advanced at step
  cases stage : now.1 writer with
  | begun =>
    rw [stage] at step
    cases step
    cases writer
    · simp [Stage.remaining,stage]
      omega
    · simp [Stage.remaining,stage]
  | loaded value =>
    rw [stage] at step
    cases step
    cases writer
    · simp [Stage.remaining,stage]
      omega
    · simp [Stage.remaining,stage]
  | ended => simp [stage] at step

theorem reached_remaining {change : Writer → V → V} {now last : (Writer → Stage V) × V} {turns : List Writer}
    (reached : turns.foldlM (advanced change) now = some last) :
    (last.1 .left).remaining + (last.1 .right).remaining + turns.length =
      (now.1 .left).remaining + (now.1 .right).remaining := by
  induction turns generalizing now with
  | nil =>
    cases reached
    rfl
  | cons writer rest ih =>
    obtain ⟨next,step,later⟩ := Option.bind_eq_some_iff.mp reached
    have one := advanced_remaining step
    have others := ih later
    simp only [List.length_cons]
    omega

/-- One writer after the other. -/
def Consecutive (turns : List Writer) : Prop :=
  turns = [.left,.left,.right,.right] ∨ turns = [.right,.right,.left,.left]

/-- What the cell holds when both writers have ended. -/
def Outcome (change : Writer → V → V) (old : V) (turns : List Writer) (value : V) : Prop :=
  (Consecutive turns → value = change .right (change .left old) ∨ value = change .left (change .right old)) ∧
    (¬ Consecutive turns → ∃ last, turns.getLast? = some last ∧ value = change last old)

theorem two_writers {change : Writer → V → V} {old value : V} {events : List (Event Writer (cell V))}
    {now : Writer → Program (cell V) ε Unit}
    (trace : Trace Holds (fun actor => writer (change actor)) old events now value)
    (ended : ∀ actor, now actor = .done ()) : Outcome change old (turns events) value := by
  obtain ⟨stages,isNow,reached⟩ := trace_stages trace
  have finished (actor : Writer) : stages actor = .ended := by
    have ends := ended actor
    rw [isNow] at ends
    cases stage : stages actor with
    | begun => simp [stage,Stage.rest,writer] at ends
    | loaded loaded => simp [stage,Stage.rest] at ends
    | ended => rfl
  have four : (turns events).length = 4 := by
    have remaining := reached_remaining reached
    simpa [finished,Stage.remaining] using remaining
  obtain ⟨first,second,third,fourth,isTurns⟩ := List.length_eq_four.mp four
  rw [isTurns] at reached ⊢
  unfold Outcome Consecutive
  -- of the sixteen orders six are possible
  cases first <;> cases second <;> cases third <;> cases fourth <;> simp [advanced] at reached <;>
    simp [← reached.2]

end
end OpenRune.Cells
