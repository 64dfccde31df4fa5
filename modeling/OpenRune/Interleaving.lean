import OpenRune.Programs

/-!
# Interleavings of programs

Several programs perform their operations on one shared state, one operation at
a time and in any order. What a single program does, whatever it is answered, is
found by running it against `Recording`, an environment that only remembers its
own history; `trace_own` carries such facts over to every interleaving.
-/
namespace OpenRune.Interleaving
open OpenRune.Programs

/-- An operation with the reply it got. -/
abbrev Exchange (sig : Signature) := Σ op : sig.Op, sig.Reply op

/-- An exchange of one of the programs. -/
structure Event (ι : Type) (sig : Signature) where
  actor : ι
  exchange : Exchange sig

section
variable {ι : Type} [DecidableEq ι] {sig : Signature} {ε α σ : Type}

/-- The programs, in the order of the events, take one state to another. -/
inductive Trace (env : Environment sig σ) (procs : ι → Program sig ε α) (s : σ) :
    List (Event ι sig) → (ι → Program sig ε α) → σ → Prop
  | start : Trace env procs s [] procs s
  | step {events : List (Event ι sig)} {now : ι → Program sig ε α} {t u : σ} {actor : ι} {op : sig.Op}
      {next : sig.Reply op → Program sig ε α} {reply : sig.Reply op}
      (before : Trace env procs s events now t) (turn : now actor = .call op next) (reacts : env op t reply u) :
      Trace env procs s (events ++ [⟨actor,op,reply⟩]) (Function.update now actor (next reply)) u

/-- The exchanges of one program, in order. -/
def own (actor : ι) (events : List (Event ι sig)) : List (Exchange sig) :=
  events.filterMap fun event => if event.actor = actor then some event.exchange else none

/-- The environment that answers anything and remembers what was exchanged. -/
def Recording (sig : Signature) : Environment sig (List (Exchange sig)) :=
  fun op history reply history' => history' = history ++ [⟨op,reply⟩]

theorem own_append (actor : ι) (before after : List (Event ι sig)) :
    own actor (before ++ after) = own actor before ++ own actor after := List.filterMap_append

theorem own_single (actor : ι) (event : Event ι sig) :
    own actor [event] = if event.actor = actor then [event.exchange] else [] := by
  unfold own
  by_cases same : event.actor = actor
  · simp [same]
  · simp [same]

/-- Within an interleaving each program runs as it does alone, with its own
    exchanges as history. -/
theorem trace_own {env : Environment sig σ} {procs now : ι → Program sig ε α} {s t : σ}
    {events : List (Event ι sig)} (trace : Trace env procs s events now t) (actor : ι) :
    Steps (Recording sig) (procs actor) [] (now actor) (own actor events) := by
  induction trace with
  | start => exact .refl
  | @step events now t u other op next reply before turn reacts ih =>
    rw [own_append,own_single]
    by_cases same : other = actor
    · subst same
      rw [turn] at ih
      simpa using Steps.tail ih rfl
    · simpa [same,Function.update_of_ne (Ne.symm same)] using ih

/-- An exchange of one program splits the history of all of them. -/
theorem own_split {actor : ι} {events : List (Event ι sig)} {before after : List (Exchange sig)}
    {exchange : Exchange sig} (split : own actor events = before ++ exchange :: after) :
    ∃ earlier later, events = earlier ++ ⟨actor,exchange⟩ :: later ∧ own actor later = after := by
  unfold own at split
  obtain ⟨earlier,later,rfl,_,rest⟩ := List.filterMap_eq_append_iff.mp split
  obtain ⟨skipped,event,later',rfl,_,found,last⟩ := List.filterMap_eq_cons_iff.mp rest
  have here : event.actor = actor ∧ event.exchange = exchange := by simpa using found
  refine ⟨earlier ++ skipped,later',?_,last⟩
  obtain ⟨rfl,rfl⟩ := here
  simp

/-- A trace through a list of events passes through each of its prefixes. -/
theorem trace_split {env : Environment sig σ} {procs now : ι → Program sig ε α} {s u : σ}
    {earlier later : List (Event ι sig)} (trace : Trace env procs s (earlier ++ later) now u) :
    ∃ mid t, Trace env procs s earlier mid t ∧ Trace env mid t later now u := by
  induction later using List.reverseRecOn generalizing now u with
  | nil => exact ⟨now,u,by simpa using trace,.start⟩
  | append_singleton later event ih =>
    rw [← List.append_assoc] at trace
    generalize whole : earlier ++ later ++ [event] = events at trace
    cases trace with
    | start => simp at whole
    | @step events now t u actor op next reply before turn reacts =>
      obtain ⟨rfl,same⟩ := List.append_inj' whole rfl
      obtain ⟨mid,v,first,second⟩ := ih before
      cases same
      exact ⟨mid,v,first,.step second turn reacts⟩

/-- What every event of a list keeps, the whole trace keeps. -/
theorem trace_invariant {env : Environment sig σ} {procs now : ι → Program sig ε α} {s t : σ}
    {events : List (Event ι sig)} {inv : σ → Prop} (trace : Trace env procs s events now t) (holds : inv s)
    (kept : ∀ event ∈ events, ∀ v w, inv v → env event.exchange.1 v event.exchange.2 w → inv w) : inv t := by
  induction trace with
  | start => exact holds
  | step before turn reacts ih =>
    have earlier := ih (fun event member => kept event (List.mem_append_left _ member))
    exact kept _ (List.mem_append_right _ (List.mem_singleton_self _)) _ _ earlier reacts

/-! ## Executing interleavings -/

/-- One operation of the scheduled program; nothing when it has ended. -/
def turn (handler : Handler sig σ) (actor : ι) (now : ι → Program sig ε α) (s : σ) :
    List (Event ι sig) × (ι → Program sig ε α) × σ :=
  match now actor with
  | .call op next =>
    ([⟨actor,op,(handler op s).1⟩],Function.update now actor (next (handler op s).1),(handler op s).2)
  | _ => ([],now,s)

/-- The interleaving that a schedule picks. -/
def schedule (handler : Handler sig σ) (events : List (Event ι sig)) (now : ι → Program sig ε α) (s : σ) :
    List ι → List (Event ι sig) × (ι → Program sig ε α) × σ
  | [] => (events,now,s)
  | actor :: rest =>
    let moved := turn handler actor now s
    schedule handler (events ++ moved.1) moved.2.1 moved.2.2 rest

theorem schedule_trace {env : Environment sig σ} {handler : Handler sig σ}
    (admitted : ∀ op s, env op s (handler op s).1 (handler op s).2) {procs now : ι → Program sig ε α} {s t : σ}
    {events : List (Event ι sig)} (trace : Trace env procs s events now t) (order : List ι) :
    Trace env procs s (schedule handler events now t order).1 (schedule handler events now t order).2.1
      (schedule handler events now t order).2.2 := by
  induction order generalizing events now t with
  | nil => exact trace
  | cons actor rest ih =>
    unfold schedule
    apply ih
    unfold turn
    split
    · rename_i op next scheduled
      exact .step trace scheduled (admitted op t)
    · simpa using trace

end
end OpenRune.Interleaving
