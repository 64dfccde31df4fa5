import Mathlib

/-!
# Programs over operations

A program ends with a value, raises an exception, or performs an operation and
goes on with the reply. Replies are chosen by an environment, so that one
program has one run for every way the files, servers and faults around it may
behave. `Ensures` is the weakest precondition over all of these runs, with a
guard that every operation has to meet at the moment it is performed.
-/
namespace OpenRune.Programs

/-- Operations, and the type of the reply to each. -/
structure Signature where
  Op : Type
  Reply : Op → Type

/-- Finite programs over a signature, with exceptions of type `ε`. -/
inductive Program (sig : Signature) (ε α : Type) : Type
  | done (value : α)
  | raise (error : ε)
  | call (op : sig.Op) (next : sig.Reply op → Program sig ε α)

section
variable {sig : Signature} {ε α β σ : Type}

/-- Sequencing: an exception of the first program skips the second. -/
def Program.bind : Program sig ε α → (α → Program sig ε β) → Program sig ε β
  | .done value, f => f value
  | .raise error, _ => .raise error
  | .call op next, f => .call op fun reply => (next reply).bind f

/-- `try` with a handler for every exception; a handler that does not want an
    exception raises it again. -/
def Program.handle : Program sig ε α → (ε → Program sig ε α) → Program sig ε α
  | .done value, _ => .done value
  | .raise error, h => h error
  | .call op next, h => .call op fun reply => (next reply).handle h

instance : Monad (Program sig ε) where
  pure := .done
  bind := .bind

instance : MonadExcept ε (Program sig ε) where
  throw := .raise
  tryCatch := .handle

/-- Perform one operation. -/
def perform (op : sig.Op) : Program sig ε (sig.Reply op) := .call op .done

/-- The outcome of a program as a value, its exceptions included. -/
def attempt (p : Program sig ε α) : Program sig ε (Except ε α) :=
  (p.bind fun value => .done (.ok value)).handle fun error => .done (.error error)

/-- A computation without operations. -/
def ofOutcome : Except ε α → Program sig ε α
  | .ok value => .done value
  | .error error => .raise error

theorem bind_assoc {γ : Type} (p : Program sig ε α) (f : α → Program sig ε β) (g : β → Program sig ε γ) :
    (p.bind f).bind g = p.bind fun value => (f value).bind g := by
  induction p with
  | done value => rfl
  | raise error => rfl
  | call op next ih => simp only [Program.bind,ih]

private theorem id_map (p : Program sig ε α) : p.bind (fun value => .done value) = p := by
  induction p with
  | done value => rfl
  | raise error => rfl
  | call op next ih => exact congrArg (Program.call op) (funext ih)

instance : LawfulMonad (Program sig ε) :=
  LawfulMonad.mk' (Program sig ε) id_map (fun _ _ => rfl) bind_assoc

/-! ## Runs -/

/-- Which replies an environment may give to an operation, and the state after. -/
abbrev Environment (sig : Signature) (σ : Type) := (op : sig.Op) → σ → sig.Reply op → σ → Prop

/-- Some operations of a program are performed: what is left of it, and the state. -/
inductive Steps (env : Environment sig σ) (p : Program sig ε α) (s : σ) : Program sig ε α → σ → Prop
  | refl : Steps env p s p s
  | tail {op : sig.Op} {next : sig.Reply op → Program sig ε α} {reply : sig.Reply op} {t u : σ}
      (before : Steps env p s (.call op next) t) (reacts : env op t reply u) : Steps env p s (next reply) u

/-- A whole run, with the value or the exception it ends with. -/
def Runs (env : Environment sig σ) (p : Program sig ε α) (s : σ) (outcome : Except ε α) (t : σ) : Prop :=
  Steps env p s (ofOutcome outcome) t

/-- A run comes to perform the operation, in the given state. -/
def Calls (env : Environment sig σ) (p : Program sig ε α) (s : σ) (op : sig.Op) (t : σ) : Prop :=
  ∃ next, Steps env p s (.call op next) t

/-- A run comes to the state. -/
def Reaches (env : Environment sig σ) (p : Program sig ε α) (s t : σ) : Prop := ∃ q, Steps env p s q t

/-- An environment that answers every operation in every state. -/
def Total (env : Environment sig σ) : Prop := ∀ op s, ∃ reply t, env op s reply t

theorem steps_cons {env : Environment sig σ} {op : sig.Op} {next : sig.Reply op → Program sig ε α}
    {reply : sig.Reply op} {s t u : σ} {q : Program sig ε α} (reacts : env op s reply t)
    (rest : Steps env (next reply) t q u) : Steps env (.call op next) s q u := by
  induction rest with
  | refl => exact .tail .refl reacts
  | tail before reacts' ih => exact .tail ih reacts'

theorem calls_cons {env : Environment sig σ} {op op' : sig.Op} {next : sig.Reply op → Program sig ε α}
    {reply : sig.Reply op} {s t u : σ} (reacts : env op s reply t) (rest : Calls env (next reply) t op' u) :
    Calls env (.call op next) s op' u := ⟨rest.choose,steps_cons reacts rest.choose_spec⟩

theorem reaches_start {env : Environment sig σ} {p : Program sig ε α} {s : σ} : Reaches env p s s := ⟨p,.refl⟩

theorem reaches_cons {env : Environment sig σ} {op : sig.Op} {next : sig.Reply op → Program sig ε α}
    {reply : sig.Reply op} {s t u : σ} (reacts : env op s reply t) (rest : Reaches env (next reply) t u) :
    Reaches env (.call op next) s u := ⟨rest.choose,steps_cons reacts rest.choose_spec⟩

theorem steps_trans {env : Environment sig σ} {p q r : Program sig ε α} {s t u : σ} (first : Steps env p s q t)
    (second : Steps env q t r u) : Steps env p s r u := by
  induction second with
  | refl => exact first
  | tail _ reacts ih => exact .tail ih reacts

theorem steps_bind {env : Environment sig σ} {p q : Program sig ε α} {s t : σ} (steps : Steps env p s q t)
    (f : α → Program sig ε β) : Steps env (p >>= f) s (q >>= f) t := by
  induction steps with
  | refl => exact .refl
  | tail _ reacts ih => exact steps_trans ih (steps_cons reacts .refl)

/-- A program that has run to its end, and what follows it. -/
theorem steps_after {env : Environment sig σ} {p : Program sig ε α} {f : α → Program sig ε β} {q : Program sig ε β}
    {s t u : σ} {value : α} (first : Steps env p s (.done value) t) (second : Steps env (f value) t q u) :
    Steps env (p >>= f) s q u := steps_trans (steps_bind first f) second

theorem calls_bind {env : Environment sig σ} {p : Program sig ε α} {s t : σ} {op : sig.Op}
    (calls : Calls env p s op t) (f : α → Program sig ε β) : Calls env (p >>= f) s op t := by
  obtain ⟨next,steps⟩ := calls
  exact ⟨fun reply => next reply >>= f,steps_bind steps f⟩

theorem calls_after {env : Environment sig σ} {p : Program sig ε α} {f : α → Program sig ε β} {s t u : σ} {op : sig.Op}
    {value : α} (first : Runs env p s (.ok value) t) (second : Calls env (f value) t op u) :
    Calls env (p >>= f) s op u := by
  obtain ⟨next,steps⟩ := second
  exact ⟨next,steps_after first steps⟩

/-- Programs are finite, so under a total environment some run ends. -/
theorem exists_run {env : Environment sig σ} (total : Total env) (p : Program sig ε α) (s : σ) :
    ∃ outcome t, Runs env p s outcome t := by
  induction p generalizing s with
  | done value => exact ⟨.ok value,s,.refl⟩
  | raise error => exact ⟨.error error,s,.refl⟩
  | call op next ih =>
    obtain ⟨reply,t,reacts⟩ := total op s
    obtain ⟨outcome,u,rest⟩ := ih reply t
    exact ⟨outcome,u,steps_cons reacts rest⟩

/-! ## Weakest preconditions -/

/-- From the state, every operation of every run meets the guard when it is
    performed, and every end of a run meets the postcondition. -/
def Ensures (env : Environment sig σ) (guard : sig.Op → σ → Prop) :
    Program sig ε α → (Except ε α → σ → Prop) → σ → Prop
  | .done value, post, s => post (.ok value) s
  | .raise error, post, s => post (.error error) s
  | .call op next, post, s => guard op s ∧ ∀ reply t, env op s reply t → Ensures env guard (next reply) post t

/-- Every end of a run meets the postcondition. -/
abbrev Ends (env : Environment sig σ) (p : Program sig ε α) (post : Except ε α → σ → Prop) (s : σ) : Prop :=
  Ensures env (fun _ _ => True) p post s

variable {env : Environment sig σ} {guard : sig.Op → σ → Prop}

theorem ensures_steps {p q : Program sig ε α} {post : Except ε α → σ → Prop} {s t : σ}
    (ensures : Ensures env guard p post s) (steps : Steps env p s q t) : Ensures env guard q post t := by
  induction steps with
  | refl => exact ensures
  | tail before reacts ih => exact ih.2 _ _ reacts

/-- Every run ends in the postcondition. -/
theorem ensures_runs {p : Program sig ε α} {post : Except ε α → σ → Prop} {s t : σ} {outcome : Except ε α}
    (ensures : Ensures env guard p post s) (runs : Runs env p s outcome t) : post outcome t := by
  have final := ensures_steps ensures runs
  cases outcome with
  | ok value => exact final
  | error error => exact final

/-- Every operation that a run performs meets the guard. -/
theorem ensures_calls {p : Program sig ε α} {post : Except ε α → σ → Prop} {s t : σ} {op : sig.Op}
    (ensures : Ensures env guard p post s) (calls : Calls env p s op t) : guard op t := by
  obtain ⟨next,steps⟩ := calls
  exact (ensures_steps ensures steps).1

/-- Fewer replies, fewer runs. -/
theorem ensures_env {env' : Environment sig σ} {p : Program sig ε α} {post : Except ε α → σ → Prop} {s : σ}
    (ensures : Ensures env guard p post s) (sub : ∀ op t reply u, env' op t reply u → env op t reply u) :
    Ensures env' guard p post s := by
  induction p generalizing s with
  | done value => exact ensures
  | raise error => exact ensures
  | call op next ih => exact ⟨ensures.1,fun reply t reacts => ih reply (ensures.2 reply t (sub _ _ _ _ reacts))⟩

/-- What every operation meets and every end, every state meets that is reached. -/
theorem ensures_reached {p q : Program sig ε α} {inv : σ → Prop} {s t : σ}
    (ensures : Ensures env (fun _ u => inv u) p (fun _ u => inv u) s) (steps : Steps env p s q t) : inv t := by
  have reached := ensures_steps ensures steps
  cases q with
  | done value => exact reached
  | raise error => exact reached
  | call op next => exact reached.1

theorem ensures_mono {p : Program sig ε α} {post post' : Except ε α → σ → Prop} {s : σ}
    (ensures : Ensures env guard p post s) (weaker : ∀ outcome t, post outcome t → post' outcome t) :
    Ensures env guard p post' s := by
  induction p generalizing s with
  | done value => exact weaker _ _ ensures
  | raise error => exact weaker _ _ ensures
  | call op next ih => exact ⟨ensures.1,fun reply t reacts => ih reply (ensures.2 reply t reacts)⟩

theorem ensures_guard {guard' : sig.Op → σ → Prop} {p : Program sig ε α} {post : Except ε α → σ → Prop} {s : σ}
    (ensures : Ensures env guard p post s) (weaker : ∀ op t, guard op t → guard' op t) :
    Ensures env guard' p post s := by
  induction p generalizing s with
  | done value => exact ensures
  | raise error => exact ensures
  | call op next ih => exact ⟨weaker _ _ ensures.1,fun reply t reacts => ih reply (ensures.2 reply t reacts)⟩

/-- The rule of sequencing. -/
theorem ensures_bind {p : Program sig ε α} {f : α → Program sig ε β} {post : Except ε β → σ → Prop} {s : σ}
    (first : Ensures env guard p (fun outcome t => match outcome with
      | .ok value => Ensures env guard (f value) post t
      | .error error => post (.error error) t) s) : Ensures env guard (p >>= f) post s := by
  induction p generalizing s with
  | done value => exact first
  | raise error => exact first
  | call op next ih => exact ⟨first.1,fun reply t reacts => ih reply (first.2 reply t reacts)⟩

/-- What comes first does not matter where what follows meets the postcondition anyway. -/
theorem ends_after {p : Program sig ε α} {f : α → Program sig ε β} {post : Except ε β → σ → Prop} {s : σ}
    (follows : ∀ value t, Ends env (f value) post t) (failed : ∀ error t, post (.error error) t) :
    Ends env (p >>= f) post s := by
  induction p generalizing s with
  | done value => exact follows value s
  | raise error => exact failed error s
  | call op next ih => exact ⟨trivial,fun reply t _ => ih reply⟩

/-- The rule of `try`. -/
theorem ensures_handle {p : Program sig ε α} {h : ε → Program sig ε α} {post : Except ε α → σ → Prop} {s : σ}
    (body : Ensures env guard p (fun outcome t => match outcome with
      | .ok value => post (.ok value) t
      | .error error => Ensures env guard (h error) post t) s) : Ensures env guard (tryCatch p h) post s := by
  induction p generalizing s with
  | done value => exact body
  | raise error => exact body
  | call op next ih => exact ⟨body.1,fun reply t reacts => ih reply (body.2 reply t reacts)⟩

/-- `attempt` turns every outcome into a value. -/
theorem ensures_attempt {p : Program sig ε α} {f : Except ε α → Program sig ε β} {post : Except ε β → σ → Prop}
    {s : σ} (body : Ensures env guard p (fun outcome t => Ensures env guard (f outcome) post t) s) :
    Ensures env guard (attempt p >>= f) post s := by
  induction p generalizing s with
  | done value => exact body
  | raise error => exact body
  | call op next ih => exact ⟨body.1,fun reply t reacts => ih reply (body.2 reply t reacts)⟩

/-- An operation, and what follows it. -/
theorem ensures_perform {op : sig.Op} {f : sig.Reply op → Program sig ε α} {post : Except ε α → σ → Prop} {s : σ}
    (met : guard op s) (replies : ∀ reply t, env op s reply t → Ensures env guard (f reply) post t) :
    Ensures env guard (perform op >>= f) post s := ⟨met,replies⟩

theorem ensures_ofOutcome {outcome : Except ε α} {post : Except ε α → σ → Prop} {s : σ} (holds : post outcome s) :
    Ensures env guard (ofOutcome outcome : Program sig ε α) post s := by
  cases outcome with
  | ok value => exact holds
  | error error => exact holds

/-- A computation without operations, and what follows when it has a value. -/
theorem ensures_outcome {outcome : Except ε α} {f : α → Program sig ε β} {post : Except ε β → σ → Prop} {s : σ}
    (ok : ∀ value, outcome = .ok value → Ensures env guard (f value) post s)
    (failed : ∀ error, outcome = .error error → post (.error error) s) :
    Ensures env guard (ofOutcome outcome >>= f) post s := by
  cases outcome with
  | ok value => exact ok value rfl
  | error error => exact failed error rfl

/-- The rule of loops that carry an accumulator: the invariant speaks about the
    items that are still to come. -/
theorem ensures_foldlM {body : β → α → Program sig ε β} {inv : List α → β → σ → Prop}
    {post : Except ε β → σ → Prop} {items : List α} {acc : β} {s : σ} (start : inv items acc s)
    (step : ∀ item rest acc s, inv (item :: rest) acc s →
      Ensures env guard (body acc item) (fun outcome t => match outcome with
        | .ok acc' => inv rest acc' t
        | .error error => post (.error error) t) s)
    (finish : ∀ acc s, inv [] acc s → post (.ok acc) s) :
    Ensures env guard (items.foldlM body acc) post s := by
  induction items generalizing acc s with
  | nil => exact finish _ _ start
  | cons item rest ih =>
    rw [List.foldlM_cons]
    refine ensures_bind (ensures_mono (step item rest acc s start) ?_)
    intro outcome t holds
    cases outcome with
    | ok acc' => exact ih holds
    | error error => exact holds

/-- The rule of loops without an accumulator. -/
theorem ensures_forM {body : α → Program sig ε PUnit} {inv : List α → σ → Prop}
    {post : Except ε PUnit → σ → Prop} {items : List α} {s : σ} (start : inv items s)
    (step : ∀ item rest s, inv (item :: rest) s →
      Ensures env guard (body item) (fun outcome t => match outcome with
        | .ok _ => inv rest t
        | .error error => post (.error error) t) s)
    (finish : ∀ s, inv [] s → post (.ok ⟨⟩) s) :
    Ensures env guard (items.forM body) post s := by
  induction items generalizing s with
  | nil => exact finish _ start
  | cons item rest ih =>
    refine ensures_bind (ensures_mono (step item rest s start) ?_)
    intro outcome t holds
    cases outcome with
    | ok done => exact ih holds
    | error error => exact holds

/-- Two postconditions, one of them without a guard of its own. -/
theorem ensures_and {p : Program sig ε α} {post post' : Except ε α → σ → Prop} {s : σ} (left : Ends env p post s)
    (right : Ensures env guard p post' s) :
    Ensures env guard p (fun outcome t => post outcome t ∧ post' outcome t) s := by
  induction p generalizing s with
  | done value => exact ⟨left,right⟩
  | raise error => exact ⟨left,right⟩
  | call op next ih =>
    exact ⟨right.1,fun reply t reacts => ih reply (left.2 reply t reacts) (right.2 reply t reacts)⟩

/-! ## Which operations occur -/

/-- Every operation that the program may come to, whatever it is answered, is allowed. -/
def Only (allowed : sig.Op → Prop) : Program sig ε α → Prop
  | .done _ => True
  | .raise _ => True
  | .call op next => allowed op ∧ ∀ reply, Only allowed (next reply)

variable {allowed : sig.Op → Prop}

@[simp] theorem only_pure (value : α) : Only allowed (pure value : Program sig ε α) := trivial

@[simp] theorem only_throw (error : ε) : Only allowed (throw error : Program sig ε α) := trivial

@[simp] theorem only_ofOutcome (outcome : Except ε α) : Only allowed (ofOutcome outcome : Program sig ε α) := by
  cases outcome <;> exact trivial

theorem only_perform {op : sig.Op} (ok : allowed op) : Only allowed (perform op : Program sig ε (sig.Reply op)) :=
  ⟨ok,fun _ => trivial⟩

theorem only_bind {p : Program sig ε α} {f : α → Program sig ε β} (first : Only allowed p)
    (second : ∀ value, Only allowed (f value)) : Only allowed (p >>= f) := by
  induction p with
  | done value => exact second value
  | raise error => exact trivial
  | call op next ih => exact ⟨first.1,fun reply => ih reply (first.2 reply)⟩

theorem only_outcome {outcome : Except ε α} {f : α → Program sig ε β}
    (ok : ∀ value, outcome = .ok value → Only allowed (f value)) : Only allowed (ofOutcome outcome >>= f) := by
  cases outcome with
  | ok value => exact ok value rfl
  | error error => exact trivial

theorem only_attempt {p : Program sig ε α} (body : Only allowed p) : Only allowed (attempt p) := by
  induction p with
  | done value => exact trivial
  | raise error => exact trivial
  | call op next ih => exact ⟨body.1,fun reply => ih reply (body.2 reply)⟩

theorem only_handle {p : Program sig ε α} {h : ε → Program sig ε α} (body : Only allowed p)
    (handler : ∀ error, Only allowed (h error)) : Only allowed (tryCatch p h) := by
  induction p with
  | done value => exact trivial
  | raise error => exact handler error
  | call op next ih => exact ⟨body.1,fun reply => ih reply (body.2 reply)⟩

theorem only_foldlM {body : β → α → Program sig ε β} (each : ∀ acc item, Only allowed (body acc item))
    (items : List α) (acc : β) : Only allowed (items.foldlM body acc) := by
  induction items generalizing acc with
  | nil => exact trivial
  | cons item rest ih => exact only_bind (each acc item) fun acc' => ih acc'

theorem only_forM {body : α → Program sig ε PUnit} (each : ∀ item, Only allowed (body item)) (items : List α) :
    Only allowed (items.forM body) := by
  induction items with
  | nil => exact trivial
  | cons item rest ih => exact only_bind (each item) fun _ => ih

theorem only_mono {p : Program sig ε α} {allowed' : sig.Op → Prop} (only : Only allowed p)
    (weaker : ∀ op, allowed op → allowed' op) : Only allowed' p := by
  induction p with
  | done value => exact trivial
  | raise error => exact trivial
  | call op next ih => exact ⟨weaker op only.1,fun reply => ih reply (only.2 reply)⟩

/-- What the allowed operations keep, the program keeps. -/
theorem ensures_only {inv : σ → Prop} {p : Program sig ε α} {s : σ} (only : Only allowed p) (start : inv s)
    (met : ∀ op t, allowed op → inv t → guard op t)
    (kept : ∀ op t reply u, allowed op → inv t → env op t reply u → inv u) :
    Ensures env guard p (fun _ t => inv t) s := by
  induction p generalizing s with
  | done value => exact start
  | raise error => exact start
  | call op next ih =>
    refine ⟨met op s only.1 start,?_⟩
    intro reply t reacts
    exact ih reply (only.2 reply) (kept op s reply t only.1 start reacts)

/-! ## Counting operations -/

/-- An environment that counts some of the operations, beside its own state. -/
def Counting (env : Environment sig σ) (counted : sig.Op → Bool) : Environment sig (σ × Nat) := fun op s reply t =>
  env op s.1 reply t.1 ∧ t.2 = s.2 + (counted op).toNat

/-- Where none of the operations is performed that count, the count stays. -/
theorem counting_none {counted : sig.Op → Bool} {p : Program sig ε α} {post : Except ε α → σ → Prop} {s : σ} {n : Nat}
    (ensures : Ensures env (fun op _ => counted op = false) p post s) :
    Ends (Counting env counted) p (fun outcome t => post outcome t.1 ∧ t.2 = n) (s,n) := by
  induction p generalizing s with
  | done value => exact ⟨ensures,rfl⟩
  | raise error => exact ⟨ensures,rfl⟩
  | call op next ih =>
    refine ⟨trivial,?_⟩
    rintro reply ⟨t,m⟩ ⟨reacts,counts⟩
    obtain rfl : m = n := by simpa [ensures.1] using counts
    exact ih reply (ensures.2 reply t reacts)

/-! ## Fixed answers -/

/-- The outcome where every operation has one answer. -/
def Program.answered (answer : (op : sig.Op) → sig.Reply op) : Program sig ε α → Except ε α
  | .done value => .ok value
  | .raise error => .error error
  | .call op next => (next (answer op)).answered answer

theorem answered_bind {answer : (op : sig.Op) → sig.Reply op} (p : Program sig ε α) (f : α → Program sig ε β) :
    (p >>= f).answered answer = (p.answered answer >>= fun value => (f value).answered answer) := by
  induction p with
  | done value => rfl
  | raise error => rfl
  | call op next ih => exact ih (answer op)

theorem answered_outcome {answer : (op : sig.Op) → sig.Reply op} (outcome : Except ε α) :
    (ofOutcome outcome : Program sig ε α).answered answer = outcome := by cases outcome <;> rfl

theorem answered_attempt {answer : (op : sig.Op) → sig.Reply op} (p : Program sig ε α) :
    (attempt p).answered answer = .ok (p.answered answer) := by
  unfold attempt
  induction p with
  | done value => rfl
  | raise error => rfl
  | call op next ih => exact ih (answer op)

/-- Operations that have one answer and change nothing leave a program one outcome. -/
theorem answered_ends {answer : (op : sig.Op) → sig.Reply op} {p : Program sig ε α} {s : σ} (only : Only allowed p)
    (fixed : ∀ op reply t, allowed op → env op s reply t → reply = answer op ∧ t = s) :
    Ends env p (fun outcome t => outcome = p.answered answer ∧ t = s) s := by
  induction p with
  | done value => exact ⟨rfl,rfl⟩
  | raise error => exact ⟨rfl,rfl⟩
  | call op next ih =>
    refine ⟨trivial,?_⟩
    intro reply t reacts
    obtain ⟨rfl,rfl⟩ := fixed op reply t only.1 reacts
    exact ih _ (only.2 _)

/-! ## Executing programs -/

/-- A computable environment: one reply to every operation in every state. -/
abbrev Handler (sig : Signature) (σ : Type) := (op : sig.Op) → σ → sig.Reply op × σ

def Handler.environment (handler : Handler sig σ) : Environment sig σ := fun op s reply t => handler op s = (reply,t)

theorem handler_total (handler : Handler sig σ) : Total handler.environment := fun op s =>
  ⟨(handler op s).1,(handler op s).2,rfl⟩

/-- The handler that counts some of the operations. -/
def Handler.counting (handler : Handler sig σ) (counted : sig.Op → Bool) : Handler sig (σ × Nat) := fun op s =>
  ((handler op s.1).1,(handler op s.1).2,s.2 + (counted op).toNat)

/-- The run of a program under a handler. -/
def execute (handler : Handler sig σ) : Program sig ε α → σ → Except ε α × σ
  | .done value, s => (.ok value,s)
  | .raise error, s => (.error error,s)
  | .call op next, s => execute handler (next (handler op s).1) (handler op s).2

/-- Executing a sequence: an exception of the first program skips the second. -/
theorem execute_bind {handler : Handler sig σ} (p : Program sig ε α) (f : α → Program sig ε β) (s : σ) :
    execute handler (p >>= f) s = match execute handler p s with
      | (.ok value,t) => execute handler (f value) t
      | (.error error,t) => (.error error,t) := by
  induction p generalizing s with
  | done value => rfl
  | raise error => rfl
  | call op next ih => exact ih _ _

theorem execute_attempt {handler : Handler sig σ} (p : Program sig ε α) (s : σ) :
    execute handler (attempt p) s = (.ok (execute handler p s).1,(execute handler p s).2) := by
  induction p generalizing s with
  | done value => rfl
  | raise error => rfl
  | call op next ih => exact ih _ _

/-- The first operations of an execution: what is left of the program, and the state. -/
def advance (handler : Handler sig σ) : Nat → Program sig ε α → σ → Program sig ε α × σ
  | n + 1, .call op next, s => advance handler n (next (handler op s).1) (handler op s).2
  | _, p, s => (p,s)

theorem advance_steps {handler : Handler sig σ} (admitted : ∀ op s, env op s (handler op s).1 (handler op s).2)
    (n : Nat) (p : Program sig ε α) (s : σ) :
    Steps env p s (advance handler n p s).1 (advance handler n p s).2 := by
  induction n generalizing p s with
  | zero => exact .refl
  | succ n ih =>
    cases p with
    | done value => exact .refl
    | raise error => exact .refl
    | call op next => exact steps_cons (admitted op s) (ih _ _)

theorem advance_calls {handler : Handler sig σ} (admitted : ∀ op s, env op s (handler op s).1 (handler op s).2)
    {n : Nat} {p : Program sig ε α} {s : σ} {op : sig.Op} {next : sig.Reply op → Program sig ε α}
    (reached : (advance handler n p s).1 = .call op next) : Calls env p s op (advance handler n p s).2 :=
  ⟨next,reached ▸ advance_steps admitted n p s⟩

/-- Executions are runs of every environment that admits the handler's replies. -/
theorem execute_runs {handler : Handler sig σ} (admitted : ∀ op s, env op s (handler op s).1 (handler op s).2)
    (p : Program sig ε α) (s : σ) : Runs env p s (execute handler p s).1 (execute handler p s).2 := by
  induction p generalizing s with
  | done value => exact .refl
  | raise error => exact .refl
  | call op next ih => exact steps_cons (admitted op s) (ih _ _)

/-- An execution that is known is a run. -/
theorem execute_ran {handler : Handler sig σ} {p : Program sig ε α} {s t : σ} {outcome : Except ε α}
    (executed : execute handler p s = (outcome,t)) : Runs handler.environment p s outcome t := by
  have ran := @execute_runs _ _ _ _ handler.environment handler (fun _ _ => rfl) p s
  rwa [executed] at ran

theorem execute_ends {handler : Handler sig σ} {p : Program sig ε α} {s : σ} {outcome : Except ε α}
    (ended : (execute handler p s).1 = outcome) : Runs handler.environment p s outcome (execute handler p s).2 := by
  rw [← ended]
  exact @execute_runs _ _ _ _ handler.environment handler (fun _ _ => rfl) p s

end
end OpenRune.Programs
