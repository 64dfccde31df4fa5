import Mathlib

/-!
# Option parsing with dropt

`dropt_parse` and its helpers, for any table of options. A handler takes the
argument of its option, when there is one, and fails or changes the state.
-/
namespace OpenRune.Dropt

abbrev Arg := List Char

/-- One row of the table of options. `takesArg` says that the option has a
    description of its argument. -/
structure DroptOption (σ : Type) where
  shortName : Option Char
  longName : Option Arg
  handler : Option Arg → σ → Option σ
  takesArg : Bool := false
  optionalVal : Bool := false
  halt : Bool := false

section
variable {σ : Type}

/-- `parse_option_arg`: the new state, and the arguments that are left. -/
def parseOptionArg (option : DroptOption σ) (argument : Option Arg) (rest : List Arg) (s : σ) :
    Option (σ × List Arg) :=
  match option.takesArg,argument,rest with
  | true,none,next :: later =>
    match option.handler (some next) s with
    | some s' => some (s',later)
    | none => if option.optionalVal then (option.handler none s).map fun s' => (s',next :: later) else none
  | true,none,[] => if option.optionalVal then (option.handler none s).map fun s' => (s',[]) else none
  | _,_,_ => (option.handler argument s).map fun s' => (s',rest)

/-- An option's text up to the first `=`, and what follows it. -/
def splitArgument (text : Arg) : Arg × Option Arg :=
  match text.dropWhile (fun c => c != '=') with
  | [] => (text,none)
  | _ :: argument => (text.takeWhile fun c => c != '=',some argument)

/-- `parse_long_option`; the flag says whether parsing goes on. -/
def parseLongOption (options : List (DroptOption σ)) (text : Arg) (rest : List Arg) (s : σ) :
    Option (σ × List Arg × Bool) :=
  if text = [] then some (s,rest,false)
  else
    match splitArgument text with
    | ([],_) => none
    | (name,argument) =>
      match options.find? fun option => option.longName == some name with
      | none => none
      | some option => (parseOptionArg option argument rest s).map fun (s',rest') => (s',rest',!option.halt)

/-- The loop over the characters of a group of short options. -/
def parseShortGroup (options : List (DroptOption σ)) (argument : Option Arg) (rest : List Arg) :
    Arg → σ → Option (σ × List Arg × Bool)
  | [],s => some (s,rest,true)
  | c :: group,s =>
    match options.find? fun option => option.shortName == some c with
    | none => none
    | some option =>
      if group = [] then (parseOptionArg option argument rest s).map fun (s',rest') => (s',rest',!option.halt)
      else if option.takesArg && !option.optionalVal then none
      else
        match option.handler none s with
        | none => none
        | some s' => if option.halt then some (s',rest,false) else parseShortGroup options argument rest group s'

/-- `parse_short_option`. -/
def parseShortOption (options : List (DroptOption σ)) (text : Arg) (rest : List Arg) (s : σ) :
    Option (σ × List Arg × Bool) :=
  match splitArgument text with
  | ([],_) => none
  | (group,argument) => parseShortGroup options argument rest group s

/-- A dash alone is left to the caller, like everything without a dash. -/
def isOption : Arg → Bool
  | '-' :: _ :: _ => true
  | _ => false

def parseOption (options : List (DroptOption σ)) (arg : Arg) (rest : List Arg) (s : σ) :
    Option (σ × List Arg × Bool) :=
  match arg with
  | '-' :: '-' :: text => parseLongOption options text rest s
  | _ => parseShortOption options arg.tail rest s

/-- `dropt_parse`, with a bound on the number of arguments: the final state and
    the arguments that are left, or nothing after an error. -/
def parse (options : List (DroptOption σ)) : Nat → List Arg → σ → Option (σ × List Arg)
  | argsLeft + 1,arg :: rest,s =>
    if isOption arg then
      match parseOption options arg rest s with
      | none => none
      | some (s',rest',more) => if more then parse options argsLeft rest' s' else some (s',rest')
    else some (s,arg :: rest)
  | _,args,s => some (s,args)

/-! ## How much an argument can add -/

def argWeight (argument : Option Arg) : Nat := argument.elim 0 fun text => text.length + 1

def weight (args : List Arg) : Nat := (args.map fun text => text.length + 1).sum

/-- A measure of the state grows by no more than the argument of the option. -/
def Modest (gain : σ → Nat) (option : DroptOption σ) : Prop :=
  ∀ argument s s', option.handler argument s = some s' → gain s' ≤ gain s + argWeight argument

/-- What one option does: it uses up the next argument or not, and goes on if it does. -/
def Step (gain : σ → Nat) (argument : Option Arg) (rest : List Arg) (s : σ) (s' : σ) (rest' : List Arg)
    (more : Bool) : Prop :=
  (rest' = rest ∧ gain s' ≤ gain s + argWeight argument) ∨
    ∃ next, rest = next :: rest' ∧ more = true ∧ gain s' ≤ gain s + (next.length + 1)

variable {gain : σ → Nat} {options : List (DroptOption σ)}

theorem splitArgument_weight {text name : Arg} {argument : Option Arg} (split : splitArgument text = (name,argument)) :
    argWeight argument ≤ text.length := by
  unfold splitArgument at split
  cases found : text.dropWhile (fun c => c != '=') with
  | nil =>
    rw [found] at split
    cases split
    exact Nat.zero_le _
  | cons c rest =>
    rw [found] at split
    cases split
    have shorter := (List.dropWhile_suffix (l := text) fun c => c != '=').length_le
    rw [found] at shorter
    simpa [argWeight] using shorter

theorem parseOptionArg_step {option : DroptOption σ} {argument : Option Arg} {rest rest' : List Arg} {s s' : σ}
    (modest : Modest gain option) (halting : option.halt = true → option.takesArg = false)
    (parsed : parseOptionArg option argument rest s = some (s',rest')) :
    Step gain argument rest s s' rest' (!option.halt) := by
  unfold parseOptionArg at parsed
  split at parsed
  · rename_i next later takes
    have goesOn : (!option.halt) = true := by
      cases halts : option.halt with
      | false => rfl
      | true => simp [halting halts] at takes
    split at parsed
    · rename_i s'' handled
      cases parsed
      exact .inr ⟨next,rfl,goesOn,modest _ _ _ handled⟩
    · split at parsed
      · obtain ⟨s'',handled,same⟩ := Option.map_eq_some_iff.mp parsed
        cases same
        exact .inl ⟨rfl,modest _ _ _ handled⟩
      · cases parsed
  · split at parsed
    · obtain ⟨s'',handled,same⟩ := Option.map_eq_some_iff.mp parsed
      cases same
      exact .inl ⟨rfl,modest _ _ _ handled⟩
    · cases parsed
  · obtain ⟨s'',handled,same⟩ := Option.map_eq_some_iff.mp parsed
    cases same
    exact .inl ⟨rfl,modest _ _ _ handled⟩

variable (modest : ∀ option ∈ options, Modest gain option)
  (halting : ∀ option ∈ options, option.halt = true → option.takesArg = false)
include modest halting

theorem parseLongOption_step {text : Arg} {rest rest' : List Arg} {s s' : σ} {more : Bool}
    (parsed : parseLongOption options text rest s = some (s',rest',more)) :
    ∃ argument, argWeight argument ≤ text.length ∧ Step gain argument rest s s' rest' more := by
  unfold parseLongOption at parsed
  split at parsed
  · cases parsed
    exact ⟨none,Nat.zero_le _,.inl ⟨rfl,Nat.le_add_right _ _⟩⟩
  · split at parsed
    · cases parsed
    · rename_i name argument _ divided
      split at parsed
      · cases parsed
      · rename_i option found
        have listed := List.mem_of_find?_eq_some found
        obtain ⟨⟨s'',rest''⟩,done,same⟩ := Option.map_eq_some_iff.mp parsed
        cases same
        exact ⟨argument,splitArgument_weight divided,parseOptionArg_step (modest _ listed) (halting _ listed) done⟩

theorem parseShortGroup_step {argument : Option Arg} {group : Arg} {rest rest' : List Arg} {s s' : σ} {more : Bool}
    (parsed : parseShortGroup options argument rest group s = some (s',rest',more)) :
    Step gain argument rest s s' rest' more := by
  induction group generalizing s with
  | nil =>
    cases parsed
    exact .inl ⟨rfl,Nat.le_add_right _ _⟩
  | cons c group ih =>
    unfold parseShortGroup at parsed
    split at parsed
    · cases parsed
    · rename_i option found
      have listed := List.mem_of_find?_eq_some found
      split at parsed
      · obtain ⟨⟨s'',rest''⟩,done,same⟩ := Option.map_eq_some_iff.mp parsed
        cases same
        exact parseOptionArg_step (modest _ listed) (halting _ listed) done
      · split at parsed
        · cases parsed
        · split at parsed
          · cases parsed
          · rename_i s'' handled
            have still : gain s'' ≤ gain s := modest _ listed _ _ _ handled
            split at parsed
            · cases parsed
              exact .inl ⟨rfl,still.trans (Nat.le_add_right _ _)⟩
            · rcases ih parsed with ⟨same,bounded⟩ | ⟨next,used,goesOn,bounded⟩
              · exact .inl ⟨same,by omega⟩
              · exact .inr ⟨next,used,goesOn,by omega⟩

theorem parseShortOption_step {text : Arg} {rest rest' : List Arg} {s s' : σ} {more : Bool}
    (parsed : parseShortOption options text rest s = some (s',rest',more)) :
    ∃ argument, argWeight argument ≤ text.length ∧ Step gain argument rest s s' rest' more := by
  unfold parseShortOption at parsed
  split at parsed
  · cases parsed
  · rename_i group argument _ divided
    exact ⟨argument,splitArgument_weight divided,parseShortGroup_step modest halting parsed⟩

theorem parseOption_step {arg : Arg} {rest rest' : List Arg} {s s' : σ} {more : Bool} (dashed : isOption arg = true)
    (parsed : parseOption options arg rest s = some (s',rest',more)) :
    ∃ argument, argWeight argument < arg.length ∧ Step gain argument rest s s' rest' more := by
  unfold parseOption at parsed
  split at parsed
  · rename_i text
    obtain ⟨argument,small,step⟩ := parseLongOption_step modest halting parsed
    exact ⟨argument,by simp only [List.length_cons]; omega,step⟩
  · obtain ⟨argument,small,step⟩ := parseShortOption_step modest halting parsed
    cases arg with
    | nil => cases dashed
    | cons c text => exact ⟨argument,by simpa using Nat.lt_succ_of_le small,step⟩

/-- Parsing that leaves exactly what follows a `--` has added less than the weight
    of the arguments before it, when there are any: each option adds at most its
    own argument, and itself nothing. What follows the `--` is no option. -/
theorem parse_terminated {tail front : List Arg} {n : Nat} {s s' : σ}
    (fails : ∀ m s, tail.length ≤ m → parse options m tail s = none) (enough : front.length + 1 + tail.length ≤ n)
    (parsed : parse options n (front ++ ['-','-'] :: tail) s = some (s',tail)) :
    gain s' + front.length ≤ gain s + weight front := by
  induction n generalizing front s with
  | zero => omega
  | succ n ih =>
    cases front with
    | nil =>
      cases parsed
      exact le_refl _
    | cons arg more =>
      have tooLong {rest : List Arg} (same : rest ++ ['-','-'] :: tail = tail) : False := by
        have := congrArg List.length same
        simp at this
        omega
      rw [List.cons_append,parse] at parsed
      split at parsed
      · rename_i dashed
        split at parsed
        · cases parsed
        · rename_i s₁ rest₁ goesOn done
          obtain ⟨argument,small,step⟩ := parseOption_step modest halting dashed done
          simp only [weight,List.map_cons,List.sum_cons,List.length_cons] at *
          rcases step with ⟨rfl,bounded⟩ | ⟨next,used,rfl,bounded⟩
          · split at parsed
            · have later := ih (by omega) parsed
              omega
            · exact (tooLong (Prod.mk.inj (Option.some.inj parsed)).2).elim
          · cases more with
            | nil =>
              cases used
              rw [if_pos rfl,fails n s₁ (by simp at enough; omega)] at parsed
              cases parsed
            | cons argument' more =>
              cases used
              have later := ih (by simp at enough ⊢; omega) parsed
              simp only [List.map_cons,List.sum_cons,List.length_cons]
              omega
      · exact (@tooLong (arg :: more) (Prod.mk.inj (Option.some.inj parsed)).2).elim

end
end OpenRune.Dropt
