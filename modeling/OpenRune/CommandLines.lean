import Mathlib

/-!
# Command lines

How the runtime of a program on Windows divides its command line: blanks and tabs
separate arguments, double quotes group, `2n` backslashes before a quote stand for
`n` of them, `2n + 1` for `n` and a quote, and any others for themselves. A scan
never makes more than it reads, which is why a text that loses something on the way
can not be divided into what it was made of.
-/
namespace OpenRune.CommandLines

/-- What has been read: the complete arguments, the one that is being read, with
    the backslashes that wait for what follows them, and whether a quote is open. -/
structure Scan where
  complete : List (List Char) := []
  current : Option (List Char × Nat) := none
  quoted : Bool := false
  deriving DecidableEq, Repr

def backslashes (n : Nat) : List Char := List.replicate n '\\'

/-- The text of an argument whose backslashes stand for themselves. -/
def plain (argument : List Char × Nat) : List Char := argument.1 ++ backslashes argument.2

def isSeparator (c : Char) : Bool := c == ' ' || c == '\t'

namespace Scan

/-- The argument that the next character goes on with. -/
def argument (scan : Scan) : List Char × Nat := scan.current.getD ([],0)

def backslash (scan : Scan) : Scan := { scan with current := some (scan.argument.1,scan.argument.2 + 1) }

/-- Half of the backslashes are left; an odd one takes the quote as text. -/
def quote (scan : Scan) : Scan :=
  let text := scan.argument.1 ++ backslashes (scan.argument.2 / 2)
  if scan.argument.2 % 2 = 1 then { scan with current := some (text ++ ['"'],0) }
  else { scan with current := some (text,0), quoted := !scan.quoted }

def separate (scan : Scan) : Scan :=
  match scan.current with
  | none => scan
  | some argument => { scan with complete := scan.complete ++ [plain argument], current := none }

def other (scan : Scan) (c : Char) : Scan := { scan with current := some (plain scan.argument ++ [c],0) }

def step (scan : Scan) (c : Char) : Scan :=
  if c = '\\' then scan.backslash
  else if c = '"' then scan.quote
  else if isSeparator c && !scan.quoted then scan.separate
  else scan.other c

def read (scan : Scan) (text : List Char) : Scan := text.foldl step scan

/-- The arguments at the end of the command line. -/
def finish (scan : Scan) : List (List Char) := scan.separate.complete

@[simp] theorem read_nil (scan : Scan) : scan.read [] = scan := rfl
@[simp] theorem read_cons (scan : Scan) (c : Char) (text : List Char) :
    scan.read (c :: text) = (scan.step c).read text := rfl
@[simp] theorem read_append (scan : Scan) (text rest : List Char) :
    scan.read (text ++ rest) = (scan.read text).read rest := List.foldl_append

end Scan

def split (text : List Char) : List (List Char) := (({} : Scan).read text).finish

/-! ## Nothing is made of nothing -/

/-- Every argument counts one more than its characters. -/
def size (arguments : List (List Char)) : Nat := (arguments.map fun argument => argument.length + 1).sum

@[simp] theorem size_nil : size [] = 0 := rfl
@[simp] theorem size_cons (argument : List Char) (rest : List (List Char)) :
    size (argument :: rest) = argument.length + 1 + size rest := by simp [size]
@[simp] theorem size_append (arguments rest : List (List Char)) :
    size (arguments ++ rest) = size arguments + size rest := by simp [size]

/-- The characters that count: quotes do not. -/
def weight (text : List Char) : Nat := text.countP fun c => c != '"'

namespace Scan

def measure (scan : Scan) : Nat := size scan.complete + scan.argument.1.length + scan.argument.2

theorem measure_backslash (scan : Scan) : scan.backslash.measure = scan.measure + 1 := by
  simp [measure,backslash,argument]
  omega

theorem measure_quote (scan : Scan) : scan.quote.measure + scan.argument.2 / 2 = scan.measure := by
  unfold quote
  split <;> simp [measure,argument,backslashes] at * <;> omega

theorem measure_other (scan : Scan) (c : Char) : (scan.other c).measure = scan.measure + 1 := by
  simp [measure,other,argument,plain,backslashes]
  omega

theorem measure_separate (scan : Scan) : scan.separate.measure ≤ scan.measure + 1 := by
  unfold separate
  cases current : scan.current with
  | none => simp
  | some argument => simp [measure,Scan.argument,current,plain,backslashes]; omega

theorem measure_step (scan : Scan) (c : Char) : (scan.step c).measure ≤ scan.measure + weight [c] := by
  unfold step
  by_cases slash : c = '\\'
  · subst slash
    simp [measure_backslash,weight]
  · by_cases quote : c = '"'
    · subst quote
      have halved := measure_quote scan
      simp [weight]
      omega
    · have counts : weight [c] = 1 := by simp [weight,quote]
      rw [if_neg slash,if_neg quote,counts]
      split
      · exact measure_separate scan
      · exact (measure_other scan c).le

theorem measure_read (scan : Scan) (text : List Char) : (scan.read text).measure ≤ scan.measure + weight text := by
  induction text generalizing scan with
  | nil => simp [weight]
  | cons c rest ih =>
    have first := measure_step scan c
    have later := ih (scan.step c)
    have counts : weight (c :: rest) = weight [c] + weight rest := by
      simp [weight,List.countP_cons,Nat.add_comm]
    rw [read_cons]
    omega

theorem size_finish (scan : Scan) : size scan.finish ≤ scan.measure + 1 :=
  le_trans (by simp [finish,measure,Nat.add_assoc]) (measure_separate scan)

/-- Of two backslashes before a quote one is lost. -/
theorem measure_lost (scan : Scan) : (scan.read ['\\','\\','"']).measure ≤ scan.measure + 1 := by
  have halved := measure_quote scan.backslash.backslash
  have two : 2 ≤ scan.backslash.backslash.argument.2 := by simp [backslash,argument]
  have both : scan.backslash.backslash.measure = scan.measure + 2 := by
    rw [measure_backslash,measure_backslash]
  have steps : scan.read ['\\','\\','"'] = scan.backslash.backslash.quote := rfl
  rw [steps]
  omega

/-- A text that holds two backslashes before a quote becomes less than it could. -/
theorem size_lost {scan : Scan} {text : List Char} (lost : ['\\','\\','"'] <:+: text) :
    size (scan.read text).finish ≤ scan.measure + weight text := by
  obtain ⟨before,after,rfl⟩ := lost
  have first := measure_read scan before
  have second := measure_lost (scan.read before)
  have third := measure_read ((scan.read before).read ['\\','\\','"']) after
  have last := size_finish (scan.read (before ++ ['\\','\\','"'] ++ after))
  have counts : weight (before ++ ['\\','\\','"'] ++ after) = weight before + 2 + weight after := by
    simp [weight]
    omega
  rw [read_append,read_append] at last
  rw [read_append,read_append,counts]
  omega

/-! ## What is read stays -/

theorem step_keeps {scan : Scan} {argument : List Char × Nat} (reading : scan.current = some argument) (c : Char) :
    (∃ more n, (scan.step c).complete = scan.complete ∧ (scan.step c).current = some (argument.1 ++ more,n)) ∨
      ∃ more, (scan.step c).complete = scan.complete ++ [argument.1 ++ more] := by
  unfold step
  split
  · exact .inl ⟨[],argument.2 + 1,rfl,by simp [backslash,Scan.argument,reading]⟩
  · split
    · unfold quote
      refine .inl ?_
      split
      · exact ⟨backslashes (argument.2 / 2) ++ ['"'],0,rfl,by simp [Scan.argument,reading]⟩
      · exact ⟨backslashes (argument.2 / 2),0,rfl,by simp [Scan.argument,reading]⟩
    · split
      · exact .inr ⟨backslashes argument.2,by simp [separate,reading,plain]⟩
      · exact .inl ⟨backslashes argument.2 ++ [c],0,rfl,by simp [other,Scan.argument,reading,plain]⟩

theorem complete_step (scan : Scan) (c : Char) : scan.complete <+: (scan.step c).complete := by
  cases reading : scan.current with
  | some argument =>
    rcases step_keeps reading c with ⟨more,n,same,-⟩ | ⟨more,longer⟩
    · rw [same]
    · exact ⟨_,longer.symm⟩
  | none =>
    unfold step
    split
    · exact List.prefix_refl _
    · split
      · unfold quote
        split <;> exact List.prefix_refl _
      · split
        · simp [separate,reading]
        · exact List.prefix_refl _

theorem complete_finish (scan : Scan) (text : List Char) : scan.complete <+: (scan.read text).finish := by
  induction text generalizing scan with
  | nil =>
    unfold read finish separate
    cases reading : scan.current with
    | none => simp [reading]
    | some argument => simp [reading]
  | cons c rest ih => exact (complete_step scan c).trans (ih (scan.step c))

/-- The argument that is being read goes on with what was read of it. -/
theorem current_finish {scan : Scan} {argument : List Char × Nat} (reading : scan.current = some argument)
    (text : List Char) :
    ∃ more others, (scan.read text).finish = scan.complete ++ (argument.1 ++ more) :: others := by
  induction text generalizing scan argument with
  | nil => exact ⟨backslashes argument.2,[],by simp [finish,separate,reading,plain]⟩
  | cons c rest ih =>
    rw [read_cons]
    rcases step_keeps reading c with ⟨more,n,same,further⟩ | ⟨more,longer⟩
    · obtain ⟨rest',others,ends⟩ := ih further
      exact ⟨more ++ rest',others,by rw [ends,same,List.append_assoc]⟩
    · obtain ⟨others,ends⟩ := complete_finish (scan.step c) rest
      exact ⟨more,others,by rw [← ends,longer,List.append_assoc,List.singleton_append]⟩

/-! ## Text without quotes -/

/-- Outside of quotes, what holds neither quotes nor separators is text. -/
theorem read_plain {scan : Scan} {argument : List Char × Nat} (reading : scan.current = some argument)
    (unquoted : scan.quoted = false) {text : List Char} (quotes : '"' ∉ text)
    (separators : ∀ c ∈ text, isSeparator c = false) :
    ∃ argument', scan.read text = { scan with current := some argument' } ∧
      plain argument' = plain argument ++ text := by
  induction text generalizing scan argument with
  | nil => exact ⟨argument,by simp [← reading],by simp⟩
  | cons c rest ih =>
    have noQuote : c ≠ '"' := fun same => quotes (same ▸ List.mem_cons_self)
    have noSeparator : isSeparator c = false := separators c List.mem_cons_self
    obtain ⟨next,stepped,text⟩ : ∃ next, scan.step c = { scan with current := some next } ∧
        plain next = plain argument ++ [c] := by
      by_cases slash : c = '\\'
      · refine ⟨(argument.1,argument.2 + 1),by simp [step,slash,backslash,Scan.argument,reading],?_⟩
        simp [plain,backslashes,slash,List.replicate_succ']
      · refine ⟨(plain argument ++ [c],0),?_,by simp [plain,backslashes]⟩
        simp [step,slash,noQuote,noSeparator,other,Scan.argument,reading]
    obtain ⟨last,run,whole⟩ := @ih { scan with current := some next } next rfl unquoted
      (fun member => quotes (List.mem_cons_of_mem c member)) fun d member => separators d (List.mem_cons_of_mem c member)
    exact ⟨last,by rw [read_cons,stepped,run],by rw [whole,text]; simp⟩

/-! ## Quoted text -/

end Scan

/-- A backslash before every quote. -/
def escapeQuotes (text : List Char) : List Char := text.flatMap fun c => if c = '"' then ['\\','"'] else [c]

def quoteArgument (text : List Char) : List Char := '"' :: escapeQuotes text ++ ['"']

@[simp] theorem escapeQuotes_append (text rest : List Char) :
    escapeQuotes (text ++ rest) = escapeQuotes text ++ escapeQuotes rest := by simp [escapeQuotes]

theorem escapeQuotes_plain {text : List Char} (quotes : '"' ∉ text) : escapeQuotes text = text := by
  have single : ∀ c ∈ text, (if c = '"' then ['\\','"'] else [c]) = [c] := fun c member =>
    if_neg fun same : c = '"' => quotes (same ▸ member)
  rw [escapeQuotes,List.flatMap_congr single]
  simp

theorem weight_escapeQuotes (text : List Char) : weight (escapeQuotes text) = text.length := by
  induction text with
  | nil => rfl
  | cons c rest ih =>
    have first : escapeQuotes (c :: rest) = escapeQuotes [c] ++ escapeQuotes rest := escapeQuotes_append [c] rest
    have one : weight (escapeQuotes [c]) = 1 := by
      by_cases quote : c = '"' <;> simp [escapeQuotes,weight,quote]
    rw [first,weight,List.countP_append,← weight,← weight,one,ih,List.length_cons,Nat.add_comm]

theorem weight_quoteArgument (text : List Char) : weight (quoteArgument text) = text.length := by
  have inner := weight_escapeQuotes text
  simp only [weight] at inner
  simp [quoteArgument,weight,inner]

namespace Scan

/-- Within quotes, escaped text is text unless it has a backslash before a quote. -/
theorem read_escaped {scan : Scan} {argument : List Char × Nat} (reading : scan.current = some argument)
    (quoted : scan.quoted = true) {text : List Char} (apart : ¬ ['\\','"'] <:+: text)
    (starts : argument.2 ≠ 0 → text.head? ≠ some '"') :
    ∃ argument', scan.read (escapeQuotes text) = { scan with current := some argument' } ∧
      plain argument' = plain argument ++ text := by
  induction text generalizing scan argument with
  | nil => exact ⟨argument,by simp [escapeQuotes,← reading],by simp⟩
  | cons c rest ih =>
    have later : ¬ ['\\','"'] <:+: rest := fun inside => apart (inside.trans (List.suffix_cons c rest).isInfix)
    obtain ⟨next,stepped,text,follows⟩ : ∃ next, scan.read (escapeQuotes [c]) = { scan with current := some next } ∧
        plain next = plain argument ++ [c] ∧ (next.2 ≠ 0 → rest.head? ≠ some '"') := by
      by_cases quote : c = '"'
      · subst quote
        have none : argument.2 = 0 := by
          by_contra some
          exact starts some rfl
        refine ⟨(argument.1 ++ ['"'],0),?_,by simp [plain,backslashes,none],by simp⟩
        simp [escapeQuotes,step,backslash,Scan.quote,Scan.argument,reading,none,backslashes]
      · by_cases slash : c = '\\'
        · refine ⟨(argument.1,argument.2 + 1),?_,?_,fun _ begins => ?_⟩
          · simp [escapeQuotes,step,slash,backslash,Scan.argument,reading]
          · simp [plain,backslashes,slash,List.replicate_succ']
          · obtain ⟨more,rfl⟩ := List.head?_eq_some_iff.mp begins
            exact apart ⟨[],more,by simp [slash]⟩
        · refine ⟨(plain argument ++ [c],0),?_,by simp [plain,backslashes],by simp⟩
          simp [escapeQuotes,step,slash,quote,quoted,other,Scan.argument,reading]
    obtain ⟨last,run,whole⟩ := @ih { scan with current := some next } next rfl quoted later follows
    refine ⟨last,?_,by rw [whole,text]; simp⟩
    rw [show c :: rest = [c] ++ rest from rfl,escapeQuotes_append,read_append,stepped,run]

/-- Between two arguments. -/
def between (complete : List (List Char)) : Scan := { complete := complete }

theorem read_between {complete : List (List Char)} {argument : List Char × Nat} :
    ({ between complete with current := some argument } : Scan).read [' '] = between (complete ++ [plain argument]) := rfl

theorem finish_between (complete : List (List Char)) : (between complete).finish = complete := rfl

/-- A separator between two arguments is nothing, and its weight is lost. -/
theorem size_separator {complete : List (List Char)} {c : Char} (separator : isSeparator c = true) (text : List Char) :
    size ((between complete).read (c :: text)).finish ≤ size complete + weight text + 1 := by
  have skipped : (between complete).step c = between complete := by
    have either : c = ' ' ∨ c = '\t' := by simpa [isSeparator] using separator
    rcases either with rfl | rfl <;> rfl
  have read := measure_read (between complete) text
  have last := size_finish ((between complete).read text)
  have start : (between complete).measure = size complete := rfl
  rw [read_cons,skipped]
  omega

theorem read_opened {complete : List (List Char)} {text : List Char} (apart : ¬ ['\\','"'] <:+: text)
    (ends : ¬ ['\\'] <:+ text) :
    (between complete).read ('"' :: escapeQuotes text) =
      { between complete with current := some (text,0), quoted := true } := by
  have opened : (between complete).step '"' = { between complete with current := some ([],0), quoted := true } := by
    simp [step,quote,argument,backslashes,between]
  obtain ⟨⟨read,n⟩,inner,whole⟩ := @read_escaped { between complete with current := some ([],0), quoted := true } ([],0)
    rfl rfl text apart (by simp)
  have whole : read ++ backslashes n = text := by simpa [plain,backslashes] using whole
  obtain rfl : n = 0 := by
    by_contra some
    obtain ⟨m,rfl⟩ := Nat.exists_eq_succ_of_ne_zero some
    refine ends ⟨read ++ backslashes m,?_⟩
    rw [← whole,backslashes,backslashes,List.replicate_succ',List.append_assoc]
  obtain rfl : read = text := by simpa [backslashes] using whole
  rw [read_cons,opened,inner]

/-- A quoted argument without a backslash before a quote or at its end. -/
theorem read_quoted {complete : List (List Char)} {text : List Char} (apart : ¬ ['\\','"'] <:+: text)
    (ends : ¬ ['\\'] <:+ text) :
    (between complete).read (quoteArgument text) = { between complete with current := some (text,0) } := by
  rw [quoteArgument,read_append,read_opened apart ends]
  simp [step,quote,argument,backslashes,between]

/-- After a single backslash at its end the quote that should close it is text. -/
theorem read_swallowed {complete : List (List Char)} {text : List Char} (apart : ¬ ['\\','"'] <:+: text)
    (ends : ¬ ['\\'] <:+ text) :
    (between complete).read (quoteArgument (text ++ ['\\'])) =
      { between complete with current := some (text ++ ['"'],0), quoted := true } := by
  have last : quoteArgument (text ++ ['\\']) = ('"' :: escapeQuotes text) ++ ['\\','"'] := by
    simp [quoteArgument,escapeQuotes]
  rw [last,read_append,read_opened apart ends]
  simp [step,backslash,quote,argument,backslashes,between]

end Scan

/-- A backslash before a quote is a second one before the escaped quote. -/
theorem escapeQuotes_lost {text : List Char} (inside : ['\\','"'] <:+: text) :
    ['\\','\\','"'] <:+: escapeQuotes text := by
  obtain ⟨before,after,rfl⟩ := inside
  exact ⟨escapeQuotes before,escapeQuotes after,by simp [escapeQuotes]⟩

theorem quoteArgument_lost {text : List Char} (lost : ['\\','"'] <:+: text ∨ ['\\','\\'] <:+ text) :
    ['\\','\\','"'] <:+: quoteArgument text := by
  rcases lost with inside | ⟨before,rfl⟩
  · obtain ⟨before,after,escaped⟩ := escapeQuotes_lost inside
    exact ⟨'"' :: before,after ++ ['"'],by simp [quoteArgument,← escaped]⟩
  · exact ⟨'"' :: escapeQuotes before,[],by simp [quoteArgument,escapeQuotes]⟩

end OpenRune.CommandLines
