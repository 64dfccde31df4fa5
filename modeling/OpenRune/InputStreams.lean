import Mathlib

/-!
# Input streams

The state of a C++ input stream, and what is read from it: words between white space,
and the parts of a text with a delimiter. Loops over streams take fuel.
-/
namespace OpenRune.InputStreams

/-! ## Fuel -/

section
variable {β γ : Type} {f g : Nat → Option β} {a b : β}

/-- More fuel changes nothing once there is a result. -/
def Stable (f : Nat → Option β) : Prop := ∀ n a, f n = some a → f (n + 1) = some a

def Terminates (f : Nat → Option β) (a : β) : Prop := ∃ fuel, f fuel = some a

theorem stable_le (stable : Stable f) {n m : Nat} (more : n ≤ m) (done : f n = some a) : f m = some a := by
  induction more with
  | refl => exact done
  | step _ ih => exact stable _ _ ih

theorem terminates_unique (stable : Stable f) (first : Terminates f a) (second : Terminates f b) : a = b := by
  obtain ⟨n,first⟩ := first
  obtain ⟨m,second⟩ := second
  have early := stable_le stable (Nat.le_max_left n m) first
  exact Option.some.inj (early.symm.trans (stable_le stable (Nat.le_max_right n m) second))

theorem terminates_iff (stable : Stable f) (done : Terminates f a) : Terminates f b ↔ a = b :=
  ⟨terminates_unique stable done,fun same => same ▸ done⟩

theorem terminates_never (endless : ∀ fuel, f fuel = none) : ¬ Terminates f a := by
  rintro ⟨fuel,done⟩
  rw [endless fuel] at done
  cases done

/-- A loop that passes on its work with one unit less. -/
theorem terminates_succ (passes : ∀ fuel, f (fuel + 1) = g fuel) (done : Terminates g a) : Terminates f a :=
  ⟨done.choose + 1,(passes _).trans done.choose_spec⟩

theorem stable_bind {h : Nat → β → Option γ} (first : Stable f) (second : ∀ a, Stable fun fuel => h fuel a) :
    Stable fun fuel => (f fuel).bind (h fuel) := by
  intro n c done
  obtain ⟨a,early,late⟩ := Option.bind_eq_some_iff.mp done
  exact Option.bind_eq_some_iff.mpr ⟨a,first n a early,second a n c late⟩

theorem stable_map (stable : Stable f) (h : β → γ) : Stable fun fuel => (f fuel).map h := by
  intro n c done
  obtain ⟨a,early,same⟩ := Option.map_eq_some_iff.mp done
  exact Option.map_eq_some_iff.mpr ⟨a,stable n a early,same⟩

theorem terminates_bind {h : Nat → β → Option γ} {c : γ} (first : Stable f) (second : ∀ a, Stable fun fuel => h fuel a)
    (early : Terminates f a) : Terminates (fun fuel => (f fuel).bind (h fuel)) c ↔ Terminates (fun fuel => h fuel a) c := by
  constructor
  · rintro ⟨fuel,done⟩
    obtain ⟨a',early',late⟩ := Option.bind_eq_some_iff.mp done
    obtain rfl := terminates_unique first early ⟨fuel,early'⟩
    exact ⟨fuel,late⟩
  · rintro ⟨m,late⟩
    obtain ⟨n,early⟩ := early
    exact ⟨max n m,Option.bind_eq_some_iff.mpr ⟨a,stable_le first (Nat.le_max_left n m) early,
      stable_le (second a) (Nat.le_max_right n m) late⟩⟩

/-- What a computation comes to: a result, or none with any fuel. -/
def ComesTo (f : Nat → Option β) : Option β → Prop
  | some a => Terminates f a
  | none => ∀ fuel, f fuel = none

theorem comesTo_bind {h : Nat → β → Option γ} {x : Option β} {y : β → Option γ} (first : Stable f)
    (second : ∀ a, Stable fun fuel => h fuel a) (early : ComesTo f x) (late : ∀ a, x = some a → ComesTo (fun fuel => h fuel a) (y a)) :
    ComesTo (fun fuel => (f fuel).bind (h fuel)) (x.bind y) := by
  cases x with
  | none =>
    intro fuel
    simp only [early fuel,Option.bind_none]
  | some a =>
    have late := late a rfl
    rw [Option.bind_some]
    cases came : y a with
    | some c =>
      rw [came] at late
      exact (terminates_bind first second early).mpr late
    | none =>
      rw [came] at late
      intro fuel
      refine Option.bind_eq_none_iff.mpr fun a' done => ?_
      obtain rfl := terminates_unique first early ⟨fuel,done⟩
      exact late fuel

theorem comesTo_map {x : Option β} (early : ComesTo f x) (h : β → γ) : ComesTo (fun fuel => (f fuel).map h) (x.map h) := by
  cases x with
  | none =>
    intro fuel
    simp only [early fuel,Option.map_none]
  | some a =>
    obtain ⟨fuel,done⟩ := early
    exact ⟨fuel,by simp only [done,Option.map_some]⟩

/-- Two computations that are related with enough fuel come to what is related. -/
theorem comesTo_rel {R : β → γ → Prop} {h : Nat → Option γ} {y : Option γ} {enough : Nat} (first : Stable f) (second : Stable h)
    (related : ∀ fuel, enough ≤ fuel → Option.Rel R (f fuel) (h fuel)) (comes : ComesTo h y) :
    ∃ x, Option.Rel R x y ∧ ComesTo f x := by
  cases y with
  | none =>
    refine ⟨none,.none,fun fuel => Option.eq_none_iff_forall_ne_some.mpr fun a done => ?_⟩
    have both := related (fuel + enough) (Nat.le_add_left _ _)
    rw [stable_le first (Nat.le_add_right fuel enough) done,comes] at both
    cases both
  | some c =>
    obtain ⟨fuel,done⟩ := comes
    have both := related (fuel + enough) (Nat.le_add_left _ _)
    rw [stable_le second (Nat.le_add_right fuel enough) done] at both
    cases early : f (fuel + enough) with
    | none =>
      rw [early] at both
      cases both
    | some a =>
      rw [early] at both
      exact ⟨some a,both,fuel + enough,early⟩

end

/-! ## Streams -/

section
variable {α : Type}

/-- What is still to be read, and the bits of `rdstate`. The buffer of a stream may
    throw instead of giving what it has. -/
structure InputStream (α : Type) where
  rest : List α
  throws : Bool
  eofbit : Bool
  failbit : Bool
  badbit : Bool
  deriving DecidableEq, Repr

/-- A stream that was opened on a text. -/
def InputStream.opened (text : List α) : InputStream α := ⟨text,false,false,false,false⟩

/-- A stream that could not be opened. -/
def InputStream.unopened : InputStream α := ⟨[],false,false,true,false⟩

/-- A stream that was opened, but cannot be read. -/
def InputStream.unreadable : InputStream α := ⟨[],true,false,false,false⟩

def InputStream.good (stream : InputStream α) : Bool := !stream.eofbit && !stream.failbit && !stream.badbit

def InputStream.fail (stream : InputStream α) : Bool := stream.failbit || stream.badbit

/-- The sentry that skips white space. -/
def skipws (isspace : α → Bool) (stream : InputStream α) : InputStream α :=
  if !stream.good then { stream with failbit := true }
  else if stream.throws then { stream with failbit := true, badbit := true }
  else match stream.rest.dropWhile isspace with
    | [] => { stream with rest := [], eofbit := true, failbit := true }
    | c :: rest => { stream with rest := c :: rest }

/-- `operator>>`: a string that is not read stays as it was. -/
def extract (isspace : α → Bool) (str : List α) (stream : InputStream α) : List α × InputStream α :=
  let stream := skipws isspace stream
  if !stream.good then (str,stream)
  else
    let rest := stream.rest.dropWhile fun c => !isspace c
    (stream.rest.takeWhile fun c => !isspace c,{ stream with rest := rest, eofbit := rest.isEmpty })

/-- `getline` with a delimiter. -/
def getline [DecidableEq α] (delim : α) (str : List α) (stream : InputStream α) : List α × InputStream α :=
  if !stream.good then (str,{ stream with failbit := true })
  else if stream.throws then ([],{ stream with badbit := true })
  else
    let line := stream.rest.takeWhile fun c => decide (c ≠ delim)
    match stream.rest.dropWhile fun c => decide (c ≠ delim) with
    | [] => (line,{ stream with rest := [], eofbit := true, failbit := line.isEmpty })
    | _ :: rest => (line,{ stream with rest := rest })

/-- `while (getline(iss, path, delim))`, with what it reads. -/
def getlines [DecidableEq α] (delim : α) : Nat → List α → InputStream α → Option (List (List α))
  | 0, _, _ => none
  | fuel + 1, str, stream =>
    match getline delim str stream with
    | (line,stream) => if stream.fail then some [] else (getlines delim fuel line stream).map (line :: ·)

/-! ## Words and parts -/

/-- The words between white space. -/
def words (isspace : α → Bool) (text : List α) : List (List α) :=
  (text.splitOnP isspace).filter fun word => !word.isEmpty

/-- The parts behind each of which there is a delimiter or the end. -/
def parts [DecidableEq α] (delim : α) (text : List α) : List (List α) :=
  if (text.splitOn delim).getLast? = some [] then (text.splitOn delim).dropLast else text.splitOn delim

section
variable {isspace : α → Bool} {text : List α}

theorem words_filled {word : List α} (listed : word ∈ words isspace text) : word ≠ [] := by
  simpa using (List.mem_filter.mp listed).2

theorem words_space {c : α} (space : isspace c = true) (rest : List α) : words isspace (c :: rest) = words isspace rest := by
  simp [words,List.splitOnP_cons_eq_if_modifyHead,space]

theorem words_dropWhile (text : List α) : words isspace (text.dropWhile isspace) = words isspace text := by
  induction text with
  | nil => rfl
  | cons c rest ih =>
    cases space : isspace c with
    | true => rw [List.dropWhile_cons_of_pos space,ih,words_space space]
    | false => rw [List.dropWhile_cons_of_neg (by simp [space])]

theorem words_word {c : α} (inside : isspace c = false) (rest : List α) : words isspace (c :: rest) =
    ((c :: rest).takeWhile fun c => !isspace c) :: words isspace ((c :: rest).dropWhile fun c => !isspace c) := by
  have kept : ∀ d ∈ (c :: rest).takeWhile fun c => !isspace c, isspace d = false := fun d member => by
    simpa using List.mem_takeWhile_imp member
  have filled : (!((c :: rest).takeWhile fun c => !isspace c).isEmpty) = true := by simp [inside]
  have whole := List.takeWhile_append_dropWhile (p := fun c => !isspace c) (l := c :: rest)
  cases after : (c :: rest).dropWhile fun c => !isspace c with
  | nil =>
    rw [after,List.append_nil] at whole
    rw [whole] at kept filled ⊢
    rw [words,List.splitOnP_eq_singleton kept,List.filter_cons,if_pos filled]
    rfl
  | cons d later =>
    have space : isspace d = true := by
      have stops := List.head?_dropWhile_not (fun c => !isspace c) (c :: rest)
      simpa [after] using stops
    rw [words_space space]
    conv_lhs => rw [← whole,after]
    rw [words,List.splitOnP_append_cons_of_forall_mem kept d space,List.filter_cons,if_pos filled]
    rfl

end

section
variable [DecidableEq α] {delim : α}

theorem splitOn_whole {text : List α} (whole : delim ∉ text) : text.splitOn delim = [text] :=
  List.splitOnP_eq_singleton fun c member => by simpa using fun same : c = delim => whole (same ▸ member)

theorem splitOn_delim {line : List α} (whole : delim ∉ line) (rest : List α) :
    (line ++ delim :: rest).splitOn delim = line :: rest.splitOn delim :=
  List.splitOnP_append_cons_of_forall_mem (fun c member => by simpa using fun same : c = delim => whole (same ▸ member))
    delim (by simp) rest

theorem splitOn_filled (text : List α) : ∃ first later, text.splitOn delim = first :: later :=
  List.exists_cons_of_ne_nil (List.splitOnP_ne_nil (fun c => c == delim) text)

theorem parts_whole {text : List α} (whole : delim ∉ text) : parts delim text = if text = [] then [] else [text] := by
  rw [parts,splitOn_whole whole]
  simp

theorem parts_delim {line : List α} (whole : delim ∉ line) (rest : List α) :
    parts delim (line ++ delim :: rest) = line :: parts delim rest := by
  obtain ⟨first,later,listed⟩ := @splitOn_filled _ _ delim rest
  rw [parts,parts,splitOn_delim whole,listed,List.getLast?_cons_cons]
  split <;> rfl

/-- The last part is empty behind a delimiter. -/
theorem splitOn_ends (text : List α) : (text.splitOn delim).getLast? = some [] ↔ text = [] ∨ text.getLast? = some delim := by
  induction counted : text.length using Nat.strongRecOn generalizing text with
  | _ n ih =>
    by_cases whole : delim ∈ text
    · obtain ⟨line,rest,rfl,first⟩ := List.eq_append_cons_of_mem whole
      obtain ⟨part,later,listed⟩ := @splitOn_filled _ _ delim rest
      have shorter : rest.length < n := by
        simp only [List.length_append,List.length_cons] at counted
        omega
      have last := ih rest.length shorter rest rfl
      rw [listed] at last
      rw [splitOn_delim first,listed,List.getLast?_cons_cons,last]
      cases rest <;> simp [List.getLast?_append]
    · rw [splitOn_whole whole]
      have other : text.getLast? ≠ some delim := fun last => whole (List.mem_of_getLast? last)
      simp [other]

/-- Both ways to divide a text agree unless it ends with a delimiter. -/
theorem parts_splitOn (text : List α) : parts delim text = text.splitOn delim ↔ text ≠ [] ∧ text.getLast? ≠ some delim := by
  rw [← not_or,← splitOn_ends,parts]
  obtain ⟨first,later,listed⟩ := @splitOn_filled _ _ delim text
  split
  · rename_i empty
    refine iff_of_false (fun same => ?_) (not_not.mpr empty)
    have counted := congrArg List.length same
    simp [listed] at counted
  · rename_i filled
    exact iff_of_true rfl filled

/-- A text that is not empty has parts. -/
theorem parts_filled {text : List α} (filled : text ≠ []) : parts delim text ≠ [] := by
  by_cases whole : delim ∈ text
  · obtain ⟨line,rest,rfl,first⟩ := List.eq_append_cons_of_mem whole
    rw [parts_delim first]
    exact List.cons_ne_nil line _
  · rw [parts_whole whole,if_neg filled]
    exact List.cons_ne_nil text []

/-- A single part is at most a delimiter shorter than the text. -/
theorem parts_single {text part : List α} (single : parts delim text = [part]) : text.length ≤ part.length + 1 := by
  by_cases whole : delim ∈ text
  · obtain ⟨line,rest,rfl,first⟩ := List.eq_append_cons_of_mem whole
    rw [parts_delim first] at single
    obtain ⟨rfl,nothing⟩ := List.cons.inj single
    have empty : rest = [] := by
      by_contra filled
      exact parts_filled filled nothing
    simp [empty]
  · rw [parts_whole whole] at single
    split at single
    · cases single
    · cases single
      exact Nat.le_succ _

end

/-! ## Reading -/

section
variable {isspace : α → Bool} {text str : List α}

theorem skipws_text {c : α} {rest : List α} (more : text.dropWhile isspace = c :: rest) :
    skipws isspace (.opened text) = .opened (c :: rest) := by
  simp only [skipws,InputStream.good,InputStream.opened,more]
  rfl

theorem skipws_end (nothing : text.dropWhile isspace = []) :
    skipws isspace (.opened text) = ⟨[],false,true,true,false⟩ := by
  simp only [skipws,InputStream.good,InputStream.opened,nothing]
  rfl

/-- Where there is no word, the string stays. -/
theorem extract_none (nothing : words isspace text = []) :
    extract isspace str (.opened text) = (str,⟨[],false,true,true,false⟩) := by
  cases more : text.dropWhile isspace with
  | nil =>
    rw [extract,skipws_end more]
    rfl
  | cons c rest =>
    have inside : isspace c = false := by
      have stops := List.head?_dropWhile_not isspace text
      simpa [more] using stops
    rw [← words_dropWhile,more,words_word inside] at nothing
    cases nothing

/-- A word is read; the end is noticed when nothing stands behind it. -/
theorem extract_word {word : List α} {later : List (List α)} (listed : words isspace text = word :: later) :
    ∃ rest, rest.length < text.length ∧ words isspace rest = later ∧
      extract isspace str (.opened text) = (word,{ InputStream.opened rest with eofbit := rest.isEmpty }) := by
  cases more : text.dropWhile isspace with
  | nil =>
    rw [← words_dropWhile,more] at listed
    cases listed
  | cons c rest =>
    have inside : isspace c = false := by
      have stops := List.head?_dropWhile_not isspace text
      simpa [more] using stops
    rw [← words_dropWhile,more,words_word inside] at listed
    obtain ⟨same,after⟩ := List.cons.inj listed
    refine ⟨(c :: rest).dropWhile fun c => !isspace c,?_,after,?_⟩
    · have shorter : (c :: rest).length ≤ text.length := by
        rw [← more]
        exact (List.dropWhile_suffix isspace).length_le
      rw [List.dropWhile_cons_of_pos (by simp [inside])]
      exact Nat.lt_of_lt_of_le (Nat.lt_succ_of_le (List.dropWhile_suffix _).length_le) shorter
    · rw [extract,skipws_text more]
      simp only [InputStream.good,InputStream.opened,Bool.not_false,Bool.and_self,Bool.not_true,Bool.false_eq_true,if_false,
        same]

theorem extract_bad {stream : InputStream α} (bad : stream.good = false) :
    extract isspace str stream = (str,{ stream with failbit := true }) := by
  have skipped : skipws isspace stream = { stream with failbit := true } := by simp [skipws,bad]
  rw [extract,skipped]
  simp [InputStream.good]

end

section
variable [DecidableEq α] {delim : α}

theorem getline_delim {line : List α} (whole : delim ∉ line) (str rest : List α) :
    getline delim str (.opened (line ++ delim :: rest)) = (line,.opened rest) := by
  have kept : ∀ c ∈ line, decide (c ≠ delim) = true := fun c member => by
    simpa using fun same : c = delim => whole (same ▸ member)
  simp only [getline,InputStream.good,InputStream.opened,List.takeWhile_append_of_pos kept,List.dropWhile_append_of_pos kept]
  simp

theorem getline_end {text : List α} (whole : delim ∉ text) (str : List α) :
    getline delim str (.opened text) = (text,⟨[],false,true,text.isEmpty,false⟩) := by
  have kept : ∀ c ∈ text, decide (c ≠ delim) = true := fun c member => by
    simpa using fun same : c = delim => whole (same ▸ member)
  simp only [getline,InputStream.good,InputStream.opened,List.takeWhile_eq_self_iff.mpr kept,
    List.dropWhile_eq_nil_iff.mpr kept]
  rfl

theorem getlines_stable (delim : α) (str : List α) (stream : InputStream α) :
    Stable fun fuel => getlines delim fuel str stream := by
  intro fuel
  induction fuel generalizing str stream with
  | zero =>
    intro lines done
    cases done
  | succ fuel ih =>
    intro lines done
    cases read : getline delim str stream with
    | mk line after =>
      simp only [getlines,read] at done ⊢
      cases failed : after.fail with
      | true => simpa [failed] using done
      | false =>
        simp only [failed,Bool.false_eq_true,if_false,Option.map_eq_some_iff] at done ⊢
        obtain ⟨more,done,rfl⟩ := done
        exact ⟨more,ih line after more done,rfl⟩

/-- The loop reads the parts. -/
theorem getlines_parts (text str : List α) :
    Terminates (fun fuel => getlines delim fuel str (.opened text)) (parts delim text) := by
  induction counted : text.length using Nat.strongRecOn generalizing text str with
  | _ n ih =>
    by_cases whole : delim ∈ text
    · obtain ⟨line,rest,rfl,first⟩ := List.eq_append_cons_of_mem whole
      obtain ⟨fuel,done⟩ := ih rest.length (by simp only [List.length_append,List.length_cons] at counted; omega) rest line rfl
      refine ⟨fuel + 1,?_⟩
      simp only [getlines,getline_delim first,parts_delim first]
      have done : getlines delim fuel line (.opened rest) = some (parts delim rest) := done
      rw [done]
      rfl
    · rw [parts_whole whole]
      cases text with
      | nil => exact ⟨1,rfl⟩
      | cons c text =>
        refine ⟨2,?_⟩
        simp only [getlines,getline_end whole]
        simp [InputStream.fail,getline,InputStream.good]

end

end
end OpenRune.InputStreams
