import OpenRune.Outcomes
import OpenRune.Sajson

/-!
# The pointer into the text

What each part of the parser does to it: it goes forward, what it has passed stays, and
nothing is read or written outside of the text.
-/
namespace OpenRune.Sajson
open OpenRune.CppStrings OpenRune.Outcomes

/-- Anything but undefined behaviour. -/
def Defined (fault : Fault) : Prop := fault ≠ .undefined

/-- The pointer has gone forward by `n` bytes or more; what it had passed is as it was. -/
structure Advanced (n : Nat) (text text' : Text) : Prop where
  kept : text.before <+: text'.before
  left : n + text'.rest.length ≤ text.rest.length
  total : text'.before.length + text'.rest.length = text.before.length + text.rest.length

section
variable {α : Type} {text text' text'' : Text} {n k : Nat}

theorem Advanced.refl (text : Text) : Advanced 0 text text := ⟨List.prefix_rfl,by omega,rfl⟩

theorem Advanced.trans (first : Advanced n text text') (second : Advanced k text' text'') : Advanced (n + k) text text'' := by
  refine ⟨first.kept.trans second.kept,?_,second.total.trans first.total⟩
  have := first.left
  have := second.left
  omega

theorem Advanced.weaken (advanced : Advanced n text text') (fewer : k ≤ n) : Advanced k text text' :=
  ⟨advanced.kept,(Nat.add_le_add_right fewer _).trans advanced.left,advanced.total⟩

theorem Advanced.longer (advanced : Advanced n text text') : text.before.length + n ≤ text'.before.length := by
  have := advanced.left
  have := advanced.total
  omega

/-- The pointer behind some bytes. -/
theorem advanced_append (before bytes rest : List UInt8) :
    Advanced bytes.length ⟨before,bytes ++ rest⟩ ⟨before ++ bytes,rest⟩ := by
  refine ⟨List.prefix_append before bytes,?_,?_⟩
  · simp
  · simp [Nat.add_assoc]

theorem advanced_cons (before : List UInt8) (c : UInt8) (rest : List UInt8) :
    Advanced 1 ⟨before,c :: rest⟩ ⟨before ++ [c],rest⟩ := advanced_append before [c] rest

@[simp] theorem ends_error {P : α → Prop} (before : List UInt8) (message : String) :
    Ends Defined P (error before message : Except Fault α) := by
  simp [error,Ends,Defined]

@[simp] theorem error_bind {β : Type} (before : List UInt8) (message : String) (f : α → Except Fault β) :
    (error before message : Except Fault α) >>= f = error before message := rfl

/-! ## White space -/

theorem peekFrom_spec (before rest : List UInt8) :
    Advanced 0 ⟨before,rest⟩ (peekFrom before rest).2 ∧ (peekFrom before rest).1 = (peekFrom before rest).2.rest.headD 0 ∧
      ∀ c ∈ (peekFrom before rest).2.rest.head?, isSpace c = false := by
  induction rest generalizing before with
  | nil => exact ⟨Advanced.refl _,rfl,by simp [peekFrom]⟩
  | cons c rest ih =>
    by_cases space : isSpace c
    · obtain ⟨advanced,head,solid⟩ := ih (before ++ [c])
      rw [peekFrom,if_pos space]
      exact ⟨((advanced_cons before c rest).trans advanced).weaken (Nat.zero_le _),head,solid⟩
    · rw [peekFrom,if_neg space]
      exact ⟨Advanced.refl _,rfl,by simpa using space⟩

theorem peek_advanced (text : Text) : Advanced 0 text (peekStructure text).2 := (peekFrom_spec text.before text.rest).1

theorem peek_head (text : Text) : (peekStructure text).1 = (peekStructure text).2.rest.headD 0 :=
  (peekFrom_spec text.before text.rest).2.1

/-- Where something stands, there is nothing to skip. -/
theorem peek_solid (solid : ∀ c ∈ text.rest.head?, isSpace c = false) : peekStructure text = (text.rest.headD 0,text) := by
  obtain ⟨before,rest⟩ := text
  cases rest with
  | nil => rfl
  | cons c rest =>
    have : isSpace c = false := solid c rfl
    simp [peekStructure,peekFrom,this]

theorem peek_again (text : Text) : peekStructure (peekStructure text).2 = peekStructure text := by
  have solid : ∀ c ∈ (peekStructure text).2.rest.head?, isSpace c = false := (peekFrom_spec text.before text.rest).2.2
  rw [peek_solid solid,← peek_head]

/-- What is seen, and where: a character that is not a zero is one of the text. -/
theorem peek_cases (text : Text) : ∃ c text', peekStructure text = (c,text') ∧ Advanced 0 text text' ∧
    c = text'.rest.headD 0 ∧ (c ≠ 0 → text'.rest ≠ []) ∧ peekStructure text' = (c,text') := by
  refine ⟨_,_,rfl,peek_advanced text,peek_head text,?_,peek_again text⟩
  intro some' ended
  exact some' ((peek_head text).trans (congrArg (List.headD · 0) ended))

theorem peek_read {c : UInt8} (seen : peekStructure text = (c,text')) (some' : c ≠ 0) : text.rest ≠ [] := by
  intro ended
  have nothing : peekStructure text = (0,text) := by
    rw [peek_solid (by simp [ended]),ended]
    rfl
  exact some' (congrArg Prod.fst (seen.symm.trans nothing))

theorem next_advanced (nonempty : text.rest ≠ []) : Advanced 1 text text.next := by
  obtain ⟨before,rest⟩ := text
  cases rest with
  | nil => exact absurd rfl nonempty
  | cons c rest => exact advanced_cons before c rest

/-! ## Words and numbers -/

theorem parseWord_ends (letters : List UInt8) (message : String) (text : Text) :
    Ends Defined (Advanced (letters.length + 1) text) (parseWord letters message text) := by
  rw [parseWord]
  split
  · exact ends_error _ _
  · next enough =>
    split
    · exact ends_error _ _
    · have moved := advanced_append text.before (text.rest.take (letters.length + 1)) (text.rest.drop (letters.length + 1))
      rw [List.take_append_drop,List.length_take,Nat.min_eq_left (by omega)] at moved
      exact moved

theorem checked_ends (i : Int) : Ends Defined (fun j => j = i) (checked i) := by
  rw [checked]
  split
  · rfl
  · simp [Ends,Defined]

/-- A loop over digits keeps what every push keeps, and stops before the end. -/
theorem digitsLoop_ends {σ : Type} {push : σ → Nat → Except Fault σ} {J : Nat → σ → Prop}
    (step : ∀ k s digit, digit ≤ 9 → J k s → Ends Defined (J (k + 1)) (push s digit)) {k : Nat} {s : σ} (holds : J k s)
    {before rest : List UInt8} (nonempty : rest ≠ []) :
    Ends Defined (fun (s',text') => ∃ n, J (k + n) s' ∧ Advanced n ⟨before,rest⟩ text' ∧ text'.rest ≠ [] ∧
      (isDigit (rest.headD 0) → 1 ≤ n)) (digitsLoop push s before rest) := by
  induction rest generalizing k s before with
  | nil => exact absurd rfl nonempty
  | cons c rest ih =>
    rw [digitsLoop]
    by_cases digit : isDigit c
    · rw [if_pos digit]
      by_cases last : rest.isEmpty
      · rw [if_pos last]
        exact ends_error _ _
      · rw [if_neg last]
        have small : c.toNat - 48 ≤ 9 := by
          have range : c ≤ 0x39 := by simpa [isDigit] using (Bool.and_eq_true_iff.mp digit).2
          have := UInt8.le_iff_toNat_le.mp range
          simp at this
          omega
        refine ends_bind (step k s _ small holds) fun s' holds' => ?_
        refine ends_weaken (@ih (k + 1) s' holds' (before ++ [c]) (by simpa using last)) ?_
        rintro ⟨s'',text'⟩ ⟨n,holds'',advanced,more,-⟩
        refine ⟨n + 1,?_,?_,more,fun _ => Nat.le_add_left 1 n⟩
        · rwa [show k + (n + 1) = k + 1 + n by omega]
        · exact ((advanced_cons before c rest).trans advanced).weaken (by omega)
    · rw [if_neg digit]
      refine ⟨0,holds,Advanced.refl _,by simp,fun starts => absurd starts ?_⟩
      simpa using digit

theorem optional_ends (among : UInt8 → Bool) (nonempty : text.rest ≠ []) :
    Ends Defined (fun (found,text') => text'.rest ≠ [] ∧ Advanced (if found.isSome then 1 else 0) text text' ∧
      (among (text.rest.headD 0) = found.isSome) ∧ (found = none → text' = text)) (optional among text) := by
  obtain ⟨before,rest⟩ := text
  cases rest with
  | nil => exact absurd rfl nonempty
  | cons c rest =>
    simp only [optional]
    by_cases found : among c
    · rw [if_pos found]
      by_cases last : rest.isEmpty
      · rw [if_pos last]
        exact ends_error _ _
      · rw [if_neg last]
        exact ⟨by simpa using last,advanced_cons before c rest,by simpa using found,by simp⟩
    · rw [if_neg found]
      exact ⟨by simp,Advanced.refl _,by simpa using found,fun _ => rfl⟩

end

section
variable {D : Type} (doubles : Doubles D) {text : Text}

/-- The integer part: what has become a double has two digits or more. -/
def Counted (k : Nat) : Number D → Prop
  | .integer i => 0 ≤ i ∧ i ≤ 2147483559 ∧ (k = 0 → i = 0)
  | .double _ => 2 ≤ k

theorem pushDigit_counted (k : Nat) (number : Number D) (digit : Nat) (small : digit ≤ 9) (counted : Counted k number) :
    Counted (k + 1) (pushDigit doubles number digit) := by
  cases number with
  | integer i =>
    obtain ⟨positive,-,first⟩ := counted
    rw [pushDigit]
    split
    · next large =>
      have some' : k ≠ 0 := fun none' => by
        have := first none'
        omega
      show 2 ≤ k + 1
      omega
    · next fits =>
      refine ⟨by omega,?_,by omega⟩
      simp only [Int.reduceDiv,Int.reduceSub,not_lt] at fits
      omega
  | double d => exact Nat.le_succ_of_le counted

/-- An integer is in range, and its negation too. -/
def InRange : Number D → Prop
  | .integer i => -2147483559 ≤ i ∧ i ≤ 2147483559
  | .double _ => True

def isDouble : Number D → Bool
  | .integer _ => false
  | .double _ => true

theorem parseFraction_ends (number : Number D) (nonempty : text.rest ≠ []) :
    Ends Defined (fun (number',exponent,text') => text'.rest ≠ [] ∧
      (number' = number ∧ exponent = 0 ∧ Advanced 0 text text' ∨ isDouble number' = true ∧ Advanced 1 text text'))
      (parseFraction doubles number text) := by
  rw [parseFraction]
  refine ends_bind (optional_ends (· == 0x2E) nonempty) ?_
  rintro ⟨point,text'⟩ ⟨more,advanced,-,-⟩
  cases point with
  | none => exact ⟨more,.inl ⟨rfl,rfl,advanced⟩⟩
  | some point =>
    have step : ∀ k (s : D × Int) digit, digit ≤ 9 → (fun (_ : Nat) (_ : D × Int) => True) k s →
        Ends Defined ((fun (_ : Nat) (_ : D × Int) => True) (k + 1)) (pushFraction doubles s digit) :=
      fun k s digit small _ => ends_bind (checked_ends _) fun _ _ => trivial
    refine ends_bind (@digitsLoop_ends _ _ _ step 0 _ trivial text'.before _ more) ?_
    rintro ⟨⟨d,exponent⟩,text''⟩ ⟨n,-,advanced',more',-⟩
    exact ⟨more',.inr ⟨rfl,(advanced.trans advanced').weaken (Nat.le_add_right 1 n)⟩⟩

theorem parseExponent_ends (number : Number D) (exponent : Int) (nonempty : text.rest ≠ []) :
    Ends Defined (fun (number',_,text') => text'.rest ≠ [] ∧
      (number' = number ∧ Advanced 0 text text' ∨ isDouble number' = true ∧ Advanced 1 text text'))
      (parseExponent doubles number exponent text) := by
  rw [parseExponent]
  refine ends_bind (optional_ends _ nonempty) ?_
  rintro ⟨e,text'⟩ ⟨more,advanced,-,-⟩
  cases e with
  | none => exact ⟨more,.inl ⟨rfl,advanced⟩⟩
  | some e =>
    refine ends_bind (optional_ends _ more) ?_
    rintro ⟨sign,text''⟩ ⟨more',advanced',-,-⟩
    have step : ∀ k (s : Int) digit, digit ≤ 9 → (fun (_ : Nat) (_ : Int) => True) k s →
        Ends Defined ((fun (_ : Nat) (_ : Int) => True) (k + 1)) (pushExponent s digit) :=
      fun k s digit small _ => ends_weaken (checked_ends _) fun _ _ => trivial
    refine ends_bind (@digitsLoop_ends _ _ _ step 0 _ trivial text''.before _ more') ?_
    rintro ⟨exp,text3⟩ ⟨n,-,advanced'',more'',-⟩
    refine ends_bind (checked_ends _) fun _ _ => ⟨more'',.inr ⟨rfl,?_⟩⟩
    exact ((advanced.trans advanced').trans advanced'').weaken (by simp; omega)

theorem lead_number {c : UInt8} (starts : lead c = .number) : isDigit c = true ∨ (c == 0x2D) = true := by
  by_contra neither
  have other : (isDigit c || c == 0x2D) = false := by simpa using neither
  simp only [lead,other,Bool.false_eq_true,if_false] at starts
  split_ifs at starts

theorem finish_inRange (negative : Bool) (exponent : Int) {number : Number D} {k : Nat}
    (counted : isDouble number = true ∨ Counted k number) : InRange (number.finish doubles negative exponent) := by
  cases number with
  | double d => trivial
  | integer i =>
    rcases counted with double | ⟨positive,small,-⟩
    · exact absurd double (by simp [isDouble])
    · simp only [Number.finish,InRange]
      split <;> omega

theorem finish_isDouble (negative : Bool) (exponent : Int) (number : Number D) :
    isDouble (number.finish doubles negative exponent) = isDouble number := by
  cases number <;> rfl

/-- What a number takes of the text: a byte, and another one if it is a double. -/
theorem parseNumber_ends (starts : lead (text.rest.headD 0) = .number) :
    Ends Defined (fun (number,text') => InRange number ∧ Advanced (if isDouble number then 2 else 1) text text')
      (parseNumber doubles text) := by
  have nonempty : text.rest ≠ [] := fun ended => by
    rw [ended] at starts
    exact absurd starts (by decide)
  rw [parseNumber]
  refine ends_bind (optional_ends _ nonempty) ?_
  rintro ⟨sign,text1⟩ ⟨more1,advanced1,signed,same⟩
  have step : ∀ k (s : Number D) digit, digit ≤ 9 → Counted k s →
      Ends Defined (Counted (k + 1)) ((fun number digit => Except.ok (pushDigit doubles number digit)) s digit) :=
    fun k s digit small counted => pushDigit_counted doubles k s digit small counted
  have zero : Counted 0 (Number.integer 0 : Number D) := ⟨by decide,by decide,fun _ => rfl⟩
  refine ends_bind (@digitsLoop_ends _ _ _ step 0 _ zero text1.before _ more1) ?_
  rintro ⟨number2,text2⟩ ⟨n,counted,advanced2,more2,digits⟩
  rw [Nat.zero_add] at counted
  refine ends_bind (parseFraction_ends doubles number2 more2) ?_
  rintro ⟨number3,exponent3,text3⟩ ⟨more3,fraction⟩
  refine ends_bind (parseExponent_ends doubles number3 exponent3 more3) ?_
  rintro ⟨number4,exponent4,text4⟩ ⟨-,exponent⟩
  -- a byte is the sign or the first digit
  have first : Advanced 1 text text2 := by
    rcases lead_number starts with digit | minus
    · cases sign with
      | some c => exact (advanced1.trans advanced2).weaken (by simp)
      | none =>
        obtain rfl := same rfl
        exact (advanced1.trans advanced2).weaken (by have := digits digit; omega)
    · rw [← signed,minus] at advanced1
      exact (advanced1.trans advanced2).weaken (by simp)
  -- another one is the second digit, the point or the exponent
  have second : isDouble number4 = true → Advanced 2 text text4 := by
    intro double
    have both : Advanced 2 text text2 ∨ isDouble number2 = false := by
      cases number2 with
      | integer i => exact .inr rfl
      | double d => exact .inl ((advanced1.trans advanced2).weaken (by have : 2 ≤ n := counted; omega))
    rcases exponent with ⟨rfl,kept4⟩ | ⟨-,moved4⟩
    · rcases fraction with ⟨rfl,-,kept3⟩ | ⟨-,moved3⟩
      · rcases both with both | integer
        · exact (both.trans kept3).trans kept4
        · exact absurd double (by simp [integer])
      · exact ((first.trans moved3).trans kept4)
    · rcases fraction with ⟨-,-,kept3⟩ | ⟨-,moved3⟩
      · exact (first.trans kept3).trans moved4
      · exact ((first.trans moved3).trans moved4).weaken (by omega)
  have whole : Advanced 1 text text4 := by
    rcases exponent with ⟨-,moved4⟩ | ⟨-,moved4⟩ <;> rcases fraction with ⟨-,-,moved3⟩ | ⟨-,moved3⟩ <;>
      exact ((first.trans moved3).trans moved4).weaken (by omega)
  refine ⟨finish_inRange doubles _ _ (k := n) ?_,?_⟩
  · rcases exponent with ⟨rfl,-⟩ | ⟨double,-⟩
    · rcases fraction with ⟨rfl,-,-⟩ | ⟨double,-⟩
      · exact .inr counted
      · exact .inl double
    · exact .inl double
  · rw [finish_isDouble]
    cases double : isDouble number4 with
    | true => exact second double
    | false => exact whole

end

/-! ## Strings -/

section
variable {before bytes rest : List UInt8} {i : Nat}

theorem length_overwrite (fits : i + bytes.length ≤ before.length) : (overwrite before i bytes).length = before.length := by
  simp only [overwrite,List.length_append,List.length_take,List.length_drop]
  omega

theorem take_overwrite (fits : i + bytes.length ≤ before.length) :
    (overwrite before i bytes).take (i + bytes.length) = before.take i ++ bytes := by
  rw [overwrite]
  apply List.take_left'
  rw [List.length_append,List.length_take,Nat.min_eq_left (by omega)]

theorem poke_fits (fits : i + bytes.length ≤ before.length) : poke before i bytes = .ok (overwrite before i bytes) := if_pos fits

theorem readHex_ends (before : List UInt8) (v : Nat) (digits : List UInt8) :
    Ends Defined (fun _ => True) (readHex before v digits) := by
  induction digits generalizing before v with
  | nil => trivial
  | cons c digits ih =>
    rw [readHex]
    cases hexDigit c with
    | none => exact ends_error _ _
    | some digit => exact ih _ _

theorem writeUtf8_length (codepoint : Nat) : (writeUtf8 codepoint).length ≤ 4 := by
  rw [writeUtf8]
  split_ifs <;> simp

theorem readTrail_ends (u : Nat) : Ends Defined (fun (_,text') => Advanced 0 ⟨before,rest⟩ text') (readTrail u before rest) := by
  rw [readTrail.eq_def]
  split
  · next p0 p1 g0 g1 g2 g3 rest =>
    split
    · exact ends_error _ _
    · refine ends_bind (readHex_ends _ _ _) fun v _ => ?_
      dsimp only
      split
      · exact ends_error _ _
      · exact (advanced_append before [p0,p1,g0,g1,g2,g3] rest).weaken (Nat.zero_le _)
  · exact ends_error _ _

theorem readUnicode_ends : Ends Defined (fun (_,text') => Advanced 4 ⟨before,rest⟩ text') (readUnicode before rest) := by
  rw [readUnicode.eq_def]
  split
  · next h0 h1 h2 h3 rest =>
    refine ends_bind (readHex_ends _ _ _) fun u _ => ?_
    split
    · exact ends_weaken (readTrail_ends u) fun p advanced => (advanced_append before [h0,h1,h2,h3] rest).trans advanced
    · exact advanced_append before [h0,h1,h2,h3] rest
  · exact ends_error _ _

/-- What a turn writes is not longer than what it has read. -/
theorem readPiece_ends : Ends Defined (fun (bytes,text') => Advanced (max 1 bytes.length) ⟨before,rest⟩ text')
    (readPiece before rest) := by
  rw [readPiece.eq_def]
  cases rest with
  | nil => exact ends_error _ _
  | cons c rest =>
    simp only
    split
    · exact ends_error _ _
    · split
      · cases rest with
        | nil => exact ends_error _ _
        | cons e rest =>
          simp only
          cases replacement e with
          | some byte => exact (advanced_append before [c,e] rest).weaken (by simp)
          | none =>
            simp only
            split
            · refine ends_bind readUnicode_ends ?_
              rintro ⟨codepoint,text'⟩ advanced
              refine ((advanced_append before [c,e] rest).trans advanced).weaken ?_
              have := writeUtf8_length codepoint
              simp only [List.length_cons,List.length_nil]
              omega
            · exact ends_error _ _
      · exact advanced_cons before c rest

/-- The bytes up to `finish` are decoded, and stay. -/
structure Decoded (start finish : Nat) (text : Text) (scanned : Scanned) : Prop where
  begins : scanned.start = start
  ends : finish ≤ scanned.finish
  inside : scanned.finish < scanned.text.before.length
  kept : text.before.take finish <+: scanned.text.before
  left : 1 + scanned.text.rest.length ≤ text.rest.length
  total : scanned.text.before.length + scanned.text.rest.length = text.before.length + text.rest.length

theorem scanStringSlow_ends (start turns : Nat) {finish : Nat} {text : Text} (behind : finish ≤ text.before.length) :
    Ends Defined (Decoded start finish text) (scanStringSlow start turns finish text) := by
  induction turns generalizing finish text with
  | zero => exact ends_error _ _
  | succ turns ih =>
    rw [scanStringSlow]
    split
    · next quote =>
      have nonempty : text.rest ≠ [] := fun ended => by simp [ended] at quote
      have advanced := next_advanced nonempty
      have longer := advanced.longer
      exact ⟨rfl,Nat.le_refl _,Nat.lt_of_le_of_lt behind (by simpa using longer),( List.take_prefix _ _).trans advanced.kept,
        advanced.left,advanced.total⟩
    · refine ends_bind readPiece_ends ?_
      rintro ⟨bytes,text'⟩ moved
      have advanced : Advanced (max 1 bytes.length) text text' := moved
      have longer := advanced.longer
      have fits : finish + bytes.length ≤ text'.before.length := by omega
      simp only [poke_fits fits]
      refine ends_weaken (@ih _ ⟨overwrite text'.before finish bytes,text'.rest⟩ (by rwa [length_overwrite fits])) ?_
      intro scanned decoded
      have kept := decoded.kept
      have left := decoded.left
      have total := decoded.total
      simp only [take_overwrite fits,length_overwrite fits] at kept left total
      have same : text'.before.take finish = text.before.take finish := by
        obtain ⟨more,appended⟩ := advanced.kept
        rw [← appended,List.take_append_of_le_length behind]
      refine ⟨decoded.begins,by have := decoded.ends; omega,decoded.inside,?_,?_,?_⟩
      · rw [← same]
        exact (List.prefix_append _ _).trans kept
      · have := advanced.left
        omega
      · have := advanced.total
        omega

theorem scanString_ends {start : Nat} (behind : start ≤ before.length) :
    Ends Defined (Decoded start before.length ⟨before,rest⟩) (scanString start before rest) := by
  induction rest generalizing before with
  | nil => exact ends_error _ _
  | cons c rest ih =>
    have advanced := advanced_cons before c rest
    rw [scanString]
    split
    · exact ends_error _ _
    · split
      · refine ⟨rfl,Nat.le_refl _,by simp,?_,advanced.left,advanced.total⟩
        rw [List.take_length]
        exact advanced.kept
      · split
        · exact scanStringSlow_ends start _ (Nat.le_refl _)
        · refine ends_weaken (@ih (before ++ [c]) (by simp; omega)) fun scanned decoded => ?_
          have kept := decoded.kept
          have ends := decoded.ends
          have left := decoded.left
          rw [List.take_length] at kept
          rw [List.length_append] at ends
          refine ⟨decoded.begins,by omega,decoded.inside,?_,?_,decoded.total.trans advanced.total⟩
          · rw [List.take_length]
            exact advanced.kept.trans kept
          · simp only [List.length_cons] at left ⊢
            omega

/-- A string lies between its quotes. -/
theorem readString_ends {text : Text} (nonempty : text.rest ≠ []) :
    Ends Defined (fun scanned => text.before.length + 1 ≤ scanned.start ∧ scanned.start ≤ scanned.finish ∧
      scanned.finish < scanned.text.before.length ∧ Advanced 2 text scanned.text) (readString text) := by
  have advanced := next_advanced nonempty
  refine ends_weaken (scanString_ends (Nat.le_refl _)) fun scanned decoded => ?_
  have kept := decoded.kept
  rw [List.take_length] at kept
  refine ⟨?_,decoded.begins ▸ decoded.ends,decoded.inside,advanced.kept.trans kept,?_,decoded.total.trans advanced.total⟩
  · rw [decoded.begins]
    exact advanced.longer
  · have := advanced.left
    have left : 1 + scanned.text.rest.length ≤ text.next.rest.length := decoded.left
    omega

/-! ## Between the values -/

theorem separate_ends (filled : Bool) (kind : ElementType) (text : Text) :
    Ends Defined (fun (c,text') => peekStructure text' = (c,text') ∧
      Advanced (if filled && c != closingBracket kind then 1 else 0) text text') (separate filled kind text) := by
  obtain ⟨c,text1,seen,advanced,-,some',again⟩ := peek_cases text
  rw [separate]
  simp only [seen]
  split
  · next missing =>
    split
    · next comma =>
      obtain ⟨c2,text2,seen2,advanced2,-,-,again2⟩ := peek_cases text1.next
      rw [seen2]
      refine ⟨again2,?_⟩
      have moved := (advanced.trans (next_advanced (some' (by rw [comma]; decide)))).trans advanced2
      exact moved.weaken (by split <;> omega)
    · exact ends_error _ _
  · next present =>
    refine ⟨again,?_⟩
    rw [if_neg present]
    exact advanced

theorem expectColon_ends (text : Text) : Ends Defined (Advanced 1 text) (expectColon text) := by
  obtain ⟨c,text',seen,advanced,-,some',-⟩ := peek_cases text
  rw [expectColon]
  simp only [seen]
  split
  · next colon => exact (advanced.trans (next_advanced (some' (by rw [colon]; decide)))).weaken (by omega)
  · exact ends_error _ _

theorem keyError_ends {α : Type} {P : α → Prop} {outcome : Except Fault α} (ends : Ends Defined P outcome) :
    Ends Defined P (keyError outcome) := by
  cases outcome with
  | ok a => exact ends
  | error fault =>
    cases fault with
    | error line column message => simp [keyError,Ends,Defined]
    | undefined => exact ends
    | overflow => exact ends

end
end OpenRune.Sajson
