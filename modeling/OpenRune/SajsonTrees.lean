import OpenRune.SajsonTexts

/-!
# What sajson reads

The same reading without the array of words: the open arrays and objects hold trees.
It ends on every input, and it does nothing undefined.
-/
namespace OpenRune.Sajson
open OpenRune.CppStrings OpenRune.Outcomes

/-! ## Trees -/

/-- What a document says. An object that is closed where a value is due only says how
    many members it has that are whole. -/
inductive Tree (D : Type)
  | null
  | false
  | true
  | integer (i : Int)
  | double (d : D)
  | string (bytes : List UInt8)
  | array (items : List (Tree D))
  | object (members : List (List UInt8 × Tree D))
  | broken (members : List (List UInt8 × Tree D))

/-- An array or an object that is open; a key waits for its value. -/
inductive Container (D : Type)
  | array (items : List (Tree D))
  | object (members : List (List UInt8 × Tree D)) (key : Option (List UInt8))

structure Reader (D : Type) where
  text : Text
  top : Container D
  below : List (Container D)

/-- The next turn, or the text behind the root and the root. -/
inductive Reading (D : Type)
  | next (r : Reader D)
  | done (text : Text) (tree : Tree D)

section
variable {D : Type} (doubles : Doubles D)

def Number.tree : Number D → Tree D
  | .integer i => .integer i
  | .double d => .double d

def Container.kind : Container D → ElementType
  | .array _ => .TYPE_ARRAY
  | .object _ _ => .TYPE_OBJECT

def Container.filled : Container D → Bool
  | .array items => !items.isEmpty
  | .object members _ => !members.isEmpty

/-- Whether a value may come next. -/
def Container.waits : Container D → Bool
  | .array _ => true
  | .object _ key => key.isSome

def Container.name (key : List UInt8) : Container D → Container D
  | .array items => .array items
  | .object members _ => .object members (some key)

def Container.add (tree : Tree D) : Container D → Container D
  | .array items => .array (items ++ [tree])
  | .object members (some key) => .object (members ++ [(key,tree)]) none
  | .object members none => .object members none

def Container.close : Container D → Tree D
  | .array items => .array items
  | .object members none => .object members
  | .object members (some _) => .broken members

def Container.opened (kind : ElementType) : Container D := if kind = .TYPE_ARRAY then .array [] else .object [] none

def Scanned.bytes (scanned : Scanned) : List UInt8 := slice scanned.text.before scanned.start scanned.finish

def readKey (c : UInt8) (text : Text) : Except Fault (List UInt8 × Text) := do
  if c ≠ 0x22 then error text.before "object key must be quoted"
  let scanned ← keyError (readString text)
  let text ← expectColon scanned.text
  return (scanned.bytes,text)

def Reader.prelude (r : Reader D) : Except Fault (Reader D) := do
  let (c,text) ← separate r.top.filled r.top.kind r.text
  if r.top.kind = .TYPE_OBJECT ∧ c ≠ 0x7D then
    let (key,text) ← readKey c text
    return { r with text := text, top := r.top.name key }
  else return { r with text := text }

def Reader.add (r : Reader D) (text : Text) (tree : Tree D) : Reading D := .next { r with text := text, top := r.top.add tree }

def Reader.open (kind : ElementType) (r : Reader D) : Reading D := .next ⟨r.text.next,.opened kind,r.top :: r.below⟩

def Reader.close (kind : ElementType) (r : Reader D) : Except Fault (Reading D) := do
  if r.top.kind ≠ kind then
    error r.text.before (if kind = .TYPE_ARRAY then "expected \x7d" else "expected ]")
  match r.below with
  | [] => return .done r.text.next r.top.close
  | parent :: below => return .next ⟨r.text.next,parent.add r.top.close,below⟩

def Reader.value (r : Reader D) : Except Fault (Reading D) :=
  match peekStructure r.text with
  | (c,text) =>
    let r := { r with text := text }
    match lead c with
    | .ended => error text.before "unexpected end of input"
    | .null => do
      let text ← parseNull text
      return r.add text .null
    | .false => do
      let text ← parseFalse text
      return r.add text .false
    | .true => do
      let text ← parseTrue text
      return r.add text .true
    | .number => do
      let (number,text) ← parseNumber doubles text
      return r.add text number.tree
    | .string => do
      let scanned ← readString text
      return r.add scanned.text (.string scanned.bytes)
    | .openArray => return r.open .TYPE_ARRAY
    | .openObject => return r.open .TYPE_OBJECT
    | .closeArray => r.close .TYPE_ARRAY
    | .closeObject => r.close .TYPE_OBJECT
    | .unknown => error text.before "cannot parse unknown value"

def Reader.turn (r : Reader D) : Except Fault (Reading D) := do
  let r ← r.prelude
  r.value doubles

/-- The turns up to the end of the root. -/
def Reader.loop : Nat → Reader D → Option (Except Fault (Text × Tree D))
  | 0, _ => none
  | fuel + 1, r =>
    match r.turn doubles with
    | .error fault => some (.error fault)
    | .ok (.done text tree) => some (.ok (text,tree))
    | .ok (.next r) => Reader.loop fuel r

/-- Only white space follows. -/
def expectEnd (text : Text) (tree : Tree D) : Except Fault (Text × Tree D) :=
  match peekStructure text with
  | (c,text) => if c = 0 then .ok (text,tree) else error text.before "expected end of input"

/-- The tree of an input. -/
def read (fuel : Nat) (input : List UInt8) : Option (Except Fault (Text × Tree D)) :=
  match openRoot ⟨[],input⟩ with
  | .error fault => some (.error fault)
  | .ok (kind,text) =>
    (Reader.loop doubles fuel ⟨text,.opened kind,[]⟩).map fun outcome => outcome.bind fun (text,tree) => expectEnd text tree

end

/-! ## Every reading ends -/

section
variable {D : Type} {doubles : Doubles D}

theorem readKey_ends {c : UInt8} {text : Text} (seen : peekStructure text = (c,text)) :
    Ends Defined (fun (_,text') => Advanced 3 text text') (readKey c text) := by
  rw [readKey]
  by_cases quote : c = 0x22
  · simp only [quote,ne_eq,not_true_eq_false,if_false]
    have nonempty := peek_read seen (by rw [quote]; decide)
    refine ends_bind (keyError_ends (readString_ends nonempty)) fun scanned decoded => ?_
    exact ends_bind (expectColon_ends _) fun text' advanced => decoded.2.2.2.trans advanced
  · simp only [quote,ne_eq,not_false_eq_true,if_true,error_bind]
    exact ends_error _ _

theorem prelude_ends (r : Reader D) :
    Ends Defined (fun r' => Advanced 0 r.text r'.text ∧ r'.below = r.below ∧ r'.top.kind = r.top.kind) r.prelude := by
  rw [Reader.prelude]
  refine ends_bind (separate_ends _ _ _) ?_
  rintro ⟨c,text⟩ ⟨seen,advanced⟩
  simp only
  split
  · refine ends_bind (readKey_ends seen) ?_
    rintro ⟨key,text'⟩ advanced'
    refine ⟨(advanced.trans advanced').weaken (Nat.zero_le _),rfl,?_⟩
    cases top : r.top <;> rfl
  · exact ⟨advanced.weaken (Nat.zero_le _),rfl,rfl⟩

/-- Where a turn leaves the pointer. -/
def Reading.text : Reading D → Text
  | .next r => r.text
  | .done text _ => text

theorem close_ends (kind : ElementType) (r : Reader D) (nonempty : r.text.rest ≠ []) :
    Ends Defined (fun reading => Advanced 1 r.text reading.text) (r.close kind) := by
  rw [Reader.close]
  split
  · exact ends_error _ _
  · cases r.below with
    | nil => exact next_advanced nonempty
    | cons parent below => exact next_advanced nonempty

theorem value_ends (r : Reader D) : Ends Defined (fun reading => Advanced 1 r.text reading.text) (r.value doubles) := by
  obtain ⟨c,text,seen,advanced,head,some',-⟩ := peek_cases r.text
  have word : ∀ {letters : List UInt8} {message : String} (tree : Tree D),
      Ends Defined (fun reading => Advanced 1 r.text reading.text)
        (do let text ← parseWord letters message text
            return ({ r with text := text }).add text tree) := fun tree =>
    ends_bind (parseWord_ends _ _ _) fun text' advanced' => (advanced.trans advanced').weaken (by omega)
  rw [Reader.value]
  simp only [seen]
  have starts : lead c ≠ .ended → text.rest ≠ [] := fun some'' => some' fun zero => some'' (by rw [zero]; rfl)
  cases leads : lead c with
  | ended => exact ends_error _ _
  | unknown => exact ends_error _ _
  | null => exact word .null
  | false => exact word .false
  | true => exact word .true
  | number =>
    refine ends_bind (parseNumber_ends doubles (head ▸ leads)) ?_
    rintro ⟨number,text'⟩ ⟨-,advanced'⟩
    exact (advanced.trans advanced').weaken (by split <;> omega)
  | string =>
    refine ends_bind (readString_ends (starts (by simp [leads]))) fun scanned decoded => ?_
    exact (advanced.trans decoded.2.2.2).weaken (by omega)
  | openArray => exact (advanced.trans (next_advanced (starts (by simp [leads])))).weaken (by omega)
  | openObject => exact (advanced.trans (next_advanced (starts (by simp [leads])))).weaken (by omega)
  | closeArray =>
    refine ends_weaken (close_ends .TYPE_ARRAY { r with text := text } (starts (by simp [leads]))) fun reading moved => ?_
    exact (advanced.trans moved).weaken (by omega)
  | closeObject =>
    refine ends_weaken (close_ends .TYPE_OBJECT { r with text := text } (starts (by simp [leads]))) fun reading moved => ?_
    exact (advanced.trans moved).weaken (by omega)

/-- Every turn reads a byte. -/
theorem turn_ends (doubles : Doubles D) (r : Reader D) : Ends Defined (fun reading => Advanced 1 r.text reading.text) (r.turn doubles) := by
  rw [Reader.turn]
  refine ends_bind (prelude_ends r) fun r' ready => ?_
  exact ends_weaken (value_ends r') fun reading advanced => (ready.1.trans advanced).weaken (by omega)

/-- With a turn for each byte the loop comes to its end. -/
theorem loop_ends (doubles : Doubles D) (r : Reader D) {fuel : Nat} (enough : r.text.rest.length < fuel) :
    ∃ outcome, Reader.loop doubles fuel r = some outcome ∧ Ends Defined (fun (text,_) => Advanced 1 r.text text) outcome := by
  induction fuel generalizing r with
  | zero => exact absurd enough (Nat.not_lt_zero _)
  | succ fuel ih =>
    have turn := turn_ends doubles r
    rw [Reader.loop]
    cases ran : r.turn doubles with
    | error fault => exact ⟨_,rfl,ends_of_error turn ran⟩
    | ok reading =>
      have advanced := ends_of_ok turn ran
      cases reading with
      | done text tree => exact ⟨_,rfl,advanced⟩
      | next r' =>
        have left := advanced.left
        simp only [Reading.text] at left
        obtain ⟨outcome,looped,ends⟩ := ih r' (by omega)
        exact ⟨outcome,looped,ends_weaken ends fun p moved => (advanced.trans moved).weaken (by omega)⟩

theorem openRoot_ends (text : Text) :
    Ends Defined (fun (kind,text') => (kind = .TYPE_ARRAY ∨ kind = .TYPE_OBJECT) ∧ Advanced 1 text text') (openRoot text) := by
  obtain ⟨c,text',seen,advanced,-,some',-⟩ := peek_cases text
  rw [openRoot]
  simp only [seen]
  split
  · exact ends_error _ _
  · next nonzero =>
    have moved : Advanced 1 text text'.next := (advanced.trans (next_advanced (some' nonzero))).weaken (by omega)
    split
    · exact ⟨.inl rfl,moved⟩
    · split
      · exact ⟨.inr rfl,moved⟩
      · exact ends_error _ _

theorem expectEnd_ends (text : Text) (tree : Tree D) :
    Ends Defined (fun (text',_) => Advanced 0 text text') (expectEnd text tree) := by
  obtain ⟨c,text',seen,advanced,-,-,-⟩ := peek_cases text
  rw [expectEnd]
  simp only [seen]
  split
  · exact advanced
  · exact ends_error _ _

/-- Every input is read to a tree or to an error, and its text keeps its size. -/
theorem read_ends (doubles : Doubles D) (input : List UInt8) {fuel : Nat} (enough : input.length ≤ fuel) :
    ∃ outcome, read doubles fuel input = some outcome ∧
      Ends Defined (fun (text,_) => text.data.length = input.length) outcome := by
  have opened := openRoot_ends ⟨[],input⟩
  rw [read]
  cases opens : openRoot ⟨[],input⟩ with
  | error fault => exact ⟨_,rfl,ends_of_error opened opens⟩
  | ok root =>
    obtain ⟨kind,text⟩ := root
    have first := (ends_of_ok opened opens).2
    have left := first.left
    simp only at left
    obtain ⟨outcome,looped,ends⟩ := loop_ends doubles ⟨text,.opened kind,[]⟩ (show text.rest.length < fuel by omega)
    simp only [looped,Option.map_some]
    refine ⟨_,rfl,ends_bind ends ?_⟩
    rintro ⟨text',tree⟩ second
    refine ends_weaken (expectEnd_ends text' tree) fun (text'',_) third => ?_
    have total := ((first.trans second).trans third).total
    simpa [Text.data] using total

end
end OpenRune.Sajson
