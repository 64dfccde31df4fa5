import OpenRune.SajsonTrees

/-!
# The document in memory

The array of words holds what the plain reading holds: below `temp` the open arrays and
objects with their items, from `out` on the payloads. An item is a word that says of
what type it is and how far away its payload lies.
-/
namespace OpenRune.Sajson
open OpenRune.CppStrings OpenRune.Memories OpenRune.Outcomes

/-! ## Words -/

theorem code_small (t : ElementType) : t.code ≤ 7 := by cases t <;> decide

theorem size_split (w : Width) : w.size = 8 * 2 ^ typeShift w := by cases w <;> rfl

theorem makeElement_eq {w : Width} {t : ElementType} {value : Nat} (small : value < 2 ^ typeShift w) :
    makeElement w t value = t.code * 2 ^ typeShift w + value := by
  rw [makeElement,Nat.or_comm,← Nat.shiftLeft_add_eq_or_of_lt small,Nat.shiftLeft_eq]

theorem getElementType_make {w : Width} {t : ElementType} {value : Nat} (small : value < 2 ^ typeShift w) :
    getElementType w (makeElement w t value) = t := by
  have shifted : makeElement w t value >>> typeShift w = t.code := by
    rw [makeElement_eq small,Nat.shiftRight_eq_div_pow,Nat.mul_comm,Nat.mul_add_div (Nat.two_pow_pos _),
      Nat.div_eq_of_lt small,Nat.add_zero]
  rw [getElementType,shifted]
  cases t <;> rfl

theorem getElementValue_make {w : Width} {t : ElementType} {value : Nat} (small : value < 2 ^ typeShift w) :
    getElementValue w (makeElement w t value) = value := by
  rw [getElementValue,valueMask,Nat.and_two_pow_sub_one_eq_mod,makeElement_eq small,Nat.mul_comm,Nat.mul_add_mod,
    Nat.mod_eq_of_lt small]

/-- The sum that moves a word leaves its type alone, as long as the value does not
    leave its bits. -/
theorem plus_minus {w : Width} {t : ElementType} {value a b : Nat} (above : b ≤ value + a)
    (old : value < 2 ^ typeShift w) (new : value + a - b < 2 ^ typeShift w) (small : b ≤ w.size) :
    w.plus (makeElement w t value) (w.minus a b) = makeElement w t (value + a - b) := by
  have split := size_split w
  have code := code_small t
  have bound : t.code * 2 ^ typeShift w ≤ 7 * 2 ^ typeShift w := Nat.mul_le_mul_right _ code
  rw [makeElement_eq old,makeElement_eq new,Width.plus,Width.minus,Nat.add_mod_mod,
    show t.code * 2 ^ typeShift w + value + (w.size + a - b) = w.size + (t.code * 2 ^ typeShift w + (value + a - b)) by omega,
    Nat.add_mod_left,Nat.mod_eq_of_lt (by omega)]

theorem minus_eq {w : Width} {a b : Nat} (le : b ≤ a) (small : a < w.size) : w.minus a b = a - b := by
  rw [Width.minus,Nat.add_sub_assoc le,Nat.add_mod_left,Nat.mod_eq_of_lt (by omega)]

theorem plus_zero {w : Width} {a : Nat} (small : a < w.size) : w.plus a 0 = a := Nat.mod_eq_of_lt small

def wordBytes : Width → Nat
  | .x86 => 4
  | .x64 => 8

/-- An array takes half of the address space at most. -/
def Allocated (w : Width) (length : Nat) : Prop := length * wordBytes w < w.size / 2

instance (w : Width) (length : Nat) : Decidable (Allocated w length) := inferInstanceAs (Decidable (_ < _))

theorem allocated_fits {w : Width} {length : Nat} (allocated : Allocated w length) : length < 2 ^ typeShift w := by
  cases w with
  | x86 =>
    have : length * 4 < 2 ^ 32 / 2 := allocated
    show length < 2 ^ 29
    omega
  | x64 =>
    have : length * 8 < 2 ^ 64 / 2 := allocated
    show length < 2 ^ 61
    omega

/-! ## Trees in memory -/

section
variable {D : Type} (w : Width) (doubles : Doubles D)

/-- The key of a record, as the text has it. -/
structure KeyAt (text : List UInt8) (start finish : Nat) (key : List UInt8) : Prop where
  ordered : start ≤ finish
  inside : finish ≤ text.length
  bytes : slice text start finish = key

/-- The payload of a tree. The members of an object may have been put in any order. -/
inductive Node (m : Memory) (text : List UInt8) (low : Nat) : ElementType → Nat → Tree D → Prop
  | null (p : Nat) : Node m text low .TYPE_NULL p .null
  | false (p : Nat) : Node m text low .TYPE_FALSE p .false
  | true (p : Nat) : Node m text low .TYPE_TRUE p .true
  | integer (p : Nat) (i : Int) (above : low ≤ p) (block : Block m p [integerWord i])
      (range : -2147483559 ≤ i ∧ i ≤ 2147483559) : Node m text low .TYPE_INTEGER p (.integer i)
  | double (p : Nat) (d : D) (above : low ≤ p) (block : Block m p (doubles.words w d)) : Node m text low .TYPE_DOUBLE p (.double d)
  | string (p start finish : Nat) (bytes : List UInt8) (above : low ≤ p) (block : Block m p [start,finish])
      (key : KeyAt text start finish bytes) : Node m text low .TYPE_STRING p (.string bytes)
  | array (p : Nat) (words : List Nat) (items : List (Tree D)) (above : low ≤ p) (block : Block m p (items.length :: words))
      (count : words.length = items.length)
      (nodes : ∀ (i word : Nat) (item : Tree D), words[i]? = some word → items[i]? = some item →
        Node m text low (getElementType w word) (p + getElementValue w word) item) :
      Node m text low .TYPE_ARRAY p (.array items)
  | object (p : Nat) (records : List Record) (members members' : List (List UInt8 × Tree D)) (above : low ≤ p)
      (block : Block m p (members.length :: records.flatMap Record.words)) (count : records.length = members.length)
      (order : members'.Perm members)
      (sorted : members'.Pairwise fun a b => keyLess b.1 a.1 = false)
      (keys : ∀ (i : Nat) (record : Record) (member : List UInt8 × Tree D), records[i]? = some record → members'[i]? = some member →
        KeyAt text record.keyStart record.keyEnd member.1)
      (nodes : ∀ (i : Nat) (record : Record) (member : List UInt8 × Tree D), records[i]? = some record → members'[i]? = some member →
        Node m text low (getElementType w record.value) (p + getElementValue w record.value) member.2) :
      Node m text low .TYPE_OBJECT p (.object members)
  | broken (p : Nat) (members : List (List UInt8 × Tree D)) (above : low ≤ p) (block : Block m p [members.length]) :
      Node m text low .TYPE_OBJECT p (.broken members)

variable {w doubles} {m m' : Memory} {text text' : List UInt8} {low low' high : Nat}

theorem slice_grown {start finish : Nat} (grown : text <+: text') (inside : finish ≤ text.length) :
    slice text' start finish = slice text start finish := by
  obtain ⟨more,rfl⟩ := grown
  rw [slice,slice,List.take_append_of_le_length inside]

theorem keyAt_grown {start finish : Nat} {key : List UInt8} (grown : text <+: text') (at' : KeyAt text start finish key) :
    KeyAt text' start finish key :=
  ⟨at'.ordered,at'.inside.trans grown.length_le,(slice_grown grown at'.inside).trans at'.bytes⟩

/-- A tree stays as long as nothing is written from its lowest payload on. -/
theorem node_frame {t : ElementType} {p : Nat} {tree : Tree D} (node : Node w doubles m text low t p tree)
    (within : Within 0 low m m') (grown : text <+: text') (lower : low' ≤ low) : Node w doubles m' text' low' t p tree := by
  induction node with
  | null p => exact .null p
  | false p => exact .false p
  | true p => exact .true p
  | integer p i above block range => exact .integer p i (lower.trans above) (block_within block within (.inr above)) range
  | double p d above block => exact .double p d (lower.trans above) (block_within block within (.inr above))
  | string p start finish bytes above block key =>
    exact .string p start finish bytes (lower.trans above) (block_within block within (.inr above)) (keyAt_grown grown key)
  | array p words items above block count nodes ih =>
    exact .array p words items (lower.trans above) (block_within block within (.inr above)) count ih
  | object p records members members' above block count order sorted keys nodes ih =>
    exact .object p records members members' (lower.trans above) (block_within block within (.inr above)) count order sorted
      (fun i record member at' at'' => keyAt_grown grown (keys i record member at' at'')) ih
  | broken p members above block => exact .broken p members (lower.trans above) (block_within block within (.inr above))

end

/-! ## What is open -/

section
variable {D : Type} (w : Width) (doubles : Doubles D) (m : Memory) (text : List UInt8) (low high : Nat)

/-- An item: how far its payload lies from the origin of its container. -/
def Element (origin word : Nat) (tree : Tree D) : Prop :=
  ∃ t value, word = makeElement w t value ∧ value < 2 ^ typeShift w ∧ low ≤ origin + value ∧ origin + value ≤ high ∧
    Node w doubles m text low t (origin + value) tree

def Member (origin : Nat) (record : Record) (member : List UInt8 × Tree D) : Prop :=
  KeyAt text record.keyStart record.keyEnd member.1 ∧ Element w doubles m text low high origin record.value member.2

/-- The words of a key that waits for its value. -/
def Pending (words : List Nat) : Option (List UInt8) → Prop
  | none => words = []
  | some key => ∃ start finish, words = [start,finish] ∧ KeyAt text start finish key

def Held (origin : Nat) (words : List Nat) : Container D → Prop
  | .array items => List.Forall₂ (Element w doubles m text low high origin) words items
  | .object members key => ∃ records pending, words = records.flatMap Record.words ++ pending ∧
      List.Forall₂ (Member w doubles m text low high origin) records members ∧ Pending text pending key

/-- The words of a container, from behind its base up to `top`. -/
def Region (base top : Nat) (c : Container D) : Prop :=
  ∃ words, Block m (base + 1) words ∧ top = base + 1 + words.length ∧ Held w doubles m text low high (base + 1) words c

/-- The open containers one above the other. The word at the base of one tells of the
    one below, and that of the root that there is none. -/
def Stacked : Frame → Nat → Container D → List (Container D) → Prop
  | frame, top, c, [] => frame.kind = c.kind ∧ Region w doubles m text low high frame.base top c ∧ frame.base = 0 ∧
      m 0 = some (makeElement w c.kind (rootMarker w))
  | frame, top, c, parent :: below => frame.kind = c.kind ∧ Region w doubles m text low high frame.base top c ∧
      parent.waits = true ∧ ∃ base, base < frame.base ∧ m frame.base = some (makeElement w parent.kind base) ∧
        Stacked ⟨base,parent.kind⟩ frame.base parent below

end

section
variable {D : Type} {w : Width} {doubles : Doubles D} {m m' : Memory} {text text' : List UInt8} {low low' high : Nat}

theorem element_frame {lo origin word : Nat} {tree : Tree D} (element : Element w doubles m text low high origin word tree)
    (within : Within lo low m m') (grown : text <+: text') (lower : low' ≤ low) :
    Element w doubles m' text' low' high origin word tree := by
  obtain ⟨t,value,rfl,small,above,below,node⟩ := element
  exact ⟨t,value,rfl,small,lower.trans above,below,node_frame node (within_sub within (Nat.zero_le _) (Nat.le_refl _)) grown lower⟩

theorem held_frame {lo origin : Nat} {words : List Nat} {c : Container D} (held : Held w doubles m text low high origin words c)
    (within : Within lo low m m') (grown : text <+: text') (lower : low' ≤ low) :
    Held w doubles m' text' low' high origin words c := by
  cases c with
  | array items => exact held.imp fun word tree element => element_frame element within grown lower
  | object members key =>
    obtain ⟨records,pending,rfl,matched,waits⟩ := held
    refine ⟨records,pending,rfl,matched.imp fun record member holds => ?_,?_⟩
    · exact ⟨keyAt_grown grown holds.1,element_frame holds.2 within grown lower⟩
    · cases key with
      | none => exact waits
      | some key =>
        obtain ⟨start,finish,rfl,at'⟩ := waits
        exact ⟨start,finish,rfl,keyAt_grown grown at'⟩

theorem region_frame {base top : Nat} {c : Container D} (region : Region w doubles m text low high base top c)
    (within : Within top low m m') (grown : text <+: text') (lower : low' ≤ low) :
    Region w doubles m' text' low' high base top c := by
  obtain ⟨words,block,rfl,held⟩ := region
  exact ⟨words,block_within block within (.inl (Nat.le_refl _)),rfl,held_frame held within grown lower⟩

theorem region_above {base top : Nat} {c : Container D} (region : Region w doubles m text low high base top c) : base + 1 ≤ top := by
  obtain ⟨words,-,rfl,-⟩ := region
  exact Nat.le_add_right _ _

theorem stacked_kind {frame : Frame} {top : Nat} {c : Container D} {below : List (Container D)}
    (stacked : Stacked w doubles m text low high frame top c below) : frame.kind = c.kind := by
  cases below with
  | nil => exact stacked.1
  | cons parent below => exact stacked.1

theorem stacked_region {frame : Frame} {top : Nat} {c : Container D} {below : List (Container D)}
    (stacked : Stacked w doubles m text low high frame top c below) : Region w doubles m text low high frame.base top c := by
  cases below with
  | nil => exact stacked.2.1
  | cons parent below => exact stacked.2.1

/-- What is open stays as long as nothing is written but between it and the payloads. -/
theorem stacked_frame {frame : Frame} {top : Nat} {c : Container D} {below : List (Container D)}
    (stacked : Stacked w doubles m text low high frame top c below) (within : Within top low m m') (grown : text <+: text')
    (lower : low' ≤ low) : Stacked w doubles m' text' low' high frame top c below := by
  induction below generalizing frame top c with
  | nil =>
    obtain ⟨kind,region,root,marker⟩ := stacked
    have above := region_above region
    exact ⟨kind,region_frame region within grown lower,root,(within 0 (.inl (by omega))).trans marker⟩
  | cons parent below ih =>
    obtain ⟨kind,region,waits,base,under,word,stacked⟩ := stacked
    have above := region_above region
    refine ⟨kind,region_frame region within grown lower,waits,base,under,(within _ (.inl (by omega))).trans word,?_⟩
    exact ih stacked (within_sub within (by omega) (Nat.le_refl _))

/-- The container on top may be exchanged for one of its kind. -/
theorem stacked_exchange {frame : Frame} {top top' : Nat} {c c' : Container D} {below : List (Container D)}
    (stacked : Stacked w doubles m text low high frame top c below) (kind : c'.kind = c.kind)
    (region : Region w doubles m text low high frame.base top' c') : Stacked w doubles m text low high frame top' c' below := by
  cases below with
  | nil =>
    obtain ⟨same,-,root,marker⟩ := stacked
    exact ⟨same.trans kind.symm,region,root,kind ▸ marker⟩
  | cons parent below =>
    obtain ⟨same,-,rest⟩ := stacked
    exact ⟨same.trans kind.symm,region,rest⟩

end

/-! ## Writing -/

section
variable {length : Nat} {words : Memory}

theorem store_ok {i : Nat} (word : Nat) (inside : i < length) :
    store length words i word = .ok (Function.update words i (some word)) := if_pos inside

theorem storeAll_ok (length : Nat) (words : Memory) (i : Nat) (stored : List Nat) (inside : i + stored.length ≤ length) :
    storeAll length words i stored = .ok (writeAll words i stored) := by
  induction stored generalizing words i with
  | nil => rfl
  | cons word stored ih =>
    rw [List.length_cons] at inside
    rw [storeAll,store_ok word (by omega)]
    exact ih _ _ (by omega)

theorem push_ok (s : Parser) (word : Nat) (inside : s.temp < length) :
    s.push length word = .ok { s with words := Function.update s.words s.temp (some word), temp := s.temp + 1 } := by
  rw [Parser.push,store_ok word inside]
  rfl

theorem reserve_ok (s : Parser) {n : Nat} (room : n ≤ s.out) : s.reserve n = .ok { s with out := s.out - n } :=
  if_neg (Nat.not_lt.mpr room)

theorem prepend_ok (length : Nat) (s : Parser) (word : Nat) (room : 1 ≤ s.out) (inside : s.out ≤ length) :
    s.prepend length word = .ok { s with words := Function.update s.words (s.out - 1) (some word), out := s.out - 1 } := by
  rw [Parser.prepend,reserve_ok s room]
  have stored := @store_ok length s.words (s.out - 1) word (by omega)
  simp only [bind,Except.bind,stored]
  rfl

end

/-! ## The plain reading is followed -/

section
variable {D : Type} (w : Width) (doubles : Doubles D) (length : Nat)

/-- The parser and the plain reading at the same place; every word that is taken is
    paid for by a byte that was read, but for `slack` words. -/
structure Mirrors (slack : Nat) (s : Parser) (frame : Frame) (r : Reader D) : Prop where
  text : s.text = r.text
  whole : s.text.before.length + s.text.rest.length = length
  room : s.temp + (length - s.out) ≤ s.text.before.length + slack
  apart : s.temp ≤ s.out
  inside : s.out ≤ length
  stacked : Stacked w doubles s.words s.text.before s.out length frame s.temp r.top r.below

def Container.named : Container D → Bool
  | .array _ => false
  | .object _ key => key.isSome

/-- A value has just been read up to the end of the text, and an error is due. The last
    words may have been written over each other. -/
structure Lost (s : Parser) (frame : Frame) (r : Reader D) : Prop where
  text : s.text = r.text
  ended : s.text.rest = []
  filled : frame.base + 1 < s.temp
  filled' : r.top.filled = true
  kind : frame.kind = r.top.kind

/-- Between two turns. -/
def Following (s : Parser) (frame : Frame) (r : Reader D) : Prop :=
  Mirrors w doubles length (if r.top.filled then 1 else 0) s frame r ∧ r.top.named = false ∨ Lost s frame r

/-- Before a value. A closing bracket is paid for before it is read. -/
structure Prepared (s : Parser) (frame : Frame) (r : Reader D) : Prop where
  mirrors : Mirrors w doubles length (if (peekStructure s.text).1 = closingBracket frame.kind then 1 else 0) s frame r
  waits : r.top.waits = true ∨ (peekStructure s.text).1 = 0x7D

/-- A document that says what was read. -/
structure Holds (s : Parser) (kind : ElementType) (text : Text) (tree : Tree D) : Prop where
  text : s.text = text
  inside : s.out ≤ length
  node : Node w doubles s.words s.text.before s.out kind s.out tree

def FollowingTurn : Turn → Reading D → Prop
  | .next s frame, .next r => Following w doubles length s frame r
  | .done s kind, .done text tree => Holds w doubles length s kind text tree
  | _, _ => False

variable {w doubles length}

theorem add_filled {c : Container D} (waits : c.waits = true) (tree : Tree D) : (c.add tree).filled = true := by
  cases c with
  | array items => simp [Container.add,Container.filled]
  | object members key =>
    cases key with
    | none => exact absurd waits (by simp [Container.waits])
    | some key => simp [Container.add,Container.filled]

theorem add_named (c : Container D) (tree : Tree D) : (c.add tree).named = false := by
  cases c with
  | array items => rfl
  | object members key => cases key <;> rfl

theorem add_kind (c : Container D) (tree : Tree D) : (c.add tree).kind = c.kind := by
  cases c with
  | array items => rfl
  | object members key => cases key <;> rfl

/-- One more item. -/
theorem region_add {m : Memory} {text : List UInt8} {low high base top word : Nat} {c : Container D} {tree : Tree D}
    (region : Region w doubles m text low high base top c) (waits : c.waits = true) (at' : m top = some word)
    (element : Element w doubles m text low high (base + 1) word tree) :
    Region w doubles m text low high base (top + 1) (c.add tree) := by
  obtain ⟨words,block,rfl,held⟩ := region
  refine ⟨words ++ [word],block_append.mpr ⟨block,at',trivial⟩,by rw [List.length_append,List.length_singleton]; omega,?_⟩
  cases c with
  | array items => exact List.rel_append held (.cons element .nil)
  | object members key =>
    cases key with
    | none => exact absurd waits (by simp [Container.waits])
    | some key =>
      obtain ⟨records,pending,rfl,matched,start,finish,rfl,key'⟩ := held
      refine ⟨records ++ [⟨start,finish,word⟩],[],?_,List.rel_append matched (.cons ⟨key',element⟩ .nil),rfl⟩
      simp [Record.words]

/-- A value is added to the container on top. -/
theorem pushElement_follows (fits : length < 2 ^ typeShift w) {s : Parser} {frame : Frame} {r : Reader D} {t : ElementType}
    {tree : Tree D} (mirrors : Mirrors w doubles length 0 s frame r) (waits : r.top.waits = true) (some' : s.temp < length)
    (node : Node w doubles s.words s.text.before s.out t s.out tree) :
    Matches (FollowingTurn w doubles length) (pushElement w length frame t s) (.ok (r.add r.text tree)) := by
  have region := stacked_region mirrors.stacked
  have above := region_above region
  have apart := mirrors.apart
  have inside := mirrors.inside
  have whole := mirrors.whole
  have room := mirrors.room
  have split := size_split w
  have offset : w.minus s.out (frame.base + 1) = s.out - (frame.base + 1) := minus_eq (by omega) (by omega)
  rw [pushElement,push_ok s _ some',offset]
  have filled := add_filled waits tree
  by_cases ended : s.text.rest = []
  · refine .inr ⟨mirrors.text,ended,?_,filled,?_⟩
    · show frame.base + 1 < s.temp + 1
      omega
    · exact (stacked_kind mirrors.stacked).trans (add_kind _ _).symm
  · have more : 0 < s.text.rest.length := List.length_pos_iff.mpr ended
    set word := makeElement w t (s.out - (frame.base + 1))
    have within : Within s.temp s.out s.words (Function.update s.words s.temp (some word)) :=
      within_update (Nat.le_refl _) (by omega) _
    have stacked := stacked_frame mirrors.stacked within List.prefix_rfl (Nat.le_refl _)
    have element : Element w doubles (Function.update s.words s.temp (some word)) s.text.before s.out length (frame.base + 1)
        word tree := by
      have node' := node_frame node (within_sub within (Nat.zero_le _) (Nat.le_refl _)) List.prefix_rfl (Nat.le_refl _)
      refine ⟨t,s.out - (frame.base + 1),rfl,by omega,by omega,by omega,?_⟩
      rwa [Nat.add_sub_cancel' (by omega)]
    refine .inl ⟨⟨mirrors.text,whole,?_,by show s.temp + 1 ≤ s.out; omega,inside,?_⟩,add_named _ _⟩
    · rw [if_pos filled]
      show s.temp + 1 + (length - s.out) ≤ s.text.before.length + 1
      omega
    · exact stacked_exchange stacked (add_kind _ _)
        (region_add (stacked_region stacked) waits (Function.update_self ..) element)

/-! ### Keys -/

theorem length_words (records : List Record) : (records.flatMap Record.words).length = 3 * records.length := by
  induction records with
  | nil => rfl
  | cons record records ih =>
    rw [List.flatMap_cons,List.length_append,ih,List.length_cons,Nat.mul_add,Nat.add_comm]
    rfl

/-- The test on the pointers tells whether something is in the container. -/
theorem region_filled {m : Memory} {text : List UInt8} {low high base top : Nat} {c : Container D}
    (region : Region w doubles m text low high base top c) (unnamed : c.named = false) :
    decide (base + 1 < top) = c.filled := by
  obtain ⟨words,-,rfl,held⟩ := region
  cases c with
  | array items =>
    have count := List.Forall₂.length_eq held
    cases items with
    | nil => simp [Container.filled,List.length_eq_zero_iff.mp count]
    | cons item items => simp [Container.filled,count]
  | object members key =>
    obtain ⟨records,pending,rfl,matched,waits⟩ := held
    have none' : key = none := by simpa [Container.named] using unnamed
    subst none'
    obtain rfl : pending = [] := waits
    have count := matched.length_eq
    rw [List.append_nil,length_words]
    cases members with
    | nil => simp [Container.filled,List.length_eq_zero_iff.mp count]
    | cons member members => simp [Container.filled,count]

theorem keyError_bind {α β : Type} (x : Except Fault α) (f : α → Except Fault β) :
    keyError (x >>= f) = keyError x >>= fun a => keyError (f a) := by
  cases x with
  | ok a => rfl
  | error fault => cases fault <;> rfl

theorem scanned_key {text : Text} {scanned : Scanned} (ordered : scanned.start ≤ scanned.finish)
    (inside : scanned.finish < scanned.text.before.length) (grown : scanned.text.before <+: text.before) :
    KeyAt text.before scanned.start scanned.finish scanned.bytes :=
  keyAt_grown grown ⟨ordered,Nat.le_of_lt inside,rfl⟩

theorem parseKey_follows {s : Parser} {frame : Frame} {r : Reader D} {c : UInt8} (mirrors : Mirrors w doubles length 0 s frame r)
    (object : r.top.kind = .TYPE_OBJECT) (unnamed : r.top.named = false) (seen : peekStructure s.text = (c,s.text)) :
    Matches (fun s' (key,text') => Mirrors w doubles length 0 s' frame { r with text := text', top := r.top.name key })
      (parseKey length c s) (readKey c s.text) := by
  rw [parseKey,readKey]
  by_cases quote : c = 0x22
  · simp only [quote,ne_eq,not_true_eq_false,if_false,parseString,pure_bind,keyError_bind,bind_assoc]
    have nonempty := peek_read seen (by rw [quote]; decide)
    refine matches_bind_self (keyError_ends (readString_ends nonempty)) fun scanned decoded => ?_
    obtain ⟨-,ordered,within,advanced⟩ := decoded
    have apart := mirrors.apart
    have inside := mirrors.inside
    have whole := mirrors.whole
    have room := mirrors.room
    have longer := advanced.longer
    have total := advanced.total
    have fits : s.temp + [scanned.start,scanned.finish].length ≤ length := by
      simp only [List.length_cons,List.length_nil]
      omega
    rw [storeAll_ok _ _ _ _ fits]
    refine matches_bind_self (expectColon_ends scanned.text) fun text' advanced' => ?_
    have longer' := advanced'.longer
    have total' := advanced'.total
    have window : Within s.temp s.out s.words (writeAll s.words s.temp [scanned.start,scanned.finish]) :=
      within_writeAll (Nat.le_refl _) (by simp only [List.length_cons,List.length_nil]; omega)
    have grown := advanced.kept.trans advanced'.kept
    have stacked := stacked_frame mirrors.stacked window grown (Nat.le_refl _)
    refine ⟨rfl,?_,?_,?_,inside,?_⟩
    · show text'.before.length + text'.rest.length = length
      omega
    · show s.temp + 2 + (length - s.out) ≤ text'.before.length + 0
      omega
    · show s.temp + 2 ≤ s.out
      omega
    · cases top : r.top with
      | array items => exact absurd object (by simp [top,Container.kind])
      | object members key =>
        rw [top] at stacked unnamed
        obtain rfl : key = none := by simpa [Container.named] using unnamed
        refine stacked_exchange stacked rfl ?_
        obtain ⟨words,block,above,records,pending,rfl,matched,waits⟩ := stacked_region stacked
        obtain rfl : pending = [] := waits
        rw [List.append_nil] at block above
        refine ⟨records.flatMap Record.words ++ [scanned.start,scanned.finish],?_,?_,records,_,rfl,matched,_,_,rfl,?_⟩
        · rw [block_append,← above]
          exact ⟨block,block_writeAll⟩
        · rw [List.length_append,above]
          rfl
        · exact scanned_key ordered within advanced'.kept
  · simp only [quote,ne_eq,not_false_eq_true,if_true,error_bind]
    rfl

theorem mirrors_weaken {slack slack' : Nat} {s : Parser} {frame : Frame} {r : Reader D}
    (mirrors : Mirrors w doubles length slack s frame r) (more : slack ≤ slack') : Mirrors w doubles length slack' s frame r :=
  ⟨mirrors.text,mirrors.whole,mirrors.room.trans (Nat.add_le_add_left more _),mirrors.apart,mirrors.inside,mirrors.stacked⟩

/-- White space and a comma are read. -/
theorem mirrors_advance {slack slack' n : Nat} {s : Parser} {frame : Frame} {r : Reader D} {text : Text}
    (mirrors : Mirrors w doubles length slack s frame r) (advanced : Advanced n s.text text) (paid : slack ≤ slack' + n) :
    Mirrors w doubles length slack' { s with text := text } frame { r with text := text } := by
  have longer := advanced.longer
  have room := mirrors.room
  refine ⟨rfl,advanced.total.trans mirrors.whole,?_,mirrors.apart,mirrors.inside,?_⟩
  · show s.temp + (length - s.out) ≤ text.before.length + slack'
    omega
  · exact stacked_frame mirrors.stacked (within_refl _ _ _) advanced.kept (Nat.le_refl _)

theorem name_waits (c : Container D) (key : List UInt8) : (c.name key).waits = true := by cases c <;> rfl

theorem array_waits {c : Container D} (array : c.kind ≠ .TYPE_OBJECT) : c.waits = true := by
  cases c with
  | array items => rfl
  | object members key => exact absurd rfl array

theorem closingBracket_ne (kind : ElementType) : closingBracket kind ≠ 0 := by
  rw [closingBracket]
  split <;> decide

theorem prelude_follows {s : Parser} {frame : Frame} {r : Reader D} (following : Following w doubles length s frame r) :
    Matches (fun s' r' => Prepared w doubles length s' frame r' ∧ r'.top.kind = r.top.kind)
      (prelude length s frame) r.prelude := by
  rw [prelude,Reader.prelude]
  rcases following with ⟨mirrors,unnamed⟩ | lost
  · have kind := stacked_kind mirrors.stacked
    rw [region_filled (stacked_region mirrors.stacked) unnamed,mirrors.text,kind]
    refine matches_bind_self (separate_ends _ _ _) ?_
    rintro ⟨c,text⟩ ⟨seen,advanced⟩
    -- the comma pays for the item before it
    have paid : Mirrors w doubles length (if c = closingBracket r.top.kind then 1 else 0) { s with text := text } frame
        { r with text := text } := by
      rw [← mirrors.text] at advanced
      refine mirrors_advance mirrors advanced ?_
      by_cases closes : c = closingBracket r.top.kind <;> cases r.top.filled <;> simp [closes]
    simp only
    split
    · next keyed =>
      have opened : c ≠ closingBracket r.top.kind := by
        rw [keyed.1]
        exact keyed.2
      rw [if_neg opened] at paid
      have follows := parseKey_follows paid keyed.1 unnamed seen
      rw [← bind_pure (parseKey length c { s with text := text })]
      refine matches_bind follows ?_
      rintro s' ⟨key,text'⟩ mirrors'
      refine ⟨⟨mirrors_weaken mirrors' (Nat.zero_le _),.inl (name_waits _ _)⟩,?_⟩
      cases top : r.top <;> rfl
    · next plain =>
      refine ⟨⟨?_,?_⟩,rfl⟩
      · simpa only [seen,kind] using paid
      · simp only [seen]
        by_cases object : r.top.kind = .TYPE_OBJECT
        · exact .inr (by simpa [object] using plain)
        · exact .inl (array_waits object)
  · have nothing : peekStructure r.text = (0,r.text) := by
      have ended := lost.ended
      rw [lost.text] at ended
      rw [peek_solid (by simp [ended]),ended]
      rfl
    have open' : (0 != closingBracket r.top.kind) = true := by simpa using (closingBracket_ne r.top.kind).symm
    have missing : separate true r.top.kind r.text = error r.text.before "expected ," := by
      simp only [separate,nothing,Bool.true_and,open',if_true]
      rfl
    rw [decide_eq_true lost.filled,lost.filled',lost.text,lost.kind,missing,error_bind,error_bind]
    rfl

/-! ### Values -/

/-- A payload of no more words than bytes were read. -/
theorem mirrors_payload {n : Nat} {s : Parser} {frame : Frame} {r : Reader D} {text : Text} (stored : List Nat)
    (mirrors : Mirrors w doubles length 0 s frame r) (advanced : Advanced n s.text text) (paid : stored.length ≤ n) :
    stored.length ≤ s.out ∧ Mirrors w doubles length 0
      { s with text := text, words := writeAll s.words (s.out - stored.length) stored, out := s.out - stored.length } frame
      { r with text := text } := by
  have longer := advanced.longer
  have total := advanced.total
  have room := mirrors.room
  have whole := mirrors.whole
  have inside := mirrors.inside
  have above := region_above (stacked_region mirrors.stacked)
  have window : Within s.temp s.out s.words (writeAll s.words (s.out - stored.length) stored) :=
    within_writeAll (by omega) (by omega)
  refine ⟨by omega,rfl,total.trans whole,?_,?_,?_,?_⟩
  · show s.temp + (length - (s.out - stored.length)) ≤ text.before.length + 0
    omega
  · show s.temp ≤ s.out - stored.length
    omega
  · show s.out - stored.length ≤ length
    omega
  · exact stacked_frame mirrors.stacked window advanced.kept (Nat.sub_le _ _)

/-- There is room for the word of an item that was read. -/
theorem mirrors_room {n : Nat} {s : Parser} {frame : Frame} {r : Reader D} {text : Text}
    (mirrors : Mirrors w doubles length 0 s frame r) (advanced : Advanced (n + 1) s.text text) : s.temp + 1 ≤ s.out := by
  have longer := advanced.longer
  have total := advanced.total
  have room := mirrors.room
  have whole := mirrors.whole
  have inside := mirrors.inside
  omega

variable {sorting : Sorting}

theorem parseWord_follows (fits : length < 2 ^ typeShift w) {s : Parser} {frame : Frame} {r : Reader D} {t : ElementType}
    {tree : Tree D} (mirrors : Mirrors w doubles length 0 s frame r) (waits : r.top.waits = true)
    (node : ∀ m text low p, Node w doubles m text low t p tree) (letters : List UInt8) (message : String) :
    Matches (FollowingTurn w doubles length)
      (do let text ← parseWord letters message s.text
          pushElement w length frame t { s with text := text })
      (do let text ← parseWord letters message s.text
          return r.add text tree) := by
  refine matches_bind_self (parseWord_ends _ _ _) fun text advanced => ?_
  have room := mirrors_room mirrors advanced
  have inside := mirrors.inside
  exact pushElement_follows fits (mirrors_advance mirrors advanced (Nat.zero_le _)) waits (by show s.temp < length; omega)
    (node _ _ _ _)

theorem parseNumber_follows (fits : length < 2 ^ typeShift w) {s : Parser} {frame : Frame} {r : Reader D}
    (mirrors : Mirrors w doubles length 0 s frame r) (waits : r.top.waits = true)
    (starts : lead (s.text.rest.headD 0) = .number) :
    Matches (FollowingTurn w doubles length)
      (do let (number,text) ← parseNumber doubles s.text
          let (t,s) ← storeNumber w doubles length number { s with text := text }
          pushElement w length frame t s)
      (do let (number,text) ← parseNumber doubles s.text
          return r.add text number.tree) := by
  refine matches_bind_self (parseNumber_ends doubles starts) ?_
  rintro ⟨number,text⟩ ⟨range,advanced⟩
  have inside := mirrors.inside
  cases number with
  | integer i =>
    have room := mirrors_room mirrors (n := 0) advanced
    obtain ⟨enough,stored⟩ := mirrors_payload [integerWord i] mirrors advanced (Nat.le_refl _)
    have prepended := prepend_ok length { s with text := text } (integerWord i) enough inside
    simp only [storeNumber,prepended,bind,Except.bind,pure,Except.pure]
    refine pushElement_follows fits stored waits (by show s.temp < length; omega) ?_
    exact .integer _ i (Nat.le_refl _) block_writeAll range
  | double d =>
    have count : (doubles.words w d).length ≤ 2 := by
      rw [doubles.words_length]
      cases w <;> decide
    have room := mirrors_room mirrors (n := 1) advanced
    obtain ⟨enough,stored⟩ := mirrors_payload (doubles.words w d) mirrors advanced count
    have reserved := reserve_ok { s with text := text } enough
    have written := storeAll_ok length s.words (s.out - (doubles.words w d).length) (doubles.words w d)
      (by omega)
    simp only [storeNumber,reserved,bind,Except.bind,pure,Except.pure,written]
    exact pushElement_follows fits stored waits (by show s.temp < length; omega) (.double _ d (Nat.le_refl _) block_writeAll)

theorem parseString_follows (fits : length < 2 ^ typeShift w) {s : Parser} {frame : Frame} {r : Reader D}
    (mirrors : Mirrors w doubles length 0 s frame r) (waits : r.top.waits = true) (nonempty : s.text.rest ≠ []) :
    Matches (FollowingTurn w doubles length)
      (do let s ← parseString length s none
          pushElement w length frame .TYPE_STRING s)
      (do let scanned ← readString s.text
          return r.add scanned.text (.string scanned.bytes)) := by
  have inside := mirrors.inside
  have above := region_above (stacked_region mirrors.stacked)
  have next' := mirrors_room mirrors (n := 0) (next_advanced nonempty)
  have reserved := reserve_ok s (n := 2) (by omega)
  simp only [parseString,reserved,bind_assoc,pure_bind,ok_bind]
  refine matches_bind_self (readString_ends nonempty) fun scanned decoded => ?_
  obtain ⟨-,ordered,within,advanced⟩ := decoded
  obtain ⟨enough,stored⟩ := mirrors_payload [scanned.start,scanned.finish] mirrors advanced (Nat.le_refl _)
  have written := storeAll_ok length s.words (s.out - 2) [scanned.start,scanned.finish]
    (by simp only [List.length_cons,List.length_nil]; omega)
  simp only [written,bind,Except.bind,pure,Except.pure]
  refine pushElement_follows fits stored waits (by show s.temp < length; omega) ?_
  exact .string _ _ _ _ (Nat.le_refl _) block_writeAll (scanned_key ordered within List.prefix_rfl)

theorem opened_kind {kind : ElementType} (structure' : kind = .TYPE_ARRAY ∨ kind = .TYPE_OBJECT) :
    (Container.opened kind : Container D).kind = kind := by
  rcases structure' with rfl | rfl <;> rfl

theorem opened_region (m : Memory) (text : List UInt8) (low high base : Nat) (kind : ElementType) :
    Region w doubles m text low high base (base + 1) (Container.opened kind) := by
  refine ⟨[],trivial,rfl,?_⟩
  rw [Container.opened]
  split
  · exact .nil
  · exact ⟨[],[],rfl,.nil,rfl⟩

theorem opened_empty (kind : ElementType) : (Container.opened kind : Container D).filled = false ∧
    (Container.opened kind : Container D).named = false := by
  rw [Container.opened]
  split <;> exact ⟨rfl,rfl⟩

theorem openStructure_follows {kind : ElementType} (structure' : kind = .TYPE_ARRAY ∨ kind = .TYPE_OBJECT) {s : Parser}
    {frame : Frame} {r : Reader D} (mirrors : Mirrors w doubles length 0 s frame r) (waits : r.top.waits = true)
    (nonempty : s.text.rest ≠ []) :
    Matches (FollowingTurn w doubles length) (openStructure w length kind s frame) (.ok (r.open kind)) := by
  have advanced := next_advanced nonempty
  have room := mirrors_room mirrors (n := 0) advanced
  have inside := mirrors.inside
  have paid := mirrors.room
  have longer := advanced.longer
  have above := region_above (stacked_region mirrors.stacked)
  obtain ⟨empty,unnamed⟩ := opened_empty (D := D) kind
  rw [openStructure,push_ok { s with text := s.text.next } _ (by show s.temp < length; omega)]
  set word := makeElement w frame.kind frame.base
  have window : Within s.temp s.out s.words (Function.update s.words s.temp (some word)) :=
    within_update (Nat.le_refl _) (by omega) _
  have stacked := stacked_frame mirrors.stacked window advanced.kept (Nat.le_refl _)
  refine .inl ⟨⟨congrArg Text.next mirrors.text,advanced.total.trans mirrors.whole,?_,room,inside,?_⟩,unnamed⟩
  · rw [empty]
    show s.temp + 1 + (length - s.out) ≤ s.text.next.before.length + 0
    omega
  · have kind' := stacked_kind mirrors.stacked
    refine ⟨(opened_kind structure').symm,opened_region _ _ _ _ _ _,waits,frame.base,?_,?_,?_⟩
    · show frame.base < s.temp
      omega
    · rw [← kind']
      exact Function.update_self ..
    · rw [← kind']
      exact stacked

end

/-! ### Installing -/

section
variable {w : Width} {length : Nat}

/-- A turn takes the last words below `temp`, and puts others in front of the payloads. -/
def Moves (length : Nat) (turn : Parser → Except Fault Parser) (taken put : List Nat) : Prop :=
  put.length = taken.length ∧ ∀ (s : Parser) lo, Block s.words lo taken → s.temp = lo + taken.length → s.temp ≤ s.out →
    s.out ≤ length → ∃ m', turn s = .ok { s with words := m', temp := lo, out := s.out - taken.length } ∧
      Block m' (s.out - taken.length) put ∧ Within (s.out - taken.length) s.out s.words m'

theorem moves_moveDown (w : Width) (length word offset : Nat) : Moves length (fun s => s.moveDown w length offset) [word] [w.plus word offset] := by
  refine ⟨rfl,fun s lo block last apart inside => ?_⟩
  rw [List.length_singleton] at last
  have loaded : load s.words (s.temp - 1) = .ok word := by
    rw [load,last,Nat.add_sub_cancel,block.1]
  have prepended := prepend_ok length s (w.plus word offset) (by omega) inside
  refine ⟨Function.update s.words (s.out - 1) (some (w.plus word offset)),?_,⟨Function.update_self ..,trivial⟩,
    within_update (Nat.le_refl _) (by simp only [List.length_singleton]; omega) _⟩
  have some' : s.temp ≠ 0 := by omega
  simp only [Parser.moveDown,some',if_false,loaded,ok_bind,prepended]
  rw [last]
  rfl

theorem moves_then {turn turn' : Parser → Except Fault Parser} {taken put taken' put' : List Nat}
    (first : Moves length turn taken put) (second : Moves length turn' taken' put') :
    Moves length (fun s => turn s >>= turn') (taken' ++ taken) (put' ++ put) := by
  refine ⟨by rw [List.length_append,List.length_append,first.1,second.1],fun s lo block last apart inside => ?_⟩
  obtain ⟨block',block⟩ := block_append.mp block
  rw [List.length_append] at last ⊢
  obtain ⟨m,moved,written,within⟩ := first.2 s _ block (by omega) apart inside
  have kept := block_within block' within (.inl (by omega))
  obtain ⟨m',moved',written',within'⟩ := second.2 { s with words := m, temp := lo + taken'.length, out := s.out - taken.length }
    lo kept rfl (by simp only; omega) (by simp only; omega)
  simp only [Nat.sub_sub,Nat.add_comm taken.length] at moved' written' within'
  refine ⟨m',?_,?_,?_⟩
  · simp only [moved,ok_bind]
    exact moved'
  · refine block_append.mpr ⟨written',?_⟩
    rw [second.1,show s.out - (taken'.length + taken.length) + taken'.length = s.out - taken.length by omega]
    exact block_within written within' (.inr (Nat.le_refl _))
  · exact within_trans (within_sub within (by omega) (Nat.le_refl _)) (within_sub within' (Nat.le_refl _) (by omega))

theorem moves_iterate {ι : Type} {turn : Parser → Except Fault Parser} {taken put : ι → List Nat} (parts : List ι)
    (each : ∀ part ∈ parts, Moves length turn (taken part) (put part)) :
    Moves length (iterate turn parts.length) (parts.flatMap taken) (parts.flatMap put) := by
  induction parts using List.reverseRecOn with
  | nil =>
    refine ⟨rfl,fun s lo block last apart inside => ⟨s.words,?_,trivial,within_refl _ _ _⟩⟩
    simp only [List.flatMap_nil,List.length_nil,Nat.add_zero] at last
    simp [iterate,← last]
  | append_singleton parts part ih =>
    have before := ih fun other member => each other (List.mem_append_left _ member)
    have last := each part (List.mem_append_right _ (List.mem_singleton_self _))
    have both := moves_then last before
    rw [List.length_append,List.length_singleton,List.flatMap_append,List.flatMap_append,List.flatMap_singleton,
      List.flatMap_singleton]
    exact both

/-- A record as it is moved. -/
def Record.shifted (w : Width) (offset : Nat) (record : Record) : Record :=
  ⟨w.plus record.keyStart 0,w.plus record.keyEnd 0,w.plus record.value offset⟩

theorem moves_record (w : Width) (length offset : Nat) (record : Record) :
    Moves length (moveRecord w length offset) record.words (record.shifted w offset).words :=
  moves_then (moves_moveDown w length record.value offset)
    (moves_then (moves_moveDown w length record.keyEnd 0) (moves_moveDown w length record.keyStart 0))

/-- The word in front of what was moved. -/
theorem moves_prepend {turn : Parser → Except Fault Parser} {taken put : List Nat} (moves : Moves length turn taken put) (word : Nat)
    {s : Parser} {lo : Nat} (block : Block s.words lo taken) (last : s.temp = lo + taken.length) (above : 0 < lo)
    (apart : s.temp ≤ s.out) (inside : s.out ≤ length) :
    ∃ m', (turn s >>= fun s => s.prepend length word) =
        .ok { s with words := m', temp := lo, out := s.out - (taken.length + 1) } ∧
      Block m' (s.out - (taken.length + 1)) (word :: put) ∧ Within (s.out - (taken.length + 1)) s.out s.words m' := by
  obtain ⟨m,moved,written,within⟩ := moves.2 s lo block last apart inside
  have prepended := prepend_ok length { s with words := m, temp := lo, out := s.out - taken.length } word
    (by simp only; omega) (by simp only; omega)
  set front := s.out - (taken.length + 1) with front_def
  have shifted : s.out - taken.length - 1 = front := by omega
  have next' : front + 1 = s.out - taken.length := by omega
  simp only [shifted] at prepended
  have window : Within front (front + 1) m (Function.update m front (some word)) :=
    within_update (Nat.le_refl _) (Nat.lt_succ_self _) _
  refine ⟨_,by rw [moved,ok_bind]; exact prepended,⟨Function.update_self ..,?_⟩,?_⟩
  · rw [next']
    exact block_within written window (.inr (by omega))
  · exact within_trans (within_sub within (by omega) (Nat.le_refl _)) (within_sub window (Nat.le_refl _) (by omega))

end

section
variable {D : Type} {w : Width} {doubles : Doubles D} {length : Nat} {sorting : Sorting}

theorem related_at {α β : Type} {R : α → β → Prop} {as : List α} {bs : List β} (related : List.Forall₂ R as bs) {i : Nat} {a : α}
    {b : β} (at' : as[i]? = some a) (at'' : bs[i]? = some b) : R a b := by
  obtain ⟨below,rfl⟩ := List.getElem?_eq_some_iff.mp at'
  obtain ⟨below',rfl⟩ := List.getElem?_eq_some_iff.mp at''
  exact related.get below below'

/-- What an installation comes to: the payload of the closed container lies in front
    of the others, and what is below the container is as it was. -/
def Installed (w : Width) (doubles : Doubles D) (base : Nat) (kind : ElementType) (tree : Tree D) (s : Parser)
    (outcome : Except Fault Parser) : Prop :=
  ∃ m' temp' out', outcome = .ok { s with words := m', temp := temp', out := out' } ∧ base ≤ out' ∧ out' ≤ s.out ∧
    s.out + base ≤ out' + s.temp ∧ Within base s.out s.words m' ∧ Node w doubles m' s.text.before out' kind out' tree

/-- An element seen from the payload that it has been moved to. -/
theorem element_moved {m m' : Memory} {text : List UInt8} {low origin newBase word : Nat} {tree : Tree D}
    (fits : length < 2 ^ typeShift w) (element : Element w doubles m text low length origin word tree) (lower : newBase ≤ low)
    (inside : low ≤ length) (within : Within 0 low m m') :
    Node w doubles m' text newBase (getElementType w (w.plus word (w.minus origin newBase)))
      (newBase + getElementValue w (w.plus word (w.minus origin newBase))) tree := by
  obtain ⟨t,value,rfl,small,above,below,node⟩ := element
  have split := size_split w
  have reached := lower.trans inside
  rw [plus_minus (by omega) small (by omega) (by omega),getElementType_make (by omega),getElementValue_make (by omega),
    show newBase + (value + origin - newBase) = origin + value by omega]
  exact node_frame node within List.prefix_rfl lower

theorem offset_eq (w : Width) {origin count out : Nat} (room : count + 1 ≤ out) :
    w.minus (origin + count + 1) out = w.minus origin (out - (count + 1)) := by
  rw [Width.minus,Width.minus]
  congr 1
  omega

theorem installArray_installs (fits : length < 2 ^ typeShift w) {s : Parser} {base : Nat} {items : List (Tree D)}
    (region : Region w doubles s.words s.text.before s.out length base s.temp (.array items)) (apart : s.temp ≤ s.out)
    (inside : s.out ≤ length) :
    Installed w doubles base .TYPE_ARRAY (.array items) s (installArray w length (base + 1) s) := by
  obtain ⟨words,block,last,held⟩ := region
  have count := List.Forall₂.length_eq held
  rw [installArray,last,show base + 1 + words.length - (base + 1) = words.length by omega,offset_eq w (by omega)]
  set front := s.out - (words.length + 1)
  set offset := w.minus (base + 1) front
  have moves := moves_iterate words fun word _ => moves_moveDown w length word offset
  rw [List.flatMap_singleton',← List.map_eq_flatMap] at moves
  obtain ⟨m,installed,written,within⟩ := moves_prepend moves words.length block last (Nat.succ_pos _) apart inside
  refine ⟨m,_,front,installed,by omega,by omega,by omega,within_sub within (by omega) (Nat.le_refl _),?_⟩
  refine .array front (words.map (w.plus · offset)) items (Nat.le_refl _) (count ▸ written) (by rw [List.length_map,count]) ?_
  intro i word item at' at''
  rw [List.getElem?_map,Option.map_eq_some_iff] at at'
  obtain ⟨word,at',rfl⟩ := at'
  exact element_moved fits (related_at held at' at'') (Nat.sub_le _ _) inside (within_sub within (Nat.zero_le _) (Nat.le_refl _))

theorem readRecords_ok {words : Memory} {i : Nat} (records : List Record)
    (block : Block words i (records.flatMap Record.words)) : readRecords words i records.length = .ok records := by
  induction records generalizing i with
  | nil => rfl
  | cons record records ih =>
    rw [List.flatMap_cons,block_append] at block
    obtain ⟨⟨start,finish,value,-⟩,block⟩ := block
    have later := ih (i := i + 3) block
    simp only [List.length_cons,readRecords,load,start,finish,value,ok_bind,later]
    rfl

/-- A list of threes. -/
theorem records_of_length {words : List Nat} {n : Nat} (count : words.length = 3 * n) :
    ∃ records : List Record, words = records.flatMap Record.words ∧ records.length = n := by
  induction n generalizing words with
  | zero => exact ⟨[],List.length_eq_zero_iff.mp count,rfl⟩
  | succ n ih =>
    match words, count with
    | a :: b :: c :: words, count =>
      obtain ⟨records,rfl,same⟩ := ih (show words.length = 3 * n by simpa [Nat.mul_succ] using count)
      exact ⟨⟨a,b,c⟩ :: records,rfl,by rw [List.length_cons,same]⟩

/-- The sort leaves everything but the records alone. -/
theorem sortRecords_ok {m : Memory} {text : Text} {origin : Nat} {records : List Record} {members : List (List UInt8 × Tree D)}
    {low high : Nat} (sorting : Sorting) (length : Nat) (s : Parser) (same : s.words = m) (text' : s.text = text)
    (block : Block m origin (records.flatMap Record.words))
    (matched : List.Forall₂ (Member w doubles m text.before low high origin) records members)
    (inside : origin + 3 * records.length ≤ length) :
    ∃ sorted : List Record, sorted.Perm records ∧ sorted.Pairwise (fun a b => keyLess (b.key text.data) (a.key text.data) = false) ∧
      sortRecords sorting length origin records.length s =
        .ok { s with words := writeAll m origin (sorted.flatMap Record.words) } := by
  subst same text'
  have valid : (records.all fun record => decide (record.keyStart ≤ record.keyEnd) &&
      decide (record.keyEnd ≤ s.text.data.length)) = true := by
    rw [List.all_eq_true]
    intro record member
    obtain ⟨i,below,rfl⟩ := List.getElem_of_mem member
    have key := (matched.get below (matched.length_eq ▸ below)).1
    have longer : s.text.before.length ≤ s.text.data.length := by simp [Text.data]
    simpa using ⟨key.ordered,key.inside.trans longer⟩
  have perm := sorting.perm (fun a b => keyLess (a.key s.text.data) (b.key s.text.data)) records
  refine ⟨_,perm,sorting.sorted s.text.data records,?_⟩
  have stored := storeAll_ok length s.words origin ((sorting.sort (fun a b => keyLess (a.key s.text.data) (b.key s.text.data))
    records).flatMap Record.words) (by rw [length_words,perm.length_eq]; exact inside)
  simp only [sortRecords,readRecords_ok records block,ok_bind,valid,Bool.not_true,Bool.false_eq_true,if_false,stored]
  rfl

theorem matched_keys {m : Memory} {text : Text} {low high origin : Nat} {records : List Record}
    {members : List (List UInt8 × Tree D)} (matched : List.Forall₂ (Member w doubles m text.before low high origin) records members) :
    records.map (Record.key text.data) = members.map Prod.fst := by
  induction matched with
  | nil => rfl
  | cons member matched ih =>
    rw [List.map_cons,List.map_cons,ih]
    exact congrArg (· :: _) ((slice_grown (List.prefix_append _ _) member.1.inside).trans member.1.bytes)

/-- The records of an object come out in the order of their keys, each with its value. -/
theorem installObject_installs (fits : length < 2 ^ typeShift w) {s : Parser} {base : Nat}
    {members : List (List UInt8 × Tree D)} (region : Region w doubles s.words s.text.before s.out length base s.temp
      (.object members none)) (apart : s.temp ≤ s.out) (inside : s.out ≤ length) (within' : s.text.before.length ≤ length) :
    Installed w doubles base .TYPE_OBJECT (.object members) s (installObject w sorting length (base + 1) s) := by
  obtain ⟨words,block,last,records,pending,rfl,matched,waits⟩ := region
  obtain rfl : pending = [] := waits
  rw [List.append_nil] at block last
  have size := length_words records
  obtain ⟨sorted,perm,ordered,sorts⟩ := sortRecords_ok sorting length s rfl rfl block matched
    (by omega)
  have size' := length_words sorted
  have count := perm.length_eq
  rw [installObject,last,size,show (base + 1 + 3 * records.length - (base + 1)) / 3 = records.length by omega,sorts,ok_bind,
    Nat.mul_comm,offset_eq w (by show _ ≤ s.out; omega),← count]
  set front := s.out - (3 * sorted.length + 1)
  set m := writeAll s.words (base + 1) (sorted.flatMap Record.words)
  have window : Within (base + 1) s.temp s.words m := within_writeAll (Nat.le_refl _) (by omega)
  have moves := moves_iterate sorted fun record _ => moves_record w length (w.minus (base + 1) front) record
  obtain ⟨m',installed,written,within⟩ := moves_prepend moves sorted.length (s := { s with words := m }) block_writeAll
    (by rw [size',count,← size]; exact last) (Nat.succ_pos _) apart inside
  rw [size'] at installed written within
  have all : Within base s.out s.words m' :=
    within_trans (within_sub window (Nat.le_succ _) apart) (within_sub within (by show base ≤ front; omega) (Nat.le_refl _))
  refine ⟨m',_,front,installed,by omega,by omega,by omega,all,?_⟩
  obtain ⟨members',matched',perm'⟩ := List.perm_comp_forall₂ perm matched
  have keys := matched_keys matched'
  have sizes := matched'.length_eq
  have counts := perm'.length_eq
  refine .object front (sorted.map (Record.shifted w (w.minus (base + 1) front))) members members' (Nat.le_refl _) ?_
    (by rw [List.length_map]; omega) perm' ?_ ?_ ?_
  · rw [List.flatMap_map,← counts,← sizes]
    exact written
  · rw [← List.pairwise_map (f := Prod.fst) (R := fun a b => keyLess b a = false),← keys,List.pairwise_map]
    exact ordered
  · intro i record member at' at''
    rw [List.getElem?_map,Option.map_eq_some_iff] at at'
    obtain ⟨record,at',rfl⟩ := at'
    have key := (related_at matched' at' at'').1
    have small : s.text.before.length < w.size := by
      have := size_split w
      omega
    have start := key.ordered.trans key.inside
    rw [Record.shifted,plus_zero (by omega),plus_zero (Nat.lt_of_le_of_lt key.inside small)]
    exact key
  · intro i record member at' at''
    rw [List.getElem?_map,Option.map_eq_some_iff] at at'
    obtain ⟨record,at',rfl⟩ := at'
    exact element_moved fits (related_at matched' at' at'').2 (Nat.sub_le _ _) inside (within_sub all (Nat.zero_le _) (Nat.le_refl _))

/-- With a key that has no value the wrong words are moved, but no others are touched,
    and the length counts the members that are whole. -/
theorem installObject_broken {s : Parser} {base : Nat} {members : List (List UInt8 × Tree D)}
    {key : List UInt8} (region : Region w doubles s.words s.text.before s.out length base s.temp (.object members (some key)))
    (apart : s.temp ≤ s.out) (inside : s.out ≤ length) :
    Installed w doubles base .TYPE_OBJECT (.broken members) s (installObject w sorting length (base + 1) s) := by
  obtain ⟨words,block,last,records,pending,rfl,matched,start,finish,rfl,-⟩ := region
  obtain ⟨block,behind⟩ := block_append.mp block
  have size := length_words records
  rw [List.length_append,size] at last
  have last' : s.temp = base + 1 + (3 * records.length + 2) := last
  obtain ⟨sorted,perm,-,sorts⟩ := sortRecords_ok sorting length s rfl rfl block matched (by omega)
  have size' := length_words sorted
  have count := perm.length_eq
  rw [installObject,last',show (base + 1 + (3 * records.length + 2) - (base + 1)) / 3 = records.length by omega,sorts,ok_bind]
  set m := writeAll s.words (base + 1) (sorted.flatMap Record.words)
  have window : Within (base + 1) s.temp s.words m := within_writeAll (Nat.le_refl _) (by omega)
  have whole : Block m (base + 1) (sorted.flatMap Record.words ++ [start,finish]) := by
    refine block_append.mpr ⟨block_writeAll,?_⟩
    rw [size',count,← size]
    exact block_within behind (within_writeAll (Nat.le_refl _) (Nat.le_refl _)) (.inr (by omega))
  obtain ⟨moving,same,count'⟩ := @records_of_length ((sorted.flatMap Record.words ++ [start,finish]).drop 2) records.length
    (by rw [List.length_drop,List.length_append,size',count]; rfl)
  rw [← List.take_append_drop 2 (sorted.flatMap Record.words ++ [start,finish]),block_append,same] at whole
  have two : ((sorted.flatMap Record.words ++ [start,finish]).take 2).length = 2 := by
    rw [List.length_take,List.length_append]
    exact Nat.min_eq_left (Nat.le_add_left 2 _)
  rw [two] at whole
  set offset := w.minus (base + 1 + records.length * 3 + 1) s.out
  have moves := moves_iterate moving fun record _ => moves_record w length offset record
  have size'' := length_words moving
  obtain ⟨m',installed,written,within⟩ := moves_prepend moves records.length (s := { s with words := m }) whole.2
    (by show s.temp = _; omega) (Nat.succ_pos _) apart inside
  rw [size'',count'] at installed written within
  have whole' : records.length = members.length := List.Forall₂.length_eq matched
  have all : Within base s.out s.words m' := by
    refine within_trans (within_sub window (Nat.le_succ _) apart) (within_sub within ?_ (Nat.le_refl _))
    show base ≤ s.out - _
    omega
  exact ⟨m',_,_,installed,by show base ≤ s.out - _; omega,Nat.sub_le _ _,by show _ ≤ s.out - _ + _; omega,all,
    .broken _ members (Nat.le_refl _) ⟨whole' ▸ written.1,trivial⟩⟩

theorem install_installs (sorting : Sorting) (fits : length < 2 ^ typeShift w) {s : Parser} {base : Nat} {c : Container D}
    (region : Region w doubles s.words s.text.before s.out length base s.temp c) (apart : s.temp ≤ s.out)
    (inside : s.out ≤ length) (within' : s.text.before.length ≤ length) :
    Installed w doubles base c.kind c.close s (if c.kind = .TYPE_ARRAY then installArray w length (base + 1) s
      else installObject w sorting length (base + 1) s) := by
  cases c with
  | array items => exact installArray_installs fits region apart inside
  | object members key =>
    cases key with
    | none => exact installObject_installs fits region apart inside within'
    | some key => exact installObject_broken region apart inside

theorem rootMarker_fits (w : Width) : rootMarker w < 2 ^ typeShift w := Nat.sub_lt (Nat.two_pow_pos _) Nat.one_pos

/-- A bracket closes the container on top. -/
theorem closeStructure_follows (fits : length < 2 ^ typeShift w) {kind : ElementType}
    {s : Parser} {frame : Frame} {r : Reader D}
    (mirrors : Mirrors w doubles length (if frame.kind = kind then 1 else 0) s frame r) (nonempty : s.text.rest ≠ []) :
    Matches (FollowingTurn w doubles length) (closeStructure w sorting length kind s frame) (r.close kind) := by
  have kind' := stacked_kind mirrors.stacked
  rw [closeStructure,Reader.close,mirrors.text,kind']
  by_cases other : r.top.kind ≠ kind
  · simp only [other,ne_eq,not_false_eq_true,if_true,error_bind]
    rfl
  · have same : r.top.kind = kind := not_not.mp other
    have advanced := next_advanced nonempty
    have paid := mirrors_advance mirrors advanced (Nat.le_of_eq (by rw [kind',if_pos same]))
    obtain ⟨m',temp',out',installed,lowest,lower,used,within,node⟩ := install_installs sorting fits
      (stacked_region paid.stacked) paid.apart paid.inside (by rw [← paid.whole]; exact Nat.le_add_right _ _)
    simp only [other,if_false]
    rw [← mirrors.text,← same]
    have room := paid.room
    have inside := paid.inside
    have apart := paid.apart
    have above := region_above (stacked_region paid.stacked)
    cases below : r.below with
    | nil =>
      have stacked := paid.stacked
      rw [show ({ r with text := s.text.next } : Reader D).below = [] from below] at stacked
      obtain ⟨-,-,root,marker⟩ := stacked
      have loaded : load s.words frame.base = .ok (makeElement w r.top.kind (rootMarker w)) := by
        rw [load,root]
        simp only at marker
        rw [marker]
      simp only [loaded,ok_bind,getElementValue_make (rootMarker_fits w),if_true,ite_bind,installed]
      exact ⟨rfl,lower.trans inside,node⟩
    | cons parent below' =>
      have stacked := paid.stacked
      rw [show ({ r with text := s.text.next } : Reader D).below = parent :: below' from below] at stacked
      obtain ⟨-,-,waits,base,under,word,stacked⟩ := stacked
      have loaded : load s.words frame.base = .ok (makeElement w parent.kind base) := by
        rw [load]
        simp only at word
        rw [word]
      simp only at room inside apart lower used above
      have small : base < rootMarker w := by
        rw [rootMarker,valueMask]
        omega
      have small' := small.trans (rootMarker_fits w)
      have outer : base ≠ rootMarker w := Nat.ne_of_lt small
      simp only [loaded,ok_bind,getElementValue_make small',getElementType_make small',outer,if_false,ite_bind,installed]
      refine pushElement_follows (r := ⟨s.text.next,parent,below'⟩)
        (s := { text := s.text.next, words := m', temp := frame.base, out := out' }) fits ?_ waits ?_ node
      · refine ⟨rfl,paid.whole,?_,lowest,lower.trans inside,?_⟩
        · show frame.base + (length - out') ≤ s.text.next.before.length + 0
          omega
        · exact stacked_frame stacked within List.prefix_rfl lower
      · show frame.base < length
        omega

theorem lead_closeArray {c : UInt8} (closes : lead c = .closeArray) : c = 0x5D := by
  simp only [lead] at closes
  split_ifs at closes
  assumption

theorem lead_closeObject {c : UInt8} (closes : lead c = .closeObject) : c = 0x7D := by
  simp only [lead] at closes
  split_ifs at closes
  assumption

/-- The bracket that closes what is open, told by the kind. -/
theorem closing_slack {c : Container D} : ((0x5D : UInt8) = closingBracket c.kind ↔ c.kind = .TYPE_ARRAY) ∧
    ((0x7D : UInt8) = closingBracket c.kind ↔ c.kind = .TYPE_OBJECT) := by
  cases c with
  | array items => exact ⟨by simp [closingBracket,Container.kind],by simp [closingBracket,Container.kind]⟩
  | object members key => exact ⟨by simp [closingBracket,Container.kind],by simp [closingBracket,Container.kind]⟩

theorem parseValue_follows (fits : length < 2 ^ typeShift w) {s : Parser} {frame : Frame} {r : Reader D}
    (prepared : Prepared w doubles length s frame r) :
    Matches (FollowingTurn w doubles length) (parseValue w doubles sorting length s frame) (r.value doubles) := by
  obtain ⟨c,text,seen,advanced,head,some',-⟩ := peek_cases s.text
  have kind := stacked_kind prepared.mirrors.stacked
  have slack := prepared.mirrors
  have waits := prepared.waits
  simp only [seen] at slack waits
  have mirrors : Mirrors w doubles length (if c = closingBracket frame.kind then 1 else 0) { s with text := text } frame
      { r with text := text } := mirrors_advance slack advanced (Nat.le_add_right _ _)
  rw [parseValue,Reader.value,← prepared.mirrors.text]
  simp only [seen]
  have nonempty : lead c ≠ .ended → text.rest ≠ [] := fun some'' => some' fun zero => some'' (by rw [zero]; rfl)
  -- but for the closing brackets every byte is paid for, and a value may come
  have value : lead c ≠ .closeArray → lead c ≠ .closeObject →
      Mirrors w doubles length 0 { s with text := text } frame { r with text := text } ∧ r.top.waits = true := by
    intro notArray notObject
    have other : c ≠ closingBracket frame.kind := by
      intro closes
      rw [closingBracket] at closes
      split at closes
      · exact notObject (by rw [closes]; rfl)
      · exact notArray (by rw [closes]; rfl)
    rw [if_neg other] at mirrors
    exact ⟨mirrors,waits.resolve_right fun closes => notObject (by rw [closes]; rfl)⟩
  cases leads : lead c with
  | ended => rfl
  | unknown => rfl
  | null =>
    obtain ⟨mirrors,waits⟩ := value (by simp [leads]) (by simp [leads])
    exact parseWord_follows fits mirrors waits (fun _ _ _ p => .null p) _ _
  | false =>
    obtain ⟨mirrors,waits⟩ := value (by simp [leads]) (by simp [leads])
    exact parseWord_follows fits mirrors waits (fun _ _ _ p => .false p) _ _
  | true =>
    obtain ⟨mirrors,waits⟩ := value (by simp [leads]) (by simp [leads])
    exact parseWord_follows fits mirrors waits (fun _ _ _ p => .true p) _ _
  | number =>
    obtain ⟨mirrors,waits⟩ := value (by simp [leads]) (by simp [leads])
    exact parseNumber_follows fits mirrors waits (head ▸ leads)
  | string =>
    obtain ⟨mirrors,waits⟩ := value (by simp [leads]) (by simp [leads])
    exact parseString_follows fits mirrors waits (nonempty (by simp [leads]))
  | openArray =>
    obtain ⟨mirrors,waits⟩ := value (by simp [leads]) (by simp [leads])
    exact openStructure_follows (.inl rfl) mirrors waits (nonempty (by simp [leads]))
  | openObject =>
    obtain ⟨mirrors,waits⟩ := value (by simp [leads]) (by simp [leads])
    exact openStructure_follows (.inr rfl) mirrors waits (nonempty (by simp [leads]))
  | closeArray =>
    refine closeStructure_follows fits ?_ (nonempty (by simp [leads]))
    simpa only [lead_closeArray leads,kind,closing_slack.1] using mirrors
  | closeObject =>
    refine closeStructure_follows fits ?_ (nonempty (by simp [leads]))
    simpa only [lead_closeObject leads,kind,closing_slack.2] using mirrors

theorem parseTurn_follows (sorting : Sorting) (fits : length < 2 ^ typeShift w) {s : Parser} {frame : Frame} {r : Reader D}
    (following : Following w doubles length s frame r) :
    Matches (FollowingTurn w doubles length) (parseTurn w doubles sorting length s frame) (r.turn doubles) :=
  matches_bind (prelude_follows following) fun _ _ prepared => parseValue_follows fits prepared.1

/-- The loop comes to what the plain loop comes to, or runs out of turns with it. -/
theorem parseLoop_follows (fits : length < 2 ^ typeShift w) (fuel : Nat) {s : Parser} {frame : Frame} {r : Reader D}
    (following : Following w doubles length s frame r) :
    match parseLoop w doubles sorting length fuel s frame, Reader.loop doubles fuel r with
    | some outcome, some outcome' => Matches (fun (s,kind) (text,tree) => Holds w doubles length s kind text tree) outcome outcome'
    | none, none => True
    | _, _ => False := by
  induction fuel generalizing s frame r with
  | zero => trivial
  | succ fuel ih =>
    have turn := parseTurn_follows sorting fits following
    rw [parseLoop,Reader.loop]
    cases ran : parseTurn w doubles sorting length s frame with
    | error fault =>
      cases ran' : r.turn doubles with
      | error fault' => simpa [ran,ran',Matches] using turn
      | ok reading => simp [ran,ran',Matches] at turn
    | ok next =>
      cases ran' : r.turn doubles with
      | error fault' => simp [ran,ran',Matches] at turn
      | ok reading =>
        rw [ran,ran'] at turn
        cases next with
        | next s' frame' =>
          cases reading with
          | next r' => exact ih turn
          | done text tree => exact turn.elim
        | done s' kind =>
          cases reading with
          | next r' => exact turn.elim
          | done text tree => exact turn

end

/-! ### Whole inputs -/

section
variable {D : Type}

/-- A document that holds a tree. -/
def Document.Says (w : Width) (doubles : Doubles D) (document : Document) (tree : Tree D) : Prop :=
  Node w doubles document.words document.data document.root document.rootType document.root tree

variable {w : Width} {doubles : Doubles D} {sorting : Sorting} {fuel : Nat} {input : List UInt8}

theorem root_follows {kind : ElementType} {text : Text} (structure' : kind = .TYPE_ARRAY ∨ kind = .TYPE_OBJECT)
    (advanced : Advanced 1 ⟨[],input⟩ text) :
    Following w doubles input.length
      ⟨text,Function.update ((fun _ => none) : Memory) 0 (some (makeElement w kind (rootMarker w))),1,input.length⟩ ⟨0,kind⟩
      ⟨text,.opened kind,[]⟩ := by
  obtain ⟨empty,unnamed⟩ := opened_empty (D := D) kind
  have longer := advanced.longer
  have total := advanced.total
  simp only [List.length_nil,Nat.zero_add] at longer total
  refine .inl ⟨⟨rfl,total,?_,?_,Nat.le_refl _,?_⟩,unnamed⟩
  · simp only [empty,Nat.sub_self]
    exact longer
  · show 1 ≤ input.length
    omega
  · refine ⟨(opened_kind structure').symm,opened_region _ _ _ _ _ _,rfl,?_⟩
    rw [opened_kind structure']
    rfl

theorem finishDocument_follows {s : Parser} {kind : ElementType} {text : Text} {tree : Tree D} {length : Nat}
    (holds : Holds w doubles length s kind text tree) :
    Matches (fun document (text,tree) => document.data = text.data ∧ document.Says w doubles tree)
      (finishDocument s kind) (expectEnd text tree) := by
  obtain ⟨c,text',seen,advanced,-,-,-⟩ := peek_cases text
  rw [finishDocument,expectEnd,holds.text]
  simp only [seen]
  split
  · refine ⟨rfl,node_frame holds.node (within_refl _ _ _) ?_ (Nat.le_refl _)⟩
    rw [holds.text]
    exact advanced.kept.trans (List.prefix_append _ _)
  · rfl

/-- Every input is parsed to a document that holds its tree, or to the error that the
    plain reading comes to, at the same line and column. -/
theorem parse_follows (doubles : Doubles D) (sorting : Sorting) (allocated : Allocated w input.length)
    (enough : input.length ≤ fuel) :
    ∃ outcome outcome', parse w doubles sorting fuel input = some outcome ∧ read doubles fuel input = some outcome' ∧
      Matches (fun document (text,tree) => document.data = text.data ∧ document.Says w doubles tree) outcome outcome' := by
  obtain ⟨outcome',reads,-⟩ := read_ends doubles input enough
  have opened := openRoot_ends ⟨[],input⟩
  rw [reads]
  rw [read] at reads
  rw [parse]
  cases opens : openRoot ⟨[],input⟩ with
  | error fault =>
    simp only [opens,Option.some.injEq] at reads
    exact ⟨_,_,rfl,rfl,by rw [← reads]; rfl⟩
  | ok root =>
    obtain ⟨kind,text⟩ := root
    obtain ⟨structure',advanced⟩ := ends_of_ok opened opens
    have some' : 0 < input.length := by
      have left := advanced.left
      simp only at left
      omega
    have pushed := @push_ok input.length ⟨text,fun _ => none,0,input.length⟩ (makeElement w kind (rootMarker w)) some'
    have looped := @parseLoop_follows D w doubles input.length sorting (allocated_fits allocated) fuel _ _ _
      (root_follows structure' advanced)
    simp only [opens] at reads
    simp only [pushed]
    cases ran : Reader.loop doubles fuel ⟨text,.opened kind,[]⟩ with
    | none => simp [ran] at reads
    | some result' =>
      rw [ran] at looped reads
      simp only [Option.map_some,Option.some.injEq] at reads
      cases ran' : parseLoop w doubles sorting input.length fuel
          ⟨text,Function.update ((fun _ => none) : Memory) 0 (some (makeElement w kind (rootMarker w))),0 + 1,input.length⟩ ⟨0,kind⟩ with
      | none => simp [ran'] at looped
      | some result =>
        simp only [ran'] at looped
        refine ⟨_,_,rfl,rfl,?_⟩
        rw [← reads]
        exact matches_bind looped fun _ _ holds => finishDocument_follows holds

end
end OpenRune.Sajson
