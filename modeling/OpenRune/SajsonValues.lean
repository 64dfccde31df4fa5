import OpenRune.BinarySearches
import OpenRune.SajsonDocuments

/-!
# The values of a document

What the accessors give back is the tree, and a key is found wherever the sort has put it.
-/
namespace OpenRune.Sajson
open OpenRune.BinarySearches OpenRune.Comparators OpenRune.CppStrings OpenRune.Memories OpenRune.Outcomes

/-- A value of a document: its type, and where its payload lies. -/
structure Value where
  valueType : ElementType
  payload : Nat
  deriving DecidableEq

def Document.getRoot (document : Document) : Value := ⟨document.rootType,document.root⟩

/-- `assert_type` and `assert_type_2`. -/
def Value.assertType (v : Value) (among : List ElementType) : Except Fault Unit :=
  if v.valueType ∈ among then .ok () else .error .undefined

/-- The bytes between two places of the text, which have to lie in it. -/
def Document.substring (document : Document) (start finish : Nat) : Except Fault (List UInt8) :=
  if start ≤ finish ∧ finish ≤ document.data.length then .ok (slice document.data start finish) else .error .undefined

section
variable (w : Width) (document : Document)

/-- What the word of an element leads to. -/
def Value.follow (v : Value) (element : Nat) : Value := ⟨getElementType w element,v.payload + getElementValue w element⟩

def Value.getLength (v : Value) : Except Fault Nat := do
  v.assertType [.TYPE_ARRAY,.TYPE_OBJECT]
  load document.words v.payload

def Value.getArrayElement (v : Value) (index : Nat) : Except Fault Value := do
  v.assertType [.TYPE_ARRAY]
  let element ← load document.words (v.payload + (1 + index))
  return v.follow w element

def Value.getObjectKey (v : Value) (index : Nat) : Except Fault (List UInt8) := do
  v.assertType [.TYPE_OBJECT]
  let start ← load document.words (v.payload + 1 + index * 3)
  let finish ← load document.words (v.payload + 1 + index * 3 + 1)
  document.substring start finish

def Value.getObjectValue (v : Value) (index : Nat) : Except Fault Value := do
  v.assertType [.TYPE_OBJECT]
  let element ← load document.words (v.payload + (3 + index * 3))
  return v.follow w element

/-- `object_key_comparator` on a record and a key. The size of the record's own key is a
    difference of words, and bytes are only compared where the sizes agree. -/
def Record.before (record : Record) (key : List UInt8) : Except Fault Bool := do
  let size := w.minus record.keyEnd record.keyStart
  if size < key.length then return true
  if key.length < size then return false
  let own ← document.substring record.keyStart (record.keyStart + size)
  return decide (memcmp own key < 0)

/-- Whether the record that the search has come to is that of the key. -/
def Record.named (record : Record) (key : List UInt8) : Except Fault Bool := do
  if w.minus record.keyEnd record.keyStart ≠ key.length then return false
  let own ← document.substring record.keyStart (record.keyStart + key.length)
  return decide (memcmp key own = 0)

/-- The place of a key, or the length if there is no such key. -/
def Value.findObjectKey (v : Value) (key : List UInt8) : Except Fault Nat := do
  v.assertType [.TYPE_OBJECT]
  let length ← v.getLength document
  let records ← readRecords document.words (v.payload + 1) length
  let i ← lowerBoundM (fun i => records[i]?.elim (pure false) fun record => record.before w document key) 0 length
  let found ← records[i]?.elim (pure false) fun record => record.named w document key
  return if found then i else length

def Value.getIntegerValue (v : Value) : Except Fault Int := do
  v.assertType [.TYPE_INTEGER]
  let word ← load document.words v.payload
  return if word % 2 ^ 32 < 2 ^ 31 then (word % 2 ^ 32 : Nat) else (word % 2 ^ 32 : Nat) - 2 ^ 32

def Value.asString (v : Value) : Except Fault (List UInt8) := do
  v.assertType [.TYPE_STRING]
  let start ← load document.words v.payload
  let finish ← load document.words (v.payload + 1)
  document.substring start finish

/-- A value that shows a tree to everyone who asks it; what an object without its last
    value shows is its length. -/
inductive Value.Shows {D : Type} (doubles : Doubles D) : Value → Tree D → Prop
  | null (v : Value) (valueType : v.valueType = .TYPE_NULL) : v.Shows doubles .null
  | false (v : Value) (valueType : v.valueType = .TYPE_FALSE) : v.Shows doubles .false
  | true (v : Value) (valueType : v.valueType = .TYPE_TRUE) : v.Shows doubles .true
  | integer (v : Value) (i : Int) (valueType : v.valueType = .TYPE_INTEGER) (read : v.getIntegerValue document = .ok i) :
      v.Shows doubles (.integer i)
  | double (v : Value) (d : D) (valueType : v.valueType = .TYPE_DOUBLE)
      (read : Block document.words v.payload (doubles.words w d)) : v.Shows doubles (.double d)
  | string (v : Value) (bytes : List UInt8) (valueType : v.valueType = .TYPE_STRING) (read : v.asString document = .ok bytes) :
      v.Shows doubles (.string bytes)
  | array (v : Value) (items : List (Tree D)) (elements : Nat → Value) (valueType : v.valueType = .TYPE_ARRAY)
      (length : v.getLength document = .ok items.length)
      (element : ∀ i < items.length, v.getArrayElement w document i = .ok (elements i))
      (shown : ∀ (i : Nat) (item : Tree D), items[i]? = some item → (elements i).Shows doubles item) :
      v.Shows doubles (.array items)
  | object (v : Value) (members members' : List (List UInt8 × Tree D)) (elements : Nat → Value)
      (valueType : v.valueType = .TYPE_OBJECT) (length : v.getLength document = .ok members.length)
      (order : members'.Perm members)
      (key : ∀ (i : Nat) (member : List UInt8 × Tree D), members'[i]? = some member →
        v.getObjectKey document i = .ok member.1)
      (element : ∀ i < members.length, v.getObjectValue w document i = .ok (elements i))
      (absent : ∀ key, key ∉ members.map Prod.fst → v.findObjectKey w document key = .ok members.length)
      (found : ∀ key, key ∈ members.map Prod.fst → ∃ i member, v.findObjectKey w document key = .ok i ∧
        members'[i]? = some member ∧ member.1 = key)
      (shown : ∀ (i : Nat) (member : List UInt8 × Tree D), members'[i]? = some member → (elements i).Shows doubles member.2) :
      v.Shows doubles (.object members)
  | broken (v : Value) (members : List (List UInt8 × Tree D)) (valueType : v.valueType = .TYPE_OBJECT)
      (length : v.getLength document = .ok members.length) : v.Shows doubles (.broken members)

end

/-! ## Keys -/

/-- What the keys are ordered by. -/
def rank (key : List UInt8) : Nat ×ₗ List Nat := toLex (key.length,key.map UInt8.toNat)

theorem rank_injective : Function.Injective rank := by
  intro as bs same
  have bytes : as.map UInt8.toNat = bs.map UInt8.toNat := congrArg (fun r => (ofLex r).2) same
  exact List.map_injective_iff.mpr (fun _ _ => UInt8.toNat_inj.mp) bytes

/-- Of keys of one length none is used up before the other. -/
theorem lexCompare_tie {α : Type} {cmp : α → α → Int} {tie tie' : Nat → Nat → Int} (agree : tie 0 0 = tie' 0 0) {as bs : List α}
    (same : as.length = bs.length) : lexCompare cmp tie as bs = lexCompare cmp tie' as bs := by
  induction as generalizing bs with
  | nil =>
    obtain rfl := List.length_eq_zero_iff.mp same.symm
    exact agree
  | cons a as ih =>
    cases bs with
    | nil => exact absurd same (by simp)
    | cons b bs =>
      rw [lexCompare,lexCompare,ih (by simpa using same)]

theorem memcmp_orders {as bs : List UInt8} (same : as.length = bs.length) :
    (memcmp as bs < 0 ↔ as.map UInt8.toNat < bs.map UInt8.toNat) ∧ (memcmp as bs = 0 ↔ as = bs) := by
  have bytes : OrdersBy (fun a b : UInt8 => (a.toNat : Int) - b.toNat) UInt8.toNat := ⟨by intros; omega,by intros; omega⟩
  have sizes : OrdersBy (fun a b : Nat => (a : Int) - b) id := ⟨by intros; simp,by intros; simp⟩
  have orders := lexCompare_orders bytes sizes
  have tied : memcmp as bs = lexCompare (fun a b : UInt8 => (a.toNat : Int) - b.toNat) (fun a b => (a : Int) - b) as bs :=
    lexCompare_tie (by simp) same
  rw [tied]
  refine ⟨orders.less as bs,(orders.equal as bs).trans ?_⟩
  exact (List.map_injective_iff.mpr fun _ _ => UInt8.toNat_inj.mp).eq_iff

theorem keyLess_iff (as bs : List UInt8) : keyLess as bs = true ↔ rank as < rank bs := by
  rw [rank,rank,Prod.Lex.toLex_lt_toLex,keyLess,Bool.or_eq_true,Bool.and_eq_true,decide_eq_true_eq,decide_eq_true_eq,
    decide_eq_true_eq]
  exact or_congr_right (and_congr_right fun same => (memcmp_orders same).1)

/-! ## Lookups -/

section
variable {D : Type} {w : Width} {doubles : Doubles D} {document : Document}

/-- In a list that is sorted by its keys the binary search finds every key. -/
theorem lowerBound_sorted {keys : List (List UInt8)} (sorted : keys.Pairwise fun a b => keyLess b a = false) (key : List UInt8) :
    (key ∈ keys → keys[lowerBound (fun i => keys[i]?.any (keyLess · key)) 0 keys.length]? = some key) := by
  intro member
  have ordered : keys.Pairwise fun a b => rank a ≤ rank b :=
    sorted.imp fun greater => not_lt.mp fun less => by simp [(keyLess_iff _ _).mpr less] at greater
  have ranks : ∀ (i j : Nat) (a b : List UInt8), i ≤ j → keys[i]? = some a → keys[j]? = some b → rank a ≤ rank b := by
    intro i j a b le first second
    obtain ⟨inside,rfl⟩ := List.getElem?_eq_some_iff.mp first
    obtain ⟨inside',rfl⟩ := List.getElem?_eq_some_iff.mp second
    rcases Nat.lt_or_eq_of_le le with less | rfl
    · exact List.pairwise_iff_getElem.mp ordered i j inside inside' less
    · exact le_refl _
  obtain ⟨-,below,before,behind⟩ := @lowerBound_spec (fun i => keys[i]?.any (keyLess · key)) 0 keys.length (by
    intro i j _ le inside holds
    rw [Nat.zero_add] at inside
    have at' := List.getElem?_eq_getElem (Nat.lt_of_le_of_lt le inside)
    have at'' := List.getElem?_eq_getElem inside
    simp only [at',at'',Option.any_some,keyLess_iff] at holds ⊢
    exact lt_of_le_of_lt (ranks i j _ _ le at' at'') holds)
  set i := lowerBound (fun i => keys[i]?.any (keyLess · key)) 0 keys.length
  obtain ⟨j,inside,rfl⟩ := List.getElem_of_mem member
  -- the key itself is not before the place
  have reached : i ≤ j := by
    by_contra after
    have less := before j (Nat.zero_le _) (not_le.mp after)
    simp only [List.getElem?_eq_getElem inside,Option.any_some,keyLess_iff,lt_irrefl] at less
  have at' := List.getElem?_eq_getElem (Nat.lt_of_le_of_lt reached inside)
  have notLess := behind i (Nat.le_refl _) (by omega)
  simp only [at',Option.any_some] at notLess
  have least : rank keys[j] ≤ rank keys[i] := not_lt.mp fun less => by simp [(keyLess_iff _ _).mpr less] at notLess
  have most := ranks i j _ _ reached at' (List.getElem?_eq_getElem inside)
  rw [at',rank_injective (le_antisymm most least)]

/-- The own key of a record, where the text is no longer than a word can tell. -/
theorem own_key {record : Record} {own : List UInt8} (at' : KeyAt document.data record.keyStart record.keyEnd own)
    (fits : document.data.length < w.size) :
    w.minus record.keyEnd record.keyStart = own.length ∧
      document.substring record.keyStart (record.keyStart + own.length) = .ok own := by
  have count : own.length = record.keyEnd - record.keyStart := by
    rw [← at'.bytes,slice,List.length_drop,List.length_take,Nat.min_eq_left at'.inside]
  have size := minus_eq at'.ordered (Nat.lt_of_le_of_lt at'.inside fits)
  refine ⟨size.trans count.symm,?_⟩
  have finish : record.keyStart + own.length = record.keyEnd := by
    have ordered := at'.ordered
    omega
  rw [finish,Document.substring,if_pos ⟨at'.ordered,at'.inside⟩,at'.bytes]

/-- The comparator orders a record by its key. -/
theorem record_before {record : Record} {own : List UInt8} (at' : KeyAt document.data record.keyStart record.keyEnd own)
    (fits : document.data.length < w.size) (key : List UInt8) : record.before w document key = .ok (keyLess own key) := by
  obtain ⟨size,bytes⟩ := own_key at' fits
  simp only [Record.before,size,bytes,keyLess]
  rcases lt_trichotomy own.length key.length with less | same | greater
  · rw [if_pos less,decide_eq_true less,Bool.true_or]
    rfl
  · rw [if_neg same.not_lt,if_neg same.not_gt,decide_eq_false same.not_lt,decide_eq_true same,Bool.false_or,Bool.true_and]
    rfl
  · rw [if_neg greater.not_gt,if_pos greater,decide_eq_false greater.not_gt,decide_eq_false greater.ne',Bool.false_and,Bool.or_false]
    rfl

/-- The test behind the search accepts the key and no other. -/
theorem record_named {record : Record} {own : List UInt8} (at' : KeyAt document.data record.keyStart record.keyEnd own)
    (fits : document.data.length < w.size) (key : List UInt8) : record.named w document key = .ok (decide (own = key)) := by
  obtain ⟨size,bytes⟩ := own_key at' fits
  rw [Record.named,size]
  by_cases same : own.length = key.length
  · rw [← same,bytes,if_neg (not_not.mpr rfl)]
    have equal : memcmp key own = 0 ↔ own = key := (memcmp_orders same.symm).2.trans eq_comm
    exact congrArg Except.ok (decide_eq_decide.mpr equal)
  · have other : own ≠ key := fun equal => same (congrArg List.length equal)
    rw [if_pos same,decide_eq_false other]
    rfl

theorem block_record {m : Memory} {lo : Nat} {records : List Record} (block : Block m lo (records.flatMap Record.words)) {i : Nat}
    {record : Record} (at' : records[i]? = some record) : Block m (lo + i * 3) record.words := by
  induction records generalizing lo i with
  | nil => simp at at'
  | cons first records ih =>
    rw [List.flatMap_cons,block_append] at block
    cases i with
    | zero =>
      obtain rfl : first = record := by simpa using at'
      simpa using block.1
    | succ i =>
      have later := ih block.2 (by simpa using at')
      rwa [show lo + first.words.length + i * 3 = lo + (i + 1) * 3 by simp [Record.words]; omega] at later

theorem load_ok {m : Memory} {i word : Nat} (at' : m i = some word) : load m i = .ok word := by rw [load,at']

/-- The first word of the payload of an array or an object is its length. -/
theorem length_ok {valueType : ElementType} {p length : Nat} (counted : valueType = .TYPE_ARRAY ∨ valueType = .TYPE_OBJECT)
    (at' : document.words p = some length) : (Value.mk valueType p).getLength document = .ok length := by
  rcases counted with rfl | rfl
  · exact load_ok at'
  · exact load_ok at'

theorem substring_ok {start finish : Nat} {bytes : List UInt8} (at' : KeyAt document.data start finish bytes) :
    document.substring start finish = .ok bytes := by
  rw [Document.substring,if_pos ⟨at'.ordered,at'.inside⟩,at'.bytes]

theorem integer_shown {p : Nat} {i : Int} (at' : document.words p = some (integerWord i))
    (range : -2147483559 ≤ i ∧ i ≤ 2147483559) : (Value.mk .TYPE_INTEGER p).getIntegerValue document = .ok i := by
  simp only [Value.getIntegerValue,Value.assertType,List.mem_singleton,if_true,load_ok at',ok_bind,integerWord]
  congr 1
  split <;> omega

/-- The records of an object in memory, by place. -/
theorem object_shown {p : Nat} {records : List Record} {members members' : List (List UInt8 × Tree D)}
    (block : Block document.words p (members.length :: records.flatMap Record.words)) (count : records.length = members.length)
    (order : members'.Perm members) (sorted : members'.Pairwise fun a b => keyLess b.1 a.1 = false)
    (keys : ∀ (i : Nat) (record : Record) (member : List UInt8 × Tree D), records[i]? = some record →
      members'[i]? = some member → KeyAt document.data record.keyStart record.keyEnd member.1)
    (fits : document.data.length < w.size) (key : List UInt8) :
    (key ∉ members.map Prod.fst → (Value.mk .TYPE_OBJECT p).findObjectKey w document key = .ok members.length) ∧
      (key ∈ members.map Prod.fst → ∃ i member, (Value.mk .TYPE_OBJECT p).findObjectKey w document key = .ok i ∧
        members'[i]? = some member ∧ member.1 = key) := by
  have count' : members'.length = records.length := by rw [order.length_eq,count]
  have among : key ∈ members.map Prod.fst ↔ key ∈ members'.map Prod.fst := (order.map Prod.fst).mem_iff.symm
  have read := readRecords_ok records (i := p + 1) block.2
  -- the records and the members stand side by side
  have beside (i : Nat) : (records[i]? = none ∧ members'[i]? = none) ∨
      ∃ record member, records[i]? = some record ∧ members'[i]? = some member := by
    by_cases inside : i < records.length
    · exact .inr ⟨_,_,List.getElem?_eq_getElem inside,List.getElem?_eq_getElem (count' ▸ inside)⟩
    · exact .inl ⟨List.getElem?_eq_none (not_lt.mp inside),List.getElem?_eq_none (by omega)⟩
  set place := lowerBound (fun i => (members'.map Prod.fst)[i]?.any (keyLess · key)) 0 members.length with place_def
  have search : lowerBoundM (fun i => records[i]?.elim (pure false) fun record => record.before w document key) 0 members.length =
      .ok place := by
    refine lowerBoundM_pure fun i _ _ => ?_
    rw [List.getElem?_map]
    rcases beside i with ⟨at',at''⟩ | ⟨record,member,at',at''⟩
    · rw [at',at'']
      rfl
    · rw [at',at'',Option.elim_some,record_before (keys i record member at' at'') fits]
      rfl
  have test : (records[place]?.elim (pure false) fun record => record.named w document key) =
      .ok (members'[place]?.any fun member => decide (member.1 = key)) := by
    rcases beside place with ⟨at',at''⟩ | ⟨record,member,at',at''⟩
    · rw [at',at'']
      rfl
    · rw [at',at'',Option.elim_some,record_named (keys place record member at' at'') fits]
      rfl
  have finds : (Value.mk .TYPE_OBJECT p).findObjectKey w document key =
      .ok (if members'[place]?.any fun member => decide (member.1 = key) then place else members.length) := by
    rw [count] at read
    simp only [Value.findObjectKey,Value.assertType,List.mem_singleton,if_true,length_ok (.inr rfl) block.1,ok_bind,read,search,test]
    rfl
  constructor
  · intro absent
    rw [finds,if_neg]
    intro found
    obtain ⟨member,at',same⟩ := (Option.any_eq_true _ _).mp found
    refine absent (among.mpr (List.mem_map.mpr ⟨member,List.mem_of_getElem? at',by simpa using same⟩))
  · intro present
    have sorted' : (members'.map Prod.fst).Pairwise fun a b => keyLess b a = false := List.pairwise_map.mpr sorted
    have found := lowerBound_sorted sorted' key (among.mp present)
    rw [List.length_map,order.length_eq,← place_def,List.getElem?_map,Option.map_eq_some_iff] at found
    obtain ⟨member,at',same⟩ := found
    refine ⟨place,member,?_,at',same⟩
    rw [finds,at',Option.any_some,if_pos (decide_eq_true same)]

/-- What lies in memory is what the accessors show. -/
theorem node_shows {low p : Nat} {t : ElementType} {tree : Tree D}
    (node : Node w doubles document.words document.data low t p tree) (fits : document.data.length < w.size) :
    (Value.mk t p).Shows w document doubles tree := by
  induction node with
  | null p => exact .null _ rfl
  | false p => exact .false _ rfl
  | true p => exact .true _ rfl
  | integer p i above block range => exact .integer _ i rfl (integer_shown block.1 range)
  | double p d above block => exact .double _ d rfl block
  | string p start finish bytes above block key =>
    refine .string _ bytes rfl ?_
    simp only [Value.asString,Value.assertType,List.mem_singleton,if_true,ok_bind,load_ok block.1,load_ok block.2.1,
      substring_ok key]
  | array p words items above block count nodes ih =>
    refine .array _ items (fun i => (Value.mk .TYPE_ARRAY p).follow w (words.getD i 0)) rfl ?_ ?_ ?_
    · exact length_ok (.inl rfl) block.1
    · intro i inside
      have at' := List.getElem?_eq_getElem (show i < words.length by omega)
      have loaded := load_ok (block_get block (i := 1 + i) (by rw [Nat.add_comm,List.getElem?_cons_succ]; exact at'))
      simp only [Value.getArrayElement,Value.assertType,List.mem_singleton,if_true,ok_bind,loaded,List.getD,at',Option.getD_some]
      rfl
    · intro i item at'
      have inside := (List.getElem?_eq_some_iff.mp at').1
      have at'' := List.getElem?_eq_getElem (show i < words.length by omega)
      have shown := ih i _ item at'' at'
      simpa only [Value.follow,List.getD,at'',Option.getD_some] using shown
  | object p records members members' above block count order sorted keys nodes ih =>
    have find := object_shown block count order sorted keys fits
    have counts := order.length_eq
    refine .object _ members members' (fun i => (Value.mk .TYPE_OBJECT p).follow w ((records[i]?.map Record.value).getD 0)) rfl
      ?_ order ?_ ?_ (fun key => (find key).1) (fun key => (find key).2) ?_
    · exact length_ok (.inr rfl) block.1
    · intro i member at'
      have inside := (List.getElem?_eq_some_iff.mp at').1
      have at'' := List.getElem?_eq_getElem (show i < records.length by omega)
      obtain ⟨start,finish,-⟩ := block_record block.2 at''
      simp only [Value.getObjectKey,Value.assertType,List.mem_singleton,if_true,ok_bind,load_ok start,load_ok finish,
        substring_ok (keys i _ member at'' at')]
    · intro i inside
      have at' := List.getElem?_eq_getElem (show i < records.length by omega)
      obtain ⟨-,-,value,-⟩ := block_record block.2 at'
      rw [show p + 1 + i * 3 + 1 + 1 = p + (3 + i * 3) by omega] at value
      simp only [Value.getObjectValue,Value.assertType,List.mem_singleton,if_true,ok_bind,load_ok value,at',Option.map_some,
        Option.getD_some]
      rfl
    · intro i member at'
      have inside := (List.getElem?_eq_some_iff.mp at').1
      have at'' := List.getElem?_eq_getElem (show i < records.length by omega)
      have shown := ih i _ member at'' at'
      simpa only [Value.follow,at'',Option.map_some,Option.getD_some] using shown
  | broken p members above block => exact .broken _ members rfl (length_ok (.inr rfl) block.1)

end

/-! ## Asking a value that is shown -/

section
variable {D : Type} {w : Width} {doubles : Doubles D} {document : Document} {v : Value}

def Tree.elementType : Tree D → ElementType
  | .null => .TYPE_NULL
  | .false => .TYPE_FALSE
  | .true => .TYPE_TRUE
  | .integer _ => .TYPE_INTEGER
  | .double _ => .TYPE_DOUBLE
  | .string _ => .TYPE_STRING
  | .array _ => .TYPE_ARRAY
  | .object _ => .TYPE_OBJECT
  | .broken _ => .TYPE_OBJECT

/-- Nothing but a string may be taken for one. -/
def Tree.asString : Tree D → Except Fault (List UInt8)
  | .string bytes => .ok bytes
  | _ => .error .undefined

theorem shown_type {tree : Tree D} (shown : v.Shows w document doubles tree) : v.valueType = tree.elementType := by
  cases shown <;> assumption

theorem shown_string {tree : Tree D} (shown : v.Shows w document doubles tree) : v.asString document = tree.asString := by
  have other (valueType : v.valueType ≠ .TYPE_STRING) : v.asString document = .error .undefined := by
    simp only [Value.asString,Value.assertType,List.mem_singleton,if_neg valueType]
    rfl
  have typed := shown_type shown
  cases shown with
  | string _ bytes valueType read => exact read
  | _ => exact other (by rw [typed]; simp [Tree.elementType])

theorem error_only (tree : Tree D) (fault : Fault) (fails : tree.asString = .error fault) : fault = .undefined := by
  cases tree <;> cases fails <;> rfl

/-- What is read at the places of an array. -/
theorem shown_items {β : Type} {items : List (Tree D)} (shown : v.Shows w document doubles (.array items))
    {f : Value → Except Fault β} {g : Tree D → Except Fault β}
    (same : ∀ element item, element.Shows w document doubles item → f element = g item) :
    v.getLength document = .ok items.length ∧
      (List.range items.length).map (fun i => v.getArrayElement w document i >>= f) = items.map g := by
  cases shown with
  | array _ _ elements valueType length element shown =>
    refine ⟨length,map_range fun i item at' => ?_⟩
    rw [element i (List.getElem?_eq_some_iff.mp at').1,ok_bind]
    exact same _ _ (shown i item at')

/-- A loop over the members of an object comes to all of them, in the order of their
    keys. -/
theorem shown_members {β : Type} {members : List (List UInt8 × Tree D)} (shown : v.Shows w document doubles (.object members))
    {f : List UInt8 → Value → Except Fault β} {g : List UInt8 × Tree D → Except Fault β}
    (same : ∀ element member, element.Shows w document doubles member.2 → f member.1 element = g member) :
    ∃ members' : List (List UInt8 × Tree D), members'.Perm members ∧
      (v.getLength document >>= fun count => (List.range count).mapM fun i => do
        let key ← v.getObjectKey document i
        let element ← v.getObjectValue w document i
        f key element) = members'.mapM g := by
  cases shown with
  | object _ _ members' elements valueType length order key element absent found shown =>
    refine ⟨members',order,?_⟩
    rw [length,ok_bind,← order.length_eq]
    refine mapM_range fun i member at' => ?_
    have inside := (List.getElem?_eq_some_iff.mp at').1
    rw [key i member at',ok_bind,element i (by rwa [← order.length_eq]),ok_bind]
    exact same _ _ (shown i member at')

theorem lookup_member {members : List (List UInt8 × Tree D)} (distinct : (members.map Prod.fst).Nodup)
    {member : List UInt8 × Tree D} (present : member ∈ members) : members.lookup member.1 = some member.2 := by
  obtain ⟨before,behind,rfl⟩ := List.append_of_mem present
  refine List.lookup_eq_some_iff.mpr ⟨before,behind,rfl,fun other among => ?_⟩
  rw [List.map_append,List.nodup_append] at distinct
  have apart := distinct.2.2 other.1 (List.mem_map_of_mem among) member.1 (by simp)
  simpa using Ne.symm apart

/-- The search for a key comes to its member, and to the length if there is none. -/
theorem shown_lookup {members : List (List UInt8 × Tree D)} (shown : v.Shows w document doubles (.object members))
    (distinct : (members.map Prod.fst).Nodup) (key : List UInt8) :
    v.getLength document = .ok members.length ∧
      ((members.lookup key = none ∧ v.findObjectKey w document key = .ok members.length) ∨
        ∃ i element tree, members.lookup key = some tree ∧ v.findObjectKey w document key = .ok i ∧ i ≠ members.length ∧
          v.getObjectValue w document i = .ok element ∧ element.Shows w document doubles tree) := by
  cases shown with
  | object _ _ members' elements valueType length order _ element absent found shown =>
    refine ⟨length,?_⟩
    by_cases present : key ∈ members.map Prod.fst
    · obtain ⟨i,member,finds,at',rfl⟩ := found key present
      have inside := (List.getElem?_eq_some_iff.mp at').1
      rw [order.length_eq] at inside
      have among : member ∈ members := order.mem_iff.mp (List.mem_of_getElem? at')
      exact .inr ⟨i,elements i,member.2,lookup_member distinct among,finds,Nat.ne_of_lt inside,element i inside,shown i member at'⟩
    · refine .inl ⟨List.lookup_eq_none_iff.mpr fun member among => ?_,absent key present⟩
      have other : key ≠ member.1 := fun same => present (List.mem_map.mpr ⟨member,among,same.symm⟩)
      simpa using other

end

/-! ## The parts from outside -/

/-- Doubles as the machine has them. -/
def floatDoubles : Doubles Float where
  ofInt := Float.ofInt
  plus := (· + ·)
  times := (· * ·)
  negated d := -d
  zero := 0
  infinity := 1 / 0
  power n := if n < 323 then Float.ofScientific 1 true (323 - n) else Float.ofScientific 1 false (n - 323)
  words w d := match w with
    | .x86 => [d.toBits.toNat % 2 ^ 32,d.toBits.toNat / 2 ^ 32]
    | .x64 => [d.toBits.toNat]
  words_length w d := by cases w <;> rfl

/-- A sort that leaves equal keys in their order. -/
def stableSorting : Sorting where
  sort less records := records.mergeSort fun a b => !less b a
  perm less records := List.mergeSort_perm records _
  sorted data records := by
    have ranks : ∀ a b : Record, (!keyLess (b.key data) (a.key data)) = true ↔ rank (a.key data) ≤ rank (b.key data) := by
      intro a b
      rw [Bool.not_eq_true',Bool.eq_false_iff,Ne,keyLess_iff,not_lt]
    have ordered : (records.mergeSort fun a b => !keyLess (b.key data) (a.key data)).Pairwise _ := List.pairwise_mergeSort
      (fun a b c first second => (ranks a c).mpr (le_trans ((ranks a b).mp first) ((ranks b c).mp second)))
      (fun a b => by
        rw [Bool.or_eq_true,ranks,ranks]
        exact le_total _ _) records
    exact ordered.imp fun less => by simpa using less

/-! ## Whole documents -/

section
variable {D : Type} {w : Width} {fuel : Nat} {input : List UInt8}

/-- Whatever the input is, the parser reads and writes nothing outside of the text and
    of its array, and comes to an end within a turn for each byte. -/
theorem parse_defined (doubles : Doubles D) (sorting : Sorting) (allocated : Allocated w input.length)
    (enough : input.length ≤ fuel) :
    ∃ outcome, parse w doubles sorting fuel input = some outcome ∧ outcome ≠ .error .undefined := by
  obtain ⟨outcome,outcome',parses,reads,same⟩ := parse_follows doubles sorting allocated enough
  obtain ⟨outcome'',reads',defined⟩ := read_ends doubles input enough
  obtain rfl : outcome' = outcome'' := Option.some.inj (reads.symm.trans reads')
  refine ⟨outcome,parses,?_⟩
  rintro rfl
  cases outcome' with
  | ok result => exact same
  | error fault => exact defined same.symm

theorem parse_defined_members :
    ∃ outcome, parse .x64 floatDoubles stableSorting 13 (ascii "\x7b\"b\":1,\"a\":2\x7d") = some outcome ∧
      outcome ≠ .error .undefined :=
  parse_defined floatDoubles stableSorting (by decide) (by decide)

/-- The text of an input is no longer than a word can tell. -/
theorem read_size {doubles : Doubles D} {text : Text} {tree : Tree D} (allocated : Allocated w input.length)
    (enough : input.length ≤ fuel) (reads : read doubles fuel input = some (.ok (text,tree))) : text.data.length < w.size := by
  obtain ⟨outcome,reads',ends⟩ := read_ends doubles input enough
  obtain rfl : outcome = .ok (text,tree) := Option.some.inj (reads'.symm.trans reads)
  have total : text.data.length = input.length := ends
  have fits := allocated_fits allocated
  have split := size_split w
  omega

/-- Every input is parsed to a document whose root shows the tree of the input, or to the
    error that the plain reading comes to, at the same line and column. Of an object that
    is closed where a value is due no more is shown than its length. -/
theorem parse_shows (doubles : Doubles D) (sorting : Sorting) (allocated : Allocated w input.length)
    (enough : input.length ≤ fuel) :
    ∃ outcome outcome', parse w doubles sorting fuel input = some outcome ∧ read doubles fuel input = some outcome' ∧
      Matches (fun document (text,tree) => document.data = text.data ∧ document.getRoot.Shows w document doubles tree)
        outcome outcome' := by
  obtain ⟨outcome,outcome',parses,reads,same⟩ := parse_follows doubles sorting allocated enough
  refine ⟨outcome,outcome',parses,reads,?_⟩
  cases outcome with
  | error fault => cases outcome' <;> exact same
  | ok document =>
    cases outcome' with
    | error fault => exact same
    | ok result => exact ⟨same.1,node_shows same.2 (same.1 ▸ read_size allocated enough reads)⟩

theorem parse_shows_members :
    ∃ outcome outcome', parse .x64 floatDoubles stableSorting 13 (ascii "\x7b\"b\":1,\"a\":2\x7d") = some outcome ∧
      read floatDoubles 13 (ascii "\x7b\"b\":1,\"a\":2\x7d") = some outcome' ∧
      Matches (fun document (text,tree) => document.data = text.data ∧
        document.getRoot.Shows .x64 document floatDoubles tree) outcome outcome' :=
  parse_shows floatDoubles stableSorting (by decide) (by decide)

/-- The value of the last key is missing. -/
example : (read floatDoubles 12 (ascii "\x7b\"a\":1,\"b\":\x7d")).map (·.map Prod.snd) =
    some (.ok (.broken [(ascii "a",.integer 1)])) := by rfl

end
end OpenRune.Sajson
