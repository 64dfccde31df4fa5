import Mathlib

/-!
# JSON texts

The grammar of JSON over bytes in UTF-8, with any white space, any numerals and any
escapes that spell Unicode text: an escaped surrogate stands in a pair, never alone.
Which numerals may stand in a text is left to who uses it.
-/
namespace OpenRune.JsonTexts

/-! ## Values -/

abbrev Digits := List (Fin 10)

/-- An exponent: its letter, its sign, if there is one, and its digits. -/
structure Exponent where
  capital : Bool
  negative : Option Bool
  digits : Digits
  nonempty : digits ≠ []

/-- A number as it is written. Without a fraction `fraction` is empty. -/
structure Numeral where
  negative : Bool
  whole : Digits
  fraction : Digits
  exponent : Option Exponent
  nonempty : whole ≠ []
  noZeros : whole.head? = some 0 → whole.length = 1

inductive Json
  | null
  | bool (value : Bool)
  | number (numeral : Numeral)
  | string (value : String)
  | array (items : List Json)
  | object (members : List (String × Json))

/-! ## Texts -/

def IsSpace (c : UInt8) : Prop := c = 0x20 ∨ c = 0x09 ∨ c = 0x0A ∨ c = 0x0D

def Spaces (text : List UInt8) : Prop := ∀ c ∈ text, IsSpace c

def digitByte (digit : Fin 10) : UInt8 := 0x30 + digit.val.toUInt8

def Exponent.text (e : Exponent) : List UInt8 :=
  (if e.capital then 0x45 else 0x65) :: (e.negative.elim [] fun negative => [if negative then 0x2D else 0x2B]) ++
    e.digits.map digitByte

def Numeral.text (n : Numeral) : List UInt8 :=
  (if n.negative then [0x2D] else []) ++ n.whole.map digitByte ++
    (if n.fraction.isEmpty then [] else 0x2E :: n.fraction.map digitByte) ++ n.exponent.elim [] Exponent.text

def hexDigitValue (c : UInt8) : Option Nat :=
  if 0x30 ≤ c ∧ c ≤ 0x39 then some (c.toNat - 0x30)
  else if 0x61 ≤ c ∧ c ≤ 0x66 then some (c.toNat - 0x61 + 10)
  else if 0x41 ≤ c ∧ c ≤ 0x46 then some (c.toNat - 0x41 + 10)
  else none

/-- Four hexadecimal digits. -/
def Hex4 (text : List UInt8) (value : Nat) : Prop :=
  ∃ a b c d a' b' c' d', text = [a,b,c,d] ∧ hexDigitValue a = some a' ∧ hexDigitValue b = some b' ∧ hexDigitValue c = some c' ∧
    hexDigitValue d = some d' ∧ value = ((a' * 16 + b') * 16 + c') * 16 + d'

/-- The escapes of one letter. -/
def escapes : List (UInt8 × Char) :=
  [(0x22,'"'),(0x5C,'\\'),(0x2F,'/'),(0x62,'\x08'),(0x66,'\x0C'),(0x6E,'\n'),(0x72,'\r'),(0x74,'\t')]

/-- What stands between the quotes of a string. -/
inductive Spells : List UInt8 → List Char → Prop
  | nil : Spells [] []
  | plain (c : Char) {text : List UInt8} {chars : List Char} (printable : 0x20 ≤ c.toNat) (quote : c ≠ '"') (slash : c ≠ '\\')
      (rest : Spells text chars) : Spells (String.utf8EncodeChar c ++ text) (c :: chars)
  | escape (letter : UInt8) (c : Char) {text : List UInt8} {chars : List Char} (escapes : (letter,c) ∈ escapes)
      (rest : Spells text chars) : Spells (0x5C :: letter :: text) (c :: chars)
  | unicode (c : Char) {digits text : List UInt8} {chars : List Char} (hex : Hex4 digits c.toNat)
      (rest : Spells text chars) : Spells (0x5C :: 0x75 :: digits ++ text) (c :: chars)
  | pair (c : Char) {lead trail text : List UInt8} {chars : List Char} (large : 0x10000 ≤ c.toNat)
      (high : Hex4 lead (0xD800 + (c.toNat - 0x10000) / 0x400)) (low : Hex4 trail (0xDC00 + (c.toNat - 0x10000) % 0x400))
      (rest : Spells text chars) : Spells (0x5C :: 0x75 :: lead ++ 0x5C :: 0x75 :: trail ++ text) (c :: chars)

/-- A part of a text: a value, what stands between the brackets of an array or an
    object, or what follows its first element. -/
inductive Phrase
  | value (json : Json)
  | inside (json : Json)
  | items (items : List Json)
  | members (members : List (String × Json))

def keyword (text : String) : List UInt8 := text.toList.map fun c => c.toNat.toUInt8

inductive Writes (among : Numeral → Prop) : Phrase → List UInt8 → Prop
  | null : Writes among (.value .null) (keyword "null")
  | false : Writes among (.value (.bool .false)) (keyword "false")
  | true : Writes among (.value (.bool .true)) (keyword "true")
  | number (numeral : Numeral) (allowed : among numeral) : Writes among (.value (.number numeral)) numeral.text
  | string (value : String) {text : List UInt8} (spells : Spells text value.toList) :
      Writes among (.value (.string value)) (0x22 :: text ++ [0x22])
  | array {items : List Json} {text : List UInt8} (inside : Writes among (.inside (.array items)) text) :
      Writes among (.value (.array items)) (0x5B :: text ++ [0x5D])
  | object {members : List (String × Json)} {text : List UInt8} (inside : Writes among (.inside (.object members)) text) :
      Writes among (.value (.object members)) (0x7B :: text ++ [0x7D])
  | emptyArray {space : List UInt8} (spaces : Spaces space) : Writes among (.inside (.array [])) space
  | firstItem {json : Json} {items : List Json} {space text rest : List UInt8} (spaces : Spaces space)
      (value : Writes among (.value json) text) (later : Writes among (.items items) rest) :
      Writes among (.inside (.array (json :: items))) (space ++ text ++ rest)
  | lastItem {space : List UInt8} (spaces : Spaces space) : Writes among (.items []) space
  | nextItem {json : Json} {items : List Json} {space space' text rest : List UInt8} (spaces : Spaces space) (spaces' : Spaces space')
      (value : Writes among (.value json) text) (later : Writes among (.items items) rest) :
      Writes among (.items (json :: items)) (space ++ 0x2C :: space' ++ text ++ rest)
  | emptyObject {space : List UInt8} (spaces : Spaces space) : Writes among (.inside (.object [])) space
  | firstMember {key : String} {json : Json} {members : List (String × Json)} {space name space1 space2 text rest : List UInt8}
      (spaces : Spaces space) (spells : Spells name key.toList) (spaces1 : Spaces space1) (spaces2 : Spaces space2)
      (value : Writes among (.value json) text) (later : Writes among (.members members) rest) :
      Writes among (.inside (.object ((key,json) :: members)))
        (space ++ 0x22 :: name ++ 0x22 :: space1 ++ 0x3A :: space2 ++ text ++ rest)
  | lastMember {space : List UInt8} (spaces : Spaces space) : Writes among (.members []) space
  | nextMember {key : String} {json : Json} {members : List (String × Json)} {space space' name space1 space2 text rest : List UInt8}
      (spaces : Spaces space) (spaces' : Spaces space') (spells : Spells name key.toList) (spaces1 : Spaces space1)
      (spaces2 : Spaces space2) (value : Writes among (.value json) text) (later : Writes among (.members members) rest) :
      Writes among (.members ((key,json) :: members))
        (space ++ 0x2C :: space' ++ 0x22 :: name ++ 0x22 :: space1 ++ 0x3A :: space2 ++ text ++ rest)

/-- A whole text. -/
def IsText (among : Numeral → Prop) (text : List UInt8) (json : Json) : Prop :=
  ∃ space value space', text = space ++ value ++ space' ∧ Spaces space ∧ Spaces space' ∧ Writes among (.value json) value

/-- A text without special characters spells itself. -/
theorem spells_plain (chars : List Char) (plain : ∀ c ∈ chars, 0x20 ≤ c.toNat ∧ c ≠ '"' ∧ c ≠ '\\') :
    Spells (chars.flatMap String.utf8EncodeChar) chars := by
  induction chars with
  | nil => exact .nil
  | cons c chars ih =>
    obtain ⟨printable,quote,slash⟩ := plain c (List.mem_cons_self ..)
    exact .plain c printable quote slash (ih fun d member => plain d (List.mem_cons_of_mem _ member))

theorem spaces_solid {space : List UInt8} (spaces : Spaces space) : (0 : UInt8) ∉ space := fun zero => by
  rcases spaces 0 zero with absurd' | absurd' | absurd' | absurd' <;> cases absurd'

theorem digits_solid (digits : Digits) : (0 : UInt8) ∉ digits.map digitByte := by
  rw [List.mem_map]
  rintro ⟨digit,-,zero⟩
  revert digit
  decide

theorem numeral_solid (n : Numeral) : (0 : UInt8) ∉ n.text := by
  have exponent : (0 : UInt8) ∉ n.exponent.elim [] Exponent.text := by
    cases n.exponent with
    | none => simp
    | some e =>
      have digits := digits_solid e.digits
      simp only [Option.elim_some,Exponent.text,List.mem_append,List.mem_cons,digits,or_false,not_or]
      constructor
      · split <;> decide
      · cases e.negative with
        | none => simp
        | some negative => cases negative <;> simp
  have fraction : (0 : UInt8) ∉ if n.fraction.isEmpty then [] else 0x2E :: n.fraction.map digitByte := by
    have digits := digits_solid n.fraction
    split
    · simp
    · simpa using digits
  have sign : (0 : UInt8) ∉ if n.negative then [0x2D] else [] := by
    split <;> simp
  simp only [Numeral.text,List.mem_append,sign,digits_solid,fraction,exponent,or_self,not_false_eq_true]

theorem hex4_solid {text : List UInt8} {value : Nat} (hex : Hex4 text value) : (0 : UInt8) ∉ text := by
  obtain ⟨a,b,c,d,a',b',c',d',rfl,ha,hb,hc,hd,-⟩ := hex
  have digit {c : UInt8} {c' : Nat} (value : hexDigitValue c = some c') : (0 : UInt8) ≠ c := by
    rintro rfl
    cases value
  simp [digit ha,digit hb,digit hc,digit hd]

end OpenRune.JsonTexts
