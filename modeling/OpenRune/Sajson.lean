import OpenRune.Comparators
import OpenRune.CppStrings
import OpenRune.Memories

/-!
# sajson

The JSON parser of the native launcher. It decodes strings where they stand in the
text, and builds its document in one array of words: the open arrays and objects grow
from the front of it, and what is closed is moved to the back.
-/
namespace OpenRune.Sajson
open OpenRune.Comparators OpenRune.CppStrings OpenRune.Memories

/-! ## Elements -/

inductive ElementType
  | TYPE_INTEGER
  | TYPE_DOUBLE
  | TYPE_NULL
  | TYPE_FALSE
  | TYPE_TRUE
  | TYPE_STRING
  | TYPE_ARRAY
  | TYPE_OBJECT
  deriving DecidableEq, Repr

def ElementType.code : ElementType → Nat
  | .TYPE_INTEGER => 0
  | .TYPE_DOUBLE => 1
  | .TYPE_NULL => 2
  | .TYPE_FALSE => 3
  | .TYPE_TRUE => 4
  | .TYPE_STRING => 5
  | .TYPE_ARRAY => 6
  | .TYPE_OBJECT => 7

def ElementType.ofCode : Nat → ElementType
  | 0 => .TYPE_INTEGER
  | 1 => .TYPE_DOUBLE
  | 2 => .TYPE_NULL
  | 3 => .TYPE_FALSE
  | 4 => .TYPE_TRUE
  | 5 => .TYPE_STRING
  | 6 => .TYPE_ARRAY
  | _ => .TYPE_OBJECT

/-- `sizeof(size_t) * 8 - TYPE_BITS`. -/
def typeShift : Width → Nat
  | .x86 => 29
  | .x64 => 61

def valueMask (w : Width) : Nat := 2 ^ typeShift w - 1

def rootMarker (w : Width) : Nat := valueMask w

def getElementType (w : Width) (s : Nat) : ElementType := .ofCode ((s >>> typeShift w) &&& 7)

def getElementValue (w : Width) (s : Nat) : Nat := s &&& valueMask w

def makeElement (w : Width) (t : ElementType) (value : Nat) : Nat := value ||| (t.code <<< typeShift w)

/-! ## Reading the text -/

/-- What ends a parse early: an error with its line and column, or something that C++
    does not define, an overflow of `int` kept apart from the rest. -/
inductive Fault
  | error (line column : Nat) (message : String)
  | undefined
  | overflow
  deriving DecidableEq, Repr

/-- The bytes before the pointer, as they are by now, and those from the pointer on. -/
structure Text where
  before : List UInt8
  rest : List UInt8
  deriving DecidableEq, Repr

def Text.data (text : Text) : List UInt8 := text.before ++ text.rest

/-- The line and the column behind some bytes. -/
def position (line column : Nat) : List UInt8 → Nat × Nat
  | [] => (line,column)
  | 0x0D :: 0x0A :: rest => position (line + 1) 1 rest
  | 0x0D :: rest => position (line + 1) 1 rest
  | 0x0A :: rest => position (line + 1) 1 rest
  | _ :: rest => position line (column + 1) rest

def error {α : Type} (before : List UInt8) (message : String) : Except Fault α :=
  .error (.error (position 1 1 before).1 (position 1 1 before).2 message)

def isSpace (c : UInt8) : Bool := c == 0x20 || c == 0x09 || c == 0x0A || c == 0x0D

/-- The loop of `peek_structure`, which takes the end for a zero. -/
def peekFrom (before : List UInt8) : List UInt8 → UInt8 × Text
  | [] => (0,⟨before,[]⟩)
  | c :: rest => if isSpace c then peekFrom (before ++ [c]) rest else (c,⟨before,c :: rest⟩)

def peekStructure (text : Text) : UInt8 × Text := peekFrom text.before text.rest

/-- `++p`. -/
def Text.next (text : Text) : Text := ⟨text.before ++ text.rest.take 1,text.rest.drop 1⟩

/-- `parse_null`, `parse_false` and `parse_true`: the letters behind the first. -/
def parseWord (letters : List UInt8) (message : String) (text : Text) : Except Fault Text :=
  if text.rest.length < letters.length + 1 then error text.before "unexpected end of input"
  else if (text.rest.drop 1).take letters.length ≠ letters then error text.before message
  else .ok ⟨text.before ++ text.rest.take (letters.length + 1),text.rest.drop (letters.length + 1)⟩

/-- The bytes of an ASCII text. -/
def ascii (text : String) : List UInt8 := text.toList.map fun c => c.toNat.toUInt8

def parseNull : Text → Except Fault Text := parseWord (ascii "ull") "expected 'null'"

def parseFalse : Text → Except Fault Text := parseWord (ascii "alse") "expected 'false'"

def parseTrue : Text → Except Fault Text := parseWord (ascii "rue") "expected 'true'"

/-! ## Numbers -/

/-- What the parser does with doubles; `power n` is the entry of the table for the
    exponent `n - 323`, and `words` what is stored of a double. -/
structure Doubles (D : Type) where
  ofInt : Int → D
  plus : D → D → D
  times : D → D → D
  negated : D → D
  zero : D
  infinity : D
  power : Nat → D
  words : Width → D → List Nat
  words_length : ∀ w d, (words w d).length = match w with
    | .x86 => 2
    | .x64 => 1

/-- `i`, or `d` once `try_double` is set. -/
inductive Number (D : Type)
  | integer (i : Int)
  | double (d : D)

section
variable {D : Type} (doubles : Doubles D)

def pow10 (exponent : Int) : D :=
  if 308 < exponent then doubles.infinity
  else if exponent < -323 then doubles.zero
  else doubles.power (exponent + 323).toNat

def Number.toDouble : Number D → D
  | .integer i => doubles.ofInt i
  | .double d => d

/-- `10.0 * d + digit`. -/
def pushDouble (d : D) (digit : Nat) : D := doubles.plus (doubles.times (doubles.ofInt 10) d) (doubles.ofInt digit)

def pushDigit (number : Number D) (digit : Nat) : Number D :=
  match number with
  | .integer i =>
    if 2147483647 / 10 - 9 < i then .double (pushDouble doubles (doubles.ofInt i) digit)
    else .integer (10 * i + digit)
  | .double d => .double (pushDouble doubles d digit)

def isDigit (c : UInt8) : Bool := decide (0x30 ≤ c) && decide (c ≤ 0x39)

/-- `int` arithmetic. -/
def checked (i : Int) : Except Fault Int := if -2147483648 ≤ i ∧ i ≤ 2147483647 then .ok i else .error .overflow

/-- A loop over digits, which must not be the last of the text. -/
def digitsLoop {σ : Type} (push : σ → Nat → Except Fault σ) (s : σ) (before : List UInt8) :
    List UInt8 → Except Fault (σ × Text)
  | [] => .error .undefined
  | c :: rest =>
    if isDigit c then
      if rest.isEmpty then error (before ++ [c]) "unexpected end of input"
      else do
        let s ← push s (c.toNat - 48)
        digitsLoop push s (before ++ [c]) rest
    else .ok (s,⟨before,c :: rest⟩)

/-- A character that may be there, and then must not be the last of the text. -/
def optional (among : UInt8 → Bool) (text : Text) : Except Fault (Option UInt8 × Text) :=
  match text.rest with
  | [] => .error .undefined
  | c :: rest =>
    if among c then
      if rest.isEmpty then error (text.before ++ [c]) "unexpected end of input"
      else .ok (some c,⟨text.before ++ [c],rest⟩)
    else .ok (none,text)

/-- The digits behind a point, each of which lowers the exponent. -/
def pushFraction (s : D × Int) (digit : Nat) : Except Fault (D × Int) := do
  let exponent ← checked (s.2 - 1)
  return (pushDouble doubles s.1 digit,exponent)

def pushExponent (exp : Int) (digit : Nat) : Except Fault Int := checked (10 * exp + digit)

def parseFraction (number : Number D) (text : Text) : Except Fault (Number D × Int × Text) := do
  let (point,text) ← optional (· == 0x2E) text
  if point.isNone then return (number,0,text)
  let ((d,exponent),text) ← digitsLoop (pushFraction doubles) (number.toDouble doubles,0) text.before text.rest
  return (.double d,exponent,text)

def parseExponent (number : Number D) (exponent : Int) (text : Text) : Except Fault (Number D × Int × Text) := do
  let (e,text) ← optional (fun c => c == 0x65 || c == 0x45) text
  if e.isNone then return (number,exponent,text)
  let (sign,text) ← optional (fun c => c == 0x2D || c == 0x2B) text
  let (exp,text) ← digitsLoop pushExponent 0 text.before text.rest
  let exponent ← checked (exponent + if sign = some 0x2D then -exp else exp)
  return (.double (number.toDouble doubles),exponent,text)

/-- `d *= pow10(exponent)`, and the sign. -/
def Number.finish (negative : Bool) (exponent : Int) : Number D → Number D
  | .integer i => .integer (if negative then -i else i)
  | .double d =>
    let d := if exponent = 0 then d else doubles.times d (pow10 doubles exponent)
    .double (if negative then doubles.negated d else d)

def parseNumber (text : Text) : Except Fault (Number D × Text) := do
  let (sign,text) ← optional (· == 0x2D) text
  let (number,text) ← digitsLoop (fun number digit => .ok (pushDigit doubles number digit)) (.integer 0) text.before text.rest
  let (number,exponent,text) ← parseFraction doubles number text
  let (number,exponent,text) ← parseExponent doubles number exponent text
  return (number.finish doubles sign.isSome exponent,text)

end

/-! ## Strings -/

/-- Where a string begins and ends, once it is decoded. -/
structure Scanned where
  start : Nat
  finish : Nat
  text : Text

/-- Bytes that take the place of others. -/
def overwrite (before : List UInt8) (i : Nat) (bytes : List UInt8) : List UInt8 :=
  before.take i ++ bytes ++ before.drop (i + bytes.length)

/-- Writing into what was read. -/
def poke (before : List UInt8) (i : Nat) (bytes : List UInt8) : Except Fault (List UInt8) :=
  if i + bytes.length ≤ before.length then .ok (overwrite before i bytes) else .error .undefined

def hexDigit (c : UInt8) : Option Nat :=
  if 0x30 ≤ c ∧ c ≤ 0x39 then some (c.toNat - 48)
  else if 0x61 ≤ c ∧ c ≤ 0x66 then some (c.toNat - 97 + 10)
  else if 0x41 ≤ c ∧ c ≤ 0x46 then some (c.toNat - 65 + 10)
  else none

/-- `read_hex`, on the four characters. -/
def readHex (before : List UInt8) (v : Nat) : List UInt8 → Except Fault Nat
  | [] => .ok v
  | c :: rest =>
    match hexDigit c with
    | none => error (before ++ [c]) "invalid character in unicode escape"
    | some digit => readHex (before ++ [c]) (v <<< 4 + digit) rest

/-- `write_utf8`. -/
def writeUtf8 (codepoint : Nat) : List UInt8 :=
  if codepoint < 0x80 then [codepoint.toUInt8]
  else if codepoint < 0x800 then [(0xC0 ||| (codepoint >>> 6)).toUInt8,(0x80 ||| (codepoint &&& 0x3F)).toUInt8]
  else if codepoint < 0x10000 then
    [(0xE0 ||| (codepoint >>> 12)).toUInt8,(0x80 ||| ((codepoint >>> 6) &&& 0x3F)).toUInt8,
      (0x80 ||| (codepoint &&& 0x3F)).toUInt8]
  else
    [(0xF0 ||| (codepoint >>> 18)).toUInt8,(0x80 ||| ((codepoint >>> 12) &&& 0x3F)).toUInt8,
      (0x80 ||| ((codepoint >>> 6) &&& 0x3F)).toUInt8,(0x80 ||| (codepoint &&& 0x3F)).toUInt8]

/-- What an escape of one letter stands for. -/
def replacement (c : UInt8) : Option UInt8 :=
  if c = 0x22 then some 0x22
  else if c = 0x5C then some 0x5C
  else if c = 0x2F then some 0x2F
  else if c = 0x62 then some 0x08
  else if c = 0x66 then some 0x0C
  else if c = 0x6E then some 0x0A
  else if c = 0x72 then some 0x0D
  else if c = 0x74 then some 0x09
  else none

def unprintable (c : UInt8) : String := "illegal unprintable codepoint in string: " ++ toString c.toNat

/-- The other half of a surrogate pair. -/
def readTrail (u : Nat) (before : List UInt8) : List UInt8 → Except Fault (Nat × Text)
  | p0 :: p1 :: g0 :: g1 :: g2 :: g3 :: rest =>
    if p0 ≠ 0x5C ∨ p1 ≠ 0x75 then error before "expected \\u"
    else do
      let v ← readHex (before ++ [p0,p1]) 0 [g0,g1,g2,g3]
      let before := before ++ [p0,p1,g0,g1,g2,g3]
      if v < 0xDC00 ∨ 0xDFFF < v then error before "invalid UTF-16 trail surrogate"
      else return (0x10000 + (((u - 0xD800) <<< 10) ||| (v - 0xDC00)),⟨before,rest⟩)
  | _ => error before "unexpected end of input during UTF-16 surrogate pair"

/-- The code point of an escape, behind its `u`. -/
def readUnicode (before : List UInt8) : List UInt8 → Except Fault (Nat × Text)
  | h0 :: h1 :: h2 :: h3 :: rest => do
    let u ← readHex before 0 [h0,h1,h2,h3]
    if 0xD800 ≤ u ∧ u ≤ 0xDBFF then readTrail u (before ++ [h0,h1,h2,h3]) rest
    else return (u,⟨before ++ [h0,h1,h2,h3],rest⟩)
  | _ => error before "unexpected end of input"

/-- What one turn of `parse_string_slow` reads, and the bytes that it stands for. -/
def readPiece (before : List UInt8) : List UInt8 → Except Fault (List UInt8 × Text)
  | [] => error before "unexpected end of input"
  | c :: rest =>
    if c < 0x20 then error before (unprintable c)
    else if c = 0x5C then
      match rest with
      | [] => error (before ++ [c]) "unexpected end of input"
      | e :: rest =>
        match replacement e with
        | some byte => .ok ([byte],⟨before ++ [c,e],rest⟩)
        | none =>
          if e = 0x75 then do
            let (codepoint,text) ← readUnicode (before ++ [c,e]) rest
            return (writeUtf8 codepoint,text)
          else error (before ++ [c]) "unknown escape"
    else .ok ([c],⟨before ++ [c],rest⟩)

/-- `parse_string_slow`: from the first escape on, what was decoded is shorter than
    what was read. Each turn reads a byte, so that no turn is missing. -/
def scanStringSlow (start : Nat) : Nat → Nat → Text → Except Fault Scanned
  | 0, _, text => error text.before "unexpected end of input"
  | turns + 1, finish, text =>
    if text.rest.head? = some 0x22 then .ok ⟨start,finish,text.next⟩
    else do
      let (bytes,text) ← readPiece text.before text.rest
      let before ← poke text.before finish bytes
      scanStringSlow start turns (finish + bytes.length) ⟨before,text.rest⟩

/-- The loop of `parse_string`. -/
def scanString (start : Nat) (before : List UInt8) : List UInt8 → Except Fault Scanned
  | [] => error before "unexpected end of input"
  | c :: rest =>
    if c < 0x20 then error before (unprintable c)
    else if c = 0x22 then .ok ⟨start,before.length,⟨before ++ [c],rest⟩⟩
    else if c = 0x5C then scanStringSlow start (c :: rest).length before.length ⟨before,c :: rest⟩
    else scanString start (before ++ [c]) rest

/-- A string, from its quote on. -/
def readString (text : Text) : Except Fault Scanned := scanString text.next.before.length text.next.before text.next.rest

/-! ## The document -/

/-- The parser: the text, and the array of words with its two ends. -/
structure Parser where
  text : Text
  words : Memory
  temp : Nat
  out : Nat

def load (words : Memory) (i : Nat) : Except Fault Nat :=
  match words i with
  | some word => .ok word
  | none => .error .undefined

/-- Writing a word into an array of `length` words. -/
def store (length : Nat) (words : Memory) (i word : Nat) : Except Fault Memory :=
  if i < length then .ok (Function.update words i (some word)) else .error .undefined

def storeAll (length : Nat) (words : Memory) : Nat → List Nat → Except Fault Memory
  | _, [] => .ok words
  | i, word :: rest => do
    let words ← store length words i word
    storeAll length words (i + 1) rest

/-- Room for `n` words at the back. -/
def Parser.reserve (s : Parser) (n : Nat) : Except Fault Parser :=
  if s.out < n then .error .undefined else .ok { s with out := s.out - n }

/-- A key of an object, and its value. -/
structure Record where
  keyStart : Nat
  keyEnd : Nat
  value : Nat
  deriving DecidableEq, Repr

/-- The bytes from `start` to `finish`. -/
def slice (data : List UInt8) (start finish : Nat) : List UInt8 := (data.take finish).drop start

/-- `memcmp`. -/
def memcmp (as bs : List UInt8) : Int := lexCompare (fun a b : UInt8 => (a.toNat : Int) - b.toNat) (fun _ _ => 0) as bs

/-- `object_key_comparator`: shorter keys come first. -/
def keyLess (as bs : List UInt8) : Bool :=
  decide (as.length < bs.length) || decide (as.length = bs.length) && decide (memcmp as bs < 0)

def Record.key (data : List UInt8) (record : Record) : List UInt8 := slice data record.keyStart record.keyEnd

/-- `std::sort`, which may put equal elements in any order. -/
structure Sorting where
  sort : (Record → Record → Bool) → List Record → List Record
  perm : ∀ less records, (sort less records).Perm records
  sorted : ∀ (data : List UInt8) records,
    (sort (fun a b => keyLess (a.key data) (b.key data)) records).Pairwise fun a b => keyLess (b.key data) (a.key data) = false

def readRecords (words : Memory) : Nat → Nat → Except Fault (List Record)
  | _, 0 => .ok []
  | i, n + 1 => do
    let keyStart ← load words i
    let keyEnd ← load words (i + 1)
    let value ← load words (i + 2)
    return ⟨keyStart,keyEnd,value⟩ :: (← readRecords words (i + 3) n)

def Record.words (record : Record) : List Nat := [record.keyStart,record.keyEnd,record.value]

section
variable {D : Type} (w : Width) (doubles : Doubles D) (sorting : Sorting) (length : Nat)

/-- `*temp++ = word`. -/
def Parser.push (s : Parser) (word : Nat) : Except Fault Parser := do
  let words ← store length s.words s.temp word
  return { s with words := words, temp := s.temp + 1 }

/-- `*(--out) = word`. -/
def Parser.prepend (s : Parser) (word : Nat) : Except Fault Parser := do
  let s ← s.reserve 1
  let words ← store length s.words s.out word
  return { s with words := words }

/-- `*(--out) = *(--temp) + offset`. -/
def Parser.moveDown (s : Parser) (offset : Nat) : Except Fault Parser := do
  if s.temp = 0 then throw .undefined
  let word ← load s.words (s.temp - 1)
  let s ← s.prepend length (w.plus word offset)
  return { s with temp := s.temp - 1 }

/-- A loop of `n` turns. -/
def iterate (turn : Parser → Except Fault Parser) : Nat → Parser → Except Fault Parser
  | 0, s => .ok s
  | n + 1, s => do
    let s ← turn s
    iterate turn n s

def installArray (arrayBase : Nat) (s : Parser) : Except Fault Parser := do
  let length' := s.temp - arrayBase
  let offset := w.minus (arrayBase + length' + 1) s.out
  let s ← iterate (fun s => s.moveDown w length offset) length' s
  s.prepend length length'

/-- The sort of `install_object` on the records from `objectBase` on. -/
def sortRecords (objectBase length' : Nat) (s : Parser) : Except Fault Parser := do
  let records ← readRecords s.words objectBase length'
  if !records.all fun record => record.keyStart ≤ record.keyEnd && record.keyEnd ≤ s.text.data.length then throw .undefined
  let sorted := sorting.sort (fun a b => keyLess (a.key s.text.data) (b.key s.text.data)) records
  let words ← storeAll length s.words objectBase (sorted.flatMap Record.words)
  return { s with words := words }

def moveRecord (offset : Nat) (s : Parser) : Except Fault Parser := do
  let s ← s.moveDown w length offset
  let s ← s.moveDown w length 0
  s.moveDown w length 0

def installObject (objectBase : Nat) (s : Parser) : Except Fault Parser := do
  let length' := (s.temp - objectBase) / 3
  let s ← sortRecords sorting length objectBase length' s
  let offset := w.minus (objectBase + length' * 3 + 1) s.out
  let s ← iterate (moveRecord w length offset) length' s
  s.prepend length length'

/-- `parse_string`, for a value and for a key. -/
def parseString (s : Parser) (tag : Option Nat) : Except Fault Parser := do
  let (s,tag) ← match tag with
    | some tag => pure (s,tag)
    | none => do
      let s ← s.reserve 2
      pure (s,s.out)
  let scanned ← readString s.text
  let words ← storeAll length s.words tag [scanned.start,scanned.finish]
  return { s with text := scanned.text, words := words }

/-- The word of an integer. -/
def integerWord (i : Int) : Nat := (i % 2 ^ 32).toNat

def storeNumber (number : Number D) (s : Parser) : Except Fault (ElementType × Parser) :=
  match number with
  | .double d => do
    let stored := doubles.words w d
    let s ← s.reserve stored.length
    let words ← storeAll length s.words s.out stored
    return (.TYPE_DOUBLE,{ s with words := words })
  | .integer i => do
    let s ← s.prepend length (integerWord i)
    return (.TYPE_INTEGER,s)

/-- What a value begins with. -/
inductive Lead
  | ended
  | null
  | false
  | true
  | number
  | string
  | openArray
  | openObject
  | closeArray
  | closeObject
  | unknown
  deriving DecidableEq, Repr

def lead (c : UInt8) : Lead :=
  if c = 0 then .ended
  else if c = 0x6E then .null
  else if c = 0x66 then .false
  else if c = 0x74 then .true
  else if isDigit c || c == 0x2D then .number
  else if c = 0x22 then .string
  else if c = 0x5B then .openArray
  else if c = 0x7B then .openObject
  else if c = 0x5D then .closeArray
  else if c = 0x7D then .closeObject
  else .unknown

/-- The array or object that is open, and where its words begin. -/
structure Frame where
  base : Nat
  kind : ElementType

def closingBracket (kind : ElementType) : UInt8 := if kind = .TYPE_OBJECT then 0x7D else 0x5D

/-- The comma between two elements. -/
def separate (filled : Bool) (kind : ElementType) (text : Text) : Except Fault (UInt8 × Text) :=
  match peekStructure text with
  | (c,text) =>
    if filled && c != closingBracket kind then
      if c = 0x2C then .ok (peekStructure text.next) else error text.before "expected ,"
    else .ok (c,text)

/-- An error in a key has a text of its own. -/
def keyError {α : Type} : Except Fault α → Except Fault α
  | .error (.error line column _) => .error (.error line column "invalid object key")
  | outcome => outcome

/-- The colon behind a key. -/
def expectColon (text : Text) : Except Fault Text :=
  match peekStructure text with
  | (c,text) => if c = 0x3A then .ok text.next else error text.before "expected :"

def parseKey (c : UInt8) (s : Parser) : Except Fault Parser := do
  if c ≠ 0x22 then error s.text.before "object key must be quoted"
  let s ← keyError (parseString length s (some s.temp))
  let text ← expectColon s.text
  return { s with text := text, temp := s.temp + 2 }

/-- Up to the next value of an array or an object. -/
def prelude (s : Parser) (frame : Frame) : Except Fault Parser := do
  let (c,text) ← separate (decide (frame.base + 1 < s.temp)) frame.kind s.text
  let s := { s with text := text }
  if frame.kind = .TYPE_OBJECT ∧ c ≠ 0x7D then parseKey length c s else return s

/-- The next turn of the loop, or the type of the root. -/
inductive Turn
  | next (s : Parser) (frame : Frame)
  | done (s : Parser) (rootType : ElementType)

/-- A value is there: its element goes to the front. -/
def pushElement (frame : Frame) (t : ElementType) (s : Parser) : Except Fault Turn := do
  let s ← s.push length (makeElement w t (w.minus s.out (frame.base + 1)))
  return .next s frame

def openStructure (kind : ElementType) (s : Parser) (frame : Frame) : Except Fault Turn := do
  let s ← { s with text := s.text.next }.push length (makeElement w frame.kind frame.base)
  return .next s ⟨s.temp - 1,kind⟩

def closeStructure (kind : ElementType) (s : Parser) (frame : Frame) : Except Fault Turn := do
  if frame.kind ≠ kind then
    error s.text.before (if kind = .TYPE_ARRAY then "expected \x7d" else "expected ]")
  let s := { s with text := s.text.next }
  let element ← load s.words frame.base
  let s ← if kind = .TYPE_ARRAY then installArray w length (frame.base + 1) s
    else installObject w sorting length (frame.base + 1) s
  if getElementValue w element = rootMarker w then return .done s kind
  pushElement w length ⟨getElementValue w element,getElementType w element⟩ kind { s with temp := frame.base }

/-- The `switch` on the first character of a value. -/
def parseValue (s : Parser) (frame : Frame) : Except Fault Turn :=
  match peekStructure s.text with
  | (c,text) =>
    let s := { s with text := text }
    match lead c with
    | .ended => error text.before "unexpected end of input"
    | .null => do
      let text ← parseNull text
      pushElement w length frame .TYPE_NULL { s with text := text }
    | .false => do
      let text ← parseFalse text
      pushElement w length frame .TYPE_FALSE { s with text := text }
    | .true => do
      let text ← parseTrue text
      pushElement w length frame .TYPE_TRUE { s with text := text }
    | .number => do
      let (number,text) ← parseNumber doubles text
      let (t,s) ← storeNumber w doubles length number { s with text := text }
      pushElement w length frame t s
    | .string => do
      let s ← parseString length s none
      pushElement w length frame .TYPE_STRING s
    | .openArray => openStructure w length .TYPE_ARRAY s frame
    | .openObject => openStructure w length .TYPE_OBJECT s frame
    | .closeArray => closeStructure w sorting length .TYPE_ARRAY s frame
    | .closeObject => closeStructure w sorting length .TYPE_OBJECT s frame
    | .unknown => error text.before "cannot parse unknown value"

def parseTurn (s : Parser) (frame : Frame) : Except Fault Turn := do
  let s ← prelude length s frame
  parseValue w doubles sorting length s frame

/-- The loop of `parse`; without a result it has run out of fuel. -/
def parseLoop : Nat → Parser → Frame → Option (Except Fault (Parser × ElementType))
  | 0, _, _ => none
  | fuel + 1, s, frame =>
    match parseTurn w doubles sorting length s frame with
    | .error fault => some (.error fault)
    | .ok (.done s rootType) => some (.ok (s,rootType))
    | .ok (.next s frame) => parseLoop fuel s frame

/-- A document: its text, its words, and where the root is. -/
structure Document where
  data : List UInt8
  words : Memory
  rootType : ElementType
  root : Nat

/-- Behind the root there is only white space. -/
def finishDocument (s : Parser) (rootType : ElementType) : Except Fault Document :=
  match peekStructure s.text with
  | (c,text) => if c = 0 then .ok ⟨text.data,s.words,rootType,s.out⟩ else error text.before "expected end of input"

end

/-- The root is an array or an object. -/
def openRoot (text : Text) : Except Fault (ElementType × Text) :=
  match peekStructure text with
  | (c,text) =>
    if c = 0 then error text.before "no root element"
    else if c = 0x5B then .ok (.TYPE_ARRAY,text.next)
    else if c = 0x7B then .ok (.TYPE_OBJECT,text.next)
    else error text.before "document root must be object or array"

/-- `sajson::parse`; the array has a word for each byte of the input. -/
def parse {D : Type} (w : Width) (doubles : Doubles D) (sorting : Sorting) (fuel : Nat) (input : List UInt8) :
    Option (Except Fault Document) :=
  match openRoot ⟨[],input⟩ with
  | .error fault => some (.error fault)
  | .ok (kind,text) =>
    match Parser.push input.length ⟨text,fun _ => none,0,input.length⟩ (makeElement w kind (rootMarker w)) with
    | .error fault => some (.error fault)
    | .ok s =>
      (parseLoop w doubles sorting input.length fuel s ⟨0,kind⟩).map fun outcome =>
        outcome.bind fun (s,rootType) => finishDocument s rootType

end OpenRune.Sajson
