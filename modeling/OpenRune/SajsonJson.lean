import OpenRune.JsonTexts
import OpenRune.SajsonValues

/-!
# JSON texts in sajson

Every JSON text whose root is an array or an object is read to its value: strings are
decoded where they stand, members keep their order, and numbers are computed digit by
digit. More than JSON is read, such as a comma before a closing bracket.
-/
namespace OpenRune.Sajson
open OpenRune.CppStrings OpenRune.JsonTexts OpenRune.Outcomes

/-! ## Strings -/

/-- The bits of a byte of UTF-8 below its mark. -/
theorem marked_byte (k mark : Nat) {n : Nat} (small : n < 2 ^ k) :
    (2 ^ k * mark ||| n).toUInt8 = UInt8.ofNat (n % 2 ^ k + 2 ^ k * mark) := by
  rw [Nat.mod_eq_of_lt small,← Nat.two_pow_add_eq_or_of_lt small,Nat.add_comm]

theorem continuation_byte (n : Nat) : (0x80 ||| (n &&& 0x3F)).toUInt8 = UInt8.ofNat (n % 0x40 + 0x80) := by
  have masked : n &&& 0x3F = n % 2 ^ 6 := Nat.and_two_pow_sub_one_eq_mod n 6
  have byte := marked_byte 6 2 (Nat.mod_lt n (Nat.two_pow_pos 6))
  rw [masked]
  rwa [Nat.mod_mod] at byte

theorem char_small (c : Char) : c.toNat < 0x110000 := by
  rcases c.valid with small | ⟨-,large⟩
  · exact Nat.lt_trans small (by decide)
  · exact large

/-- `write_utf8` writes UTF-8. -/
theorem writeUtf8_char (c : Char) : writeUtf8 c.toNat = String.utf8EncodeChar c := by
  have valid := char_small c
  rw [writeUtf8,String.utf8EncodeChar,show c.val.toNat = c.toNat from rfl]
  simp only [continuation_byte,Nat.shiftRight_eq_div_pow]
  by_cases one : c.toNat < 0x80
  · rw [if_pos one,if_pos (Nat.le_of_lt_succ one)]
  · rw [if_neg one,if_neg (mt Nat.lt_succ_of_le one)]
    by_cases two : c.toNat < 0x800
    · rw [if_pos two,if_pos (Nat.le_of_lt_succ two)]
      congr 1
      exact marked_byte 5 6 (by omega)
    · rw [if_neg two,if_neg (mt Nat.lt_succ_of_le two)]
      by_cases three : c.toNat < 0x10000
      · rw [if_pos three,if_pos (Nat.le_of_lt_succ three)]
        congr 1
        exact marked_byte 4 14 (by omega)
      · rw [if_neg three,if_neg (mt Nat.lt_succ_of_le three)]
        congr 1
        exact marked_byte 3 30 (by omega)

theorem utf8EncodeChar_high {c : Char} (long : ¬ c.toNat < 0x80) : ∀ b ∈ String.utf8EncodeChar c, 0x80 ≤ b := by
  have high : ∀ n, 0x80 ≤ n → n < 0x100 → (0x80 : UInt8) ≤ UInt8.ofNat n := by
    intro n large small
    rw [UInt8.le_iff_toNat_le,UInt8.toNat_ofNat',Nat.mod_eq_of_lt small]
    exact large
  intro b member
  rw [String.utf8EncodeChar,show c.val.toNat = c.toNat from rfl] at member
  simp only [if_neg (mt Nat.lt_succ_of_le long)] at member
  split_ifs at member
  · simp only [List.mem_cons,List.not_mem_nil,or_false] at member
    rcases member with rfl | rfl <;> exact high _ (by omega) (by omega)
  · simp only [List.mem_cons,List.not_mem_nil,or_false] at member
    rcases member with rfl | rfl | rfl <;> exact high _ (by omega) (by omega)
  · simp only [List.mem_cons,List.not_mem_nil,or_false] at member
    rcases member with rfl | rfl | rfl | rfl <;> exact high _ (by omega) (by omega)

/-- A part of a string that is read in one go, and what it stands for. -/
inductive Piece : List UInt8 → List UInt8 → Prop
  | plain (c : UInt8) (printable : ¬ c < 0x20) (quote : c ≠ 0x22) (slash : c ≠ 0x5C) : Piece [c] [c]
  | escape (text bytes : List UInt8) (reads : ∀ before rest,
      readPiece before (0x5C :: text ++ rest) = .ok (bytes,⟨before ++ 0x5C :: text,rest⟩)) : Piece (0x5C :: text) bytes

inductive Pieces : List UInt8 → List UInt8 → Prop
  | nil : Pieces [] []
  | cons {first bytes text later : List UInt8} (piece : Piece first bytes) (rest : Pieces text later) :
      Pieces (first ++ text) (bytes ++ later)

theorem pieces_plain {plain text bytes : List UInt8} (all : ∀ c ∈ plain, ¬ c < 0x20 ∧ c ≠ 0x22 ∧ c ≠ 0x5C) (rest : Pieces text bytes) :
    Pieces (plain ++ text) (plain ++ bytes) := by
  induction plain with
  | nil => exact rest
  | cons c plain ih =>
    obtain ⟨printable,quote,slash⟩ := all c (List.mem_cons_self ..)
    have joined := Pieces.cons (Piece.plain c printable quote slash) (ih fun d member => all d (List.mem_cons_of_mem _ member))
    exact joined

theorem readHex_hex4 {digits : List UInt8} {value : Nat} (hex : Hex4 digits value) (before : List UInt8) :
    readHex before 0 digits = .ok value := by
  obtain ⟨a,b,c,d,a',b',c',d',rfl,first,second,third,fourth,rfl⟩ := hex
  have same : ∀ c, hexDigit c = hexDigitValue c := fun c => rfl
  simp only [readHex,same,first,second,third,fourth,Nat.shiftLeft_eq]
  congr 1
  omega

theorem hex4_cases {digits : List UInt8} {value : Nat} (hex : Hex4 digits value) : ∃ a b c d, digits = [a,b,c,d] := by
  obtain ⟨a,b,c,d,-,-,-,-,same,-⟩ := hex
  exact ⟨a,b,c,d,same⟩

/-- An escape with a code point that is not half of a pair. -/
theorem readPiece_unicode {digits : List UInt8} {c : Char} (hex : Hex4 digits c.toNat) (before rest : List UInt8) :
    readPiece before (0x5C :: (0x75 :: digits) ++ rest) =
      .ok (String.utf8EncodeChar c,⟨before ++ 0x5C :: 0x75 :: digits,rest⟩) := by
  have reads := readHex_hex4 hex (before ++ [0x5C,0x75])
  have whole : ¬ (0xD800 ≤ c.toNat ∧ c.toNat ≤ 0xDBFF) := by
    rcases c.valid with small | ⟨large,-⟩
    · exact fun half => absurd small (Nat.not_lt.mpr half.1)
    · exact fun half => absurd (Nat.lt_of_le_of_lt half.2 (by decide)) (Nat.not_lt.mpr (Nat.le_of_lt large))
  obtain ⟨h0,h1,h2,h3,rfl⟩ := hex4_cases hex
  have unicode : readUnicode (before ++ [0x5C,0x75]) (h0 :: h1 :: h2 :: h3 :: rest) =
      .ok (c.toNat,⟨before ++ [0x5C,0x75] ++ [h0,h1,h2,h3],rest⟩) := by
    simp only [readUnicode,reads,ok_bind,if_neg whole]
    rfl
  have replaced : replacement 0x75 = none := rfl
  simp only [readPiece,List.cons_append,List.nil_append,replaced,unicode,ok_bind,writeUtf8_char]
  simp [pure,Except.pure]

/-- Both halves of a surrogate pair. -/
theorem readPiece_halves {lead trail : List UInt8} {u v : Nat} {c : Char} (high : Hex4 lead u) (low : Hex4 trail v)
    (half : 0xD800 ≤ u ∧ u ≤ 0xDBFF) (other : ¬ (v < 0xDC00 ∨ 0xDFFF < v))
    (joined : 0x10000 + (((u - 0xD800) <<< 10) ||| (v - 0xDC00)) = c.toNat) (before rest : List UInt8) :
    readPiece before (0x5C :: (0x75 :: lead ++ 0x5C :: 0x75 :: trail) ++ rest) =
      .ok (String.utf8EncodeChar c,⟨before ++ 0x5C :: (0x75 :: lead ++ 0x5C :: 0x75 :: trail),rest⟩) := by
  have reads := readHex_hex4 high (before ++ [0x5C,0x75])
  obtain ⟨h0,h1,h2,h3,rfl⟩ := hex4_cases high
  obtain ⟨g0,g1,g2,g3,rfl⟩ := hex4_cases low
  have reads' := readHex_hex4 low (before ++ [0x5C,0x75] ++ [h0,h1,h2,h3] ++ [0x5C,0x75])
  have trailed : readTrail u (before ++ [0x5C,0x75] ++ [h0,h1,h2,h3]) (0x5C :: 0x75 :: g0 :: g1 :: g2 :: g3 :: rest) =
      .ok (c.toNat,⟨before ++ [0x5C,0x75] ++ [h0,h1,h2,h3] ++ [0x5C,0x75,g0,g1,g2,g3],rest⟩) := by
    simp only [readTrail,reads',ok_bind,if_neg other,joined]
    rfl
  have unicode : readUnicode (before ++ [0x5C,0x75]) (h0 :: h1 :: h2 :: h3 :: 0x5C :: 0x75 :: g0 :: g1 :: g2 :: g3 :: rest) =
      .ok (c.toNat,⟨before ++ [0x5C,0x75] ++ [h0,h1,h2,h3] ++ [0x5C,0x75,g0,g1,g2,g3],rest⟩) := by
    simp only [readUnicode,reads,ok_bind,if_pos half,trailed]
  have replaced : replacement 0x75 = none := rfl
  simp only [readPiece,List.cons_append,List.nil_append,replaced,unicode,ok_bind,writeUtf8_char]
  simp [pure,Except.pure]

/-- The halves of a code point beyond 16 bits make it up again. -/
theorem halves_joined {n : Nat} (small : n < 0x100000) : (0xD800 ≤ 0xD800 + n / 0x400 ∧ 0xD800 + n / 0x400 ≤ 0xDBFF) ∧
    ¬ (0xDC00 + n % 0x400 < 0xDC00 ∨ 0xDFFF < 0xDC00 + n % 0x400) ∧
    0x10000 + (((0xD800 + n / 0x400 - 0xD800) <<< 10) ||| (0xDC00 + n % 0x400 - 0xDC00)) = 0x10000 + n := by
  refine ⟨by omega,by omega,?_⟩
  have bits : (n / 0x400) <<< 10 ||| n % 0x400 = n := by
    rw [← Nat.shiftLeft_add_eq_or_of_lt (Nat.mod_lt _ (by decide)),Nat.shiftLeft_eq]
    omega
  rw [Nat.add_sub_cancel_left,Nat.add_sub_cancel_left,bits]

theorem replacement_escapes {letter : UInt8} {c : Char} (escape : (letter,c) ∈ escapes) :
    ∃ byte, replacement letter = some byte ∧ String.utf8EncodeChar c = [byte] := by
  simp only [escapes,List.mem_cons,Prod.mk.injEq,List.not_mem_nil,or_false] at escape
  rcases escape with ⟨rfl,rfl⟩ | ⟨rfl,rfl⟩ | ⟨rfl,rfl⟩ | ⟨rfl,rfl⟩ | ⟨rfl,rfl⟩ | ⟨rfl,rfl⟩ | ⟨rfl,rfl⟩ | ⟨rfl,rfl⟩ <;>
    exact ⟨_,rfl,rfl⟩

theorem plain_bytes {c : Char} (printable : 0x20 ≤ c.toNat) (quote : c ≠ '"') (slash : c ≠ '\\') :
    ∀ b ∈ String.utf8EncodeChar c, ¬ b < 0x20 ∧ b ≠ 0x22 ∧ b ≠ 0x5C := by
  by_cases small : c.toNat < 0x80
  · have byte : c.toNat.toUInt8.toNat = c.toNat := Nat.mod_eq_of_lt (Nat.lt_trans small (by decide))
    have other : ∀ d : Char, c ≠ d → c.toNat.toUInt8 ≠ d.toNat.toUInt8 ∨ ¬ d.toNat < 0x80 := by
      intro d ne
      by_contra both
      obtain ⟨same,small'⟩ := not_or.mp both
      have byte' : d.toNat.toUInt8.toNat = d.toNat := Nat.mod_eq_of_lt (Nat.lt_trans (not_not.mp small') (by decide))
      have equal : c.toNat = d.toNat := by rw [← byte,← byte',not_not.mp same]
      exact ne (Char.toNat_inj.mp equal)
    rw [utf8EncodeChar_ascii small]
    intro b member
    obtain rfl := List.mem_singleton.mp member
    refine ⟨?_,(other _ quote).resolve_right (by decide),(other _ slash).resolve_right (by decide)⟩
    rw [UInt8.lt_iff_toNat_lt,byte]
    exact Nat.not_lt.mpr printable
  · intro b member
    have high := UInt8.le_iff_toNat_le.mp (utf8EncodeChar_high small b member)
    refine ⟨?_,?_,?_⟩
    · rw [UInt8.lt_iff_toNat_lt]
      exact Nat.not_lt.mpr (Nat.le_trans (by decide) high)
    · rintro rfl
      exact absurd high (by decide)
    · rintro rfl
      exact absurd high (by decide)

/-- A string of the grammar in parts, with the bytes of its value. -/
theorem spells_pieces {text : List UInt8} {chars : List Char} (spells : Spells text chars) :
    Pieces text (chars.flatMap String.utf8EncodeChar) := by
  induction spells with
  | nil => exact .nil
  | plain c printable quote slash rest ih => exact pieces_plain (plain_bytes printable quote slash) ih
  | escape letter c escape rest ih =>
    obtain ⟨byte,replaced,encoded⟩ := replacement_escapes escape
    rw [List.flatMap_cons,encoded]
    exact .cons (.escape [letter] [byte] fun before rest => by simp [readPiece,replaced]) ih
  | unicode c hex rest ih => exact .cons (.escape _ _ (readPiece_unicode hex)) ih
  | pair c large high low rest ih =>
    have valid := char_small c
    obtain ⟨half,other,joined⟩ := @halves_joined (c.toNat - 0x10000) (by omega)
    have piece := Piece.escape _ _ (readPiece_halves high low half other (joined.trans (Nat.add_sub_cancel' large)))
    have joined := Pieces.cons piece ih
    simpa using joined

theorem piece_reads {first bytes : List UInt8} (piece : Piece first bytes) (before rest : List UInt8) :
    readPiece before (first ++ rest) = .ok (bytes,⟨before ++ first,rest⟩) ∧ (first ++ rest).head? ≠ some 0x22 ∧
      bytes.length ≤ first.length ∧ 1 ≤ first.length := by
  have reads : readPiece before (first ++ rest) = .ok (bytes,⟨before ++ first,rest⟩) ∧ (first ++ rest).head? ≠ some 0x22 := by
    cases piece with
    | plain c printable quote slash => exact ⟨by simp [readPiece,printable,slash],by simpa using quote⟩
    | escape text bytes reads => exact ⟨reads before rest,by simp⟩
  have advanced : Advanced (max 1 bytes.length) ⟨before,first ++ rest⟩ ⟨before ++ first,rest⟩ :=
    ends_of_ok readPiece_ends reads.1
  have left := advanced.left
  simp only [List.length_append] at left
  exact ⟨reads.1,reads.2,by omega,by omega⟩

/-- The slow loop decodes up to the quote. -/
theorem scanStringSlow_pieces {text bytes : List UInt8} (pieces : Pieces text bytes) (start : Nat) {turns finish : Nat}
    (before rest : List UInt8) (behind : finish ≤ before.length) (enough : text.length < turns) :
    ∃ before', scanStringSlow start turns finish ⟨before,text ++ 0x22 :: rest⟩ = .ok ⟨start,finish + bytes.length,⟨before',rest⟩⟩ ∧
      before'.take (finish + bytes.length) = before.take finish ++ bytes := by
  induction pieces generalizing turns finish before with
  | nil =>
    obtain ⟨turns,rfl⟩ := Nat.exists_eq_succ_of_ne_zero (Nat.ne_of_gt enough)
    refine ⟨before ++ [0x22],rfl,?_⟩
    rw [List.append_nil,List.length_nil,Nat.add_zero,List.take_append_of_le_length behind]
  | @cons first bytes text later piece pieces ih =>
    obtain ⟨turns,rfl⟩ := Nat.exists_eq_succ_of_ne_zero (Nat.ne_of_gt (Nat.zero_lt_of_lt enough))
    obtain ⟨reads,open',shorter,some'⟩ := piece_reads piece before (text ++ 0x22 :: rest)
    have fits : finish + bytes.length ≤ (before ++ first).length := by
      rw [List.length_append]
      omega
    rw [List.length_append] at enough
    obtain ⟨before',scans,decoded⟩ := @ih turns (finish + bytes.length) (overwrite (before ++ first) finish bytes)
      (by rwa [length_overwrite fits]) (by omega)
    refine ⟨before',?_,?_⟩
    · rw [scanStringSlow,List.append_assoc,if_neg open']
      simp only [reads,ok_bind,poke_fits fits,scans,List.length_append,Nat.add_assoc]
    · rw [List.length_append,← Nat.add_assoc,decoded,take_overwrite fits,List.take_append_of_le_length behind,List.append_assoc]

theorem scanString_pieces {text bytes : List UInt8} (pieces : Pieces text bytes) (start : Nat) (before rest : List UInt8) :
    ∃ before', scanString start before (text ++ 0x22 :: rest) = .ok ⟨start,before.length + bytes.length,⟨before',rest⟩⟩ ∧
      before'.take (before.length + bytes.length) = before ++ bytes := by
  induction pieces generalizing before with
  | nil => exact ⟨before ++ [0x22],rfl,by simp⟩
  | @cons first bytes text later piece pieces ih =>
    cases piece with
    | plain c printable quote slash =>
      obtain ⟨before',scans,decoded⟩ := ih (before ++ [c])
      refine ⟨before',?_,?_⟩
      · show scanString start before (c :: (text ++ 0x22 :: rest)) = _
        rw [scanString,if_neg printable,if_neg quote,if_neg slash,scans,List.length_append,List.length_append,Nat.add_assoc]
      · rw [List.length_append,List.length_singleton] at decoded ⊢
        rw [← Nat.add_assoc,decoded,List.append_assoc]
    | escape text' bytes reads =>
      have enough : (0x5C :: text' ++ text).length < (0x5C :: text' ++ text ++ 0x22 :: rest).length := by simp
      obtain ⟨before',scans,decoded⟩ := scanStringSlow_pieces (.cons (.escape text' bytes reads) pieces) start before rest
        (Nat.le_refl _) enough
      refine ⟨before',?_,?_⟩
      · simpa [scanString] using scans
      · rw [decoded,List.take_length]

/-- A string is read to the bytes of its value. -/
theorem readString_spells {text : List UInt8} {chars : List Char} (spells : Spells text chars) (before rest : List UInt8) :
    ∃ scanned, readString ⟨before,0x22 :: text ++ 0x22 :: rest⟩ = .ok scanned ∧
      scanned.bytes = chars.flatMap String.utf8EncodeChar ∧ scanned.text.rest = rest := by
  obtain ⟨before',scans,decoded⟩ := scanString_pieces (spells_pieces spells) (before ++ [0x22]).length (before ++ [0x22]) rest
  refine ⟨_,scans,?_,rfl⟩
  simp only [Scanned.bytes,slice,decoded]
  exact List.drop_left

/-! ## Numbers -/

def digitsValue (digits : Digits) : Nat := digits.foldl (fun value digit => 10 * value + digit.val) 0

def exponentOf (e : Exponent) : Int := if e.negative = some true then -(digitsValue e.digits : Int) else digitsValue e.digits

/-- The power of ten that the digits are multiplied by. -/
def powerOf (n : Numeral) : Int := -(n.fraction.length : Int) + n.exponent.elim 0 exponentOf

/-- The power and what is computed on the way to it do not overflow. -/
structure Moderate (n : Numeral) : Prop where
  fraction : n.fraction.length ≤ 2147483648
  exponent : ∀ e ∈ n.exponent, digitsValue e.digits ≤ 2147483647
  power : -2147483648 ≤ powerOf n ∧ powerOf n ≤ 2147483647

section
variable {D : Type} (doubles : Doubles D)

def wholeNumber (digits : Digits) : Number D :=
  digits.foldl (fun number digit => pushDigit doubles number digit.val) (.integer 0)

def withFraction (digits : Digits) (number : Number D) : Number D :=
  if digits.isEmpty then number
  else .double (digits.foldl (fun d digit => pushDouble doubles d digit.val) (number.toDouble doubles))

/-- What is computed for a numeral. -/
def numberOf (n : Numeral) : Number D :=
  let number := withFraction doubles n.fraction (wholeNumber doubles n.whole)
  (if n.exponent.isNone then number else .double (number.toDouble doubles)).finish doubles n.negative (powerOf n)

variable {doubles}

theorem digitByte_spec (digit : Fin 10) : isDigit (digitByte digit) = true ∧ (digitByte digit).toNat - 48 = digit.val := by
  revert digit
  decide

theorem digitByte_unsigned (digit : Fin 10) : (digitByte digit == 0x2D || digitByte digit == 0x2B) = false := by
  revert digit
  decide

theorem digitsLoop_digits {σ : Type} {push : σ → Nat → Except Fault σ} {digits : Digits} {s s' : σ}
    (pushed : digits.foldlM (fun s digit => push s digit.val) s = .ok s') {c : UInt8} (other : isDigit c = false)
    (before rest : List UInt8) :
    digitsLoop push s before (digits.map digitByte ++ c :: rest) = .ok (s',⟨before ++ digits.map digitByte,c :: rest⟩) := by
  induction digits generalizing s before with
  | nil =>
    obtain rfl : s = s' := by simpa [pure,Except.pure] using pushed
    simp [digitsLoop,other]
  | cons digit digits ih =>
    obtain ⟨digit',value⟩ := digitByte_spec digit
    rw [List.foldlM_cons] at pushed
    have more : (digits.map digitByte ++ c :: rest).isEmpty = false := by simp
    rw [List.map_cons,List.cons_append,digitsLoop,if_pos digit',if_neg (by simp [more]),value]
    cases pushes : push s digit.val with
    | error fault => simp [pushes,bind,Except.bind] at pushed
    | ok s1 =>
      rw [pushes,ok_bind] at pushed
      rw [ok_bind,ih pushed,List.append_assoc]
      rfl

theorem optional_hit {among : UInt8 → Bool} {c : UInt8} (found : among c = true) (before : List UInt8) {rest : List UInt8}
    (more : rest ≠ []) : optional among ⟨before,c :: rest⟩ = .ok (some c,⟨before ++ [c],rest⟩) := by
  simp only [optional,if_pos found]
  rw [if_neg (by simpa using more)]

theorem optional_miss {among : UInt8 → Bool} {c : UInt8} (missing : among c = false) (before rest : List UInt8) :
    optional among ⟨before,c :: rest⟩ = .ok (none,⟨before,c :: rest⟩) := by
  simp [optional,missing]

theorem checked_ok {i : Int} (low : -2147483648 ≤ i) (high : i ≤ 2147483647) : checked i = .ok i := if_pos ⟨low,high⟩

/-- Each digit of the fraction counts. -/
theorem foldlM_fraction (digits : Digits) (d : D) {exponent : Int} (low : -2147483648 ≤ exponent - digits.length)
    (high : exponent ≤ 2147483647) :
    digits.foldlM (fun s digit => pushFraction doubles s digit.val) (d,exponent) =
      .ok (digits.foldl (fun d digit => pushDouble doubles d digit.val) d,exponent - digits.length) := by
  induction digits generalizing d exponent with
  | nil => simp [pure,Except.pure]
  | cons digit digits ih =>
    rw [List.length_cons] at low
    have one := checked_ok (i := exponent - 1) (by omega) (by omega)
    rw [List.foldlM_cons,pushFraction]
    simp only [one,ok_bind]
    rw [pure_bind,ih _ (by omega) (by omega),List.foldl_cons,List.length_cons]
    congr 2
    omega

theorem foldl_digits (digits : Digits) (value : Nat) :
    digits.foldl (fun value digit => 10 * value + digit.val) value = value * 10 ^ digits.length + digitsValue digits := by
  induction digits generalizing value with
  | nil => simp [digitsValue]
  | cons digit digits ih =>
    rw [digitsValue,List.foldl_cons,List.foldl_cons,ih,ih (10 * 0 + digit.val),List.length_cons,Nat.pow_succ]
    ring

theorem foldlM_exponent (digits : Digits) {exp : Nat}
    (small : digits.foldl (fun value digit => 10 * value + digit.val) exp ≤ 2147483647) :
    digits.foldlM (fun s digit => pushExponent s digit.val) (exp : Int) =
      .ok ((digits.foldl (fun value digit => 10 * value + digit.val) exp : Nat) : Int) := by
  induction digits generalizing exp with
  | nil => rfl
  | cons digit digits ih =>
    rw [List.foldl_cons] at small ⊢
    have grown := foldl_digits digits (10 * exp + digit.val)
    have positive : 0 < 10 ^ digits.length := Nat.pow_pos (by decide)
    have least : 10 * exp + digit.val ≤ (10 * exp + digit.val) * 10 ^ digits.length := Nat.le_mul_of_pos_right _ positive
    have one := checked_ok (i := 10 * exp + digit.val) (by omega) (by omega)
    rw [List.foldlM_cons,pushExponent,one,ok_bind]
    exact_mod_cast ih small

/-- What may follow a number. -/
structure Delimits (c : UInt8) : Prop where
  digit : isDigit c = false
  point : c ≠ 0x2E
  exponent : (c == 0x65 || c == 0x45) = false

theorem parseFraction_reads {number : Number D} {digits : Digits} (moderate : digits.length ≤ 2147483648) {c : UInt8}
    (digit : isDigit c = false) (point : c ≠ 0x2E) (before rest : List UInt8) :
    parseFraction doubles number ⟨before,(if digits.isEmpty then [] else 0x2E :: digits.map digitByte) ++ c :: rest⟩ =
      .ok (withFraction doubles digits number,-(digits.length : Int),
        ⟨before ++ (if digits.isEmpty then [] else 0x2E :: digits.map digitByte),c :: rest⟩) := by
  cases digits with
  | nil =>
    have missing : (c == 0x2E) = false := by simpa using point
    have read := @optional_miss (· == 0x2E) c missing before rest
    simp only [List.isEmpty_nil,if_true,List.nil_append,parseFraction,read,ok_bind]
    simp [withFraction,pure,Except.pure]
  | cons first digits =>
    have read := @optional_hit (· == 0x2E) 0x2E rfl before ((first :: digits).map digitByte ++ c :: rest) (by simp)
    have pushed := @foldlM_fraction D doubles (first :: digits) (number.toDouble doubles) 0 (by omega) (by decide)
    have looped := digitsLoop_digits pushed digit (before ++ [0x2E]) rest
    simp only [List.isEmpty_cons,Bool.false_eq_true,if_false,List.cons_append,parseFraction]
    simp only [List.map_cons,List.cons_append] at read looped ⊢
    rw [read,ok_bind]
    simp only [Option.isNone_some,Bool.false_eq_true,if_false,looped,ok_bind]
    simp [withFraction,pure,Except.pure]

theorem parseExponent_reads {number : Number D} {exponent : Int} {e : Option Exponent}
    (moderate : ∀ x ∈ e, digitsValue x.digits ≤ 2147483647)
    (power : -2147483648 ≤ exponent + e.elim 0 exponentOf ∧ exponent + e.elim 0 exponentOf ≤ 2147483647) {c : UInt8}
    (delimits : Delimits c) (before rest : List UInt8) :
    parseExponent doubles number exponent ⟨before,e.elim [] Exponent.text ++ c :: rest⟩ =
      .ok (if e.isNone then number else .double (number.toDouble doubles),exponent + e.elim 0 exponentOf,
        ⟨before ++ e.elim [] Exponent.text,c :: rest⟩) := by
  cases e with
  | none =>
    have read := @optional_miss (fun c => c == 0x65 || c == 0x45) c delimits.exponent before rest
    simp only [Option.elim_none,List.nil_append,parseExponent,read,ok_bind]
    simp [pure,Except.pure]
  | some e =>
    obtain ⟨capital,negative,digits,nonempty⟩ := e
    have moderate := moderate _ rfl
    simp only [Option.elim_some] at power
    set letter : UInt8 := if capital then 0x45 else 0x65 with letter_def
    have isLetter : (letter == 0x65 || letter == 0x45) = true := by
      cases capital <;> rfl
    have pushed := @foldlM_exponent digits 0 moderate
    -- the sign, or none in front of a digit
    have signed : ∃ sign : Option UInt8, (sign = some 0x2D ↔ negative = some true) ∧ ∀ before,
        optional (fun c => c == 0x2D || c == 0x2B)
          ⟨before,(negative.elim [] fun negative => [if negative then 0x2D else 0x2B]) ++ digits.map digitByte ++ c :: rest⟩ =
        .ok (sign,⟨before ++ negative.elim [] fun negative => [if negative then 0x2D else 0x2B],digits.map digitByte ++ c :: rest⟩) := by
      have more : digits.map digitByte ++ c :: rest ≠ [] := by simp
      cases negative with
      | none =>
        obtain ⟨digit,digits,rfl⟩ := List.exists_cons_of_ne_nil nonempty
        refine ⟨none,by simp,fun before => ?_⟩
        simpa using @optional_miss (fun c => c == 0x2D || c == 0x2B) (digitByte digit) (digitByte_unsigned digit) before
          (digits.map digitByte ++ c :: rest)
      | some negative =>
        cases negative with
        | false => exact ⟨some 0x2B,by simp,fun before => optional_hit rfl before more⟩
        | true => exact ⟨some 0x2D,by simp,fun before => optional_hit rfl before more⟩
    obtain ⟨sign,minus,reads⟩ := signed
    have hit := @optional_hit (fun c => c == 0x65 || c == 0x45) letter isLetter before
      ((negative.elim [] fun negative => [if negative then 0x2D else 0x2B]) ++ digits.map digitByte ++ c :: rest) (by simp)
    have looped := digitsLoop_digits pushed delimits.digit
      (before ++ [letter] ++ negative.elim [] fun negative => [if negative then 0x2D else 0x2B]) rest
    have same : exponentOf ⟨capital,negative,digits,nonempty⟩ =
        if sign = some 0x2D then -(digitsValue digits : Int) else digitsValue digits := by
      simp only [exponentOf,minus]
    have one := checked_ok power.1 power.2
    rw [same] at one
    simp only [Option.elim_some,Exponent.text,← letter_def,List.cons_append,parseExponent]
    rw [hit,ok_bind]
    simp only [Option.isNone_some,Bool.false_eq_true,if_false,reads,ok_bind]
    rw [show ((0 : Nat) : Int) = 0 from rfl] at looped
    rw [looped,ok_bind,same]
    simp only [digitsValue] at one ⊢
    rw [one,ok_bind]
    simp [pure,Except.pure]

theorem foldlM_pure {σ : Type} (push : σ → Nat → σ) (digits : Digits) (s : σ) :
    digits.foldlM (fun s digit => (Except.ok (push s digit.val) : Except Fault σ)) s =
      .ok (digits.foldl (fun s digit => push s digit.val) s) := by
  induction digits generalizing s with
  | nil => rfl
  | cons digit digits ih => exact ih _

/-- A numeral is read to the number that is computed for it. -/
theorem parseNumber_reads (doubles : Doubles D) {n : Numeral} (moderate : Moderate n) {c : UInt8} (delimits : Delimits c) (before rest : List UInt8) :
    ∃ before', parseNumber doubles ⟨before,n.text ++ c :: rest⟩ = .ok (numberOf doubles n,⟨before',c :: rest⟩) := by
  obtain ⟨negative,whole,fraction,exponent,nonempty,noZeros⟩ := n
  obtain ⟨first,later,rfl⟩ := List.exists_cons_of_ne_nil nonempty
  have power := moderate.power
  simp only [powerOf] at power
  set tail := (if fraction.isEmpty then [] else 0x2E :: fraction.map digitByte) ++ (exponent.elim [] Exponent.text ++ c :: rest)
    with tail_def
  have text : (Numeral.mk negative (first :: later) fraction exponent nonempty noZeros).text ++ c :: rest =
      (if negative then [0x2D] else []) ++ ((first :: later).map digitByte ++ tail) := by
    simp [Numeral.text,tail_def]
  -- what comes behind the whole digits is no digit
  obtain ⟨d,more,behind,digit,point⟩ : ∃ d more, exponent.elim [] Exponent.text ++ c :: rest = d :: more ∧ isDigit d = false ∧
      d ≠ 0x2E := by
    cases exponent with
    | none => exact ⟨c,rest,rfl,delimits.digit,delimits.point⟩
    | some e =>
      refine ⟨if e.capital then 0x45 else 0x65,_,rfl,?_,?_⟩ <;> split <;> decide
  obtain ⟨d',more',behind',digit'⟩ : ∃ d' more', tail = d' :: more' ∧ isDigit d' = false := by
    rw [tail_def,behind]
    cases fraction with
    | nil => exact ⟨d,more,rfl,digit⟩
    | cons _ _ => exact ⟨0x2E,_,rfl,rfl⟩
  have signed : ∃ sign before', sign.isSome = negative ∧ optional (· == 0x2D)
      ⟨before,(if negative then [0x2D] else []) ++ ((first :: later).map digitByte ++ tail)⟩ =
        .ok (sign,⟨before',(first :: later).map digitByte ++ tail⟩) := by
    cases negative with
    | true => exact ⟨_,_,rfl,@optional_hit (· == 0x2D) 0x2D rfl before ((first :: later).map digitByte ++ tail) (by simp)⟩
    | false =>
      have other : (digitByte first == 0x2D) = false := (Bool.or_eq_false_iff.mp (digitByte_unsigned first)).1
      exact ⟨_,_,rfl,@optional_miss (· == 0x2D) (digitByte first) other before (later.map digitByte ++ tail)⟩
  obtain ⟨sign,before1,same,read⟩ := signed
  have looped := @digitsLoop_digits (Number D) (fun number digit => .ok (pushDigit doubles number digit)) _ _ _
    (foldlM_pure (pushDigit doubles) (first :: later) (.integer 0)) d' digit' before1 more'
  rw [← behind'] at looped
  have fractions := @parseFraction_reads D doubles (wholeNumber doubles (first :: later)) fraction moderate.fraction d digit point
    (before1 ++ (first :: later).map digitByte) more
  rw [← behind,← tail_def] at fractions
  have exponents := @parseExponent_reads D doubles (withFraction doubles fraction (wholeNumber doubles (first :: later)))
    (-(fraction.length : Int)) exponent moderate.exponent power c delimits
    (before1 ++ (first :: later).map digitByte ++ if fraction.isEmpty then [] else 0x2E :: fraction.map digitByte) rest
  refine ⟨before1 ++ (first :: later).map digitByte ++ (if fraction.isEmpty then [] else 0x2E :: fraction.map digitByte) ++
    exponent.elim [] Exponent.text,?_⟩
  rw [text,parseNumber,read,ok_bind]
  simp only [looped,ok_bind]
  rw [← wholeNumber,fractions,ok_bind]
  simp only [exponents,ok_bind,same]
  rfl

/-- Whole numbers are exact up to a bound a little below the largest `int`, and doubles
    from there on. -/
theorem wholeNumber_exact (digits : Digits) :
    if digitsValue digits ≤ 2147483559 then wholeNumber doubles digits = .integer (digitsValue digits)
    else isDouble (wholeNumber doubles digits) = true := by
  induction digits using List.reverseRecOn with
  | nil => rfl
  | append_singleton digits digit ih =>
    have value : digitsValue (digits ++ [digit]) = 10 * digitsValue digits + digit.val := by
      rw [digitsValue,List.foldl_append]
      rfl
    have pushed : wholeNumber doubles (digits ++ [digit]) = pushDigit doubles (wholeNumber doubles digits) digit.val := by
      rw [wholeNumber,List.foldl_append]
      rfl
    rw [value,pushed]
    split at ih
    · rw [ih,pushDigit]
      split <;> split
      · omega
      · norm_cast
      · rfl
      · omega
    · cases double : wholeNumber doubles digits with
      | integer i => simp [double,isDouble] at ih
      | double d =>
        rw [if_neg (by omega)]
        rfl

/-- A numeral of nothing but digits becomes an `int` with its very value, or a double if
    it is too large, though many an `int` is larger. -/
theorem parseNumber_integer (doubles : Doubles D) {n : Numeral} (fraction : n.fraction = []) (exponent : n.exponent = none)
    {c : UInt8} (delimits : Delimits c) (before rest : List UInt8) :
    ∃ before' number, parseNumber doubles ⟨before,n.text ++ c :: rest⟩ = .ok (number,⟨before',c :: rest⟩) ∧
      if digitsValue n.whole ≤ 2147483559 then
        number = .integer (if n.negative then -(digitsValue n.whole : Int) else digitsValue n.whole)
      else ∃ d, number = .double d := by
  have power : powerOf n = 0 := by simp [powerOf,fraction,exponent]
  have moderate : Moderate n := ⟨by simp [fraction],by simp [exponent],by omega⟩
  obtain ⟨before',read⟩ := parseNumber_reads doubles moderate delimits before rest
  refine ⟨before',_,read,?_⟩
  have exact' := @wholeNumber_exact D doubles n.whole
  simp only [numberOf,fraction,exponent,withFraction,List.isEmpty_nil,Option.isNone_none,if_true,power]
  split at exact'
  next small =>
    rw [if_pos small,exact']
    rfl
  next large =>
    rw [if_neg large]
    cases whole : wholeNumber doubles n.whole with
    | integer i => simp [whole,isDouble] at exact'
    | double d => exact ⟨_,rfl⟩

/-- The largest `int` is a double. -/
theorem parseNumber_integer_largest : ∃ before' number,
    parseNumber floatDoubles ⟨[],ascii "2147483647,"⟩ = .ok (number,⟨before',[0x2C]⟩) ∧
      if digitsValue [2,1,4,7,4,8,3,6,4,7] ≤ 2147483559 then
        number = .integer (if false then -(digitsValue [2,1,4,7,4,8,3,6,4,7] : Int) else digitsValue [2,1,4,7,4,8,3,6,4,7])
      else ∃ d, number = .double d :=
  @parseNumber_integer Float floatDoubles ⟨false,[2,1,4,7,4,8,3,6,4,7],[],none,by simp,by simp⟩ rfl rfl 0x2C
    ⟨by decide,by decide,by decide⟩ [] []

end

/-! ## Values -/

section
variable {D : Type} (doubles : Doubles D)

mutual
/-- The tree of a JSON value. -/
def treeOf : Json → Tree D
  | .null => .null
  | .bool false => .false
  | .bool true => .true
  | .number n => (numberOf doubles n).tree
  | .string value => .string (utf8 value)
  | .array items => .array (treesOf items)
  | .object members => .object (namedOf members)

def treesOf : List Json → List (Tree D)
  | [] => []
  | item :: items => treeOf item :: treesOf items

def namedOf : List (String × Json) → List (List UInt8 × Tree D)
  | [] => []
  | (key,json) :: members => (utf8 key,treeOf json) :: namedOf members
end

variable {doubles}

/-- One turn after the other. -/
def Runs (doubles : Doubles D) : Reader D → Reader D → Prop :=
  Relation.ReflTransGen fun r r' => r.turn doubles = .ok (.next r')

theorem runs_head {r r' r'' : Reader D} (turn : r.turn doubles = .ok (.next r')) (runs : Runs doubles r' r'') :
    Runs doubles r r'' := Relation.ReflTransGen.head turn runs

/-- The loop after some turns. -/
theorem runs_loop {r r' : Reader D} (runs : Runs doubles r r') {fuel : Nat} {outcome : Except Fault (Text × Tree D)}
    (looped : Reader.loop doubles fuel r' = some outcome) : ∃ fuel', Reader.loop doubles fuel' r = some outcome := by
  induction runs using Relation.ReflTransGen.head_induction_on with
  | refl => exact ⟨fuel,looped⟩
  | head turn _ ih =>
    obtain ⟨fuel',looped'⟩ := ih
    exact ⟨fuel' + 1,by rw [Reader.loop,turn]; exact looped'⟩

theorem loop_more {r : Reader D} {fuel : Nat} {outcome : Except Fault (Text × Tree D)}
    (looped : Reader.loop doubles fuel r = some outcome) (more : Nat) : Reader.loop doubles (fuel + more) r = some outcome := by
  induction fuel generalizing r with
  | zero => exact absurd looped (by simp [Reader.loop])
  | succ fuel ih =>
    rw [Reader.loop] at looped
    rw [Nat.add_right_comm,Reader.loop]
    cases ran : r.turn doubles with
    | error fault => rwa [ran] at looped
    | ok reading =>
      rw [ran] at looped
      cases reading with
      | done text tree => exact looped
      | next r' => exact ih looped

theorem spaces_peek {space : List UInt8} (spaces : Spaces space) {c : UInt8} (solid : isSpace c = false) (before rest : List UInt8) :
    ∃ before', peekStructure ⟨before,space ++ c :: rest⟩ = (c,⟨before',c :: rest⟩) := by
  induction space generalizing before with
  | nil => exact ⟨before,by simp [peekStructure,peekFrom,solid]⟩
  | cons d space ih =>
    have isSpace' : isSpace d = true := by
      rcases spaces d (List.mem_cons_self ..) with rfl | rfl | rfl | rfl <;> rfl
    obtain ⟨before',peeked⟩ := ih (fun e member => spaces e (List.mem_cons_of_mem _ member)) (before ++ [d])
    refine ⟨before',?_⟩
    rw [← peeked]
    simp [peekStructure,peekFrom,isSpace']

/-! ### Turns -/

/-- What may follow a value. -/
def Follows (c : UInt8) : Prop := IsSpace c ∨ c = 0x2C ∨ c = 0x5D ∨ c = 0x7D

theorem follows_delimits {c : UInt8} (follows : Follows c) : Delimits c := by
  rcases follows with (rfl | rfl | rfl | rfl) | rfl | rfl | rfl <;> exact ⟨by decide,by decide,by decide⟩

theorem separate_first {space : List UInt8} (spaces : Spaces space) {c : UInt8} (solid : isSpace c = false) (kind : ElementType)
    (before rest : List UInt8) :
    ∃ before', separate false kind ⟨before,space ++ c :: rest⟩ = .ok (c,⟨before',c :: rest⟩) := by
  obtain ⟨before',peeked⟩ := spaces_peek spaces solid before rest
  exact ⟨before',by simp [separate,peeked]⟩

theorem comma_open (kind : ElementType) : ((0x2C : UInt8) != closingBracket kind) = true := by
  rw [closingBracket]
  split <;> rfl

theorem separate_next {space space' : List UInt8} (spaces : Spaces space) (spaces' : Spaces space') {c : UInt8}
    (solid : isSpace c = false) (kind : ElementType) (before rest : List UInt8) :
    ∃ before', separate true kind ⟨before,space ++ 0x2C :: (space' ++ c :: rest)⟩ = .ok (c,⟨before',c :: rest⟩) := by
  obtain ⟨before1,peeked⟩ := @spaces_peek space spaces 0x2C rfl before (space' ++ c :: rest)
  obtain ⟨before2,peeked'⟩ := spaces_peek spaces' solid (before1 ++ [0x2C]) rest
  refine ⟨before2,?_⟩
  simp only [separate,peeked,comma_open,Bool.true_and,if_true]
  exact congrArg Except.ok peeked'

theorem separate_closing {space : List UInt8} (spaces : Spaces space) (filled : Bool) (kind : ElementType) (before rest : List UInt8) :
    ∃ before', separate filled kind ⟨before,space ++ closingBracket kind :: rest⟩ =
      .ok (closingBracket kind,⟨before',closingBracket kind :: rest⟩) := by
  have solid : isSpace (closingBracket kind) = false := by
    rw [closingBracket]
    split <;> rfl
  obtain ⟨before',peeked⟩ := spaces_peek spaces solid before rest
  refine ⟨before',?_⟩
  simp [separate,peeked]

/-- A turn that comes to an item of an array. -/
theorem turn_item {r : Reader D} {c : UInt8} {text : Text} (array : r.top.kind = .TYPE_ARRAY)
    (separated : separate r.top.filled .TYPE_ARRAY r.text = .ok (c,text)) :
    r.turn doubles = ({ r with text := text } : Reader D).value doubles := by
  rw [Reader.turn,Reader.prelude,array,separated,ok_bind]
  rfl

/-- A turn that comes to a member of an object. -/
theorem turn_member (doubles : Doubles D) {r : Reader D} {key : String} {name space before rest : List UInt8} (object : r.top.kind = .TYPE_OBJECT)
    (spells : Spells name key.toList) (spaces : Spaces space)
    (separated : separate r.top.filled .TYPE_OBJECT r.text = .ok (0x22,⟨before,0x22 :: name ++ 0x22 :: (space ++ 0x3A :: rest)⟩)) :
    ∃ before', r.turn doubles = ({ r with text := ⟨before',rest⟩, top := r.top.name (utf8 key) } : Reader D).value doubles := by
  obtain ⟨scanned,read,bytes,left⟩ := readString_spells spells before (space ++ 0x3A :: rest)
  obtain ⟨before',peeked⟩ := @spaces_peek space spaces 0x3A rfl scanned.text.before rest
  have colon : expectColon scanned.text = .ok ⟨before' ++ [0x3A],rest⟩ := by
    have same : scanned.text = ⟨scanned.text.before,space ++ 0x3A :: rest⟩ := by rw [← left]
    rw [same,expectColon]
    simp only [peeked,if_true]
    rfl
  have keyed : readKey 0x22 ⟨before,0x22 :: name ++ 0x22 :: (space ++ 0x3A :: rest)⟩ = .ok (utf8 key,⟨before' ++ [0x3A],rest⟩) := by
    simp only [readKey,ne_eq,not_true_eq_false,if_false,read,keyError,ok_bind,colon,bytes]
    rfl
  refine ⟨before' ++ [0x3A],?_⟩
  rw [Reader.turn,Reader.prelude,object,separated,ok_bind]
  simp only [if_pos (show True ∧ (0x22 : UInt8) ≠ 0x7D from ⟨trivial,by decide⟩),keyed,ok_bind]
  rfl

theorem value_close {r : Reader D} {before rest : List UInt8} (text : r.text = ⟨before,closingBracket r.top.kind :: rest⟩) :
    r.value doubles = .ok (match r.below with
      | [] => .done ⟨before ++ [closingBracket r.top.kind],rest⟩ r.top.close
      | parent :: below => .next ⟨⟨before ++ [closingBracket r.top.kind],rest⟩,parent.add r.top.close,below⟩) := by
  have solid : peekStructure r.text = (closingBracket r.top.kind,⟨before,closingBracket r.top.kind :: rest⟩) := by
    rw [text]
    refine peek_solid ?_
    cases r.top <;> simp [closingBracket,Container.kind,isSpace]
  have leads : lead (closingBracket r.top.kind) = if r.top.kind = .TYPE_ARRAY then .closeArray else .closeObject := by
    cases r.top <;> rfl
  have closed : Reader.close r.top.kind { r with text := ⟨before,closingBracket r.top.kind :: rest⟩ } = .ok (match r.below with
      | [] => .done ⟨before ++ [closingBracket r.top.kind],rest⟩ r.top.close
      | parent :: below => .next ⟨⟨before ++ [closingBracket r.top.kind],rest⟩,parent.add r.top.close,below⟩) := by
    simp only [Reader.close,ne_eq,not_true_eq_false,if_false]
    cases r.below <;> rfl
  rw [Reader.value]
  simp only [solid,leads]
  cases top : r.top with
  | array items =>
    rw [top] at closed
    exact closed
  | object members key =>
    rw [top] at closed
    exact closed

/-- The turn that closes an array or an object. -/
theorem turn_close (doubles : Doubles D) {r : Reader D} {space before rest : List UInt8} (spaces : Spaces space)
    (text : r.text = ⟨before,space ++ closingBracket r.top.kind :: rest⟩) :
    ∃ before', r.turn doubles = .ok (match r.below with
      | [] => .done ⟨before',rest⟩ r.top.close
      | parent :: below => .next ⟨⟨before',rest⟩,parent.add r.top.close,below⟩) := by
  obtain ⟨before1,separated⟩ := separate_closing spaces r.top.filled r.top.kind before rest
  have unkeyed : ¬ (r.top.kind = .TYPE_OBJECT ∧ closingBracket r.top.kind ≠ 0x7D) := by
    rintro ⟨object,other⟩
    exact other (by rw [object]; rfl)
  refine ⟨before1 ++ [closingBracket r.top.kind],?_⟩
  rw [Reader.turn,Reader.prelude,text,separated,ok_bind]
  simp only [if_neg unkeyed]
  exact value_close (r := { r with text := ⟨before1,closingBracket r.top.kind :: rest⟩ }) rfl

/-! ### Phrases -/

/-- What the turns make of a part of a text. -/
def Reads (doubles : Doubles D) : Phrase → List UInt8 → Prop
  | .value json, text => ∀ (r : Reader D) space c rest, Spaces space → Follows c → r.top.waits = true →
      r.text.rest = space ++ (text ++ c :: rest) → ∃ r' before', r.value doubles = .ok (.next r') ∧
        Runs doubles r' ⟨⟨before',c :: rest⟩,r.top.add (treeOf doubles json),r.below⟩
  | .inside (.array items), text => ∀ before below rest, ∃ before' space, Spaces space ∧
      Runs doubles ⟨⟨before,text ++ 0x5D :: rest⟩,.array [],below⟩
        ⟨⟨before',space ++ 0x5D :: rest⟩,.array (treesOf doubles items),below⟩
  | .inside (.object members), text => ∀ before below rest, ∃ before' space, Spaces space ∧
      Runs doubles ⟨⟨before,text ++ 0x7D :: rest⟩,.object [] none,below⟩
        ⟨⟨before',space ++ 0x7D :: rest⟩,.object (namedOf doubles members) none,below⟩
  | .inside _, _ => True
  | .items items, text => ∀ before done below rest, done ≠ [] → ∃ before' space, Spaces space ∧
      Runs doubles ⟨⟨before,text ++ 0x5D :: rest⟩,.array done,below⟩
        ⟨⟨before',space ++ 0x5D :: rest⟩,.array (done ++ treesOf doubles items),below⟩
  | .members members, text => ∀ before done below rest, done ≠ [] → ∃ before' space, Spaces space ∧
      Runs doubles ⟨⟨before,text ++ 0x7D :: rest⟩,.object done none,below⟩
        ⟨⟨before',space ++ 0x7D :: rest⟩,.object (done ++ namedOf doubles members) none,below⟩

/-- A value begins with a character of its own. -/
theorem writes_begins {among : Numeral → Prop} {json : Json} {text : List UInt8} (writes : Writes among (.value json) text) :
    ∃ c rest, text = c :: rest ∧ isSpace c = false := by
  cases writes with
  | null => exact ⟨_,_,rfl,rfl⟩
  | false => exact ⟨_,_,rfl,rfl⟩
  | true => exact ⟨_,_,rfl,rfl⟩
  | number numeral allowed =>
    obtain ⟨negative,whole,fraction,exponent,nonempty,noZeros⟩ := numeral
    obtain ⟨first,later,rfl⟩ := List.exists_cons_of_ne_nil nonempty
    cases negative with
    | true => exact ⟨0x2D,_,rfl,rfl⟩
    | false =>
      refine ⟨digitByte first,_,rfl,?_⟩
      clear noZeros nonempty allowed
      revert first
      decide
  | string value spells => exact ⟨_,_,rfl,rfl⟩
  | array inside => exact ⟨_,_,rfl,rfl⟩
  | object inside => exact ⟨_,_,rfl,rfl⟩

/-- What comes behind an element. -/
theorem later_follows {space : List UInt8} (spaces : Spaces space) {c : UInt8} (follows : Follows c) (rest : List UInt8) :
    ∃ d more, space ++ c :: rest = d :: more ∧ Follows d := by
  cases space with
  | nil => exact ⟨c,rest,rfl,follows⟩
  | cons d space => exact ⟨d,space ++ c :: rest,rfl,.inl (spaces d (List.mem_cons_self ..))⟩

theorem items_follow {among : Numeral → Prop} {items : List Json} {text : List UInt8} (writes : Writes among (.items items) text)
    (rest : List UInt8) : ∃ d more, text ++ 0x5D :: rest = d :: more ∧ Follows d := by
  cases writes with
  | lastItem spaces => exact later_follows spaces (.inr (.inr (.inl rfl))) rest
  | nextItem spaces spaces' value later =>
    simp only [List.append_assoc,List.cons_append]
    exact later_follows spaces (.inr (.inl rfl)) _

theorem members_follow {among : Numeral → Prop} {members : List (String × Json)} {text : List UInt8}
    (writes : Writes among (.members members) text) (rest : List UInt8) : ∃ d more, text ++ 0x7D :: rest = d :: more ∧ Follows d := by
  cases writes with
  | lastMember spaces => exact later_follows spaces (.inr (.inr (.inr rfl))) rest
  | nextMember spaces spaces' spells spaces1 spaces2 value later =>
    simp only [List.append_assoc,List.cons_append]
    exact later_follows spaces (.inr (.inl rfl)) _

theorem parseWord_reads (letters : List UInt8) (message : String) (before : List UInt8) (first : UInt8) (rest : List UInt8) :
    parseWord letters message ⟨before,first :: letters ++ rest⟩ = .ok ⟨before ++ first :: letters,rest⟩ := by
  have enough : ¬ (first :: letters ++ rest).length < letters.length + 1 := by simp
  have same : ¬ ((first :: letters ++ rest).drop 1).take letters.length ≠ letters := by simp
  have taken : (first :: letters ++ rest).take (letters.length + 1) = first :: letters := by simp
  have dropped : (first :: letters ++ rest).drop (letters.length + 1) = rest := by simp
  rw [parseWord,if_neg enough,if_neg same,taken,dropped]

/-- A value that is read in one go. -/
theorem reads_scalar {json : Json} {text : List UInt8} (begins : ∃ c rest, text = c :: rest ∧ isSpace c = false)
    (one : ∀ (r : Reader D) before c rest, Follows c → peekStructure r.text = ((text ++ c :: rest).headD 0,⟨before,text ++ c :: rest⟩) →
      ∃ before', r.value doubles = .ok (r.add ⟨before',c :: rest⟩ (treeOf doubles json))) : Reads doubles (.value json) text := by
  intro r space c rest spaces follows waits left
  obtain ⟨first,more,rfl,solid⟩ := begins
  obtain ⟨before,peeked⟩ := spaces_peek spaces solid r.text.before (more ++ c :: rest)
  have same : r.text = ⟨r.text.before,space ++ first :: (more ++ c :: rest)⟩ := by rw [← List.cons_append,← left]
  rw [← same] at peeked
  obtain ⟨before',read⟩ := one r before c rest follows peeked
  exact ⟨_,before',read,.refl⟩

theorem item_runs {json : Json} {text : List UInt8} (value : Reads doubles (.value json) text) {r : Reader D} {c d : UInt8}
    {before more : List UInt8} (array : r.top.kind = .TYPE_ARRAY)
    (separated : separate r.top.filled .TYPE_ARRAY r.text = .ok (c,⟨before,text ++ d :: more⟩)) (follows : Follows d) :
    ∃ before', Runs doubles r ⟨⟨before',d :: more⟩,r.top.add (treeOf doubles json),r.below⟩ := by
  have waits : r.top.waits = true := array_waits (by rw [array]; simp)
  obtain ⟨r',before',read,runs⟩ := value { r with text := ⟨before,text ++ d :: more⟩ } [] d more (by simp [Spaces]) follows waits rfl
  exact ⟨before',runs_head ((turn_item array separated).trans read) runs⟩

theorem member_runs {json : Json} {text : List UInt8} (value : Reads doubles (.value json) text) {r : Reader D} {d : UInt8}
    {key : String} {name space space' before more : List UInt8} {done : List (List UInt8 × Tree D)} (object : r.top = .object done none)
    (spells : Spells name key.toList) (spaces : Spaces space) (spaces' : Spaces space')
    (separated : separate r.top.filled .TYPE_OBJECT r.text =
      .ok (0x22,⟨before,0x22 :: name ++ 0x22 :: (space ++ 0x3A :: (space' ++ (text ++ d :: more)))⟩)) (follows : Follows d) :
    ∃ before', Runs doubles r ⟨⟨before',d :: more⟩,.object (done ++ [(utf8 key,treeOf doubles json)]) none,r.below⟩ := by
  obtain ⟨before1,turn⟩ := turn_member doubles (by rw [object]; rfl) spells spaces separated
  obtain ⟨r',before',read,runs⟩ := value ⟨⟨before1,space' ++ (text ++ d :: more)⟩,r.top.name (utf8 key),r.below⟩ space' d more spaces'
    follows (name_waits _ _) rfl
  refine ⟨before',runs_head (turn.trans read) ?_⟩
  simpa only [object,Container.name,Container.add] using runs

/-- A keyword, by its first letter. -/
theorem reads_word {json : Json} {first : UInt8} (letters : List UInt8) (message : String) (solid : isSpace first = false)
    (one : ∀ (r : Reader D) text, peekStructure r.text = (first,text) →
      r.value doubles = parseWord letters message text >>= fun text => .ok (r.add text (treeOf doubles json))) :
    Reads doubles (.value json) (first :: letters) := by
  refine reads_scalar ⟨_,_,rfl,solid⟩ fun r before c rest follows peeked => ⟨before ++ first :: letters,?_⟩
  rw [one r _ peeked,parseWord_reads]
  rfl

theorem numeral_leads (n : Numeral) (rest : List UInt8) : lead ((n.text ++ rest).headD 0) = .number := by
  obtain ⟨negative,whole,fraction,exponent,nonempty,noZeros⟩ := n
  obtain ⟨first,later,rfl⟩ := List.exists_cons_of_ne_nil nonempty
  cases negative with
  | true => rfl
  | false =>
    show lead (digitByte first) = .number
    clear noZeros nonempty
    revert first
    decide

/-- Brackets around what is read. -/
theorem reads_structure {json : Json} (kind : ElementType) {opening : UInt8} {inner : List UInt8} (closed : Container D)
    (solid : isSpace opening = false) (kind' : closed.kind = kind) (close : closed.close = treeOf doubles json)
    (opens : ∀ (r : Reader D) text, peekStructure r.text = (opening,text) →
      r.value doubles = .ok (.next ⟨text.next,.opened kind,r.top :: r.below⟩))
    (inside : ∀ before below rest, ∃ before' space, Spaces space ∧
      Runs doubles ⟨⟨before,inner ++ closingBracket kind :: rest⟩,.opened kind,below⟩
        ⟨⟨before',space ++ closingBracket kind :: rest⟩,closed,below⟩) :
    Reads doubles (.value json) (opening :: inner ++ [closingBracket kind]) := by
  intro r space c rest spaces follows waits left
  obtain ⟨before,peeked⟩ := spaces_peek spaces solid r.text.before (inner ++ closingBracket kind :: c :: rest)
  have same : r.text = ⟨r.text.before,space ++ opening :: (inner ++ closingBracket kind :: c :: rest)⟩ := by
    simp only [List.cons_append,List.append_assoc,List.nil_append] at left
    rw [← left]
  rw [← same] at peeked
  obtain ⟨before1,space',spaces',runs⟩ := inside (before ++ [opening]) (r.top :: r.below) (c :: rest)
  obtain ⟨before2,turn⟩ := turn_close doubles
    (r := ⟨⟨before1,space' ++ closingBracket kind :: c :: rest⟩,closed,r.top :: r.below⟩) spaces' (by rw [kind'])
  refine ⟨_,before2,opens r _ peeked,runs.trans (.single ?_)⟩
  rw [turn,close]

/-- Every part of a JSON text is read to what it stands for. -/
theorem writes_reads (doubles : Doubles D) {phrase : Phrase} {text : List UInt8} (writes : Writes Moderate phrase text) : Reads doubles phrase text := by
  induction writes with
  | null =>
    refine reads_word (ascii "ull") "expected 'null'" rfl fun r text peeked => ?_
    rw [Reader.value,peeked]
    rfl
  | false =>
    refine reads_word (ascii "alse") "expected 'false'" rfl fun r text peeked => ?_
    rw [Reader.value,peeked]
    rfl
  | true =>
    refine reads_word (ascii "rue") "expected 'true'" rfl fun r text peeked => ?_
    rw [Reader.value,peeked]
    rfl
  | number numeral moderate =>
    refine reads_scalar (writes_begins (.number numeral moderate)) fun r before c rest follows peeked => ?_
    obtain ⟨before',read⟩ := parseNumber_reads doubles moderate (follows_delimits follows) before rest
    refine ⟨before',?_⟩
    rw [Reader.value]
    simp only [peeked,numeral_leads,read,ok_bind]
    rfl
  | string value spells =>
    refine reads_scalar ⟨_,_,rfl,rfl⟩ fun r before c rest follows peeked => ?_
    obtain ⟨scanned,read,bytes,left⟩ := readString_spells spells before (c :: rest)
    have same : scanned.text = ⟨scanned.text.before,c :: rest⟩ := by rw [← left]
    refine ⟨scanned.text.before,?_⟩
    simp only [List.append_assoc,List.cons_append,List.nil_append,List.headD_cons] at peeked
    have leads : lead 0x22 = .string := rfl
    rw [Reader.value]
    simp only [peeked,leads]
    rw [show readString ⟨before,0x22 :: (_ ++ 0x22 :: c :: rest)⟩ = .ok scanned from read,ok_bind,← same,bytes]
    rfl
  | array inside ih => 
    refine reads_structure .TYPE_ARRAY (.array _) rfl rfl rfl (fun r text peeked => ?_) ih
    rw [Reader.value,peeked]
    rfl
  | object inside ih =>
    refine reads_structure .TYPE_OBJECT (.object _ none) rfl rfl rfl (fun r text peeked => ?_) ih
    rw [Reader.value,peeked]
    rfl
  | emptyArray spaces => exact fun before below rest => ⟨before,_,spaces,.refl⟩
  | @firstItem json items space text more spaces value later ih ih' =>
    intro before below rest
    obtain ⟨c,text',rfl,solid⟩ := writes_begins value
    obtain ⟨d,behind,next',follows⟩ := items_follow later rest
    obtain ⟨before1,separated⟩ := separate_first spaces solid .TYPE_ARRAY before (text' ++ d :: behind)
    obtain ⟨before2,runs⟩ := item_runs ih (r := ⟨⟨before,space ++ c :: (text' ++ d :: behind)⟩,.array [],below⟩) rfl separated follows
    obtain ⟨before3,space',spaces',runs'⟩ := ih' before2 [treeOf doubles json] below rest (by simp)
    refine ⟨before3,space',spaces',?_⟩
    simp only [List.append_assoc,List.cons_append,next'] at runs' ⊢
    exact runs.trans runs'
  | lastItem spaces => exact fun before done below rest some' => ⟨before,_,spaces,by simpa [treesOf] using .refl⟩
  | @nextItem json items space space' text more spaces spaces' value later ih ih' =>
    intro before done below rest some'
    obtain ⟨c,text',rfl,solid⟩ := writes_begins value
    obtain ⟨d,behind,next',follows⟩ := items_follow later rest
    have filled : (Container.array done).filled = true := by simpa [Container.filled] using some'
    obtain ⟨before1,separated⟩ := separate_next spaces spaces' solid .TYPE_ARRAY before (text' ++ d :: behind)
    rw [← filled] at separated
    obtain ⟨before2,runs⟩ := item_runs ih (r := ⟨⟨before,space ++ 0x2C :: (space' ++ c :: (text' ++ d :: behind))⟩,.array done,below⟩)
      rfl separated follows
    obtain ⟨before3,space'',spaces'',runs'⟩ := ih' before2 (done ++ [treeOf doubles json]) below rest (by simp)
    refine ⟨before3,space'',spaces'',?_⟩
    simp only [List.append_assoc,List.cons_append,List.nil_append,next',treesOf] at runs' ⊢
    exact runs.trans runs'
  | emptyObject spaces => exact fun before below rest => ⟨before,_,spaces,.refl⟩
  | @firstMember key json members space name space1 space2 text more spaces spells spaces1 spaces2 value later ih ih' =>
    intro before below rest
    obtain ⟨d,behind,next',follows⟩ := members_follow later rest
    obtain ⟨before1,separated⟩ := @separate_first space spaces 0x22 rfl .TYPE_OBJECT before
      (name ++ 0x22 :: (space1 ++ 0x3A :: (space2 ++ (text ++ d :: behind))))
    obtain ⟨before2,runs⟩ := member_runs ih (r := ⟨⟨before,space ++ 0x22 :: (name ++ 0x22 :: (space1 ++ 0x3A :: (space2 ++
      (text ++ d :: behind))))⟩,.object [] none,below⟩) rfl spells spaces1 spaces2 separated follows
    obtain ⟨before3,space',spaces',runs'⟩ := ih' before2 [(utf8 key,treeOf doubles json)] below rest (by simp)
    refine ⟨before3,space',spaces',?_⟩
    simp only [List.append_assoc,List.cons_append,next'] at runs' ⊢
    exact runs.trans runs'
  | lastMember spaces => exact fun before done below rest some' => ⟨before,_,spaces,by simpa [namedOf] using .refl⟩
  | @nextMember key json members space space' name space1 space2 text more spaces spaces' spells spaces1 spaces2 value later ih ih' =>
    intro before done below rest some'
    obtain ⟨d,behind,next',follows⟩ := members_follow later rest
    have filled : (Container.object done none).filled = true := by simpa [Container.filled] using some'
    obtain ⟨before1,separated⟩ := @separate_next space space' spaces spaces' 0x22 rfl .TYPE_OBJECT before
      (name ++ 0x22 :: (space1 ++ 0x3A :: (space2 ++ (text ++ d :: behind))))
    rw [← filled] at separated
    obtain ⟨before2,runs⟩ := member_runs ih (r := ⟨⟨before,space ++ 0x2C :: (space' ++ 0x22 :: (name ++ 0x22 :: (space1 ++ 0x3A ::
      (space2 ++ (text ++ d :: behind)))))⟩,.object done none,below⟩) rfl spells spaces1 spaces2 separated follows
    obtain ⟨before3,space'',spaces'',runs'⟩ := ih' before2 (done ++ [(utf8 key,treeOf doubles json)]) below rest (by simp)
    refine ⟨before3,space'',spaces'',?_⟩
    simp only [List.append_assoc,List.cons_append,List.nil_append,next',namedOf] at runs' ⊢
    exact runs.trans runs'

/-! ### Zeros -/

theorem spells_solid {text : List UInt8} {chars : List Char} (spells : Spells text chars) : (0 : UInt8) ∉ text := by
  induction spells with
  | nil => simp
  | plain c printable quote slash rest ih =>
    have solid : (0 : UInt8) ∉ String.utf8EncodeChar c := fun zero => (plain_bytes printable quote slash 0 zero).1 (by decide)
    simp [solid,ih]
  | escape letter c escape rest ih =>
    have solid : (0 : UInt8) ≠ letter := by
      rintro rfl
      obtain ⟨byte,replaced,-⟩ := replacement_escapes escape
      cases replaced
    simp [solid,ih]
  | unicode c hex rest ih =>
    have solid := hex4_solid hex
    simp [solid,ih]
  | pair c large high low rest ih =>
    have solid := hex4_solid high
    have solid' := hex4_solid low
    simp [solid,solid',ih]

theorem keyword_solid : (0 : UInt8) ∉ keyword "null" ∧ (0 : UInt8) ∉ keyword "false" ∧ (0 : UInt8) ∉ keyword "true" := by
  decide

/-- No zero stands in a JSON text. -/
theorem writes_solid {among : Numeral → Prop} {phrase : Phrase} {text : List UInt8} (writes : Writes among phrase text) :
    (0 : UInt8) ∉ text := by
  induction writes with
  | null => exact keyword_solid.1
  | false => exact keyword_solid.2.1
  | true => exact keyword_solid.2.2
  | number numeral allowed => exact numeral_solid numeral
  | string value spells =>
    have solid := spells_solid spells
    simp [solid]
  | array inside ih => simp [ih]
  | object inside ih => simp [ih]
  | emptyArray spaces => exact spaces_solid spaces
  | firstItem spaces value later ih ih' => simp [spaces_solid spaces,ih,ih']
  | lastItem spaces => exact spaces_solid spaces
  | nextItem spaces spaces' value later ih ih' => simp [spaces_solid spaces,spaces_solid spaces',ih,ih']
  | emptyObject spaces => exact spaces_solid spaces
  | firstMember spaces spells spaces1 spaces2 value later ih ih' =>
    simp [spaces_solid spaces,spells_solid spells,spaces_solid spaces1,spaces_solid spaces2,ih,ih']
  | lastMember spaces => exact spaces_solid spaces
  | nextMember spaces spaces' spells spaces1 spaces2 value later ih ih' =>
    simp [spaces_solid spaces,spaces_solid spaces',spells_solid spells,spaces_solid spaces1,spaces_solid spaces2,ih,ih']

theorem isText_solid {among : Numeral → Prop} {text : List UInt8} {json : Json} (isText : IsText among text json) :
    (0 : UInt8) ∉ text := by
  obtain ⟨space,value,space',rfl,spaces,spaces',writes⟩ := isText
  simp [spaces_solid spaces,spaces_solid spaces',writes_solid writes]

/-! ### Whole texts -/

/-- What the parser takes for a root. -/
def rooted : Json → Bool
  | .array _ => true
  | .object _ => true
  | _ => false

theorem spaces_end {space : List UInt8} (spaces : Spaces space) (before : List UInt8) :
    ∃ text, peekStructure ⟨before,space⟩ = (0,text) := by
  induction space generalizing before with
  | nil => exact ⟨_,rfl⟩
  | cons d space ih =>
    have isSpace' : isSpace d = true := by
      rcases spaces d (List.mem_cons_self ..) with rfl | rfl | rfl | rfl <;> rfl
    obtain ⟨text,peeked⟩ := ih (fun e member => spaces e (List.mem_cons_of_mem _ member)) (before ++ [d])
    refine ⟨text,?_⟩
    rw [← peeked]
    simp [peekStructure,peekFrom,isSpace']

/-- From the opening bracket to the end. -/
theorem read_structure {json : Json} (kind : ElementType) (opening : UInt8) {inner space space' : List UInt8} (closed : Container D)
    (solid : isSpace opening = false) (kind' : closed.kind = kind) (close : closed.close = treeOf doubles json)
    (opens : ∀ text text', peekStructure text = (opening,text') → openRoot text = .ok (kind,text'.next))
    (inside : ∀ before below rest, ∃ before' space, Spaces space ∧
      Runs doubles ⟨⟨before,inner ++ closingBracket kind :: rest⟩,.opened kind,below⟩
        ⟨⟨before',space ++ closingBracket kind :: rest⟩,closed,below⟩)
    (spaces : Spaces space) (spaces' : Spaces space') :
    ∃ fuel text', read doubles fuel (space ++ (opening :: inner ++ [closingBracket kind]) ++ space') =
      some (.ok (text',treeOf doubles json)) := by
  have shape : space ++ (opening :: inner ++ [closingBracket kind]) ++ space' =
      space ++ opening :: (inner ++ closingBracket kind :: space') := by simp
  obtain ⟨before,peeked⟩ := spaces_peek spaces solid [] (inner ++ closingBracket kind :: space')
  obtain ⟨before1,space'',spaces'',runs⟩ := inside (before ++ [opening]) [] space'
  obtain ⟨before2,turn⟩ := turn_close doubles
    (r := ⟨⟨before1,space'' ++ closingBracket kind :: space'⟩,closed,[]⟩) spaces'' (by rw [kind'])
  obtain ⟨text',ended⟩ := spaces_end spaces' before2
  have last : Reader.loop doubles 1 ⟨⟨before1,space'' ++ closingBracket kind :: space'⟩,closed,[]⟩ =
      some (.ok (⟨before2,space'⟩,closed.close)) := by
    rw [Reader.loop,turn]
  obtain ⟨fuel,looped⟩ := runs_loop runs last
  refine ⟨fuel,text',?_⟩
  rw [shape,read,opens _ _ peeked]
  simp only [Text.next,List.take_succ_cons,List.take_zero,List.drop_succ_cons,List.drop_zero,looped,Option.map_some,close]
  simp [Except.bind,expectEnd,ended]

theorem read_more {input : List UInt8} {fuel : Nat} {outcome : Except Fault (Text × Tree D)}
    (reads : read doubles fuel input = some outcome) (more : Nat) : read doubles (fuel + more) input = some outcome := by
  rw [read] at reads ⊢
  cases opens : openRoot ⟨[],input⟩ with
  | error fault => simpa [opens] using reads
  | ok root =>
    obtain ⟨kind,text⟩ := root
    simp only [opens,Option.map_eq_some_iff] at reads ⊢
    obtain ⟨result,looped,same⟩ := reads
    exact ⟨result,loop_more looped more,same⟩

/-- A JSON text is read to the tree of its value. -/
theorem read_text (doubles : Doubles D) {input : List UInt8} {json : Json} (isText : IsText Moderate input json) (root : rooted json = true) {fuel : Nat}
    (enough : input.length ≤ fuel) : ∃ text, read doubles fuel input = some (.ok (text,treeOf doubles json)) := by
  obtain ⟨space,value,space',rfl,spaces,spaces',writes⟩ := isText
  have some' : ∃ fuel text', read doubles fuel (space ++ value ++ space') = some (.ok (text',treeOf doubles json)) := by
    cases writes with
    | @array items text inside =>
      refine read_structure .TYPE_ARRAY 0x5B (.array (treesOf doubles items)) rfl rfl rfl (fun text text' peeked => ?_)
        (writes_reads doubles inside) spaces spaces'
      simp [openRoot,peeked]
    | @object members text inside =>
      refine read_structure .TYPE_OBJECT 0x7B (.object (namedOf doubles members) none) rfl rfl rfl (fun text text' peeked => ?_)
        (writes_reads doubles inside) spaces spaces'
      simp [openRoot,peeked]
    | null => exact absurd root (by simp [rooted])
    | false => exact absurd root (by simp [rooted])
    | true => exact absurd root (by simp [rooted])
    | number numeral moderate => exact absurd root (by simp [rooted])
    | string value spells => exact absurd root (by simp [rooted])
  obtain ⟨fuel',text',reads⟩ := some'
  obtain ⟨outcome,reads',-⟩ := read_ends doubles (space ++ value ++ space') enough
  have one := read_more reads fuel
  have other := read_more reads' fuel'
  rw [Nat.add_comm,one] at other
  exact ⟨text',reads'.trans other.symm⟩

/-- The document of what is read. -/
theorem document_shown {w : Width} {sorting : Sorting} {input : List UInt8} {fuel : Nat} {text : Text} {tree : Tree D}
    (allocated : Allocated w input.length) (enough : input.length ≤ fuel)
    (reads : read doubles fuel input = some (.ok (text,tree))) :
    ∃ document, parse w doubles sorting fuel input = some (.ok document) ∧ document.getRoot.Shows w document doubles tree := by
  obtain ⟨outcome,outcome',parses,reads',same⟩ := parse_follows doubles sorting allocated enough
  obtain rfl : outcome' = .ok (text,tree) := Option.some.inj (reads'.symm.trans reads)
  cases outcome with
  | error fault => exact same.elim
  | ok document => exact ⟨document,parses,node_shows same.2 (same.1 ▸ read_size allocated enough reads)⟩

end

end OpenRune.Sajson
