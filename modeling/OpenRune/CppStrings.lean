import Mathlib

/-!
# C++ strings

Searches answer with a position, and with `npos` when there is none. Positions are
words, so that one before the beginning is a large one.
-/
namespace OpenRune.CppStrings

/-- The widths of `size_t`. -/
inductive Width
  | x86
  | x64
  deriving DecidableEq, Repr

def Width.size : Width → Nat
  | .x86 => 2 ^ 32
  | .x64 => 2 ^ 64

def Width.npos (w : Width) : Nat := w.size - 1

def Width.plus (w : Width) (a b : Nat) : Nat := (a + b) % w.size

def Width.minus (w : Width) (a b : Nat) : Nat := (w.size + a - b) % w.size

section
variable {α : Type}

/-- The last position at which `P` holds of the rest of the text. -/
def lastWhere (P : List α → Bool) : List α → Option Nat
  | [] => if P [] then some 0 else none
  | c :: rest =>
    match lastWhere P rest with
    | some i => some (i + 1)
    | none => if P (c :: rest) then some 0 else none

/-- `find_last_of`. -/
def findLastOf (w : Width) (among : α → Bool) (text : List α) : Nat :=
  (lastWhere (fun rest => rest.head?.any among) text).getD w.npos

/-- `rfind`. -/
def rfind [BEq α] (w : Width) (pattern text : List α) : Nat := (lastWhere pattern.isPrefixOf text).getD w.npos

/-- What is read of a text from a pointer to it. -/
def cStr [DecidableEq α] (nul : α) (text : List α) : List α := text.takeWhile fun c => decide (c ≠ nul)

/-! ## Positions -/

variable {P : List α → Bool} {among : α → Bool} {text : List α} {w : Width}

theorem size_pos (w : Width) : 2 ^ 32 ≤ w.size := by
  cases w with
  | x86 => exact Nat.le_refl _
  | x64 => exact Nat.pow_le_pow_right (by decide) (by decide)

theorem lastWhere_none : lastWhere P text = none ↔ ∀ rest, rest <:+ text → P rest = false := by
  induction text with
  | nil => simp [lastWhere]
  | cons c text ih =>
    rw [lastWhere]
    cases later : lastWhere P text with
    | some i =>
      have found : ¬ ∀ rest, rest <:+ text → P rest = false := by
        rw [← ih,later]
        simp
      simp only [reduceCtorEq,false_iff]
      exact fun nowhere => found fun rest below => nowhere rest (below.trans (List.suffix_cons c text))
    | none =>
      simp only [List.suffix_cons_iff,forall_eq_or_imp]
      rw [and_iff_left (ih.mp later)]
      cases P (c :: text) <;> simp

/-- Where the last position is, and that there is none behind it. -/
theorem lastWhere_some {i : Nat} (found : lastWhere P text = some i) :
    i ≤ text.length ∧ P (text.drop i) = true ∧ ∀ rest, rest <:+ text → rest.length < text.length - i → P rest = false := by
  induction text generalizing i with
  | nil =>
    rw [lastWhere] at found
    split at found
    · cases found
      simp_all
    · cases found
  | cons c text ih =>
    rw [lastWhere] at found
    cases later : lastWhere P text with
    | some j =>
      rw [later] at found
      cases found
      obtain ⟨within,holds,last⟩ := ih later
      refine ⟨Nat.succ_le_succ within,holds,fun rest below short => ?_⟩
      rw [List.length_cons,Nat.add_sub_add_right] at short
      rcases List.suffix_cons_iff.mp below with rfl | below
      · simp only [List.length_cons] at short
        omega
      · exact last rest below short
    | none =>
      rw [later] at found
      dsimp only at found
      split at found
      · cases found
        refine ⟨Nat.zero_le _,‹_›,fun rest below short => ?_⟩
        rcases List.suffix_cons_iff.mp below with rfl | below
        · exact absurd short (Nat.lt_irrefl _)
        · exact lastWhere_none.mp later rest below
      · cases found

/-- A name in which nothing is found, after something that is. -/
theorem rtakeWhile_found {p : α → Bool} {c : α} (stops : p c = false) (before after : List α)
    (kept : ∀ d ∈ after, p d = true) : (before ++ c :: after).rtakeWhile p = after := by
  have whole : ∀ d ∈ after.reverse, p d = true := fun d member => kept d (List.mem_reverse.mp member)
  rw [List.rtakeWhile,List.reverse_append,List.reverse_cons,List.append_assoc,List.takeWhile_append_of_pos whole]
  simp [stops]

/-- Where the last of some characters stands. -/
theorem lastWhere_character {i : Nat} (found : lastWhere (fun rest => rest.head?.any among) text = some i) :
    ∃ before c after, text = before ++ c :: after ∧ before.length = i ∧ among c = true ∧ ∀ d ∈ after, among d = false := by
  obtain ⟨within,holds,last⟩ := lastWhere_some found
  obtain ⟨c,after,rest⟩ : ∃ c after, text.drop i = c :: after := by
    cases rest : text.drop i with
    | nil => simp [rest] at holds
    | cons c after => exact ⟨c,after,rfl⟩
  have whole : text = text.take i ++ c :: after := by rw [← rest,List.take_append_drop]
  have counted : after.length + 1 = text.length - i := by rw [← List.length_cons,← rest,List.length_drop]
  refine ⟨text.take i,c,after,whole,by simpa using within,by simpa [rest] using holds,fun d member => ?_⟩
  obtain ⟨front,back,rfl⟩ := List.append_of_mem member
  have below : d :: back <:+ text := by
    rw [whole]
    exact ((List.suffix_append front _).trans (List.suffix_cons c _)).trans (List.suffix_append _ _)
  simpa using last (d :: back) below (by simp only [List.length_append,List.length_cons] at counted ⊢; omega)

/-- The text behind the last of some characters; all of it when there is none. -/
theorem drop_findLastOf (short : text.length < w.npos) :
    text.drop (w.plus (findLastOf w among text) 1) = text.rtakeWhile fun c => !among c := by
  have positive := size_pos w
  unfold findLastOf
  cases found : lastWhere (fun rest => rest.head?.any among) text with
  | none =>
    have nowhere := lastWhere_none.mp found
    have all : ∀ c ∈ text, (!among c) = true := by
      intro c member
      obtain ⟨before,after,rfl⟩ := List.append_of_mem member
      have other : among c = false := by simpa using nowhere (c :: after) (List.suffix_append before _)
      simp [other]
    have wraps : w.plus w.npos 1 = 0 := by
      rw [Width.plus,Width.npos,Nat.sub_add_cancel (by omega),Nat.mod_self]
    rw [Option.getD_none,wraps,List.drop_zero,List.rtakeWhile_eq_self_iff.mpr all]
  | some i =>
    obtain ⟨before,c,after,rfl,rfl,separates,others⟩ := lastWhere_character found
    have next : w.plus before.length 1 = before.length + 1 := by
      rw [List.length_append,Width.npos] at short
      exact Nat.mod_eq_of_lt (by omega)
    rw [Option.getD_some,next,rtakeWhile_found (by simp [separates]) before after (by simpa using others)]
    simp

section
variable [BEq α] [LawfulBEq α] {pattern : List α}

theorem isPrefixOf_self (pattern : List α) : pattern.isPrefixOf pattern = true :=
  List.isPrefixOf_iff_prefix.mpr List.prefix_rfl

/-- A pattern that fits is found where the text ends in it exactly when it does. -/
theorem rfind_ends (fits : pattern.length ≤ text.length) (short : text.length < w.npos) :
    rfind w pattern text = text.length - pattern.length ↔ pattern <:+ text := by
  unfold rfind
  cases found : lastWhere pattern.isPrefixOf text with
  | none =>
    rw [Option.getD_none]
    refine iff_of_false (by omega) fun suffix => ?_
    have nowhere := lastWhere_none.mp found pattern suffix
    rw [isPrefixOf_self] at nowhere
    cases nowhere
  | some i =>
    obtain ⟨within,holds,last⟩ := lastWhere_some found
    have starts : pattern <+: text.drop i := List.isPrefixOf_iff_prefix.mp holds
    rw [Option.getD_some]
    constructor
    · rintro rfl
      have counted : pattern.length = (text.drop (text.length - pattern.length)).length := by
        rw [List.length_drop]
        omega
      rw [starts.eq_of_length counted]
      exact List.drop_suffix _ _
    · intro suffix
      have fitting := starts.length_le
      rw [List.length_drop] at fitting
      by_contra other
      have absent := last pattern suffix (by omega)
      rw [isPrefixOf_self] at absent
      cases absent

theorem rfind_longer (longer : text.length < pattern.length) : rfind w pattern text = w.npos := by
  have nowhere : lastWhere pattern.isPrefixOf text = none := by
    refine lastWhere_none.mpr fun rest below => Bool.eq_false_iff.mpr fun starts => ?_
    have first := (List.isPrefixOf_iff_prefix.mp starts).length_le
    have second := below.length_le
    omega
  rw [rfind,nowhere,Option.getD_none]

/-- A pattern is found at the length minus its own when the text ends in it, or when
    the text is one shorter: then this is the position that stands for none. -/
theorem rfind_minus (filled : pattern ≠ []) (small : pattern.length < w.npos) (short : text.length < w.npos) :
    rfind w pattern text = w.minus text.length pattern.length ↔ pattern <:+ text ∨ text.length + 1 = pattern.length := by
  have patternPos := List.length_pos_iff.mpr filled
  by_cases fits : pattern.length ≤ text.length
  · have ends : w.minus text.length pattern.length = text.length - pattern.length := by
      rw [Width.npos] at short
      rw [Width.minus,Nat.add_sub_assoc fits,Nat.add_mod_left,Nat.mod_eq_of_lt (by omega)]
    rw [ends,or_iff_left (by omega)]
    exact rfind_ends fits short
  · rw [Width.npos] at small
    have below : w.minus text.length pattern.length = w.size - (pattern.length - text.length) := by
      rw [Width.minus,Nat.mod_eq_of_lt (by omega)]
      omega
    rw [rfind_longer (not_le.mp fits),below,Width.npos,or_iff_right fun suffix => fits suffix.length_le]
    omega

end

/-! ## Pointers -/

theorem cStr_whole [DecidableEq α] {nul : α} (whole : nul ∉ text) : cStr nul text = text :=
  List.takeWhile_eq_self_iff.mpr fun c member => by simpa using fun same : c = nul => whole (same ▸ member)

/-- What stands behind the first nul is not read. -/
theorem cStr_terminated [DecidableEq α] (nul : α) (text : List α) : cStr nul (text ++ [nul]) = cStr nul text := by
  unfold cStr
  induction text with
  | nil => simp
  | cons c text ih =>
    by_cases same : c = nul
    · simp [same]
    · rw [List.cons_append,List.takeWhile_cons_of_pos (by simpa using same),
        List.takeWhile_cons_of_pos (by simpa using same),ih]

theorem cStr_length [DecidableEq α] (nul : α) (text : List α) : (cStr nul text).length ≤ text.length :=
  (List.takeWhile_prefix _).length_le

end

/-! ## UTF-8 -/

/-- The bytes of a text in UTF-8. -/
def utf8 (text : String) : List UInt8 := text.toList.flatMap String.utf8EncodeChar

theorem utf8EncodeChar_ascii {c : Char} (small : c.toNat < 0x80) : String.utf8EncodeChar c = [c.toNat.toUInt8] :=
  if_pos (Nat.le_of_lt_succ small)

end OpenRune.CppStrings
