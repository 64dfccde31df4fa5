import OpenRune.CppStrings

/-!
# Blacklisted libraries

`Launcher.setBlacklistedDlls` and the functions that stand in for `LoadLibrary`. The
names are kept twice, narrow and wide, and only the narrow ones are cleared.
-/
namespace OpenRune.DllBlacklists
open OpenRune.CppStrings

/-- A string of the virtual machine. -/
structure JString where
  units : List UInt16
  short : units.length < 2 ^ 31

/-- A character in modified UTF-8: no byte of it is zero. -/
def modifiedUtf8 (unit : UInt16) : List UInt8 :=
  let c := unit.toNat
  if 0 < c ∧ c < 0x80 then [.ofNat c]
  else if c < 0x800 then [.ofNat (0xC0 + c / 0x40),.ofNat (0x80 + c % 0x40)]
  else [.ofNat (0xE0 + c / 0x1000),.ofNat (0x80 + c / 0x40 % 0x40),.ofNat (0x80 + c % 0x40)]

/-- What the virtual machine gives of a string, which is null when it has no memory
    for it; here it has. Both texts end with a zero. -/
structure JNIEnv where
  getStringUTFChars : JString → Option (List UInt8)
  getStringChars : JString → Option (List UInt16)
  utf : ∀ name, getStringUTFChars name = some (name.units.flatMap modifiedUtf8 ++ [0])
  units : ∀ name, getStringChars name = some (name.units ++ [0])

/-- `blacklistedDlls` and `blacklistedDllsW`. -/
structure Blacklists where
  narrow : Finset (List UInt8)
  wide : Finset (List UInt16)
  deriving DecidableEq

/-- The sets when the library is loaded. -/
def Blacklists.empty : Blacklists := ⟨∅,∅⟩

def insertDll (env : JNIEnv) (blacklists : Blacklists) (jsDll : JString) : Blacklists :=
  let blacklists := match env.getStringUTFChars jsDll with
    | some str => { blacklists with narrow := insert (cStr 0 str) blacklists.narrow }
    | none => blacklists
  match env.getStringChars jsDll with
  | some str => { blacklists with wide := insert (cStr 0 str) blacklists.wide }
  | none => blacklists

def setBlacklistedDlls (env : JNIEnv) (blacklists : Blacklists) (arrDlls : List JString) : Blacklists :=
  arrDlls.foldl (insertDll env) { blacklists with narrow := ∅ }

/-- The sets after calls from the start. -/
def called (env : JNIEnv) (calls : List (List JString)) : Blacklists := calls.foldl (setBlacklistedDlls env) .empty

def isSeparator (c : UInt8) : Bool := c == '/'.toNat.toUInt8 || c == '\\'.toNat.toUInt8

def isSeparatorW (c : UInt16) : Bool := c == '/'.toNat.toUInt16 || c == '\\'.toNat.toUInt16

def getFileName (w : Width) (path : List UInt8) : List UInt8 := path.drop (w.plus (findLastOf w isSeparator path) 1)

def getFileNameW (w : Width) (path : List UInt16) : List UInt16 := path.drop (w.plus (findLastOf w isSeparatorW path) 1)

def isBlacklistedDll (w : Width) (blacklists : Blacklists) (lpLibFileName : List UInt8) : Bool :=
  decide (getFileName w lpLibFileName ∈ blacklists.narrow)

def isBlacklistedDllW (w : Width) (blacklists : Blacklists) (lpLibFileName : List UInt16) : Bool :=
  decide (getFileNameW w lpLibFileName ∈ blacklists.wide)

/-- What becomes of a call of `LoadLibrary`. -/
inductive Loading
  | refused
  | forwarded
  deriving DecidableEq, Repr

/-- `RuneLiteK32LoadLibraryA`, `RuneLiteK32LoadLibraryExA` and those for `kernelbase`. -/
def loadLibraryA (w : Width) (blacklists : Blacklists) (lpLibFileName : List UInt8) : Loading :=
  if isBlacklistedDll w blacklists lpLibFileName then .refused else .forwarded

/-- `RuneLiteK32LoadLibraryW`, `RuneLiteK32LoadLibraryExW` and those for `kernelbase`. -/
def loadLibraryW (w : Width) (blacklists : Blacklists) (lpLibFileName : List UInt16) : Loading :=
  if isBlacklistedDllW w blacklists lpLibFileName then .refused else .forwarded

/-! ## ASCII -/

/-- An ASCII text as it can be passed by a pointer. -/
def Ascii (text : List UInt8) : Prop := ∀ c ∈ text, 0 < c.toNat ∧ c.toNat < 0x80

def widen (text : List UInt8) : List UInt16 := text.map UInt8.toUInt16

theorem modifiedUtf8_ascii {unit : UInt16} (ascii : 0 < unit.toNat ∧ unit.toNat < 0x80) :
    modifiedUtf8 unit = [.ofNat unit.toNat] := if_pos ascii

theorem modifiedUtf8_other {unit : UInt16} (other : ¬ (0 < unit.toNat ∧ unit.toNat < 0x80)) :
    ∃ first rest, modifiedUtf8 unit = first :: rest ∧ 0x80 ≤ first.toNat := by
  have bound := unit.toNat_lt
  unfold modifiedUtf8
  dsimp only
  rw [if_neg other]
  split
  · refine ⟨_,_,rfl,?_⟩
    rw [UInt8.toNat_ofNat']
    omega
  · refine ⟨_,_,rfl,?_⟩
    rw [UInt8.toNat_ofNat']
    omega

theorem modifiedUtf8_nul (unit : UInt16) : 0 ∉ modifiedUtf8 unit := by
  have bound := unit.toNat_lt
  have nonzero {n : Nat} (inside : 0 < n ∧ n < 0x100) : (0 : UInt8) ≠ .ofNat n := by
    intro same
    have zero := congrArg UInt8.toNat same
    rw [UInt8.toNat_ofNat',Nat.mod_eq_of_lt inside.2] at zero
    exact absurd zero.symm (Nat.ne_of_gt inside.1)
  unfold modifiedUtf8
  dsimp only
  split
  · simpa using nonzero (n := unit.toNat) (by omega)
  split
  · simp only [List.mem_cons,List.not_mem_nil,or_false,not_or]
    exact ⟨nonzero (by omega),nonzero (by omega)⟩
  · simp only [List.mem_cons,List.not_mem_nil,or_false,not_or]
    exact ⟨nonzero (by omega),nonzero (by omega),nonzero (by omega)⟩

/-- An ASCII text is the modified UTF-8 only of itself. -/
theorem utf_eq_iff {text : List UInt8} (ascii : Ascii text) (units : List UInt16) :
    units.flatMap modifiedUtf8 = text ↔ units = widen text := by
  induction units generalizing text with
  | nil => cases text <;> simp [widen]
  | cons unit units ih =>
    rw [List.flatMap_cons]
    by_cases plain : 0 < unit.toNat ∧ unit.toNat < 0x80
    · rw [modifiedUtf8_ascii plain,List.singleton_append]
      cases text with
      | nil => simp [widen]
      | cons c text =>
        have same : UInt8.ofNat unit.toNat = c ↔ unit = c.toUInt16 := by
          rw [← UInt8.toNat_inj,← UInt16.toNat_inj,UInt8.toNat_ofNat',UInt8.toNat_toUInt16,Nat.mod_eq_of_lt (by omega)]
        have rest := ih fun d member => ascii d (List.mem_cons_of_mem c member)
        rw [widen,List.map_cons,List.cons.injEq,List.cons.injEq,same,rest,widen]
    · obtain ⟨first,rest,encoded,high⟩ := modifiedUtf8_other plain
      rw [encoded]
      cases text with
      | nil => simp [widen]
      | cons c text =>
        have low := ascii c List.mem_cons_self
        refine iff_of_false ?_ ?_
        · intro same
          obtain ⟨rfl,-⟩ := List.cons.inj same
          omega
        · intro same
          obtain ⟨rfl,-⟩ := List.cons.inj same
          rw [UInt8.toNat_toUInt16] at plain
          exact plain low

/-! ## File names -/

/-- The part of a path behind its last separator. -/
def fileName (path : List UInt8) : List UInt8 := path.rtakeWhile fun c => !isSeparator c

/-- A text that is the last part of a path. -/
structure IsFileName (text : List UInt8) : Prop where
  ascii : Ascii text
  whole : ∀ c ∈ text, isSeparator c = false

theorem fileName_isFileName {path : List UInt8} (ascii : Ascii path) : IsFileName (fileName path) where
  ascii c member := ascii c ((List.rtakeWhile_suffix _ path).subset member)
  whole c member := by simpa using List.mem_rtakeWhile_imp member

theorem fileName_whole {text : List UInt8} (named : IsFileName text) : fileName text = text :=
  List.rtakeWhile_eq_self_iff.mpr fun c member => by simp [named.whole c member]

theorem isSeparatorW_toUInt16 (c : UInt8) : isSeparatorW c.toUInt16 = isSeparator c := by
  have same (d : UInt8) : (c.toUInt16 == d.toUInt16) = (c == d) := by
    rw [Bool.eq_iff_iff,beq_iff_eq,beq_iff_eq,← UInt16.toNat_inj,← UInt8.toNat_inj,UInt8.toNat_toUInt16,UInt8.toNat_toUInt16]
  exact congrArg₂ or (same '/'.toNat.toUInt8) (same '\\'.toNat.toUInt8)

theorem getFileName_eq {w : Width} {path : List UInt8} (short : path.length < w.npos) :
    getFileName w path = fileName path := drop_findLastOf short

theorem getFileNameW_widen {w : Width} {path : List UInt8} (short : path.length < w.npos) :
    getFileNameW w (widen path) = widen (fileName path) := by
  have counted : (widen path).length < w.npos := by rwa [widen,List.length_map]
  rw [getFileNameW,drop_findLastOf counted,fileName,List.rtakeWhile,List.rtakeWhile,widen,widen,← List.map_reverse,
    List.takeWhile_map,← List.map_reverse]
  simp only [Function.comp_def,isSeparatorW_toUInt16]

/-! ## Calls -/

section
variable {env : JNIEnv} {calls : List (List JString)} {last : List JString}

theorem insertDll_eq (blacklists : Blacklists) (jsDll : JString) : insertDll env blacklists jsDll =
    ⟨insert (jsDll.units.flatMap modifiedUtf8) blacklists.narrow,insert (cStr 0 jsDll.units) blacklists.wide⟩ := by
  have whole : (0 : UInt8) ∉ jsDll.units.flatMap modifiedUtf8 := by
    intro member
    obtain ⟨unit,-,zero⟩ := List.mem_flatMap.mp member
    exact modifiedUtf8_nul unit zero
  simp only [insertDll,env.utf,env.units,cStr_terminated,cStr_whole whole]

/-- One call: the narrow set is filled anew, the wide one is added to. -/
theorem setBlacklistedDlls_mem (blacklists : Blacklists) (arrDlls : List JString) :
    (∀ text, text ∈ (setBlacklistedDlls env blacklists arrDlls).narrow ↔
      ∃ name ∈ arrDlls, name.units.flatMap modifiedUtf8 = text) ∧
    ∀ text, text ∈ (setBlacklistedDlls env blacklists arrDlls).wide ↔
      text ∈ blacklists.wide ∨ ∃ name ∈ arrDlls, cStr 0 name.units = text := by
  have filled (blacklists : Blacklists) : (∀ text, text ∈ (arrDlls.foldl (insertDll env) blacklists).narrow ↔
        text ∈ blacklists.narrow ∨ ∃ name ∈ arrDlls, name.units.flatMap modifiedUtf8 = text) ∧
      ∀ text, text ∈ (arrDlls.foldl (insertDll env) blacklists).wide ↔
        text ∈ blacklists.wide ∨ ∃ name ∈ arrDlls, cStr 0 name.units = text := by
    induction arrDlls generalizing blacklists with
    | nil => simp
    | cons name arrDlls ih =>
      obtain ⟨narrow,wide⟩ := ih (insertDll env blacklists name)
      simp only [List.foldl_cons,narrow,wide]
      simp only [insertDll_eq,Finset.mem_insert,List.mem_cons,exists_eq_or_imp]
      exact ⟨fun text => by rw [or_assoc,or_left_comm,eq_comm],fun text => by rw [or_assoc,or_left_comm,eq_comm]⟩
  obtain ⟨narrow,wide⟩ := filled { blacklists with narrow := ∅ }
  refine ⟨fun text => ?_,wide⟩
  rw [setBlacklistedDlls,narrow text]
  simp

theorem called_append (calls : List (List JString)) (last : List JString) :
    called env (calls ++ [last]) = setBlacklistedDlls env (called env calls) last := by
  rw [called,List.foldl_append]
  rfl

theorem called_narrow (text : List UInt8) : text ∈ (called env (calls ++ [last])).narrow ↔
    ∃ name ∈ last, name.units.flatMap modifiedUtf8 = text := by
  rw [called_append]
  exact (setBlacklistedDlls_mem _ last).1 text

/-- The wide set has the names of all calls. -/
theorem called_wide (calls : List (List JString)) (text : List UInt16) : text ∈ (called env calls).wide ↔
    ∃ call ∈ calls, ∃ name ∈ call, cStr 0 name.units = text := by
  induction calls using List.reverseRecOn with
  | nil => simp [called,Blacklists.empty]
  | append_singleton calls call ih =>
    rw [called_append,(setBlacklistedDlls_mem _ call).2 text,ih]
    simp [or_and_right,exists_or]

/-- The array has the name. -/
def Listed (arrDlls : List JString) (text : List UInt8) : Prop := ∃ name ∈ arrDlls, name.units = widen text

/-- Both texts of a path are blacklisted when the array has its file name, and the
    functions that stand in for `LoadLibrary` do the same with both. -/
def Agrees (w : Width) (blacklists : Blacklists) (arrDlls : List JString) : Prop :=
  ∀ path, Ascii path → path.length < w.npos →
    (isBlacklistedDll w blacklists path = true ↔ Listed arrDlls (fileName path)) ∧
      (isBlacklistedDllW w blacklists (widen path) = true ↔ Listed arrDlls (fileName path)) ∧
        loadLibraryA w blacklists path = loadLibraryW w blacklists (widen path)

/-- The file names of all calls are in the last array, those that are cut off at a
    zero included. -/
def NothingStale (calls : List (List JString)) (arrDlls : List JString) : Prop :=
  ∀ call ∈ calls, ∀ name ∈ call, ∀ text, IsFileName text → cStr 0 name.units = widen text → Listed arrDlls text

theorem widen_nul {text : List UInt8} (ascii : Ascii text) : 0 ∉ widen text := by
  intro member
  obtain ⟨c,listed,zero⟩ := List.mem_map.mp member
  have low := (ascii c listed).1
  rw [← UInt8.toNat_toUInt16,zero] at low
  exact absurd low (by decide)

theorem listed_narrow (w : Width) {path : List UInt8} (ascii : Ascii path) (short : path.length < w.npos) :
    isBlacklistedDll w (called env (calls ++ [last])) path = true ↔ Listed last (fileName path) := by
  rw [isBlacklistedDll,decide_eq_true_iff,getFileName_eq short,called_narrow]
  exact exists_congr fun name => and_congr_right fun _ => utf_eq_iff (fileName_isFileName ascii).ascii name.units

theorem listed_wide (w : Width) {path : List UInt8} (short : path.length < w.npos) :
    isBlacklistedDllW w (called env calls) (widen path) = true ↔
      ∃ call ∈ calls, ∃ name ∈ call, cStr 0 name.units = widen (fileName path) := by
  rw [isBlacklistedDllW,decide_eq_true_iff,getFileNameW_widen short,called_wide]

/-- Narrow and wide answers agree exactly when no file name of an earlier call is
    missing in the last. -/
theorem agrees_iff (w : Width) (env : JNIEnv) (calls : List (List JString)) (last : List JString) :
    Agrees w (called env (calls ++ [last])) last ↔ NothingStale (calls ++ [last]) last := by
  constructor
  · intro agrees call member name listed text named same
    have short : text.length < w.npos := by
      have counted := cStr_length 0 name.units
      have within := name.short
      have wide := size_pos w
      rw [same,widen,List.length_map] at counted
      rw [Width.npos]
      omega
    obtain ⟨-,wide,-⟩ := agrees text named.ascii short
    rw [listed_wide w short,fileName_whole named] at wide
    exact wide.mp ⟨call,member,name,listed,same⟩
  · intro fresh path ascii short
    have wide : isBlacklistedDllW w (called env (calls ++ [last])) (widen path) = true ↔ Listed last (fileName path) := by
      rw [listed_wide w short]
      constructor
      · rintro ⟨call,member,name,listed,same⟩
        exact fresh call member name listed _ (fileName_isFileName ascii) same
      · rintro ⟨name,listed,same⟩
        have whole := widen_nul (fileName_isFileName ascii).ascii
        exact ⟨last,by simp,name,listed,by rw [same,cStr_whole whole]⟩
    refine ⟨listed_narrow w ascii short,wide,?_⟩
    rw [loadLibraryA,loadLibraryW,Bool.eq_iff_iff.mpr ((listed_narrow w ascii short).trans wide.symm)]

end

def sampleEnv : JNIEnv where
  getStringUTFChars name := some (name.units.flatMap modifiedUtf8 ++ [0])
  getStringChars name := some (name.units ++ [0])
  utf _ := rfl
  units _ := rfl

/-- `a.dll`. -/
def sampleName : List UInt8 := [0x61,0x2E,0x64,0x6C,0x6C]

def sampleDll : JString := ⟨widen sampleName,by decide⟩

/-- A library that is taken off the list again is still refused by its wide name. -/
theorem wide_stale : isBlacklistedDll .x64 (called sampleEnv [[sampleDll],[]]) sampleName = false ∧
    isBlacklistedDllW .x64 (called sampleEnv [[sampleDll],[]]) (widen sampleName) = true ∧
    ¬ Agrees .x64 (called sampleEnv [[sampleDll],[]]) [] := by
  have ascii : Ascii sampleName := by simp [Ascii,sampleName]
  have refused : isBlacklistedDllW .x64 (called sampleEnv [[sampleDll],[]]) (widen sampleName) = true :=
    (listed_wide .x64 (by decide)).mpr ⟨[sampleDll],by simp,sampleDll,by simp,by decide⟩
  refine ⟨by decide,refused,fun agrees => ?_⟩
  obtain ⟨-,wide,-⟩ := agrees sampleName ascii (by decide)
  obtain ⟨name,listed,-⟩ := wide.mp refused
  cases listed

end OpenRune.DllBlacklists
