import OpenRune.CppStrings
import OpenRune.InputStreams
import OpenRune.Patching

/-!
# Class paths

The class path of the native launcher: what `extractClassPath` makes of the entries
of its configuration, and of the text files among them.
-/
namespace OpenRune.ClassPaths
open OpenRune.CppStrings OpenRune.InputStreams

abbrev Bytes := List UInt8

/-- The bytes of an ASCII text. -/
def ascii (text : String) : Bytes := text.toList.map fun c => c.toNat.toUInt8

/-- What becomes of opening a file and reading it. A directory can be opened, but
    not read. -/
inductive File
  | missing
  | unreadable
  | content (bytes : Bytes)
  deriving DecidableEq, Repr

def ifstream : File → InputStream UInt8
  | .missing => .unopened
  | .unreadable => .unreadable
  | .content bytes => .opened bytes

def File.contents : File → Option Bytes
  | .content bytes => some bytes
  | _ => none

/-- White space in the C locale. -/
def isspace (c : UInt8) : Bool := decide (c = 0x20) || (decide (0x09 ≤ c) && decide (c ≤ 0x0D))

/-- `line.find("-classpath") == 0`. -/
def isClassPath (line : Bytes) : Bool := (ascii "-classpath").isPrefixOf line

section
variable (delim : UInt8)

/-- The loop over the words of a text file. -/
def readClassPath : Nat → Bytes → InputStream UInt8 → Option (List Bytes)
  | 0, _, _ => none
  | fuel + 1, line, txt =>
    if txt.eofbit then some []
    else match extract isspace line txt with
      | (line,txt) =>
        if isClassPath line then getlines delim fuel [] (.opened (extract isspace line txt).1)
        else readClassPath fuel line txt

variable (w : Width) (files : Bytes → File)

/-- What one entry adds; the name of a file ends at its first zero. -/
def expand (fuel : Nat) (classPathURL : Bytes) : Option (List Bytes) :=
  if rfind w (ascii ".txt") classPathURL ≠ w.minus classPathURL.length 4 then some [classPathURL]
  else readClassPath delim fuel [] (ifstream (files (cStr 0 classPathURL)))

def extractClassPath (fuel : Nat) (classPath : List Bytes) : Option (List Bytes) :=
  classPath.foldlM (fun paths classPathURL => (expand delim w files fuel classPathURL).map (paths ++ ·)) []

end

/-! ## What a file lists -/

/-- The words from the first that begins with `-classpath`. -/
def fromClassPath (tokens : List Bytes) : List Bytes := tokens.dropWhile fun token => !isClassPath token

/-- The word behind it. -/
def listing (tokens : List Bytes) : Option Bytes := (fromClassPath tokens)[1]?

/-- What the loop finds: without a word behind it, the word itself. -/
def found (delim : UInt8) (tokens : List Bytes) : List Bytes :=
  match fromClassPath tokens with
  | [] => []
  | [last] => parts delim last
  | _ :: next :: _ => parts delim next

/-- What an entry adds, if the loop over its file ends. -/
def added (delim : UInt8) (w : Width) (files : Bytes → File) (classPathURL : Bytes) : Option (List Bytes) :=
  if rfind w (ascii ".txt") classPathURL ≠ w.minus classPathURL.length 4 then some [classPathURL]
  else (files (cStr 0 classPathURL)).contents.map fun bytes => found delim (words isspace bytes)

/-- Whether delimiters stand between the parts of a text, or behind them. -/
inductive Reading
  | separated
  | terminated
  deriving DecidableEq, Repr

def Reading.parts (delim : UInt8) (text : Bytes) : Reading → List Bytes
  | .separated => text.splitOn delim
  | .terminated => InputStreams.parts delim text

def Listed (reading : Reading) (delim : UInt8) : File → List Bytes
  | .content bytes => (listing (words isspace bytes)).elim [] fun token => reading.parts delim token
  | _ => []

/-- What an entry is to add. -/
def expected (reading : Reading) (delim : UInt8) (files : Bytes → File) (classPathURL : Bytes) : List Bytes :=
  if ascii ".txt" <:+ classPathURL then Listed reading delim (files (cStr 0 classPathURL)) else [classPathURL]

/-- A text file is there to be read and has a word behind its `-classpath`, if it has
    that; where delimiters stand between the parts, no part behind the last is empty. -/
structure Readable (reading : Reading) (delim : UInt8) (file : File) (bytes : Bytes) : Prop where
  opened : file = .content bytes
  followed : (fromClassPath (words isspace bytes)).length ≠ 1
  ended : reading = .separated → ∀ token, listing (words isspace bytes) = some token →
    token.getLast? ≠ some delim

/-- A text file lists just the entry that names it. -/
def ListsItself (delim : UInt8) (file : File) (classPathURL : Bytes) : Prop :=
  ∃ bytes token, file = .content bytes ∧ listing (words isspace bytes) = some token ∧ parts delim token = [classPathURL]

/-- An entry that ends in `.txt` names a file that is readable, and no entry has three
    bytes. -/
def Sound (reading : Reading) (delim : UInt8) (files : Bytes → File) (classPathURL : Bytes) : Prop :=
  if ascii ".txt" <:+ classPathURL then ∃ bytes, Readable reading delim (files (cStr 0 classPathURL)) bytes
  else classPathURL.length = 3 → ListsItself delim (files (cStr 0 classPathURL)) classPathURL

/-- The extraction ends, and every entry has added what it is to add. -/
def Expands (reading : Reading) (delim : UInt8) (w : Width) (files : Bytes → File) (classPath : List Bytes) : Prop :=
  ∀ before, before <+: classPath →
    Terminates (fun fuel => extractClassPath delim w files fuel before) (before.flatMap (expected reading delim files))

section
variable {delim : UInt8}

theorem readClassPath_stable (line : Bytes) (txt : InputStream UInt8) :
    Stable fun fuel => readClassPath delim fuel line txt := by
  intro fuel
  induction fuel generalizing line txt with
  | zero =>
    intro paths done
    cases done
  | succ fuel ih =>
    intro paths done
    simp only [readClassPath] at done ⊢
    cases ended : txt.eofbit with
    | true => simpa [ended] using done
    | false =>
      simp only [ended,Bool.false_eq_true,if_false] at done ⊢
      cases listed : isClassPath (extract isspace line txt).1 with
      | true =>
        simp only [listed,if_true] at done ⊢
        exact getlines_stable delim [] _ fuel paths done
      | false =>
        simp only [listed,Bool.false_eq_true,if_false] at done ⊢
        exact ih _ _ paths done

/-- A stream that has failed before its end never comes to it. -/
theorem readClassPath_failed {line : Bytes} {txt : InputStream UInt8} (plain : isClassPath line = false)
    (endless : txt.eofbit = false) (bad : txt.good = false) (fuel : Nat) : readClassPath delim fuel line txt = none := by
  induction fuel generalizing txt with
  | zero => rfl
  | succ fuel ih =>
    simp only [readClassPath,endless,extract_bad bad,plain,Bool.false_eq_true,if_false]
    exact ih rfl (by simp [InputStream.good])

theorem readClassPath_missing (fuel : Nat) : readClassPath delim fuel [] (ifstream .missing) = none :=
  readClassPath_failed rfl rfl rfl fuel

theorem readClassPath_unreadable (fuel : Nat) : readClassPath delim fuel [] (ifstream .unreadable) = none := by
  cases fuel with
  | zero => rfl
  | succ fuel => exact readClassPath_failed rfl rfl rfl fuel

theorem found_other {token : Bytes} (other : isClassPath token = false) (later : List Bytes) :
    found delim (token :: later) = found delim later := by
  rw [found,fromClassPath,List.dropWhile_cons_of_pos (by simp [other])]
  rfl

theorem found_classPath {token : Bytes} (begins : isClassPath token = true) (later : List Bytes) :
    found delim (token :: later) = parts delim (later.headD token) := by
  rw [found,fromClassPath,List.dropWhile_cons_of_neg (by simp [begins])]
  cases later <;> rfl

/-- The string behind a word: the next one, or still the word. -/
theorem extract_again (token rest : Bytes) :
    (extract isspace token { InputStream.opened rest with eofbit := rest.isEmpty }).1 = (words isspace rest).headD token := by
  cases rest with
  | nil => rfl
  | cons c rest =>
    change (extract isspace token (.opened (c :: rest))).1 = _
    cases listed : words isspace (c :: rest) with
    | nil =>
      rw [extract_none listed]
      rfl
    | cons next later =>
      obtain ⟨rest',-,-,read⟩ := @extract_word _ isspace _ token _ _ listed
      rw [read]
      rfl

theorem readClassPath_ended (line : Bytes) {txt : InputStream UInt8} (ended : txt.eofbit = true) :
    Terminates (fun fuel => readClassPath delim fuel line txt) [] := ⟨1,if_pos ended⟩

/-- The loop over a text ends with what it finds. -/
theorem readClassPath_content {line text : Bytes} (plain : isClassPath line = false) :
    Terminates (fun fuel => readClassPath delim fuel line (.opened text)) (found delim (words isspace text)) := by
  induction counted : text.length using Nat.strongRecOn generalizing line text with
  | _ n ih =>
    cases listed : words isspace text with
    | nil =>
      have step (fuel : Nat) : readClassPath delim (fuel + 1) line (.opened text) =
          readClassPath delim fuel line ⟨[],false,true,true,false⟩ := by
        simp only [readClassPath,extract_none listed,plain]
        rfl
      exact terminates_succ step (readClassPath_ended line rfl)
    | cons token later =>
      obtain ⟨rest,shorter,after,read⟩ := @extract_word _ isspace text line token later listed
      cases begins : isClassPath token with
      | true =>
        have step (fuel : Nat) : readClassPath delim (fuel + 1) line (.opened text) =
            getlines delim fuel [] (.opened ((words isspace rest).headD token)) := by
          simp only [readClassPath,read,begins,extract_again]
          rfl
        rw [found_classPath begins,← after]
        exact terminates_succ step (getlines_parts _ [])
      | false =>
        have step (fuel : Nat) : readClassPath delim (fuel + 1) line (.opened text) =
            readClassPath delim fuel token { InputStream.opened rest with eofbit := rest.isEmpty } := by
          simp only [readClassPath,read,begins]
          rfl
        rw [found_other begins,← after]
        refine terminates_succ step ?_
        cases rest with
        | nil => exact readClassPath_ended token rfl
        | cons c rest => exact ih (c :: rest).length (counted ▸ shorter) begins rfl

/-! ## Entries -/

variable {w : Width} {files : Bytes → File} {reading : Reading}

theorem expand_stable (classPathURL : Bytes) : Stable fun fuel => expand delim w files fuel classPathURL := by
  unfold expand
  split
  · exact fun _ _ done => done
  · exact readClassPath_stable [] _

theorem extractClassPath_append (fuel : Nat) (before : List Bytes) (classPathURL : Bytes) :
    extractClassPath delim w files fuel (before ++ [classPathURL]) = (extractClassPath delim w files fuel before).bind
      fun paths => (expand delim w files fuel classPathURL).map (paths ++ ·) := by
  rw [extractClassPath,List.foldlM_append]
  simp only [List.foldlM_cons,List.foldlM_nil,bind_pure]
  rfl

theorem added_stable (classPathURL : Bytes) (paths : List Bytes) :
    Stable fun fuel => (expand delim w files fuel classPathURL).map (paths ++ ·) := stable_map (expand_stable classPathURL) _

theorem extractClassPath_stable (classPath : List Bytes) :
    Stable fun fuel => extractClassPath delim w files fuel classPath := by
  induction classPath using List.reverseRecOn with
  | nil => exact fun _ _ done => done
  | append_singleton before classPathURL ih =>
    simp only [extractClassPath_append]
    exact stable_bind ih (added_stable classPathURL)

/-- One more entry. -/
theorem extractClassPath_next {before : List Bytes} {paths : List Bytes} (classPathURL : Bytes) (more : List Bytes)
    (done : Terminates (fun fuel => extractClassPath delim w files fuel before) paths) :
    Terminates (fun fuel => extractClassPath delim w files fuel (before ++ [classPathURL])) (paths ++ more) ↔
      Terminates (fun fuel => expand delim w files fuel classPathURL) more := by
  simp only [extractClassPath_append]
  rw [terminates_bind (extractClassPath_stable before) (added_stable classPathURL) done]
  simp [Terminates]

theorem readFile_comes (file : File) : ComesTo (fun fuel => readClassPath delim fuel [] (ifstream file))
    (file.contents.map fun bytes => found delim (words isspace bytes)) := by
  cases file with
  | missing => exact readClassPath_missing
  | unreadable => exact readClassPath_unreadable
  | content bytes => exact readClassPath_content rfl

theorem expand_comes (classPathURL : Bytes) :
    ComesTo (fun fuel => expand delim w files fuel classPathURL) (added delim w files classPathURL) := by
  unfold expand added
  split
  · exact ⟨0,rfl⟩
  · exact readFile_comes _

theorem expands_iff (classPath : List Bytes) : Expands reading delim w files classPath ↔
    ∀ classPathURL ∈ classPath, Terminates (fun fuel => expand delim w files fuel classPathURL)
      (expected reading delim files classPathURL) := by
  constructor
  · intro expands classPathURL member
    obtain ⟨before,after,rfl⟩ := List.append_of_mem member
    have early := expands before (List.prefix_append before _)
    have late := expands (before ++ [classPathURL]) ⟨after,by simp⟩
    rw [List.flatMap_append,List.flatMap_singleton] at late
    exact (extractClassPath_next classPathURL _ early).mp late
  · intro each before
    induction before using List.reverseRecOn with
    | nil => exact fun _ => ⟨0,rfl⟩
    | append_singleton before classPathURL ih =>
      intro taken
      have member : classPathURL ∈ classPath := taken.subset (by simp)
      rw [List.flatMap_append,List.flatMap_singleton]
      exact (extractClassPath_next classPathURL _ (ih ((List.prefix_append before _).trans taken))).mpr (each classPathURL member)

theorem found_cases (delim : UInt8) (tokens : List Bytes) :
    (fromClassPath tokens = [] ∧ listing tokens = none ∧ found delim tokens = []) ∨
    (∃ last, fromClassPath tokens = [last] ∧ listing tokens = none ∧ found delim tokens = parts delim last ∧
      isClassPath last = true) ∨
    ∃ first next later, fromClassPath tokens = first :: next :: later ∧ listing tokens = some next ∧
      found delim tokens = parts delim next := by
  unfold listing found
  cases remaining : fromClassPath tokens with
  | nil => exact .inl ⟨rfl,rfl,rfl⟩
  | cons first rest =>
    cases rest with
    | cons next later => exact .inr (.inr ⟨first,next,later,rfl,rfl,rfl⟩)
    | nil =>
      have begins : isClassPath first = true := by
        have stops := List.head?_dropWhile_not (fun token => !isClassPath token) tokens
        rw [show tokens.dropWhile (fun token => !isClassPath token) = [first] from remaining] at stops
        simpa using stops
      exact .inr (.inl ⟨first,rfl,rfl,rfl,begins⟩)

theorem isClassPath_length {token : Bytes} (begins : isClassPath token = true) : 10 ≤ token.length :=
  (List.isPrefixOf_iff_prefix.mp begins).length_le

theorem read_iff (reading : Reading) (token : Bytes) : parts delim token = reading.parts delim token ↔
    (reading = .separated → token ≠ [] ∧ token.getLast? ≠ some delim) := by
  cases reading with
  | separated => simpa [Reading.parts] using parts_splitOn token
  | terminated => simp [Reading.parts]

/-- What is found is what is listed. -/
theorem found_iff (reading : Reading) (text : Bytes) : found delim (words isspace text) =
      (listing (words isspace text)).elim [] (fun token => reading.parts delim token) ↔
    (fromClassPath (words isspace text)).length ≠ 1 ∧
      (reading = .separated → ∀ token, listing (words isspace text) = some token → token.getLast? ≠ some delim) := by
  rcases found_cases delim (words isspace text) with ⟨remaining,listed,same⟩ | ⟨last,remaining,listed,same,begins⟩ |
    ⟨first,next,later,remaining,listed,same⟩
  · simp [remaining,listed,same]
  · have filled : last ≠ [] := by
      rintro rfl
      cases begins
    simp [remaining,listed,same,parts_filled filled]
  · have nonempty : next ≠ [] := by
      have member : next ∈ fromClassPath (words isspace text) := by simp [remaining]
      exact words_filled ((List.dropWhile_suffix _).subset member)
    simp [remaining,listed,same,read_iff,nonempty]

theorem found_itself {classPathURL : Bytes} (three : classPathURL.length = 3) (text : Bytes) :
    found delim (words isspace text) = [classPathURL] ↔ ListsItself delim (.content text) classPathURL := by
  have itself : ListsItself delim (.content text) classPathURL ↔
      ∃ token, listing (words isspace text) = some token ∧ parts delim token = [classPathURL] := by
    constructor
    · rintro ⟨bytes,token,same,listed,single⟩
      cases same
      exact ⟨token,listed,single⟩
    · rintro ⟨token,listed,single⟩
      exact ⟨text,token,rfl,listed,single⟩
  rw [itself]
  rcases found_cases delim (words isspace text) with ⟨-,listed,same⟩ | ⟨last,-,listed,same,begins⟩ |
    ⟨first,next,later,-,listed,same⟩
  · simp [listed,same]
  · have long := isClassPath_length begins
    have other : parts delim last ≠ [classPathURL] := by
      intro single
      have bound := parts_single single
      omega
    simp [listed,same,other]
  · simp [listed,same]

/-- The file of an entry ends its loop only when it can be read. -/
theorem readFile_iff (file : File) (paths : List Bytes) :
    Terminates (fun fuel => readClassPath delim fuel [] (ifstream file)) paths ↔
      ∃ bytes, file = .content bytes ∧ found delim (words isspace bytes) = paths := by
  cases file with
  | missing => simp [terminates_never readClassPath_missing]
  | unreadable => simp [terminates_never readClassPath_unreadable]
  | content bytes =>
    have done : Terminates (fun fuel => readClassPath delim fuel [] (ifstream (.content bytes))) (found delim (words isspace bytes)) :=
      readClassPath_content rfl
    rw [terminates_iff (readClassPath_stable [] _) done]
    simp

/-- An entry adds what it is to add exactly when it is sound. -/
theorem expand_iff {classPathURL : Bytes} (short : classPathURL.length < w.npos) :
    Terminates (fun fuel => expand delim w files fuel classPathURL) (expected reading delim files classPathURL) ↔
      Sound reading delim files classPathURL := by
  have positive := size_pos w
  have searched : rfind w (ascii ".txt") classPathURL = w.minus classPathURL.length 4 ↔
      ascii ".txt" <:+ classPathURL ∨ classPathURL.length + 1 = 4 :=
    rfind_minus (by decide) (show 4 < w.npos by rw [Width.npos]; omega) short
  unfold expand expected Sound
  by_cases text : ascii ".txt" <:+ classPathURL
  · simp only [if_neg (not_not.mpr (searched.mpr (.inl text))),if_pos text,readFile_iff]
    refine exists_congr fun bytes => ?_
    constructor
    · rintro ⟨opened,same⟩
      rw [opened] at same
      obtain ⟨followed,ended⟩ := (found_iff reading bytes).mp same
      exact ⟨opened,followed,ended⟩
    · rintro ⟨opened,followed,ended⟩
      rw [opened]
      exact ⟨rfl,(found_iff reading bytes).mpr ⟨followed,ended⟩⟩
  · by_cases three : classPathURL.length = 3
    · simp only [if_neg (not_not.mpr (searched.mpr (.inr (by omega)))),if_neg text,readFile_iff,forall_prop_of_true three]
      constructor
      · rintro ⟨bytes,opened,same⟩
        rw [opened]
        exact (found_itself three bytes).mp same
      · rintro ⟨bytes,token,opened,listed⟩
        exact ⟨bytes,opened,(found_itself three bytes).mpr ⟨bytes,token,rfl,listed⟩⟩
    · have plain : rfind w (ascii ".txt") classPathURL ≠ w.minus classPathURL.length 4 := by
        intro same
        rcases searched.mp same with ends | short
        · exact text ends
        · omega
      simp only [if_pos plain,if_neg text]
      exact iff_of_true ⟨0,rfl⟩ fun absurd' => absurd absurd' three

/-- The expansion ends and loses nothing exactly when every entry is sound. -/
theorem extractClassPath_iff (reading : Reading) (delim : UInt8) (w : Width) (files : Bytes → File) {classPath : List Bytes}
    (short : ∀ classPathURL ∈ classPath, classPathURL.length < w.npos) :
    Expands reading delim w files classPath ↔ ∀ classPathURL ∈ classPath, Sound reading delim files classPathURL := by
  rw [expands_iff]
  exact forall₂_congr fun classPathURL member => expand_iff (short classPathURL member)

end

/-- One text file, which lists two archives. -/
def sampleFiles (name : Bytes) : File :=
  if name = ascii "cp.txt" then .content (ascii "-classpath a:b Main\n") else .missing

theorem sample_words : words isspace (ascii "-classpath a:b Main\n") = [ascii "-classpath",ascii "a:b",ascii "Main"] := by
  decide

theorem extractClassPath_sample :
    Expands .separated 0x3A .x64 sampleFiles [ascii "a.jar",ascii "cp.txt"] := by
  refine (extractClassPath_iff .separated 0x3A .x64 sampleFiles ?_).mpr ?_
  · decide
  · intro classPathURL member
    rcases List.mem_pair.mp member with rfl | rfl
    · rw [Sound,if_neg (by decide)]
      exact fun three => absurd three (by decide)
    · rw [Sound,if_pos (by decide)]
      refine ⟨ascii "-classpath a:b Main\n",by decide,?_,fun _ token listed => ?_⟩
      · rw [sample_words]
        decide
      · rw [sample_words] at listed
        obtain rfl : ascii "a:b" = token := Option.some.inj listed
        decide

/-- An entry for a text file that is missing is never left. -/
theorem expand_missing {w : Width} {files : Bytes → File} {classPathURL : Bytes} (missing : files (cStr 0 classPathURL) = .missing)
    (text : rfind w (ascii ".txt") classPathURL = w.minus classPathURL.length 4) (delim : UInt8) (fuel : Nat) :
    extractClassPath delim w files fuel [classPathURL] = none := by
  simp only [extractClassPath,List.foldlM_cons,expand,if_neg (not_not.mpr text),missing,readClassPath_missing]
  rfl

/-- The launcher stays in its loop for a text file that is missing, and for a name of
    three bytes. -/
theorem missing_endless : (∀ fuel, extractClassPath 0x3A .x64 sampleFiles fuel [ascii "no.txt"] = none) ∧
    (∀ fuel, extractClassPath 0x3A .x64 sampleFiles fuel [ascii "lib"] = none) ∧
    ∀ reading, ¬ Expands reading 0x3A .x64 sampleFiles [ascii "no.txt"] := by
  have endless (fuel : Nat) : extractClassPath 0x3A .x64 sampleFiles fuel [ascii "no.txt"] = none :=
    expand_missing (by decide) (by decide) 0x3A fuel
  refine ⟨endless,expand_missing (by decide) (by decide) 0x3A,fun reading expands => ?_⟩
  exact terminates_never endless (expands _ List.prefix_rfl)

end OpenRune.ClassPaths
