import OpenRune.JavaInstaller

/-!
# The rows of `java_versions.properties`

`update-jre.py` prints the version, the checksum and the link of a Java runtime for
seven platforms. The build expands the file as a template, and `JavaInstaller.init`
looks three of its lines up. Platforms are told apart by `64` in the name of the
architecture, which ARM has as well.
-/
namespace OpenRune.JreRows
open OpenRune.Java OpenRune.Programs OpenRune.JavaInstaller
open OpenRune.Operations (Bytes)

/-! ## The script -/

inductive Os
  | windows
  | mac
  | linux
  deriving DecidableEq, Repr

inductive Arch
  | x64
  | x86
  | aarch64
  deriving DecidableEq, Repr

def Os.name : Os → String
  | .windows => "windows"
  | .mac => "mac"
  | .linux => "linux"

def Arch.name : Arch → String
  | .x64 => "x64"
  | .x86 => "x86"
  | .aarch64 => "aarch64"

structure Row where
  version : String
  checksum : String
  link : String
  deriving DecidableEq, Repr

/-- What the script is given: a version, the releases that it is told of, and the
    text with the checksum of the last runtime. -/
structure Fetched where
  ver11 : String
  release : Os → Arch → Row
  sha256sum : String

/-- `split` at a character, the first piece. -/
def firstPiece (separator : Char) (text : String) : String :=
  String.ofList (text.toList.takeWhile fun c => c != separator)

/-- A printed line, its constant beginning apart. -/
abbrev Printed := String × String

def Printed.line (printed : Printed) : String := printed.1 ++ printed.2

def printRow (label : String) (row : Row) (arch : Arch) (os : Os) : List Printed :=
  [("# " ++ os.name ++ " " ++ arch.name,""),(label ++ "VERSION=",row.version),(label ++ "CHKSUM=",row.checksum),
    (label ++ "LINK=",row.link)]

/-- `fetch_jre`. -/
def fetchJre (fetched : Fetched) (label : String) (arch : Arch) (os : Os) : List Printed :=
  printRow label (fetched.release os arch) arch os

/-- The row of `fetch_microsoft_jre`; the build is not part of the link. -/
def microsoftRow (version sha256sum : String) (arch : Arch) (os : Os) : Row where
  version := version
  checksum := firstPiece ' ' sha256sum
  link := "https://aka.ms/download-jdk/microsoft-jdk-" ++ firstPiece '+' version ++ "-" ++ os.name ++ "-" ++ arch.name ++
    ".zip"

def fetchMicrosoftJre (fetched : Fetched) (label : String) (arch : Arch) (os : Os) : List Printed :=
  printRow label (microsoftRow fetched.ver11 fetched.sha256sum arch os) arch os

/-- Everything that the script prints. -/
def updateJre (fetched : Fetched) : List Printed :=
  fetchJre fetched "WIN64_" .x64 .windows ++ fetchJre fetched "WIN32_" .x86 .windows ++
    fetchMicrosoftJre fetched "WIN_AARCH64_" .aarch64 .windows ++ fetchJre fetched "MAC_AMD64_" .x64 .mac ++
    fetchJre fetched "MAC_AARCH64_" .aarch64 .mac ++ fetchJre fetched "LINUX_AMD64_" .x64 .linux ++
    fetchJre fetched "LINUX_AARCH64_" .aarch64 .linux

/-- The row that is printed for a platform, if it is one of the seven. -/
def Fetched.row (fetched : Fetched) : Os → Arch → Option Row
  | .windows, .aarch64 => some (microsoftRow fetched.ver11 fetched.sha256sum .aarch64 .windows)
  | .mac, .x86 => none
  | .linux, .x86 => none
  | os, arch => some (fetched.release os arch)

/-! ## Lines -/

def print (lines : List (List Char)) : List Char := lines.flatMap fun line => line ++ ['\n']

/-- `BufferedReader.readLine` until it returns null. -/
def readLines : List Char → List (List Char)
  | [] => []
  | '\r' :: '\n' :: rest => [] :: readLines rest
  | '\r' :: rest => [] :: readLines rest
  | '\n' :: rest => [] :: readLines rest
  | c :: rest =>
    match readLines rest with
    | [] => [[c]]
    | line :: lines => (c :: line) :: lines

/-- `java_versions.properties` as it is printed. -/
def printed (fetched : Fetched) : List Char := print ((updateJre fetched).map fun printed => printed.line.toList)

theorem readLines_cons {c : Char} (noReturn : c ≠ '\r') (noFeed : c ≠ '\n') {rest line : List Char}
    {lines : List (List Char)} (read : readLines rest = line :: lines) :
    readLines (c :: rest) = (c :: line) :: lines := by
  unfold readLines
  split
  · simp_all
  · simp_all
  · simp_all
  · simp_all
  · simp_all

theorem readLines_line {line : List Char} (unbroken : '\r' ∉ line ∧ '\n' ∉ line) (rest : List Char) :
    readLines (line ++ '\n' :: rest) = line :: readLines rest := by
  induction line with
  | nil => simp [readLines]
  | cons c line ih =>
    simp only [List.mem_cons,not_or] at unbroken
    exact readLines_cons (Ne.symm unbroken.1.1) (Ne.symm unbroken.2.1) (ih ⟨unbroken.1.2,unbroken.2.2⟩)

/-- Lines without line breaks are read as they were printed. -/
theorem readLines_print {lines : List (List Char)} (unbroken : ∀ line ∈ lines, '\r' ∉ line ∧ '\n' ∉ line) :
    readLines (print lines) = lines := by
  induction lines with
  | nil => rfl
  | cons line lines ih =>
    have later := ih fun other member => unbroken other (List.mem_cons_of_mem line member)
    have text : print (line :: lines) = line ++ '\n' :: print lines := by simp [print]
    rw [text,readLines_line (unbroken line List.mem_cons_self),later]

/-! ## The build -/

def Ascii (text : List Char) : Prop := ∀ c ∈ text, c.toNat < 128

def code (c : Char) : UInt8 := UInt8.ofNat c.toNat

/-- A charset that a system may have as its default: text in ASCII is written and
    read as its codes. -/
structure Charset where
  encode : List Char → Option Bytes
  decode : Bytes → List Char
  encodes : ∀ {text : List Char}, Ascii text → encode text = some (text.map code)
  decodes : ∀ {text : List Char}, Ascii text → decode (text.map code) = text

/-- The charset in which the script prints, the one in which Gradle reads and writes
    what it filters, and what Groovy makes of a template with code or escapes; with
    `none` the build fails. -/
structure Build where
  stdout : Charset
  filteringCharset : Charset
  groovy : List Char → Option (List Char)

/-- The size of a character in a constant of a class file, whose UTF-8 has two bytes
    for NUL and three for each half of a surrogate pair. -/
def constantSize (c : Char) : Nat := if c = '\x00' then 2 else if c.toNat < 0x10000 then c.utf8Size else 6

/-- A template without code and escapes, which fits into one constant of the script
    that `SimpleTemplateEngine` makes of it. -/
def isLiteral (template : List Char) : Bool :=
  !template.contains '$' && !template.contains '\\' && !contains template "<%".toList &&
    decide ((template.map constantSize).sum ≤ 65535)

/-- The line breaks of a template. -/
def lineFeeds : List Char → List Char
  | [] => []
  | '\r' :: '\n' :: rest => '\n' :: lineFeeds rest
  | '\r' :: rest => '\n' :: lineFeeds rest
  | c :: rest => c :: lineFeeds rest

/-- `expand` of the task `processResources`. -/
def Build.expand (build : Build) (template : List Char) : Option (List Char) :=
  if isLiteral template then some (lineFeeds template) else build.groovy template

/-- `java_versions.properties` line by line, as it is read with the default charset of
    the machine. -/
def propertiesLines (build : Build) (defaultCharset : Charset) (fetched : Fetched) : Option (List String) := do
  let file ← build.stdout.encode (printed fetched)
  let expanded ← build.expand (build.filteringCharset.decode file)
  let resource ← build.filteringCharset.encode expanded
  return (readLines (defaultCharset.decode resource)).map String.ofList

theorem lineFeeds_eq {text : List Char} (noReturn : '\r' ∉ text) : lineFeeds text = text := by
  induction text using lineFeeds.induct with
  | case1 => rfl
  | case2 rest ih => simp at noReturn
  | case3 rest other ih => simp at noReturn
  | case4 c rest others other ih =>
    simp only [List.mem_cons,not_or] at noReturn
    rw [lineFeeds,ih noReturn.2]
    · exact others
    · exact other

theorem constantSize_ascii {text : List Char} (ascii : Ascii text) (filled : ∀ c ∈ text, c ≠ '\x00') :
    (text.map constantSize).sum = text.length := by
  induction text with
  | nil => rfl
  | cons c rest ih =>
    have small : c.val.toNat ≤ 127 := Nat.le_of_lt_succ (ascii c List.mem_cons_self)
    have one : c.utf8Size = 1 := if_pos (UInt32.le_iff_toNat_le.mpr small)
    have plane : c.toNat < 0x10000 := (ascii c List.mem_cons_self).trans (by decide)
    have size : constantSize c = 1 := by
      rw [constantSize,if_neg (filled c List.mem_cons_self),if_pos plane,one]
    rw [List.map_cons,List.sum_cons,size,List.length_cons,
      ih (fun d member => ascii d (List.mem_cons_of_mem c member)) fun d member => filled d (List.mem_cons_of_mem c member)]
    omega

theorem isLiteral_ascii {text : List Char} (ascii : Ascii text)
    (plain : ∀ c ∈ text, c ≠ '\x00' ∧ c ≠ '$' ∧ c ≠ '\\' ∧ c ≠ '<') (short : text.length ≤ 65535) :
    isLiteral text = true := by
  have dollar : '$' ∉ text := fun member => (plain '$' member).2.1 rfl
  have backslash : '\\' ∉ text := fun member => (plain '\\' member).2.2.1 rfl
  have noCode : contains text ['<','%'] = false := by
    refine decide_eq_false fun inside => ?_
    exact (plain '<' (inside.subset List.mem_cons_self)).2.2.2 rfl
  have size := constantSize_ascii ascii fun c member => (plain c member).1
  simp [isLiteral,dollar,backslash,noCode,size,short]

/-- Nothing in the file is changed by the build, or read in another way. -/
def Inert (fetched : Fetched) : Prop := Ascii (printed fetched) ∧ isLiteral (printed fetched) = true

/-! ## Looking a value up -/

/-- What `getValue` makes of a value: the text up to the first `=`, without
    surrounding blanks; nothing of a value that is only made of `=`. -/
def cut (value : String) : Option String :=
  if value.toList.all (fun c => c == '=') then none else some (String.ofList (trim (firstPiece '=' value)))

theorem splitOnP_empty (value : List Char) :
    (value.splitOnP fun c => c == '=').all List.isEmpty = value.all fun c => c == '=' := by
  induction value with
  | nil => rfl
  | cons c rest ih =>
    rw [List.splitOnP_cons_eq_if_modifyHead]
    by_cases separator : c = '='
    · simp [separator,ih]
    · cases pieces : rest.splitOnP fun c => c == '=' with
      | nil => exact absurd pieces (List.splitOnP_ne_nil _ _)
      | cons first others => simp [separator]

theorem splitOnP_head (value : List Char) :
    (value.splitOnP fun c => c == '=').head? = some (value.takeWhile fun c => c != '=') := by
  induction value with
  | nil => rfl
  | cons c rest ih =>
    rw [List.splitOnP_cons_eq_if_modifyHead]
    by_cases separator : c = '='
    · simp [separator]
    · cases pieces : rest.splitOnP fun c => c == '=' with
      | nil => exact absurd pieces (List.splitOnP_ne_nil _ _)
      | cons first others =>
        rw [pieces] at ih
        simp only [List.head?_cons,Option.some.injEq] at ih
        simp [separator,ih]

theorem rdropWhile_cons {α : Type} {p : α → Bool} {first : α} (keeps : p first = false) (rest : List α) :
    (first :: rest).rdropWhile p = first :: rest.rdropWhile p := by
  induction rest using List.reverseRecOn with
  | nil => simp [List.rdropWhile_singleton,keeps]
  | append_singleton rest last ih =>
    rw [← List.cons_append,List.rdropWhile_concat,List.rdropWhile_concat,ih]
    split <;> rfl

/-- The second piece of a line. -/
theorem split_second {key : List Char} (filled : key ≠ []) (plain : '=' ∉ key) (value : List Char) :
    (split (fun c => c == '=') (key ++ '=' :: value))[1]? =
      if value.all (fun c => c == '=') then none else some (value.takeWhile fun c => c != '=') := by
  have keeps : ∀ c ∈ key, (c == '=') = false := fun c member =>
    beq_eq_false_iff_ne.mpr fun same => plain (same ▸ member)
  have pieces : (key ++ '=' :: value).splitOnP (fun c => c == '=') = key :: value.splitOnP fun c => c == '=' :=
    List.splitOnP_append_cons_of_forall_mem keeps '=' (by simp) value
  have head := splitOnP_head value
  have empties := splitOnP_empty value
  rw [split,if_pos (by simp),pieces,rdropWhile_cons (by simpa using filled),List.getElem?_cons_succ]
  generalize (value.splitOnP fun c => c == '=') = rest at head empties
  by_cases nothing : value.all (fun c => c == '=') = true
  · rw [if_pos nothing,List.rdropWhile_eq_nil_iff.mpr]
    · rfl
    · exact List.all_eq_true.mp (empties.trans nothing)
  · rw [if_neg nothing,← head]
    have filled : rest.rdropWhile List.isEmpty ≠ [] := fun none =>
      nothing (empties.symm.trans (List.all_eq_true.mpr (List.rdropWhile_eq_nil_iff.mp none)))
    obtain ⟨first,others,kept⟩ := List.exists_cons_of_ne_nil filled
    obtain ⟨dropped,whole⟩ := @List.rdropWhile_prefix _ List.isEmpty rest
    have same : rest.head? = some first := by rw [← whole,kept]; rfl
    rw [kept,same]
    rfl

/-- A line begins with a key that is the beginning of its label, or else with none. -/
def Apart (key label : String) : Prop :=
  label = key ++ "=" ∨ ¬ (key.toList <+: label.toList ∨ label.toList <+: key.toList)

instance (key label : String) : Decidable (Apart key label) := inferInstanceAs (Decidable (_ ∨ ¬ _))

theorem find_label {entries : List Printed} {key value : String} (listed : (key ++ "=",value) ∈ entries)
    (apart : ∀ entry ∈ entries, Apart key entry.1)
    (once : ∀ entry ∈ entries, entry.1 = key ++ "=" → entry.2 = value) :
    (entries.map Printed.line).find? (fun line => key.toList.isPrefixOf line.toList) = some (key ++ "=" ++ value) := by
  induction entries with
  | nil => cases listed
  | cons entry rest ih =>
    rw [List.map_cons,List.find?_cons]
    by_cases labelled : entry.1 = key ++ "="
    · have begins : key.toList.isPrefixOf (Printed.line entry).toList = true := by
        simp [Printed.line,labelled,List.isPrefixOf_iff_prefix]
      rw [begins,Printed.line,labelled,once entry List.mem_cons_self labelled]
    · have others : ¬ key.toList <+: (Printed.line entry).toList := by
        rw [Printed.line,String.toList_append]
        intro begins
        have label : entry.1.toList <+: entry.1.toList ++ entry.2.toList := List.prefix_append _ _
        have either := List.prefix_or_prefix_of_prefix begins label
        exact ((apart entry List.mem_cons_self).resolve_left labelled) either
      have skipped : key.toList.isPrefixOf (Printed.line entry).toList = false :=
        Bool.eq_false_iff.mpr (mt List.isPrefixOf_iff_prefix.mp others)
      rw [skipped]
      refine ih ?_ (fun other member => apart other (List.mem_cons_of_mem entry member))
        fun other member => once other (List.mem_cons_of_mem entry member)
      rcases List.mem_cons.mp listed with same | member
      · exact absurd (congrArg Prod.fst same).symm labelled
      · exact member

/-- What follows the first `=` of the first line that begins with a key. -/
def rowValue (lines : List String) (key : String) : Option String := do
  let line ← lines.find? fun line => key.toList.isPrefixOf line.toList
  match line.toList.dropWhile fun c => c != '=' with
  | [] => none
  | _ :: value => some (String.ofList value)

/-- A lookup takes the value of a row up to the next `=`. -/
theorem getValue_rowValue {lines : List String} {key : String} (filled : key ≠ "") (plain : '=' ∉ key.toList)
    (text : String) : getValue lines key = .ok (some text) ↔ (rowValue lines key).bind cut = some text := by
  unfold getValue rowValue
  cases found : lines.find? fun line => key.toList.isPrefixOf line.toList with
  | none => simp
  | some line =>
    have begins : key.toList.isPrefixOf line.toList = true := by simpa using List.find?_some found
    obtain ⟨rest,whole⟩ := List.isPrefixOf_iff_prefix.mp begins
    have first : key.toList ≠ [] := fun empty => filled (String.toList_inj.mp (by simpa using empty))
    have dropped : line.toList.dropWhile (fun c => c != '=') = rest.dropWhile fun c => c != '=' := by
      rw [← whole,List.dropWhile_append_of_pos fun c member => bne_iff_ne.mpr fun same : c = '=' => plain (same ▸ member)]
    simp only [Option.bind_eq_bind,Option.bind_some,dropped]
    cases after : rest.dropWhile fun c => c != '=' with
    | nil =>
      have none : '=' ∉ rest := fun member => by simpa using List.dropWhile_eq_nil_iff.mp after '=' member
      have single : split (· == '=') line.toList = [line.toList] := by
        rw [split,if_neg]
        rw [← whole,List.any_append]
        simp [plain,none]
      simp [single]
    | cons separator value =>
      have drops := List.head?_dropWhile_not (fun c => c != '=') rest
      rw [after] at drops
      obtain rfl : separator = '=' := by simpa using drops
      have start : key.toList ++ rest.takeWhile (fun c => c != '=') ≠ [] := by simp [first]
      have before : '=' ∉ key.toList ++ rest.takeWhile fun c => c != '=' := by
        rw [List.mem_append,not_or]
        exact ⟨plain,fun member => by simpa using List.mem_takeWhile_imp member⟩
      have second := split_second start before value
      rw [List.append_assoc,← after,List.takeWhile_append_dropWhile,whole] at second
      simp only [second,cut,String.toList_ofList,firstPiece,Option.bind_some]
      by_cases nothing : (value.all fun c => c == '=') = true
      · simp [nothing]
      · simp [nothing]

/-- The value of a key that is the label of one line. -/
theorem rowValue_label {entries : List Printed} {key value : String} (plain : '=' ∉ key.toList)
    (listed : (key ++ "=",value) ∈ entries) (apart : ∀ entry ∈ entries, Apart key entry.1)
    (once : ∀ entry ∈ entries, entry.1 = key ++ "=" → entry.2 = value) :
    rowValue (entries.map Printed.line) key = some value := by
  have line : (key ++ "=" ++ value).toList = key.toList ++ '=' :: value.toList := by simp
  have dropped : (key.toList ++ '=' :: value.toList).dropWhile (fun c => c != '=') = '=' :: value.toList := by
    rw [List.dropWhile_append_of_pos fun c member => bne_iff_ne.mpr fun same : c = '=' => plain (same ▸ member)]
    simp
  rw [rowValue,find_label listed apart once]
  simp only [Option.bind_eq_bind,Option.bind_some,line,dropped,String.ofList_toList]

/-! ## The file as a whole -/

/-- Not empty, on one line, and without surrounding blanks. -/
structure Legible (text : String) : Prop where
  filled : text ≠ ""
  unbroken : '\r' ∉ text.toList ∧ '\n' ∉ text.toList
  bare : trim text = text.toList

def Row.Legible (row : Row) : Prop :=
  JreRows.Legible row.version ∧ JreRows.Legible row.checksum ∧ JreRows.Legible row.link

def Fetched.Legible (fetched : Fetched) : Prop := ∀ os arch row, fetched.row os arch = some row → row.Legible

theorem printRow_unbroken {fetched : Fetched} (legible : fetched.Legible) {label : String} {row : Row} {arch : Arch}
    {os : Os} (unbroken : '\r' ∉ label.toList ∧ '\n' ∉ label.toList) (found : fetched.row os arch = some row) :
    ∀ printed ∈ printRow label row arch os, '\r' ∉ (Printed.line printed).toList ∧ '\n' ∉ (Printed.line printed).toList := by
  obtain ⟨version,checksum,link⟩ := legible os arch row found
  have names : '\r' ∉ os.name.toList ∧ '\n' ∉ os.name.toList ∧ '\r' ∉ arch.name.toList ∧ '\n' ∉ arch.name.toList := by
    cases os <;> cases arch <;> decide
  simp [printRow,Printed.line,unbroken,version.unbroken,checksum.unbroken,link.unbroken,names]

theorem updateJre_unbroken {fetched : Fetched} (legible : fetched.Legible) : ∀ printed ∈ updateJre fetched,
    '\r' ∉ (Printed.line printed).toList ∧ '\n' ∉ (Printed.line printed).toList := by
  simp only [updateJre,List.forall_mem_append]
  refine ⟨⟨⟨⟨⟨⟨?_,?_⟩,?_⟩,?_⟩,?_⟩,?_⟩,?_⟩ <;> exact printRow_unbroken legible (by decide) rfl

/-- The file has the lines that were printed. -/
theorem readLines_printed {fetched : Fetched} (legible : fetched.Legible) :
    (readLines (printed fetched)).map String.ofList = (updateJre fetched).map Printed.line := by
  have read := @readLines_print ((updateJre fetched).map fun printed => printed.line.toList)
    (List.forall_mem_map.mpr (updateJre_unbroken legible))
  rw [printed,read,List.map_map]
  simp [Function.comp_def]

/-- What is so of every line, and of its end, is so of the file. -/
theorem printed_all {fetched : Fetched} {good : Char → Prop} (feed : good '\n')
    (lines : ∀ entry ∈ updateJre fetched, ∀ c ∈ (Printed.line entry).toList, good c) : ∀ c ∈ printed fetched, good c := by
  intro c member
  obtain ⟨line,listed,inside⟩ := List.mem_flatMap.mp member
  obtain ⟨entry,given,rfl⟩ := List.mem_map.mp listed
  rcases List.mem_append.mp inside with inside | ends
  · exact lines entry given c inside
  · exact List.mem_singleton.mp ends ▸ feed

theorem length_printed (fetched : Fetched) :
    (printed fetched).length = ((updateJre fetched).map fun entry => (Printed.line entry).toList.length + 1).sum := by
  rw [printed,print,List.length_flatMap,List.map_map]
  simp [Function.comp_def]

theorem lineFeeds_printed {fetched : Fetched} (legible : fetched.Legible) :
    lineFeeds (printed fetched) = printed fetched := by
  have unbroken : ∀ c ∈ printed fetched, c ≠ '\r' := by
    refine printed_all (by decide) fun entry listed c inside same => ?_
    exact (updateJre_unbroken legible entry listed).1 (same ▸ inside)
  exact lineFeeds_eq fun member => unbroken '\r' member rfl

/-- An inert file comes through the build, and through any charset. -/
theorem propertiesLines_inert (build : Build) (defaultCharset : Charset) {fetched : Fetched} (legible : fetched.Legible)
    (inert : Inert fetched) :
    propertiesLines build defaultCharset fetched = some ((updateJre fetched).map Printed.line) := by
  obtain ⟨ascii,literal⟩ := inert
  have expanded : build.expand (printed fetched) = some (printed fetched) := by
    rw [Build.expand,if_pos literal,lineFeeds_printed legible]
  simp only [propertiesLines,build.stdout.encodes ascii,build.filteringCharset.encodes ascii,
    build.filteringCharset.decodes ascii,defaultCharset.decodes ascii,expanded,Option.bind_eq_bind,Option.bind_some,
    readLines_printed legible,Option.pure_def]

/-- The architecture whose rows `init` looks up. -/
def lookedUp (os : Os) : Arch → Arch
  | .x86 => if os = .windows then .x86 else .aarch64
  | _ => .x64

/-- How the keys of a platform begin. -/
def platform : Os → Arch → String
  | .windows, .x64 => "WIN64"
  | .windows, .x86 => "WIN32"
  | .windows, .aarch64 => "WIN_AARCH64"
  | .mac, .aarch64 => "MAC_AARCH64"
  | .mac, _ => "MAC_AMD64"
  | .linux, .aarch64 => "LINUX_AARCH64"
  | .linux, _ => "LINUX_AMD64"

def suffixes : List String := ["_VERSION","_CHKSUM","_LINK"]

private def blank : Fetched := ⟨"",fun _ _ => ⟨"","",""⟩,""⟩

/-- The labels do not depend on what was fetched. -/
theorem labels_eq (fetched : Fetched) : (updateJre fetched).map Prod.fst = (updateJre blank).map Prod.fst := by
  simp only [updateJre,fetchJre,fetchMicrosoftJre,printRow,List.map_append,List.map_cons,List.map_nil]

theorem labels_nodup (fetched : Fetched) : ((updateJre fetched).map Prod.fst).Nodup := by
  rw [labels_eq]
  decide

theorem labels_apart (fetched : Fetched) (os : Os) (arch : Arch) {suffix : String} (listed : suffix ∈ suffixes) :
    ∀ printed ∈ updateJre fetched, Apart (platform os arch ++ suffix) printed.1 := by
  have labels : ∀ suffix ∈ suffixes, ∀ label ∈ (updateJre blank).map Prod.fst,
      Apart (platform os arch ++ suffix) label := by
    cases os <;> cases arch <;> decide
  intro printed member
  exact labels suffix listed printed.1 (labels_eq fetched ▸ List.mem_map_of_mem member)

theorem keys_plain (os : Os) (arch : Arch) : ∀ suffix ∈ suffixes,
    platform os arch ++ suffix ≠ "" ∧ '=' ∉ (platform os arch ++ suffix).toList := by
  cases os <;> cases arch <;> decide

theorem rowValue_printed {fetched : Fetched} {os : Os} {arch : Arch} {suffix value : String} (listed : suffix ∈ suffixes)
    (printed : (platform os arch ++ suffix ++ "=",value) ∈ updateJre fetched) :
    rowValue ((updateJre fetched).map Printed.line) (platform os arch ++ suffix) = some value := by
  refine rowValue_label (keys_plain os arch suffix listed).2 printed (labels_apart fetched os arch listed) ?_
  intro entry member labelled
  exact congrArg Prod.snd (List.inj_on_of_nodup_map (labels_nodup fetched) member printed labelled)

/-- The three rows of a platform in the lines of a file, each up to its next `=`. -/
def Holds (lines : List String) (os : Os) (arch : Arch) (row : Row) : Prop :=
  (rowValue lines (keysOf (platform os arch)).version).bind cut = some row.version ∧
    (rowValue lines (keysOf (platform os arch)).checksum).bind cut = some row.checksum ∧
    (rowValue lines (keysOf (platform os arch)).downloadLink).bind cut = some row.link

/-- The lines that were printed hold what the strings for a platform are cut to. -/
theorem holds_printed {fetched : Fetched} {os : Os} {arch : Arch} {read : Row} (found : fetched.row os arch = some read)
    (row : Row) : Holds ((updateJre fetched).map Printed.line) os arch row ↔
      cut read.version = some row.version ∧ cut read.checksum = some row.checksum ∧ cut read.link = some row.link := by
  have version : rowValue ((updateJre fetched).map Printed.line) (keysOf (platform os arch)).version = some read.version := by
    refine rowValue_printed (by decide) ?_
    cases os <;> cases arch <;> cases found <;> simp [updateJre,fetchJre,fetchMicrosoftJre,printRow,platform]
  have checksum : rowValue ((updateJre fetched).map Printed.line) (keysOf (platform os arch)).checksum =
      some read.checksum := by
    refine rowValue_printed (by decide) ?_
    cases os <;> cases arch <;> cases found <;> simp [updateJre,fetchJre,fetchMicrosoftJre,printRow,platform]
  have link : rowValue ((updateJre fetched).map Printed.line) (keysOf (platform os arch)).downloadLink = some read.link := by
    refine rowValue_printed (by decide) ?_
    cases os <;> cases arch <;> cases found <;> simp [updateJre,fetchJre,fetchMicrosoftJre,printRow,platform]
  rw [Holds,version,checksum,link]
  rfl

/-! ## The machine -/

/-- `os.name` of the systems. -/
def Os.Named (os : Os) (name : String) : Prop :=
  match os with
  | .windows => "Windows".toList <+: name.toList
  | .mac => name = "Mac OS X"
  | .linux => name = "Linux"

/-- `os.arch` of the architectures. -/
def Arch.Named (arch : Arch) (name : String) : Prop :=
  match arch with
  | .x64 => name = "amd64" ∨ name = "x86_64"
  | .x86 => name = "x86"
  | .aarch64 => name = "aarch64"

theorem selectKeys_named {os : Os} {arch : Arch} {osName osArch : String} (system : os.Named osName)
    (architecture : arch.Named osArch) : selectKeys osName osArch = some (keysOf (platform os (lookedUp os arch))) := by
  have is64 : contains (toLowerCase osArch.toList) "64".toList = decide (arch ≠ .x86) := by
    cases arch with
    | x64 => rcases architecture with rfl | rfl <;> decide
    | x86 | aarch64 =>
      obtain rfl := architecture
      decide
  cases os with
  | windows =>
    obtain ⟨rest,text⟩ := system
    have win : contains (toLowerCase osName.toList) "win".toList = true := by
      rw [← text,contains,decide_eq_true_eq]
      exact ⟨[],toLowerCase ("dows".toList ++ rest),by simp [toLowerCase]⟩
    cases arch <;> simp only [selectKeys,win,is64] <;> rfl
  | mac =>
    obtain rfl := system
    have names : contains (toLowerCase "Mac OS X".toList) "win".toList = false ∧
        contains (toLowerCase "Mac OS X".toList) "mac".toList = true := by decide
    cases arch <;> simp only [selectKeys,names,is64] <;> rfl
  | linux =>
    obtain rfl := system
    have names : contains (toLowerCase "Linux".toList) "win".toList = false ∧
        contains (toLowerCase "Linux".toList) "mac".toList = false ∧
        contains (toLowerCase "Linux".toList) "linux".toList = true := by decide
    cases arch <;> simp only [selectKeys,names,is64] <;> rfl

/-- The three strings that a launch comes to use. -/
def Uses (launch : Launch) (row : Row) : Prop :=
  ∃ keys, selectKeys launch.os launch.arch = some keys ∧
    getValue launch.lines keys.version = .ok (some row.version) ∧
    getValue launch.lines keys.checksum = .ok (some row.checksum) ∧
    getValue launch.lines keys.downloadLink = .ok (some row.link)

/-- The body of `init` for a row. -/
def installRow (host : Surroundings) (row : Row) : Installing Ending := do
  ask (.forceJava ("jdk-" ++ row.version ++ "-jre"))
  ask (.mkdirs "")
  let localHash ← readLocalHash
  ask (.stage 20 "" "Verifying Java")
  let current ← isInstalled (some row.checksum) localHash
  if current then return .skipped
  else
    install host (some row.checksum) (some row.link)
    return .installed

/-- A launch that uses a row installs what the row says. -/
theorem init_uses (host : Surroundings) {launch : Launch} {row : Row} (uses : Uses launch row) :
    init host launch = tryCatch (installRow host row) fun thrown =>
      if thrown.isIOException then return .failed else throw thrown := by
  obtain ⟨keys,selected,version,checksum,link⟩ := uses
  simp only [init,selected,ensureInstalled,version,checksum,link]
  rfl

/-! ## Which rows come back -/

theorem trim_length (text : String) : (trim text).length ≤ text.toList.length := by
  refine le_trans (List.IsPrefix.length_le (List.rdropWhile_prefix _ _)) ?_
  exact (List.dropWhile_suffix _).length_le

/-- A legible value comes back exactly when it has no `=`. -/
theorem cut_self {value : String} (legible : Legible value) : cut value = some value ↔ '=' ∉ value.toList := by
  unfold cut
  constructor
  · intro same member
    split at same
    · cases same
    · have text : (trim (firstPiece '=' value)).length = value.toList.length := by
        have characters := congrArg (fun found : Option String => (found.getD "").toList.length) same
        simpa using characters
      have shorter := trim_length (firstPiece '=' value)
      obtain ⟨before,after,whole,first⟩ := List.eq_append_cons_of_mem member
      have piece : (value.toList.takeWhile fun c => c != '=') = before := by
        rw [whole,List.takeWhile_append_of_pos fun c inside => bne_iff_ne.mpr fun equal : c = '=' => first (equal ▸ inside)]
        simp
      rw [text,firstPiece,String.toList_ofList,piece,whole,List.length_append,List.length_cons] at shorter
      omega
  · intro absent
    have piece : firstPiece '=' value = value := by
      have all : (value.toList.takeWhile fun c => c != '=') = value.toList :=
        List.takeWhile_eq_self_iff.mpr fun c member => bne_iff_ne.mpr fun equal : c = '=' => absent (equal ▸ member)
      rw [firstPiece,all,String.ofList_toList]
    have some : ¬ (value.toList.all fun c => c == '=') = true := by
      intro all
      cases text : value.toList with
      | nil => exact legible.filled (String.toList_inj.mp text)
      | cons c rest =>
        rw [text,List.all_cons,Bool.and_eq_true,beq_iff_eq] at all
        exact absent (by rw [text,all.1]; exact List.mem_cons_self)
    rw [if_neg some,piece,legible.bare,String.ofList_toList]

/-- None of the strings has a `=`. -/
def Row.Plain (row : Row) : Prop := '=' ∉ row.version.toList ∧ '=' ∉ row.checksum.toList ∧ '=' ∉ row.link.toList

/-- Of the rows for x64, and of that for x86 on Windows, no string has a `=`; a row
    for ARM can only happen to be what the strings for x64 are cut to. -/
def ReadBack (fetched : Fetched) (os : Os) : Arch → Prop
  | .x64 => (fetched.release os .x64).Plain
  | .x86 => os = .windows ∧ (fetched.release os .x86).Plain
  | .aarch64 => ∃ row, fetched.row os .aarch64 = some row ∧ cut (fetched.release os .x64).version = some row.version ∧
    cut (fetched.release os .x64).checksum = some row.checksum ∧ cut (fetched.release os .x64).link = some row.link

/-- A machine uses what the lines of the file hold for the platform that is looked up. -/
theorem uses_holds {lines : List String} {osName osArch : String} {os : Os} {arch : Arch}
    (system : os.Named osName) (architecture : arch.Named osArch) (row : Row) :
    Uses ⟨osName,osArch,lines⟩ row ↔ Holds lines os (lookedUp os arch) row := by
  have selected := selectKeys_named system architecture
  have keys (suffix : String) (listed : suffix ∈ suffixes) (text : String) := by
    obtain ⟨filled,plain⟩ := keys_plain os (lookedUp os arch) suffix listed
    exact @getValue_rowValue lines _ filled plain text
  have version := keys "_VERSION" (by decide) row.version
  have checksum := keys "_CHKSUM" (by decide) row.checksum
  have link := keys "_LINK" (by decide) row.link
  constructor
  · rintro ⟨keys,chosen,values⟩
    obtain rfl := Option.some.inj (selected.symm.trans chosen)
    exact ⟨version.mp values.1,checksum.mp values.2.1,link.mp values.2.2⟩
  · rintro ⟨first,second,third⟩
    exact ⟨_,selected,version.mpr first,checksum.mpr second,link.mpr third⟩

/-- A machine uses the row that was printed for it. -/
def UsesPrinted (build : Build) (defaultCharset : Charset) (fetched : Fetched) (osName osArch : String) (os : Os)
    (arch : Arch) : Prop :=
  ∃ lines row, propertiesLines build defaultCharset fetched = some lines ∧ fetched.row os arch = some row ∧
    Uses ⟨osName,osArch,lines⟩ row

/-- The file that was built holds, for the platform that is looked up, the row that
    was printed for the machine. -/
def ReadBuilt (build : Build) (defaultCharset : Charset) (fetched : Fetched) (os : Os) (arch : Arch) : Prop :=
  ∃ lines row, propertiesLines build defaultCharset fetched = some lines ∧ fetched.row os arch = some row ∧
    Holds lines os (lookedUp os arch) row

/-- An inert file holds what was printed. -/
theorem readBuilt_inert (build : Build) (defaultCharset : Charset) {fetched : Fetched} (legible : fetched.Legible)
    (inert : Inert fetched) (os : Os) (arch : Arch) :
    ReadBuilt build defaultCharset fetched os arch ↔ ReadBack fetched os arch := by
  have whole : ∀ row : Row, row.Legible → (cut row.version = some row.version ∧ cut row.checksum = some row.checksum ∧
      cut row.link = some row.link ↔ row.Plain) := by
    rintro row ⟨version,checksum,link⟩
    rw [cut_self version,cut_self checksum,cut_self link,Row.Plain]
  have found : fetched.row os .x64 = some (fetched.release os .x64) := by cases os <;> rfl
  rw [ReadBuilt,propertiesLines_inert build defaultCharset legible inert]
  simp only [Option.some.injEq,exists_and_left,exists_eq_left']
  cases arch with
  | x64 =>
    rw [found]
    simp only [Option.some.injEq,exists_eq_left']
    rw [lookedUp,holds_printed found,whole _ (legible os .x64 _ found),ReadBack]
    · nofun
  | x86 =>
    by_cases windows : os = .windows
    · subst windows
      have row : fetched.row .windows .x86 = some (fetched.release .windows .x86) := rfl
      rw [row]
      simp only [Option.some.injEq,exists_eq_left']
      rw [lookedUp,if_pos rfl,holds_printed row,whole _ (legible .windows .x86 _ row)]
      simp [ReadBack]
    · have none : fetched.row os .x86 = none := by cases os <;> first | rfl | exact absurd rfl windows
      simp [none,ReadBack,windows]
  | aarch64 =>
    have platform : lookedUp os .aarch64 = .x64 := rfl
    simp only [platform,holds_printed found,ReadBack]

/-- A machine uses the row that was printed for it exactly when the file that was
    built holds that row where the machine looks; in an inert file, when the row is
    looked up for it and read back whole. -/
theorem rows_read (build : Build) (defaultCharset : Charset) {fetched : Fetched} (legible : fetched.Legible)
    {osName osArch : String} {os : Os} {arch : Arch} (system : os.Named osName) (architecture : arch.Named osArch) :
    (UsesPrinted build defaultCharset fetched osName osArch os arch ↔ ReadBuilt build defaultCharset fetched os arch) ∧
      (Inert fetched → (UsesPrinted build defaultCharset fetched osName osArch os arch ↔ ReadBack fetched os arch)) := by
  have uses : UsesPrinted build defaultCharset fetched osName osArch os arch ↔
      ReadBuilt build defaultCharset fetched os arch := by
    simp only [UsesPrinted,ReadBuilt,uses_holds system architecture]
  exact ⟨uses,fun inert => uses.trans (readBuilt_inert build defaultCharset legible inert os arch)⟩

/-- ISO-8859-1. -/
def latin1 : Charset where
  encode text := some (text.map fun c => if c.toNat < 256 then code c else code '?')
  decode bytes := bytes.map fun byte => Char.ofNat byte.toNat
  encodes := by
    intro text ascii
    refine congrArg some (List.map_congr_left fun c member => if_pos ?_)
    have small := ascii c member
    omega
  decodes := by
    intro text ascii
    rw [List.map_map]
    refine (List.map_congr_left fun c member => ?_).trans (List.map_id text)
    have small : c.toNat < 256 := by
      have small := ascii c member
      omega
    simp [code,Nat.mod_eq_of_lt small,Char.ofNat_toNat]

/-- A build in which no template may have code. -/
private def strictBuild : Build := ⟨latin1,latin1,fun _ => none⟩

/-- A release for each platform, told apart by the checksum. -/
private def releases : Fetched where
  ver11 := "11.0.27+6"
  release os arch := ⟨"17.0.15+6",os.name ++ "-" ++ arch.name,"https://host/jre.zip"⟩
  sha256sum := "86cd  microsoft-jdk.zip"

private theorem legible_of (text : String) (filled : text ≠ "") (unbroken : '\r' ∉ text.toList ∧ '\n' ∉ text.toList)
    (bare : trim text = text.toList) : Legible text := ⟨filled,unbroken,bare⟩

private theorem releases_legible : releases.Legible := by
  intro os arch row found
  cases os <;> cases arch <;> cases found <;>
    exact ⟨legible_of _ (by decide) (by decide) (by decide),legible_of _ (by decide) (by decide) (by decide),
      legible_of _ (by decide) (by decide) (by decide)⟩

private theorem releases_inert : Inert releases := by
  have codes : ((updateJre releases).all fun entry => (Printed.line entry).toList.all fun c =>
      decide (c.toNat < 128) && c != '\x00' && c != '$' && c != '\\' && c != '<') = true := by decide
  have lines : ∀ entry ∈ updateJre releases, ∀ c ∈ (Printed.line entry).toList,
      c.toNat < 128 ∧ c ≠ '\x00' ∧ c ≠ '$' ∧ c ≠ '\\' ∧ c ≠ '<' := by
    intro entry listed c inside
    simpa [and_assoc] using List.all_eq_true.mp (List.all_eq_true.mp codes entry listed) c inside
  have ascii : Ascii (printed releases) := printed_all (by decide) fun entry listed c inside => (lines entry listed c inside).1
  refine ⟨ascii,isLiteral_ascii ascii (printed_all (by decide) fun entry listed c inside => (lines entry listed c inside).2) ?_⟩
  rw [length_printed]
  decide

theorem rows_read_sample : UsesPrinted strictBuild latin1 releases "Linux" "amd64" .linux .x64 :=
  ((@rows_read strictBuild latin1 releases releases_legible "Linux" "amd64" .linux .x64 rfl (.inl rfl)).2
    releases_inert).mpr ⟨by decide,by decide,by decide⟩

/-- A Mac with an ARM processor gets the runtime for the other one. -/
theorem rows_confused : ¬ ∀ (build : Build) (defaultCharset : Charset) (fetched : Fetched) (osName osArch : String)
    (os : Os) (arch : Arch), fetched.Legible → os.Named osName → arch.Named osArch →
      (fetched.row os arch).isSome = true → UsesPrinted build defaultCharset fetched osName osArch os arch := by
  intro read
  have uses := read strictBuild latin1 releases "Mac OS X" "aarch64" .mac .aarch64 releases_legible rfl rfl rfl
  obtain ⟨lines,row,built,printed,used⟩ := uses
  rw [propertiesLines_inert strictBuild latin1 releases_legible releases_inert] at built
  cases built
  cases printed
  have cuts := (@holds_printed releases .mac .x64 _ rfl _).mp
    ((@uses_holds _ "Mac OS X" "aarch64" .mac .aarch64 rfl rfl _).mp used)
  exact absurd cuts.2.1 (by decide)

end OpenRune.JreRows
