import OpenRune.DotSegments

/-!
# Paths with a root

A path is a root and the names below it. A dialect says how a file system writes
paths as text; what it writes of a path with a full root is read as that path again.
-/
namespace OpenRune.RootedPaths
open OpenRune.DotSegments

structure RootedPath where
  root : String
  names : List String
  deriving DecidableEq, Repr

/-- `root` takes the root off a text, in the spelling in which it is written, and
    `rebase` resolves against a path what has a root that is not full. -/
structure Dialect where
  separator : Char
  separates : Char → Bool
  separated : separates separator = true
  root : List Char → Option (String × List Char)
  full : String → Bool
  full_empty : full "" = false
  root_again : ∀ {text rest : List Char} {start : String}, root text = some (start,rest) → full start = true →
    ∀ rest', root (start.toList ++ rest') = some (start,rest')
  legal : String → Bool
  alike : String → String → Bool
  alike_refl : ∀ name, alike name name = true
  rebase : RootedPath → RootedPath → RootedPath

namespace Dialect
variable (d : Dialect)

def parse (text : String) : Option RootedPath :=
  match d.root text.toList with
  | none => none
  | some (root,rest) =>
    let names := segments d.separates (String.ofList rest)
    if names.all d.legal then some ⟨root,names⟩ else none

def print (path : RootedPath) : String := path.root ++ (String.singleton d.separator).intercalate path.names

def isAbsolute (path : RootedPath) : Bool := d.full path.root

def resolve (path other : RootedPath) : RootedPath :=
  if d.isAbsolute other then other
  else if other.root = "" then ⟨path.root,path.names ++ other.names⟩
  else d.rebase path other

/-- Only the empty path starts with the empty path. -/
def startsWith (path other : RootedPath) : Bool :=
  if other = ⟨"",[]⟩ then decide (path = other)
  else d.alike path.root other.root && decide (other.names.length ≤ path.names.length) &&
    (path.names.zip other.names).all fun names => d.alike names.1 names.2

/-- A name that is read as a name. -/
structure Name (name : String) : Prop where
  legal : d.legal name = true
  nonempty : name ≠ ""
  whole : ∀ c ∈ name.toList, d.separates c = false

/-- A full root that was read, with names below it. -/
structure Proper (path : RootedPath) : Prop where
  rooted : ∃ text rest, d.root text = some (path.root,rest)
  absolute : d.isAbsolute path = true
  named : ∀ name ∈ path.names, d.Name name

end Dialect

/-- The last name; the empty path has an empty one. -/
def RootedPath.fileName (path : RootedPath) : Option String :=
  if path.root = "" ∧ path.names = [] then some "" else path.names.getLast?

def RootedPath.parent (path : RootedPath) : Option RootedPath :=
  if path.names = [] ∨ path.root = "" ∧ path.names.length = 1 then none else some ⟨path.root,path.names.dropLast⟩

/-- `..` stays where there is nothing to leave. -/
def climb (names : List String) (name : String) : List String :=
  if name = ".." ∧ (names = [] ∨ names.getLast? = some "..") then names ++ [name] else enter names name

def RootedPath.normalize (path : RootedPath) : RootedPath :=
  ⟨path.root,if path.root = "" then path.names.foldl climb [] else DotSegments.resolve [] path.names⟩

def RootedPath.join (path : RootedPath) (names : List String) : RootedPath := ⟨path.root,path.names ++ names⟩

section
variable {d : Dialect} {path : RootedPath}

theorem parse_eq {text : String} (parsed : d.parse text = some path) :
    ∃ rest, d.root text.toList = some (path.root,rest) ∧ path.names = segments d.separates (String.ofList rest) ∧
      path.names.all d.legal = true := by
  unfold Dialect.parse at parsed
  cases found : d.root text.toList with
  | none => simp [found] at parsed
  | some start =>
    rw [found] at parsed
    dsimp only at parsed
    by_cases legal : (segments d.separates (String.ofList start.2)).all d.legal = true
    · rw [if_pos legal] at parsed
      cases parsed
      exact ⟨start.2,rfl,rfl,legal⟩
    · rw [if_neg legal] at parsed
      cases parsed

theorem parse_name {name : String} (named : d.Name name) (unrooted : d.root name.toList = some ("",name.toList)) :
    d.parse name = some ⟨"",[name]⟩ := by
  have single : segments d.separates name = [name] := segments_single named.nonempty named.whole
  simp [Dialect.parse,unrooted,single,named.legal]

theorem parse_proper {text : String} (parsed : d.parse text = some path) (absolute : d.isAbsolute path = true) :
    d.Proper path := by
  obtain ⟨rest,rooted,named,legal⟩ := parse_eq parsed
  refine ⟨⟨_,_,rooted⟩,absolute,fun name member => ?_⟩
  have whole := segments_whole d.separates (String.ofList rest) name (named ▸ member)
  exact ⟨List.all_eq_true.mp legal name member,whole.1,whole.2⟩

/-- What is printed of a proper path is read as that path. -/
theorem parse_print (proper : d.Proper path) : d.parse (d.print path) = some path := by
  obtain ⟨⟨text,rest,rooted⟩,absolute,named⟩ := proper
  have again := d.root_again rooted absolute ((String.singleton d.separator).intercalate path.names).toList
  have names : segments d.separates ((String.singleton d.separator).intercalate path.names) = path.names :=
    segments_intercalate d.separated fun name member => ⟨(named name member).nonempty,(named name member).whole⟩
  have legal : path.names.all d.legal = true := List.all_eq_true.mpr fun name member => (named name member).legal
  rw [Dialect.parse,Dialect.print,String.toList_append,again]
  simp only [String.ofList_toList,names,legal,if_true]

theorem proper_join (proper : d.Proper path) {names : List String} (named : ∀ name ∈ names, d.Name name) :
    d.Proper (path.join names) where
  rooted := proper.rooted
  absolute := proper.absolute
  named name member := (List.mem_append.mp member).elim (proper.named name) (named name)

theorem proper_subset (proper : d.Proper path) {other : RootedPath} (root : other.root = path.root)
    (fewer : other.names ⊆ path.names) : d.Proper other where
  rooted := root ▸ proper.rooted
  absolute := by
    rw [Dialect.isAbsolute,root]
    exact proper.absolute
  named name member := proper.named name (fewer member)

theorem startsWith_join (absolute : d.isAbsolute path = true) (names : List String) :
    d.startsWith (path.join names) path = true := by
  have filled : path ≠ ⟨"",[]⟩ := by
    rintro rfl
    rw [Dialect.isAbsolute,d.full_empty] at absolute
    cases absolute
  have alike : ∀ rest : List String,
      ((path.names ++ rest).zip path.names).all (fun names => d.alike names.1 names.2) = true := by
    intro rest
    induction path.names with
    | nil => simp
    | cons name later ih => simp [d.alike_refl,ih]
  simp [Dialect.startsWith,filled,RootedPath.join,d.alike_refl,alike]

theorem fileName_mem (rooted : path.root ≠ "") {name : String} (named : path.fileName = some name) :
    name ∈ path.names := by
  rw [RootedPath.fileName,if_neg (by simp [rooted])] at named
  exact List.mem_of_getLast? named

theorem fileName_join (names : List String) (name : String) : (path.join (names ++ [name])).fileName = some name := by
  simp [RootedPath.fileName,RootedPath.join]

end

/-! ## Unix and Windows -/

def unixRoot : List Char → Option (String × List Char)
  | '/' :: rest => some ("/",rest)
  | text => some ("",text)

theorem unixRoot_again {text rest : List Char} {start : String} (found : unixRoot text = some (start,rest))
    (full : (start == "/") = true) (rest' : List Char) : unixRoot (start.toList ++ rest') = some (start,rest') := by
  obtain rfl : start = "/" := by simpa using full
  rfl

def unix : Dialect where
  separator := '/'
  separates c := c == '/'
  separated := rfl
  root := unixRoot
  full root := root == "/"
  full_empty := rfl
  root_again := unixRoot_again
  legal name := !name.toList.contains '\x00'
  alike name other := name == other
  alike_refl name := by simp
  rebase _ other := other

def isSlash (c : Char) : Bool := c == '\\' || c == '/'

def isLetter (c : Char) : Bool := ('a' ≤ c && c ≤ 'z') || ('A' ≤ c && c ≤ 'Z')

/-- What stands between slashes at the beginning, and what follows it. -/
def component (text : List Char) : List Char × List Char :=
  let text := text.dropWhile isSlash
  (text.takeWhile fun c => !isSlash c,text.dropWhile fun c => !isSlash c)

/-- A host and a share. -/
def uncRoot (text : List Char) : Option (String × List Char) :=
  let (host,rest) := component text
  let (share,rest) := component rest
  if host = [] ∨ share = [] then none
  else some (String.ofList ('\\' :: '\\' :: (host ++ '\\' :: (share ++ ['\\']))),rest.drop 1)

def windowsRoot : List Char → Option (String × List Char)
  | [] => some ("",[])
  | [c] => if isSlash c then some ("\\",[]) else some ("",[c])
  | c :: next :: rest =>
    if isSlash c && isSlash next then uncRoot rest
    else if isLetter c && next == ':' then
      match rest with
      | [] => some (String.ofList [c,':'],[])
      | after :: names =>
        if isSlash after then some (String.ofList [c,':','\\'],names) else some (String.ofList [c,':'],after :: names)
    else if isSlash c then some ("\\",next :: rest)
    else some ("",c :: next :: rest)

theorem component_again {name : List Char} (filled : name ≠ []) (whole : ∀ c ∈ name, isSlash c = false)
    (rest : List Char) : component (name ++ '\\' :: rest) = (name,'\\' :: rest) := by
  have starts : (name ++ '\\' :: rest).dropWhile isSlash = name ++ '\\' :: rest := by
    cases name with
    | nil => exact absurd rfl filled
    | cons c name => rw [List.cons_append,List.dropWhile_cons_of_neg]; simp [whole c List.mem_cons_self]
  have kept : ∀ c ∈ name, (!isSlash c) = true := fun c member => by simp [whole c member]
  simp only [component,starts]
  rw [List.takeWhile_append_of_pos kept,List.dropWhile_append_of_pos kept]
  simp [isSlash]

theorem component_slash (text : List Char) : component ('\\' :: text) = component text := by
  simp [component,isSlash]

theorem component_whole (text : List Char) : ∀ c ∈ (component text).1, isSlash c = false := by
  intro c member
  simpa using List.mem_takeWhile_imp member

theorem uncRoot_again {text rest : List Char} {start : String} (found : uncRoot text = some (start,rest))
    (rest' : List Char) : windowsRoot (start.toList ++ rest') = some (start,rest') := by
  simp only [uncRoot] at found
  split at found
  · cases found
  · rename_i filled
    simp only [not_or] at filled
    cases found
    have host := component_again filled.1 (component_whole text)
    have share := component_again filled.2 (component_whole (component text).2)
    simp only [String.toList_ofList,List.cons_append,List.append_assoc,List.nil_append,windowsRoot]
    rw [if_pos (by decide)]
    simp [uncRoot,host,component_slash,share,filled]

theorem windowsRoot_again {text rest : List Char} {start : String} (found : windowsRoot text = some (start,rest))
    (full : decide (2 < start.length) = true) (rest' : List Char) :
    windowsRoot (start.toList ++ rest') = some (start,rest') := by
  simp only [decide_eq_true_eq] at full
  match text,found with
  | [],found =>
    cases found
    exact absurd full (by decide)
  | [c],found =>
    simp only [windowsRoot] at found
    split at found <;> cases found <;> exact absurd full (by decide)
  | c :: next :: names,found =>
    simp only [windowsRoot] at found
    split at found
    · exact uncRoot_again found rest'
    split at found
    · rename_i letter
      have short : ¬ 2 < (String.ofList [c,':']).length := by
        rw [String.length_ofList]
        exact Nat.lt_irrefl 2
      cases names with
      | nil =>
        cases found
        exact absurd full short
      | cons after names =>
        dsimp only at found
        split at found <;> cases found
        · simp only [Bool.and_eq_true] at letter
          simp [windowsRoot,letter.1,isSlash]
        · exact absurd full short
    split at found <;> cases found <;> exact absurd full (by decide)

def windowsLegal (name : String) : Bool :=
  (name.toList.all fun c => decide (32 ≤ c.toNat) && !"<>:\"|?*".toList.contains c) && name.toList.getLast? != some ' '

/-- `fold` is the case folding of characters. -/
def windows (fold : Char → Char) : Dialect where
  separator := '\\'
  separates := isSlash
  separated := rfl
  root := windowsRoot
  full root := decide (2 < root.length)
  full_empty := by decide
  root_again := windowsRoot_again
  legal := windowsLegal
  alike name other := name.toList.map fold == other.toList.map fold
  alike_refl name := by simp
  rebase path other :=
    if other.root = "\\" then ⟨path.root,other.names⟩
    else if path.root.toList.map fold = (other.root ++ "\\").toList.map fold then ⟨path.root,path.names ++ other.names⟩
    else other

end OpenRune.RootedPaths
