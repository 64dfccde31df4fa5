import OpenRune.Programs
import OpenRune.Java

/-!
# The walk that sets access control lists

`FilesystemPermissions.setTreeACL`, which walks through `RUNELITE_DIR` as an
administrator. It asks of every entry whether it is a directory, and a link to a
directory is one.
-/
namespace OpenRune.TreeAcl
open OpenRune.Java OpenRune.Programs

inductive Op
  | setFileACL (file sids : List String)
  | setReadonly (file : List String)
  | listFiles (tree : List String)
  | isDirectory (file : List String)

def Reply : Op → Type
  | .setFileACL _ _ => Except Thrown Unit
  | .setReadonly _ => Except Thrown Unit
  | .listFiles _ => Option (List String)
  | .isDirectory _ => Bool

abbrev walking : Signature := ⟨Op,Reply⟩

abbrev Walking (α : Type) := Program walking Thrown α

def ask (op : Op) : Walking (Reply op) := @perform walking Thrown op

def SID_SYSTEM : String := "S-1-5-18"
def SID_ADMINISTRATORS : String := "S-1-5-32-544"

/-- The two changes that are made to a directory and to a file alike. -/
def setFile (sid : String) (file : List String) : Walking Unit := do
  ofOutcome (← ask (.setFileACL file [SID_SYSTEM,SID_ADMINISTRATORS,sid]))
  ofOutcome (← ask (.setReadonly file))

def setEntry (walk : List String → Walking Unit) (sid : String) (tree : List String) (name : String) : Walking Unit := do
  let file := tree ++ [name]
  let isDirectory : Bool ← ask (.isDirectory file)
  if isDirectory then walk file else setFile sid file

/-- `FilesystemPermissions.setTreeACL`, with a stack for `depth` calls: one more is
    a `StackOverflowError`. -/
def setTreeACL (sid : String) : Nat → List String → Walking Unit
  | 0, _ => throw .error
  | depth + 1, tree => do
    setFile sid tree
    let files ← ofOutcome (deref (← ask (.listFiles tree)))
    files.forM (setEntry (setTreeACL sid depth) sid tree)

/-! ## Directories and links -/

/-- What has a name in a directory: an object, or a link to one, or to nothing. -/
inductive Entry (ι : Type)
  | own (object : ι)
  | link (target : Option ι)

def Entry.object {ι : Type} : Entry ι → Option ι
  | .own object => some object
  | .link target => target

/-- Objects with their entries in the order in which they are listed; a file has
    none. Only links can lead out of the directory, or back. -/
structure FileSystem (ι : Type) where
  root : ι
  entries : ι → Option (List (String × Entry ι))
  distinct : ∀ object listed, entries object = some listed → (listed.map Prod.fst).Nodup
  owned : WellFounded fun child parent =>
    ∃ listed name, entries parent = some listed ∧ (name,Entry.own child) ∈ listed

namespace FileSystem
variable {ι : Type} (fs : FileSystem ι)

def enter (object : ι) (name : String) : Option ι :=
  match (fs.entries object).bind fun listed => listed.lookup name with
  | none => none
  | some entry => entry.object

/-- What a path leads to, through links. -/
def resolve (file : List String) : Option ι := file.foldlM fs.enter fs.root

def isDirectory (file : List String) : Bool := ((fs.resolve file).bind fs.entries).isSome

def listFiles (file : List String) : Option (List String) := ((fs.resolve file).bind fs.entries).map (List.map Prod.fst)

/-- The paths of `RUNELITE_DIR` and its descendants, which go through no link. -/
inductive Reaches : List String → ι → Prop
  | root : Reaches [] fs.root
  | own {tree : List String} {parent child : ι} {listed : List (String × Entry ι)} {name : String}
      (above : Reaches tree parent) (directory : fs.entries parent = some listed)
      (member : (name,.own child) ∈ listed) : Reaches (tree ++ [name]) child

/-- The link that a walk without links comes to first, with its target. -/
def firstLink (object : ι) : Option (Option ι) :=
  match directory : fs.entries object with
  | none => none
  | some listed => listed.attach.findSome? fun entry =>
    match member : entry.1.2 with
    | .own child =>
      have : ∃ listed name, fs.entries object = some listed ∧ (name,Entry.own child) ∈ listed :=
        ⟨listed,entry.1.1,directory,member ▸ entry.2⟩
      firstLink child
    | .link target => some target
termination_by fs.owned.wrap object
decreasing_by assumption

/-- What the walk comes to at one entry. -/
def met : Entry ι → Option (Option ι)
  | .own child => fs.firstLink child
  | .link target => some target

theorem firstLink_file {object : ι} (file : fs.entries object = none) : fs.firstLink object = none := by
  rw [firstLink]
  split
  · rfl
  · rename_i directory
    rw [file] at directory
    cases directory

theorem firstLink_directory {object : ι} {listed : List (String × Entry ι)} (directory : fs.entries object = some listed) :
    fs.firstLink object = listed.findSome? fun entry => fs.met entry.2 := by
  rw [firstLink]
  split
  · rename_i file
    rw [directory] at file
    cases file
  · rename_i listed' found
    obtain rfl : listed' = listed := Option.some.inj (found.symm.trans directory)
    conv_rhs => rw [← List.attach_map_subtype_val listed',List.findSome?_map]
    congr 1
    funext entry
    dsimp only [Function.comp_apply]
    split
    · rename_i child member
      rw [member]
      rfl
    · rename_i target member
      rw [member]
      rfl

end FileSystem

/-! ## Runs -/

section
variable {ι : Type} (fs : FileSystem ι)

/-- What was changed, each time under the path that was used. -/
abbrev Changed (ι : Type) := List (List String × ι)

/-- An object is changed through its path, or an exception is thrown. -/
def Changes (file : List String) (s : Changed ι) (reply : Except Thrown Unit) (t : Changed ι) : Prop :=
  (∃ object, fs.resolve file = some object ∧ reply = .ok () ∧ t = s ++ [(file,object)]) ∨
    ∃ thrown, thrown ≠ .error ∧ reply = .error thrown ∧ t = s

/-- Whatever may fail, the file system answers for what a path leads to. -/
def Acts : Environment walking (Changed ι)
  | .setFileACL file _, s, reply, t => Changes fs file s reply t
  | .setReadonly file, s, reply, t => Changes fs file s reply t
  | .listFiles tree, s, reply, t => (reply = none ∨ reply = fs.listFiles tree) ∧ t = s
  | .isDirectory file, s, reply, t => reply = fs.isDirectory file ∧ t = s

/-- Only `RUNELITE_DIR` and its descendants were changed, and through no link. -/
def Confined (changed : Changed ι) : Prop := ∀ change ∈ changed, fs.Reaches change.1 change.2

/-- Some stack is deep enough for every run. -/
def Terminates (sid : String) : Prop :=
  ∃ enough, ∀ depth, enough ≤ depth →
    Ends (Acts fs) (setTreeACL sid depth []) (fun outcome _ => outcome ≠ .error .error) []

/-- However far the walk has come. -/
def Stays (sid : String) : Prop :=
  ∀ depth rest t, Steps (Acts fs) (setTreeACL sid depth []) [] rest t → Confined fs t

variable {fs}

theorem lookup_member {listed : List (String × Entry ι)} (distinct : (listed.map Prod.fst).Nodup) {name : String}
    {entry : Entry ι} (member : (name,entry) ∈ listed) : listed.lookup name = some entry := by
  induction listed with
  | nil => cases member
  | cons first rest ih =>
    obtain ⟨name',entry'⟩ := first
    rw [List.map_cons,List.nodup_cons] at distinct
    rcases List.mem_cons.mp member with same | later
    · cases same
      simp
    · have other : name ≠ name' := by
        rintro rfl
        exact distinct.1 (List.mem_map.mpr ⟨_,later,rfl⟩)
      rw [List.lookup_cons,beq_eq_false_iff_ne.mpr other]
      exact ih distinct.2 later

/-- An entry leads where it leads, whatever it is. -/
theorem resolve_entry {tree : List String} {parent : ι} (resolved : fs.resolve tree = some parent)
    {listed : List (String × Entry ι)} (directory : fs.entries parent = some listed) {name : String} {entry : Entry ι}
    (member : (name,entry) ∈ listed) : fs.resolve (tree ++ [name]) = entry.object := by
  have found := lookup_member (fs.distinct parent listed directory) member
  rw [FileSystem.resolve] at resolved
  rw [FileSystem.resolve,List.foldlM_append,resolved]
  simp [FileSystem.enter,directory,found]

theorem reaches_resolve {file : List String} {object : ι} (reaches : fs.Reaches file object) :
    fs.resolve file = some object := by
  induction reaches with
  | root => rfl
  | own above directory member ih => exact resolve_entry ih directory member

/-- Nothing is reached through a link. -/
theorem link_unreached {tree : List String} {parent : ι} (above : fs.Reaches tree parent)
    {listed : List (String × Entry ι)} (directory : fs.entries parent = some listed) {name : String} {target : Option ι}
    (member : (name,.link target) ∈ listed) (object : ι) : ¬ fs.Reaches (tree ++ [name]) object := by
  intro reaches
  generalize same : tree ++ [name] = file at reaches
  cases reaches with
  | root => simp at same
  | @own tree' parent' child listed' name' above' directory' member' =>
    obtain ⟨rfl,rfl⟩ : tree = tree' ∧ name = name' := by simpa using List.append_inj' same rfl
    obtain rfl : parent = parent' :=
      Option.some.inj ((reaches_resolve above).symm.trans (reaches_resolve above'))
    obtain rfl : listed = listed' := Option.some.inj (directory.symm.trans directory')
    have distinct := fs.distinct parent listed directory
    have one := (lookup_member distinct member).symm.trans (lookup_member distinct member')
    cases one

theorem confined_change {s t : Changed ι} {file : List String} {reply : Except Thrown Unit} {object : ι}
    (confined : Confined fs s) (reaches : fs.Reaches file object) (changes : Changes fs file s reply t) : Confined fs t := by
  rcases changes with ⟨object',resolved,-,rfl⟩ | ⟨_,_,_,rfl⟩
  · obtain rfl : object = object' := Option.some.inj ((reaches_resolve reaches).symm.trans resolved)
    intro change member
    rcases List.mem_append.mp member with early | last
    · exact confined change early
    · rw [List.mem_singleton.mp last]
      exact reaches
  · exact confined

/-- What a part of the walk ends with: everything is confined, it has not run out
    of stack, and if nothing was thrown, it has come to no link. -/
def Ended (fs : FileSystem ι) (deep : Prop) (link : Option (Option ι)) (outcome : Except Thrown Unit) (s : Changed ι) :
    Prop :=
  Confined fs s ∧ (deep → outcome ≠ .error .error) ∧ (outcome = .ok () → link = none)

theorem setFile_ended (sid : String) {file : List String} {object : ι} (reaches : fs.Reaches file object)
    {link : Option (Option ι)} (unlinked : link = none) {s : Changed ι} (confined : Confined fs s) :
    Ensures (Acts fs) (fun _ t => Confined fs t) (setFile sid file) (Ended fs True link) s := by
  refine ensures_perform confined fun reply t changes => ?_
  have after := confined_change confined reaches changes
  refine ensures_outcome (fun _ _ => ?_) fun thrown failed => ?_
  · refine ensures_perform after fun reply u changes => ?_
    have last := confined_change after reaches changes
    refine ensures_ofOutcome ⟨last,fun _ overflow => ?_,fun _ => unlinked⟩
    rcases changes with ⟨_,_,rfl,_⟩ | ⟨thrown,other,rfl,_⟩
    · cases overflow
    · exact other (Except.error.inj overflow)
  · refine ⟨after,fun _ overflow => ?_,nofun⟩
    rcases changes with ⟨_,_,rfl,_⟩ | ⟨thrown',other,rfl,_⟩
    · cases failed
    · cases failed
      exact other (Except.error.inj overflow)

/-- A link to nothing stops the walk. -/
theorem dangling_ended (sid : String) {file : List String} (dangling : fs.resolve file = none) {link : Option (Option ι)}
    {s : Changed ι} (confined : Confined fs s) :
    Ensures (Acts fs) (fun _ t => Confined fs t) (setFile sid file) (Ended fs True link) s := by
  refine ensures_perform confined fun reply t changes => ?_
  rcases changes with ⟨_,resolved,_⟩ | ⟨thrown,other,rfl,rfl⟩
  · rw [dangling] at resolved
    cases resolved
  · exact ⟨confined,fun _ overflow => other (Except.error.inj overflow),nofun⟩

/-- The walk below an object stays there, and ends. -/
def Contained (fs : FileSystem ι) (sid : String) (object : ι) (enough : Nat) : Prop :=
  ∀ depth tree s, fs.Reaches tree object → Confined fs s →
    Ensures (Acts fs) (fun _ t => Confined fs t) (setTreeACL sid depth tree)
      (Ended fs (enough ≤ depth) (fs.firstLink object)) s

theorem ended_deep {deep : Prop} {link : Option (Option ι)} {outcome : Except Thrown Unit} {s : Changed ι}
    (ended : Ended fs True link outcome s) : Ended fs deep link outcome s :=
  ⟨ended.1,fun _ => ended.2.1 trivial,ended.2.2⟩

section
variable (sid : String) {depth enough : Nat} {tree : List String} {parent : ι} (above : fs.Reaches tree parent)
  {listed : List (String × Entry ι)} (directory : fs.entries parent = some listed)
  (below : ∀ name child, (name,Entry.own child) ∈ listed → (∀ target, fs.firstLink child ≠ some (some target)) →
    Contained fs sid child enough)
include above directory below

theorem entry_ended {name : String} {entry : Entry ι} (member : (name,entry) ∈ listed)
    (quiet : ∀ target, fs.met entry ≠ some (some target)) {s : Changed ι} (confined : Confined fs s) :
    Ensures (Acts fs) (fun _ t => Confined fs t) (setEntry (setTreeACL sid depth) sid tree name)
      (Ended fs (enough ≤ depth) (fs.met entry)) s := by
  have resolved := resolve_entry (reaches_resolve above) directory member
  refine ensures_perform confined ?_
  rintro isDirectory t ⟨rfl,rfl⟩
  cases entry with
  | own child =>
    have reaches := above.own directory member
    have kind : fs.isDirectory (tree ++ [name]) = (fs.entries child).isSome := by
      simp [FileSystem.isDirectory,resolved,Entry.object]
    rw [kind]
    cases entries : fs.entries child with
    | some _ => exact below name child member quiet depth _ _ reaches confined
    | none => exact ensures_mono (setFile_ended sid reaches (fs.firstLink_file entries) confined) fun _ _ => ended_deep
  | link target =>
    cases target with
    | some target => exact absurd rfl (quiet target)
    | none =>
      have kind : fs.isDirectory (tree ++ [name]) = false := by simp [FileSystem.isDirectory,resolved,Entry.object]
      rw [kind]
      exact ensures_mono (dangling_ended sid resolved confined) fun _ _ => ended_deep

theorem entries_ended {rest : List (String × Entry ι)} (part : rest ⊆ listed)
    (quiet : ∀ target, rest.findSome? (fun entry => fs.met entry.2) ≠ some (some target)) {s : Changed ι}
    (confined : Confined fs s) :
    Ensures (Acts fs) (fun _ t => Confined fs t) ((rest.map Prod.fst).forM (setEntry (setTreeACL sid depth) sid tree))
      (Ended fs (enough ≤ depth) (rest.findSome? fun entry => fs.met entry.2)) s := by
  induction rest generalizing s with
  | nil => exact ⟨confined,fun _ => nofun,fun _ => rfl⟩
  | cons entry rest ih =>
    have calm : ∀ target, fs.met entry.2 ≠ some (some target) := by
      intro target comes
      exact quiet target (by rw [List.findSome?_cons,comes])
    refine ensures_bind (ensures_mono (entry_ended sid above directory below (part List.mem_cons_self) calm confined) ?_)
    rintro outcome t ⟨kept,deep,linkless⟩
    cases outcome with
    | error thrown => exact ⟨kept,deep,nofun⟩
    | ok _ =>
      have same : (entry :: rest).findSome? (fun entry => fs.met entry.2) = rest.findSome? fun entry => fs.met entry.2 := by
        rw [List.findSome?_cons,linkless rfl]
      rw [same] at quiet ⊢
      exact ih (fun other listed => part (List.mem_cons_of_mem entry listed)) quiet kept

end

/-- What each of finitely many things has from some number on, all have from one number on. -/
theorem uniform {α : Type} {P : α → Nat → Prop} (mono : ∀ item n m, n ≤ m → P item n → P item m) {items : List α}
    (each : ∀ item ∈ items, ∃ n, P item n) : ∃ n, ∀ item ∈ items, P item n := by
  induction items with
  | nil => exact ⟨0,nofun⟩
  | cons item rest ih =>
    obtain ⟨first,holds⟩ := each item List.mem_cons_self
    obtain ⟨later,others⟩ := ih fun other member => each other (List.mem_cons_of_mem item member)
    refine ⟨max first later,fun other member => ?_⟩
    rcases List.mem_cons.mp member with rfl | member
    · exact mono other first _ (le_max_left first later) holds
    · exact mono other later _ (le_max_right first later) (others other member)

theorem contained_mono {sid : String} {object : ι} {n m : Nat} (more : n ≤ m) (contained : Contained fs sid object n) :
    Contained fs sid object m := fun depth tree s reaches confined =>
  ensures_mono (contained depth tree s reaches confined) fun _ _ ended =>
    ⟨ended.1,fun deep => ended.2.1 (more.trans deep),ended.2.2⟩

/-- A listing that was given is that of a directory. -/
theorem listed_entries {tree : List String} {object : ι} (resolved : fs.resolve tree = some object)
    {files : Option (List String)} (listing : files = none ∨ files = fs.listFiles tree) {names : List String}
    (given : deref files = .ok names) : ∃ listed, fs.entries object = some listed ∧ names = listed.map Prod.fst := by
  rcases listing with rfl | rfl
  · cases given
  · rw [FileSystem.listFiles,resolved,Option.bind_some] at given
    cases entries : fs.entries object with
    | none =>
      rw [entries] at given
      cases given
    | some listed =>
      rw [entries] at given
      cases given
      exact ⟨listed,rfl,rfl⟩

/-- The same of an entry, if it is an object of its own where no link leads on. -/
def EntryContained (fs : FileSystem ι) (sid : String) (entry : String × Entry ι) (enough : Nat) : Prop :=
  ∀ child, entry.2 = .own child → (∀ target, fs.firstLink child ≠ some (some target)) → Contained fs sid child enough

theorem entryContained_mono (sid : String) (entry : String × Entry ι) (n m : Nat) (more : n ≤ m)
    (contained : EntryContained fs sid entry n) : EntryContained fs sid entry m := fun child own quiet =>
  contained_mono more (contained child own quiet)

/-- Where the first link leads nowhere, the walk stays and ends. -/
theorem contains (sid : String) (object : ι) (quiet : ∀ target, fs.firstLink object ≠ some (some target)) :
    ∃ n, Contained fs sid object n := by
  induction object using fs.owned.induction with
  | _ object ih =>
    obtain ⟨n,below⟩ : ∃ n, ∀ listed, fs.entries object = some listed → ∀ entry ∈ listed,
        EntryContained fs sid entry n := by
      cases entries : fs.entries object with
      | none => exact ⟨0,nofun⟩
      | some listed =>
        have each : ∀ entry ∈ listed, ∃ n, EntryContained fs sid entry n := by
          rintro ⟨name,entry⟩ member
          cases entry with
          | link target => exact ⟨0,nofun⟩
          | own child =>
            by_cases quiet : ∀ target, fs.firstLink child ≠ some (some target)
            · obtain ⟨n,contained⟩ := ih child ⟨listed,name,entries,member⟩ quiet
              exact ⟨n,fun child' own _ => Entry.own.inj own ▸ contained⟩
            · exact ⟨0,fun child' own quiet' => absurd (Entry.own.inj own ▸ quiet') quiet⟩
        obtain ⟨n,all⟩ := uniform (entryContained_mono sid) each
        refine ⟨n,?_⟩
        rintro _ ⟨⟩
        exact all
    refine ⟨n + 1,fun depth tree s reaches confined => ?_⟩
    cases depth with
    | zero => exact ⟨confined,fun deep => absurd deep (by omega),nofun⟩
    | succ depth =>
      have linkless : (none : Option (Option ι)) = none := rfl
      refine ensures_bind (ensures_mono (setFile_ended sid reaches linkless confined) ?_)
      rintro outcome t ⟨kept,deep,-⟩
      cases outcome with
      | error thrown => exact ⟨kept,fun _ => deep trivial,nofun⟩
      | ok _ =>
        refine ensures_perform kept ?_
        rintro files u ⟨listing,rfl⟩
        refine ensures_outcome (fun names given => ?_) fun thrown failed => ⟨kept,fun _ overflow => ?_,nofun⟩
        · obtain ⟨listed,entries,rfl⟩ := listed_entries (reaches_resolve reaches) listing given
          rw [fs.firstLink_directory entries] at quiet ⊢
          have part := @entries_ended _ fs sid depth n tree object reaches listed entries
            (fun name child member => below listed entries _ member child rfl) listed (List.Subset.refl listed) quiet u kept
          exact ensures_mono part fun outcome t ended => ⟨ended.1,fun deep => ended.2.1 (by omega),ended.2.2⟩
        · cases files with
          | none =>
            cases failed
            cases overflow
          | some _ => cases failed

/-! ### Where a link is met -/

/-- With a deep enough stack the walk below a directory can come to its end. -/
def Completes (fs : FileSystem ι) (sid : String) (object : ι) (enough : Nat) : Prop :=
  ∀ depth tree s, enough ≤ depth → fs.Reaches tree object → fs.entries object ≠ none →
    ∃ t, Steps (Acts fs) (setTreeACL sid depth tree) s (.done ()) t

/-- With a deep enough stack the walk can change something through a link. -/
def Escapes (fs : FileSystem ι) (sid : String) (object : ι) (enough : Nat) : Prop :=
  ∀ depth tree s, enough ≤ depth → fs.Reaches tree object →
    ∃ rest t, Steps (Acts fs) (setTreeACL sid depth tree) s rest t ∧ ¬ Confined fs t

theorem setFile_steps (sid : String) {file : List String} {object : ι} (resolved : fs.resolve file = some object)
    (s : Changed ι) : Steps (Acts fs) (setFile sid file) s (.done ()) (s ++ [(file,object)] ++ [(file,object)]) := by
  have acl : Acts fs (.setFileACL file [SID_SYSTEM,SID_ADMINISTRATORS,sid]) s (.ok ()) (s ++ [(file,object)]) :=
    .inl ⟨object,resolved,rfl,rfl⟩
  have readonly : Acts fs (.setReadonly file) (s ++ [(file,object)]) (.ok ()) (s ++ [(file,object)] ++ [(file,object)]) :=
    .inl ⟨object,resolved,rfl,rfl⟩
  exact steps_cons acl (steps_cons readonly .refl)

section
variable (sid : String) {depth enough : Nat} {tree : List String} {parent : ι} (above : fs.Reaches tree parent)
  {listed : List (String × Entry ι)} (directory : fs.entries parent = some listed)
include above directory

theorem entry_completes {name : String} {entry : Entry ι} (member : (name,entry) ∈ listed)
    (linkless : fs.met entry = none) (below : ∀ child, entry = .own child → Completes fs sid child enough)
    (deep : enough ≤ depth) (s : Changed ι) :
    ∃ t, Steps (Acts fs) (setEntry (setTreeACL sid depth) sid tree name) s (.done ()) t := by
  have resolved := resolve_entry (reaches_resolve above) directory member
  have asked : Acts fs (.isDirectory (tree ++ [name])) s (fs.isDirectory (tree ++ [name])) s := ⟨rfl,rfl⟩
  cases entry with
  | link target => cases linkless
  | own child =>
    have reaches := above.own directory member
    cases entries : fs.entries child with
    | none =>
      have kind : fs.isDirectory (tree ++ [name]) = false := by
        simp [FileSystem.isDirectory,resolved,Entry.object,entries]
      rw [kind] at asked
      exact ⟨_,steps_cons asked (setFile_steps sid resolved s)⟩
    | some listed' =>
      have kind : fs.isDirectory (tree ++ [name]) = true := by
        simp [FileSystem.isDirectory,resolved,Entry.object,entries]
      rw [kind] at asked
      obtain ⟨t,steps⟩ := below child rfl depth _ s deep reaches (by rw [entries]; nofun)
      exact ⟨t,steps_cons asked steps⟩

/-- At a link, and below an object with one, something is changed through it. -/
theorem entry_escapes {name : String} {entry : Entry ι} (member : (name,entry) ∈ listed) {target : ι}
    (comes : fs.met entry = some (some target)) (below : ∀ child, entry = .own child → Escapes fs sid child enough)
    (deep : enough < depth) (s : Changed ι) :
    ∃ rest t, Steps (Acts fs) (setEntry (setTreeACL sid depth) sid tree name) s rest t ∧ ¬ Confined fs t := by
  have resolved := resolve_entry (reaches_resolve above) directory member
  have asked : Acts fs (.isDirectory (tree ++ [name])) s (fs.isDirectory (tree ++ [name])) s := ⟨rfl,rfl⟩
  cases entry with
  | own child =>
    have reaches := above.own directory member
    have kind : fs.isDirectory (tree ++ [name]) = true := by
      cases entries : fs.entries child with
      | none =>
        rw [FileSystem.met,fs.firstLink_file entries] at comes
        cases comes
      | some _ => simp [FileSystem.isDirectory,resolved,Entry.object,entries]
    rw [kind] at asked
    obtain ⟨rest,t,steps,outside⟩ := below child rfl depth _ s deep.le reaches
    exact ⟨rest,t,steps_cons asked steps,outside⟩
  | link target' =>
    cases comes
    have changed := setFile_steps sid resolved s
    have outside : ¬ Confined fs (s ++ [(tree ++ [name],target)] ++ [(tree ++ [name],target)]) := fun confined =>
      link_unreached above directory member target (confined (tree ++ [name],target) (by simp))
    cases kind : fs.isDirectory (tree ++ [name]) with
    | false =>
      rw [kind] at asked
      exact ⟨_,_,steps_cons asked changed,outside⟩
    | true =>
      rw [kind] at asked
      cases depth with
      | zero => exact absurd deep (by omega)
      | succ depth => exact ⟨_,_,steps_cons asked (steps_bind changed _),outside⟩

theorem entries_complete {rest : List (String × Entry ι)} (part : rest ⊆ listed)
    (linkless : ∀ entry ∈ rest, fs.met entry.2 = none)
    (below : ∀ entry ∈ rest, ∀ child, entry.2 = .own child → Completes fs sid child enough) (deep : enough ≤ depth)
    (s : Changed ι) :
    ∃ t, Steps (Acts fs) ((rest.map Prod.fst).forM (setEntry (setTreeACL sid depth) sid tree)) s (.done ()) t := by
  induction rest generalizing s with
  | nil => exact ⟨s,.refl⟩
  | cons entry rest ih =>
    obtain ⟨t,first⟩ := entry_completes sid above directory (part List.mem_cons_self) (linkless entry List.mem_cons_self)
      (below entry List.mem_cons_self) deep s
    obtain ⟨u,later⟩ := ih (fun other member => part (List.mem_cons_of_mem entry member))
      (fun other member => linkless other (List.mem_cons_of_mem entry member))
      (fun other member => below other (List.mem_cons_of_mem entry member)) t
    exact ⟨u,steps_after first later⟩

/-- The entries in front of a link are walked through before it. -/
theorem entries_escape {before after : List (String × Entry ι)} {entry : String × Entry ι}
    (part : before ++ entry :: after ⊆ listed) {target : ι} (comes : fs.met entry.2 = some (some target))
    (linkless : ∀ entry ∈ before, fs.met entry.2 = none)
    (early : ∀ entry ∈ before, ∀ child, entry.2 = .own child → Completes fs sid child enough)
    (below : ∀ child, entry.2 = .own child → Escapes fs sid child enough) (deep : enough < depth) (s : Changed ι) :
    ∃ rest t, Steps (Acts fs)
      (((before ++ entry :: after).map Prod.fst).forM (setEntry (setTreeACL sid depth) sid tree)) s rest t ∧
        ¬ Confined fs t := by
  induction before generalizing s with
  | nil =>
    obtain ⟨rest,t,steps,outside⟩ := entry_escapes sid above directory (part List.mem_cons_self) comes below deep s
    exact ⟨_,t,steps_bind steps _,outside⟩
  | cons first before ih =>
    obtain ⟨t,steps⟩ := entry_completes sid above directory (part List.mem_cons_self) (linkless first List.mem_cons_self)
      (early first List.mem_cons_self) deep.le s
    obtain ⟨rest,u,later,outside⟩ := ih (fun other member => part (List.mem_cons_of_mem first member))
      (fun other member => linkless other (List.mem_cons_of_mem first member))
      (fun other member => early other (List.mem_cons_of_mem first member)) t
    exact ⟨rest,u,steps_after steps later,outside⟩

end

/-- The walk comes to the entries of a directory. -/
theorem setTreeACL_steps (sid : String) (depth : Nat) {tree : List String} {object : ι} (reaches : fs.Reaches tree object)
    {listed : List (String × Entry ι)} (directory : fs.entries object = some listed) (s : Changed ι) :
    ∃ t, ∀ rest u, Steps (Acts fs) ((listed.map Prod.fst).forM (setEntry (setTreeACL sid depth) sid tree)) t rest u →
      Steps (Acts fs) (setTreeACL sid (depth + 1) tree) s rest u := by
  have resolved := reaches_resolve reaches
  refine ⟨s ++ [(tree,object)] ++ [(tree,object)],fun rest u later => steps_after (setFile_steps sid resolved s) ?_⟩
  have listing : Acts fs (.listFiles tree) (s ++ [(tree,object)] ++ [(tree,object)]) (some (listed.map Prod.fst))
      (s ++ [(tree,object)] ++ [(tree,object)]) :=
    ⟨.inr (by rw [FileSystem.listFiles,resolved,Option.bind_some,directory]; rfl),rfl⟩
  exact steps_cons listing later

def EntryCompletes (fs : FileSystem ι) (sid : String) (entry : String × Entry ι) (enough : Nat) : Prop :=
  fs.met entry.2 = none → ∀ child, entry.2 = .own child → Completes fs sid child enough

theorem entryCompletes_mono (sid : String) (entry : String × Entry ι) (n m : Nat) (more : n ≤ m)
    (runs : EntryCompletes fs sid entry n) : EntryCompletes fs sid entry m :=
  fun linkless child own depth tree s deep => runs linkless child own depth tree s (more.trans deep)

theorem completes (sid : String) (object : ι) (linkless : fs.firstLink object = none) :
    ∃ n, Completes fs sid object n := by
  induction object using fs.owned.induction with
  | _ object ih =>
    cases directory : fs.entries object with
    | none => exact ⟨0,fun _ _ _ _ _ entries => absurd directory entries⟩
    | some listed =>
      rw [fs.firstLink_directory directory,List.findSome?_eq_none_iff] at linkless
      have each : ∀ entry ∈ listed, ∃ n, EntryCompletes fs sid entry n := by
        rintro ⟨name,entry⟩ member
        cases entry with
        | link target => exact ⟨0,nofun⟩
        | own child =>
          obtain ⟨n,runs⟩ := ih child ⟨listed,name,directory,member⟩ (linkless _ member)
          exact ⟨n,fun _ child' own => Entry.own.inj own ▸ runs⟩
      obtain ⟨n,all⟩ := uniform (entryCompletes_mono sid) each
      refine ⟨n + 1,fun depth tree s deep reaches _ => ?_⟩
      obtain ⟨depth,rfl⟩ : ∃ less, depth = less + 1 := ⟨depth - 1,by omega⟩
      have deeper : n ≤ depth := by omega
      obtain ⟨t,onwards⟩ := setTreeACL_steps sid depth reaches directory s
      obtain ⟨u,steps⟩ := entries_complete sid reaches directory (List.Subset.refl listed) linkless
        (fun entry member => all entry member (linkless entry member)) deeper t
      exact ⟨u,onwards _ _ steps⟩

theorem escapes (sid : String) (object target : ι) (comes : fs.firstLink object = some (some target)) :
    ∃ n, Escapes fs sid object n := by
  induction object using fs.owned.induction with
  | _ object ih =>
    cases directory : fs.entries object with
    | none =>
      rw [fs.firstLink_file directory] at comes
      cases comes
    | some listed =>
      rw [fs.firstLink_directory directory,List.findSome?_eq_some_iff] at comes
      obtain ⟨before,entry,after,rfl,comes,linkless⟩ := comes
      have early : ∀ entry ∈ before, ∃ n, EntryCompletes fs sid entry n := by
        rintro ⟨name,entry⟩ member
        cases entry with
        | link target => exact ⟨0,nofun⟩
        | own child =>
          obtain ⟨n,runs⟩ := completes sid child (linkless _ member)
          exact ⟨n,fun _ child' own => Entry.own.inj own ▸ runs⟩
      obtain ⟨n,all⟩ := uniform (entryCompletes_mono sid) early
      obtain ⟨m,below⟩ : ∃ m, ∀ child, entry.2 = .own child → Escapes fs sid child m := by
        obtain ⟨name,entry⟩ := entry
        cases entry with
        | link target => exact ⟨0,nofun⟩
        | own child =>
          obtain ⟨m,runs⟩ := ih child ⟨_,name,directory,by simp⟩ comes
          exact ⟨m,fun child' own => Entry.own.inj own ▸ runs⟩
      refine ⟨max n m + 2,fun depth tree s deep reaches => ?_⟩
      obtain ⟨depth,rfl⟩ : ∃ less, depth = less + 1 := ⟨depth - 1,by omega⟩
      obtain ⟨t,onwards⟩ := setTreeACL_steps sid depth reaches directory s
      obtain ⟨rest,u,steps,outside⟩ := @entries_escape _ fs sid depth (max n m) tree object reaches _ directory before after
        entry (List.Subset.refl _) target comes linkless
        (fun entry member child own depth tree s deep =>
          all entry member (linkless entry member) child own depth tree s (le_trans (le_max_left n m) deep))
        (fun child own depth tree s deep => below child own depth tree s (le_trans (le_max_right n m) deep)) (by omega) t
      exact ⟨rest,u,onwards _ _ steps,outside⟩

end

/-- The walk stays in the directory, and ends, exactly if the first link that it
    comes to, when it comes to one, leads nowhere. -/
theorem walk_contained {ι : Type} (fs : FileSystem ι) (sid : String) :
    Terminates fs sid ∧ Stays fs sid ↔ ∀ target, fs.firstLink fs.root ≠ some (some target) := by
  constructor
  · rintro ⟨-,stays⟩ target comes
    obtain ⟨n,runs⟩ := escapes sid fs.root target comes
    obtain ⟨rest,t,steps,outside⟩ := runs n [] [] le_rfl .root
    exact outside (stays n rest t steps)
  · intro quiet
    obtain ⟨n,contained⟩ := contains sid fs.root quiet
    have run (depth : Nat) := contained depth [] [] .root (by nofun)
    refine ⟨⟨n,fun depth deep => ?_⟩,fun depth rest t steps => ?_⟩
    · exact ensures_mono (ensures_guard (run depth) fun _ _ _ => trivial) fun outcome t ended => ended.2.1 deep
    · exact ensures_reached (ensures_mono (run depth) fun outcome t ended => ended.1) steps

inductive Place
  | runeliteDir
  | outside
  deriving DecidableEq

/-- A directory with a link to another place, and one back to itself. -/
def linkedEntries : Place → Option (List (String × Entry Place))
  | .runeliteDir => some [("logs",.link (some .outside)),("here",.link (some .runeliteDir))]
  | .outside => some []

theorem linked_owns {child parent : Place} : ¬ ∃ listed name, linkedEntries parent = some listed ∧
    (name,Entry.own child) ∈ listed := by
  rintro ⟨listed,name,directory,member⟩
  cases parent <;> cases directory <;> simp at member

def linked : FileSystem Place where
  root := .runeliteDir
  entries := linkedEntries
  distinct object listed directory := by
    cases object <;> cases directory <;> decide
  owned := ⟨fun object => ⟨object,fun _ owns => absurd owns linked_owns⟩⟩

theorem walk_escapes : ¬ (Terminates linked "S-1-5-21" ∧ Stays linked "S-1-5-21") := by
  rintro ⟨-,stays⟩
  have comes : linked.firstLink linked.root = some (some .outside) := by
    rw [linked.firstLink_directory rfl]
    rfl
  obtain ⟨n,runs⟩ := escapes "S-1-5-21" linked.root .outside comes
  obtain ⟨rest,t,steps,outside⟩ := runs n [] [] le_rfl .root
  exact outside (stays n rest t steps)

/-- A link back to the directory, when it is listed first, exhausts every stack. -/
theorem walk_overflows {ι : Type} {fs : FileSystem ι} {name : String} {others : List (String × Entry ι)}
    (back : fs.entries fs.root = some ((name,.link (some fs.root)) :: others)) (sid : String) (depth : Nat)
    {tree : List String} (resolved : fs.resolve tree = some fs.root) (s : Changed ι) :
    ∃ t, Runs (Acts fs) (setTreeACL sid depth tree) s (.error .error) t := by
  induction depth generalizing tree s with
  | zero => exact ⟨s,.refl⟩
  | succ depth ih =>
    have again : fs.resolve (tree ++ [name]) = some fs.root := resolve_entry resolved back List.mem_cons_self
    have listing : Acts fs (.listFiles tree) (s ++ [(tree,fs.root)] ++ [(tree,fs.root)])
        (some (name :: others.map Prod.fst)) (s ++ [(tree,fs.root)] ++ [(tree,fs.root)]) :=
      ⟨.inr (by rw [FileSystem.listFiles,resolved,Option.bind_some,back]; rfl),rfl⟩
    have asked : Acts fs (.isDirectory (tree ++ [name])) (s ++ [(tree,fs.root)] ++ [(tree,fs.root)]) true
        (s ++ [(tree,fs.root)] ++ [(tree,fs.root)]) := ⟨by rw [FileSystem.isDirectory,again,Option.bind_some,back]; rfl,rfl⟩
    obtain ⟨t,deeper⟩ := ih again (s ++ [(tree,fs.root)] ++ [(tree,fs.root)])
    refine ⟨t,steps_after (setFile_steps sid resolved s) (steps_cons listing ?_)⟩
    have first : Steps (Acts fs) (setEntry (setTreeACL sid depth) sid tree name) (s ++ [(tree,fs.root)] ++ [(tree,fs.root)])
        (.raise .error) t := steps_cons asked deeper
    exact steps_bind first _

end OpenRune.TreeAcl
