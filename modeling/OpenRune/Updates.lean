import OpenRune.Beans
import OpenRune.Versions

/-!
# Choosing an update

`Updater.findAvailableUpdate` keeps the greatest version among the eligible
entries of the bootstrap. Following it from one launcher version to the next
gives a chain of updates, which climbs in the order of versions and so ends.
-/
namespace OpenRune.Updates
open OpenRune.Java OpenRune.Beans OpenRune.Versions

inductive OSType
  | Windows
  | MacOS
  | Linux
  | Other
  deriving DecidableEq, Repr

/-- `OS.parseOs`. The names that are searched for are ASCII, and no other letter
    has one of theirs as its lower case. -/
def parseOs (os : String) : OSType :=
  let os := toLowerCase os.toList
  if contains os "mac".toList || contains os "darwin".toList then .MacOS
  else if contains os "win".toList then .Windows
  else if contains os "linux".toList then .Linux
  else .Other

/-- The system properties `os.name`, `os.arch` and `os.version`. -/
structure Machine where
  osName : Option String
  osArch : Option String
  osVersion : Option String

/-- `OS.getOs`. -/
def getOs (machine : Machine) : OSType := parseOs (machine.osName.getD "generic")

/-- The filters on the operating system and the architecture. -/
def platformMatches (machine : Machine) (os arch : String) (updateOs : String) (update : Update) : Bool :=
  (if parseOs updateOs = .Other then decide (updateOs = os) else decide (parseOs updateOs = getOs machine)) &&
  (update.osName == none || update.osName == some os) &&
  (update.osVersion == none || update.osVersion == machine.osVersion) &&
  (update.arch == none || update.arch == some arch)

/-- Newer than the launcher, and the launcher not older than the minimum. -/
def versionAllows (launcherVersion version : String) (minimumVersion : Option String) : Bool :=
  decide (0 < compareVersion version launcherVersion) &&
  match minimumVersion with
  | none => true
  | some minimum => decide (0 ≤ compareVersion launcherVersion minimum)

def isNewer (version : String) (newestUpdate : Option Update) : Except Thrown Bool :=
  match newestUpdate with
  | none => .ok true
  | some newest => do return decide (0 < compareVersion version (← deref newest.version))

/-- The body of the loop of `findAvailableUpdate`. The version of an entry is
    only looked at when the platform matches. -/
def considerUpdate (machine : Machine) (os arch launcherVersion : String) (newestUpdate : Option Update)
    (entry : Option Update) : Except Thrown (Option Update) := do
  let update ← deref entry
  let updateOs ← deref update.os
  if platformMatches machine os arch updateOs update then
    let version ← deref update.version
    if versionAllows launcherVersion version update.minimumVersion then
      if ← isNewer version newestUpdate then return some update
  return newestUpdate

/-- `Updater.findAvailableUpdate`. -/
def findAvailableUpdate (machine : Machine) (launcherVersion : Option String) (bootstrap : Bootstrap) :
    Except Thrown (Option Update) :=
  match bootstrap.updates, machine.osName, machine.osArch, launcherVersion with
  | some updates, some os, some arch, some launcherVersion =>
    updates.foldlM (considerUpdate machine os arch launcherVersion) none
  | _, _, _, _ => .ok none

/-! ## The selected entry -/

/-- All conditions on an entry but the comparison with the newest one so far. -/
def Eligible (machine : Machine) (launcherVersion : String) (update : Update) : Prop :=
  ∃ os arch updateOs version, machine.osName = some os ∧ machine.osArch = some arch ∧
    update.os = some updateOs ∧ update.version = some version ∧
    platformMatches machine os arch updateOs update = true ∧
    versionAllows launcherVersion version update.minimumVersion = true

/-- Entries whose `os` and `version` are not null. -/
def Complete (updates : List (Option Update)) : Prop :=
  ∀ entry ∈ updates, ∃ update os version, entry = some update ∧ update.os = some os ∧ update.version = some version

/-- The version of an entry, for entries that have one. -/
def versionOf (update : Update) : String := update.version.getD ""

/-- What the loop has found among the entries it has seen: one of the greatest
    of the eligible entries, or nothing when no entry is eligible. -/
def Selected (machine : Machine) (launcherVersion : String) (seen : List (Option Update)) : Option Update → Prop
  | none => ∀ update, some update ∈ seen → ¬ Eligible machine launcherVersion update
  | some newest => some newest ∈ seen ∧ Eligible machine launcherVersion newest ∧
      ∀ update, some update ∈ seen → Eligible machine launcherVersion update →
        compareVersion (versionOf update) (versionOf newest) ≤ 0

section
variable {machine : Machine} {os arch launcherVersion : String} (hasOs : machine.osName = some os)
  (hasArch : machine.osArch = some arch)
include hasOs hasArch

theorem eligible_iff {update : Update} {updateOs version : String} (givenOs : update.os = some updateOs)
    (givenVersion : update.version = some version) :
    Eligible machine launcherVersion update ↔
      platformMatches machine os arch updateOs update = true ∧
        versionAllows launcherVersion version update.minimumVersion = true := by
  constructor
  · rintro ⟨os',arch',updateOs',version',os_eq,arch_eq,updateOs_eq,version_eq,allowed⟩
    rw [hasOs] at os_eq
    rw [hasArch] at arch_eq
    rw [givenOs] at updateOs_eq
    rw [givenVersion] at version_eq
    cases os_eq
    cases arch_eq
    cases updateOs_eq
    cases version_eq
    exact allowed
  · intro allowed
    exact ⟨os,arch,updateOs,version,hasOs,hasArch,givenOs,givenVersion,allowed⟩

/-- An entry takes the place of the newest one so far. -/
def Supersedes (machine : Machine) (launcherVersion : String) (update : Update) (newestUpdate : Option Update) : Prop :=
  Eligible machine launcherVersion update ∧
    ∀ newest, newestUpdate = some newest → 0 < compareVersion (versionOf update) (versionOf newest)

omit hasOs hasArch in
/-- The first eligible entry takes the place of none. -/
theorem supersedes_none {update : Update} (eligible : Eligible machine launcherVersion update) :
    Supersedes machine launcherVersion update none := by
  refine ⟨eligible,?_⟩
  intro newest absent
  cases absent

/-- The body of the loop, on an entry and a newest one so far that have their versions. -/
theorem considerUpdate_step {newestUpdate : Option Update} {update : Update} {updateOs version : String}
    (givenOs : update.os = some updateOs) (givenVersion : update.version = some version)
    (named : ∀ newest, newestUpdate = some newest → newest.version ≠ none) :
    (Supersedes machine launcherVersion update newestUpdate →
      considerUpdate machine os arch launcherVersion newestUpdate (some update) = .ok (some update)) ∧
    (¬ Supersedes machine launcherVersion update newestUpdate →
      considerUpdate machine os arch launcherVersion newestUpdate (some update) = .ok newestUpdate) := by
  have eligible : Eligible machine launcherVersion update ↔ _ := eligible_iff hasOs hasArch givenOs givenVersion
  have same : versionOf update = version := by simp [versionOf,givenVersion]
  simp only [considerUpdate,givenOs,givenVersion,deref_some,ok_bind]
  by_cases platform : platformMatches machine os arch updateOs update = true
  · by_cases versions : versionAllows launcherVersion version update.minimumVersion = true
    · rw [if_pos platform,if_pos versions]
      have allowed := eligible.mpr ⟨platform,versions⟩
      cases newestUpdate with
      | none => exact ⟨fun _ => rfl,fun stays => absurd (supersedes_none allowed) stays⟩
      | some newest =>
        cases hasVersion : newest.version with
        | none => exact absurd hasVersion (named newest rfl)
        | some newestVersion =>
          have newestSame : versionOf newest = newestVersion := by simp [versionOf,hasVersion]
          by_cases newer : 0 < compareVersion version newestVersion
          · simp [isNewer,hasVersion,newer,Supersedes,allowed,same,newestSame]
          · simp [isNewer,hasVersion,newer,Supersedes,allowed,same,newestSame]
    · rw [if_pos platform,if_neg versions]
      exact ⟨fun supersedes => absurd (eligible.mp supersedes.1).2 versions,fun _ => rfl⟩
  · rw [if_neg platform]
    exact ⟨fun supersedes => absurd (eligible.mp supersedes.1).1 platform,fun _ => rfl⟩

omit hasOs hasArch in
theorem selected_named {seen : List (Option Update)} {newestUpdate : Option Update}
    (selected : Selected machine launcherVersion seen newestUpdate) :
    ∀ newest, newestUpdate = some newest → newest.version ≠ none := by
  rintro newest rfl
  obtain ⟨_,_,_,version,_,_,_,hasVersion,_⟩ := selected.2.1
  simp [hasVersion]

omit hasOs hasArch in
theorem selected_taken {seen : List (Option Update)} {newestUpdate : Option Update} {update : Update}
    (selected : Selected machine launcherVersion seen newestUpdate)
    (supersedes : Supersedes machine launcherVersion update newestUpdate) :
    Selected machine launcherVersion (seen ++ [some update]) (some update) := by
  refine ⟨by simp,supersedes.1,?_⟩
  intro other member allowed
  rcases List.mem_append.mp member with earlier | last
  · cases newestUpdate with
    | none => exact absurd allowed (selected other earlier)
    | some newest =>
      have newer := (compareVersion_orders.greater _ _).mp (supersedes.2 newest rfl)
      exact compareVersion_orders.trans (selected.2.2 other earlier allowed)
        ((compareVersion_orders.atMost _ _).mpr newer.le)
  · obtain rfl : other = update := by simpa using last
    exact (compareVersion_orders.atMost _ _).mpr le_rfl

omit hasOs hasArch in
theorem selected_kept {seen : List (Option Update)} {newestUpdate : Option Update} {update : Update}
    (selected : Selected machine launcherVersion seen newestUpdate)
    (stays : ¬ Supersedes machine launcherVersion update newestUpdate) :
    Selected machine launcherVersion (seen ++ [some update]) newestUpdate := by
  have last {other : Update} (member : some other ∈ seen ++ [some update]) : some other ∈ seen ∨ other = update := by
    simpa using member
  cases newestUpdate with
  | none =>
    intro other member allowed
    rcases last member with earlier | rfl
    · exact selected other earlier allowed
    · exact stays (supersedes_none allowed)
  | some newest =>
    refine ⟨List.mem_append_left _ selected.1,selected.2.1,?_⟩
    intro other member allowed
    rcases last member with earlier | rfl
    · exact selected.2.2 other earlier allowed
    · by_contra above
      refine stays ⟨allowed,?_⟩
      rintro _ ⟨⟩
      omega

/-- One entry after the ones that were seen. -/
theorem considerUpdate_selected {seen : List (Option Update)} {newestUpdate : Option Update} {update : Update}
    {updateOs version : String} (givenOs : update.os = some updateOs) (givenVersion : update.version = some version)
    (selected : Selected machine launcherVersion seen newestUpdate) :
    ∃ next, considerUpdate machine os arch launcherVersion newestUpdate (some update) = .ok next ∧
      Selected machine launcherVersion (seen ++ [some update]) next := by
  obtain ⟨taken,kept⟩ := considerUpdate_step hasOs hasArch givenOs givenVersion (selected_named selected)
  by_cases supersedes : Supersedes machine launcherVersion update newestUpdate
  · exact ⟨_,taken supersedes,selected_taken selected supersedes⟩
  · exact ⟨_,kept supersedes,selected_kept selected supersedes⟩

/-- The whole loop. -/
theorem loop_selected {updates seen : List (Option Update)} {newestUpdate : Option Update} (complete : Complete updates)
    (selected : Selected machine launcherVersion seen newestUpdate) :
    ∃ result, updates.foldlM (considerUpdate machine os arch launcherVersion) newestUpdate = .ok result ∧
      Selected machine launcherVersion (seen ++ updates) result := by
  induction updates generalizing seen newestUpdate with
  | nil => exact ⟨newestUpdate,rfl,by simpa using selected⟩
  | cons entry rest ih =>
    obtain ⟨update,updateOs,version,rfl,givenOs,givenVersion⟩ := complete entry List.mem_cons_self
    obtain ⟨next,considered,nextSelected⟩ := considerUpdate_selected hasOs hasArch givenOs givenVersion selected
    obtain ⟨result,looped,resultSelected⟩ := ih (fun entry member => complete entry (List.mem_cons_of_mem _ member))
      nextSelected
    refine ⟨result,?_,by simpa using resultSelected⟩
    rw [List.foldlM_cons,considered]
    exact looped

end

/-- The entries of a bootstrap. -/
def entries (bootstrap : Bootstrap) : List (Option Update) := bootstrap.updates.getD []

/-- The method finds one of the greatest eligible entries. -/
theorem findAvailableUpdate_selected (machine : Machine) (launcherVersion : String) {bootstrap : Bootstrap}
    (complete : Complete (entries bootstrap)) :
    ∃ result, findAvailableUpdate machine (some launcherVersion) bootstrap = .ok result ∧
      Selected machine launcherVersion (entries bootstrap) result := by
  unfold findAvailableUpdate
  cases hasUpdates : bootstrap.updates with
  | none => exact ⟨none,rfl,by simp [Selected,entries,hasUpdates]⟩
  | some updates =>
    have isEntries : entries bootstrap = updates := by simp [entries,hasUpdates]
    rw [isEntries] at complete ⊢
    cases hasOs : machine.osName with
    | none => exact ⟨none,rfl,fun update _ ⟨os,_,_,_,given,_⟩ => by simp [hasOs] at given⟩
    | some os =>
      cases hasArch : machine.osArch with
      | none => exact ⟨none,rfl,fun update _ ⟨_,arch,_,_,_,given,_⟩ => by simp [hasArch] at given⟩
      | some arch =>
        have start : Selected machine launcherVersion [] none := by simp [Selected]
        simpa using loop_selected hasOs hasArch complete start

/-! ## The first of the greatest -/

/-- All greater or equal entries that were seen stand behind the chosen one. -/
def First (machine : Machine) (launcherVersion : String) (seen : List (Option Update)) (newest : Update) : Prop :=
  ∃ before after, seen = before ++ some newest :: after ∧
    ∀ update, some update ∈ before → Eligible machine launcherVersion update →
      compareVersion (versionOf update) (versionOf newest) < 0

theorem considerUpdate_first {machine : Machine} {os arch launcherVersion : String} {seen : List (Option Update)}
    {update : Update} {updateOs version : String} {newestUpdate next : Option Update}
    (hasOs : machine.osName = some os) (hasArch : machine.osArch = some arch) (givenOs : update.os = some updateOs)
    (givenVersion : update.version = some version)
    (considered : considerUpdate machine os arch launcherVersion newestUpdate (some update) = .ok next)
    (selected : Selected machine launcherVersion seen newestUpdate)
    (first : ∀ newest, newestUpdate = some newest → First machine launcherVersion seen newest) :
    ∀ newest, next = some newest → First machine launcherVersion (seen ++ [some update]) newest := by
  obtain ⟨taken,kept⟩ := considerUpdate_step hasOs hasArch givenOs givenVersion (selected_named selected)
  rintro newest rfl
  by_cases supersedes : Supersedes machine launcherVersion update newestUpdate
  · rw [taken supersedes] at considered
    cases considered
    refine ⟨seen,[],rfl,?_⟩
    intro other member eligible
    cases newestUpdate with
    | none => exact absurd eligible (selected other member)
    | some earlier =>
      have below := (compareVersion_orders.atMost _ _).mp (selected.2.2 other member eligible)
      have above := (compareVersion_orders.greater _ _).mp (supersedes.2 earlier rfl)
      exact (compareVersion_orders.less _ _).mpr (lt_of_le_of_lt below above)
  · rw [kept supersedes] at considered
    cases considered
    obtain ⟨before,after,split,smaller⟩ := first newest rfl
    exact ⟨before,after ++ [some update],by simp [split],smaller⟩

theorem loop_first {machine : Machine} {os arch launcherVersion : String} {updates seen : List (Option Update)}
    {newestUpdate result : Option Update} (hasOs : machine.osName = some os) (hasArch : machine.osArch = some arch)
    (complete : Complete updates)
    (looped : updates.foldlM (considerUpdate machine os arch launcherVersion) newestUpdate = .ok result)
    (selected : Selected machine launcherVersion seen newestUpdate)
    (first : ∀ newest, newestUpdate = some newest → First machine launcherVersion seen newest) :
    ∀ newest, result = some newest → First machine launcherVersion (seen ++ updates) newest := by
  induction updates generalizing seen newestUpdate with
  | nil =>
    cases looped
    simpa using first
  | cons entry rest ih =>
    obtain ⟨update,updateOs,version,rfl,givenOs,givenVersion⟩ := complete entry List.mem_cons_self
    obtain ⟨next,considered,nextSelected⟩ := considerUpdate_selected hasOs hasArch givenOs givenVersion selected
    rw [List.foldlM_cons,considered] at looped
    have later := ih (fun entry member => complete entry (List.mem_cons_of_mem _ member)) looped nextSelected
      (considerUpdate_first hasOs hasArch givenOs givenVersion considered selected first)
    simpa using later

theorem findAvailableUpdate_first {machine : Machine} {launcherVersion : String} {bootstrap : Bootstrap} {newest : Update}
    (complete : Complete (entries bootstrap))
    (found : findAvailableUpdate machine (some launcherVersion) bootstrap = .ok (some newest)) :
    First machine launcherVersion (entries bootstrap) newest := by
  unfold findAvailableUpdate at found
  split at found
  · next updates os arch version hasUpdates hasOs hasArch given =>
    cases given
    have isEntries : entries bootstrap = updates := by simp [entries,hasUpdates]
    rw [isEntries] at complete ⊢
    have start : Selected machine launcherVersion [] none := by simp [Selected]
    simpa using loop_first hasOs hasArch complete found start (by simp) newest rfl
  · cases found

/-- Eligible for a launcher that knows its version. -/
def Available (machine : Machine) (launcherVersion : Option String) (update : Update) : Prop :=
  ∃ version, launcherVersion = some version ∧ Eligible machine version update

section
variable {machine : Machine} {launcherVersion : String} {bootstrap permuted : Bootstrap}

/-- The order of the entries decides only between equal versions. -/
theorem permuted_equal {result other : Option Update} (same : (entries permuted).Perm (entries bootstrap))
    (selected : Selected machine launcherVersion (entries bootstrap) result)
    (otherSelected : Selected machine launcherVersion (entries permuted) other) :
    Option.Rel (fun newest update => compareVersion (versionOf newest) (versionOf update) = 0) result other := by
  cases result with
  | none =>
    cases other with
    | none => exact .none
    | some update => exact absurd otherSelected.2.1 (selected update (same.mem_iff.mp otherSelected.1))
  | some newest =>
    cases other with
    | none => exact absurd selected.2.1 (otherSelected newest (same.mem_iff.mpr selected.1))
    | some update =>
      have atMost := otherSelected.2.2 newest (same.mem_iff.mpr selected.1) selected.2.1
      have atLeast := selected.2.2 update (same.mem_iff.mp otherSelected.1) otherSelected.2.1
      rw [compareVersion_orders.atMost] at atMost atLeast
      exact .some ((compareVersion_orders.equal _ _).mpr (le_antisymm atMost atLeast))

end

/-- The method finds the first of the greatest eligible entries, and nothing
    when no entry is eligible. -/
theorem findAvailableUpdate_greatest (machine : Machine) (launcherVersion : Option String) {bootstrap : Bootstrap}
    (complete : Complete (entries bootstrap)) :
    ∃ result, findAvailableUpdate machine launcherVersion bootstrap = .ok result ∧
      (result = none ↔ ∀ update, some update ∈ entries bootstrap → ¬ Available machine launcherVersion update) ∧
      (∀ newest, result = some newest →
        some newest ∈ entries bootstrap ∧ Available machine launcherVersion newest ∧
        (∀ update, some update ∈ entries bootstrap → Available machine launcherVersion update →
          compareVersion (versionOf update) (versionOf newest) ≤ 0) ∧
        ∃ before after, entries bootstrap = before ++ some newest :: after ∧
          ∀ update, some update ∈ before → Available machine launcherVersion update →
            compareVersion (versionOf update) (versionOf newest) < 0) ∧
      ∀ permuted, (entries permuted).Perm (entries bootstrap) →
        ∃ other, findAvailableUpdate machine launcherVersion permuted = .ok other ∧
          Option.Rel (fun newest update => compareVersion (versionOf newest) (versionOf update) = 0) result other := by
  cases launcherVersion with
  | none =>
    have nothing (bootstrap : Bootstrap) : findAvailableUpdate machine none bootstrap = .ok none := by
      unfold findAvailableUpdate
      split <;> simp_all
    refine ⟨none,nothing bootstrap,?_,by simp,fun permuted _ => ⟨none,nothing permuted,.none⟩⟩
    simp [Available]
  | some launcherVersion =>
    have available (update : Update) : Available machine (some launcherVersion) update ↔
        Eligible machine launcherVersion update := by simp [Available]
    obtain ⟨result,found,selected⟩ := findAvailableUpdate_selected machine launcherVersion complete
    simp only [available]
    refine ⟨result,found,?_,?_,?_⟩
    · cases result with
      | none => exact iff_of_true rfl selected
      | some newest => exact iff_of_false (by simp) fun none => none newest selected.1 selected.2.1
    · rintro newest rfl
      exact ⟨selected.1,selected.2.1,selected.2.2,findAvailableUpdate_first complete found⟩
    · intro permuted same
      have permutedComplete : Complete (entries permuted) :=
        fun entry member => complete entry (same.mem_iff.mp member)
      obtain ⟨other,otherFound,otherSelected⟩ :=
        findAvailableUpdate_selected machine launcherVersion permutedComplete
      exact ⟨other,otherFound,permuted_equal same selected otherSelected⟩

private def sampleUpdates : Bootstrap where
  updates := some [some { os := some "windows", version := some "2.7.5" },
    some { os := some "windows", version := some "2.7.6", minimumVersion := some "2.7.5" }]

private def sampleMachine : Machine := ⟨some "Windows 10",some "amd64",some "10.0"⟩

private theorem sampleUpdates_complete : Complete (entries sampleUpdates) := by
  intro entry member
  simp only [entries,sampleUpdates,Option.getD_some,List.mem_cons,List.not_mem_nil,or_false] at member
  rcases member with rfl | rfl
  · exact ⟨_,_,_,rfl,rfl,rfl⟩
  · exact ⟨_,_,_,rfl,rfl,rfl⟩

theorem findAvailableUpdate_greatest_sample :
    ∃ newest, findAvailableUpdate sampleMachine (some "2.7.5") sampleUpdates = .ok (some newest) ∧
      newest.version = some "2.7.6" ∧
      ∀ update, some update ∈ entries sampleUpdates → Available sampleMachine (some "2.7.5") update →
        compareVersion (versionOf update) (versionOf newest) ≤ 0 := by
  obtain ⟨result,found,_,chosen,_⟩ := findAvailableUpdate_greatest sampleMachine (some "2.7.5") sampleUpdates_complete
  have newest : findAvailableUpdate sampleMachine (some "2.7.5") sampleUpdates =
      .ok (some { os := some "windows", version := some "2.7.6", minimumVersion := some "2.7.5" }) := rfl
  rw [newest] at found
  cases found
  exact ⟨_,newest,rfl,(chosen _ rfl).2.2.1⟩

/-! ## Chains of updates -/

/-- Updates that are found one after the other, each from the version that the
    previous one has installed. -/
inductive Chain (machine : Machine) (bootstrap : Bootstrap) : String → List Update → String → Prop
  | stay (version : String) : Chain machine bootstrap version [] version
  | step {version final : String} {update : Update} {rest : List Update}
      (found : findAvailableUpdate machine (some version) bootstrap = .ok (some update))
      (later : Chain machine bootstrap (versionOf update) rest final) :
      Chain machine bootstrap version (update :: rest) final

section
variable {machine : Machine} {bootstrap : Bootstrap} (complete : Complete (entries bootstrap))
include complete

/-- What is found is an entry that is eligible and newer than the launcher. -/
theorem found_newer {version : String} {update : Update}
    (found : findAvailableUpdate machine (some version) bootstrap = .ok (some update)) :
    some update ∈ entries bootstrap ∧ 0 < compareVersion (versionOf update) version := by
  obtain ⟨result,executed,selected⟩ := findAvailableUpdate_selected machine version complete
  rw [found] at executed
  cases executed
  obtain ⟨member,⟨_,_,_,updateVersion,_,_,_,hasVersion,_,allowed⟩,_⟩ := selected
  refine ⟨member,?_⟩
  simp only [versionAllows,Bool.and_eq_true,decide_eq_true_eq] at allowed
  simpa [versionOf,hasVersion] using allowed.1

/-- Nothing is found only when no entry is eligible. -/
theorem none_found {version : String} (found : findAvailableUpdate machine (some version) bootstrap = .ok none) :
    ∀ update, some update ∈ entries bootstrap → ¬ Eligible machine version update := by
  obtain ⟨result,executed,selected⟩ := findAvailableUpdate_selected machine version complete
  rw [found] at executed
  cases executed
  exact selected

theorem chain_climbs {version final : String} {updates : List Update}
    (chain : Chain machine bootstrap version updates final) :
    (version :: updates.map versionOf).Pairwise (fun older newer => 0 < compareVersion newer older) := by
  induction chain with
  | stay version => exact List.pairwise_singleton _ _
  | @step version final update rest found later ih =>
    have newer := (found_newer complete found).2
    refine List.Pairwise.cons ?_ ih
    intro other member
    rcases List.mem_cons.mp member with rfl | further
    · exact newer
    · have above := List.rel_of_pairwise_cons ih further
      rw [compareVersion_orders.greater] at newer above ⊢
      exact lt_trans newer above

theorem chain_entries {version final : String} {updates : List Update}
    (chain : Chain machine bootstrap version updates final) : ∀ update ∈ updates, some update ∈ entries bootstrap := by
  induction chain with
  | stay version => simp
  | step found later ih =>
    intro update member
    rcases List.mem_cons.mp member with rfl | further
    · exact (found_newer complete found).1
    · exact ih update further

theorem chain_nodup {version final : String} {updates : List Update}
    (chain : Chain machine bootstrap version updates final) : updates.Nodup := by
  have climbs := (chain_climbs complete chain).of_cons
  refine List.Pairwise.imp ?_ (List.pairwise_map.mp climbs)
  rintro older newer above rfl
  exact absurd ((compareVersion_orders.greater _ _).mp above) (lt_irrefl _)

theorem chain_bounded {version final : String} {updates : List Update}
    (chain : Chain machine bootstrap version updates final) : updates.length ≤ (entries bootstrap).length := by
  have distinct : (updates.map some).Nodup := (chain_nodup complete chain).map (Option.some_injective _)
  have included : updates.map some ⊆ entries bootstrap := by
    intro entry member
    obtain ⟨update,inChain,rfl⟩ := List.mem_map.mp member
    exact chain_entries complete chain update inChain
  simpa using (List.subperm_of_subset distinct included).length_le

omit complete in
theorem chain_snoc {version final : String} {updates : List Update} {update : Update}
    (chain : Chain machine bootstrap version updates final)
    (found : findAvailableUpdate machine (some final) bootstrap = .ok (some update)) :
    Chain machine bootstrap version (updates ++ [update]) (versionOf update) := by
  induction chain with
  | stay version => exact .step found (.stay _)
  | step first later ih => exact .step first (ih found)

/-- As long as no chain has ended, there is one of every length. -/
theorem chain_extends (version : String) (length : Nat) :
    (∃ updates final, Chain machine bootstrap version updates final ∧
        findAvailableUpdate machine (some final) bootstrap = .ok none) ∨
      ∃ updates final, Chain machine bootstrap version updates final ∧ updates.length = length := by
  induction length with
  | zero => exact .inr ⟨[],version,.stay version,rfl⟩
  | succ length ih =>
    rcases ih with ended | ⟨updates,final,chain,long⟩
    · exact .inl ended
    · obtain ⟨result,executed,_⟩ := findAvailableUpdate_selected machine final complete
      cases result with
      | none => exact .inl ⟨updates,final,chain,executed⟩
      | some update => exact .inr ⟨_,_,chain_snoc chain executed,by simp [long]⟩

/-- From every version the chains of updates climb strictly, never take an entry
    twice, are no longer than the list of entries, and come to an end, where no
    entry is eligible any more. -/
theorem chains_end (version : String) :
    (∀ updates final, Chain machine bootstrap version updates final →
      (version :: updates.map versionOf).Pairwise (fun older newer => 0 < compareVersion newer older) ∧
        updates.Nodup ∧ updates.length ≤ (entries bootstrap).length ∧
        (findAvailableUpdate machine (some final) bootstrap = .ok none →
          ∀ update, some update ∈ entries bootstrap → ¬ Eligible machine final update)) ∧
      ∃ updates final, Chain machine bootstrap version updates final ∧
        findAvailableUpdate machine (some final) bootstrap = .ok none := by
  constructor
  · intro updates final chain
    exact ⟨chain_climbs complete chain,chain_nodup complete chain,chain_bounded complete chain,none_found complete⟩
  · rcases chain_extends complete version ((entries bootstrap).length + 1) with ended | ⟨updates,final,chain,long⟩
    · exact ended
    · have bounded := chain_bounded complete chain
      omega

end

theorem chains_end_sample :
    ∃ updates final, Chain sampleMachine sampleUpdates "2.7.4" updates final ∧
      findAvailableUpdate sampleMachine (some final) sampleUpdates = .ok none :=
  (chains_end sampleUpdates_complete "2.7.4").2

end OpenRune.Updates
