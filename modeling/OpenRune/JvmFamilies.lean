import OpenRune.PackrConfig
import OpenRune.Startup

/-!
# The arguments for the running Java

The bootstrap lists arguments for the virtual machine by its version and by the
operating system. Which lists are taken depends on `Launcher.isJava17`, and this
is compared with the version that `Launcher.getMajorJavaVersion` reads.
-/
namespace OpenRune.JvmFamilies
open OpenRune.Java OpenRune.Beans OpenRune.Updates OpenRune.Launchers OpenRune.PackrConfig OpenRune.Startup

/-- The lists for one range of Java versions. -/
structure Family where
  windows : Option (List String) := none
  mac : Option (List String) := none
  generic : Option (List String)

/-- The list that is meant for the operating system alone. -/
def Family.specific (family : Family) : OSType → Option (List String)
  | .Windows => family.windows
  | .MacOS => family.mac
  | _ => none

/-- The specific list when it is present, otherwise the generic one. -/
def Family.selected (family : Family) (os : OSType) : Option (List String) :=
  match family.specific os with
  | some args => some args
  | none => family.generic

def clientFamily (bootstrap : Bootstrap) (java17 : Bool) : Family :=
  if java17 then
    ⟨bootstrap.clientJvm17WindowsArguments,bootstrap.clientJvm17MacArguments,bootstrap.clientJvm17Arguments⟩
  else { generic := bootstrap.clientJvm9Arguments }

def launcherFamily (bootstrap : Bootstrap) (java17 : Bool) : Family :=
  if java17 then
    ⟨bootstrap.launcherJvm17WindowsArguments,bootstrap.launcherJvm17MacArguments,bootstrap.launcherJvm17Arguments⟩
  else ⟨bootstrap.launcherJvm11WindowsArguments,bootstrap.launcherJvm11MacArguments,bootstrap.launcherJvm11Arguments⟩

/-- Both classes take the family of the version. -/
def Matches (host : Host) (major : Int) (bootstrap : Bootstrap) : Prop :=
  getJvmArguments host bootstrap = .ok ((clientFamily bootstrap (decide (17 ≤ major))).selected (getOs host.machine)) ∧
    getVmArgs host bootstrap = .ok ((launcherFamily bootstrap (decide (17 ≤ major))).selected (getOs host.machine))

/-! ## The choice within a family -/

theorem getJvmArguments_family {host : Host} {java17 : Bool} (decided : isJava17 host.javaVersion = .ok java17)
    (bootstrap : Bootstrap) :
    getJvmArguments host bootstrap = .ok ((clientFamily bootstrap java17).selected (getOs host.machine)) := by
  unfold getJvmArguments
  rw [decided,ok_bind]
  cases java17 with
  | false => cases getOs host.machine <;> rfl
  | true =>
    cases getOs host.machine with
    | Windows => cases windows : bootstrap.clientJvm17WindowsArguments <;>
        simp [clientFamily,Family.selected,Family.specific,windows]
    | MacOS => cases mac : bootstrap.clientJvm17MacArguments <;>
        simp [clientFamily,Family.selected,Family.specific,mac]
    | Linux | Other => rfl

theorem getVmArgs_family {host : Host} {java17 : Bool} (decided : isJava17 host.javaVersion = .ok java17)
    (bootstrap : Bootstrap) :
    getVmArgs host bootstrap = .ok ((launcherFamily bootstrap java17).selected (getOs host.machine)) := by
  unfold getVmArgs
  rw [decided,ok_bind]
  cases java17 with
  | false =>
    cases getOs host.machine with
    | Windows => cases windows : bootstrap.launcherJvm11WindowsArguments <;>
        simp [getArgsJvm11,launcherFamily,Family.selected,Family.specific,windows]
    | MacOS => cases mac : bootstrap.launcherJvm11MacArguments <;>
        simp [getArgsJvm11,launcherFamily,Family.selected,Family.specific,mac]
    | Linux | Other => rfl
  | true =>
    cases getOs host.machine with
    | Windows => cases windows : bootstrap.launcherJvm17WindowsArguments <;>
        simp [getArgsJvm17,launcherFamily,Family.selected,Family.specific,windows]
    | MacOS => cases mac : bootstrap.launcherJvm17MacArguments <;>
        simp [getArgsJvm17,launcherFamily,Family.selected,Family.specific,mac]
    | Linux | Other => rfl

/-- A bootstrap in which every list tells its family. -/
private def labelled : Bootstrap where
  clientJvm9Arguments := some ["9"]
  clientJvm17Arguments := some ["17"]

/-- The families match on every bootstrap exactly when the version is classified right. -/
theorem matches_iff {host : Host} {major : Int} :
    (∀ bootstrap, Matches host major bootstrap) ↔ isJava17 host.javaVersion = .ok (decide (17 ≤ major)) := by
  constructor
  · intro matched
    have taken := (matched labelled).1
    cases decided : isJava17 host.javaVersion with
    | error thrown => simp [getJvmArguments,decided] at taken
    | ok java17 =>
      rw [getJvmArguments_family decided] at taken
      generalize decide (17 ≤ major) = expected at taken ⊢
      cases java17 <;> cases expected <;> cases os : getOs host.machine <;>
        simp_all [clientFamily,labelled,Family.selected,Family.specific]
  · intro decided bootstrap
    exact ⟨getJvmArguments_family decided bootstrap,getVmArgs_family decided bootstrap⟩

/-! ## The version -/

/-- After `1.` a digit that is at least 7 exactly from version 17 on; a version
    that does not begin so is below 17. -/
def Classified (version : String) (major : Int) : Prop :=
  match version.toList with
  | '1' :: '.' :: digit :: _ => digit.isDigit = true ∧ ('7' ≤ digit ↔ 17 ≤ major)
  | _ => major < 17

theorem parseInt_digit (digit : Char) :
    parseInt [digit] = if digit.isDigit then some ((digit.toNat : Int) - 48) else none := by
  by_cases sign : digit = '-' ∨ digit = '+'
  · rcases sign with rfl | rfl <;> decide
  · have plain : parseInt [digit] =
        if isNumeral [digit] ∧ digitsValue [digit] < 2 ^ 31 then some (digitsValue [digit] : Int) else none := by
      unfold parseInt
      split
      · simp_all
      · simp_all
      · rfl
    have value : digitsValue [digit] = digit.toNat - 48 := by simp [digitsValue]
    rw [plain,value]
    by_cases numeral : digit.isDigit = true
    · have bounds : 48 ≤ digit.toNat ∧ digit.toNat ≤ 57 := by
        simpa [Char.isDigit,UInt32.le_iff_toNat_le] using numeral
      simp [isNumeral,numeral]
      omega
    · simp [isNumeral,numeral]

/-- Nothing follows the dot, so there is no second element. -/
theorem getMajorJavaVersion_empty : getMajorJavaVersion "1." = .error .unchecked := by decide

theorem isJava17_classified {version : String} {major : Int} (computed : getMajorJavaVersion version = .ok major) :
    isJava17 (some version) = .ok (decide (17 ≤ major)) ↔ Classified version major := by
  simp only [isJava17,deref_some,ok_bind,Classified]
  split
  · next only =>
    obtain rfl : version = "1." := String.toList_inj.mp only
    rw [getMajorJavaVersion_empty] at computed
    cases computed
  · next _ digit rest begins =>
    rw [begins,parseInt_digit]
    by_cases numeral : digit.isDigit = true
    · have bounds : 48 ≤ digit.toNat ∧ digit.toNat ≤ 57 := by
        simpa [Char.isDigit,UInt32.le_iff_toNat_le] using numeral
      have seven : '7' ≤ digit ↔ 7 ≤ (digit.toNat : Int) - 48 := by
        rw [Char.le_def,UInt32.le_iff_toNat_le]
        change 55 ≤ digit.toNat ↔ _
        omega
      simp [numeral,seven]
    · simp [numeral]
  · next other =>
    split
    · next digit rest begins => exact absurd begins (other digit rest)
    · simp

/-- The running Java gets the arguments for its version, whatever the bootstrap
    lists, exactly when `isJava17` classifies that version right. -/
theorem family_matches {host : Host} {version : String} {major : Int} (running : host.javaVersion = some version)
    (computed : getMajorJavaVersion version = .ok major) :
    (∀ bootstrap, Matches host major bootstrap) ↔ Classified version major := by
  rw [matches_iff,running]
  exact isJava17_classified computed

/-- The host on Java 17. -/
private def modernHost : Host := { sampleHost with javaVersion := some "17.0.1" }

theorem family_matches_sample : (∀ bootstrap, Matches modernHost 17 bootstrap) ↔ Classified "17.0.1" 17 :=
  family_matches rfl (by decide)

/-- Java 17 is given the arguments for Java 9. -/
theorem family_mismatch : ¬ ∀ (host : Host) (version : String) (major : Int) (bootstrap : Bootstrap),
    host.javaVersion = some version → getMajorJavaVersion version = .ok major → Matches host major bootstrap := by
  intro matched
  have taken := (matched modernHost "17.0.1" 17 labelled rfl (by decide)).1
  have nine : getJvmArguments modernHost labelled = .ok (some ["9"]) := by rfl
  rw [nine] at taken
  exact absurd taken (by decide)

end OpenRune.JvmFamilies
