import OpenRune.Startup
import OpenRune.FilesystemPermissions
import OpenRune.InstallerDialogs
import OpenRune.SelfUpdate

/-!
# The stages of main

`Startup` looks at some stages of `main` from outside only. Here each of them is a
run of the method that `main` calls: the permission check, the Java installer and
the updater, which also keeps the settings file. A run of `main` over these stages
is one over stages seen from outside.
-/
namespace OpenRune.Stages
open OpenRune.Java OpenRune.Beans OpenRune.Programs OpenRune.Operations OpenRune.Launchers OpenRune.Startup

/-- The surroundings of the methods, and how the operations in them react. -/
structure Inside (host : Host) where
  runeliteDir : String
  java : JavaInstaller.Surroundings
  lines : List String
  installing : Environment JavaInstaller.installer JavaInstaller.World
  installs : ∀ op w reply w', installing op w reply w' → JavaInstaller.Reacts java op w reply w'
  updater : SelfUpdate.Surroundings
  sameProperties : updater.properties = host.properties
  sameMachine : updater.machine = host.machine
  inputs : SelfUpdate.Inputs
  updating : Environment SelfUpdate.updater SelfUpdate.World
  updates : ∀ op w reply w', updating op w reply w' →
    SelfUpdate.Reacts (SelfUpdate.runeliteApp host.properties) inputs op w reply w'

/-- The world of the launcher, those of the installer and of the updater, and the
    bootstraps with which the updater was called. -/
structure World where
  launcher : Operations.World
  java : JavaInstaller.World
  updater : SelfUpdate.World
  updates : List Bootstrap := []

/-- The permission check may be answered in any way. -/
def anyAnswer : Environment FilesystemPermissions.checking Unit := fun _ _ _ _ => True

section
variable {host : Host} (library : Library) (locate : String → String) (inside : Inside host)

/-- What happens within the stages. -/
def Within : Environment launcher World
  | .checkPermissions, s, reply, s' => s' = { s with launcher := s'.launcher } ∧
    Runs (Counting anyAnswer FilesystemPermissions.Op.isDialog)
      (FilesystemPermissions.check ⟨host.properties.name,inside.runeliteDir⟩) ((),0) reply.result ((),reply.dialogs)
  | .initJava, s, reply, s' => s' = { s with launcher := s'.launcher, java := s'.java } ∧
    (∀ os arch, host.machine.osName = some os → host.machine.osArch = some arch →
      ∃ outcome, reply.result = outcome.map (fun _ => ()) ∧
        Runs (Counting inside.installing InstallerDialogs.isWindow) (JavaInstaller.init inside.java ⟨os,arch,inside.lines⟩)
          (s.java.begin,0) outcome (s'.java,reply.dialogs)) ∧
    (host.machine.osName = none ∨ host.machine.osArch = none → reply.dialogs = 0 ∧ reply.result = .error .unchecked)
  | .loadSettings, s, reply, s' => s' = { s with launcher := s'.launcher } ∧ reply = s.updater.stored
  | .update bootstrap settings args, s, reply, s' =>
    s' = { s with launcher := s'.launcher, updater := s'.updater, updates := s.updates ++ [bootstrap] } ∧
      reply.dialogs = 0 ∧
      Runs inside.updating (SelfUpdate.update library.sha256 inside.updater bootstrap settings args) s.updater
        reply.result s'.updater
  | _, s, _, s' => s' = { s with launcher := s'.launcher }

/-- The operations of `main`, with what happens within the stages. -/
def Reacts : Environment launcher World := fun op s reply s' =>
  Operations.Reacts library.sha256 locate op s.launcher reply s'.launcher ∧ Within library inside op s reply s'

variable {library locate inside}

/-- From outside the stages are as before. -/
theorem steps_launcher {α : Type} {p q : Method α} {s t : World} (steps : Steps (Reacts library locate inside) p s q t) :
    Steps (Operations.Reacts library.sha256 locate) p s.launcher q t.launcher := by
  induction steps with
  | refl => exact .refl
  | tail before reacts ih => exact .tail ih reacts.1

end

/-! ## An executable environment -/

section
variable {host : Host} (library : Library) (inside : Inside host)
  (outside : Handler launcher Operations.World) (checking : Handler FilesystemPermissions.checking Unit)
  (installing : Handler JavaInstaller.installer JavaInstaller.World)
  (updating : Handler SelfUpdate.updater SelfUpdate.World)

/-- The permission check, run by its handler. -/
def checked : Except Thrown Bool × Unit × Nat :=
  execute (checking.counting FilesystemPermissions.Op.isDialog)
    (FilesystemPermissions.check ⟨host.properties.name,inside.runeliteDir⟩) ((),0)

/-- The installer, run by its handler. -/
def installed (os arch : String) (w : JavaInstaller.World) :
    Except Thrown JavaInstaller.Ending × JavaInstaller.World × Nat :=
  execute (installing.counting InstallerDialogs.isWindow) (JavaInstaller.init inside.java ⟨os,arch,inside.lines⟩) (w.begin,0)

/-- The updater, run by its handler. -/
def updated (bootstrap : Bootstrap) (settings : Settings.LauncherSettings) (args : List String) (w : SelfUpdate.World) :
    Except Thrown Unit × SelfUpdate.World :=
  execute updating (SelfUpdate.update library.sha256 inside.updater bootstrap settings args) w

/-- The stages that a handler can run, and the other operations as they are outside. -/
def staged : Handler launcher World
  | .checkPermissions, s =>
    let ended := checked inside checking
    (⟨ended.2.2,ended.1⟩,{ s with launcher := { s.launcher with dialogs := s.launcher.dialogs + ended.2.2 } })
  | .initJava, s => match host.machine.osName, host.machine.osArch with
    | some os, some arch =>
      let ended := installed inside installing os arch s.java
      (⟨ended.2.2,ended.1.map fun _ => ()⟩,{ s with
        launcher := { s.launcher with dialogs := s.launcher.dialogs + ended.2.2 }
        java := ended.2.1 })
    | _, _ => (⟨0,.error .unchecked⟩,s)
  | .loadSettings, s => (s.updater.stored,s)
  | .update bootstrap settings args, s =>
    let ended := updated library inside updating bootstrap settings args s.updater
    (⟨0,ended.1⟩,{ s with updater := ended.2, updates := s.updates ++ [bootstrap] })
  | op, s => ((outside op s.launcher).1,{ s with launcher := (outside op s.launcher).2 })

variable {library inside outside checking installing updating} {locate : String → String}

theorem staged_reacts (out : ∀ op w, Operations.Reacts library.sha256 locate op w (outside op w).1 (outside op w).2)
    (installs : ∀ op w, inside.installing op w (installing op w).1 (installing op w).2)
    (updates : ∀ op w, inside.updating op w (updating op w).1 (updating op w).2) (op : Op) (s : World) :
    Reacts library locate inside op s (staged library inside outside checking installing updating op s).1
      (staged library inside outside checking installing updating op s).2 := by
  cases op with
  | checkPermissions =>
    refine ⟨rfl,rfl,?_⟩
    exact @execute_runs _ _ _ _ (Counting anyAnswer _) (checking.counting _) (fun _ _ => ⟨trivial,rfl⟩) _ _
  | initJava =>
    cases os : host.machine.osName with
    | none =>
      simp only [staged,Reacts,Within,os]
      exact ⟨⟨s.launcher.files,rfl⟩,trivial,nofun,fun _ => ⟨trivial,trivial⟩⟩
    | some os =>
      cases arch : host.machine.osArch with
      | none =>
        simp only [staged,Reacts,Within,os,arch]
        exact ⟨⟨s.launcher.files,rfl⟩,trivial,nofun,fun _ => ⟨trivial,trivial⟩⟩
      | some arch =>
        simp only [staged,Reacts,Within,os,arch]
        refine ⟨⟨s.launcher.files,rfl⟩,trivial,?_,by simp⟩
        rintro _ _ ⟨⟩ ⟨⟩
        exact ⟨_,rfl,@execute_runs _ _ _ _ (Counting inside.installing _) (installing.counting _)
          (fun _ _ => ⟨installs _ _,rfl⟩) _ _⟩
  | loadSettings => exact ⟨rfl,rfl,rfl⟩
  | update bootstrap settings args => exact ⟨⟨s.launcher.files,rfl⟩,rfl,rfl,execute_runs updates _ _⟩
  | _ => exact ⟨out _ _,rfl⟩

end
end OpenRune.Stages
