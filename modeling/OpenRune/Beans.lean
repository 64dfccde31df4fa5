import OpenRune.Java

/-!
# The bootstrap

The classes that the JSON of the bootstrap is read into. A member that the JSON
leaves out, or sets to null, is `none`; so is a null element of an array of objects.
The arrays of arguments are taken to hold strings only: a null among them, which Gson
would read, is left out.
-/
namespace OpenRune.Beans
open OpenRune.Java

structure Diff where
  name : Option String := none
  fromName : Option String := none
  fromHash : Option String := none
  hash : Option String := none
  path : Option String := none
  size : Int := 0
  deriving DecidableEq, Repr

structure Platform where
  name : Option String := none
  arch : Option String := none
  deriving DecidableEq, Repr

structure Artifact where
  name : Option String := none
  path : Option String := none
  hash : Option String := none
  size : Int := 0
  diffs : Option (List (Option Diff)) := none
  platform : Option (List (Option Platform)) := none
  deriving DecidableEq, Repr

structure Update where
  os : Option String := none
  osName : Option String := none
  osVersion : Option String := none
  arch : Option String := none
  name : Option String := none
  version : Option String := none
  minimumVersion : Option String := none
  url : Option String := none
  hash : Option String := none
  size : Int := 0
  rollout : Double := .finite 0
  deriving DecidableEq, Repr

structure Bootstrap where
  artifacts : Option (List (Option Artifact)) := none
  clientJvm9Arguments : Option (List String) := none
  clientJvm17Arguments : Option (List String) := none
  clientJvm17WindowsArguments : Option (List String) := none
  clientJvm17MacArguments : Option (List String) := none
  requiredLauncherVersion : Option String := none
  requiredJVMVersion : Option String := none
  updates : Option (List (Option Update)) := none
  launcherJvm11WindowsArguments : Option (List String) := none
  launcherJvm11MacArguments : Option (List String) := none
  launcherJvm11Arguments : Option (List String) := none
  launcherJvm17WindowsArguments : Option (List String) := none
  launcherJvm17MacArguments : Option (List String) := none
  launcherJvm17Arguments : Option (List String) := none
  launcherWindowsEnv : Option (List (String × Option String)) := none
  launcherMacEnv : Option (List (String × Option String)) := none
  launcherLinuxEnv : Option (List (String × Option String)) := none
  deriving DecidableEq, Repr

end OpenRune.Beans
