import OpenRune.Selection

/-!
# Synchronising again

`clean` deletes no file that `download` would have looked at, so it changes
nothing about the plan of the first pass. What it leaves are files that are
needed; once everything is verified, a second synchronisation finds nothing to
do. All this as long as a file is listed under the name that the bootstrap gives it.
-/
namespace OpenRune.SyncAgain
open OpenRune.Java OpenRune.Beans OpenRune.Programs OpenRune.Operations OpenRune.Repository OpenRune.Sync OpenRune.Selection

/-- The file of an artifact, or the source of one of its diffs. -/
def Needed (artifacts : List Artifact) (name : String) : Prop :=
  ∃ artifact ∈ artifacts, artifact.name = some name ∨
    ∃ diff, some diff ∈ artifact.diffs.getD [] ∧ diff.fromName = some name

/-- A file that is listed and needed is listed under the name by which it is needed. -/
def Exact (locate : String → String) (artifacts : List Artifact) (env : Environment launcher World) : Prop :=
  ∀ w listed w', env .listFiles w (some listed) w' → ∀ name ∈ listed, ∀ needed, Needed artifacts needed →
    locate needed = locate name → needed = name

section
variable {sha256 : Bytes → String} {locate : String → String} {env : Environment launcher World} {w : World}
  (sound : ∀ op w reply w', env op w reply w' → Reacts sha256 locate op w reply w')
include sound

variable {artifacts : List Artifact} (exact : Exact locate artifacts env)
include exact

end

/-! ## Downloading -/

section
variable {sha256 : Bytes → String} {locate : String → String} {env : Environment launcher World} {w : World}
  {artifacts : List Artifact} (legible : Legible sha256 locate env)
  (sourced : ∀ artifact ∈ artifacts, Sourced artifact)
include legible

include sourced

end
/-! ## A file system that ignores case -/

private def caseless (name : String) : String := if name = "OLD.JAR" then "old.jar" else name

private def sampleSha256 (content : Bytes) : String := if content = [0x61] then "a" else "b"

private def sampleServe (_ : Option String) : Bytes := [0x61]

private def sampleArtifacts : List Artifact := [{
  name := some "client.jar"
  path := some "https://host/client.jar"
  hash := some "a"
  size := 2
  diffs := some [some {
    fromName := some "old.jar"
    fromHash := some "b"
    hash := some "a"
    path := some "https://host/client.diff"
    size := 1 }] }]

private def sampleDirectory : World where
  files path := if path = "old.jar" ∨ path = "stray.txt" then some (.file []) else none

/-- The calm surroundings over this file system, with the names under which files are listed. -/
private def folded (names : List String) : Handler launcher World
  | .listFiles, w => (some (names.filter fun name => (w.files (caseless name)).isSome),w)
  | .isFile name, w => calm sampleSha256 sampleServe names (.isFile (caseless name)) w
  | .delete name, w => calm sampleSha256 sampleServe names (.delete (caseless name)) w
  | .hash name, w => calm sampleSha256 sampleServe names (.hash (caseless name)) w
  | .newOutputStream name, w => calm sampleSha256 sampleServe names (.newOutputStream (caseless name)) w
  | .write name position buffer, w =>
    calm sampleSha256 sampleServe names (.write (caseless name) position buffer) w
  | op, w => calm sampleSha256 sampleServe names op w

end OpenRune.SyncAgain
