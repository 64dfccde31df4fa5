import OpenRune.Attempts
import OpenRune.Backoff
import OpenRune.Beans
import OpenRune.BinarySearches
import OpenRune.BundleCopy
import OpenRune.Cells
import OpenRune.ClassPaths
import OpenRune.CommandLines
import OpenRune.Comparators
import OpenRune.ConfigurationFrame
import OpenRune.CppStrings
import OpenRune.DllBlacklists
import OpenRune.DotSegments
import OpenRune.DownloadProgress
import OpenRune.Downloads
import OpenRune.Dropt
import OpenRune.Extraction
import OpenRune.FatalErrors
import OpenRune.FilesystemPermissions
import OpenRune.ForkedArguments
import OpenRune.ForkedLauncher
import OpenRune.HttpRequests
import OpenRune.InputStreams
import OpenRune.InstallerDialogs
import OpenRune.InstallerProgress
import OpenRune.Interleaving
import OpenRune.Java
import OpenRune.JavaInstaller
import OpenRune.JavaMarker
import OpenRune.JreRows
import OpenRune.JsonTexts
import OpenRune.JvmFamilies
import OpenRune.Launchers
import OpenRune.LoadedSettings
import OpenRune.MacosBundle
import OpenRune.Memories
import OpenRune.MountPoints
import OpenRune.NativeLauncher
import OpenRune.NumericVersions
import OpenRune.Operations
import OpenRune.Outcomes
import OpenRune.Overrides
import OpenRune.Packr
import OpenRune.PackrConfig
import OpenRune.PatchSources
import OpenRune.PatchedLaunches
import OpenRune.Patching
import OpenRune.PermissionChecks
import OpenRune.Plist
import OpenRune.Programs
import OpenRune.Replacement
import OpenRune.Repository
import OpenRune.RootedPaths
import OpenRune.RunningFromInstaller
import OpenRune.RunningTotals
import OpenRune.Runs
import OpenRune.Sajson
import OpenRune.SajsonDocuments
import OpenRune.SajsonJson
import OpenRune.SajsonTexts
import OpenRune.SajsonTrees
import OpenRune.SajsonValues
import OpenRune.SavedConfiguration
import OpenRune.Selection
import OpenRune.SelfUpdate
import OpenRune.Settings
import OpenRune.SettingsRace
import OpenRune.SharedRepository
import OpenRune.Stages
import OpenRune.Startup
import OpenRune.Storing
import OpenRune.StreamedDownloads
import OpenRune.Sync
import OpenRune.SyncAgain
import OpenRune.TreeAcl
import OpenRune.Trees
import OpenRune.UpdateGate
import OpenRune.Updates
import OpenRune.UpgradeParams
import OpenRune.Versions
import OpenRune.Walks
import OpenRune.WastedDiffs
