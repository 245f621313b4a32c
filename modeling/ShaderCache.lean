import ShaderCache.Compile.Backend
import ShaderCache.Compile.Job
import ShaderCache.Compile.Request
import ShaderCache.Compile.Version
import ShaderCache.Config.Conformances
import ShaderCache.Config.Defines
import ShaderCache.Config.DefinesJson
import ShaderCache.Config.Key
import ShaderCache.Crc64
import ShaderCache.Dispatch
import ShaderCache.Environment.Basic
import ShaderCache.Environment.Files
import ShaderCache.Environment.Format
import ShaderCache.Error
import ShaderCache.Event
import ShaderCache.Files.Path
import ShaderCache.Files.Resolver
import ShaderCache.Files.Tree
import ShaderCache.IdSequence
import ShaderCache.Link.Kernels
import ShaderCache.Program.CompilerFlags
import ShaderCache.Program.Desc
import ShaderCache.Program.Device
import ShaderCache.Program.Reflection
import ShaderCache.Program.ShaderModel
import ShaderCache.Program.Stage
import ShaderCache.Scripted.Backend
import ShaderCache.Scripted.Bench
import ShaderCache.Scripted.Component
import ShaderCache.Scripted.Dispatchers
import ShaderCache.Session
import ShaderCache.SortedMap
import ShaderCache.Text.Blank
import ShaderCache.Text.CaseTable
import ShaderCache.Text.Join
import ShaderCache.Text.Lowercase
import ShaderCache.Text.Numeral
import ShaderCache.Text.Utf8
import ShaderCache.World.Basic
import ShaderCache.World.Kernels
import ShaderCache.World.Managers
import ShaderCache.World.ProgramState
import ShaderCache.World.Programs
import ShaderCache.World.Settings
import ShaderCache.World.Versions
import ShaderCache.Yaml.Access
import ShaderCache.Yaml.BlockScalar
import ShaderCache.Yaml.FlowScalar
import ShaderCache.Yaml.Glyph
import ShaderCache.Yaml.Grammar
import ShaderCache.Yaml.Layout
import ShaderCache.Yaml.Node
import ShaderCache.Yaml.PlainValue
import ShaderCache.Yaml.Quoting
import ShaderCache.Yaml.Scanner
import ShaderCache.Yaml.Tag
import ShaderCache.Yaml.Token
import ShaderCache.Proofs.ConfigurationEdit
import ShaderCache.Proofs.JobRules
import ShaderCache.Proofs.Resolution
import ShaderCache.Proofs.Run
import ShaderCache.Proofs.CacheCoherence
import ShaderCache.Proofs.WorldInvariant
import ShaderCache.Proofs.RunInvariant
import ShaderCache.Proofs.ProgramCaches
import ShaderCache.Proofs.ResetEpochs
import ShaderCache.Proofs.Renumbering
import ShaderCache.Proofs.Freshness
import ShaderCache.Proofs.Uncached
import ShaderCache.Proofs.Interleaving
import ShaderCache.Proofs.StaleVersions
import ShaderCache.Proofs.Archive
import ShaderCache.Proofs.ArchiveInvariant
import ShaderCache.Proofs.KeptKernels
import ShaderCache.Proofs.KernelsCache
import ShaderCache.Proofs.KernelCalls
import ShaderCache.Proofs.ConcurrentKernels
import ShaderCache.Proofs.ConfigurationMoments
import ShaderCache.Proofs.FailedCalls
import ShaderCache.Proofs.Twins
import ShaderCache.Proofs.TwinCalls
import ShaderCache.Proofs.ArchiveTwins
import ShaderCache.Proofs.FailureTraces
import ShaderCache.Proofs.RequestEffects
import ShaderCache.Proofs.Origins
import ShaderCache.Proofs.Lifetimes
import ShaderCache.Proofs.SearchPaths
import ShaderCache.Proofs.Assembly
import ShaderCache.Proofs.Positions
import ShaderCache.Proofs.KernelOrigins
import ShaderCache.Proofs.BuiltKernels
import ShaderCache.Proofs.DeviceEntries
import ShaderCache.Proofs.ReloadSweeps
import ShaderCache.Proofs.GroupPipelines
import ShaderCache.Proofs.PathSteps
import ShaderCache.Proofs.SearchDirectories
import ShaderCache.Proofs.LinkChecks
import ShaderCache.Proofs.FirstFailure
import ShaderCache.Proofs.Macros
import ShaderCache.Proofs.RequestErrors
import ShaderCache.Proofs.EntryNames
import ShaderCache.Proofs.Reflections
import ShaderCache.Proofs.ReflectedContents
import ShaderCache.Proofs.Contexts
import ShaderCache.Proofs.ForcedFlags
import ShaderCache.Proofs.EnvironmentSettings
import ShaderCache.Proofs.FileLookup
import ShaderCache.Proofs.FileWrites
import ShaderCache.Proofs.PathParents
import ShaderCache.Proofs.EnvironmentFiles
import ShaderCache.Proofs.ByteOrder
import ShaderCache.Proofs.ConfigurationSets
import ShaderCache.Proofs.NameFamilies
import ShaderCache.Proofs.CallLogs
import ShaderCache.Proofs.ReportedChanges
import ShaderCache.Proofs.CanonicalBytes
import ShaderCache.Proofs.ProfileNames
import ShaderCache.Proofs.Finalization
import ShaderCache.Proofs.VersionIds
