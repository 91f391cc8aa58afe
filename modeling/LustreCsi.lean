import LustreCsi.Computation.Program
import LustreCsi.Computation.Interleaving
import LustreCsi.Computation.Regex
import LustreCsi.Computation.Separator
import LustreCsi.Computation.TryLock
import LustreCsi.Computation.LockedSection
import LustreCsi.Computation.CheckThenAct
import LustreCsi.Computation.NestedLocks
import LustreCsi.Computation.SlotClaims
import LustreCsi.Computation.SerialRuns
import LustreCsi.Computation.CheckedFold
import LustreCsi.Computation.Glob
import LustreCsi.Computation.Restarts
import LustreCsi.Computation.Json
import LustreCsi.Model.Status
import LustreCsi.Model.Host
import LustreCsi.Model.Text
import LustreCsi.Model.Driver
import LustreCsi.Model.Node
import LustreCsi.Model.Cloud
import LustreCsi.Model.LustreService
import LustreCsi.Model.Controller
import LustreCsi.Model.Network
import LustreCsi.Model.KmodInstaller
import LustreCsi.Model.LabelController
import LustreCsi.Model.Upcall
import LustreCsi.Model.NICs
import LustreCsi.Model.Errors
import LustreCsi.Model.UpcallProtocol
import LustreCsi.Interface.Paths
import LustreCsi.Interface.Host
import LustreCsi.Interface.KeyDirs
import LustreCsi.Interface.NodePool
import LustreCsi.Interface.Footprints
import LustreCsi.Interface.Sample
import LustreCsi.Interface.Sequential
import LustreCsi.Interface.ResourceNames
import LustreCsi.Interface.Cloud
import LustreCsi.Interface.ControllerPool
import LustreCsi.Interface.ControllerSample
import LustreCsi.Interface.ControllerRuns
import LustreCsi.Interface.Text
import LustreCsi.Interface.NodeCalls
import LustreCsi.Interface.MountPoints
import LustreCsi.Interface.VolumeContexts
import LustreCsi.Interface.Routing
import LustreCsi.Interface.PublishRuns
import LustreCsi.Interface.NodeSections
import LustreCsi.Interface.Faultless
import LustreCsi.Interface.Volumes
import LustreCsi.Interface.UpcallMessages
import LustreCsi.Analysis.KeySharing
import LustreCsi.Analysis.SharedMounts
import LustreCsi.Analysis.HandlerSafety
import LustreCsi.Analysis.KeySection
import LustreCsi.Analysis.ReferenceSafety
import LustreCsi.Analysis.UnpublishFrame
import LustreCsi.Analysis.PublishLeak
import LustreCsi.Analysis.UnpublishRetry
import LustreCsi.Analysis.Republish
import LustreCsi.Analysis.InstanceLocks
import LustreCsi.Analysis.VolumeLifecycle
import LustreCsi.Analysis.CreationInvariant
import LustreCsi.Analysis.SingleCreation
import LustreCsi.Analysis.CapacityContract
import LustreCsi.Analysis.FilesystemNames
import LustreCsi.Analysis.LockDiscipline
import LustreCsi.Analysis.StagedNames
import LustreCsi.Analysis.TokenFiles
import LustreCsi.Analysis.MountedSource
import LustreCsi.Analysis.RoutingTables
import LustreCsi.Analysis.RouteFailures
import LustreCsi.Analysis.ConcurrentRoutes
import LustreCsi.Analysis.ReadOnlyPublish
import LustreCsi.Analysis.InstanceReuse
import LustreCsi.Analysis.LabelLimits
import LustreCsi.Analysis.UnmountPath
import LustreCsi.Analysis.LnetNetwork
import LustreCsi.Analysis.ModuleSettings
import LustreCsi.Analysis.LabelRuns
import LustreCsi.Analysis.LabelWrites
import LustreCsi.Analysis.UpcallWhitelist
import LustreCsi.Analysis.DuplicateDetection
import LustreCsi.Analysis.Grammars
import LustreCsi.Analysis.UpcallEnvironment
import LustreCsi.Analysis.NetworkParameter
import LustreCsi.Analysis.RouteDestination
import LustreCsi.Analysis.ParameterMaps
import LustreCsi.Analysis.LabelStrings
import LustreCsi.Analysis.Expansions
import LustreCsi.Analysis.NICSelection
import LustreCsi.Analysis.ErrorCodes
import LustreCsi.Analysis.TokenRefresh
import LustreCsi.Analysis.DescriptionLimit
import LustreCsi.Analysis.MountTable
import LustreCsi.Analysis.Restarts
import LustreCsi.Analysis.NodeLifecycle
import LustreCsi.Analysis.UpcallProtocol
import LustreCsi.Analysis.InstanceProvenance
