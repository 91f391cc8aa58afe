import LustreCsi.Interface.Footprints
import LustreCsi.Interface.NodePool

/-!
# All calls of the node server

Staging and unstaging, publishing and unpublishing. `callBody` is the body of the thread that serves
a call, and `lockPath` the path that it locks.
-/

set_option autoImplicit false

namespace LustreCsi.Interface

open LustreCsi.Computation Model

/-- A call of the node server that takes locks. -/
inductive NodeCall where
  | stage (req : NodeStageVolumeRequest)
  | unstage (req : NodeUnstageVolumeRequest)
  | publish (req : NodePublishVolumeRequest)
  | unpublish (req : NodeUnpublishVolumeRequest)

/-- The handler of a call. -/
def callBody (s : NodeServer) : NodeCall → NodeM (Option Status)
  | .stage req => nodeStageVolume s req
  | .unstage req => nodeUnstageVolume s req
  | .publish req => nodePublishVolume s req
  | .unpublish req => nodeUnpublishVolume s req

/-- The path that the handler of a call locks. -/
def lockPath : NodeCall → String
  | .stage req => req.stagingTargetPath
  | .unstage req => req.stagingTargetPath
  | .publish req => req.targetPath
  | .unpublish req => req.targetPath

/-- What happens on the node outside the driver does not concern the lock set. -/
def SameLocks (s s' : NodeState) : Prop := s'.locks = s.locks

/-- The lock set of the node. -/
def callLocks : LockProtocol (S := nodeSig) NodeState.step String := nodeLocks fun h => h

end LustreCsi.Interface
