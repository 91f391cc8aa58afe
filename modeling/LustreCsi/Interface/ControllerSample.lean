import LustreCsi.Interface.ControllerPool

/-!
# A controller to evaluate the handlers on

A server of the project "proj" in the zone "us-central1-a", and requests for the volume "vol".
-/

set_option autoImplicit false

namespace LustreCsi.Interface.ControllerSample

open LustreCsi.Computation Model

/-- A server of the given project. -/
def serverOf (project : String) : ControllerServer :=
  ⟨"lustre.csi.storage.gke.io", false, project, "us-central1-a", .asciiOnly⟩

def server : ControllerServer := serverOf "proj"

/-- The parameters of a storage class that names the file system. -/
def parameters : StrMap :=
  ((∅ : StrMap).insert "perUnitStorageThroughput" "1000").insert "filesystem" "lustrefs"

/-- A request for a volume of the given name. -/
def createRequest (name : String) : CreateVolumeRequest where
  name := name
  volumeCapabilities := [some ⟨some .multiNodeMultiWriter, some (.mount [] "")⟩]
  capacityRange := none
  parameters := parameters
  accessibilityRequirements := none

/-- The backend before anything was created. -/
def empty : CloudState := ⟨∅, [], []⟩

/-- The answers to a creation that is accepted and succeeds. -/
def creating : List CloudChoice :=
  [.ok, .ok, .operations [] none, .ok, .ends (.succeed "10.0.0.2"), .ok]

end LustreCsi.Interface.ControllerSample
