import CloudClient.Service.Access
import CloudClient.Service.Catalogue
import CloudClient.Service.Clusters
import CloudClient.Service.Containers
import CloudClient.Service.Instances
import CloudClient.Service.Jobs
import CloudClient.Service.Volumes

/-!
All calls that the service knows.
-/

namespace CloudClient

inductive Call where
  | instances (c : InstanceCall)
  | volumes (c : VolumeCall)
  | sshKeys (c : SshKeyCall)
  | startupScripts (c : StartupScriptCall)
  | clusters (c : ClusterCall)
  | catalogue (c : CatalogueCall)
  | containers (c : ContainerCall)
  | jobs (c : JobCall)

namespace Call

abbrev Answer : Call → Type
  | .instances c => c.Answer
  | .volumes c => c.Answer
  | .sshKeys c => c.Answer
  | .startupScripts c => c.Answer
  | .clusters c => c.Answer
  | .catalogue c => c.Answer
  | .containers c => c.Answer
  | .jobs c => c.Answer

def operation : (c : Call) → Operation c.Answer
  | .instances c => c.operation
  | .volumes c => c.operation
  | .sshKeys c => c.operation
  | .startupScripts c => c.operation
  | .clusters c => c.operation
  | .catalogue c => c.operation
  | .containers c => c.operation
  | .jobs c => c.operation

end Call

end CloudClient
