import CloudClient.Operation
import CloudClient.Resource.Cluster

/-!
Calls on clusters.
-/

namespace CloudClient

open Http (Query Target)

inductive ClusterCall where
  | list
  | get (id : String)
  | create (r : CreateCluster)
  | act (r : ActOnClusters)
  | types
  | isAvailable (clusterType : String) (location : Option String)
  | availabilities (location : Option String)
  deriving DecidableEq, Repr

namespace ClusterCall

def delete (id : String) : ClusterCall := .act { action := .delete, ids := [id] }

abbrev Answer : ClusterCall → Type
  | .list => List Cluster
  | .get _ => Cluster
  | .create _ => String
  | .act _ => Unit
  | .types => List ClusterType
  | .isAvailable .. => Bool
  | .availabilities _ => List Availability

def operation : (c : ClusterCall) → Operation c.Answer
  | .list => .get (Target.all ["clusters"]) (Json.list Cluster.codec)
  | .get id => .get (Target.one ["clusters"] id) Cluster.codec
  | .create r =>
    { method := .post
      target := Target.all ["clusters"]
      body := some (CreateCluster.codec.encode r)
      content := (Content.json CreatedCluster.codec).select (·.id) .str }
  | .act r => .tell .put (Target.all ["clusters"]) (some (ActOnClusters.codec.encode r))
  | .types => .get (Target.all ["cluster-types"]) (Json.list ClusterType.codec)
  | .isAvailable clusterType location =>
    .get (Target.one ["cluster-availability"] clusterType []
      (.ofOptions [("location_code", location)])) Json.boolean
  | .availabilities location =>
    .get (Target.all ["cluster-availability"] (.ofOptions [("location_code", location)]))
      (Json.list Availability.codec)

end ClusterCall

end CloudClient
