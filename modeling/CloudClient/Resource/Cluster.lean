import CloudClient.Resource.Terms

/-!
Clusters of several nodes, the requests that create them and the actions on them.
-/

namespace CloudClient

open Json (Choice Codec Field Shape)

structure ClusterNode where
  id : String
  hostname : String
  status : String
  privateIp : Option String
  deriving DecidableEq, Repr

def ClusterNode.shape : Shape ClusterNode ClusterNode :=
  Shape.of ClusterNode ClusterNode.mk
    |>.and (·.id) (.required "id" Json.string)
    |>.and (·.hostname) (.required "hostname" Json.string)
    |>.and (·.status) (.defaulted "status" Json.string "")
    |>.and (·.privateIp) (.nullable "private_ip" Json.string)

def ClusterNode.codec : Codec ClusterNode := ClusterNode.shape.record "struct ClusterWorkerNode"

structure Cluster where
  id : String
  hostname : String
  description : String
  status : String
  clusterType : String
  image : String
  location : String
  pricePerHour : Option Binary64
  createdAt : Option String
  ip : Option String
  sshKeyIds : List String
  workerNodes : List ClusterNode
  extra : List (String × Json)
  deriving Repr

def Cluster.shape : Shape Cluster (List (String × Json) → Cluster) :=
  Shape.of Cluster Cluster.mk
    |>.and (·.id) (.required "id" Json.string)
    |>.and (·.hostname) (.required "hostname" Json.string)
    |>.and (·.description) (.defaulted "description" Json.string "")
    |>.and (·.status) (.required "status" Json.string)
    |>.and (·.clusterType) (.required "cluster_type" Json.string)
    |>.and (·.image) (.defaulted "image" Json.string "")
    |>.and (·.location) (.defaulted "location" Json.string "")
    |>.and (·.pricePerHour) (.nullable "price_per_hour" Json.price)
    |>.and (·.createdAt) (.nullable "created_at" Json.string)
    |>.and (·.ip) (.nullable "ip" Json.string)
    |>.and (·.sshKeyIds) (.defaulted "ssh_key_ids" (Json.list Json.string) [])
    |>.and (·.workerNodes) (.defaulted "worker_nodes" (Json.list ClusterNode.codec) [])

def Cluster.codec : Codec Cluster := Cluster.shape.openRecord "struct Cluster" (·.extra)

/-- A shared filesystem created together with a cluster. -/
structure SharedVolume where
  name : String
  size : UInt32
  deriving DecidableEq, Repr

def SharedVolume.shape : Shape SharedVolume SharedVolume :=
  Shape.of SharedVolume SharedVolume.mk
    |>.and (·.name) (.required "name" Json.string)
    |>.and (·.size) (.required "size" Json.uint32)

def SharedVolume.codec : Codec SharedVolume := SharedVolume.shape.record "struct SharedVolumeSpec"

structure CreateCluster where
  clusterType : String
  image : String
  hostname : String
  description : String
  sshKeyIds : List String := []
  location : Option String := none
  startupScriptId : Option String := none
  sharedVolume : Option SharedVolume := none
  existingVolumes : List String := []
  contract : Option Contract := none
  pricing : Option Pricing := none
  deriving DecidableEq, Repr

namespace CreateCluster

def shape : Shape CreateCluster CreateCluster :=
  Shape.of CreateCluster CreateCluster.mk
    |>.and (·.clusterType) (.required "cluster_type" Json.string)
    |>.and (·.image) (.required "image" Json.string)
    |>.and (·.hostname) (.required "hostname" Json.string)
    |>.and (·.description) (.required "description" Json.string)
    |>.and (·.sshKeyIds) (.several "ssh_key_ids" Json.string)
    |>.and (·.location) (.placed "location_code" Json.string)
    |>.and (·.startupScriptId) (.placed "startup_script_id" Json.string)
    |>.and (·.sharedVolume) (.placed "shared_volume" SharedVolume.codec)
    |>.and (·.existingVolumes) (.several "existing_volumes" Json.string)
    |>.and (·.contract) (.placed "contract" Contract.codec)
    |>.and (·.pricing) (.placed "pricing" Pricing.codec)

def codec : Codec CreateCluster := shape.record "struct CreateClusterRequest"

/-- A request with what every cluster needs; the hostname serves as the description. -/
def new (clusterType image hostname : String) : CreateCluster :=
  { clusterType, image, hostname, description := hostname }

end CreateCluster

/-- The answer to a request for a cluster. -/
structure CreatedCluster where
  id : String
  deriving DecidableEq, Repr

def CreatedCluster.shape : Shape CreatedCluster CreatedCluster :=
  Shape.of CreatedCluster CreatedCluster.mk
    |>.and (·.id) (.required "id" Json.string)

def CreatedCluster.codec : Codec CreatedCluster :=
  CreatedCluster.shape.record "struct CreateClusterResponse"

inductive ClusterAction where
  | delete
  deriving DecidableEq, Repr

def ClusterAction.name : ClusterAction → String
  | .delete => "delete"

def ClusterAction.choice : Choice ClusterAction where
  names := [("delete", .delete)]
  other := none
  name := ClusterAction.name

def ClusterAction.codec : Codec ClusterAction := ClusterAction.choice.codec

structure ActOnClusters where
  action : ClusterAction
  ids : List String
  deriving DecidableEq, Repr

def ActOnClusters.shape : Shape ActOnClusters ActOnClusters :=
  Shape.of ActOnClusters ActOnClusters.mk
    |>.and (·.action) (.required "action" ClusterAction.codec)
    |>.and (·.ids) (.required "id" (Json.list Json.string))

def ActOnClusters.codec : Codec ActOnClusters :=
  ActOnClusters.shape.record "struct ClusterActionRequest"

/-- A cluster type on offer. -/
structure ClusterType where
  name : String
  description : String
  pricePerHour : Option Binary64
  currency : Option String
  manufacturer : Option String
  nodeDetails : List String
  supportedOs : List String
  deriving DecidableEq, Repr

def ClusterType.shape : Shape ClusterType ClusterType :=
  Shape.of ClusterType ClusterType.mk
    |>.and (·.name) (.required "cluster_type" Json.string)
    |>.and (·.description) (.defaulted "description" Json.string "")
    |>.and (·.pricePerHour) (.nullable "price_per_hour" Json.price)
    |>.and (·.currency) (.nullable "currency" Json.string)
    |>.and (·.manufacturer) (.nullable "manufacturer" Json.string)
    |>.and (·.nodeDetails) (.defaulted "node_details" (Json.list Json.string) [])
    |>.and (·.supportedOs) (.defaulted "supported_os" (Json.list Json.string) [])

def ClusterType.codec : Codec ClusterType := ClusterType.shape.record "struct ClusterType"

end CloudClient
