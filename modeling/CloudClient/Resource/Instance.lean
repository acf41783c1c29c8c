import CloudClient.Resource.Hardware
import CloudClient.Resource.Terms

/-!
Compute instances, the requests that create them and the actions on them.
-/

namespace CloudClient

open Json (Choice Codec Field Shape)

inductive InstanceStatus where
  | ordered
  | provisioning
  | validating
  | running
  | offline
  | deleting
  | discontinued
  | noCapacity
  | installationFailed
  | error
  | unknown
  deriving DecidableEq, Repr

def InstanceStatus.name : InstanceStatus → String
  | .ordered => "ordered"
  | .provisioning => "provisioning"
  | .validating => "validating"
  | .running => "running"
  | .offline => "offline"
  | .deleting => "deleting"
  | .discontinued => "discontinued"
  | .noCapacity => "no_capacity"
  | .installationFailed => "installation_failed"
  | .error => "error"
  | .unknown => "unknown"

def InstanceStatus.choice : Choice InstanceStatus where
  names := [.ordered, .provisioning, .validating, .running, .offline, .deleting, .discontinued,
    .noCapacity, .installationFailed, .error, .unknown].map fun s => (s.name, s)
  other := some .unknown
  name := InstanceStatus.name

def InstanceStatus.codec : Codec InstanceStatus := InstanceStatus.choice.codec

structure Instance where
  id : String
  instanceType : String
  image : String
  pricePerHour : Binary64
  hostname : String
  description : String
  ip : Option String
  status : InstanceStatus
  createdAt : Option String
  sshKeyIds : List String
  cpu : Cpu
  gpu : Gpu
  memory : Memory
  gpuMemory : Memory
  storage : Storage
  location : String
  osVolumeId : Option String
  startupScriptId : Option String
  isSpot : Bool
  contract : Option Contract
  pricing : Option Pricing
  extra : List (String × Json)
  deriving Repr

def Instance.shape : Shape Instance (List (String × Json) → Instance) :=
  Shape.of Instance Instance.mk
    |>.and (·.id) (.required "id" Json.string)
    |>.and (·.instanceType) (.required "instance_type" Json.string)
    |>.and (·.image) (.defaulted "image" Json.string "")
    |>.and (·.pricePerHour) (.defaulted "price_per_hour" Json.price .zero)
    |>.and (·.hostname) (.required "hostname" Json.string)
    |>.and (·.description) (.defaulted "description" Json.string "")
    |>.and (·.ip) (.nullable "ip" Json.string)
    |>.and (·.status) (.required "status" InstanceStatus.codec)
    |>.and (·.createdAt) (.nullable "created_at" Json.string)
    |>.and (·.sshKeyIds) (.defaulted "ssh_key_ids" (Json.list Json.string) [])
    |>.and (·.cpu) (.defaulted "cpu" Cpu.codec {})
    |>.and (·.gpu) (.defaulted "gpu" Gpu.codec {})
    |>.and (·.memory) (.defaulted "memory" Memory.codec {})
    |>.and (·.gpuMemory) (.defaulted "gpu_memory" Memory.codec {})
    |>.and (·.storage) (.defaulted "storage" Storage.codec {})
    |>.and (·.location) (.defaulted "location" Json.string "")
    |>.and (·.osVolumeId) (.nullable "os_volume_id" Json.string)
    |>.and (·.startupScriptId) (.nullable "startup_script_id" Json.string)
    |>.and (·.isSpot) (.defaulted "is_spot" Json.boolean false)
    |>.and (·.contract) (.nullable "contract" Contract.codec)
    |>.and (·.pricing) (.nullable "pricing" Pricing.codec)

def Instance.codec : Codec Instance := Instance.shape.openRecord "struct Instance" (·.extra)

/-- The volume that holds the operating system of a new instance. -/
structure OsVolume where
  name : String
  size : UInt32
  deriving DecidableEq, Repr

def OsVolume.shape : Shape OsVolume OsVolume :=
  Shape.of OsVolume OsVolume.mk
    |>.and (·.name) (.required "name" Json.string)
    |>.and (·.size) (.required "size" Json.uint32)

def OsVolume.codec : Codec OsVolume := OsVolume.shape.record "struct OsVolume"

/-- A data volume created together with an instance. -/
structure DataVolume where
  name : String
  size : UInt32
  volumeType : String
  deriving DecidableEq, Repr

def DataVolume.shape : Shape DataVolume DataVolume :=
  Shape.of DataVolume DataVolume.mk
    |>.and (·.name) (.required "name" Json.string)
    |>.and (·.size) (.required "size" Json.uint32)
    |>.and (·.volumeType) (.required "type" Json.string)

def DataVolume.codec : Codec DataVolume :=
  DataVolume.shape.record "struct NewInstanceVolume"

structure CreateInstance where
  instanceType : String
  image : String
  hostname : String
  description : String
  sshKeyIds : List String := []
  location : Option String := none
  osVolume : Option OsVolume := none
  volumes : List DataVolume := []
  existingVolumes : List String := []
  startupScriptId : Option String := none
  isSpot : Bool := false
  contract : Option Contract := none
  pricing : Option Pricing := none
  coupon : Option String := none
  deriving DecidableEq, Repr

namespace CreateInstance

def shape : Shape CreateInstance CreateInstance :=
  Shape.of CreateInstance CreateInstance.mk
    |>.and (·.instanceType) (.required "instance_type" Json.string)
    |>.and (·.image) (.required "image" Json.string)
    |>.and (·.hostname) (.required "hostname" Json.string)
    |>.and (·.description) (.required "description" Json.string)
    |>.and (·.sshKeyIds) (.several "ssh_key_ids" Json.string)
    |>.and (·.location) (.placed "location_code" Json.string)
    |>.and (·.osVolume) (.placed "os_volume" OsVolume.codec)
    |>.and (·.volumes) (.several "volumes" DataVolume.codec)
    |>.and (·.existingVolumes) (.several "existing_volumes" Json.string)
    |>.and (·.startupScriptId) (.placed "startup_script_id" Json.string)
    |>.and (·.isSpot) (.defaulted "is_spot" Json.boolean false)
    |>.and (·.contract) (.placed "contract" Contract.codec)
    |>.and (·.pricing) (.placed "pricing" Pricing.codec)
    |>.and (·.coupon) (.placed "coupon" Json.string)

def codec : Codec CreateInstance := shape.record "struct CreateInstanceRequest"

/-- A request with what every instance needs; the hostname serves as the description. -/
def new (instanceType image hostname : String) : CreateInstance :=
  { instanceType, image, hostname, description := hostname }

def describedAs (r : CreateInstance) (description : String) : CreateInstance :=
  { r with description }

def addSshKey (r : CreateInstance) (id : String) : CreateInstance :=
  { r with sshKeyIds := r.sshKeyIds ++ [id] }

def inLocation (r : CreateInstance) (code : String) : CreateInstance :=
  { r with location := some code }

def onOsVolume (r : CreateInstance) (name : String) (size : UInt32) : CreateInstance :=
  { r with osVolume := some { name, size } }

def startingWith (r : CreateInstance) (id : String) : CreateInstance :=
  { r with startupScriptId := some id }

def asSpot (r : CreateInstance) : CreateInstance := { r with isSpot := true }

end CreateInstance

inductive InstanceAction where
  | boot
  | start
  | shutdown
  | delete
  | discontinue
  | hibernate
  | configureSpot
  | forceShutdown
  | deleteStuck
  | deploy
  | transfer
  deriving DecidableEq, Repr

def InstanceAction.name : InstanceAction → String
  | .boot => "boot"
  | .start => "start"
  | .shutdown => "shutdown"
  | .delete => "delete"
  | .discontinue => "discontinue"
  | .hibernate => "hibernate"
  | .configureSpot => "configure_spot"
  | .forceShutdown => "force_shutdown"
  | .deleteStuck => "delete_stuck"
  | .deploy => "deploy"
  | .transfer => "transfer"

def InstanceAction.choice : Choice InstanceAction where
  names := [.boot, .start, .shutdown, .delete, .discontinue, .hibernate, .configureSpot,
    .forceShutdown, .deleteStuck, .deploy, .transfer].map fun a => (a.name, a)
  other := none
  name := InstanceAction.name

def InstanceAction.codec : Codec InstanceAction := InstanceAction.choice.codec

/-- An action on some instances; deleting may take volumes along. -/
structure ActOnInstances where
  action : InstanceAction
  ids : List String
  volumeIds : Option (List String) := none
  deletePermanently : Option Bool := none
  deriving DecidableEq, Repr

namespace ActOnInstances

def shape : Shape ActOnInstances ActOnInstances :=
  Shape.of ActOnInstances ActOnInstances.mk
    |>.and (·.action) (.required "action" InstanceAction.codec)
    |>.and (·.ids) (.required "id" (Json.list Json.string))
    |>.and (·.volumeIds) (.placed "volume_ids" (Json.list Json.string))
    |>.and (·.deletePermanently) (.placed "delete_permanently" Json.boolean)

def codec : Codec ActOnInstances := shape.record "struct InstanceActionRequest"

def takingVolumes (r : ActOnInstances) (ids : List String) (permanently : Bool) : ActOnInstances :=
  { r with volumeIds := some ids, deletePermanently := some permanently }

end ActOnInstances

end CloudClient
