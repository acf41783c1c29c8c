import CloudClient.Resource.Terms

/-!
Block and shared volumes, the requests that create them and the actions on them.
-/

namespace CloudClient

open Json (Choice Codec Field Shape)

inductive VolumeType where
  | hdd
  | nvme
  | hddShared
  | nvmeShared
  | other
  deriving DecidableEq, Repr

def VolumeType.name : VolumeType → String
  | .hdd => "HDD"
  | .nvme => "NVMe"
  | .hddShared => "HDD_Shared"
  | .nvmeShared => "NVMe_Shared"
  | .other => "Other"

def VolumeType.choice : Choice VolumeType where
  names := [.hdd, .nvme, .hddShared, .nvmeShared, .other].map fun t => (t.name, t)
  other := some .other
  name := VolumeType.name

def VolumeType.codec : Codec VolumeType := VolumeType.choice.codec

inductive VolumeStatus where
  | ordered
  | creating
  | attached
  | detached
  | deleting
  | deleted
  | cloning
  | error
  | unknown
  deriving DecidableEq, Repr

def VolumeStatus.name : VolumeStatus → String
  | .ordered => "ordered"
  | .creating => "creating"
  | .attached => "attached"
  | .detached => "detached"
  | .deleting => "deleting"
  | .deleted => "deleted"
  | .cloning => "cloning"
  | .error => "error"
  | .unknown => "unknown"

def VolumeStatus.choice : Choice VolumeStatus where
  names := [.ordered, .creating, .attached, .detached, .deleting, .deleted, .cloning, .error,
    .unknown].map fun s => (s.name, s)
  other := some .unknown
  name := VolumeStatus.name

def VolumeStatus.codec : Codec VolumeStatus := VolumeStatus.choice.codec

structure Volume where
  id : String
  instanceId : Option String
  name : String
  createdAt : Option String
  status : VolumeStatus
  size : UInt32
  isOsVolume : Bool
  target : Option String
  volumeType : VolumeType
  location : String
  pseudoPath : Option String
  mountCommand : Option String
  contract : Option Contract
  baseHourlyCost : Option Binary64
  monthlyPrice : Option Binary64
  currency : Option String
  extra : List (String × Json)
  deriving Repr

def Volume.shape : Shape Volume (List (String × Json) → Volume) :=
  Shape.of Volume Volume.mk
    |>.and (·.id) (.required "id" Json.string)
    |>.and (·.instanceId) (.nullable "instance_id" Json.string)
    |>.and (·.name) (.required "name" Json.string)
    |>.and (·.createdAt) (.nullable "created_at" Json.string)
    |>.and (·.status) (.required "status" VolumeStatus.codec)
    |>.and (·.size) (.required "size" Json.uint32)
    |>.and (·.isOsVolume) (.defaulted "is_os_volume" Json.boolean false)
    |>.and (·.target) (.nullable "target" Json.string)
    |>.and (·.volumeType) (.required "type" VolumeType.codec)
    |>.and (·.location) (.defaulted "location" Json.string "")
    |>.and (·.pseudoPath) (.nullable "pseudo_path" Json.string)
    |>.and (·.mountCommand) (.nullable "mount_command" Json.string)
    |>.and (·.contract) (.nullable "contract" Contract.codec)
    |>.and (·.baseHourlyCost) (.nullable "base_hourly_cost" Json.price)
    |>.and (·.monthlyPrice) (.nullable "monthly_price" Json.price)
    |>.and (·.currency) (.nullable "currency" Json.string)

def Volume.codec : Codec Volume := Volume.shape.openRecord "struct Volume" (·.extra)

structure CreateVolume where
  volumeType : VolumeType
  location : String
  size : UInt32
  name : String
  instanceId : Option String := none
  instanceIds : Option (List String) := none
  deriving DecidableEq, Repr

namespace CreateVolume

def shape : Shape CreateVolume CreateVolume :=
  Shape.of CreateVolume CreateVolume.mk
    |>.and (·.volumeType) (.required "type" VolumeType.codec)
    |>.and (·.location) (.required "location_code" Json.string)
    |>.and (·.size) (.required "size" Json.uint32)
    |>.and (·.name) (.required "name" Json.string)
    |>.and (·.instanceId) (.placed "instance_id" Json.string)
    |>.and (·.instanceIds) (.placed "instance_ids" (Json.list Json.string))

def codec : Codec CreateVolume := shape.record "struct CreateVolumeRequest"

def attachedTo (r : CreateVolume) (instanceId : String) : CreateVolume :=
  { r with instanceId := some instanceId }

end CreateVolume

inductive VolumeAction where
  | attach
  | detach
  | delete
  | rename
  | resize
  | clone
  | cancel
  deriving DecidableEq, Repr

def VolumeAction.name : VolumeAction → String
  | .attach => "attach"
  | .detach => "detach"
  | .delete => "delete"
  | .rename => "rename"
  | .resize => "resize"
  | .clone => "clone"
  | .cancel => "cancel"

def VolumeAction.choice : Choice VolumeAction where
  names := [.attach, .detach, .delete, .rename, .resize, .clone, .cancel].map fun a => (a.name, a)
  other := none
  name := VolumeAction.name

def VolumeAction.codec : Codec VolumeAction := VolumeAction.choice.codec

/-- An action on some volumes. Which of the settings matter depends on the action. -/
structure ActOnVolumes where
  action : VolumeAction
  ids : List String
  instanceId : Option String := none
  instanceIds : Option (List String) := none
  size : Option UInt32 := none
  name : Option String := none
  volumeType : Option VolumeType := none
  location : Option String := none
  isPermanent : Option Bool := none
  deriving DecidableEq, Repr

namespace ActOnVolumes

def shape : Shape ActOnVolumes ActOnVolumes :=
  Shape.of ActOnVolumes ActOnVolumes.mk
    |>.and (·.action) (.required "action" VolumeAction.codec)
    |>.and (·.ids) (.required "id" (Json.list Json.string))
    |>.and (·.instanceId) (.placed "instance_id" Json.string)
    |>.and (·.instanceIds) (.placed "instance_ids" (Json.list Json.string))
    |>.and (·.size) (.placed "size" Json.uint32)
    |>.and (·.name) (.placed "name" Json.string)
    |>.and (·.volumeType) (.placed "type" VolumeType.codec)
    |>.and (·.location) (.placed "location_code" Json.string)
    |>.and (·.isPermanent) (.placed "is_permanent" Json.boolean)

def codec : Codec ActOnVolumes := shape.record "struct VolumeActionRequest"

end ActOnVolumes

structure VolumePrice where
  perMonthPerGb : Option Binary64
  perHourPerGb : Option Binary64
  currency : Option String
  deriving DecidableEq, Repr

def VolumePrice.shape : Shape VolumePrice VolumePrice :=
  Shape.of VolumePrice VolumePrice.mk
    |>.and (·.perMonthPerGb) (.nullable "price_per_month_per_gb" Json.price)
    |>.and (·.perHourPerGb) (.nullable "cps_per_gb" Json.price)
    |>.and (·.currency) (.nullable "currency" Json.string)

def VolumePrice.codec : Codec VolumePrice := VolumePrice.shape.record "struct VolumeTypePrice"

/-- A volume type on offer. -/
structure VolumeOffer where
  volumeType : VolumeType
  price : Option VolumePrice
  isShared : Bool
  extra : List (String × Json)
  deriving Repr

def VolumeOffer.shape : Shape VolumeOffer (List (String × Json) → VolumeOffer) :=
  Shape.of VolumeOffer VolumeOffer.mk
    |>.and (·.volumeType) (.required "type" VolumeType.codec)
    |>.and (·.price) (.nullable "price" VolumePrice.codec)
    |>.and (·.isShared) (.defaulted "is_shared_fs" Json.boolean false)

def VolumeOffer.codec : Codec VolumeOffer :=
  VolumeOffer.shape.openRecord "struct VolumeTypeInfo" (·.extra)

end CloudClient
