import CloudClient.Operation
import CloudClient.Resource.Volume

/-!
Calls on volumes.
-/

namespace CloudClient

open Http (Query Target)

inductive VolumeCall where
  | list (status : Option VolumeStatus)
  | get (id : String)
  | create (r : CreateVolume)
  | act (r : ActOnVolumes)
  | clone (id : String) (name : Option String) (volumeType : Option VolumeType)
  | trash
  | types
  deriving DecidableEq, Repr

namespace VolumeCall

def attach (id instanceId : String) : VolumeCall :=
  .act { action := .attach, ids := [id], instanceId := some instanceId }

def detach (id : String) : VolumeCall := .act { action := .detach, ids := [id] }

def resize (id : String) (size : UInt32) : VolumeCall :=
  .act { action := .resize, ids := [id], size := some size }

def rename (id name : String) : VolumeCall :=
  .act { action := .rename, ids := [id], name := some name }

def delete (id : String) (permanent : Bool) : VolumeCall :=
  .act { action := .delete, ids := [id], isPermanent := some permanent }

abbrev Answer : VolumeCall → Type
  | .list _ => List Volume
  | .get _ => Volume
  | .create _ => String
  | .act _ => Unit
  | .clone .. => List String
  | .trash => List Volume
  | .types => List VolumeOffer

def operation : (c : VolumeCall) → Operation c.Answer
  | .list status =>
    .get (Target.all ["volumes"] (.ofOptions [("status", status.map VolumeStatus.name)]))
      (Json.list Volume.codec)
  | .get id => .get (Target.one ["volumes"] id) Volume.codec
  | .create r => .create (Target.all ["volumes"]) (CreateVolume.codec.encode r)
  | .act r => .tell .put (Target.all ["volumes"]) (some (ActOnVolumes.codec.encode r))
  | .clone id name volumeType =>
    { method := .put
      target := Target.all ["volumes"]
      body := some (ActOnVolumes.codec.encode { action := .clone, ids := [id], name, volumeType })
      content := .json (Json.list Json.string) }
  | .trash => .get (Target.all ["volumes", "trash"]) (Json.list Volume.codec)
  | .types => .get (Target.all ["volume-types"]) (Json.list VolumeOffer.codec)

end VolumeCall

end CloudClient
