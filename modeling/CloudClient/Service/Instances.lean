import CloudClient.Operation
import CloudClient.Resource.Instance

/-!
Calls on instances.
-/

namespace CloudClient

open Http (Query Target)

inductive InstanceCall where
  | list (status : Option InstanceStatus)
  | get (id : String)
  | create (r : CreateInstance)
  | act (r : ActOnInstances)
  | isAvailable (instanceType : String) (isSpot : Bool) (location : Option String)
  | availabilities (isSpot : Option Bool) (location : Option String)
  deriving DecidableEq, Repr

namespace InstanceCall

def start (id : String) : InstanceCall := .act { action := .boot, ids := [id] }

def shutdown (id : String) : InstanceCall := .act { action := .shutdown, ids := [id] }

def delete (id : String) : InstanceCall := .act { action := .delete, ids := [id] }

abbrev Answer : InstanceCall → Type
  | .list _ => List Instance
  | .get _ => Instance
  | .create _ => String
  | .act _ => Unit
  | .isAvailable .. => Bool
  | .availabilities .. => List Availability

def flag (b : Bool) : String :=
  if b then "true" else "false"

def operation : (c : InstanceCall) → Operation c.Answer
  | .list status =>
    .get (Target.all ["instances"] (.ofOptions [("status", status.map InstanceStatus.name)]))
      (Json.list Instance.codec)
  | .get id => .get (Target.one ["instances"] id) Instance.codec
  | .create r => .create (Target.all ["instances"]) (CreateInstance.codec.encode r)
  | .act r => .tell .put (Target.all ["instances"]) (some (ActOnInstances.codec.encode r))
  | .isAvailable instanceType isSpot location =>
    .get (Target.one ["instance-availability"] instanceType []
      (.ofOptions [("is_spot", some (flag isSpot)), ("location_code", location)])) Json.boolean
  | .availabilities isSpot location =>
    .get (Target.all ["instance-availability"]
      (.ofOptions [("is_spot", isSpot.map flag), ("location_code", location)]))
      (Json.list Availability.codec)

end InstanceCall

end CloudClient
