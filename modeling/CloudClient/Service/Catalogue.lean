import CloudClient.Operation
import CloudClient.Resource.Account
import CloudClient.Resource.InstanceType

/-!
Calls that look something up: the balance, the locations, the images and the types of instances.
-/

namespace CloudClient

open Http (Target)

inductive CatalogueCall where
  | balance
  | locations
  | images
  | clusterImages
  | instanceTypes
  | findInstanceType (name : String)
  deriving DecidableEq, Repr

namespace CatalogueCall

abbrev Answer : CatalogueCall → Type
  | .balance => Balance
  | .locations => List Location
  | .images => List Image
  | .clusterImages => List Image
  | .instanceTypes => List InstanceType
  | .findInstanceType _ => Option InstanceType

def operation : (c : CatalogueCall) → Operation c.Answer
  | .balance => .get (Target.all ["balance"]) Balance.codec
  | .locations => .get (Target.all ["locations"]) (Json.list Location.codec)
  | .images => .get (Target.all ["images"]) (Json.list Image.codec)
  | .clusterImages => .get (Target.all ["images", "cluster"]) (Json.list Image.codec)
  | .instanceTypes => .get (Target.all ["instance-types"]) (Json.list InstanceType.codec)
  | .findInstanceType name =>
    { method := .get
      target := Target.all ["instance-types"]
      content := (Content.json (Json.list InstanceType.codec)).select
        (fun types => types.find? (·.name = name)) (Json.optional InstanceType.codec).encode }

end CatalogueCall

end CloudClient
