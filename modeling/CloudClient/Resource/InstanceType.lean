import CloudClient.Resource.Hardware

/-!
The instance types on offer, with their prices.
-/

namespace CloudClient

open Json (Codec Field Shape)

structure InstanceType where
  id : String
  name : String
  pricePerHour : Binary64
  spotPrice : Option Binary64
  dynamicPrice : Option Binary64
  maxDynamicPrice : Option Binary64
  serverlessPrice : Option Binary64
  description : String
  cpu : Cpu
  gpu : Gpu
  memory : Memory
  gpuMemory : Memory
  storage : Storage
  currency : Option String
  manufacturer : Option String
  displayName : Option String
  supportedOs : List String
  deriving DecidableEq, Repr

namespace InstanceType

def shape : Shape InstanceType InstanceType :=
  Shape.of InstanceType InstanceType.mk
    |>.and (·.id) (.required "id" Json.string)
    |>.and (·.name) (.required "instance_type" Json.string)
    |>.and (·.pricePerHour) (.required "price_per_hour" Json.price)
    |>.and (·.spotPrice) (.nullable "spot_price" Json.price)
    |>.and (·.dynamicPrice) (.nullable "dynamic_price" Json.price)
    |>.and (·.maxDynamicPrice) (.nullable "max_dynamic_price" Json.price)
    |>.and (·.serverlessPrice) (.nullable "serverless_price" Json.price)
    |>.and (·.description) (.defaulted "description" Json.string "")
    |>.and (·.cpu) (.defaulted "cpu" Cpu.codec {})
    |>.and (·.gpu) (.defaulted "gpu" Gpu.codec {})
    |>.and (·.memory) (.defaulted "memory" Memory.codec {})
    |>.and (·.gpuMemory) (.defaulted "gpu_memory" Memory.codec {})
    |>.and (·.storage) (.defaulted "storage" Storage.codec {})
    |>.and (·.currency) (.nullable "currency" Json.string)
    |>.and (·.manufacturer) (.nullable "manufacturer" Json.string)
    |>.and (·.displayName) (.nullable "display_name" Json.string)
    |>.and (·.supportedOs) (.defaulted "supported_os" (Json.list Json.string) [])

def codec : Codec InstanceType := shape.record "struct InstanceType"

/-- The hourly price; a type without a spot price costs as much on spot. -/
def hourly (t : InstanceType) (spot : Bool) : Binary64 :=
  if spot then t.spotPrice.getD t.pricePerHour else t.pricePerHour

def cost (t : InstanceType) (hours : Binary64) (spot : Bool) : Binary64 :=
  t.hourly spot * hours

end InstanceType

end CloudClient
