import CloudClient.Json.Record

/-!
What an instance is made of.
-/

namespace CloudClient

open Json (Codec Field Shape)

structure Cpu where
  description : String := ""
  cores : UInt32 := 0
  deriving DecidableEq, Repr, Inhabited

def Cpu.shape : Shape Cpu Cpu :=
  Shape.of Cpu Cpu.mk
    |>.and (·.description) (.defaulted "description" Json.string "")
    |>.and (·.cores) (.defaulted "number_of_cores" Json.uint32 0)

def Cpu.codec : Codec Cpu := Cpu.shape.record "struct CpuSpec"

structure Gpu where
  description : String := ""
  count : UInt32 := 0
  deriving DecidableEq, Repr, Inhabited

def Gpu.shape : Shape Gpu Gpu :=
  Shape.of Gpu Gpu.mk
    |>.and (·.description) (.defaulted "description" Json.string "")
    |>.and (·.count) (.defaulted "number_of_gpus" Json.uint32 0)

def Gpu.codec : Codec Gpu := Gpu.shape.record "struct GpuSpec"

/-- Main memory, or that of a graphics processor. -/
structure Memory where
  description : String := ""
  gigabytes : UInt32 := 0
  deriving DecidableEq, Repr, Inhabited

def Memory.shape : Shape Memory Memory :=
  Shape.of Memory Memory.mk
    |>.and (·.description) (.defaulted "description" Json.string "")
    |>.and (·.gigabytes) (.defaulted "size_in_gigabytes" Json.uint32 0)

def Memory.codec : Codec Memory := Memory.shape.record "struct MemorySpec"

structure Storage where
  description : String := ""
  deriving DecidableEq, Repr, Inhabited

def Storage.shape : Shape Storage Storage :=
  Shape.of Storage Storage.mk
    |>.and (·.description) (.defaulted "description" Json.string "")

def Storage.codec : Codec Storage := Storage.shape.record "struct StorageSpec"

end CloudClient
