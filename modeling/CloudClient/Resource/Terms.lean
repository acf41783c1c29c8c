import CloudClient.Json.Choice
import CloudClient.Json.Record

/-!
How capacity is ordered, and where there is some.
-/

namespace CloudClient

open Json (Choice Codec Field Shape)

inductive Contract where
  | longTerm
  | payAsYouGo
  | spot
  deriving DecidableEq, Repr

def Contract.name : Contract → String
  | .longTerm => "LONG_TERM"
  | .payAsYouGo => "PAY_AS_YOU_GO"
  | .spot => "SPOT"

def Contract.choice : Choice Contract where
  names := [.longTerm, .payAsYouGo, .spot].map fun c => (c.name, c)
  other := none
  name := Contract.name

def Contract.codec : Codec Contract := Contract.choice.codec

inductive Pricing where
  | fixed
  | dynamic
  deriving DecidableEq, Repr

def Pricing.name : Pricing → String
  | .fixed => "FIXED_PRICE"
  | .dynamic => "DYNAMIC_PRICE"

def Pricing.choice : Choice Pricing where
  names := [.fixed, .dynamic].map fun p => (p.name, p)
  other := none
  name := Pricing.name

def Pricing.codec : Codec Pricing := Pricing.choice.codec

/-- The types with free capacity in one location. -/
structure Availability where
  location : String
  available : List String
  deriving DecidableEq, Repr

def Availability.shape : Shape Availability Availability :=
  Shape.of Availability Availability.mk
    |>.and (·.location) (.required "location_code" Json.string)
    |>.and (·.available) (.defaulted "availabilities" (Json.list Json.string) [])

def Availability.codec : Codec Availability :=
  Availability.shape.record "struct LocationAvailability"

end CloudClient
