import CloudClient.Proofs.Http.Target
import CloudClient.Service

/-!
What calls ask for. Names and parameters come with the calls and may be any texts; the URL says of
each what was given, and of nothing else.
-/

namespace CloudClient

open Http (Asks Query Target)

namespace Call

theorem regular (k : Call) : k.operation.target.Regular := by
  cases k with
  | instances c | volumes c | sshKeys c | startupScripts c | clusters c | catalogue c | containers c
  | jobs c =>
    cases c <;> first
      | exact .all ⟨_, _, rfl, by decide⟩ (by decide +kernel)
      | exact .one ⟨_, _, rfl, by decide⟩ (by decide +kernel)

/-- The URL of a call asks for what the call names, and has the parameters that the call sets. -/
theorem asks (c : Config) (k : Call) :
    Asks c.baseUrl (k.operation.url c) k.operation.target.words k.operation.target.query :=
  k.regular.asks c.baseUrl

end Call

/-! ### Availability -/

theorem flag_eq_toString (b : Bool) : InstanceCall.flag b = toString b := by
  cases b <;> rfl

/-- The parameter for a location, where one is given. -/
def located (location : Option String) : Query :=
  (location.map fun code => ("location_code", code)).toList

theorem ofOptions_located (location : Option String) :
    Query.ofOptions [("location_code", location)] = located location := by
  rw [Query.ofOptions_cons]
  exact List.append_nil _

/-- Whatever type and location are asked for, the URL says just these, the type as a segment and
the rest as parameters; without any there is no question mark. -/
theorem availability_asks (c : Config) (location : Option String) :
    (∀ (instanceType : String) (isSpot : Bool),
      Asks c.baseUrl ((InstanceCall.isAvailable instanceType isSpot location).operation.url c)
        ["instance-availability", instanceType]
        (("is_spot", toString isSpot) :: located location)) ∧
    (∀ isSpot : Option Bool,
      Asks c.baseUrl ((InstanceCall.availabilities isSpot location).operation.url c)
        ["instance-availability"]
        ((isSpot.map fun b => ("is_spot", toString b)).toList ++ located location)) ∧
    (∀ clusterType : String,
      Asks c.baseUrl ((ClusterCall.isAvailable clusterType location).operation.url c)
        ["cluster-availability", clusterType] (located location)) ∧
    Asks c.baseUrl ((ClusterCall.availabilities location).operation.url c)
      ["cluster-availability"] (located location) := by
  refine ⟨fun instanceType isSpot => ?_, fun isSpot => ?_, fun clusterType => ?_, ?_⟩
  · rw [← flag_eq_toString, ← ofOptions_located]
    exact Call.asks c (.instances (.isAvailable instanceType isSpot location))
  · have hquery : Query.ofOptions [("is_spot", isSpot.map InstanceCall.flag),
          ("location_code", location)] =
        (isSpot.map fun b => ("is_spot", toString b)).toList ++ located location := by
      rw [Query.ofOptions_cons, ofOptions_located, Option.map_map]
      simp only [Function.comp_def, flag_eq_toString]
    rw [← hquery]
    exact Call.asks c (.instances (.availabilities isSpot location))
  · rw [← ofOptions_located]
    exact Call.asks c (.clusters (.isAvailable clusterType location))
  · rw [← ofOptions_located]
    exact Call.asks c (.clusters (.availabilities location))

end CloudClient
