import CloudClient.Proofs.Json.OpenRecords
import CloudClient.Proofs.Resource.Requests

/-!
Requests for deployments are read as the deployments they ask for. The settings of a deployment go
by the same names in both, and what the service adds is unset.
-/

namespace CloudClient

open Json
open Json.Field

variable {depth : Nat}

/-! ### Scaling -/

theorem ScalingPolicy.restores (p : ScalingPolicy) : ScalingPolicy.codec.Restores (depth + 1) p :=
  .record (by decide) rfl <| Shape.Carries.of
    |>.and (required_carries (uint32_restores _))

theorem QueueLoadTrigger.restores {t : QueueLoadTrigger} (h : t.threshold.Survives) :
    QueueLoadTrigger.codec.Restores (depth + 1) t :=
  .record (by decide) rfl <| Shape.Carries.of
    |>.and (required_carries (float_restores h))

theorem UtilizationTrigger.restores {t : UtilizationTrigger} (h : ∀ x ∈ t.threshold, x.Survives) :
    UtilizationTrigger.codec.Restores (depth + 1) t :=
  .record (by decide) rfl <| Shape.Carries.of
    |>.and (required_carries (boolean_restores _))
    |>.and (unset_carries fun x hx => float_restores (h x hx))

/-- Triggers whose numbers are read back, with other triggers that go by names of their own. As in
a map, no name comes twice, and the keys within a value are in order. -/
structure ScalingTriggers.Portable (t : ScalingTriggers) : Prop where
  queueLoad : ∀ q ∈ t.queueLoad, q.threshold.Survives
  cpuUtilization : ∀ u ∈ t.cpuUtilization, ∀ x ∈ u.threshold, x.Survives
  gpuUtilization : ∀ u ∈ t.gpuUtilization, ∀ x ∈ u.threshold, x.Survives
  survives : ∀ m ∈ t.extra, m.2.Survives
  fresh : ∀ m ∈ t.extra, m.1 ∉ ScalingTriggers.shape.names
  distinct : (t.extra.map Prod.fst).Nodup
  sorted : ∀ m ∈ t.extra, m.2.sorted = m.2

/-- The other triggers in the order of their names. -/
def ScalingTriggers.inKeyOrder (t : ScalingTriggers) : ScalingTriggers :=
  { t with extra := Json.inKeyOrder t.extra }

def Scaling.inKeyOrder (s : Scaling) : Scaling :=
  { s with triggers := s.triggers.inKeyOrder }

theorem ScalingTriggers.Portable.carries {t : ScalingTriggers} (h : t.Portable)
    (hdepth : ∀ m ∈ t.extra, m.2.depth ≤ depth + 1) :
    ScalingTriggers.codec.Carries (depth + 2) t t.inKeyOrder := by
  have hkeys : (ScalingTriggers.shape.names ++ t.extra.map Prod.fst).Nodup := by
    refine List.nodup_append.2 ⟨by decide, h.distinct, ?_⟩
    rintro name hname _ hmem rfl
    obtain ⟨m, hm, rfl⟩ := List.mem_map.1 hmem
    exact h.fresh m hm hname
  refine .openRecord hkeys (fun m hm => ⟨h.survives m hm, hdepth m hm⟩) h.sorted rfl <|
    Shape.Carries.of
      |>.and (unset_carries fun q hq => QueueLoadTrigger.restores (h.queueLoad q hq))
      |>.and (unset_carries fun u hu => UtilizationTrigger.restores (h.cpuUtilization u hu))
      |>.and (unset_carries fun u hu => UtilizationTrigger.restores (h.gpuUtilization u hu))

theorem Scaling.carries {s : Scaling} (h : s.triggers.Portable)
    (hdepth : ∀ m ∈ s.triggers.extra, m.2.depth ≤ depth + 1) :
    Scaling.codec.Carries (depth + 3) s s.inKeyOrder :=
  .record (by decide) rfl <| Shape.Carries.of
    |>.and (required_carries (uint32_restores _))
    |>.and (required_carries (uint32_restores _))
    |>.and (required_carries (ScalingPolicy.restores _))
    |>.and (required_carries (ScalingPolicy.restores _))
    |>.and (required_carries (uint32_restores _))
    |>.and (required_carries (uint32_restores _))
    |>.and (defaulted_carries (h.carries hdepth))

/-! ### Deployments -/

/-- The job deployment as it is asked for, without what the service adds. -/
def CreateJobDeployment.requested (r : CreateJobDeployment) : JobDeployment where
  name := r.name
  containers := r.containers
  compute := r.compute
  registry := r.registry
  scaling := r.scaling
  endpointBaseUrl := none
  createdAt := none

/-- The deployment as it is asked for, without what the service adds. -/
def CreateDeployment.requested (r : CreateDeployment) : Deployment where
  name := r.name
  containers := r.containers
  compute := r.compute
  registry := r.registry
  isSpot := r.isSpot
  scaling := r.scaling.map Scaling.inKeyOrder
  endpointBaseUrl := none
  createdAt := none

theorem JobDeployment.read_requested (r : CreateJobDeployment) :
    JobDeployment.codec.read (CreateJobDeployment.codec.write r) = .ok r.requested :=
  Codec.read_record (by decide) rfl (Nat.le_refl levelLimit) <|
    Shape.Carries.of
      |>.and (required_carries (string_restores _))
      |>.and (required_carries (list_restores fun _ _ => Container.restores _))
      |>.and (required_carries (ComputeResource.restores _))
      |>.and (defaulted_carries (RegistrySettings.restores _))
      |>.and (unset_carries_nullable (option_restores fun _ _ => JobScaling.restores _))
      |>.lacking rfl
      |>.lacking rfl

theorem Deployment.read_requested {r : CreateDeployment}
    (h : ∀ s ∈ r.scaling, s.triggers.Portable)
    (hdepth : ∀ s ∈ r.scaling, ∀ m ∈ s.triggers.extra, m.2.depth ≤ 124) :
    Deployment.codec.read (CreateDeployment.codec.write r) = .ok r.requested := by
  have hscaling : Option.Rel (Scaling.codec.Carries 126) r.scaling
      (r.scaling.map Scaling.inKeyOrder) := by
    cases hs : r.scaling with
    | none => exact .none
    | some s => exact .some (Scaling.carries (h s hs) (hdepth s hs))
  exact Codec.read_record (by decide) rfl (Nat.le_refl levelLimit) <|
    Shape.Carries.of
      |>.and (required_carries (string_restores _))
      |>.and (required_carries (list_restores fun _ _ => Container.restores _))
      |>.and (required_carries (ComputeResource.restores _))
      |>.and (defaulted_carries (RegistrySettings.restores _))
      |>.and (defaulted_carries (boolean_restores _))
      |>.and (unset_carries_nullable hscaling)
      |>.lacking rfl
      |>.lacking rfl

/-- What is sent to create a deployment is read as the deployment that is asked for. Three of the
levels that the reader goes down are the deployment, its scaling and its triggers, and a trigger has
the others to itself. -/
theorem read_as_requested :
    (∀ r : CreateJobDeployment,
      JobDeployment.codec.read (CreateJobDeployment.codec.write r) = .ok r.requested) ∧
    ∀ r : CreateDeployment, (∀ s ∈ r.scaling, s.triggers.Portable) →
      (∀ s ∈ r.scaling, ∀ m ∈ s.triggers.extra, m.2.depth ≤ 124) →
      Deployment.codec.read (CreateDeployment.codec.write r) = .ok r.requested :=
  ⟨JobDeployment.read_requested, fun _ => Deployment.read_requested⟩

/-! ### Nested triggers -/

/-- Arrays within arrays. -/
def Json.nested : Nat → Json
  | 0 => .null
  | levels + 1 => .arr [Json.nested levels]

theorem Json.depth_nested (levels : Nat) : (Json.nested levels).depth = levels := by
  induction levels with
  | zero => rfl
  | succ levels ih =>
    rw [Json.nested, Json.depth, Json.depthItems, Json.depthItems, ih]
    exact congrArg (· + 1) (Nat.max_zero levels)

theorem Json.survives_nested (levels : Nat) : (Json.nested levels).Survives := by
  induction levels with
  | zero => trivial
  | succ levels ih => exact ⟨ih, trivial⟩

theorem Json.sorted_nested (levels : Nat) : (Json.nested levels).sorted = Json.nested levels := by
  induction levels with
  | zero => rfl
  | succ levels ih => rw [Json.nested, Json.sorted, Json.sortedItems, Json.sortedItems, ih]

/-- A deployment that scales on its queue, and on a nested trigger. -/
def CreateDeployment.nested (levels : Nat) : CreateDeployment where
  name := "app"
  containers := [{ image := "img:1", exposedPort := 80 }]
  compute := ⟨"H100", 1⟩
  registry := {}
  isSpot := false
  scaling := some {
    minReplicas := 0
    maxReplicas := 1
    scaleDown := ⟨60⟩
    scaleUp := ⟨0⟩
    messageTtlSeconds := 300
    requestsPerReplica := 1
    triggers := {
      queueLoad := some ⟨.ofDecimal false 5 (-1)⟩
      extra := [("custom", Json.nested levels)] } }

theorem CreateDeployment.portable_nested (levels : Nat) :
    ∀ s ∈ (CreateDeployment.nested levels).scaling, s.triggers.Portable := by
  rintro _ ⟨⟩
  have hextra : ∀ m ∈ [("custom", Json.nested levels)], m = ("custom", Json.nested levels) :=
    fun _ => List.mem_singleton.1
  exact {
    queueLoad := by
      intro q hq
      obtain rfl : ⟨.ofDecimal false 5 (-1)⟩ = q := Option.some.inj hq
      decide +kernel
    cpuUtilization := nofun
    gpuUtilization := nofun
    survives := fun m hm => hextra m hm ▸ Json.survives_nested levels
    fresh := fun m hm => hextra m hm ▸ (by decide : "custom" ∉ ScalingTriggers.shape.names)
    distinct := List.nodup_singleton _
    sorted := fun m hm => hextra m hm ▸ Json.sorted_nested levels }

/-- As deep as it goes. -/
theorem read_as_requested_of_nested :
    (∀ s ∈ (CreateDeployment.nested 124).scaling, s.triggers.Portable) ∧
    (∀ s ∈ (CreateDeployment.nested 124).scaling, ∀ m ∈ s.triggers.extra, m.2.depth ≤ 124) ∧
    Deployment.codec.read (CreateDeployment.codec.write (.nested 124)) =
      .ok (CreateDeployment.nested 124).requested := by
  have hdepth : ∀ s ∈ (CreateDeployment.nested 124).scaling, ∀ m ∈ s.triggers.extra,
      m.2.depth ≤ 124 := by
    rintro _ ⟨⟩ m hm
    rw [List.mem_singleton.1 hm]
    exact Nat.le_of_eq (Json.depth_nested 124)
  exact ⟨CreateDeployment.portable_nested 124, hdepth,
    read_as_requested.2 _ (CreateDeployment.portable_nested 124) hdepth⟩

/-- A deployment is not read back when one of its triggers is nested too deep. -/
theorem recursionLimit_of_nested :
    (∀ s ∈ (CreateDeployment.nested 125).scaling, s.triggers.Portable) ∧
    Deployment.codec.read (CreateDeployment.codec.write (.nested 125)) =
      .error (.notJson .recursionLimit) := by
  refine ⟨CreateDeployment.portable_nested 125, ?_⟩
  have hfails : (Deployment.codec.read (CreateDeployment.codec.write (.nested 125))).map
      (fun _ => ()) = .error (.notJson .recursionLimit) := by
    rw [Codec.write, encode_eq_ofChars]
    decide +kernel
  cases hread : Deployment.codec.read (CreateDeployment.codec.write (.nested 125)) with
  | error p =>
    rw [hread] at hfails
    exact congrArg _ (Except.error.inj hfails)
  | ok d =>
    rw [hread] at hfails
    cases hfails

end CloudClient
