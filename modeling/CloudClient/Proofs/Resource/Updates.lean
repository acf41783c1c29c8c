import CloudClient.Proofs.Json.Given
import CloudClient.Proofs.Json.Unions
import CloudClient.Resource.Deployment
import CloudClient.Resource.Job
import CloudClient.Resource.Volume

/-!
Changes of what exists. A change holds what is to be set; whatever is left unset, at any depth, is
not sent, so that it stays as it is.
-/

namespace CloudClient

open Json

/-! ### Containers -/

def stringsDocument (ss : List String) : Json :=
  .arr (ss.map .str)

@[simp] theorem encode_strings : (Json.list Json.string).encode = stringsDocument :=
  rfl

@[simp] theorem nullFree_strings (ss : List String) : (stringsDocument ss).NullFree := by
  simp [stringsDocument]

def Healthcheck.document (h : Healthcheck) : Json :=
  .obj <| given [("enabled", some (.bool h.enabled)), ("port", h.port.map ofUInt16),
    ("path", h.path.map .str)]

@[simp] theorem Healthcheck.encode_eq : Healthcheck.codec.encode = Healthcheck.document := by
  funext h
  simp [codec, shape, document, given, Function.comp_def]

@[simp] theorem Healthcheck.nullFree (h : Healthcheck) : h.document.NullFree := by
  simp +contextual [document]

def EntrypointOverrides.document (o : EntrypointOverrides) : Json :=
  .obj <| given [("enabled", some (.bool o.enabled)),
    ("entrypoint", o.entrypoint.map stringsDocument), ("cmd", o.cmd.map stringsDocument)]

@[simp] theorem EntrypointOverrides.encode_eq :
    EntrypointOverrides.codec.encode = EntrypointOverrides.document := by
  funext o
  simp [codec, shape, document, given, Function.comp_def]

@[simp] theorem EntrypointOverrides.nullFree (o : EntrypointOverrides) : o.document.NullFree := by
  simp +contextual [document]

def EnvVar.document (v : EnvVar) : Json :=
  .obj <| given [("name", some (.str v.name)),
    ("value_or_reference_to_secret", some (.str v.value)), ("type", some (.str v.kind.name))]

@[simp] theorem EnvVar.encode_eq : EnvVar.codec.encode = EnvVar.document := by
  funext v
  simp [codec, shape, document, given, Kind.codec, Kind.choice]

@[simp] theorem EnvVar.nullFree (v : EnvVar) : v.document.NullFree := by
  simp +contextual [document]

def VolumeMount.document : VolumeMount → Json
  | .scratch path => .obj <| given [("type", some (.str "scratch")),
      ("mount_path", some (.str path))]
  | .secret path name files => .obj <| given [("type", some (.str "secret")),
      ("mount_path", some (.str path)), ("secret_name", some (.str name)),
      ("file_names", files.map stringsDocument)]
  | .shared path id => .obj <| given [("type", some (.str "shared")),
      ("mount_path", some (.str path)), ("volume_id", some (.str id))]
  | .memory path size => .obj <| given [("type", some (.str "memory")),
      ("mount_path", some (.str path)), ("size_in_mb", some (ofUInt32 size))]

@[simp] theorem VolumeMount.encode_eq : VolumeMount.codec.encode = VolumeMount.document := by
  funext m
  cases m with
  | secret path name files => cases files <;> rfl
  | _ => rfl

@[simp] theorem VolumeMount.nullFree (m : VolumeMount) : m.document.NullFree := by
  cases m <;> simp +contextual [document]

def Container.document (c : Container) : Json :=
  .obj <| given [("name", c.name.map .str), ("image", some (.str c.image)),
    ("exposed_port", some (ofUInt16 c.exposedPort)),
    ("healthcheck", c.healthcheck.map Healthcheck.document),
    ("entrypoint_overrides", c.entrypointOverrides.map EntrypointOverrides.document),
    ("env", some (.arr (c.env.map EnvVar.document))),
    ("volume_mounts", some (.arr (c.volumeMounts.map VolumeMount.document)))]

@[simp] theorem Container.encode_eq : Container.codec.encode = Container.document := by
  funext c
  simp [codec, shape, document, given, Json.list, Function.comp_def]

@[simp] theorem Container.nullFree (c : Container) : c.document.NullFree := by
  simp +contextual [document]

def ComputeResource.document (c : ComputeResource) : Json :=
  .obj <| given [("name", some (.str c.name)), ("size", some (ofUInt32 c.size))]

@[simp] theorem ComputeResource.encode_eq :
    ComputeResource.codec.encode = ComputeResource.document :=
  rfl

@[simp] theorem ComputeResource.nullFree (c : ComputeResource) : c.document.NullFree := by
  simp +contextual [document]

def CredentialsRef.document (c : CredentialsRef) : Json :=
  .obj <| given [("name", some (.str c.name))]

@[simp] theorem CredentialsRef.encode_eq : CredentialsRef.codec.encode = CredentialsRef.document :=
  rfl

@[simp] theorem CredentialsRef.nullFree (c : CredentialsRef) : c.document.NullFree := by
  simp +contextual [document]

def RegistrySettings.document (s : RegistrySettings) : Json :=
  .obj <| given [("is_private", some (.bool s.isPrivate)),
    ("credentials", s.credentials.map CredentialsRef.document)]

@[simp] theorem RegistrySettings.encode_eq :
    RegistrySettings.codec.encode = RegistrySettings.document := by
  funext s
  simp [codec, shape, document, given, Function.comp_def]

@[simp] theorem RegistrySettings.nullFree (s : RegistrySettings) : s.document.NullFree := by
  simp +contextual [document]

/-! ### Scaling -/

def ScalingPolicy.document (p : ScalingPolicy) : Json :=
  .obj <| given [("delay_seconds", some (ofUInt32 p.delaySeconds))]

@[simp] theorem ScalingPolicy.encode_eq : ScalingPolicy.codec.encode = ScalingPolicy.document :=
  rfl

@[simp] theorem ScalingPolicy.nullFree (p : ScalingPolicy) : p.document.NullFree := by
  simp +contextual [document]

def QueueLoadTrigger.document (t : QueueLoadTrigger) : Json :=
  .obj <| given [("threshold", some (ofBinary64 t.threshold))]

@[simp] theorem QueueLoadTrigger.encode_eq :
    QueueLoadTrigger.codec.encode = QueueLoadTrigger.document :=
  rfl

@[simp] theorem QueueLoadTrigger.nullFree_iff (t : QueueLoadTrigger) :
    t.document.NullFree ↔ t.threshold.isFinite = true := by
  simp [document]

def UtilizationTrigger.document (t : UtilizationTrigger) : Json :=
  .obj <| given [("enabled", some (.bool t.enabled)), ("threshold", t.threshold.map ofBinary64)]

@[simp] theorem UtilizationTrigger.encode_eq :
    UtilizationTrigger.codec.encode = UtilizationTrigger.document := by
  funext t
  simp [codec, shape, document, given, Function.comp_def]

@[simp] theorem UtilizationTrigger.nullFree_iff (t : UtilizationTrigger) :
    t.document.NullFree ↔ ∀ x ∈ t.threshold, x.isFinite = true := by
  simp [document]

/-- Triggers with finite thresholds, and without `null` among those that are not modelled. -/
structure ScalingTriggers.Definite (t : ScalingTriggers) : Prop where
  queueLoad : ∀ q ∈ t.queueLoad, q.threshold.isFinite = true
  cpuUtilization : ∀ u ∈ t.cpuUtilization, ∀ x ∈ u.threshold, x.isFinite = true
  gpuUtilization : ∀ u ∈ t.gpuUtilization, ∀ x ∈ u.threshold, x.isFinite = true
  extra : ∀ m ∈ t.extra, m.2.NullFree

/-- The triggers that are modelled, and all others. -/
def ScalingTriggers.document (t : ScalingTriggers) : Json :=
  .obj <| given [("queue_load", t.queueLoad.map QueueLoadTrigger.document),
    ("cpu_utilization", t.cpuUtilization.map UtilizationTrigger.document),
    ("gpu_utilization", t.gpuUtilization.map UtilizationTrigger.document)] ++ t.extra

@[simp] theorem ScalingTriggers.encode_eq :
    ScalingTriggers.codec.encode = ScalingTriggers.document := by
  funext t
  change Json.obj (shape.write t ++ t.extra) = _
  simp [shape, document, given, Function.comp_def]

theorem ScalingTriggers.Definite.nullFree {t : ScalingTriggers} (h : t.Definite) :
    t.document.NullFree := by
  refine nullFree_obj_iff.2 (List.forall_mem_append.2 ⟨nullFree_obj_iff.1 ?_, h.extra⟩)
  simp only [nullFree_given_iff, List.forall_mem_cons, Option.forall_mem_map,
    QueueLoadTrigger.nullFree_iff, UtilizationTrigger.nullFree_iff]
  exact ⟨h.queueLoad, h.cpuUtilization, h.gpuUtilization, List.forall_mem_nil _⟩

def Scaling.document (s : Scaling) : Json :=
  .obj <| given [("min_replica_count", some (ofUInt32 s.minReplicas)),
    ("max_replica_count", some (ofUInt32 s.maxReplicas)),
    ("scale_down_policy", some s.scaleDown.document), ("scale_up_policy", some s.scaleUp.document),
    ("queue_message_ttl_seconds", some (ofUInt32 s.messageTtlSeconds)),
    ("concurrent_requests_per_replica", some (ofUInt32 s.requestsPerReplica)),
    ("scaling_triggers", some s.triggers.document)]

@[simp] theorem Scaling.encode_eq : Scaling.codec.encode = Scaling.document := by
  funext s
  simp [codec, shape, document, given]

theorem Scaling.nullFree {s : Scaling} (h : s.triggers.Definite) : s.document.NullFree := by
  simp [document, h.nullFree]

def JobScaling.document (s : JobScaling) : Json :=
  .obj <| given [("max_replica_count", some (ofUInt32 s.maxReplicas)),
    ("queue_message_ttl_seconds", some (ofUInt32 s.messageTtlSeconds)),
    ("deadline_seconds", some (ofUInt32 s.deadlineSeconds))]

@[simp] theorem JobScaling.encode_eq : JobScaling.codec.encode = JobScaling.document :=
  rfl

@[simp] theorem JobScaling.nullFree (s : JobScaling) : s.document.NullFree := by
  simp +contextual [document]

/-! ### Changes -/

def containersDocument (cs : List Container) : Json :=
  .arr (cs.map Container.document)

@[simp] theorem encode_containers : (Json.list Container.codec).encode = containersDocument := by
  funext cs
  simp [Json.list, containersDocument]

@[simp] theorem nullFree_containers (cs : List Container) : (containersDocument cs).NullFree := by
  simp [containersDocument]

def UpdateDeployment.members (r : UpdateDeployment) : List (String × Json) :=
  given [("containers", r.containers.map containersDocument),
    ("compute", r.compute.map ComputeResource.document),
    ("container_registry_settings", r.registry.map RegistrySettings.document),
    ("is_spot", r.isSpot.map .bool), ("scaling", r.scaling.map Scaling.document)]

theorem UpdateDeployment.sends (r : UpdateDeployment)
    (h : ∀ s ∈ r.scaling, s.triggers.Definite) : UpdateDeployment.codec.Sends r r.members := by
  refine Codec.sends_given ?_ (by simp) (nullFree_given_iff.2 ?_)
  · simp [codec, shape, given, Function.comp_def]
  · simp only [List.forall_mem_cons, Option.forall_mem_map]
    exact ⟨fun cs _ => nullFree_containers cs, fun c _ => c.nullFree, fun s _ => s.nullFree,
      fun b _ => nullFree_bool b, fun s hs => Scaling.nullFree (h s hs), List.forall_mem_nil _⟩

def UpdateJobDeployment.members (r : UpdateJobDeployment) : List (String × Json) :=
  given [("containers", r.containers.map containersDocument),
    ("compute", r.compute.map ComputeResource.document),
    ("container_registry_settings", r.registry.map RegistrySettings.document),
    ("scaling", r.scaling.map JobScaling.document)]

theorem UpdateJobDeployment.sends (r : UpdateJobDeployment) :
    UpdateJobDeployment.codec.Sends r r.members := by
  refine Codec.sends_given ?_ (by simp) (nullFree_given_iff.2 ?_)
  · simp [codec, shape, given, Function.comp_def]
  · simp only [List.forall_mem_cons, Option.forall_mem_map]
    exact ⟨fun cs _ => nullFree_containers cs, fun c _ => c.nullFree, fun s _ => s.nullFree,
      fun s _ => s.nullFree, List.forall_mem_nil _⟩

def ActOnVolumes.members (r : ActOnVolumes) : List (String × Json) :=
  given [("action", some (.str r.action.name)), ("id", some (stringsDocument r.ids)),
    ("instance_id", r.instanceId.map .str), ("instance_ids", r.instanceIds.map stringsDocument),
    ("size", r.size.map ofUInt32), ("name", r.name.map .str),
    ("type", r.volumeType.map fun t => .str t.name), ("location_code", r.location.map .str),
    ("is_permanent", r.isPermanent.map .bool)]

theorem ActOnVolumes.sends (r : ActOnVolumes) : ActOnVolumes.codec.Sends r r.members := by
  refine Codec.sends_given ?_ (by simp) (nullFree_given_iff.2 ?_)
  · simp [codec, shape, given, VolumeAction.codec, VolumeAction.choice, VolumeType.codec,
      VolumeType.choice, Function.comp_def]
  · simp only [List.forall_mem_cons, Option.forall_mem_map, Option.mem_some_iff, forall_eq']
    exact ⟨nullFree_str _, nullFree_strings _, fun s _ => nullFree_str s,
      fun ss _ => nullFree_strings ss, fun n _ => nullFree_uint32 n, fun s _ => nullFree_str s,
      fun t _ => nullFree_str _, fun s _ => nullFree_str s, fun b _ => nullFree_bool b,
      List.forall_mem_nil _⟩

/-- A change is sent as an object of what is set, each part of it once and under its name, and so is
all that is within; nothing in it is `null`. -/
theorem updates_send_what_is_set :
    (∀ r : UpdateDeployment, (∀ s ∈ r.scaling, s.triggers.Definite) →
      UpdateDeployment.codec.Sends r r.members) ∧
    (∀ r : UpdateJobDeployment, UpdateJobDeployment.codec.Sends r r.members) ∧
    ∀ r : ActOnVolumes, ActOnVolumes.codec.Sends r r.members :=
  ⟨UpdateDeployment.sends, UpdateJobDeployment.sends, ActOnVolumes.sends⟩

/-- A change of the scaling alone, on the queue and on a trigger that is not modelled. -/
def UpdateDeployment.rescaled : UpdateDeployment where
  scaling := some {
    minReplicas := 0
    maxReplicas := 4
    scaleDown := ⟨60⟩
    scaleUp := ⟨0⟩
    messageTtlSeconds := 300
    requestsPerReplica := 1
    triggers := {
      queueLoad := some ⟨.ofDecimal false 5 (-1)⟩
      gpuUtilization := some ⟨false, none⟩
      extra := [("custom", .obj [("on", .bool true)])] } }

theorem updates_send_what_is_set_of_rescaled :
    (∀ s ∈ UpdateDeployment.rescaled.scaling, s.triggers.Definite) ∧
      UpdateDeployment.rescaled.members.map Prod.fst = ["scaling"] ∧
      UpdateDeployment.codec.Sends .rescaled UpdateDeployment.rescaled.members := by
  have hdefinite : ∀ s ∈ UpdateDeployment.rescaled.scaling, s.triggers.Definite := by
    rintro _ ⟨⟩
    exact {
      queueLoad := by
        intro q hq
        obtain rfl : ⟨.ofDecimal false 5 (-1)⟩ = q := Option.some.inj hq
        decide +kernel
      cpuUtilization := nofun
      gpuUtilization := by
        rintro _ ⟨⟩
        nofun
      extra := List.forall_mem_singleton.2 ⟨trivial, trivial⟩ }
  exact ⟨hdefinite, rfl, updates_send_what_is_set.1 _ hdefinite⟩

end CloudClient
