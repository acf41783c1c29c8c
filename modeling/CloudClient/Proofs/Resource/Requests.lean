import CloudClient.Proofs.Json.Unions
import CloudClient.Resource.Cluster
import CloudClient.Resource.Deployment
import CloudClient.Resource.Instance
import CloudClient.Resource.Job
import CloudClient.Resource.Volume

/-!
Requests are read back as they were written, whatever they hold. The proofs follow the shapes field
by field.
-/

namespace CloudClient

open Json
open Json.Field

variable {depth : Nat}

/-! ### Terms -/

theorem Contract.restores (c : Contract) : Contract.codec.Restores depth c :=
  Choice.restores (by cases c <;> rfl)

theorem Pricing.restores (p : Pricing) : Pricing.codec.Restores depth p :=
  Choice.restores (by cases p <;> rfl)

theorem strings_restores (ss : List String) : (list string).Restores (depth + 1) ss :=
  list_restores fun s _ => string_restores s

/-! ### Instances -/

theorem OsVolume.restores (v : OsVolume) : OsVolume.codec.Restores (depth + 1) v :=
  .record (by decide) rfl <| Shape.Carries.of
    |>.and (required_carries (string_restores _))
    |>.and (required_carries (uint32_restores _))

theorem DataVolume.restores (v : DataVolume) : DataVolume.codec.Restores (depth + 1) v :=
  .record (by decide) rfl <| Shape.Carries.of
    |>.and (required_carries (string_restores _))
    |>.and (required_carries (uint32_restores _))
    |>.and (required_carries (string_restores _))

theorem CreateInstance.restores (r : CreateInstance) :
    CreateInstance.codec.Restores (depth + 3) r :=
  .record (by decide) rfl <| Shape.Carries.of
    |>.and (required_carries (string_restores _))
    |>.and (required_carries (string_restores _))
    |>.and (required_carries (string_restores _))
    |>.and (required_carries (string_restores _))
    |>.and (several_carries fun _ _ => string_restores _)
    |>.and (placed_carries fun _ _ => string_restores _)
    |>.and (placed_carries fun _ _ => OsVolume.restores _)
    |>.and (several_carries fun _ _ => DataVolume.restores _)
    |>.and (several_carries fun _ _ => string_restores _)
    |>.and (placed_carries fun _ _ => string_restores _)
    |>.and (defaulted_carries (boolean_restores _))
    |>.and (placed_carries fun _ _ => Contract.restores _)
    |>.and (placed_carries fun _ _ => Pricing.restores _)
    |>.and (placed_carries fun _ _ => string_restores _)

theorem InstanceAction.restores (a : InstanceAction) : InstanceAction.codec.Restores depth a :=
  Choice.restores (by cases a <;> rfl)

theorem ActOnInstances.restores (r : ActOnInstances) :
    ActOnInstances.codec.Restores (depth + 2) r :=
  .record (by decide) rfl <| Shape.Carries.of
    |>.and (required_carries (InstanceAction.restores _))
    |>.and (required_carries (strings_restores _))
    |>.and (placed_carries fun _ _ => strings_restores _)
    |>.and (placed_carries fun _ _ => boolean_restores _)

/-! ### Volumes and clusters -/

theorem VolumeType.restores (t : VolumeType) : VolumeType.codec.Restores depth t :=
  Choice.restores (by cases t <;> rfl)

theorem CreateVolume.restores (r : CreateVolume) : CreateVolume.codec.Restores (depth + 2) r :=
  .record (by decide) rfl <| Shape.Carries.of
    |>.and (required_carries (VolumeType.restores _))
    |>.and (required_carries (string_restores _))
    |>.and (required_carries (uint32_restores _))
    |>.and (required_carries (string_restores _))
    |>.and (placed_carries fun _ _ => string_restores _)
    |>.and (placed_carries fun _ _ => strings_restores _)

theorem VolumeAction.restores (a : VolumeAction) : VolumeAction.codec.Restores depth a :=
  Choice.restores (by cases a <;> rfl)

theorem ActOnVolumes.restores (r : ActOnVolumes) : ActOnVolumes.codec.Restores (depth + 2) r :=
  .record (by decide) rfl <| Shape.Carries.of
    |>.and (required_carries (VolumeAction.restores _))
    |>.and (required_carries (strings_restores _))
    |>.and (placed_carries fun _ _ => string_restores _)
    |>.and (placed_carries fun _ _ => strings_restores _)
    |>.and (placed_carries fun _ _ => uint32_restores _)
    |>.and (placed_carries fun _ _ => string_restores _)
    |>.and (placed_carries fun _ _ => VolumeType.restores _)
    |>.and (placed_carries fun _ _ => string_restores _)
    |>.and (placed_carries fun _ _ => boolean_restores _)

theorem SharedVolume.restores (v : SharedVolume) : SharedVolume.codec.Restores (depth + 1) v :=
  .record (by decide) rfl <| Shape.Carries.of
    |>.and (required_carries (string_restores _))
    |>.and (required_carries (uint32_restores _))

theorem CreateCluster.restores (r : CreateCluster) : CreateCluster.codec.Restores (depth + 2) r :=
  .record (by decide) rfl <| Shape.Carries.of
    |>.and (required_carries (string_restores _))
    |>.and (required_carries (string_restores _))
    |>.and (required_carries (string_restores _))
    |>.and (required_carries (string_restores _))
    |>.and (several_carries fun _ _ => string_restores _)
    |>.and (placed_carries fun _ _ => string_restores _)
    |>.and (placed_carries fun _ _ => string_restores _)
    |>.and (placed_carries fun _ _ => SharedVolume.restores _)
    |>.and (several_carries fun _ _ => string_restores _)
    |>.and (placed_carries fun _ _ => Contract.restores _)
    |>.and (placed_carries fun _ _ => Pricing.restores _)

/-! ### Containers -/

theorem Healthcheck.restores (h : Healthcheck) : Healthcheck.codec.Restores (depth + 1) h :=
  .record (by decide) rfl <| Shape.Carries.of
    |>.and (required_carries (boolean_restores _))
    |>.and (unset_carries fun _ _ => uint16_restores _)
    |>.and (unset_carries fun _ _ => string_restores _)

theorem EntrypointOverrides.restores (o : EntrypointOverrides) :
    EntrypointOverrides.codec.Restores (depth + 2) o :=
  .record (by decide) rfl <| Shape.Carries.of
    |>.and (required_carries (boolean_restores _))
    |>.and (unset_carries fun _ _ => strings_restores _)
    |>.and (unset_carries fun _ _ => strings_restores _)

theorem EnvVar.Kind.restores (k : EnvVar.Kind) : EnvVar.Kind.codec.Restores depth k :=
  Choice.restores (by cases k <;> rfl)

theorem EnvVar.restores (v : EnvVar) : EnvVar.codec.Restores (depth + 1) v :=
  .record (by decide) rfl <| Shape.Carries.of
    |>.and (required_carries (string_restores _))
    |>.and (required_carries (string_restores _))
    |>.and (required_carries (EnvVar.Kind.restores _))

theorem VolumeMount.restores (m : VolumeMount) : VolumeMount.codec.Restores (depth + 2) m := by
  refine .union ?_
  cases m with
  | scratch path =>
    exact .intro path rfl rfl (by decide) rfl <| Shape.Carries.of
      |>.and (required_carries (string_restores _))
  | secret path name files =>
    exact .intro (path, name, files) rfl rfl (by decide) rfl <| Shape.Carries.of
      |>.and (required_carries (string_restores _))
      |>.and (required_carries (string_restores _))
      |>.and (unset_carries fun _ _ => strings_restores _)
  | shared path id =>
    exact .intro (path, id) rfl rfl (by decide) rfl <| Shape.Carries.of
      |>.and (required_carries (string_restores _))
      |>.and (required_carries (string_restores _))
  | memory path size =>
    exact .intro (path, size) rfl rfl (by decide) rfl <| Shape.Carries.of
      |>.and (required_carries (string_restores _))
      |>.and (required_carries (uint32_restores _))

theorem Container.restores (c : Container) : Container.codec.Restores (depth + 4) c :=
  .record (by decide) rfl <| Shape.Carries.of
    |>.and (unset_carries fun _ _ => string_restores _)
    |>.and (required_carries (string_restores _))
    |>.and (required_carries (uint16_restores _))
    |>.and (unset_carries fun _ _ => Healthcheck.restores _)
    |>.and (unset_carries fun _ _ => EntrypointOverrides.restores _)
    |>.and (defaulted_carries (list_restores fun _ _ => EnvVar.restores _))
    |>.and (defaulted_carries (list_restores fun _ _ => VolumeMount.restores _))

theorem ComputeResource.restores (c : ComputeResource) :
    ComputeResource.codec.Restores (depth + 1) c :=
  .record (by decide) rfl <| Shape.Carries.of
    |>.and (required_carries (string_restores _))
    |>.and (required_carries (uint32_restores _))

theorem CredentialsRef.restores (c : CredentialsRef) :
    CredentialsRef.codec.Restores (depth + 1) c :=
  .record (by decide) rfl <| Shape.Carries.of
    |>.and (required_carries (string_restores _))

theorem RegistrySettings.restores (s : RegistrySettings) :
    RegistrySettings.codec.Restores (depth + 2) s :=
  .record (by decide) rfl <| Shape.Carries.of
    |>.and (required_carries (boolean_restores _))
    |>.and (unset_carries fun _ _ => CredentialsRef.restores _)

/-! ### Job deployments and registry credentials -/

theorem JobScaling.restores (s : JobScaling) : JobScaling.codec.Restores (depth + 1) s :=
  .record (by decide) rfl <| Shape.Carries.of
    |>.and (required_carries (uint32_restores _))
    |>.and (required_carries (uint32_restores _))
    |>.and (required_carries (uint32_restores _))

theorem CreateJobDeployment.restores (r : CreateJobDeployment) :
    CreateJobDeployment.codec.Restores (depth + 6) r :=
  .record (by decide) rfl <| Shape.Carries.of
    |>.and (required_carries (string_restores _))
    |>.and (required_carries (list_restores fun _ _ => Container.restores _))
    |>.and (required_carries (ComputeResource.restores _))
    |>.and (defaulted_carries (RegistrySettings.restores _))
    |>.and (unset_carries fun _ _ => JobScaling.restores _)

theorem UpdateJobDeployment.restores (r : UpdateJobDeployment) :
    UpdateJobDeployment.codec.Restores (depth + 6) r :=
  .record (by decide) rfl <| Shape.Carries.of
    |>.and (unset_carries fun _ _ => list_restores fun _ _ => Container.restores _)
    |>.and (unset_carries fun _ _ => ComputeResource.restores _)
    |>.and (unset_carries fun _ _ => RegistrySettings.restores _)
    |>.and (unset_carries fun _ _ => JobScaling.restores _)

theorem RegistryLogin.restores (login : RegistryLogin) :
    RegistryLogin.union.Restores ["name"] depth login := by
  cases login with
  | dockerhub user token =>
    exact .intro (user, token) rfl rfl (by decide) rfl <| Shape.Carries.of
      |>.and (required_carries (string_restores _))
      |>.and (required_carries (string_restores _))
  | ghcr user token =>
    exact .intro (user, token) rfl rfl (by decide) rfl <| Shape.Carries.of
      |>.and (required_carries (string_restores _))
      |>.and (required_carries (string_restores _))
  | gcr key =>
    exact .intro key rfl rfl (by decide) rfl <| Shape.Carries.of
      |>.and (required_carries (string_restores _))
  | awsEcr id secret region repository =>
    exact .intro (id, secret, region, repository) rfl rfl (by decide) rfl <| Shape.Carries.of
      |>.and (required_carries (string_restores _))
      |>.and (required_carries (string_restores _))
      |>.and (required_carries (string_restores _))
      |>.and (required_carries (string_restores _))
  | custom config =>
    exact .intro config rfl rfl (by decide) rfl <| Shape.Carries.of
      |>.and (required_carries (string_restores _))

theorem CreateRegistryCredentials.restores (r : CreateRegistryCredentials) :
    CreateRegistryCredentials.codec.Restores (depth + 1) r :=
  .within (Shape.Carries.of |>.and (required_carries (string_restores _))) rfl
    (RegistryLogin.restores r.login)

/-- Requests are read back from the bytes they are sent as, whatever texts, lists, numbers and
settings they hold. -/
theorem requests_lossless :
    CreateInstance.codec.Lossless ∧ ActOnInstances.codec.Lossless ∧
    CreateVolume.codec.Lossless ∧ ActOnVolumes.codec.Lossless ∧
    CreateCluster.codec.Lossless ∧ Container.codec.Lossless ∧
    CreateJobDeployment.codec.Lossless ∧ UpdateJobDeployment.codec.Lossless ∧
    CreateRegistryCredentials.codec.Lossless :=
  ⟨Codec.lossless_of_restores CreateInstance.restores,
    Codec.lossless_of_restores ActOnInstances.restores,
    Codec.lossless_of_restores CreateVolume.restores,
    Codec.lossless_of_restores ActOnVolumes.restores,
    Codec.lossless_of_restores CreateCluster.restores,
    Codec.lossless_of_restores Container.restores,
    Codec.lossless_of_restores CreateJobDeployment.restores,
    Codec.lossless_of_restores UpdateJobDeployment.restores,
    Codec.lossless_of_restores CreateRegistryCredentials.restores⟩

end CloudClient
