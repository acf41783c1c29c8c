import CloudClient.Resource.Container

/-!
Serverless job deployments.
-/

namespace CloudClient

open Json (Codec Field Shape)

structure JobScaling where
  maxReplicas : UInt32
  messageTtlSeconds : UInt32
  deadlineSeconds : UInt32
  deriving DecidableEq, Repr

def JobScaling.shape : Shape JobScaling JobScaling :=
  Shape.of JobScaling JobScaling.mk
    |>.and (·.maxReplicas) (.required "max_replica_count" Json.uint32)
    |>.and (·.messageTtlSeconds) (.required "queue_message_ttl_seconds" Json.uint32)
    |>.and (·.deadlineSeconds) (.required "deadline_seconds" Json.uint32)

def JobScaling.codec : Codec JobScaling := JobScaling.shape.record "struct JobScalingOptions"

structure JobDeployment where
  name : String
  containers : List Container
  compute : ComputeResource
  registry : RegistrySettings
  scaling : Option JobScaling
  endpointBaseUrl : Option String
  createdAt : Option String
  deriving DecidableEq, Repr

def JobDeployment.shape : Shape JobDeployment JobDeployment :=
  Shape.of JobDeployment JobDeployment.mk
    |>.and (·.name) (.required "name" Json.string)
    |>.and (·.containers) (.required "containers" (Json.list Container.codec))
    |>.and (·.compute) (.required "compute" ComputeResource.codec)
    |>.and (·.registry) (.defaulted "container_registry_settings" RegistrySettings.codec {})
    |>.and (·.scaling) (.nullable "scaling" JobScaling.codec)
    |>.and (·.endpointBaseUrl) (.nullable "endpoint_base_url" Json.string)
    |>.and (·.createdAt) (.nullable "created_at" Json.string)

def JobDeployment.codec : Codec JobDeployment := JobDeployment.shape.record "struct JobDeployment"

/-- A job deployment as it is listed. -/
structure JobSummary where
  name : String
  createdAt : Option String
  compute : Option ComputeResource
  deriving DecidableEq, Repr

def JobSummary.shape : Shape JobSummary JobSummary :=
  Shape.of JobSummary JobSummary.mk
    |>.and (·.name) (.required "name" Json.string)
    |>.and (·.createdAt) (.nullable "created_at" Json.string)
    |>.and (·.compute) (.nullable "compute" ComputeResource.codec)

def JobSummary.codec : Codec JobSummary := JobSummary.shape.record "struct JobDeploymentSummary"

structure CreateJobDeployment where
  name : String
  containers : List Container
  compute : ComputeResource
  registry : RegistrySettings
  scaling : Option JobScaling
  deriving DecidableEq, Repr

def CreateJobDeployment.shape : Shape CreateJobDeployment CreateJobDeployment :=
  Shape.of CreateJobDeployment CreateJobDeployment.mk
    |>.and (·.name) (.required "name" Json.string)
    |>.and (·.containers) (.required "containers" (Json.list Container.codec))
    |>.and (·.compute) (.required "compute" ComputeResource.codec)
    |>.and (·.registry) (.defaulted "container_registry_settings" RegistrySettings.codec {})
    |>.and (·.scaling) (.unset "scaling" JobScaling.codec)

def CreateJobDeployment.codec : Codec CreateJobDeployment :=
  CreateJobDeployment.shape.record "struct CreateJobDeploymentRequest"

/-- A change of a job deployment; what is unset stays as it is. -/
structure UpdateJobDeployment where
  containers : Option (List Container) := none
  compute : Option ComputeResource := none
  registry : Option RegistrySettings := none
  scaling : Option JobScaling := none
  deriving DecidableEq, Repr

def UpdateJobDeployment.shape : Shape UpdateJobDeployment UpdateJobDeployment :=
  Shape.of UpdateJobDeployment UpdateJobDeployment.mk
    |>.and (·.containers) (.unset "containers" (Json.list Container.codec))
    |>.and (·.compute) (.unset "compute" ComputeResource.codec)
    |>.and (·.registry) (.unset "container_registry_settings" RegistrySettings.codec)
    |>.and (·.scaling) (.unset "scaling" JobScaling.codec)

def UpdateJobDeployment.codec : Codec UpdateJobDeployment :=
  UpdateJobDeployment.shape.record "struct UpdateJobDeploymentRequest"

end CloudClient
