import CloudClient.Resource.Container
import CloudClient.Text.Described

/-!
Container deployments: scaling, state and replicas, and the secrets and registry credentials they
use.
-/

namespace CloudClient

open Json (Case Choice Codec Field Shape Tagged)

/-! ### Scaling -/

structure ScalingPolicy where
  delaySeconds : UInt32
  deriving DecidableEq, Repr

def ScalingPolicy.shape : Shape ScalingPolicy ScalingPolicy :=
  Shape.of ScalingPolicy ScalingPolicy.mk
    |>.and (·.delaySeconds) (.required "delay_seconds" Json.uint32)

def ScalingPolicy.codec : Codec ScalingPolicy := ScalingPolicy.shape.record "struct ScalingPolicy"

structure QueueLoadTrigger where
  threshold : Binary64
  deriving DecidableEq, Repr

def QueueLoadTrigger.shape : Shape QueueLoadTrigger QueueLoadTrigger :=
  Shape.of QueueLoadTrigger QueueLoadTrigger.mk
    |>.and (·.threshold) (.required "threshold" Json.float)

def QueueLoadTrigger.codec : Codec QueueLoadTrigger :=
  QueueLoadTrigger.shape.record "struct QueueLoadTrigger"

structure UtilizationTrigger where
  enabled : Bool
  threshold : Option Binary64
  deriving DecidableEq, Repr

def UtilizationTrigger.shape : Shape UtilizationTrigger UtilizationTrigger :=
  Shape.of UtilizationTrigger UtilizationTrigger.mk
    |>.and (·.enabled) (.required "enabled" Json.boolean)
    |>.and (·.threshold) (.unset "threshold" Json.float)

def UtilizationTrigger.codec : Codec UtilizationTrigger :=
  UtilizationTrigger.shape.record "struct UtilizationTrigger"

structure ScalingTriggers where
  queueLoad : Option QueueLoadTrigger := none
  cpuUtilization : Option UtilizationTrigger := none
  gpuUtilization : Option UtilizationTrigger := none
  extra : List (String × Json) := []
  deriving Repr

def ScalingTriggers.shape : Shape ScalingTriggers (List (String × Json) → ScalingTriggers) :=
  Shape.of ScalingTriggers ScalingTriggers.mk
    |>.and (·.queueLoad) (.unset "queue_load" QueueLoadTrigger.codec)
    |>.and (·.cpuUtilization) (.unset "cpu_utilization" UtilizationTrigger.codec)
    |>.and (·.gpuUtilization) (.unset "gpu_utilization" UtilizationTrigger.codec)

def ScalingTriggers.codec : Codec ScalingTriggers :=
  ScalingTriggers.shape.openRecord "struct ScalingTriggers" (·.extra)

structure Scaling where
  minReplicas : UInt32
  maxReplicas : UInt32
  scaleDown : ScalingPolicy
  scaleUp : ScalingPolicy
  messageTtlSeconds : UInt32
  requestsPerReplica : UInt32
  triggers : ScalingTriggers
  deriving Repr

def Scaling.shape : Shape Scaling Scaling :=
  Shape.of Scaling Scaling.mk
    |>.and (·.minReplicas) (.required "min_replica_count" Json.uint32)
    |>.and (·.maxReplicas) (.required "max_replica_count" Json.uint32)
    |>.and (·.scaleDown) (.required "scale_down_policy" ScalingPolicy.codec)
    |>.and (·.scaleUp) (.required "scale_up_policy" ScalingPolicy.codec)
    |>.and (·.messageTtlSeconds) (.required "queue_message_ttl_seconds" Json.uint32)
    |>.and (·.requestsPerReplica) (.required "concurrent_requests_per_replica" Json.uint32)
    |>.and (·.triggers) (.defaulted "scaling_triggers" ScalingTriggers.codec {})

def Scaling.codec : Codec Scaling := Scaling.shape.record "struct ScalingOptions"

/-! ### Deployments -/

structure Deployment where
  name : String
  containers : List Container
  compute : ComputeResource
  registry : RegistrySettings
  isSpot : Bool
  scaling : Option Scaling
  endpointBaseUrl : Option String
  createdAt : Option String
  deriving Repr

def Deployment.shape : Shape Deployment Deployment :=
  Shape.of Deployment Deployment.mk
    |>.and (·.name) (.required "name" Json.string)
    |>.and (·.containers) (.required "containers" (Json.list Container.codec))
    |>.and (·.compute) (.required "compute" ComputeResource.codec)
    |>.and (·.registry) (.defaulted "container_registry_settings" RegistrySettings.codec {})
    |>.and (·.isSpot) (.defaulted "is_spot" Json.boolean false)
    |>.and (·.scaling) (.nullable "scaling" Scaling.codec)
    |>.and (·.endpointBaseUrl) (.nullable "endpoint_base_url" Json.string)
    |>.and (·.createdAt) (.nullable "created_at" Json.string)

def Deployment.codec : Codec Deployment := Deployment.shape.record "struct ContainerDeployment"

structure CreateDeployment where
  name : String
  containers : List Container
  compute : ComputeResource
  registry : RegistrySettings
  isSpot : Bool
  scaling : Option Scaling
  deriving Repr

def CreateDeployment.shape : Shape CreateDeployment CreateDeployment :=
  Shape.of CreateDeployment CreateDeployment.mk
    |>.and (·.name) (.required "name" Json.string)
    |>.and (·.containers) (.required "containers" (Json.list Container.codec))
    |>.and (·.compute) (.required "compute" ComputeResource.codec)
    |>.and (·.registry) (.defaulted "container_registry_settings" RegistrySettings.codec {})
    |>.and (·.isSpot) (.defaulted "is_spot" Json.boolean false)
    |>.and (·.scaling) (.unset "scaling" Scaling.codec)

def CreateDeployment.codec : Codec CreateDeployment :=
  CreateDeployment.shape.record "struct CreateDeploymentRequest"

/-- A change of a deployment; what is unset stays as it is. -/
structure UpdateDeployment where
  containers : Option (List Container) := none
  compute : Option ComputeResource := none
  registry : Option RegistrySettings := none
  isSpot : Option Bool := none
  scaling : Option Scaling := none
  deriving Repr

def UpdateDeployment.shape : Shape UpdateDeployment UpdateDeployment :=
  Shape.of UpdateDeployment UpdateDeployment.mk
    |>.and (·.containers) (.unset "containers" (Json.list Container.codec))
    |>.and (·.compute) (.unset "compute" ComputeResource.codec)
    |>.and (·.registry) (.unset "container_registry_settings" RegistrySettings.codec)
    |>.and (·.isSpot) (.unset "is_spot" Json.boolean)
    |>.and (·.scaling) (.unset "scaling" Scaling.codec)

def UpdateDeployment.codec : Codec UpdateDeployment :=
  UpdateDeployment.shape.record "struct UpdateDeploymentRequest"

inductive DeploymentState where
  | initializing
  | healthy
  | degraded
  | paused
  | offline
  | error
  | unknown
  deriving DecidableEq, Repr

def DeploymentState.name : DeploymentState → String
  | .initializing => "initializing"
  | .healthy => "healthy"
  | .degraded => "degraded"
  | .paused => "paused"
  | .offline => "offline"
  | .error => "error"
  | .unknown => "unknown"

def DeploymentState.choice : Choice DeploymentState where
  names := [.initializing, .healthy, .degraded, .paused, .offline, .error, .unknown].map
    fun s => (s.name, s)
  other := some .unknown
  name := DeploymentState.name

def DeploymentState.codec : Codec DeploymentState := DeploymentState.choice.codec

structure DeploymentStatus where
  status : DeploymentState
  deriving DecidableEq, Repr

def DeploymentStatus.shape : Shape DeploymentStatus DeploymentStatus :=
  Shape.of DeploymentStatus DeploymentStatus.mk
    |>.and (·.status) (.required "status" DeploymentState.codec)

def DeploymentStatus.codec : Codec DeploymentStatus :=
  DeploymentStatus.shape.record "struct DeploymentStatus"

structure Replica where
  id : String
  status : String
  startedAt : Option String
  deriving DecidableEq, Repr

def Replica.shape : Shape Replica Replica :=
  Shape.of Replica Replica.mk
    |>.and (·.id) (.required "id" Json.string)
    |>.and (·.status) (.required "status" Json.string)
    |>.and (·.startedAt) (.nullable "started_at" Json.string)

def Replica.codec : Codec Replica := Replica.shape.record "struct ReplicaInfo"

structure ReplicaList where
  list : List Replica
  deriving DecidableEq, Repr

def ReplicaList.shape : Shape ReplicaList ReplicaList :=
  Shape.of ReplicaList ReplicaList.mk
    |>.and (·.list) (.defaulted "list" (Json.list Replica.codec) [])

def ReplicaList.codec : Codec ReplicaList := ReplicaList.shape.record "struct ReplicaList"

/-- The environment variables of one container of a deployment. -/
structure ContainerEnv where
  container : String
  env : List EnvVar
  deriving DecidableEq, Repr

def ContainerEnv.shape : Shape ContainerEnv ContainerEnv :=
  Shape.of ContainerEnv ContainerEnv.mk
    |>.and (·.container) (.required "container_name" Json.string)
    |>.and (·.env) (.defaulted "env" (Json.list EnvVar.codec) [])

def ContainerEnv.codec : Codec ContainerEnv := ContainerEnv.shape.record "struct ContainerEnvVars"

structure DeleteEnv where
  container : String
  names : List String
  deriving DecidableEq, Repr

def DeleteEnv.shape : Shape DeleteEnv DeleteEnv :=
  Shape.of DeleteEnv DeleteEnv.mk
    |>.and (·.container) (.required "container_name" Json.string)
    |>.and (·.names) (.required "env" (Json.list Json.string))

def DeleteEnv.codec : Codec DeleteEnv := DeleteEnv.shape.record "struct DeleteEnvVarsRequest"

/-! ### Secrets and registry credentials -/

/-- A stored secret, without its value. -/
structure Secret where
  name : String
  createdAt : Option String
  secretType : Option String
  deriving DecidableEq, Repr

def Secret.shape : Shape Secret Secret :=
  Shape.of Secret Secret.mk
    |>.and (·.name) (.required "name" Json.string)
    |>.and (·.createdAt) (.nullable "created_at" Json.string)
    |>.and (·.secretType) (.nullable "secret_type" Json.string)

def Secret.codec : Codec Secret := Secret.shape.record "struct Secret"

structure CreateSecret where
  name : String
  value : String
  deriving DecidableEq

def CreateSecret.shape : Shape CreateSecret CreateSecret :=
  Shape.of CreateSecret CreateSecret.mk
    |>.and (·.name) (.required "name" Json.string)
    |>.and (·.value) (.required "value" Json.string)

def CreateSecret.codec : Codec CreateSecret :=
  CreateSecret.shape.record "struct CreateSecretRequest"

def CreateSecret.describe (r : CreateSecret) : String :=
  Text.describe "CreateSecretRequest" [
    ("name", Text.quote r.name),
    ("value", Text.quote Text.redacted)]

structure RegistryCredentials where
  name : String
  createdAt : Option String
  deriving DecidableEq, Repr

def RegistryCredentials.shape : Shape RegistryCredentials RegistryCredentials :=
  Shape.of RegistryCredentials RegistryCredentials.mk
    |>.and (·.name) (.required "name" Json.string)
    |>.and (·.createdAt) (.nullable "created_at" Json.string)

def RegistryCredentials.codec : Codec RegistryCredentials :=
  RegistryCredentials.shape.record "struct RegistryCredentials"

/-- What a registry asks for. -/
inductive RegistryLogin where
  | dockerhub (username accessToken : String)
  | ghcr (username accessToken : String)
  | gcr (serviceAccountKey : String)
  | awsEcr (accessKeyId secretAccessKey region repository : String)
  | custom (dockerConfig : String)
  deriving DecidableEq

namespace RegistryLogin

def dockerhubCase : Case RegistryLogin :=
  (Shape.of (String × String) dockerhub
    |>.and (·.1) (.required "username" Json.string)
    |>.and (·.2) (.required "access_token" Json.string)).case
      "dockerhub" "RegistryCredentialsKind::Dockerhub" fun
      | .dockerhub user token => some (user, token)
      | _ => none

def ghcrCase : Case RegistryLogin :=
  (Shape.of (String × String) ghcr
    |>.and (·.1) (.required "username" Json.string)
    |>.and (·.2) (.required "access_token" Json.string)).case
      "ghcr" "RegistryCredentialsKind::Ghcr" fun
      | .ghcr user token => some (user, token)
      | _ => none

def gcrCase : Case RegistryLogin :=
  (Shape.of String gcr
    |>.and id (.required "service_account_key" Json.string)).case
      "gcr" "RegistryCredentialsKind::Gcr" fun
      | .gcr key => some key
      | _ => none

def awsEcrCase : Case RegistryLogin :=
  (Shape.of (String × String × String × String) awsEcr
    |>.and (·.1) (.required "access_key_id" Json.string)
    |>.and (·.2.1) (.required "secret_access_key" Json.string)
    |>.and (·.2.2.1) (.required "region" Json.string)
    |>.and (·.2.2.2) (.required "ecr_repo" Json.string)).case
      "aws_ecr" "RegistryCredentialsKind::AwsEcr" fun
      | .awsEcr id secret region repository => some (id, secret, region, repository)
      | _ => none

def customCase : Case RegistryLogin :=
  (Shape.of String custom
    |>.and id (.required "docker_config_json" Json.string)).case
      "custom" "RegistryCredentialsKind::Custom" fun
      | .custom config => some config
      | _ => none

def union : Tagged RegistryLogin where
  name := "RegistryCredentialsKind"
  cases := [dockerhubCase, ghcrCase, gcrCase, awsEcrCase, customCase]

def codec : Codec RegistryLogin := union.codec

/-- The kind of registry. -/
def kind : RegistryLogin → String
  | .dockerhub .. => "dockerhub"
  | .ghcr .. => "ghcr"
  | .gcr _ => "gcr"
  | .awsEcr .. => "aws_ecr"
  | .custom _ => "custom"

def describe (login : RegistryLogin) : String :=
  "RegistryCredentialsKind(" ++ login.kind ++ ", " ++ Text.redacted ++ ")"

end RegistryLogin

structure CreateRegistryCredentials where
  name : String
  login : RegistryLogin
  deriving DecidableEq

def CreateRegistryCredentials.shape :
    Shape CreateRegistryCredentials (RegistryLogin → CreateRegistryCredentials) :=
  Shape.of CreateRegistryCredentials CreateRegistryCredentials.mk
    |>.and (·.name) (.required "name" Json.string)

def CreateRegistryCredentials.codec : Codec CreateRegistryCredentials :=
  RegistryLogin.union.within CreateRegistryCredentials.shape
    "struct CreateRegistryCredentialsRequest" (·.login)

def CreateRegistryCredentials.describe (r : CreateRegistryCredentials) : String :=
  Text.describe "CreateRegistryCredentialsRequest" [
    ("name", Text.quote r.name),
    ("credentials", r.login.describe)]

/-- A compute resource on offer to serverless workloads. -/
structure ServerlessCompute where
  name : String
  size : UInt32
  isAvailable : Bool
  deriving DecidableEq, Repr

def ServerlessCompute.shape : Shape ServerlessCompute ServerlessCompute :=
  Shape.of ServerlessCompute ServerlessCompute.mk
    |>.and (·.name) (.required "name" Json.string)
    |>.and (·.size) (.required "size" Json.uint32)
    |>.and (·.isAvailable) (.defaulted "is_available" Json.boolean false)

def ServerlessCompute.codec : Codec ServerlessCompute :=
  ServerlessCompute.shape.record "struct ServerlessComputeResource"

end CloudClient
