import CloudClient.Operation
import CloudClient.Resource.Deployment

/-!
Calls on container deployments, and on the secrets and registry credentials they use.
-/

namespace CloudClient

open Http (Target)

inductive ContainerCall where
  | list
  | get (name : String)
  | create (r : CreateDeployment)
  | update (name : String) (r : UpdateDeployment)
  | delete (name : String)
  | status (name : String)
  | restart (name : String)
  | pause (name : String)
  | resume (name : String)
  | purgeQueue (name : String)
  | scaling (name : String)
  | updateScaling (name : String) (r : Scaling)
  | replicas (name : String)
  | env (name : String)
  | addEnv (name : String) (r : ContainerEnv)
  | updateEnv (name : String) (r : ContainerEnv)
  | deleteEnv (name : String) (r : DeleteEnv)
  | secrets
  | createSecret (r : CreateSecret)
  | deleteSecret (name : String)
  | registryCredentials
  | createRegistryCredentials (r : CreateRegistryCredentials)
  | deleteRegistryCredentials (name : String)
  | computeResources

namespace ContainerCall

abbrev Answer : ContainerCall → Type
  | .list => List Deployment
  | .get _ => Deployment
  | .create _ => Deployment
  | .update .. => Deployment
  | .delete _ => Unit
  | .status _ => DeploymentStatus
  | .restart _ => Unit
  | .pause _ => Unit
  | .resume _ => Unit
  | .purgeQueue _ => Unit
  | .scaling _ => Scaling
  | .updateScaling .. => Scaling
  | .replicas _ => ReplicaList
  | .env _ => List ContainerEnv
  | .addEnv .. => Unit
  | .updateEnv .. => Unit
  | .deleteEnv .. => Unit
  | .secrets => List Secret
  | .createSecret _ => Unit
  | .deleteSecret _ => Unit
  | .registryCredentials => List RegistryCredentials
  | .createRegistryCredentials _ => Unit
  | .deleteRegistryCredentials _ => Unit
  | .computeResources => List ServerlessCompute

/-- A deployment, or an aspect of it. -/
def deployment (name : String) (suffix : List String := []) : Target :=
  Target.one ["container-deployments"] name suffix

def operation : (c : ContainerCall) → Operation c.Answer
  | .list => .get (Target.all ["container-deployments"]) (Json.list Deployment.codec)
  | .get name => .get (deployment name) Deployment.codec
  | .create r =>
    .post (Target.all ["container-deployments"]) (CreateDeployment.codec.encode r) Deployment.codec
  | .update name r => .patch (deployment name) (UpdateDeployment.codec.encode r) Deployment.codec
  | .delete name => .delete (deployment name)
  | .status name => .get (deployment name ["status"]) DeploymentStatus.codec
  | .restart name => .tell .post (deployment name ["restart"])
  | .pause name => .tell .post (deployment name ["pause"])
  | .resume name => .tell .post (deployment name ["resume"])
  | .purgeQueue name => .tell .post (deployment name ["purge-queue"])
  | .scaling name => .get (deployment name ["scaling"]) Scaling.codec
  | .updateScaling name r =>
    .patch (deployment name ["scaling"]) (Scaling.codec.encode r) Scaling.codec
  | .replicas name => .get (deployment name ["replicas"]) ReplicaList.codec
  | .env name => .get (deployment name ["environment-variables"]) (Json.list ContainerEnv.codec)
  | .addEnv name r =>
    .tell .post (deployment name ["environment-variables"]) (some (ContainerEnv.codec.encode r))
  | .updateEnv name r =>
    .tell .patch (deployment name ["environment-variables"]) (some (ContainerEnv.codec.encode r))
  | .deleteEnv name r =>
    .tell .delete (deployment name ["environment-variables"]) (some (DeleteEnv.codec.encode r))
  | .secrets => .get (Target.all ["secrets"]) (Json.list Secret.codec)
  | .createSecret r => .tell .post (Target.all ["secrets"]) (some (CreateSecret.codec.encode r))
  | .deleteSecret name => .delete (Target.one ["secrets"] name)
  | .registryCredentials =>
    .get (Target.all ["container-registry-credentials"]) (Json.list RegistryCredentials.codec)
  | .createRegistryCredentials r =>
    .tell .post (Target.all ["container-registry-credentials"])
      (some (CreateRegistryCredentials.codec.encode r))
  | .deleteRegistryCredentials name => .delete (Target.one ["container-registry-credentials"] name)
  | .computeResources =>
    .get (Target.all ["serverless-compute-resources"]) (Json.list ServerlessCompute.codec)

end ContainerCall

end CloudClient
