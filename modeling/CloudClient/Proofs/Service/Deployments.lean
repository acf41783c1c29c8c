import CloudClient.Proofs.Service.Targets

/-!
Calls on deployments, of containers and of jobs. What a call does, and the name of what it is done
to, can be told from the method and the URL of its request, whatever that name is. URLs are compared
as they are written, with dot segments still in them.
-/

namespace CloudClient

open Http (Method Target)

/-! ### Errands -/

inductive DeploymentService where
  | containers
  | jobs
  deriving DecidableEq, Repr

/-- What is done. Some of it can only be done with containers. -/
inductive DeploymentAction where
  | list
  | get
  | create
  | update
  | delete
  | status
  | restart
  | pause
  | resume
  | purgeQueue
  | scaling
  | updateScaling
  | replicas
  | env
  | addEnv
  | updateEnv
  | deleteEnv
  | secrets
  | createSecret
  | deleteSecret
  | registryCredentials
  | createRegistryCredentials
  | deleteRegistryCredentials
  | computeResources
  deriving DecidableEq, Repr

/-- What is done where, and the name of what it is done to. -/
structure Errand where
  service : DeploymentService
  action : DeploymentAction
  name : Option String
  deriving DecidableEq, Repr

def ContainerCall.errand : ContainerCall → Errand
  | .list => ⟨.containers, .list, none⟩
  | .get name => ⟨.containers, .get, some name⟩
  | .create _ => ⟨.containers, .create, none⟩
  | .update name _ => ⟨.containers, .update, some name⟩
  | .delete name => ⟨.containers, .delete, some name⟩
  | .status name => ⟨.containers, .status, some name⟩
  | .restart name => ⟨.containers, .restart, some name⟩
  | .pause name => ⟨.containers, .pause, some name⟩
  | .resume name => ⟨.containers, .resume, some name⟩
  | .purgeQueue name => ⟨.containers, .purgeQueue, some name⟩
  | .scaling name => ⟨.containers, .scaling, some name⟩
  | .updateScaling name _ => ⟨.containers, .updateScaling, some name⟩
  | .replicas name => ⟨.containers, .replicas, some name⟩
  | .env name => ⟨.containers, .env, some name⟩
  | .addEnv name _ => ⟨.containers, .addEnv, some name⟩
  | .updateEnv name _ => ⟨.containers, .updateEnv, some name⟩
  | .deleteEnv name _ => ⟨.containers, .deleteEnv, some name⟩
  | .secrets => ⟨.containers, .secrets, none⟩
  | .createSecret _ => ⟨.containers, .createSecret, none⟩
  | .deleteSecret name => ⟨.containers, .deleteSecret, some name⟩
  | .registryCredentials => ⟨.containers, .registryCredentials, none⟩
  | .createRegistryCredentials _ => ⟨.containers, .createRegistryCredentials, none⟩
  | .deleteRegistryCredentials name => ⟨.containers, .deleteRegistryCredentials, some name⟩
  | .computeResources => ⟨.containers, .computeResources, none⟩

def JobCall.errand : JobCall → Errand
  | .list => ⟨.jobs, .list, none⟩
  | .get name => ⟨.jobs, .get, some name⟩
  | .create _ => ⟨.jobs, .create, none⟩
  | .update name _ => ⟨.jobs, .update, some name⟩
  | .delete name => ⟨.jobs, .delete, some name⟩
  | .status name => ⟨.jobs, .status, some name⟩
  | .scaling name => ⟨.jobs, .scaling, some name⟩
  | .pause name => ⟨.jobs, .pause, some name⟩
  | .resume name => ⟨.jobs, .resume, some name⟩
  | .purgeQueue name => ⟨.jobs, .purgeQueue, some name⟩

inductive DeploymentCall where
  | containers (c : ContainerCall)
  | jobs (c : JobCall)

namespace DeploymentCall

def toCall : DeploymentCall → Call
  | .containers c => .containers c
  | .jobs c => .jobs c

def errand : DeploymentCall → Errand
  | .containers c => c.errand
  | .jobs c => c.errand

def method (k : DeploymentCall) : Method := k.toCall.operation.method

def target (k : DeploymentCall) : Target := k.toCall.operation.target

def url (c : Config) (k : DeploymentCall) : String := k.toCall.operation.url c

end DeploymentCall

/-! ### What is sent for an errand -/

namespace DeploymentAction

def method : DeploymentAction → Method
  | .list | .get | .status | .scaling | .replicas | .env | .secrets | .registryCredentials
  | .computeResources => .get
  | .create | .restart | .pause | .resume | .purgeQueue | .addEnv | .createSecret
  | .createRegistryCredentials => .post
  | .update | .updateScaling | .updateEnv => .patch
  | .delete | .deleteEnv | .deleteSecret | .deleteRegistryCredentials => .delete

/-- What it is about. -/
def collection : DeploymentAction → DeploymentService → String
  | .secrets, _ | .createSecret, _ | .deleteSecret, _ => "secrets"
  | .registryCredentials, _ | .createRegistryCredentials, _ | .deleteRegistryCredentials, _ =>
    "container-registry-credentials"
  | .computeResources, _ => "serverless-compute-resources"
  | _, .containers => "container-deployments"
  | _, .jobs => "job-deployments"

/-- What of a deployment it is about, unless that is the deployment as a whole. -/
def aspect : DeploymentAction → List String
  | .status => ["status"]
  | .restart => ["restart"]
  | .pause => ["pause"]
  | .resume => ["resume"]
  | .purgeQueue => ["purge-queue"]
  | .scaling | .updateScaling => ["scaling"]
  | .replicas => ["replicas"]
  | .env | .addEnv | .updateEnv | .deleteEnv => ["environment-variables"]
  | _ => []

end DeploymentAction

def Errand.target (e : Errand) : Target where
  collection := [e.action.collection e.service]
  name := e.name
  suffix := e.action.aspect

namespace DeploymentCall

theorem method_eq (k : DeploymentCall) : k.method = k.errand.action.method := by
  cases k with
  | containers c | jobs c => cases c <;> rfl

theorem target_eq (k : DeploymentCall) : k.target = k.errand.target := by
  cases k with
  | containers c | jobs c => cases c <;> rfl

end DeploymentCall

/-! ### Errands told from what is sent -/

namespace DeploymentAction

/-- What is done with all deployments. -/
def ofAll? : Method → Option DeploymentAction
  | .get => some .list
  | .post => some .create
  | _ => none

/-- What is done with a deployment as a whole. -/
def ofWhole? : Method → Option DeploymentAction
  | .get => some .get
  | .patch => some .update
  | .delete => some .delete
  | _ => none

/-- What is done with an aspect of a deployment. -/
def ofAspect? : Method → String → Option DeploymentAction
  | .get, "status" => some .status
  | .post, "restart" => some .restart
  | .post, "pause" => some .pause
  | .post, "resume" => some .resume
  | .post, "purge-queue" => some .purgeQueue
  | .get, "scaling" => some .scaling
  | .patch, "scaling" => some .updateScaling
  | .get, "replicas" => some .replicas
  | .get, "environment-variables" => some .env
  | .post, "environment-variables" => some .addEnv
  | .patch, "environment-variables" => some .updateEnv
  | .delete, "environment-variables" => some .deleteEnv
  | _, _ => none

end DeploymentAction

namespace Errand

/-- What is done with deployments, from the words after their collection. -/
def ofDeployments? (service : DeploymentService) (method : Method) : List String → Option Errand
  | [] => (DeploymentAction.ofAll? method).map fun action => ⟨service, action, none⟩
  | [name] => (DeploymentAction.ofWhole? method).map fun action => ⟨service, action, some name⟩
  | [name, aspect] =>
    (DeploymentAction.ofAspect? method aspect).map fun action => ⟨service, action, some name⟩
  | _ => none

/-- The errand that a method and the words of a path stand for. -/
def read? : Method → List String → Option Errand
  | method, "container-deployments" :: words => ofDeployments? .containers method words
  | method, "job-deployments" :: words => ofDeployments? .jobs method words
  | .get, ["secrets"] => some ⟨.containers, .secrets, none⟩
  | .post, ["secrets"] => some ⟨.containers, .createSecret, none⟩
  | .delete, ["secrets", name] => some ⟨.containers, .deleteSecret, some name⟩
  | .get, ["container-registry-credentials"] => some ⟨.containers, .registryCredentials, none⟩
  | .post, ["container-registry-credentials"] =>
    some ⟨.containers, .createRegistryCredentials, none⟩
  | .delete, ["container-registry-credentials", name] =>
    some ⟨.containers, .deleteRegistryCredentials, some name⟩
  | .get, ["serverless-compute-resources"] => some ⟨.containers, .computeResources, none⟩
  | _, _ => none

end Errand

/-- The target that words stand for when the first of them is the collection. -/
def Http.Target.ofWords : List String → Target
  | collection :: name :: suffix => .one [collection] name suffix
  | words => .all words

namespace DeploymentCall

variable {k₁ k₂ : DeploymentCall} {c : Config}

theorem read?_words (k : DeploymentCall) :
    Errand.read? k.method k.target.words = some k.errand := by
  cases k with
  | containers c | jobs c => cases c <;> rfl

theorem ofWords_words (k : DeploymentCall) : Target.ofWords k.target.words = k.target := by
  cases k with
  | containers c | jobs c => cases c <;> rfl

theorem words_of_url (h : k₁.url c = k₂.url c) : k₁.target.words = k₂.target.words := by
  have h₁ := k₁.toCall.asks c
  have h₂ := k₂.toCall.asks c
  rw [← show k₁.url c = k₂.toCall.operation.url c from h] at h₂
  exact (h₁.unique h₂).1

end DeploymentCall

/-- Two calls go to the same place only if they name the same thing there, and send the same method
to it only if they do the same with it. -/
theorem deployments_apart (c : Config) (k₁ k₂ : DeploymentCall) :
    (k₁.url c = k₂.url c ↔ k₁.target = k₂.target) ∧
      (k₁.method = k₂.method ∧ k₁.url c = k₂.url c ↔ k₁.errand = k₂.errand) := by
  have htarget (h : k₁.url c = k₂.url c) : k₁.target = k₂.target := by
    rw [← k₁.ofWords_words, ← k₂.ofWords_words, DeploymentCall.words_of_url h]
  have hurl (h : k₁.target = k₂.target) : k₁.url c = k₂.url c :=
    congrArg (fun t : Target => c.endpoint t.render) h
  refine ⟨⟨htarget, hurl⟩, ?_, ?_⟩
  -- the reader finds one errand behind a method and a target, so both calls have that one
  · rintro ⟨hmethod, h⟩
    have hread := k₁.read?_words
    rw [hmethod, htarget h, k₂.read?_words] at hread
    exact (Option.some.inj hread).symm
  · intro h
    refine ⟨?_, hurl ?_⟩
    · rw [k₁.method_eq, k₂.method_eq, h]
    · rw [k₁.target_eq, k₂.target_eq, h]

end CloudClient
