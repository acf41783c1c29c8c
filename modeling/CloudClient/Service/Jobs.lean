import CloudClient.Operation
import CloudClient.Resource.Deployment
import CloudClient.Resource.Job

/-!
Calls on job deployments.
-/

namespace CloudClient

open Http (Target)

inductive JobCall where
  | list
  | get (name : String)
  | create (r : CreateJobDeployment)
  | update (name : String) (r : UpdateJobDeployment)
  | delete (name : String)
  | status (name : String)
  | scaling (name : String)
  | pause (name : String)
  | resume (name : String)
  | purgeQueue (name : String)

namespace JobCall

abbrev Answer : JobCall → Type
  | .list => List JobSummary
  | .get _ => JobDeployment
  | .create _ => JobDeployment
  | .update .. => JobDeployment
  | .delete _ => Unit
  | .status _ => DeploymentStatus
  | .scaling _ => JobScaling
  | .pause _ => Unit
  | .resume _ => Unit
  | .purgeQueue _ => Unit

/-- A job deployment, or an aspect of it. -/
def job (name : String) (suffix : List String := []) : Target :=
  Target.one ["job-deployments"] name suffix

def operation : (c : JobCall) → Operation c.Answer
  | .list => .get (Target.all ["job-deployments"]) (Json.list JobSummary.codec)
  | .get name => .get (job name) JobDeployment.codec
  | .create r =>
    .post (Target.all ["job-deployments"]) (CreateJobDeployment.codec.encode r) JobDeployment.codec
  | .update name r => .patch (job name) (UpdateJobDeployment.codec.encode r) JobDeployment.codec
  | .delete name => .delete (job name)
  | .status name => .get (job name ["status"]) DeploymentStatus.codec
  | .scaling name => .get (job name ["scaling"]) JobScaling.codec
  | .pause name => .tell .post (job name ["pause"])
  | .resume name => .tell .post (job name ["resume"])
  | .purgeQueue name => .tell .post (job name ["purge-queue"])

end JobCall

end CloudClient
