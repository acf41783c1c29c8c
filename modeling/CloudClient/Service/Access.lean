import CloudClient.Operation
import CloudClient.Resource.Account

/-!
Calls on SSH keys and on startup scripts.
-/

namespace CloudClient

open Http (Target)

inductive SshKeyCall where
  | list
  | get (id : String)
  | create (r : CreateSshKey)
  | delete (id : String)
  | deleteMany (ids : List String)
  deriving DecidableEq, Repr

namespace SshKeyCall

abbrev Answer : SshKeyCall → Type
  | .list => List SshKey
  | .get _ => SshKey
  | .create _ => String
  | .delete _ => Unit
  | .deleteMany _ => Unit

def operation : (c : SshKeyCall) → Operation c.Answer
  | .list => .get (Target.all ["sshkeys"]) (Json.list SshKey.codec)
  | .get id => .get (Target.one ["sshkeys"] id) SshKey.codec
  | .create r => .create (Target.all ["sshkeys"]) (CreateSshKey.codec.encode r)
  | .delete id => .delete (Target.one ["sshkeys"] id)
  | .deleteMany ids =>
    .tell .delete (Target.all ["sshkeys"]) (some (DeleteSshKeys.codec.encode ⟨ids⟩))

end SshKeyCall

inductive StartupScriptCall where
  | list
  | get (id : String)
  | create (r : CreateStartupScript)
  | delete (id : String)
  | deleteMany (ids : List String)
  deriving DecidableEq, Repr

namespace StartupScriptCall

abbrev Answer : StartupScriptCall → Type
  | .list => List StartupScript
  | .get _ => StartupScript
  | .create _ => String
  | .delete _ => Unit
  | .deleteMany _ => Unit

def operation : (c : StartupScriptCall) → Operation c.Answer
  | .list => .get (Target.all ["scripts"]) (Json.list StartupScript.codec)
  | .get id => .get (Target.one ["scripts"] id) StartupScript.codec
  | .create r => .create (Target.all ["scripts"]) (CreateStartupScript.codec.encode r)
  | .delete id => .delete (Target.one ["scripts"] id)
  | .deleteMany ids =>
    .tell .delete (Target.all ["scripts"]) (some (DeleteStartupScripts.codec.encode ⟨ids⟩))

end StartupScriptCall

end CloudClient
