import CloudClient.Json.Record

/-!
What belongs to an account or to the provider as a whole: the balance, images, locations, SSH keys
and startup scripts.
-/

namespace CloudClient

open Json (Codec Field Shape)

structure Balance where
  amount : Binary64
  currency : String
  deriving DecidableEq, Repr

def Balance.shape : Shape Balance Balance :=
  Shape.of Balance Balance.mk
    |>.and (·.amount) (.required "amount" Json.price)
    |>.and (·.currency) (.required "currency" Json.string)

def Balance.codec : Codec Balance := Balance.shape.record "struct Balance"

structure Location where
  code : String
  name : String
  countryCode : String
  deriving DecidableEq, Repr

def Location.shape : Shape Location Location :=
  Shape.of Location Location.mk
    |>.and (·.code) (.required "code" Json.string)
    |>.and (·.name) (.required "name" Json.string)
    |>.and (·.countryCode) (.defaulted "country_code" Json.string "")

def Location.codec : Codec Location := Location.shape.record "struct Location"

/-- An operating system image. -/
structure Image where
  id : String
  imageType : String
  name : String
  isDefault : Bool
  details : List String
  isCluster : Bool
  category : Option String
  deriving DecidableEq, Repr

def Image.shape : Shape Image Image :=
  Shape.of Image Image.mk
    |>.and (·.id) (.required "id" Json.string)
    |>.and (·.imageType) (.required "image_type" Json.string)
    |>.and (·.name) (.required "name" Json.string)
    |>.and (·.isDefault) (.defaulted "is_default" Json.boolean false)
    |>.and (·.details) (.defaulted "details" (Json.list Json.string) [])
    |>.and (·.isCluster) (.defaulted "is_cluster" Json.boolean false)
    |>.and (·.category) (.nullable "category" Json.string)

def Image.codec : Codec Image := Image.shape.record "struct Image"

structure SshKey where
  id : String
  name : String
  key : String
  deriving DecidableEq, Repr

def SshKey.shape : Shape SshKey SshKey :=
  Shape.of SshKey SshKey.mk
    |>.and (·.id) (.required "id" Json.string)
    |>.and (·.name) (.required "name" Json.string)
    |>.and (·.key) (.required "key" Json.string)

def SshKey.codec : Codec SshKey := SshKey.shape.record "struct SshKey"

structure CreateSshKey where
  name : String
  key : String
  deriving DecidableEq, Repr

def CreateSshKey.shape : Shape CreateSshKey CreateSshKey :=
  Shape.of CreateSshKey CreateSshKey.mk
    |>.and (·.name) (.required "name" Json.string)
    |>.and (·.key) (.required "key" Json.string)

def CreateSshKey.codec : Codec CreateSshKey :=
  CreateSshKey.shape.record "struct CreateSshKeyRequest"

structure DeleteSshKeys where
  keys : List String
  deriving DecidableEq, Repr

def DeleteSshKeys.shape : Shape DeleteSshKeys DeleteSshKeys :=
  Shape.of DeleteSshKeys DeleteSshKeys.mk
    |>.and (·.keys) (.required "keys" (Json.list Json.string))

def DeleteSshKeys.codec : Codec DeleteSshKeys :=
  DeleteSshKeys.shape.record "struct DeleteSshKeysRequest"

/-- A script that an instance runs when it first boots. -/
structure StartupScript where
  id : String
  name : String
  script : String
  deriving DecidableEq, Repr

def StartupScript.shape : Shape StartupScript StartupScript :=
  Shape.of StartupScript StartupScript.mk
    |>.and (·.id) (.required "id" Json.string)
    |>.and (·.name) (.required "name" Json.string)
    |>.and (·.script) (.required "script" Json.string)

def StartupScript.codec : Codec StartupScript := StartupScript.shape.record "struct StartupScript"

structure CreateStartupScript where
  name : String
  script : String
  deriving DecidableEq, Repr

def CreateStartupScript.shape : Shape CreateStartupScript CreateStartupScript :=
  Shape.of CreateStartupScript CreateStartupScript.mk
    |>.and (·.name) (.required "name" Json.string)
    |>.and (·.script) (.required "script" Json.string)

def CreateStartupScript.codec : Codec CreateStartupScript :=
  CreateStartupScript.shape.record "struct CreateStartupScriptRequest"

structure DeleteStartupScripts where
  scripts : List String
  deriving DecidableEq, Repr

def DeleteStartupScripts.shape : Shape DeleteStartupScripts DeleteStartupScripts :=
  Shape.of DeleteStartupScripts DeleteStartupScripts.mk
    |>.and (·.scripts) (.required "scripts" (Json.list Json.string))

def DeleteStartupScripts.codec : Codec DeleteStartupScripts :=
  DeleteStartupScripts.shape.record "struct DeleteStartupScriptsRequest"

end CloudClient
