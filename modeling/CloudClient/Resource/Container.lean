import CloudClient.Json.Choice
import CloudClient.Json.Tagged

/-!
Containers and the settings that container and job deployments share.
-/

namespace CloudClient

open Json (Case Choice Codec Field Shape Tagged)

structure Healthcheck where
  enabled : Bool
  port : Option UInt16
  path : Option String
  deriving DecidableEq, Repr

def Healthcheck.shape : Shape Healthcheck Healthcheck :=
  Shape.of Healthcheck Healthcheck.mk
    |>.and (·.enabled) (.required "enabled" Json.boolean)
    |>.and (·.port) (.unset "port" Json.uint16)
    |>.and (·.path) (.unset "path" Json.string)

def Healthcheck.codec : Codec Healthcheck := Healthcheck.shape.record "struct HealthcheckSettings"

/-- What runs in place of the entrypoint and the command of an image. -/
structure EntrypointOverrides where
  enabled : Bool
  entrypoint : Option (List String)
  cmd : Option (List String)
  deriving DecidableEq, Repr

def EntrypointOverrides.shape : Shape EntrypointOverrides EntrypointOverrides :=
  Shape.of EntrypointOverrides EntrypointOverrides.mk
    |>.and (·.enabled) (.required "enabled" Json.boolean)
    |>.and (·.entrypoint) (.unset "entrypoint" (Json.list Json.string))
    |>.and (·.cmd) (.unset "cmd" (Json.list Json.string))

def EntrypointOverrides.codec : Codec EntrypointOverrides :=
  EntrypointOverrides.shape.record "struct EntrypointOverrides"

/-- Whether the value of an environment variable is used as it is or names a secret. -/
inductive EnvVar.Kind where
  | plain
  | secret
  deriving DecidableEq, Repr

def EnvVar.Kind.name : EnvVar.Kind → String
  | .plain => "plain"
  | .secret => "secret"

def EnvVar.Kind.choice : Choice EnvVar.Kind where
  names := [.plain, .secret].map fun k => (k.name, k)
  other := none
  name := EnvVar.Kind.name

def EnvVar.Kind.codec : Codec EnvVar.Kind := EnvVar.Kind.choice.codec

structure EnvVar where
  name : String
  value : String
  kind : EnvVar.Kind
  deriving DecidableEq, Repr

def EnvVar.shape : Shape EnvVar EnvVar :=
  Shape.of EnvVar EnvVar.mk
    |>.and (·.name) (.required "name" Json.string)
    |>.and (·.value) (.required "value_or_reference_to_secret" Json.string)
    |>.and (·.kind) (.required "type" EnvVar.Kind.codec)

def EnvVar.codec : Codec EnvVar := EnvVar.shape.record "struct EnvVar"

inductive VolumeMount where
  | scratch (mountPath : String)
  | secret (mountPath secretName : String) (fileNames : Option (List String))
  | shared (mountPath volumeId : String)
  | memory (mountPath : String) (megabytes : UInt32)
  deriving DecidableEq, Repr

namespace VolumeMount

def scratchCase : Case VolumeMount :=
  (Shape.of String scratch
    |>.and id (.required "mount_path" Json.string)).case "scratch" "VolumeMount::Scratch" fun
      | .scratch path => some path
      | _ => none

def secretCase : Case VolumeMount :=
  (Shape.of (String × String × Option (List String)) secret
    |>.and (·.1) (.required "mount_path" Json.string)
    |>.and (·.2.1) (.required "secret_name" Json.string)
    |>.and (·.2.2) (.unset "file_names" (Json.list Json.string))).case
      "secret" "VolumeMount::Secret" fun
      | .secret path name files => some (path, name, files)
      | _ => none

def sharedCase : Case VolumeMount :=
  (Shape.of (String × String) shared
    |>.and (·.1) (.required "mount_path" Json.string)
    |>.and (·.2) (.required "volume_id" Json.string)).case "shared" "VolumeMount::Shared" fun
      | .shared path id => some (path, id)
      | _ => none

def memoryCase : Case VolumeMount :=
  (Shape.of (String × UInt32) memory
    |>.and (·.1) (.required "mount_path" Json.string)
    |>.and (·.2) (.required "size_in_mb" Json.uint32)).case "memory" "VolumeMount::Memory" fun
      | .memory path size => some (path, size)
      | _ => none

def union : Tagged VolumeMount where
  name := "VolumeMount"
  cases := [scratchCase, secretCase, sharedCase, memoryCase]

def codec : Codec VolumeMount := union.codec

end VolumeMount

structure Container where
  name : Option String := none
  image : String
  exposedPort : UInt16
  healthcheck : Option Healthcheck := none
  entrypointOverrides : Option EntrypointOverrides := none
  env : List EnvVar := []
  volumeMounts : List VolumeMount := []
  deriving DecidableEq, Repr

def Container.shape : Shape Container Container :=
  Shape.of Container Container.mk
    |>.and (·.name) (.unset "name" Json.string)
    |>.and (·.image) (.required "image" Json.string)
    |>.and (·.exposedPort) (.required "exposed_port" Json.uint16)
    |>.and (·.healthcheck) (.unset "healthcheck" Healthcheck.codec)
    |>.and (·.entrypointOverrides) (.unset "entrypoint_overrides" EntrypointOverrides.codec)
    |>.and (·.env) (.defaulted "env" (Json.list EnvVar.codec) [])
    |>.and (·.volumeMounts) (.defaulted "volume_mounts" (Json.list VolumeMount.codec) [])

def Container.codec : Codec Container := Container.shape.record "struct Container"

/-- What each replica runs on. -/
structure ComputeResource where
  name : String
  size : UInt32
  deriving DecidableEq, Repr

def ComputeResource.shape : Shape ComputeResource ComputeResource :=
  Shape.of ComputeResource ComputeResource.mk
    |>.and (·.name) (.required "name" Json.string)
    |>.and (·.size) (.required "size" Json.uint32)

def ComputeResource.codec : Codec ComputeResource :=
  ComputeResource.shape.record "struct ComputeResource"

structure CredentialsRef where
  name : String
  deriving DecidableEq, Repr

def CredentialsRef.shape : Shape CredentialsRef CredentialsRef :=
  Shape.of CredentialsRef CredentialsRef.mk
    |>.and (·.name) (.required "name" Json.string)

def CredentialsRef.codec : Codec CredentialsRef :=
  CredentialsRef.shape.record "struct RegistryCredentialsRef"

structure RegistrySettings where
  isPrivate : Bool := false
  credentials : Option CredentialsRef := none
  deriving DecidableEq, Repr

def RegistrySettings.shape : Shape RegistrySettings RegistrySettings :=
  Shape.of RegistrySettings RegistrySettings.mk
    |>.and (·.isPrivate) (.required "is_private" Json.boolean)
    |>.and (·.credentials) (.unset "credentials" CredentialsRef.codec)

def RegistrySettings.codec : Codec RegistrySettings :=
  RegistrySettings.shape.record "struct ContainerRegistrySettings"

end CloudClient
