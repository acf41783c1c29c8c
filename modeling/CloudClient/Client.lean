import CloudClient.Config.Environment

/-!
Clients: a configuration and the way in which requests leave.
-/

namespace CloudClient

inductive Transport where
  /-- Real connections. -/
  | network
  /-- Whatever the caller provides. -/
  | provided
  deriving DecidableEq, Repr

structure Client where
  config : Config
  transport : Transport
  deriving DecidableEq, Repr

/-- Whether a byte may stand in the value of a header. -/
def Transport.isHeaderByte (b : UInt8) : Bool :=
  b == 9 || (0x20 ≤ b && b != 0x7F)

namespace Client

/-- Connections are set up with the user agent, which has to fit into a header. -/
def new (config : Config) (transport : Transport := .network) : Except ConfigFault Client :=
  match transport with
  | .provided => .ok ⟨config, .provided⟩
  | .network =>
    if (Utf8.encode config.userAgent).all Transport.isHeaderByte then .ok ⟨config, .network⟩
    else .error .badUserAgent

def ofCredentials (clientId clientSecret : String) : Except ConfigFault Client := do
  new (← (Draft.ofSettings [.clientId clientId, .clientSecret clientSecret]).toConfig)

def ofEnvironment (env : Environment) : Except ConfigFault Client := do
  new (← Config.ofEnvironment env)

def describe (c : Client) : String :=
  Text.describeOpen "DataCrunchClient" [("config", c.config.describe)]

end Client

/-- The settings made so far, and the transport. -/
structure ClientDraft where
  draft : Draft := {}
  transport : Transport := .network
  deriving DecidableEq, Repr

namespace ClientDraft

def set (c : ClientDraft) (s : Setting) : ClientDraft :=
  { c with draft := c.draft.set s }

def ofSettings (settings : List Setting) (transport : Transport := .network) : ClientDraft :=
  settings.foldl set { transport }

/-- Has requests leave in the caller's own way. -/
def provide (c : ClientDraft) : ClientDraft :=
  { c with transport := .provided }

def toClient (c : ClientDraft) : Except ConfigFault Client := do
  Client.new (← c.draft.toConfig) c.transport

end ClientDraft

end CloudClient
