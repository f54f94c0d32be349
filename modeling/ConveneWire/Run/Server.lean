import ConveneWire.Run.EventLog

/-! # The server process

What the services share: the committed tables, the frames written to Bridge
sockets, and an environment for everything else they ask. The environment is
given anew for every call, so nothing is assumed about how it changes. -/

namespace ConveneWire.Run

open Transactional

inductive MemberRole where
  | owner | member
  deriving DecidableEq, Repr

structure Member where
  memberId : MemberId
  role : MemberRole
  deriving DecidableEq, Repr

inductive IntegrationMode where
  | managed | manual | fake | hosted | peer
  deriving DecidableEq, Repr

/-- The execution trust an owner granted, by revision. -/
structure RuntimePolicy where
  centralApproval : Option Nat
  deviceTrust : Option Nat
  deriving DecidableEq, Repr

structure AgentRecord where
  agentId : AgentId
  deviceId : Option DeviceId
  ownerMemberId : MemberId
  integrationMode : IntegrationMode
  supportsInterrupt : Bool
  ownerPrivateOutput : Bool
  runtimeScopeId : Option String
  runtimePolicy : Option RuntimePolicy
  deriving DecidableEq, Repr

/-- The parts of a frozen Context Manifest that shape a delivery. -/
structure ContextManifest where
  centralApprovalRevision : Option Nat
  deviceTrustRevision : Option Nat
  governed : Bool
  deriving DecidableEq, Repr

/-- Frames the server writes to a Bridge socket. -/
inductive BridgeFrame where
  | runRequested (payload : DeliveryPayload)
  | runCancelRequested (messageId : MessageId) (runId : RunId) (traceId : TraceId)
      (agentId : AgentId) (reason : String)
  deriving DecidableEq, Repr

/-- What `connections.send` does: a socket can also raise its own error. -/
inductive SendResult where
  | sent
  | notConnected
  | raised (message : String)
  deriving DecidableEq, Repr

/-- Everything a service call asks besides the tables. `clock` answers the successive readings
of one call. -/
structure Env where
  clock : Nat → Time
  requireRoomMember : RoomId → Except String Member
  getAgent : AgentId → Option AgentRecord
  canDeliverDisclosureDiscussion : RunId → Bool
  /-- `requireDesktopRun` returned. -/
  desktopRunAllowed : RunId → Bool
  getContextManifest : RunId → Option ContextManifest
  hasDesktopAdoption : TaskId → Bool
  plannedArtifacts : RunId → List ArtifactContent
  /-- `connections.send`. -/
  send : DeviceId → SendResult
  hostedCancellation : Option (RunId → MemberId → String → List RepositoryCall)
  peerCancellation : Option (RunId → MemberId → String → List RepositoryCall)

/-- A frame that was written, with the tables as they stood at that moment. -/
structure SentFrame where
  deviceId : DeviceId
  frame : BridgeFrame
  database : Database

/-- One entry into `DeliveryService.dispatch`, with what it finds there. -/
structure DispatchEntry where
  runId : RunId
  env : Env
  database : Database

/-- The committed tables and, as history, what was written to sockets and which Runs were
dispatched. -/
structure Server where
  database : Database
  outbox : List SentFrame
  dispatches : List DispatchEntry

namespace Server

/-- Runs repository code on the tables. -/
def withDatabase {α : Type} (m : Program Database α) : Program Server α :=
  Program.zoom Server.database (fun database s => { s with database }) m

def transact {α : Type} (t : Transaction Database α) : Program Server α :=
  withDatabase (Program.transact t)

def query {α : Type} (f : Database → α) : Program Server α := Program.read fun s => f s.database

/-- A value computed without touching the state. -/
def ofExcept {α : Type} : Except String α → Program Server α
  | .ok a => pure a
  | .error e => Program.fail e

/-- A successful socket write. -/
def written (deviceId : DeviceId) (frame : BridgeFrame) : Program Server Unit :=
  Program.transact fun s =>
    .ok ((), { s with outbox := s.outbox ++ [⟨deviceId, frame, s.database⟩] })

def runCalls (calls : List RepositoryCall) : Program Server Unit :=
  Program.forEach calls fun call => withDatabase call.exec

end Server

end ConveneWire.Run
