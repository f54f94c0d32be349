import ConveneWire.Run.Types
import ConveneWire.Lib.Process

/-! # The Bridge: what it holds for one Run

`bridge/internal/delivery/inbox.go` keeps two files for a Run: the inbox record
and, while a cancellation is being carried out, its tombstone. Everything the
Bridge does for one Run goes through them, one call of the inbox at a time, so
the model is the slot of one Run and the routines of `delivery` are processes
over it. -/

namespace ConveneWire.Bridge

open Run (RuntimeEvent RuntimeStatus RuntimeError RuntimeSession RuntimeTaskClarification)

/-! ## Identities -/

/-- The contract patterns: a fixed head, then 8 to 128 letters, digits, `_` or `-`. -/
def matchesContractID (head value : String) : Bool :=
  let rest := value.toList.drop head.length
  head.toList.isPrefixOf value.toList && decide (8 ≤ rest.length) && decide (rest.length ≤ 128) &&
    rest.all fun ch => ch.isAlphanum || ch == '_' || ch == '-'

def isContractRunID : String → Bool := matchesContractID "run_"
def isContractTraceID : String → Bool := matchesContractID "trace_"
def isContractAgentID : String → Bool := matchesContractID "agent_"

/-! ## Requests -/

structure SupplementalOffer where
  operationId : String
  discussionId : String
  waveId : String
  turnId : String
  deriving DecidableEq, Repr

/-- The part of `RunRequestedPayload` that the delivery package reads; `body` is the rest. -/
structure RunRequest where
  runId : String
  traceId : String
  targetAgentId : String
  idempotencyKey : String
  governed : Bool
  desktopAdoption : Bool
  ownerPrivateOutput : Bool
  pinnedArtifactContent : Bool
  supplementalEvidence : Option SupplementalOffer
  body : String
  deriving DecidableEq, Repr

structure CancelRequest where
  runId : String
  traceId : String
  agentId : String
  messageId : String
  reason : String
  deriving DecidableEq, Repr

structure CancellationTombstone where
  runId : String
  traceId : String
  agentId : String
  messageId : String
  reason : String
  deriving DecidableEq, Repr

/-! ## Records -/

inductive State where
  | preparing | accepted | working | inputRequired
  | completed | failed | canceled | outcomeUnknown
  deriving DecidableEq, Repr

namespace State

def text : State → String
  | .preparing => "preparing"
  | .accepted => "accepted"
  | .working => "working"
  | .inputRequired => "input_required"
  | .completed => "completed"
  | .failed => "failed"
  | .canceled => "canceled"
  | .outcomeUnknown => "outcome_unknown"

/-- `isCancellationTerminalState`: nothing is left to cancel. -/
def isCancellationTerminal : State → Bool
  | .completed | .failed | .canceled | .outcomeUnknown => true
  | .preparing | .accepted | .working | .inputRequired => false

/-- `isTerminalState`: the Runtime has nothing more to report. -/
def isTerminal : State → Bool
  | .inputRequired => true
  | state => state.isCancellationTerminal

/-- `stateForStatus`. -/
def ofStatus : RuntimeStatus → State
  | .working => .working
  | .inputRequired => .inputRequired
  | .completed => .completed
  | .failed => .failed
  | .canceled => .canceled
  | .delivered | .expired | .outcomeUnknown => .outcomeUnknown

/-- A Run that has not been handed to its Runtime. -/
def isWaiting : State → Bool
  | .preparing | .accepted => true
  | .working | .inputRequired | .completed | .failed | .canceled | .outcomeUnknown => false

end State

structure SupplementalEvidence where
  offer : SupplementalOffer
  sourceReplySequence : Int
  deriving DecidableEq, Repr

/-- One entry of a record's outbox. Supplemental evidence carries no sequence. -/
inductive InboxEvent where
  | runtime (event : RuntimeEvent)
  | supplementalEvidence (evidence : SupplementalEvidence)
  deriving DecidableEq, Repr

structure Record where
  runId : String
  idempotencyKey : String
  payloadHash : String
  request : RunRequest
  state : State
  lastSequence : Int
  events : List InboxEvent
  deriving DecidableEq, Repr

/-- The sequenced entries of an outbox. -/
def InboxEvent.runtime? : InboxEvent → Option RuntimeEvent
  | .runtime event => some event
  | .supplementalEvidence _ => none

def Record.runtimeEvents (record : Record) : List RuntimeEvent :=
  record.events.filterMap InboxEvent.runtime?

/-- The frames the Bridge sends about a Run. `run.accepted` is sequence 1. -/
inductive Frame where
  | accepted (materializationFailed : Bool)
  | event (event : RuntimeEvent)
  | supplementalEvidence (evidence : SupplementalEvidence)
  deriving DecidableEq, Repr

def InboxEvent.frame : InboxEvent → Frame
  | .runtime event => .event event
  | .supplementalEvidence evidence => .supplementalEvidence evidence

/-! ## The slot of one Run -/

/-- A tombstone that was recorded. It is acknowledged once it has been removed again
after its canceled status was sent, while the Run had no inbox record. -/
structure Fence where
  tombstone : CancellationTombstone
  acknowledged : Bool
  deriving DecidableEq, Repr

/-- The tombstone is one for the request. -/
def Fence.Matches (fence : Fence) (request : RunRequest) : Prop :=
  fence.tombstone.runId = request.runId ∧ fence.tombstone.traceId = request.traceId ∧
    fence.tombstone.agentId = request.targetAgentId

/-- An invocation of `OnNew`, with the tombstones recorded before its last check. -/
structure Start where
  request : RunRequest
  checked : List Fence
  deriving DecidableEq, Repr

/-- What the Bridge holds for one Run. The last four fields are history: the frames
written to a connection, the tombstones recorded, those recorded before the latest
tombstone check, and the invocations of the Runtime. -/
structure RunSlot where
  record : Option Record
  tombstone : Option CancellationTombstone
  /-- The worker's context was canceled by a cancel request for the Run. -/
  explicitCancel : Bool
  sent : List Frame
  fences : List Fence
  checked : List Fence
  starts : List Start
  deriving DecidableEq, Repr

def RunSlot.empty : RunSlot := ⟨none, none, false, [], [], [], []⟩

/-! ## Answers of the environment -/

/-- A file operation succeeds, fails and changes nothing, or fails after its effect. -/
inductive Io where
  | ok | failsBefore | failsAfter
  deriving DecidableEq, Repr

/-- A write to the connection succeeds, fails, or fails although the peer will get it. -/
inductive Delivery where
  | sent | lost | broken
  deriving DecidableEq, Repr

inductive Preparation where
  | ready | retryable | failed
  deriving DecidableEq, Repr

/-- `bridgeruntime.ActivityEvent`, with the Runtime's own spelling of kind and phase. -/
structure AdapterActivity where
  id : String
  kind : String
  phase : String
  label : String
  content : String
  reset : Bool
  deriving DecidableEq, Repr

/-- `bridgeruntime.Event`: the first of its parts that is set decides what it is. -/
inductive AdapterEvent where
  | status (status : RuntimeStatus) (error : Option RuntimeError)
      (session : Option RuntimeSession) (clarification : Option RuntimeTaskClarification)
  | activity (activity : AdapterActivity)
  | output (content : String) (reset : Bool)
  | reply (content : String) (assessment : Option String)
  deriving DecidableEq, Repr

/-- What the Bridge finds out about the Agent's Runtime before it starts it. -/
structure RuntimeAnswer where
  available : Bool
  supportsDesktopHandoff : Bool
  ownerPrivateOutput : Bool
  artifactsValid : Bool
  deriving DecidableEq, Repr

structure Answer where
  io : Io
  delivery : Delivery
  preparation : Preparation
  gateAcquired : Bool
  beforeStart : Bool
  runtime : RuntimeAnswer
  /-- How often the Runtime reports. -/
  reports : Nat
  event : AdapterEvent
  /-- The Runtime's own verdict on its execution. -/
  executed : Bool
  deriving DecidableEq, Repr

/-- What is fixed when the Bridge starts. `redact` stands for the redaction of local
paths in Runtime text, `payloadHash` for the digest of a request. -/
structure Config where
  payloadHash : RunRequest → String
  redact : String → String
  shareReasoningSummaries : Bool
  hasGate : Bool
  hasBeforeStart : Bool

abbrev Routine := Concurrent.Process RunSlot Answer

end ConveneWire.Bridge
