/-! # Runs: the data model

The rows of `run-repository.ts` and `delivery-service.ts`, and the tables they
live in. Identifiers are opaque in the source; here they are numbers, compared
and ordered only. Timestamps are milliseconds. -/

namespace ConveneWire.Run

abbrev RunId := Nat
abbrev TraceId := Nat
abbrev RoomId := Nat
abbrev TaskId := Nat
abbrev MessageId := Nat
abbrev MemberId := Nat
abbrev AgentId := Nat
abbrev DeviceId := Nat
abbrev Time := Nat

inductive RunState where
  | queued | delivered | working | inputRequired
  | completed | failed | canceled | expired | outcomeUnknown
  deriving DecidableEq, Repr

namespace RunState

/-- `terminalStates` of the source. -/
def isTerminal : RunState → Bool
  | .completed | .failed | .canceled | .expired | .outcomeUnknown => true
  | .queued | .delivered | .working | .inputRequired => false

/-- The spelling used in error messages. -/
def text : RunState → String
  | .queued => "queued"
  | .delivered => "delivered"
  | .working => "working"
  | .inputRequired => "input_required"
  | .completed => "completed"
  | .failed => "failed"
  | .canceled => "canceled"
  | .expired => "expired"
  | .outcomeUnknown => "outcome_unknown"

end RunState

/-- The statuses a `RuntimeEvent` can carry: every Run state but `queued`. -/
inductive RuntimeStatus where
  | delivered | working | inputRequired
  | completed | failed | canceled | expired | outcomeUnknown
  deriving DecidableEq, Repr

def RuntimeStatus.toState : RuntimeStatus → RunState
  | .delivered => .delivered
  | .working => .working
  | .inputRequired => .inputRequired
  | .completed => .completed
  | .failed => .failed
  | .canceled => .canceled
  | .expired => .expired
  | .outcomeUnknown => .outcomeUnknown

structure RunRecord where
  runId : RunId
  traceId : TraceId
  roomId : RoomId
  taskId : TaskId
  triggerMessageId : MessageId
  requesterMemberId : MemberId
  targetAgentId : AgentId
  state : RunState
  lastSequence : Nat
  deadlineAt : Time
  createdAt : Time
  updatedAt : Time
  terminalAt : Option Time
  orchestrationKey : Option String
  deriving DecidableEq, Repr

structure RuntimeError where
  code : String
  message : String
  retryable : Bool
  details : Option String := none
  deriving DecidableEq, Repr

inductive SessionDisposition where
  | started | resumed | recreated
  deriving DecidableEq, Repr

structure RuntimeSession where
  disposition : SessionDisposition
  contextCursor : Nat
  runtimeScopeId : Option String := none
  resultEvidenceRevision : Option Nat := none
  deriving DecidableEq, Repr

structure RuntimeTaskClarification where
  question : String
  choices : Option (List String) := none
  deriving DecidableEq, Repr

inductive ActivityKind where
  | reasoning | tool
  deriving DecidableEq, Repr

inductive ActivityPhase where
  | started | updated | completed | failed
  deriving DecidableEq, Repr

structure RuntimeActivity where
  activityId : String
  kind : ActivityKind
  phase : ActivityPhase
  label : Option String := none
  content : Option String := none
  reset : Bool := false
  deriving DecidableEq, Repr

/-- `RuntimeEvent`. A sequence is whatever number the sender wrote, so it may be
zero or negative. -/
inductive RuntimeEvent where
  | status (sequence : Int) (status : RuntimeStatus) (error : Option RuntimeError)
      (session : Option RuntimeSession) (clarification : Option RuntimeTaskClarification)
  | activity (sequence : Int) (activity : RuntimeActivity)
  | output (sequence : Int) (content : String) (reset : Bool)
  | reply (sequence : Int) (content : String) (assessment : Option String)
  deriving DecidableEq, Repr

namespace RuntimeEvent

def sequence : RuntimeEvent → Int
  | .status n .. | .activity n .. | .output n .. | .reply n .. => n

/-- The Run state the event moves to, if it is a status event. -/
def status? : RuntimeEvent → Option RunState
  | .status _ next .. => some next.toState
  | .activity .. | .output .. | .reply .. => none

def clarification? : RuntimeEvent → Option RuntimeTaskClarification
  | .status _ _ _ _ clarification => clarification
  | .activity .. | .output .. | .reply .. => none

def session? : RuntimeEvent → Option RuntimeSession
  | .status _ _ _ session _ => session
  | .activity .. | .output .. | .reply .. => none

/-- A status event that ends the Run. -/
def isTerminal (event : RuntimeEvent) : Bool :=
  event.status?.any RunState.isTerminal

/-- A status event without error, session or clarification. -/
def plainStatus (sequence : Int) (status : RuntimeStatus) : RuntimeEvent :=
  .status sequence status none none none

def failedStatus (sequence : Int) (status : RuntimeStatus) (error : RuntimeError) :
    RuntimeEvent :=
  .status sequence status (some error) none none

end RuntimeEvent

structure RunEventRecord where
  runId : RunId
  traceId : TraceId
  sequence : Int
  event : RuntimeEvent
  createdAt : Time
  deriving DecidableEq, Repr

/-! ## Cancellation intents -/

inductive IntentState where
  | pending | resolved
  deriving DecidableEq, Repr

structure RunCancellationIntent where
  runId : RunId
  messageId : MessageId
  agentId : AgentId
  deviceId : DeviceId
  requestedByMemberId : MemberId
  reason : String
  state : IntentState
  createdAt : Time
  lastSentAt : Option Time
  sendCount : Nat
  ackDeadlineAt : Time
  resolvedAt : Option Time
  terminalStatus : Option RunState
  deriving DecidableEq, Repr

structure RunCancellationRequest where
  run : RunRecord
  intent : Option RunCancellationIntent := none
  created : Bool
  deriving DecidableEq, Repr

/-! ## Deliveries -/

inductive DeliveryState where
  | pending | accepted
  deriving DecidableEq, Repr

/-- The pinned content of one Artifact reference. -/
structure ArtifactContent where
  artifactId : String
  contentId : String
  logicalAlias : String
  mediaType : String
  sha256 : String
  sizeBytes : Nat
  deriving DecidableEq, Repr

/-- The part of `DeliveryPayload` that the server reads again after freezing it. -/
structure DeliveryPayload where
  runId : RunId
  traceId : TraceId
  targetAgentId : AgentId
  deliveryAttemptId : Nat
  idempotencyKey : Nat
  deviceTrust : Option Nat
  centralApproval : Option Nat
  ownerPrivateOutput : Bool
  runtimeScopeId : Option String
  artifactRefs : List ArtifactContent
  deadline : Time
  deriving DecidableEq, Repr

structure DeliveryRecord where
  deliveryAttemptId : Nat
  traceId : TraceId
  runId : RunId
  deviceId : DeviceId
  idempotencyKey : Nat
  payload : DeliveryPayload
  state : DeliveryState
  sendCount : Nat
  createdAt : Time
  lastSentAt : Option Time
  acceptedAt : Option Time
  deriving DecidableEq, Repr

/-! ## Messages, clarifications and reply bookkeeping -/

structure Room where
  roomId : RoomId
  nextMessageSequence : Nat
  deriving DecidableEq, Repr

inductive SenderType where
  | member | agent | system
  deriving DecidableEq, Repr

structure MessageRecord where
  messageId : MessageId
  traceId : TraceId
  roomId : RoomId
  taskId : TaskId
  sequence : Nat
  senderType : SenderType
  senderId : Nat
  content : String
  parentMessageId : Option MessageId
  createdAt : Time
  deriving DecidableEq, Repr

inductive ClarificationState where
  | waiting | resumed | canceled
  deriving DecidableEq, Repr

inductive ClarificationResolution where
  | runCanceled | runExpired | runTerminal
  deriving DecidableEq, Repr

structure TaskClarificationRecord where
  clarificationId : Nat
  taskId : TaskId
  roomId : RoomId
  requestingRunId : RunId
  targetAgentId : AgentId
  question : String
  choices : Option (List String)
  state : ClarificationState
  questionMessageId : MessageId
  createdAt : Time
  resolutionReason : Option ClarificationResolution
  canceledAt : Option Time
  deriving DecidableEq, Repr

/-- The two columns of `agent_tasks` that Run events write. -/
structure AgentTask where
  taskId : TaskId
  lastRoomSequence : Nat
  updatedAt : Time
  deriving DecidableEq, Repr

structure RunReplyRoutingIntent where
  parentRunId : RunId
  replySequence : Int
  content : String
  completed : Bool
  createdAt : Time
  deriving DecidableEq, Repr

structure RunReplyMessageProjection where
  runId : RunId
  replySequence : Int
  messageId : MessageId
  projectedAt : Time
  deriving DecidableEq, Repr

/-- The tables that Run, cancellation and delivery code reads and writes. -/
structure Database where
  runs : List RunRecord
  runEvents : List RunEventRecord
  cancellationIntents : List RunCancellationIntent
  deliveries : List DeliveryRecord
  rooms : List Room
  messages : List MessageRecord
  clarifications : List TaskClarificationRecord
  agentTasks : List AgentTask
  replyRoutingIntents : List RunReplyRoutingIntent
  replyProjections : List RunReplyMessageProjection
  /-- The next identifier `createOpaqueId` hands out. -/
  nextId : Nat
  deriving DecidableEq, Repr

end ConveneWire.Run
