import Mathlib.Data.List.Sort
import ConveneWire.Lib.Program
import ConveneWire.Lib.Table
import ConveneWire.Run.Types

/-! # `run-repository.ts`

Every method that runs inside `transactions.immediate` is a `Transaction`: it
either returns the new tables or fails and leaves the old ones. Methods that
loop over several transactions are `Program`s. -/

namespace ConveneWire.Run

open Transactional

structure AppliedRunEvent where
  applied : Bool
  run : RunRecord
  deriving DecidableEq, Repr

/-- The `run_events` row of an event. -/
def RunRecord.eventRow (run : RunRecord) (event : RuntimeEvent) (now : Time) : RunEventRecord :=
  ⟨run.runId, run.traceId, event.sequence, event, now⟩

def RunRecord.advance (nextState : RunState) (sequence : Int) (now : Time) (row : RunRecord) :
    RunRecord :=
  { row with
    state := nextState
    lastSequence := sequence.toNat
    updatedAt := now
    terminalAt := if nextState.isTerminal then some now else none }

def RunCancellationIntent.resolve (terminalStatus : RunState) (resolvedAt : Time)
    (row : RunCancellationIntent) : RunCancellationIntent :=
  { row with
    state := .resolved, resolvedAt := some resolvedAt, terminalStatus := some terminalStatus }

def RunCancellationIntent.recordSend (sentAt : Time) (row : RunCancellationIntent) :
    RunCancellationIntent :=
  { row with sendCount := row.sendCount + 1, lastSentAt := some sentAt }

def DeliveryRecord.recordSend (sentAt : Time) (row : DeliveryRecord) : DeliveryRecord :=
  { row with sendCount := row.sendCount + 1, lastSentAt := some sentAt }

def DeliveryRecord.accept (now : Time) (row : DeliveryRecord) : DeliveryRecord :=
  { row with state := .accepted, acceptedAt := some now }

namespace Database

/-! ## Queries -/

variable (db : Database)

def getRun (runId : RunId) : Option RunRecord :=
  Table.lookup RunRecord.runId runId db.runs

def getCancellationIntent (runId : RunId) : Option RunCancellationIntent :=
  Table.lookup RunCancellationIntent.runId runId db.cancellationIntents

/-- `getByRun` of the delivery service and `getCancellationDelivery`. -/
def getDelivery (runId : RunId) : Option DeliveryRecord :=
  Table.lookup DeliveryRecord.runId runId db.deliveries

/-- The stored events of one Run. -/
def listEvents (runId : RunId) : List RunEventRecord :=
  Table.select RunEventRecord.runId runId db.runEvents

def getMessage (messageId : MessageId) : Option MessageRecord :=
  Table.lookup MessageRecord.messageId messageId db.messages

/-! ## Statements -/

def insertEvent (run : RunRecord) (event : RuntimeEvent) (now : Time) : Database :=
  { db with runEvents := db.runEvents ++ [run.eventRow event now] }

/-- The trigger `task_clarifications_close_terminal_run`. -/
def closeWaitingClarifications (runId : RunId) (state : RunState) (now : Time) : Database :=
  let reason : ClarificationResolution := match state with
    | .canceled => .runCanceled
    | .expired => .runExpired
    | _ => .runTerminal
  let clarifications := Table.update
    (fun row => row.requestingRunId = runId ∧ row.state = .waiting)
    (fun row => { row with
      state := .canceled, resolutionReason := some reason, canceledAt := some now })
    db.clarifications
  { db with clarifications }

/-- `UPDATE runs SET state, last_sequence, updated_at, terminal_at`, with its trigger. -/
def updateRun (current : RunRecord) (nextState : RunState) (sequence : Int) (now : Time) : Database
    :=
  let runs := Table.update (fun row => row.runId = current.runId)
    (RunRecord.advance nextState sequence now) db.runs
  let updated := { db with runs }
  if current.state ≠ nextState ∧ nextState.isTerminal then
    updated.closeWaitingClarifications current.runId nextState now
  else updated

def resolveCancellationIntent (runId : RunId) (terminalStatus : RunState) (resolvedAt : Time) :
    Database :=
  let cancellationIntents := Table.update
    (fun row => row.runId = runId ∧ row.state = .pending)
    (RunCancellationIntent.resolve terminalStatus resolvedAt) db.cancellationIntents
  { db with cancellationIntents }

/-- `UPDATE rooms SET next_message_sequence = next_message_sequence + 1 … RETURNING`. -/
def takeMessageSequence (roomId : RoomId) : Option (Nat × Database) :=
  match Table.lookup Room.roomId roomId db.rooms with
  | none => none
  | some room =>
    let rooms := Table.update
      (fun row => row.roomId = roomId)
      (fun row => { row with nextMessageSequence := row.nextMessageSequence + 1 })
      db.rooms
    some (room.nextMessageSequence + 1, { db with rooms })

/-- Appends a message of the Run's target Agent and returns its identifier. -/
def insertAgentMessage (run : RunRecord) (sequence : Nat) (content : String) (createdAt : Time) :
    MessageId × Database :=
  (db.nextId, { db with
    messages := db.messages ++ [⟨db.nextId, run.traceId, run.roomId, run.taskId, sequence, .agent,
      run.targetAgentId, content, some run.triggerMessageId, createdAt⟩]
    nextId := db.nextId + 1 })

/-- The clarification branch of `applyRuntimeEvent`. -/
def openClarification (current : RunRecord) (event : RuntimeEvent) (now : Time) : Except String
    Database :=
  match event.clarification? with
  | none => .ok db
  | some clarification =>
    if event.status? ≠ some .inputRequired ∨ current.orchestrationKey.isSome then
      .error "Task clarification is allowed only for a non-Discussion input-required Run"
    else if db.clarifications.any fun row => row.requestingRunId = current.runId then
      .error "Run already owns a Task clarification"
    else match db.takeMessageSequence current.roomId with
      | none => .error "Cannot read properties of undefined (reading 'sequence')"
      | some (sequence, db) =>
        let (messageId, db) := db.insertAgentMessage current sequence clarification.question now
        .ok { db with
          clarifications := db.clarifications ++ [⟨db.nextId, current.taskId, current.roomId,
            current.runId, current.targetAgentId, clarification.question, clarification.choices,
            .waiting, messageId, now, none, none⟩]
          nextId := db.nextId + 1 }

/-- The session branch: the Task's Room cursor only moves forward. -/
def advanceTaskCursor (current : RunRecord) (event : RuntimeEvent) (now : Time) : Database :=
  match event.session? with
  | none => db
  | some session =>
    let agentTasks := Table.update
      (fun row => row.taskId = current.taskId)
      (fun row => { row with
        lastRoomSequence := max row.lastRoomSequence session.contextCursor, updatedAt := now })
      db.agentTasks
    { db with agentTasks }

def insertReplyRoutingIntent (runId : RunId) (event : RuntimeEvent) (now : Time) : Database :=
  match event with
  | .reply sequence content _ =>
    { db with replyRoutingIntents :=
        db.replyRoutingIntents ++ [⟨runId, sequence, content, false, now⟩] }
  | .status .. | .activity .. | .output .. => db

end Database

/-! ## Applying events -/

/-- The writes of `applyRuntimeEvent` once the sequence is the next one. -/
def storeEvent (current : RunRecord) (event : RuntimeEvent) (now : Time) (db : Database) :
    Except String Database := do
  let nextState := event.status?.getD current.state
  let opened ← (db.insertEvent current event now).openClarification current event now
  let updated := ((opened.advanceTaskCursor current event now).insertReplyRoutingIntent
    current.runId event now).updateRun current nextState event.sequence now
  if nextState.isTerminal then
    pure (updated.resolveCancellationIntent current.runId nextState now)
  else pure updated

def applyRuntimeEvent (runId : RunId) (event : RuntimeEvent) (now : Time) :
    Transaction Database AppliedRunEvent := fun db =>
  match db.getRun runId with
  | none => .error s!"Run not found: {runId}"
  | some current =>
    if event.sequence ≤ current.lastSequence ∨ current.state.isTerminal then
      .ok (⟨false, current⟩, db)
    else if event.sequence ≠ current.lastSequence + 1 then
      .error s!"Run event sequence gap: {event.sequence}"
    else do
      let stored ← storeEvent current event now db
      match stored.getRun runId with
      | none => .error s!"Run disappeared after event: {runId}"
      | some updated => .ok (⟨true, updated⟩, stored)

def insertReplyMessage (run : RunRecord) (content : String) (createdAt : Time) :
    Transaction Database MessageId := fun db =>
  match db.takeMessageSequence run.roomId with
  | none => .error s!"Run Room not found: {run.roomId}"
  | some (sequence, db) => .ok (db.insertAgentMessage run sequence content createdAt)

def insertReplyMessageProjection (runId : RunId) (replySequence : Int) (messageId : MessageId)
    (projectedAt : Time) (db : Database) : Database :=
  { db with replyProjections :=
      db.replyProjections ++ [⟨runId, replySequence, messageId, projectedAt⟩] }

def applyReply (runId : RunId) (sequence : Int) (content : String) (assessment : Option String)
    (now : Time) : Transaction Database AppliedRunEvent := fun db => do
  let (applied, db) ← applyRuntimeEvent runId (.reply sequence content assessment) now db
  if applied.applied then
    let (messageId, db) ← insertReplyMessage applied.run content now db
    pure (applied, insertReplyMessageProjection runId sequence messageId now db)
  else pure (applied, db)

/-- A reply and the completion after it, stored together or not at all. -/
def applyReplyAndTerminal (runId : RunId) (replySequence : Int) (content : String)
    (assessment : Option String) (terminalSequence : Int) (error : Option RuntimeError)
    (session : Option RuntimeSession) (clarification : Option RuntimeTaskClarification)
    (now : Time) : Transaction Database AppliedRunEvent := fun db =>
  if terminalSequence ≠ replySequence + 1 then
    .error "Runtime reply and completion sequences must be contiguous"
  else do
    let (reply, db) ← applyReply runId replySequence content assessment now db
    if reply.applied then
      let (terminal, db) ← applyRuntimeEvent runId
        (.status terminalSequence .completed error session clarification) now db
      if terminal.applied then pure (terminal, db)
      else .error "Runtime completion was not applied with its reply"
    else pure (reply, db)

/-! ## Cancellation -/

structure CancellationInput where
  runId : RunId
  messageId : MessageId
  requestedByMemberId : MemberId
  reason : String
  now : Time
  ackDeadlineAt : Time
  deriving DecidableEq, Repr

/-- A fresh intent as `requestCancellation` inserts it. -/
def CancellationInput.intent (input : CancellationInput) (run : RunRecord)
    (deviceId : DeviceId) : RunCancellationIntent where
  runId := run.runId
  messageId := input.messageId
  agentId := run.targetAgentId
  deviceId
  requestedByMemberId := input.requestedByMemberId
  reason := input.reason
  state := .pending
  createdAt := input.now
  lastSentAt := none
  sendCount := 0
  ackDeadlineAt := input.ackDeadlineAt
  resolvedAt := none
  terminalStatus := none

/-- A cancellation the server can decide on its own: the next event is `canceled`. -/
def cancelNow (run : RunRecord) (now : Time) : Transaction Database RunCancellationRequest :=
  fun db => do
    let (applied, db) ← applyRuntimeEvent run.runId
      (.plainStatus (run.lastSequence + 1) .canceled) now db
    pure (⟨applied.run, none, false⟩, db)

def requestCancellation (input : CancellationInput) :
    Transaction Database RunCancellationRequest := fun db =>
  match db.getRun input.runId with
  | none => .error s!"Run not found: {input.runId}"
  | some run =>
    let existing := db.getCancellationIntent run.runId
    if run.state.isTerminal then
      let db := if existing.any (·.state = .pending) then
        db.resolveCancellationIntent run.runId run.state input.now else db
      .ok (⟨run, db.getCancellationIntent run.runId, false⟩, db)
    else if run.state = .inputRequired then cancelNow run input.now db
    else if existing.isSome then .ok (⟨run, existing, false⟩, db)
    else
      let delivery := db.getDelivery run.runId
      -- A durable row with send_count = 0 may still have reached the Bridge.
      let queuedMayHaveReachedBridge := run.state = .queued ∧ delivery.isSome
      if run.state = .queued ∧ ¬ queuedMayHaveReachedBridge then cancelNow run input.now db
      else if run.state ≠ .queued ∧ run.state ≠ .delivered ∧ run.state ≠ .working then
        .error s!"Run cannot be canceled from state: {run.state.text}"
      else match delivery with
        | none => .error "Remote Run cancellation requires its frozen delivery Device"
        | some delivery =>
          let db := { db with cancellationIntents :=
            db.cancellationIntents ++ [input.intent run delivery.deviceId] }
          .ok (⟨run, db.getCancellationIntent run.runId, true⟩, db)

def markCancellationIntentSent (runId : RunId) (messageId : MessageId) (sentAt : Time) :
    Transaction Database (Option RunCancellationIntent) := fun db =>
  let cancellationIntents := Table.update
    (fun row => row.runId = runId ∧ row.messageId = messageId ∧ row.state = .pending)
    (RunCancellationIntent.recordSend sentAt) db.cancellationIntents
  let db := { db with cancellationIntents }
  .ok (db.getCancellationIntent runId, db)

/-- `Math.max(1, Math.min(500, Math.trunc(limit)))`. -/
def boundedLimit (limit : Int) : Nat := (max 1 (min 500 limit)).toNat

/-- `ORDER BY ack_deadline_at, created_at, run_id`. -/
def RunCancellationIntent.deadlineOrder (a b : RunCancellationIntent) : Prop :=
  a.ackDeadlineAt < b.ackDeadlineAt ∨ a.ackDeadlineAt = b.ackDeadlineAt ∧
    (a.createdAt < b.createdAt ∨ a.createdAt = b.createdAt ∧ a.runId ≤ b.runId)

/-- `ORDER BY created_at, run_id`. -/
def RunCancellationIntent.creationOrder (a b : RunCancellationIntent) : Prop :=
  a.createdAt < b.createdAt ∨ a.createdAt = b.createdAt ∧ a.runId ≤ b.runId

def RunRecord.creationOrder (a b : RunRecord) : Prop :=
  a.createdAt < b.createdAt ∨ a.createdAt = b.createdAt ∧ a.runId ≤ b.runId

instance : DecidableRel RunCancellationIntent.deadlineOrder := fun _ _ =>
  inferInstanceAs (Decidable (_ ∨ _))

instance : DecidableRel RunCancellationIntent.creationOrder := fun _ _ =>
  inferInstanceAs (Decidable (_ ∨ _))

instance : DecidableRel RunRecord.creationOrder := fun _ _ =>
  inferInstanceAs (Decidable (_ ∨ _))

structure DispatchableQuery where
  now : Time
  /-- `none` stands for the far-future timestamp of a forced sweep. -/
  sentBefore : Option Int
  limit : Int
  deviceId : Option DeviceId

def listDispatchableCancellationIntents (db : Database) (query : DispatchableQuery) :
    List RunCancellationIntent :=
  let due := db.cancellationIntents.filter fun row =>
    row.state = .pending ∧ query.now < row.ackDeadlineAt ∧
      (row.lastSentAt.all fun sent => query.sentBefore.all fun before => (sent : Int) ≤ before) ∧
      query.deviceId.all fun deviceId => row.deviceId = deviceId
  (due.insertionSort RunCancellationIntent.creationOrder).take (boundedLimit query.limit)

def cancelAckTimeout : RuntimeError where
  code := "RUN_CANCEL_ACK_TIMEOUT"
  message := "The managed Runtime did not confirm a terminal outcome before the " ++
    "cancellation deadline."
  retryable := false

/-- One iteration of `expireCancellationIntents`. -/
def expireCancellationIntent (runId : RunId) (now : Time) : Transaction Database RunRecord :=
  fun db =>
    match db.getCancellationIntent runId, db.getRun runId with
    | some intent, some run =>
      if intent.state ≠ .pending then .ok (run, db)
      else if run.state.isTerminal then
        .ok (run, db.resolveCancellationIntent run.runId run.state now)
      else do
        let (applied, db) ← applyRuntimeEvent run.runId
          (.failedStatus (run.lastSequence + 1) .outcomeUnknown cancelAckTimeout) now db
        pure (applied.run, db)
    | _, _ => .error s!"Run not found: {runId}"

def expireCancellationIntents (now : Time) (limit : Int) : Program Database (List RunRecord) := do
  let rows ← Program.read fun db => ((db.cancellationIntents.filter fun row =>
    row.state = .pending ∧ row.ackDeadlineAt ≤ now).insertionSort
      RunCancellationIntent.deadlineOrder).take (boundedLimit limit)
  Program.collect rows fun row => Program.transact (expireCancellationIntent row.runId now)

/-! ## Queue expiry -/

def runExpired : RuntimeError where
  code := "RUN_EXPIRED"
  message := "Run expired before its target Agent accepted delivery."
  retryable := false

def expireQueuedRun (runId : RunId) (now : Time) : Transaction Database RunRecord := fun db => do
  let lastSequence := ((db.getRun runId).map RunRecord.lastSequence).getD 0
  let (applied, db) ← applyRuntimeEvent runId
    (.failedStatus (lastSequence + 1) .expired runExpired) now db
  pure (applied.run, db)

def expireQueued (roomId : RoomId) (now : Time) : Program Database (List RunRecord) := do
  let due ← Program.read fun db => (db.runs.filter fun row =>
    row.roomId = roomId ∧ row.state = .queued ∧ row.deadlineAt ≤ now).insertionSort
      RunRecord.creationOrder
  Program.collect due fun row => Program.transact (expireQueuedRun row.runId now)

end ConveneWire.Run
