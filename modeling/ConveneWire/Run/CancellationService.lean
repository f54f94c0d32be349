import ConveneWire.Run.Server

/-! # `cancellation-service.ts` -/

namespace ConveneWire.Run

open Transactional

/-- `CancellationServiceOptions`, resolved against the defaults. -/
structure CancellationOptions where
  ackTimeoutMilliseconds : Nat := 30000
  retryIntervalMilliseconds : Nat := 2000
  sweepBatchSize : Nat := 100
  ackTimeout_pos : 0 < ackTimeoutMilliseconds := by decide
  retryInterval_pos : 0 < retryIntervalMilliseconds := by decide
  sweepBatch_pos : 0 < sweepBatchSize := by decide

def CancellationOptions.standard : CancellationOptions := {}

/-- The constructor's `positiveInteger` checks; `none` keeps the default. -/
def CancellationOptions.resolve (ackTimeout retryInterval sweepBatch : Option Int) :
    Except String CancellationOptions :=
  let ack := (ackTimeout.getD 30000).toNat
  let retry := (retryInterval.getD 2000).toNat
  let batch := (sweepBatch.getD 100).toNat
  if hack : 0 < ack then
    if hretry : 0 < retry then
      if hbatch : 0 < batch then .ok ⟨ack, retry, batch, hack, hretry, hbatch⟩
      else .error "Invalid cancellation sweep batch size"
    else .error "Invalid cancellation retry interval"
  else .error "Invalid cancellation acknowledgement timeout"

namespace CancellationService

/-- White space as `String.prototype.trim` knows it. -/
def isTrimmed (c : Char) : Bool :=
  c.val ∈ [0x9, 0xA, 0xB, 0xC, 0xD, 0x20, 0xA0, 0x1680, 0x2028, 0x2029, 0x202F, 0x205F, 0x3000,
    0xFEFF] ∨ (0x2000 ≤ c.val ∧ c.val ≤ 0x200A)

def trim (text : String) : String :=
  String.ofList ((text.toList.dropWhile isTrimmed).reverse.dropWhile isTrimmed).reverse

/-- `truncateUnicodeCodePoints(reason.trim(), 512) || "Canceled by requester"`. -/
def normalizedReason (reason : String) : String :=
  let kept := String.ofList ((trim reason).toList.take 512)
  if kept = "" then "Canceled by requester" else kept

/-- The private `dispatch`: sends a pending intent and records the send. -/
def dispatch (env : Env) (runId : RunId) (sentAt : Time) : Program Server Bool := do
  let intent? ← Server.query (·.getCancellationIntent runId)
  let run? ← Server.query (·.getRun runId)
  match intent?, run? with
  | some intent, some run =>
    if intent.state ≠ .pending ∨ run.state.isTerminal then pure false
    else match env.send intent.deviceId with
      | .raised _ | .notConnected => pure false
      | .sent => do
        Server.written intent.deviceId (.runCancelRequested intent.messageId run.runId run.traceId
          intent.agentId intent.reason)
        let _ ← Server.transact (markCancellationIntentSent runId intent.messageId sentAt)
        pure true
  | _, _ => pure false

def dispatchDue (options : CancellationOptions) (env : Env) (now : Time)
    (deviceId : Option DeviceId) (force : Bool) : Program Server (List RunId) := do
  let sentBefore : Option Int :=
    if force then none else some ((now : Int) - options.retryIntervalMilliseconds)
  let intents ← Server.query fun db => listDispatchableCancellationIntents db
    { now, sentBefore, limit := options.sweepBatchSize, deviceId }
  let sent ← Program.collect intents fun intent => do
    let sent ← dispatch env intent.runId now
    pure (if sent then [intent.runId] else [])
  pure sent.flatten

/-- Which of several subsystems a cancellation is handed to. -/
def delegate (handler : Option (RunId → MemberId → String → List RepositoryCall))
    (unavailable : String) (run : RunRecord) (memberId : MemberId) (reason : String) :
    Program Server RunRecord :=
  match handler with
  | none => Program.fail unavailable
  | some handler => do
    Server.runCalls (handler run.runId memberId reason)
    let current ← Server.query (·.getRun run.runId)
    pure (current.getD run)

/-- The Bridge may hold the Run, so only an interruptible Agent can be asked to stop. -/
def requiresRemoteInterrupt (run : RunRecord) (delivery : Option DeliveryRecord) : Bool :=
  run.state = .delivered ∨ run.state = .working ∨ (run.state = .queued ∧ delivery.isSome)

def interruptible (agent : Option AgentRecord) : Bool :=
  agent.any fun agent => agent.integrationMode = .managed ∧ agent.supportsInterrupt

/-- `if (requested.intent?.state === "pending") this.dispatch(…)`. -/
def dispatchPending (env : Env) (intent : Option RunCancellationIntent) (now : Time) :
    Program Server Unit :=
  match intent with
  | some intent =>
    if intent.state = .pending then do
      let _ ← dispatch env intent.runId now
    else pure ()
  | none => pure ()

variable (options : CancellationOptions)

variable (env : Env)

/-- The part of `cancel` for Runs of managed, manual and fake Agents. -/
def cancelLocal (run : RunRecord) (memberId : MemberId) (messageId : MessageId) (reason : String) :
    Program Server RunRecord := do
  let existing ← Server.query (·.getCancellationIntent run.runId)
  let delivery ← Server.query (·.getDelivery run.runId)
  if existing.isNone ∧ requiresRemoteInterrupt run delivery ∧
      ¬ interruptible (env.getAgent run.targetAgentId) then
    Program.fail "Target Agent does not support interruption"
  else
    let now := env.clock 0
    let requested ← Server.transact (requestCancellation
      { runId := run.runId, messageId, requestedByMemberId := memberId
        reason := normalizedReason reason, now
        ackDeadlineAt := now + options.ackTimeoutMilliseconds })
    dispatchPending env requested.intent now
    let current ← Server.query (·.getRun run.runId)
    pure (current.getD requested.run)

def cancel (runId : RunId) (messageId : MessageId) (reason : String) : Program Server RunRecord
    := do
  let run? ← Server.query (·.getRun runId)
  match run? with
  | none => Program.fail s!"Run not found: {runId}"
  | some run =>
    let member ← Server.ofExcept (env.requireRoomMember run.roomId)
    if member.memberId ≠ run.requesterMemberId ∧ member.role ≠ .owner then
      Program.fail "Run cancellation denied"
    else if run.state.isTerminal then pure run
    else match (env.getAgent run.targetAgentId).map AgentRecord.integrationMode with
      | some .peer =>
        delegate env.peerCancellation "Peer Run cancellation is unavailable" run member.memberId
          reason
      | some .hosted =>
        if (env.getAgent run.targetAgentId).any AgentRecord.supportsInterrupt then
          delegate env.hostedCancellation "Target Hosted Agent does not support interruption" run
            member.memberId reason
        else Program.fail "Target Hosted Agent does not support interruption"
      | _ => cancelLocal options env run member.memberId messageId reason

/-- `sweep`; `recover` is the forced sweep. -/
def sweep (force : Bool) : Program Server (List RunId × List RunId) := do
  let now := env.clock 0
  let expired ← Server.withDatabase (expireCancellationIntents now options.sweepBatchSize)
  let sent ← dispatchDue options env now none force
  pure (expired.map (·.runId), sent)

def resendForDevice (deviceId : DeviceId) : Program Server (List RunId) := do
  let now := env.clock 0
  let _ ← Server.withDatabase (expireCancellationIntents now options.sweepBatchSize)
  dispatchDue options env now (some deviceId) false

end CancellationService

end ConveneWire.Run
