import ConveneWire.Run.Server

/-! # `delivery-service.ts` -/

namespace ConveneWire.Run

open Transactional
open Server (transact query)

structure DevicePrincipal where
  deviceId : DeviceId
  ownerMemberId : MemberId
  deriving DecidableEq, Repr

/-- One entry of the untyped `artifactMaterializations` array. -/
structure MaterializationReceipt where
  content : ArtifactContent
  materializationState : String
  deriving DecidableEq, Repr

/-- The untyped `artifactMaterializations` of a frame; a candidate that is no object is `none`. -/
inductive Materializations where
  | undefined
  | notArray
  | array (candidates : List (Option MaterializationReceipt))
  deriving DecidableEq, Repr

/-- The untyped `artifactMaterializationError` of a frame. -/
inductive MaterializationError where
  | undefined
  | notObject
  | object (code : String) (retryable : Bool) (message : String)
  deriving DecidableEq, Repr

namespace DeliveryService

def receiptsMismatch : String := "Artifact materialization receipts do not match delivery"

/-- `new Map(expected.map(…))`: a later entry replaces an earlier one of the same key. -/
def pinnedContents : List ArtifactContent → List ArtifactContent
  | [] => []
  | content :: rest =>
    if rest.any fun later => later.artifactId = content.artifactId then pinnedContents rest
    else content :: pinnedContents rest

/-- The loop over the candidates; what is left of the map at the end. -/
def consumeReceipts : List (Option MaterializationReceipt) → List ArtifactContent →
    Except String (List ArtifactContent)
  | [], remaining => .ok remaining
  | none :: _, _ => .error receiptsMismatch
  | some receipt :: rest, remaining =>
    match remaining.find? fun pinned => pinned.artifactId = receipt.content.artifactId with
    | none => .error receiptsMismatch
    | some pinned =>
      if receipt.content ≠ pinned ∨ (receipt.materializationState ≠ "verified" ∧
          receipt.materializationState ≠ "reused") then .error receiptsMismatch
      else consumeReceipts rest
        (remaining.filter fun pinned => pinned.artifactId ≠ receipt.content.artifactId)

def validateArtifactMaterializations (delivery : DeliveryRecord)
    (materializations : Materializations) (failure : MaterializationError) : Except String Unit :=
  let expected := delivery.payload.artifactRefs
  let mismatch := "Artifact materialization failure does not match delivery"
  match failure with
  | .notObject => .error mismatch
  | .object code retryable message =>
    if expected = [] ∨ code ≠ "ARTIFACT_MATERIALIZATION_FAILED" ∨ retryable ∨
        message ≠ "Pinned Artifact content could not be verified in isolated staging." ∨
        (materializations ≠ .undefined ∧ materializations ≠ .array []) then .error mismatch
    else .ok ()
  | .undefined =>
    match materializations with
    | .undefined => if expected = [] then .ok () else .error receiptsMismatch
    | .notArray => .error receiptsMismatch
    | .array candidates =>
      if candidates.length ≠ expected.length then .error receiptsMismatch
      else match consumeReceipts candidates (pinnedContents expected) with
        | .error e => .error e
        | .ok remaining => if remaining = [] then .ok () else .error receiptsMismatch

/-- A revision counts only when it is set and not zero. -/
def revision (value : Option Nat) : Option Nat := value.filter (· ≠ 0)

/-- The row `ensure` inserts for a queued Run of a managed Agent. -/
def deliveryRow (env : Env) (run : RunRecord) (agent : AgentRecord) (deviceId : DeviceId)
    (manifest : ContextManifest) (attemptId : Nat) : DeliveryRecord :=
  let trusted := ¬ env.hasDesktopAdoption run.taskId ∧ ¬ manifest.governed ∧
    ¬ agent.ownerPrivateOutput
  { deliveryAttemptId := attemptId
    traceId := run.traceId
    runId := run.runId
    deviceId
    idempotencyKey := attemptId + 1
    payload :=
      { runId := run.runId
        traceId := run.traceId
        targetAgentId := run.targetAgentId
        deliveryAttemptId := attemptId
        idempotencyKey := attemptId + 1
        deviceTrust := if trusted then revision manifest.deviceTrustRevision else none
        centralApproval := if trusted then revision manifest.centralApprovalRevision else none
        ownerPrivateOutput := agent.ownerPrivateOutput
        runtimeScopeId := agent.runtimeScopeId
        artifactRefs := env.plannedArtifacts run.runId
        deadline := run.deadlineAt }
    state := .pending
    sendCount := 0
    createdAt := env.clock 3
    lastSentAt := none
    acceptedAt := none }

/-- `ensure`: the existing delivery row, or a new one while the Run is still queued. -/
def ensure (env : Env) (runId : RunId) : Transaction Database (Option DeliveryRecord) := fun db =>
  match db.getDelivery runId with
  | some existing => .ok (some existing, db)
  | none =>
    match db.getRun runId with
    | none => .ok (none, db)
    | some run =>
      if run.state ≠ .queued then .ok (none, db)
      else match env.getAgent run.targetAgentId, db.getMessage run.triggerMessageId with
        | some agent, some _ =>
          match agent.integrationMode, agent.deviceId with
          | .managed, some deviceId =>
            match env.getContextManifest runId with
            | none => .error "Run delivery requires a frozen Context Manifest"
            | some manifest =>
              let db := { db with
                deliveries := db.deliveries ++
                  [deliveryRow env run agent deviceId manifest db.nextId]
                nextId := db.nextId + 2 }
              .ok (db.getDelivery runId, db)
          | _, _ => .ok (none, db)
        | _, _ => .ok (none, db)

/-- The delivery was frozen under a trust revision its owner has changed since. -/
def trustChanged (payload : DeliveryPayload) (policy : Option RuntimePolicy) : Bool :=
  (payload.centralApproval.any fun revision =>
    policy.bind RuntimePolicy.centralApproval ≠ some revision) ∨
  (payload.deviceTrust.any fun revision => policy.bind RuntimePolicy.deviceTrust ≠ some revision)

def consumerUnavailable : RuntimeError where
  code := "DISCLOSURE_CONSUMER_UNAVAILABLE"
  message := "Discussion evidence consumer is no longer authorized."
  retryable := false

def handoffPaused : RuntimeError where
  code := "DESKTOP_HANDOFF_PAUSED"
  message := "Codex handoff requires local review."
  retryable := false

def deviceTrustChanged : RuntimeError where
  code := "DEVICE_TRUST_CHANGED"
  message := "The device owner changed execution trust. Continue from the current conversation."
  retryable := false

/-- A delivery gate that is closed fails a queued Run and returns no delivery. -/
def refuse (run : Option RunRecord) (error : RuntimeError) (now : Time) :
    Program Server (Option DeliveryRecord) :=
  match run with
  | some run =>
    if run.state = .queued then do
      let _ ← transact (applyRuntimeEvent run.runId
        (.failedStatus (run.lastSequence + 1) .failed error) now)
      pure none
    else pure none
  | none => pure none

/-- `UPDATE run_deliveries SET send_count, last_sent_at WHERE delivery_attempt_id = ?`. -/
def recordSend (attemptId : Nat) (sentAt : Time) : Transaction Database Unit := fun db =>
  let deliveries := Table.update
    (fun row => row.deliveryAttemptId = attemptId ∧ row.state = .pending)
    (DeliveryRecord.recordSend sentAt) db.deliveries
  .ok ((), { db with deliveries })

/-- The last part of `dispatch`: an existing or new delivery row is written to the socket. -/
def sendDelivery (env : Env) (runId : RunId) (run : Option RunRecord) :
    Program Server (Option DeliveryRecord) := do
  let delivery? ← transact (ensure env runId)
  match delivery? with
  | none => pure none
  | some delivery =>
    if delivery.state = .accepted then pure (some delivery)
    else
      let policy := run.bind fun run =>
        (env.getAgent run.targetAgentId).bind AgentRecord.runtimePolicy
      if trustChanged delivery.payload policy then refuse run deviceTrustChanged (env.clock 4)
      else match env.send delivery.deviceId with
        | .raised message => Program.fail message
        | .notConnected => pure (some delivery)
        | .sent => do
          Server.written delivery.deviceId (.runRequested delivery.payload)
          transact (recordSend delivery.deliveryAttemptId (env.clock 5))
          query (·.getDelivery runId)

/-- `dispatch`, after its entry was recorded. -/
def dispatchBody (env : Env) (runId : RunId) : Program Server (Option DeliveryRecord) := do
  let intent ← query (·.getCancellationIntent runId)
  if intent.any (·.state = .pending) then query (·.getDelivery runId)
  else
    let run ← query (·.getRun runId)
    if run.isSome ∧ ¬ env.canDeliverDisclosureDiscussion runId then
      refuse run consumerUnavailable (env.clock 0)
    else if run.any fun run => run.state = .queued ∧ run.deadlineAt ≤ env.clock 0 then
      let _ ← Server.withDatabase (expireQueued ((run.map RunRecord.roomId).getD 0) (env.clock 1))
      pure none
    else if run.isNone ∨ ¬ env.desktopRunAllowed runId then refuse run handoffPaused (env.clock 2)
    else sendDelivery env runId run

def dispatch (env : Env) (runId : RunId) : Program Server (Option DeliveryRecord) := do
  Program.transact fun s =>
    .ok ((), { s with dispatches := s.dispatches ++ [⟨runId, env, s.database⟩] })
  dispatchBody env runId

/-- The Runs `dispatchQueuedForDevice` selects before it dispatches the first of them. -/
def queuedForDevice (env : Env) (deviceId : DeviceId) (db : Database) : List RunId :=
  ((db.runs.filter fun run =>
    run.state = .queued ∧ (env.getAgent run.targetAgentId).bind AgentRecord.deviceId = some deviceId ∧
      ¬ (db.cancellationIntents.any fun row => row.runId = run.runId ∧ row.state = .pending)
    ).insertionSort RunRecord.creationOrder).map RunRecord.runId

/-- Each dispatch has its own environment: time passes and sockets close in between. -/
def dispatchQueuedForDevice (env : Env) (later : RunId → Env) (deviceId : DeviceId) :
    Program Server Unit := do
  let rows ← query (queuedForDevice env deviceId)
  Program.forEach rows fun runId => do
    let _ ← dispatch (later runId) runId

/-- `UPDATE run_deliveries SET state = 'accepted', accepted_at WHERE run_id = ?`. -/
def markAccepted (runId : RunId) (now : Time) : Transaction Database Unit := fun db =>
  let deliveries := Table.update (fun row => row.runId = runId ∧ row.state = .pending)
    (DeliveryRecord.accept now) db.deliveries
  .ok ((), { db with deliveries })

/-- The delivery row is marked first and the event applied after it, in two commits. -/
def accept (env : Env) (principal : DevicePrincipal) (runId : RunId) (traceId : TraceId)
    (agentId : AgentId) (sequence : Int) (now : Time) (materializations : Materializations)
    (failure : MaterializationError) : Program Server RunRecord := do
  if sequence ≠ 1 then Program.fail "run.accepted must use sequence 1"
  else
    let run? ← query (·.getRun runId)
    let delivery? ← query (·.getDelivery runId)
    match run?, env.getAgent agentId, delivery? with
    | some run, some agent, some delivery =>
      if ¬ env.canDeliverDisclosureDiscussion runId ∨ run.traceId ≠ traceId ∨
          delivery.traceId ≠ traceId ∨ run.targetAgentId ≠ agentId ∨
          agent.deviceId ≠ some principal.deviceId ∨
          agent.ownerMemberId ≠ principal.ownerMemberId ∨
          delivery.deviceId ≠ principal.deviceId then
        Program.fail "Run acceptance identity mismatch"
      else
        Server.ofExcept (validateArtifactMaterializations delivery materializations failure)
        transact (markAccepted runId now)
        let applied ← transact (applyRuntimeEvent runId (.plainStatus 1 .delivered) now)
        pure applied.run
    | _, _, _ => Program.fail "Run acceptance identity mismatch"

end DeliveryService

end ConveneWire.Run
