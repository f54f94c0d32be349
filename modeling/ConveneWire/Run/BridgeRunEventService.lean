import Mathlib.Data.List.DropRight
import ConveneWire.Run.ServerStep

/-! # Run events from the Bridge

`bridge-run-event-service.ts`: what the server checks before it stores an event a
Bridge reports. Sequence 1 belongs to `run.accepted`; the one other event it can
carry is the acknowledgement of a cancellation that the Bridge received before
the Run. -/

namespace ConveneWire.Run

open Transactional
open Server (query ofExcept transact Step)

/-- What the checks ask besides the tables and the Agent directory. -/
structure IngressPolicy where
  /-- `agent.teamId === principal.teamId`. -/
  sameTeam : AgentId → Bool
  redactSensitiveText : String → String
  safeRuntimeFailureDetails : String → Option String
  parseAgentAssessment : String → Option String
  /-- `validateRoomContextConsumption` and `validateAcknowledgement` returned. -/
  sessionAcknowledged : RunId → RuntimeSession → Bool
  /-- The session carries a Room-context receipt. -/
  hasRoomContextReceipt : RuntimeSession → Bool
  /-- `conversationWork.applyReply` lets the reply through. -/
  proposalAllowed : RunId → Int → Bool

/-- The identity every frame of the Bridge carries. -/
structure EventIdentity where
  principal : DevicePrincipal
  runId : RunId
  traceId : TraceId
  agentId : AgentId
  deriving DecidableEq, Repr

structure StatusInput where
  sequence : Int
  status : RuntimeStatus
  error : Option RuntimeError
  session : Option RuntimeSession
  clarification : Option RuntimeTaskClarification
  deriving DecidableEq, Repr

namespace BridgeRunEventService

variable (env : Env) (policy : IngressPolicy)

def isBlank (text : String) : Bool := text.toList.all Char.isWhitespace

def trimText (text : String) : String :=
  String.ofList ((text.toList.dropWhile Char.isWhitespace).rdropWhile Char.isWhitespace)

/-- `bridgeStatuses`. -/
def isBridgeStatus : RuntimeStatus → Bool
  | .working | .inputRequired | .completed | .failed | .canceled | .outcomeUnknown => true
  | .delivered | .expired => false

/-- `terminalStatuses`. -/
def isTerminalStatus : RuntimeStatus → Bool
  | .completed | .failed | .canceled | .outcomeUnknown => true
  | .delivered | .working | .inputRequired | .expired => false

/-- `isOwnerPrivate` of the delivery service: the frozen delivery decides. -/
def isOwnerPrivate (db : Database) (runId : RunId) : Bool :=
  (db.getDelivery runId).any fun delivery => delivery.payload.ownerPrivateOutput

/-- Whether the principal's Device may report for the Run: for a terminal status the
frozen owner of a cancellation, otherwise the Agent's current Device. -/
def correctDevice (db : Database) (identity : EventIdentity) (agent : AgentRecord)
    (terminalStatus : Bool) : Bool :=
  match if terminalStatus then db.getCancellationIntent identity.runId else none with
  | some cancellation =>
    cancellation.agentId = identity.agentId ∧ cancellation.deviceId = identity.principal.deviceId
  | none => agent.deviceId = some identity.principal.deviceId

def requireOwnedRun (db : Database) (identity : EventIdentity) (terminalStatus : Bool) :
    Except String RunRecord :=
  match db.getRun identity.runId, env.getAgent identity.agentId with
  | some run, some agent =>
    if run.traceId ≠ identity.traceId ∨ run.targetAgentId ≠ identity.agentId ∨
        ¬ correctDevice db identity agent terminalStatus ∨
        agent.ownerMemberId ≠ identity.principal.ownerMemberId ∨
        ¬ policy.sameTeam identity.agentId then
      .error "Run event identity mismatch"
    else .ok run
  | _, _ => .error "Run event identity mismatch"

def validateSequence (sequence : Int) : Except String Unit :=
  require (2 ≤ sequence) "Run event sequence must be an integer greater than 1"

/-- A cancellation that overtook its Run: the only status that may use sequence 1. -/
def preAdmissionCancellationAck (run : RunRecord) (cancellation : Option RunCancellationIntent)
    (input : StatusInput) : Bool :=
  input.status = .canceled ∧ input.sequence = 1 ∧
    ((run.state = .queued ∧ cancellation.any fun intent => intent.state = .pending) ∨
      (run.state = .canceled ∧ cancellation.any fun intent =>
        intent.state = .resolved ∧ intent.terminalStatus = some .canceled))

def validateStatusSequence (run : RunRecord) (cancellation : Option RunCancellationIntent)
    (input : StatusInput) : Except String Unit :=
  if preAdmissionCancellationAck run cancellation input then .ok ()
  else validateSequence input.sequence

def validErrorCode (code : String) : Bool :=
  match code.toList with
  | [] => false
  | head :: rest => head.isUpper && decide (2 ≤ rest.length) && decide (rest.length ≤ 63) &&
      rest.all fun ch => ch.isUpper || ch.isDigit || ch == '_'

def validRuntimeError (error : RuntimeError) : Bool :=
  validErrorCode error.code && !isBlank error.message && decide (error.message.length ≤ 512)

/-- An owner-private Run reports nothing but that its output was withheld. -/
def isContentFree (input : StatusInput) : Bool :=
  input.session.isNone && input.clarification.isNone && input.error.all fun error =>
    error.code = "PRIVATE_OUTPUT_WITHHELD" ∧
      error.message = "Private output remains on the owner device." ∧
      error.details = none ∧ error.retryable = false

def validRuntimeScope (text : String) : Bool :=
  text.length = 64 ∧ text.toList.all fun ch => ch.isDigit || ('a' ≤ ch && ch ≤ 'f')

def validSession (db : Database) (run : RunRecord) (session : RuntimeSession) : Bool :=
  match db.getMessage run.triggerMessageId with
  | none => false
  | some trigger =>
    (policy.hasRoomContextReceipt session || decide (session.contextCursor ≤ trigger.sequence)) &&
      (if session.runtimeScopeId.isSome ∨ session.resultEvidenceRevision.isSome then
        session.runtimeScopeId.any validRuntimeScope && session.resultEvidenceRevision.isSome &&
          (env.getAgent run.targetAgentId).isSome &&
          ((db.getDelivery run.runId).bind fun row => row.payload.runtimeScopeId) ==
            session.runtimeScopeId
      else true) &&
      policy.sessionAcknowledged run.runId session

def validClarification (run : RunRecord) (input : StatusInput)
    (clarification : RuntimeTaskClarification) : Bool :=
  let choices := clarification.choices.getD []
  input.status = .inputRequired ∧ ¬ isBlank clarification.question ∧
    clarification.question.length ≤ 2000 ∧
    (clarification.choices.isSome → 2 ≤ choices.length) ∧ choices.length ≤ 8 ∧
    (∀ choice ∈ choices, ¬ isBlank choice ∧ choice.length ≤ 240) ∧ choices.Nodup ∧
    input.error = none ∧ run.orchestrationKey = none

/-- The event a status becomes. -/
def statusEvent (input : StatusInput) : RuntimeEvent :=
  .status input.sequence input.status
    (input.error.map fun error =>
      { error with details := error.details.bind policy.safeRuntimeFailureDetails })
    input.session
    (input.clarification.map fun clarification =>
      { clarification with
        question := policy.redactSensitiveText (trimText clarification.question)
        choices := clarification.choices.map (List.map fun choice =>
          policy.redactSensitiveText (trimText choice)) })

/-- Everything `applyStatus` checks, in its order. -/
def checkStatus (db : Database) (identity : EventIdentity) (input : StatusInput) :
    Except String RunRecord := do
  let run ← requireOwnedRun env policy db identity (isTerminalStatus input.status)
  require (isOwnerPrivate db run.runId → isContentFree input) "Private Run status must be content-free"
  validateStatusSequence run (db.getCancellationIntent run.runId) input
  require (isBridgeStatus input.status)
    ("Bridge cannot emit Run status: " ++ input.status.toState.text)
  require (input.error.all validRuntimeError) "Invalid Runtime error"
  require (input.session.all (validSession env policy db run))
    "Invalid logical Runtime session status"
  require (input.clarification.all (validClarification run input))
    "Invalid Task clarification status"
  pure run

def applyStatus (identity : EventIdentity) (input : StatusInput) (now : Time) :
    Program Server AppliedRunEvent := do
  let checked ← query fun db => checkStatus env policy db identity input
  let run ← ofExcept checked
  transact (applyRuntimeEvent run.runId (statusEvent policy input) now)

/-- What the three content events have in common. -/
def checkContent (db : Database) (identity : EventIdentity) (sequence : Int) :
    Except String RunRecord := do
  let run ← requireOwnedRun env policy db identity false
  require (env.desktopRunAllowed run.runId) "Desktop handoff is paused"
  require (¬ isOwnerPrivate db run.runId) "Private Run output requires explicit disclosure"
  validateSequence sequence
  pure run

def applyReply (identity : EventIdentity) (sequence : Int) (content : String)
    (assessment : Option String) (now : Time) : Program Server AppliedRunEvent := do
  let checked ← query fun db => checkContent env policy db identity sequence
  let run ← ofExcept checked
  if isBlank content ∨ 20000 < content.length then
    Program.fail "Runtime reply must contain 1 to 20000 characters"
  else if ¬ policy.proposalAllowed run.runId sequence then
    Program.fail "Conversation development is unavailable"
  else
    transact (Run.applyReply run.runId sequence (policy.redactSensitiveText content)
      (assessment.bind policy.parseAgentAssessment) now)

def validActivity (activity : RuntimeActivity) : Bool :=
  !isBlank activity.activityId && decide (activity.activityId.length ≤ 160) &&
    (activity.label.all fun label => !isBlank label && decide (label.length ≤ 120)) &&
    (activity.content.all fun content => !isBlank content && decide (content.length ≤ 4000))

def redactActivity (activity : RuntimeActivity) : RuntimeActivity :=
  { activity with
    label := activity.label.map policy.redactSensitiveText
    content := activity.content.map policy.redactSensitiveText }

def applyActivity (identity : EventIdentity) (sequence : Int) (activity : RuntimeActivity)
    (now : Time) : Program Server AppliedRunEvent := do
  let checked ← query fun db => checkContent env policy db identity sequence
  let run ← ofExcept checked
  if ¬ validActivity activity then Program.fail "Invalid Runtime activity"
  else
    transact (applyRuntimeEvent run.runId
      (.activity sequence (redactActivity policy activity)) now)

/-- The provisional output since the last reply or reset. -/
def currentOutput (events : List RunEventRecord) : String :=
  events.foldl (fun content row =>
    match row.event with
    | .reply .. => ""
    | .output _ text reset => if reset then text else content ++ text
    | .status .. | .activity .. => content) ""

/-- Whether the output delta would make the provisional output too long. -/
def exceedsOutput (db : Database) (run : RunRecord) (sequence : Int) (content : String)
    (reset : Bool) : Bool :=
  if sequence ≤ run.lastSequence ∨ run.state.isTerminal then false
  else
    let next := if reset then content else currentOutput (db.listEvents run.runId) ++ content
    decide (20000 < next.length)

def applyOutput (identity : EventIdentity) (sequence : Int) (content : String) (reset : Bool)
    (now : Time) : Program Server AppliedRunEvent := do
  let checked ← query fun db => checkContent env policy db identity sequence
  let run ← ofExcept checked
  let safeContent := policy.redactSensitiveText content
  let exceeded ← query fun db => exceedsOutput db run sequence safeContent reset
  if content = "" ∨ 20000 < content.length then
    Program.fail "Runtime output delta must contain 1 to 20000 characters"
  else if exceeded then Program.fail "Runtime provisional output exceeds 20000 characters"
  else transact (applyRuntimeEvent run.runId (.output sequence safeContent reset) now)

/-! ## What they store -/

section Emits

variable {env policy} {P : EventFilter} {identity : EventIdentity} {s : Server}

variable {now : Time} {run : RunRecord} {sequence : Int} {db : Database} {input : StatusInput}
  {content : String}

theorem requireOwnedRun_runId {terminalStatus : Bool}
    (h : requireOwnedRun env policy db identity terminalStatus = .ok run) :
    run.runId = identity.runId := by
  unfold requireOwnedRun at h
  split at h
  · rename_i owned agent hrun hagent
    split at h
    · cases h
    · cases h
      exact Table.lookup_key hrun
  · cases h

theorem checkStatus_runId (h : checkStatus env policy db identity input = .ok run) :
    run.runId = identity.runId := by
  simp only [checkStatus, bind_eq_ok] at h
  obtain ⟨owned, howned, _, -, _, -, _, -, _, -, _, -, _, -, h⟩ := h
  cases h
  exact requireOwnedRun_runId howned

theorem checkContent_runId
    (h : checkContent env policy db identity sequence = .ok run) : run.runId = identity.runId := by
  simp only [checkContent, bind_eq_ok] at h
  obtain ⟨owned, howned, _, -, _, -, _, -, h⟩ := h
  cases h
  exact requireOwnedRun_runId howned

/-- A call that checks first and then works on the Run it was checked for. -/
theorem checked_emits {α : Type} {check : Database → Except String RunRecord}
    {body : RunRecord → Program Server α}
    (hcheck : ∀ run, check s.database = .ok run → run.runId = identity.runId)
    (hbody : ∀ run, run.runId = identity.runId →
      Steps (Step P) s (body run)) :
    Steps (Step P) s (do
      let checked ← query check
      let run ← ofExcept checked
      body run) := by
  refine .read_bind ?_
  cases hc : check s.database with
  | error message => exact .bind (P := fun _ _ => False) .fail fun _ _ _ h => h.elim
  | ok run =>
    refine .bind (P := fun a t => a = run ∧ t = s) (.pure ⟨rfl, rfl⟩) fun a t _ ht => ?_
    rw [ht.1, ht.2]
    exact hbody run (hcheck run hc)

/-- Storing an event that `P` allows for the Run. -/
theorem stored_emits {event : RuntimeEvent} (hrun : run.runId = identity.runId)
    (hP : P identity.runId event) :
    Steps (Step P) s (transact (applyRuntimeEvent run.runId event now)) :=
  (Server.transact_emits fun _ _ h => applyRuntimeEvent_step (hrun ▸ hP) h).mono
    fun _ _ _ _ => trivial

theorem applyStatus_emits (hP : P identity.runId (statusEvent policy input)) :
    Steps (Step P) s (applyStatus env policy identity input now) :=
  checked_emits (fun _ h => checkStatus_runId h) fun _ hrun => stored_emits hrun hP

theorem applyReply_emits {assessment : Option String}
    (hP : ∀ content assessment, P identity.runId (.reply sequence content assessment)) :
    Steps (Step P) s (applyReply env policy identity sequence content assessment now) := by
  refine checked_emits (fun _ h => checkContent_runId h) fun run hrun => ?_
  split
  · exact .fail
  split
  · exact .fail
  · exact (Server.transact_emits fun _ _ h => applyReply_step (hrun ▸ hP _ _) h).mono
      fun _ _ _ _ => trivial

theorem applyActivity_emits {activity : RuntimeActivity}
    (hP : P identity.runId (.activity sequence (redactActivity policy activity))) :
    Steps (Step P) s (applyActivity env policy identity sequence activity now) := by
  refine checked_emits (fun _ h => checkContent_runId h) fun run hrun => ?_
  split
  · exact .fail
  · exact stored_emits hrun hP

theorem applyOutput_emits {reset : Bool}
    (hP : P identity.runId (.output sequence (policy.redactSensitiveText content) reset)) :
    Steps (Step P) s (applyOutput env policy identity sequence content reset now) := by
  refine checked_emits (fun _ h => checkContent_runId h) fun run hrun => .read_bind ?_
  split
  · exact .fail
  · split
    · exact .fail
    · exact stored_emits hrun hP

end Emits

end BridgeRunEventService

end ConveneWire.Run
