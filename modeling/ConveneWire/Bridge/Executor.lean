import ConveneWire.Bridge.Inbox

/-! # The Runtime executor of the Bridge

`runtime_executor.go`: handing an accepted Run to its Runtime, persisting what the
Runtime reports before sending it, and the routines that close a Run without a
Runtime: cancellation, failure before start, recovery after a restart.

Where the source passes a sender that collects frames in a buffer, the routine
here returns the frames. -/

namespace ConveneWire.Bridge

open Run (RuntimeEvent RuntimeError RuntimeActivity ActivityKind ActivityPhase
  RuntimeTaskClarification)
open Concurrent (Process)
open Inbox (load clearCancellation appendEvent get)
open Concurrent.Process (fail ask)

namespace RuntimeExecutor

variable (config : Config)

/-! ## Redaction and replay -/

/-- An entry of the outbox as it is sent again: the content of a reasoning summary is
withheld, its place in the sequence is kept. -/
def privateReasoningReplay : InboxEvent → InboxEvent
  | .runtime (.activity sequence activity) =>
    match activity.kind with
    | .reasoning =>
      .runtime (.activity sequence
        { activity with
          activityId := "private-activity-" ++ toString sequence
          label := some "Summary sharing disabled"
          content := none
          reset := false })
    | .tool => .runtime (.activity sequence activity)
  | event => event

def replayEvent (event : InboxEvent) : InboxEvent :=
  if config.shareReasoningSummaries then event else privateReasoningReplay event

/-- `validateRecoveryRecord`. Entries are only ever appended under the record's own
identity, so the comparison of each entry with it is left out. -/
def validateRecoveryRecord (record : Record) : Except String Unit :=
  if ¬ isContractRunID record.runId ∨ record.request.runId ≠ record.runId then
    .error "request Run identity does not match inbox record"
  else if ¬ isContractTraceID record.request.traceId then
    .error "request trace identity is invalid"
  else .ok ()

/-- The frames `RuntimeExecutor.Replay` sends. -/
def replayFrames : Routine (List Frame) := do
  let latest ← load
  match validateRecoveryRecord latest with
  | .error message => fail message
  | .ok () => pure (latest.events.map fun event => (replayEvent config event).frame)

def replay : Routine Unit := do
  let frames ← replayFrames config
  sendAll frames

/-! ## Closing a Run without its Runtime -/

def clearTerminalCancellationFence (request : RunRequest) : Routine Unit := do
  let record ← load
  if record.state.isCancellationTerminal then
    let staged ← Inbox.hasCancellation request
    if staged then clearCancellation request.runId else pure ()
  else pure ()

/-- A record that waits for its materials is taken out of preparation. -/
def leavePreparation (record : Record) : Routine Record :=
  if record.state = .preparing then Inbox.transitionLocalState .preparing .accepted
  else pure record

/-- `CancelQueued`: closes the Run as canceled and returns what has to be reported. -/
def cancelQueued : Routine (List Frame) := do
  let latest ← load
  if latest.state.isCancellationTerminal then replayFrames config
  else
    let latest ← leavePreparation latest
    if latest.state ≠ .accepted ∧ latest.state ≠ .working ∧ latest.state ≠ .inputRequired then
      fail ("Run cannot be canceled before admission: " ++ latest.state.text)
    else
      let message : RuntimeEvent := .plainStatus (latest.lastSequence + 1) .canceled
      let _ ← appendEvent .canceled message
      if latest.state = .accepted then pure [.event message] else replayFrames config

/-- The content-free error of an owner-private Run. -/
def privateOutputError : RuntimeError :=
  ⟨"PRIVATE_OUTPUT_WITHHELD", "Private output remains on the owner device.", false, none⟩

section

variable (request : RunRequest)

/-- What `failBeforeRuntime` reports, and whether it closed the Run itself. -/
def failFrames (code text : String) : Routine (List Frame × Bool) := do
  let latest ← load
  if latest.state.isTerminal then
    let frames ← replayFrames config
    pure (frames, false)
  else
    let error := if request.ownerPrivateOutput then privateOutputError else ⟨code, text, false, none⟩
    let message : RuntimeEvent := .failedStatus (latest.lastSequence + 1) .failed error
    let _ ← appendEvent .failed message
    pure ([.event message], true)

/-- `failBeforeRuntime`, sending as it goes. -/
def failBeforeRuntime (code text : String) : Routine Unit := do
  let (frames, closed) ← failFrames config request code text
  sendAll frames
  if closed then clearTerminalCancellationFence request else pure ()

/-- `FailMaterialization` with a buffering sender. -/
def failMaterialization : Routine (List Frame) := do
  let (frames, closed) ← failFrames config request "ARTIFACT_MATERIALIZATION_FAILED"
    "Pinned Artifact content could not be verified in isolated staging."
  if closed then
    clearTerminalCancellationFence request
    pure frames
  else pure frames

/-- `emitUnknown`; `lastSequence` is the caller's view of the record. -/
def emitUnknown (lastSequence : Int) (code : String) : Routine Unit := do
  let error := if request.ownerPrivateOutput then privateOutputError
    else ⟨code, "Runtime outcome could not be determined.", false, none⟩
  let message : RuntimeEvent := .failedStatus (lastSequence + 1) .outcomeUnknown error
  let _ ← appendEvent .outcomeUnknown message
  send (.event message)
  clearTerminalCancellationFence request

end

/-! ## Reports of the Runtime -/

def redactRuntimeClarification (clarification : RuntimeTaskClarification) :
    RuntimeTaskClarification :=
  { clarification with
    question := config.redact clarification.question
    choices := clarification.choices.map (List.map config.redact) }

def redactRuntimeError (error : RuntimeError) : RuntimeError :=
  { error with message := config.redact error.message, details := error.details.map config.redact }

def activityKind? : String → Option ActivityKind
  | "reasoning" => some .reasoning
  | "tool" => some .tool
  | _ => none

def activityPhase? : String → Option ActivityPhase
  | "started" => some .started
  | "updated" => some .updated
  | "completed" => some .completed
  | "failed" => some .failed
  | _ => none

/-- An empty text is not sent. -/
def optionalText (text : String) : Option String := if text = "" then none else some text

def boundaryActivity (activity : AdapterActivity) : Except String RuntimeActivity :=
  let id := config.redact activity.id
  let label := config.redact activity.label
  let content := config.redact activity.content
  match activityKind? activity.kind, activityPhase? activity.phase with
  | some kind, some phase =>
    if id = "" ∨ 160 < id.length then .error "Runtime emitted an invalid activity event"
    else if 120 < label.length ∨ 4000 < content.length then
      .error "Runtime activity exceeded its safe limit"
    else .ok ⟨id, kind, phase, optionalText label, optionalText content, activity.reset⟩
  | _, _ => .error "Runtime emitted an invalid activity event"

/-- The message a report becomes, at its place in the sequence. -/
def boundaryEvent (sequence : Int) : AdapterEvent → Except String RuntimeEvent
  | .status status error session clarification =>
    .ok (.status sequence status (error.map (redactRuntimeError config)) session
      (clarification.map (redactRuntimeClarification config)))
  | .activity activity => do
    let activity ← boundaryActivity config activity
    pure (.activity sequence activity)
  | .output content reset =>
    if content = "" then .error "Runtime emitted an empty output delta"
    else .ok (.output sequence (config.redact content) reset)
  | .reply content assessment =>
    if content = "" then .error "Runtime emitted an empty event"
    else .ok (.reply sequence (config.redact content) (assessment.map config.redact))

/-- The variables `executeAdapter` shares with its callback. -/
structure Reporting where
  sequence : Int
  lastReplySequence : Int
  currentState : State
  deriving DecidableEq, Repr

/-- A summary that is not shared takes no place in the sequence. -/
def isWithheld : AdapterEvent → Bool
  | .activity activity => activity.kind == "reasoning" && !config.shareReasoningSummaries
  | .status .. | .output .. | .reply .. => false

def Reporting.receive (reporting : Reporting) (event : AdapterEvent) : Reporting :=
  { reporting with
    sequence := reporting.sequence + 1
    currentState :=
      match event with
      | .status status .. => .ofStatus status
      | .activity .. | .output .. | .reply .. => reporting.currentState }

/-- The evidence a completed Run owes its Discussion. -/
def owedEvidence (request : RunRequest) (state : State) (replySequence : Int) :
    Option SupplementalEvidence :=
  if state = .completed ∧ 0 < replySequence then
    request.supplementalEvidence.map fun offer => ⟨offer, replySequence⟩
  else none

/-- Persists a report and then sends it. -/
def report (request : RunRequest) (reporting : Reporting) (event : AdapterEvent)
    (message : RuntimeEvent) : Routine Unit := do
  match event with
  | .status .. =>
    match owedEvidence request reporting.currentState reporting.lastReplySequence with
    | none => send (.event message)
    | some evidence =>
      let _ ← Inbox.appendSupplementalEvidence evidence
      send (.event message)
      send (.supplementalEvidence evidence)
  | .activity .. | .output .. | .reply .. => send (.event message)

def Reporting.reported (reporting : Reporting) : AdapterEvent → Reporting
  | .reply .. => { reporting with lastReplySequence := reporting.sequence }
  | .status .. | .activity .. | .output .. => reporting

/-- The callback of `executeAdapter`. Its error goes back to the Runtime, which may
report again all the same. -/
def onReport (request : RunRequest) (reporting : Reporting) : Routine Reporting := do
  let event ← ask Answer.event
  if isWithheld config event then pure reporting
  else
    let reporting := reporting.receive event
    match boundaryEvent config reporting.sequence event with
    | .error _ => pure reporting
    | .ok message =>
      let appended ← (appendEvent reporting.currentState message).attempt
      match appended with
      | .error _ => pure reporting
      | .ok _ =>
        let _ ← (report request reporting event message).attempt
        pure (reporting.reported event)

/-- `Execute` for a Run without a governed manifest: `executeAdapter`. -/
def execute (record : Record) : Routine Unit := do
  let runtime ← ask Answer.runtime
  let request := record.request
  if request.governed then
    fail "governed execution requires a supported local admission implementation"
  else if request.desktopAdoption ∧ ¬ (runtime.available ∧ runtime.supportsDesktopHandoff) then
    failBeforeRuntime config request "DESKTOP_HANDOFF_UNAVAILABLE"
      "The original desktop conversation is unavailable; no replacement was started."
  else if (runtime.available && runtime.ownerPrivateOutput) ≠ request.ownerPrivateOutput then
    failBeforeRuntime config request "PRIVATE_OUTPUT_WITHHELD"
      "Private output remains on the owner device."
  else if ¬ runtime.artifactsValid then
    failBeforeRuntime config request "ARTIFACT_RUNTIME_ALIAS_INVALID"
      "Verified Artifact aliases could not be admitted to the Runtime."
  else if ¬ runtime.available then
    emitUnknown request record.lastSequence "RUNTIME_ADAPTER_MISSING"
  else
    let reports ← ask Answer.reports
    let _ ← Process.iterate reports (onReport config request)
      ⟨record.lastSequence, 0, record.state⟩
    let executed ← ask Answer.executed
    if executed then clearTerminalCancellationFence request
    else
      let latest ← load
      if latest.state.isTerminal then fail "Runtime execution failed"
      else emitUnknown request latest.lastSequence "RUNTIME_EXECUTION_UNKNOWN"

/-! ## Cancellation requests -/

def cancelTombstonedRecord (request : RunRequest) : Routine Unit := do
  let events ← cancelQueued config
  send (.accepted request.pinnedArtifactContent)
  sendAll events
  clearCancellation request.runId

/-- The terminal event that closes a record, as `ReplayCanceledRun` checks it. -/
def terminalConsistent (record : Record) : Bool :=
  match record.events.getLast? with
  | some (.runtime (.status sequence status ..)) =>
    sequence == record.lastSequence && (State.ofStatus status).isCancellationTerminal &&
      State.ofStatus status == record.state
  | _ => false

/-- `ReplayCanceledRun`: a cancel request for a Run that no worker handles. -/
def replayCanceledRun (requested : CancelRequest) : Routine Unit := do
  match ← get with
  | none =>
    let tombstone ← Inbox.recordCancellation requested
    send cancellationTombstoneStatus
    clearCancellation tombstone.runId
  | some record =>
    match validateRecoveryRecord record with
    | .error message => fail ("canceled Run replay record is invalid: " ++ message)
    | .ok () =>
      if record.runId ≠ requested.runId ∨ record.request.traceId ≠ requested.traceId ∨
          record.request.targetAgentId ≠ requested.agentId then
        fail "Run cancellation replay identity mismatch"
      else if ¬ record.state.isCancellationTerminal then
        let _ ← Inbox.recordCancellation requested
        cancelTombstonedRecord config record.request
      else if record.events = [] then
        fail "Run cancellation replay terminal record has no event"
      else if ¬ terminalConsistent record then
        fail "Run cancellation replay terminal event is inconsistent"
      else
        replay config
        clearCancellation record.runId

/-- `StageCancellation`: fences a Run whose worker is active. -/
def stageCancellation (requested : CancelRequest) : Routine Unit := do
  let _ ← Inbox.recordCancellation requested
  match ← get with
  | none => pure ()
  | some record =>
    if record.state.isCancellationTerminal then clearCancellation record.runId
    else pure ()

/-! ## Recovery -/

section

variable (record : Record)

/-- `hasPersistedMaterializationFailure`: reads the last entry of a failed record. -/
def hasPersistedMaterializationFailure : Bool :=
  record.state == .failed &&
    match record.events.getLast? with
    | some (.runtime (.status _ .failed (some error) ..)) =>
      error.code == "ARTIFACT_MATERIALIZATION_FAILED"
    | _ => false

def latestPersistedReplySequence : Int :=
  record.runtimeEvents.foldl (fun latest event =>
    match event with
    | .reply sequence .. => if latest < sequence then sequence else latest
    | .status .. | .activity .. | .output .. => latest) 0

/-- Evidence that was not persisted before the restart. -/
def recoverEvidence : Routine Record :=
  match owedEvidence record.request record.state (latestPersistedReplySequence record) with
  | none => pure record
  | some evidence => Inbox.appendSupplementalEvidence evidence

/-- Whether the materials of a recovered Run are missing for good. -/
def prepareRecovered : Routine Bool :=
  if hasPersistedMaterializationFailure record then pure true
  else do
    match ← ask Answer.preparation with
    | .ready => pure false
    | .failed => pure true
    | .retryable => fail "Artifact materialization is not available yet"

/-- A Run that was with its Runtime when the Bridge stopped. -/
def closeInterrupted : Routine Unit :=
  if record.state = .accepted ∨ record.state = .working then do
    let error := if record.request.ownerPrivateOutput then privateOutputError
      else ⟨"RUNTIME_PROCESS_RESTARTED",
        "Bridge restarted before the Runtime terminal outcome was persisted.", false, none⟩
    let _ ← appendEvent .outcomeUnknown
      (.failedStatus (record.lastSequence + 1) .outcomeUnknown error)
    pure ()
  else pure ()

/-- `recover`, for the record of one Run. -/
def recoverRecord : Routine Unit := do
  let canceled ← Inbox.hasCancellation record.request
  if canceled then cancelTombstonedRecord config record.request
  else if record.state = .preparing then pure ()
  else
    let record ← recoverEvidence record
    let materializationFailed ← prepareRecovered record
    send (.accepted materializationFailed)
    closeInterrupted record
    replay config

end

/-- `recover`: terminal records with an incompatible identity are put aside first. -/
def recover : Routine Unit := do
  match ← get with
  | none => pure ()
  | some record =>
    match validateRecoveryRecord record with
    | .error message =>
      if record.state.isTerminal then Inbox.quarantineIncompatibleTrace
      else fail ("active inbox record has incompatible trace metadata: " ++ record.runId ++
        ": " ++ message)
    | .ok () => recoverRecord config record

end RuntimeExecutor

end ConveneWire.Bridge
