import ConveneWire.Governed.Runner

/-! # The governed handler

`governed_handler.go`: a governed delivery is accepted, prepared, acknowledged, started
and run. Errors are known by their texts. -/

namespace ConveneWire.Governed

open Bridge (RunRequest Record send sendAll Inbox.accept Inbox.get Inbox.hasCancellation
  Inbox.transitionLocalState)
open Bridge.Handler (isExplicitCancel isCanceled cancelBeforeAdmission cancelDuringPreparation
  cancelAfterAcceptance handleQueueExit)
open Bridge.RuntimeExecutor (replay failFrames failBeforeRuntime clearTerminalCancellationFence)
open Concurrent.Process (fail ask)

/-- `ErrGovernedExecutionUnsupported`. -/
def unsupported : String :=
  "governed execution requires a supported local admission implementation"

/-- `ErrGovernedRuntimeAmbiguous`. -/
def ambiguous : String := "governed Runtime has an unresolved possible-start state"

/-- `ErrInputUnavailable` and `ErrAuthorityUnavailable`. -/
def retryable (message : String) : Bool :=
  message == "governed execution input is unavailable" ||
    message == "governed Runtime authority observation is unavailable"

section

variable (config : Config)

/-- What `failBeforeRuntime` does once it has closed the Run itself. -/
def clearClosed (request : RunRequest) (closed : Bool) : Bridge.Routine Unit :=
  if closed then clearTerminalCancellationFence request else pure ()

/-- `failBeforeAcceptance`: the failure is persisted before `run.accepted` goes out. -/
def failBeforeAcceptance (request : RunRequest) : Bridge.Routine Unit := do
  let (frames, closed) ← failFrames config.inbox request "GOVERNED_ADMISSION_DENIED"
    "Local governed Runtime admission failed closed."
  clearClosed request closed
  send (.accepted false)
  sendAll frames

/-- A terminal record is acknowledged and sent again. -/
def acknowledgeTerminal : Bridge.Routine Unit := do
  send (.accepted false)
  replay config.inbox

/-- From the outcome of `Admission.Start` on. -/
def afterStart (n : Nat) (ticket : GovernedAdmissionTicket) (record : Record) :
    StartOutcome → Routine Unit
  | .possibleStart => fail ambiguous
  | .refused message => do
    let explicit ← onSlot record.request.runId isExplicitCancel
    if explicit then onSlot record.request.runId (cancelAfterAcceptance config.inbox record)
    else if retryable message then fail message
    else
      onSlot record.request.runId (failBeforeRuntime config.inbox record.request
        "GOVERNED_ADMISSION_DENIED" "Current governed Runtime authority could not be established.")
  | .decided _ false => do
    match ← onSlot record.request.runId Inbox.get with
    | none => fail "inbox record does not exist"
    | some latest =>
      if latest.state.isTerminal then onSlot record.request.runId (replay config.inbox)
      else fail ambiguous
  | .decided view true => executeAdmitted config n ticket view record

/-- `BeforeStart` and `Admission.Start`. -/
def startRun (n : Nat) (ticket : GovernedAdmissionTicket) (record : Record) : Routine Unit := do
  let ready ← ask fun answer => answer.inbox.beforeStart
  if config.inbox.hasBeforeStart ∧ ¬ ready then fail "Runtime start was refused"
  else
    let outcome ← start config n ticket
    afterStart config n ticket record outcome

/-- The execution gate, with another look at the cancellation behind it. -/
def enterGate (n : Nat) (ticket : GovernedAdmissionTicket) (record : Record) : Routine Unit :=
  if ¬ config.inbox.hasGate then startRun config n ticket record
  else do
    let acquired ← ask fun answer => answer.inbox.gateAcquired
    if ¬ acquired then onSlot record.request.runId (handleQueueExit config.inbox record)
    else
      let canceled ← onSlot record.request.runId (isCanceled record.request)
      if canceled then onSlot record.request.runId (cancelAfterAcceptance config.inbox record)
      else startRun config n ticket record

/-- A prepared Run is acknowledged unless it was canceled meanwhile. -/
def acknowledge (n : Nat) (ticket : GovernedAdmissionTicket) (run : String) : Routine Unit := do
  let record ← onSlot run (Inbox.transitionLocalState .preparing .accepted)
  let canceled ← onSlot run (isCanceled record.request)
  if canceled then onSlot run (cancelBeforeAdmission config.inbox record)
  else
    onSlot run (send (.accepted false))
    enterGate config n ticket record

/-- A preparation that failed. -/
def prepareFailed (record : Record) (run message : String) : Routine Unit := do
  let explicit ← onSlot run isExplicitCancel
  if explicit then onSlot run (cancelDuringPreparation config.inbox record)
  else if retryable message then fail message
  else
    let record ← onSlot run (Inbox.transitionLocalState .preparing .accepted)
    onSlot run (failBeforeAcceptance config record.request)

/-- `Admission.Prepare` for a record in preparation. -/
def prepareRun (n : Nat) (record : Record) (run : String) : Routine Unit := do
  match ← (prepare config record.request).attempt with
  | .error message => prepareFailed config record run message
  | .ok ticket => acknowledge config n ticket run

/-- A record that is neither canceled nor over. -/
def admitRecord (n : Nat) (record : Record) (duplicate : Bool) (run : String) : Routine Unit :=
  if duplicate ∧ record.state.isTerminal then onSlot run (acknowledgeTerminal config)
  else if duplicate ∧ record.state = .working then fail ambiguous
  else if record.state = .accepted then do
    let record ← onSlot run (Inbox.transitionLocalState .accepted .preparing)
    prepareRun config n record run
  else if record.state = .preparing then prepareRun config n record run
  else fail ambiguous

/-- `GovernedHandler.Handle` by the `n`-th process. -/
def handle (n : Nat) (request : RunRequest) : Routine Unit :=
  if ¬ request.governed ∨ ¬ config.allowsAgent request.targetAgentId then fail unsupported
  else do
    let run := request.runId
    let (record, duplicate) ← onSlot run (Inbox.accept config.inbox request)
    let canceled ← onSlot run (Inbox.hasCancellation record.request)
    if canceled then onSlot run (cancelBeforeAdmission config.inbox record)
    else admitRecord config n record duplicate run

end

end ConveneWire.Governed
