import ConveneWire.Bridge.Executor

/-! # The delivery handler of the Bridge

`handler.go` with the wiring of `bridgecore/run.go`: `OnNew` is the executor's
`Execute`, `OnDuplicate` its `Replay`, `OnQueuedCanceled` its `CancelQueued` and
`OnPrepareFailed` its `FailMaterialization`; `Prepare` is always set. -/

namespace ConveneWire.Bridge

open Concurrent (Process)

namespace Handler

variable (config : Config)

/-- Whether the worker's context was canceled by a cancel request for the Run. -/
def isExplicitCancel : Routine Bool := .step fun s _ => (.ok s.explicitCancel, s)

/-- The tombstone or the canceled context: either one stops the Run. -/
def isCanceled (request : RunRequest) : Routine Bool := do
  let staged ← Inbox.hasCancellation request
  let explicit ← isExplicitCancel
  pure (staged || explicit)

section

variable (record : Record)

/-- `cancelBeforeAdmission` and `cancelDuringPreparation`, which differ in the
materialization error they always or only sometimes acknowledge. -/
def cancelUnadmitted (materializationFailed : Bool) : Routine Unit := do
  let record ← RuntimeExecutor.leavePreparation record
  let terminal ← RuntimeExecutor.cancelQueued config
  send (.accepted materializationFailed)
  sendAll terminal
  Inbox.clearCancellation record.runId

def cancelBeforeAdmission : Routine Unit :=
  cancelUnadmitted config record record.request.pinnedArtifactContent

def cancelDuringPreparation : Routine Unit :=
  cancelUnadmitted config record true

/-- `cancelAfterAcceptance`: `run.accepted` has already been sent. -/
def cancelAfterAcceptance : Routine Unit := do
  let terminal ← RuntimeExecutor.cancelQueued config
  sendAll terminal
  Inbox.clearCancellation record.runId

/-- `handleQueueExit`: without a cancel request the accepted record stays recoverable. -/
def handleQueueExit : Routine Unit := do
  let explicit ← isExplicitCancel
  if explicit then cancelAfterAcceptance config record else pure ()

/-- The invocation of `OnNew`, remembered with the fences of the latest check. -/
def onNew : Routine Unit := do
  Process.step fun s _ =>
    (.ok (), { s with starts := s.starts ++ [⟨record.request, s.checked⟩] })
  RuntimeExecutor.execute config record

/-- `BeforeStart` and then `OnNew`. -/
def startRuntime : Routine Unit := do
  let ready ← Process.ask Answer.beforeStart
  if config.hasBeforeStart ∧ ¬ ready then Process.fail "Runtime start was refused"
  else onNew config record

def runNew : Routine Unit := do
  let canceled ← isCanceled record.request
  if canceled then cancelAfterAcceptance config record
  else if config.hasGate then
    let acquired ← Process.ask Answer.gateAcquired
    if ¬ acquired then handleQueueExit config record
    else
      let canceled ← isCanceled record.request
      if canceled then cancelAfterAcceptance config record else startRuntime config record
  else startRuntime config record

/-- A new record is in preparation while its materials are fetched. -/
def enterPreparation (duplicate : Bool) : Routine Record :=
  if duplicate then pure record else Inbox.transitionLocalState .accepted .preparing

/-- A permanent preparation failure closes the Run before `run.accepted` is sent. -/
def reportPreparationFailure : Routine Unit := do
  let terminal ← RuntimeExecutor.failMaterialization config record.request
  send (.accepted true)
  sendAll terminal

/-- The end of `Handle`: the Run is acknowledged, then started or replayed. -/
def acknowledge (duplicate resumePreparing : Bool) : Routine Unit := do
  send (.accepted false)
  if duplicate ∧ ¬ resumePreparing then RuntimeExecutor.replay config
  else runNew config record

/-- From the outcome of the preparation on. -/
def admitRequest (duplicate resumePreparing preparationFailed : Bool) : Routine Unit := do
  let record ← RuntimeExecutor.leavePreparation record
  let canceled ← isCanceled record.request
  if canceled then cancelBeforeAdmission config record
  else if preparationFailed then reportPreparationFailure config record
  else acknowledge config record duplicate resumePreparing

end

def handle (request : RunRequest) : Routine Unit := do
  if request.governed then
    Process.fail "governed execution requires a supported local admission implementation"
  else
    let (record, duplicate) ← Inbox.accept config request
    let canceled ← Inbox.hasCancellation record.request
    if canceled then cancelBeforeAdmission config record
    else
      let resumePreparing := duplicate && record.state == .preparing
      let record ← enterPreparation record duplicate
      match ← Process.ask Answer.preparation with
      | .retryable =>
        let explicit ← isExplicitCancel
        if explicit then cancelDuringPreparation config record
        else Process.fail "Artifact materialization is not available yet"
      | .failed => admitRequest config record duplicate resumePreparing true
      | .ready => admitRequest config record duplicate resumePreparing false

end Handler

end ConveneWire.Bridge
