import ConveneWire.Governed.Device

/-! # The admission coordinator and the Runtime runner

`coordinator.go` claims and starts an admission, `runtime_runner.go` runs the one
adapter that a start decision allows. The adapter itself reports in any order and
number, and gets as far with its process as the environment lets it. -/

namespace ConveneWire.Governed

open Bridge (RunRequest Record AdapterEvent Inbox.appendEvent Inbox.load)
open Bridge.RuntimeExecutor (Reporting isWithheld boundaryEvent report clearTerminalCancellationFence
  emitUnknown failBeforeRuntime)
open Run (RuntimeStatus)
open Admission
open Concurrent (Process)
open Concurrent.Process (ask fail step)

/-! ## The coordinator -/

/-- `facts` stands for the inputs, the workspace and the profile that were found. -/
structure GovernedAdmissionTicket where
  request : RunRequest
  manifest : RuntimeAdmissionSpec
  facts : LocalFacts
  admission : RuntimeAdmissionView
  deriving DecidableEq, Repr

/-- What `Start` comes to: a decision, `ErrAdmissionPossibleStart` or another error. -/
inductive StartOutcome where
  | decided (view : RuntimeAdmissionView) (invoke : Bool)
  | possibleStart
  | refused (message : String)
  deriving DecidableEq, Repr

section

variable (config : Config)

def recheckLocal (manifest : RuntimeAdmissionSpec) : Routine LocalFacts := do
  match ← ask Answer.preparation with
  | .error message => fail message
  | .ok facts =>
    if validRuntimeAdmissionSpec (specOf manifest facts) then pure facts else failWith .invalid

def prepare (request : RunRequest) : Routine GovernedAdmissionTicket :=
  match config.manifest request with
  | none => failWith .invalid
  | some manifest => do
    let facts ← recheckLocal manifest
    let spec := specOf manifest facts
    let view ← fenceClaim config spec
    if view.spec ≠ spec ∨ ¬ isSha256Digest view.admissionDigest then failWith .changed
    else pure ⟨request, manifest, facts, view⟩

section

variable (ticket : GovernedAdmissionTicket)

/-- The callback that `Start` hands to the fence. -/
def authorize (expected : RuntimeAdmissionSpec) : Routine Unit :=
  if config.manifest ticket.request ≠ some ticket.manifest ∨ expected ≠ ticket.admission.spec then
    failWith .changed
  else do
    let facts ← recheckLocal ticket.manifest
    if facts ≠ ticket.facts ∨ specOf ticket.manifest facts ≠ expected then failWith .changed
    else
      match ← ask Answer.authority with
      | .error message => fail message
      | .ok () => pure ()

/-- An error of the fence itself: only an admission that is still claimed has
certainly not started. -/
def classify (message : String) : Routine StartOutcome := do
  match ← (fenceGet config ticket.admission.spec.runId).attempt with
  | .error _ => pure .possibleStart
  | .ok observed =>
    if observed.spec = ticket.admission.spec ∧
        observed.admissionDigest = ticket.admission.admissionDigest ∧ observed.state = .claimed then
      pure (.refused message)
    else pure .possibleStart

/-- The answer of the fence, compared with the ticket. -/
def decided (view : RuntimeAdmissionView) (invoke : Bool) : StartOutcome :=
  if view.spec ≠ ticket.admission.spec ∨
      view.admissionDigest ≠ ticket.admission.admissionDigest then
    .refused AdmissionError.changed.text
  else if invoke ∧ (view.state ≠ .starting ∨ view.startDigest = none) then
    .refused AdmissionError.changed.text
  else .decided view invoke

end

/-- `GovernedAdmissionCoordinator.Start` with the `Start` of the fence. -/
def start (n : Nat) (ticket : GovernedAdmissionTicket) : Routine StartOutcome := do
  let spec := ticket.admission.spec
  let digest := ticket.admission.admissionDigest
  if ¬ validRuntimeAdmissionSpec spec ∨ spec.runId ≠ ticket.manifest.runId ∨
      ¬ isSha256Digest digest then
    pure (.refused AdmissionError.invalid.text)
  else
    let observed := onFence fun store _ => (store.startObserved config.codec spec.runId digest, store)
    match ← observed.attempt with
    | .error message => classify config ticket message
    | .ok view =>
      if view.state ≠ .claimed then pure (decided ticket view false)
      else
        match ← (authorize config ticket view.spec).attempt with
        | .error message => pure (.refused message)
        | .ok () =>
          match ← (startCommitted config n spec.runId digest view.spec).attempt with
          | .error message => classify config ticket message
          | .ok (view, invoke) => pure (decided ticket view invoke)

/-- Whether the decision is for the ticket's admission and may still be closed. -/
def closable (ticket : GovernedAdmissionTicket) (view : RuntimeAdmissionView) : Bool :=
  view.spec == ticket.admission.spec && view.admissionDigest == ticket.admission.admissionDigest &&
    view.state == .starting && view.startDigest.isSome

def stop (ticket : GovernedAdmissionTicket) (view : RuntimeAdmissionView)
    (outcome : RuntimeOutcome) : Routine Unit :=
  match view.startDigest with
  | none => failWith .invalid
  | some startDigest =>
    if ¬ closable ticket view then failWith .invalid
    else do
      let closed ← fenceStop config ticket.admission.spec.runId ticket.admission.admissionDigest
        startDigest outcome
      if closed.spec ≠ ticket.admission.spec ∨
          closed.admissionDigest ≠ ticket.admission.admissionDigest ∨ closed.state ≠ .stopped ∨
          closed.startDigest ≠ some startDigest ∨ closed.outcome ≠ some outcome then
        failWith .changed
      else pure ()

/-! ## Reports -/

/-- The callback of `executeAdapter`: its variables go on even where it fails. -/
def emit (request : RunRequest) (reporting : Reporting) (event : AdapterEvent) :
    Bridge.Routine (Reporting × Except String Unit) :=
  if isWithheld config.inbox event then pure (reporting, .ok ())
  else
    let reporting := reporting.receive event
    match boundaryEvent config.inbox reporting.sequence event with
    | .error message => pure (reporting, .error message)
    | .ok message => do
      match ← (Inbox.appendEvent reporting.currentState message).attempt with
      | .error message => pure (reporting, .error message)
      | .ok _ => do
        let sent ← (report request reporting event message).attempt
        pure (reporting.reported event, sent)

def runtimeOutcomeForStatus : RuntimeStatus → Option RuntimeOutcome
  | .completed => some .completed
  | .failed => some .failed
  | .canceled => some .canceled
  | .inputRequired => some .inputRequired
  | .outcomeUnknown => some .outcomeUnknown
  | .delivered | .working | .expired => none

/-- The outcome of a terminal status. -/
def terminalOutcome : AdapterEvent → Option RuntimeOutcome
  | .status status .. => runtimeOutcomeForStatus status
  | .activity .. | .output .. | .reply .. => none

/-- The variables `Run` shares with its callback: a terminal event is held back. -/
structure Execution where
  reporting : Reporting
  terminal : Option (RuntimeOutcome × AdapterEvent)
  emittedErr : Option String

def Execution.begin (record : Record) : Execution :=
  ⟨⟨record.lastSequence, 0, record.state⟩, none, none⟩

def onEvent (request : RunRequest) (x : Execution) (event : AdapterEvent) : Routine Execution :=
  if x.terminal.isSome then pure { x with emittedErr := some AdmissionError.changed.text }
  else
    match terminalOutcome event with
    | some outcome => pure { x with terminal := some (outcome, event) }
    | none => do
      let (reporting, result) ← onSlot request.runId (emit config request x.reporting event)
      match result with
      | .ok () => pure { x with reporting := reporting }
      | .error message => pure { x with reporting := reporting, emittedErr := some message }

/-- Any number of reports. -/
def reports (request : RunRequest) (x : Execution) : Routine Execution := do
  let count ← ask fun answer => answer.inbox.reports
  Process.iterate count (fun x => do
    let event ← ask fun answer => answer.inbox.event
    onEvent config request x event) x

/-! ## The adapter -/

/-- The adapter once its process is prepared. -/
def runProcess (request : RunRequest) (lease : Nat) (launch : Launch) (x : Execution) :
    Routine Execution :=
  match launch with
  | .skipped | .left => reports config request x
  | .failed => do
    let _ ← (abandon config lease).attempt
    reports config request x
  | .observed observation => do
    match ← (started config lease observation).attempt with
    | .error _ => do
      let _ ← (finished config lease observation).attempt
      reports config request x
    | .ok () => do
      let x ← reports config request x
      let _ ← (finished config lease observation).attempt
      reports config request x

/-- The adapter's `Execute` by the `n`-th process. -/
def executeAdapter (n : Nat) (request : RunRequest) (identity : GovernedProcessIdentity)
    (x : Execution) : Routine Execution := do
  step fun s _ => (.ok (), { s with executed := s.executed ++ [(n, request.runId)] })
  let x ← reports config request x
  let launch ← ask Answer.launch
  if launch = .skipped then pure x
  else
    match ← (prepareProcess config identity).attempt with
    | .error _ => reports config request x
    | .ok lease => runProcess config request lease launch x

/-! ## The runner -/

def captureOutcomeUnknownEvent : AdapterEvent → AdapterEvent
  | .status _ _ session _ =>
    .status .outcomeUnknown (some ⟨"GOVERNED_CAPTURE_OUTCOME_UNKNOWN",
      "Governed repository output could not be confirmed as a canonical checkpoint.", false, none⟩)
      session none
  | event => event

/-- What is reported in the end if the adapter made no error. -/
def terminalEvent (outcome : RuntimeOutcome) (event : AdapterEvent) : Routine AdapterEvent :=
  if outcome = .completed then do
    let captured ← ask Answer.captured
    pure (if captured then event else captureOutcomeUnknownEvent event)
  else pure event

/-- The end of `Run`: the admission is stopped, then the terminal event goes out. -/
def conclude (ticket : GovernedAdmissionTicket) (view : RuntimeAdmissionView) (executed : Bool)
    (x : Execution) : Routine Unit :=
  match x.terminal with
  | none => do
    stop config ticket view .outcomeUnknown
    fail "governed Runtime returned without a terminal outcome"
  | some (outcome, event) =>
    if ¬ executed ∨ x.emittedErr ≠ none then do
      stop config ticket view outcome
      fail (x.emittedErr.getD "Runtime execution failed")
    else do
      let event ← terminalEvent outcome event
      stop config ticket view outcome
      let (_, result) ← onSlot ticket.request.runId
        (emit config ticket.request x.reporting event)
      match result with
      | .ok () => pure ()
      | .error message => fail message

/-- `GovernedRuntimeRunner.Run`, for a decision to invoke. -/
def runRuntime (n : Nat) (ticket : GovernedAdmissionTicket) (view : RuntimeAdmissionView)
    (record : Record) : Routine Unit :=
  match GovernedProcessStore.fencedIdentity view with
  | none => failWith .invalid
  | some identity =>
    if ¬ closable ticket view then failWith .invalid
    else do
      let runnable ← ask Answer.runnable
      if ¬ runnable ∨ ¬ validGovernedProcessIdentity identity then
        stop config ticket view .outcomeUnknown
        failWith .changed
      else
        let x ← executeAdapter config n ticket.request identity (.begin record)
        let executed ← ask fun answer => answer.inbox.executed
        conclude config ticket view executed x

/-- `ExecuteAdmitted`: the admitted adapter offers no desktop handoff and keeps no
output private. -/
def executeAdmitted (n : Nat) (ticket : GovernedAdmissionTicket) (view : RuntimeAdmissionView)
    (record : Record) : Routine Unit :=
  let request := record.request
  if request.desktopAdoption then
    onSlot request.runId (failBeforeRuntime config.inbox request "DESKTOP_HANDOFF_UNAVAILABLE"
      "The original desktop conversation is unavailable; no replacement was started.")
  else if request.ownerPrivateOutput then
    onSlot request.runId (failBeforeRuntime config.inbox request "PRIVATE_OUTPUT_WITHHELD"
      "Private output remains on the owner device.")
  else do
    match ← (runRuntime config n ticket view record).attempt with
    | .ok () => onSlot request.runId (clearTerminalCancellationFence request)
    | .error message => do
      let latest ← onSlot request.runId Inbox.load
      if latest.state.isTerminal then fail message
      else
        onSlot request.runId
          (emitUnknown request latest.lastSequence "RUNTIME_EXECUTION_UNKNOWN")

end

end ConveneWire.Governed
