import ConveneWire.Grants.Store

/-! # The local integration of a verified candidate

`bridge/internal/admission/integration.go` joins an operation that Central admitted to
one local branch. It writes an intent, asks Git to move the branch from the expected
commit to the candidate, and writes a receipt that it never takes back. The branch is
shared with everybody who works in the repository, and Git may be stopped at any time. -/

namespace ConveneWire.Integration

open Bridge (Io)
open Admission (Instant Timestamp)
open Grants (RepositoryOperationRequest IntegrateAction IntegrationTarget)
open Concurrent (Process)
open Concurrent.Process (ask fail)

/-! ## Admissions and receipts -/

/-- The part of `RepositoryCheckpoint` that integration reads. -/
structure RepositoryCheckpoint where
  checkpointId : String
  repositoryId : String
  bindingId : String
  workspaceGeneration : String
  candidateCommit : String
  candidateTree : String
  inputDigest : String
  deriving DecidableEq, Repr

/-- `validAdmission` leaves only operations that integrate. -/
structure Admission where
  operation : RepositoryOperationRequest
  action : IntegrateAction
  isIntegrate : operation.action = .integrate action
  checkpoint : RepositoryCheckpoint
  approvalDigest : String
  admittedAt : Timestamp
  deriving DecidableEq

inductive ReceiptState where
  | prepared | succeeded | failed | canceled | outcomeUnknown
  deriving DecidableEq, Repr

structure RepositoryOperationReceipt where
  operationId : String
  requestDigest : String
  repositoryId : String
  bindingId : String
  deviceId : String
  state : ReceiptState
  observedGeneration : Option String
  checkpointId : Option String
  verificationId : Option String
  candidateCommit : Option String
  candidateTree : Option String
  target : Option IntegrationTarget
  providerObservationId : Option String
  errorCode : Option String
  recordedAt : Instant
  deriving DecidableEq, Repr

/-- The receipt of `retainTerminal`. -/
def terminalReceipt (admission : Admission) (state : ReceiptState) (errorCode : Option String)
    (now : Instant) : RepositoryOperationReceipt where
  operationId := admission.operation.operationId
  requestDigest := admission.operation.requestDigest
  repositoryId := admission.operation.repositoryId
  bindingId := admission.operation.bindingId
  deviceId := admission.operation.deviceId
  state := state
  observedGeneration := some admission.operation.expectedGeneration
  checkpointId := some admission.checkpoint.checkpointId
  verificationId := none
  candidateCommit := some admission.action.candidateCommit
  candidateTree := some admission.action.candidateTree
  target := some admission.action.target
  providerObservationId := none
  errorCode := errorCode
  recordedAt := now

/-! ## What the Bridge holds -/

/-- The branch, the two files of the operation, and three things that are on no disk:
every move of the branch by this operation, every commit it saw there, and whether a move
was reported as a failure and the branch was not looked at since. -/
structure Repository where
  branch : Option String
  intent : Option Admission
  receipt : Option RepositoryOperationReceipt
  updates : List (String × String)
  seen : List String
  lost : Bool

/-- How a Git command fails: the context ended, or anything else. -/
inductive GitError where
  | canceled | deadlineExceeded | failed
  deriving DecidableEq, Repr

/-- `update-ref` moves the branch and says so, is stopped after it took effect, or fails. -/
inductive UpdateAnswer where
  | done
  | stopped (e : GitError)
  | refused (e : GitError)
  deriving DecidableEq, Repr

structure Answer where
  retrieved : Bool
  reads : Bool
  now : Instant
  source : Bool
  granted : Bool
  io : Io
  accepted : Bool
  checked : Option GitError
  inspects : Bool
  checkedOut : Except GitError Bool
  imported : Option GitError
  ancestor : Except GitError Bool
  context : Option GitError
  update : UpdateAnswer

abbrev Routine := Process Repository Answer

/-- The errors of `IntegrateExactTarget`. -/
inductive IntegrationError where
  | git (e : GitError)
  | targetMoved | targetCheckedOut | nonFastForward | outcomeUnknown
  deriving DecidableEq, Repr

def integrationFailure : IntegrationError → ReceiptState × String
  | .git .canceled | .git .deadlineExceeded => (.canceled, "INTEGRATION_CANCELED")
  | .targetMoved => (.failed, "INTEGRATION_TARGET_MOVED")
  | .targetCheckedOut => (.failed, "INTEGRATION_TARGET_CHECKED_OUT")
  | .nonFastForward => (.failed, "INTEGRATION_NON_FAST_FORWARD")
  | .outcomeUnknown => (.outcomeUnknown, "INTEGRATION_TARGET_OUTCOME_UNKNOWN")
  | .git .failed => (.failed, "INTEGRATION_LOCAL_EFFECT_FAILED")

/-! ## Journal -/

/-- `Journal.Receipt`. -/
def readReceipt : Routine (Option RepositoryOperationReceipt) := .step fun s a =>
  if a.reads then (.ok s.receipt, s) else (.error "integration evidence changed", s)

/-- `Journal.Intent`. -/
def readIntent : Routine (Option Admission) := .step fun s a =>
  if a.reads then (.ok s.intent, s) else (.error "integration evidence changed", s)

/-- `ensure`: a file written once; another content under the name is a conflict. -/
def ensureFile {α : Type} [DecidableEq α] (existing : Option α) (value : α) (io : Io)
    (s next : Repository) : Except String Unit × Repository :=
  match existing with
  | some stored =>
    if stored = value ∧ io = .ok then (.ok (), s)
    else (.error "integration journal already contains different evidence", s)
  | none =>
    match io with
    | .ok => (.ok (), next)
    | .failsBefore => (.error "file operation failed", s)
    | .failsAfter => (.error "file operation failed", next)

def putIntent (admission : Admission) : Routine Unit := .step fun s a =>
  ensureFile s.intent admission a.io s { s with intent := some admission }

/-- `PutReceipt`; `valid` is the schema of the shared contract. -/
def putReceipt (valid : RepositoryOperationReceipt → Bool) (receipt : RepositoryOperationReceipt) :
    Routine Unit := .step fun s a =>
  if valid receipt then ensureFile s.receipt receipt a.io s { s with receipt := some receipt }
  else (.error "integration evidence is invalid", s)

/-! ## Git -/

/-- `integrationTarget`; nothing is returned for a missing branch or a failed command. -/
def integrationTarget : Routine (Option String) := .step fun s a =>
  if a.inspects then (.ok s.branch, { s with seen := s.seen ++ s.branch.toList, lost := false })
  else (.ok none, { s with lost := false })

/-- `update-ref` with the expected old commit. -/
def updateRef (expected candidate : String) : Routine (Option GitError) := .step fun s a =>
  let moved := { s with branch := some candidate, updates := s.updates ++ [(expected, candidate)] }
  match a.update with
  | .refused e => (.ok (some e), s)
  | .stopped e =>
    if s.branch = some expected then (.ok (some e), { moved with lost := true }) else (.ok (some e), s)
  | .done => if s.branch = some expected then (.ok none, moved) else (.ok (some .failed), s)

variable (admission : Admission)

/-- What follows `update-ref` in `IntegrateExactTarget`. -/
def afterUpdate (updateErr : Option GitError) : Routine (Except IntegrationError Unit) := do
  let current ← integrationTarget
  match updateErr with
  | none =>
    if current = some admission.action.candidateCommit then return .ok ()
    else return .error .outcomeUnknown
  | some e =>
    match current with
    | none => return .error .outcomeUnknown
    | some commit =>
      if commit = admission.action.candidateCommit then return .ok ()
      else if commit = admission.action.target.expectedCommit then return .error (.git e)
      else return .error .targetMoved

/-- From the second look for a checkout of the branch on. -/
def updateExactTarget : Routine (Except IntegrationError Unit) := do
  match ← ask Answer.checkedOut with
  | .error e => return .error (.git e)
  | .ok true => return .error .targetCheckedOut
  | .ok false =>
    match ← ask Answer.context with
    | some e => return .error (.git e)
    | none =>
      let updateErr ← updateRef admission.action.target.expectedCommit admission.action.candidateCommit
      afterUpdate admission updateErr

/-- The import of the sealed candidate, and what has to hold of it. -/
def importCandidate : Routine (Except IntegrationError Unit) := do
  match ← ask Answer.imported with
  | some e => return .error (.git e)
  | none =>
    if admission.action.candidateCommit = admission.action.target.expectedCommit then
      return .error .nonFastForward
    else
      match ← ask Answer.ancestor with
      | .error e => return .error (.git e)
      | .ok false => return .error .nonFastForward
      | .ok true => updateExactTarget admission

/-- `IntegrateExactTarget`. The commands between two looks at the branch are one answer. -/
def integrateExactTarget : Routine (Except IntegrationError Unit) := do
  match ← ask Answer.checked with
  | some e => return .error (.git e)
  | none =>
    let current ← integrationTarget
    if current ≠ some admission.action.target.expectedCommit then return .error .targetMoved
    else
      match ← ask Answer.checkedOut with
      | .error e => return .error (.git e)
      | .ok true => return .error .targetCheckedOut
      | .ok false => importCandidate admission

/-! ## Execute -/

variable (valid : RepositoryOperationReceipt → Bool)

/-- `transport.Retain` of a receipt on file; it changes nothing here. -/
def retain : Routine Unit := .step fun s a =>
  if a.accepted then (.ok (), s) else (.error "integration API rejected request", s)

def retainTerminal (state : ReceiptState) (errorCode : Option String) (now : Instant) :
    Routine Unit := do
  putReceipt valid (terminalReceipt admission state errorCode now)
  retain

def executeCAS (now : Instant) : Routine Unit := do
  let granted ← ask Answer.granted
  if ¬ granted then
    retainTerminal admission valid .failed (some "INTEGRATION_LOCAL_AUTHORITY_UNAVAILABLE") now
  else
    let result ← integrateExactTarget admission
    let later ← ask Answer.now
    match result with
    | .ok () => retainTerminal admission valid .succeeded none later
    | .error e =>
      retainTerminal admission valid (integrationFailure e).1 (some (integrationFailure e).2) later

def recoverOrExecute (source : Bool) (now : Instant) : Routine Unit := do
  if ¬ source then
    retainTerminal admission valid .outcomeUnknown (some "INTEGRATION_RECOVERY_UNAVAILABLE") now
  else
    match ← integrationTarget with
    | none =>
      retainTerminal admission valid .outcomeUnknown (some "INTEGRATION_RECOVERY_UNAVAILABLE") now
    | some current =>
      if current = admission.action.candidateCommit then
        retainTerminal admission valid .succeeded none now
      else if current ≠ admission.action.target.expectedCommit then
        retainTerminal admission valid .outcomeUnknown (some "INTEGRATION_TARGET_OUTCOME_UNKNOWN") now
      else executeCAS admission valid now

/-- `Execute` once the journal has no receipt. -/
def executeOpen (intent : Option Admission) : Routine Unit := do
  if intent.any (· ≠ admission) then fail "local Runtime admission state changed"
  else
    let (now, source, granted) ← ask fun a : Answer => (a.now, a.source, a.granted)
    if now = 0 then fail "local Runtime admission is invalid"
    else if intent.isSome then recoverOrExecute admission valid source now
    else if ¬ source ∨ ¬ granted then
      retainTerminal admission valid .failed (some "INTEGRATION_LOCAL_AUTHORITY_UNAVAILABLE") now
    else do
      putIntent admission
      executeCAS admission valid now

def execute : Routine Unit := do
  let retrieved ← ask Answer.retrieved
  if ¬ retrieved then fail "integration API outcome is unknown"
  else
    match ← readReceipt with
    | some _ => retain
    | none =>
      let intent ← readIntent
      executeOpen admission valid intent

end ConveneWire.Integration
