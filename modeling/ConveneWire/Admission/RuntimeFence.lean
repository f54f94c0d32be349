import ConveneWire.Bridge.Types
import ConveneWire.Contracts.ExecutionJson
import ConveneWire.Lib.Table

/-! # The Runtime fence of the Bridge

`bridge/internal/admission/runtime_fence.go` keeps up to three files for a Run: the
claim, the start and the stop of its Runtime. A file is written once and never
replaced; what a Run is in follows from which of its files exist. The mutex of the
store makes every section between two of its locks one action, so an operation is
a decision on what the store holds and at most one file written. -/

namespace ConveneWire.Admission

open Bridge (Io matchesContractID isContractRunID isContractAgentID)
open Contracts.ExecutionRuntime (maxSafeJSONInteger)

/-- The errors of the package, a missing file and a file operation that failed. -/
inductive AdmissionError where
  | invalid | changed | conflict | notCurrent | possibleStart | notExist | io
  deriving DecidableEq, Repr

def AdmissionError.text : AdmissionError → String
  | .invalid => "local Runtime admission is invalid"
  | .changed => "local Runtime admission state changed"
  | .conflict => "local Runtime admission conflicts with immutable state"
  | .notCurrent => "local Runtime admission is not current"
  | .possibleStart => "local Runtime may have crossed the possible-start boundary"
  | .notExist => "file does not exist"
  | .io => "file operation failed"

/-! ## Times and identities -/

/-- Nanoseconds since the zero `time.Time`, `0001-01-01T00:00:00Z`. -/
abbrev Instant := Int

/-- `0000-01-01T00:00:00Z`. -/
def yearZero : Instant := -(366 * 86400000000000)

/-- `10000-01-01T00:00:00Z`. -/
def yearTenThousand : Instant := 3652059 * 86400000000000

/-- `validProfileTime` of `profileTime t`: the text reads back when its year has four
digits. On such texts the order of the strings is the order of the instants. -/
def validProfileTime (t : Instant) : Bool := decide (yearZero ≤ t) && decide (t < yearTenThousand)

/-- A time as its text; `instant` is what `time.Parse` makes of it. -/
structure Timestamp where
  text : String
  instant : Option Instant
  deriving DecidableEq, Repr

/-- `instant` where the source ignores the error and goes on with the zero time. -/
def Timestamp.parsed (t : Timestamp) : Instant := t.instant.getD 0

def isHexText (value : String) : Bool :=
  value.toList.all fun ch => ch.isDigit || (decide ('a' ≤ ch) && decide (ch ≤ 'f'))

def isSha256Digest (value : String) : Bool := value.length == 64 && isHexText value

def isObjectID (value : String) : Bool :=
  (value.length == 40 || value.length == 64) && isHexText value

def isOperationID : String → Bool := matchesContractID "op_"
def isProfileID : String → Bool := matchesContractID "profile_"

/-! ## Records -/

structure Owner where
  serverUrl : String
  teamId : String
  deviceId : String
  ownerMemberId : String
  deriving DecidableEq, Repr

structure RuntimeAdmissionSpec where
  runId : String
  taskId : String
  agentId : String
  deviceId : String
  planId : String
  planRevision : Int
  planDigest : String
  approvalOperationId : String
  planControlRevision : Int
  nodeKey : String
  dispatchGeneration : Int
  roomId : String
  taskRevision : Int
  definitionRevision : Int
  criteriaRevision : Int
  manifestDigest : String
  grantId : String
  grantRevision : Int
  grantDigest : String
  repositoryId : String
  bindingId : String
  leaseId : String
  workspaceRef : String
  workspaceGeneration : String
  runtimeProfileId : String
  runtimeProfileRevision : Int
  runtimeProfileDigest : String
  preparedOperationId : String
  preparedIntentDigest : String
  preparedIdentityDigest : String
  baseCommit : String
  preparedCommit : String
  preparedTree : String
  outputBaseCommit : String
  workspaceIssuedAt : Timestamp
  workspaceExpiresAt : Timestamp
  grantExpiresAt : Timestamp
  deadline : Timestamp
  deriving DecidableEq, Repr

inductive RuntimeOutcome where
  | completed | failed | canceled | inputRequired | outcomeUnknown
  deriving DecidableEq, Repr

inductive AdmissionState where
  | claimed | starting | stopped
  deriving DecidableEq, Repr

structure RuntimeAdmissionRecord where
  owner : Owner
  spec : RuntimeAdmissionSpec
  claimedAt : Instant
  deriving DecidableEq, Repr

structure RuntimeStartRecord where
  runId : String
  admissionDigest : String
  authorityCheckedAt : Instant
  deriving DecidableEq, Repr

structure RuntimeStopRecord where
  runId : String
  admissionDigest : String
  startDigest : String
  outcome : RuntimeOutcome
  stoppedAt : Instant
  deriving DecidableEq, Repr

structure RuntimeAdmissionView where
  spec : RuntimeAdmissionSpec
  admissionDigest : String
  state : AdmissionState
  claimedAt : Instant
  startDigest : Option String
  authorityCheckedAt : Option Instant
  outcome : Option RuntimeOutcome
  stoppedAt : Option Instant
  deriving DecidableEq, Repr

def maxRuntimeAdmissions : Nat := 256

def maxProfileRecord : Nat := 64 * 1024

/-- `runtimeRecordDigest` of the records, and the length of a marshalled claim. The
other records have fields of bounded length and never come near `maxProfileRecord`. -/
structure Codec where
  size : RuntimeAdmissionRecord → Nat
  admissionDigest : RuntimeAdmissionRecord → String
  startDigest : RuntimeStartRecord → String

/-! ## Specifications -/

namespace RuntimeAdmissionSpec

section

variable (spec : RuntimeAdmissionSpec)

/-- The texts that are only bounded in length. -/
def names : List String :=
  [spec.taskId, spec.deviceId, spec.planId, spec.nodeKey, spec.roomId, spec.grantId,
    spec.repositoryId, spec.bindingId, spec.leaseId, spec.workspaceRef, spec.workspaceGeneration]

def digests : List String :=
  [spec.planDigest, spec.manifestDigest, spec.grantDigest, spec.runtimeProfileDigest,
    spec.preparedIntentDigest, spec.preparedIdentityDigest]

def revisions : List Int :=
  [spec.planRevision, spec.planControlRevision, spec.dispatchGeneration, spec.taskRevision,
    spec.definitionRevision, spec.criteriaRevision, spec.grantRevision, spec.runtimeProfileRevision]

def validCommits : Bool :=
  isObjectID spec.baseCommit && isObjectID spec.preparedCommit && isObjectID spec.preparedTree &&
    spec.baseCommit.length == spec.preparedCommit.length &&
    spec.preparedCommit.length == spec.preparedTree.length &&
    (spec.outputBaseCommit == "" ||
      (isObjectID spec.outputBaseCommit && spec.outputBaseCommit.length == spec.baseCommit.length))

def validTimes : Bool :=
  match spec.workspaceIssuedAt.instant, spec.workspaceExpiresAt.instant,
    spec.grantExpiresAt.instant, spec.deadline.instant with
  | some issued, some workspaceExpiry, some grantExpiry, some deadline =>
    decide (issued < workspaceExpiry) && decide (issued < grantExpiry) &&
      decide (issued < deadline) && decide (deadline ≤ workspaceExpiry) &&
      decide (deadline ≤ grantExpiry)
  | _, _, _, _ => false

/-- The canonical reader takes no integer beyond the exact ones. -/
def exactIntegers : Bool :=
  spec.revisions.all fun n => decide (n ≤ maxSafeJSONInteger)

end

/-- The claims that `Claim` keeps apart: one workspace, one preparation, one Run. -/
def collides (spec existing : RuntimeAdmissionSpec) : Bool :=
  (existing.workspaceRef == spec.workspaceRef &&
      existing.workspaceGeneration == spec.workspaceGeneration) ||
    existing.preparedIdentityDigest == spec.preparedIdentityDigest ||
    existing.preparedOperationId == spec.preparedOperationId

end RuntimeAdmissionSpec

def validRuntimeAdmissionSpec (spec : RuntimeAdmissionSpec) : Bool :=
  isContractRunID spec.runId && isContractAgentID spec.agentId &&
    isProfileID spec.runtimeProfileId && isOperationID spec.approvalOperationId &&
    isOperationID spec.preparedOperationId && spec.digests.all isSha256Digest &&
    spec.validCommits && spec.names.all (fun name => name != "" && name.utf8ByteSize ≤ 256) &&
    spec.revisions.all (fun n => decide (1 ≤ n)) && spec.grantRevision == 1 &&
    spec.runtimeProfileRevision == 1 && spec.validTimes

def runtimeAdmissionCurrent (spec : RuntimeAdmissionSpec) (now : Instant) : Bool :=
  now != 0 && decide (spec.workspaceIssuedAt.parsed ≤ now) &&
    decide (now < spec.workspaceExpiresAt.parsed) && decide (now < spec.grantExpiresAt.parsed) &&
    decide (now < spec.deadline.parsed)

/-! ## The files of a Run -/

/-- The claim comes first, so a Run without one has no files. Their names are digests
of the Run, which are taken to be distinct for distinct Runs. -/
structure AdmissionFiles where
  claimed : RuntimeAdmissionRecord
  starting : Option RuntimeStartRecord
  stopped : Option RuntimeStopRecord
  deriving DecidableEq, Repr

namespace AdmissionFiles

def run (files : AdmissionFiles) : String := files.claimed.spec.runId

def count (files : AdmissionFiles) : Nat :=
  1 + files.starting.toList.length + files.stopped.toList.length

variable (codec : Codec) (owner : Owner)

variable (files : AdmissionFiles)

/-- What `get` asks of the claim; the fixed version numbers are left out throughout. -/
def claimReads : Bool :=
  files.claimed.spec.exactIntegers && files.claimed.owner == owner &&
    validRuntimeAdmissionSpec files.claimed.spec && validProfileTime files.claimed.claimedAt

def startReads (start : RuntimeStartRecord) : Bool :=
  start.runId == files.run && start.admissionDigest == codec.admissionDigest files.claimed &&
    validProfileTime start.authorityCheckedAt &&
    decide (files.claimed.claimedAt ≤ start.authorityCheckedAt)

def stopReads (start : RuntimeStartRecord) (stop : RuntimeStopRecord) : Bool :=
  stop.runId == files.run && stop.admissionDigest == codec.admissionDigest files.claimed &&
    stop.startDigest == codec.startDigest start && validProfileTime stop.stoppedAt &&
    decide (start.authorityCheckedAt ≤ stop.stoppedAt)

def claimedView : RuntimeAdmissionView where
  spec := files.claimed.spec
  admissionDigest := codec.admissionDigest files.claimed
  state := .claimed
  claimedAt := files.claimed.claimedAt
  startDigest := none
  authorityCheckedAt := none
  outcome := none
  stoppedAt := none

def startingView (start : RuntimeStartRecord) : RuntimeAdmissionView :=
  { files.claimedView codec with
    state := .starting
    startDigest := some (codec.startDigest start)
    authorityCheckedAt := some start.authorityCheckedAt }

def stoppedView (start : RuntimeStartRecord) (stop : RuntimeStopRecord) : RuntimeAdmissionView :=
  { files.startingView codec start with
    state := .stopped
    outcome := some stop.outcome
    stoppedAt := some stop.stoppedAt }

/-- `RuntimeFenceStore.get` once the claim is there. -/
def view : Except AdmissionError RuntimeAdmissionView :=
  if ¬ files.claimReads owner then .error .changed
  else
    match files.starting, files.stopped with
    | none, none => .ok (files.claimedView codec)
    | none, some _ => .error .changed
    | some start, none =>
      if files.startReads codec start then .ok (files.startingView codec start)
      else .error .changed
    | some start, some stop =>
      if files.startReads codec start && files.stopReads codec start stop then
        .ok (files.stoppedView codec start stop)
      else .error .changed

end AdmissionFiles

/-! ## The store -/

/-- `pending` counts the temporary files that a stopped process left behind. -/
structure RuntimeFenceStore where
  owner : Owner
  runs : List AdmissionFiles
  pending : Nat
  deriving DecidableEq, Repr

/-- A file written: it fails before or after the name is linked, or what follows it is
the result. -/
def put {σ α : Type} (io : Io) (s next : σ) (after : Except AdmissionError α) :
    Except AdmissionError α × σ :=
  match io with
  | .ok => (after, next)
  | .failsBefore => (.error .io, s)
  | .failsAfter => (.error .io, next)

namespace RuntimeFenceStore

variable (codec : Codec)

section

variable (store : RuntimeFenceStore)

def lookup (run : String) : Option AdmissionFiles :=
  Table.lookup AdmissionFiles.run run store.runs

def get (run : String) : Except AdmissionError RuntimeAdmissionView :=
  if ¬ isContractRunID run then .error .invalid
  else
    match store.lookup run with
    | none => .error .notExist
    | some files => files.view codec store.owner

def entries : Nat :=
  (store.runs.map AdmissionFiles.count).sum + store.pending

def list : Except AdmissionError (List RuntimeAdmissionView) :=
  if maxRuntimeAdmissions * 3 + 16 < store.entries then .error .changed
  else
    match store.runs.mapM (AdmissionFiles.view codec store.owner) with
    | .error e => .error e
    | .ok views =>
      if maxRuntimeAdmissions < views.length then .error .changed
      else .ok (views.mergeSort fun a b => !decide (b.spec.runId < a.spec.runId))

def withClaim (record : RuntimeAdmissionRecord) : RuntimeFenceStore :=
  { store with runs := store.runs ++ [⟨record, none, none⟩] }

def withStart (record : RuntimeStartRecord) : RuntimeFenceStore :=
  { store with
    runs := Table.update (fun files => files.run = record.runId)
      (fun files => { files with starting := some record }) store.runs }

def withStop (record : RuntimeStopRecord) : RuntimeFenceStore :=
  { store with
    runs := Table.update (fun files => files.run = record.runId)
      (fun files => { files with stopped := some record }) store.runs }

/-! ## Claim -/

/-- `Claim` up to its write: the claim that is there, or the record to write. -/
def claiming (spec : RuntimeAdmissionSpec) (now : Instant) : Except AdmissionError
    (RuntimeAdmissionView ⊕ RuntimeAdmissionRecord) :=
  if ¬ validRuntimeAdmissionSpec spec ∨ now = 0 then .error .invalid
  else if spec.deviceId ≠ store.owner.deviceId then .error .notCurrent
  else
    match store.get codec spec.runId with
    | .ok view => if view.spec ≠ spec then .error .conflict else .ok (.inl view)
    | .error .notExist =>
      if ¬ runtimeAdmissionCurrent spec now then .error .notCurrent
      else
        match store.list codec with
        | .error e => .error e
        | .ok views =>
          if maxRuntimeAdmissions ≤ views.length ∨ views.any (fun view => spec.collides view.spec) then
            .error .conflict
          else if maxProfileRecord < codec.size ⟨store.owner, spec, now⟩ then .error .invalid
          else .ok (.inr ⟨store.owner, spec, now⟩)
    | .error e => .error e

def claim (spec : RuntimeAdmissionSpec) (now : Instant) (io : Io) : Except AdmissionError
    RuntimeAdmissionView × RuntimeFenceStore :=
  match store.claiming codec spec now with
  | .error e => (.error e, store)
  | .ok (.inl view) => (.ok view, store)
  | .ok (.inr record) =>
    put io store (store.withClaim record) ((store.withClaim record).get codec spec.runId)

/-! ## Start -/

/-- The first section of `start`, before the authority is asked. -/
def startObserved (run expected : String) : Except AdmissionError RuntimeAdmissionView :=
  if ¬ isContractRunID run ∨ ¬ isSha256Digest expected then .error .invalid
  else
    match store.get codec run with
    | .error e => .error e
    | .ok view => if view.admissionDigest ≠ expected then .error .conflict else .ok view

/-- The second section of `start` up to its write. `seen` is the specification that the
authority was asked about. -/
def starting (run expected : String) (seen : RuntimeAdmissionSpec) (authorizedAt : Instant) : Except
    AdmissionError (RuntimeAdmissionView ⊕ RuntimeStartRecord) :=
  match store.get codec run with
  | .error e => .error e
  | .ok current =>
    if current.admissionDigest ≠ expected ∨ current.spec ≠ seen then .error .changed
    else if current.state ≠ .claimed then .ok (.inl current)
    else if ¬ runtimeAdmissionCurrent current.spec authorizedAt then .error .notCurrent
    else .ok (.inr ⟨run, expected, authorizedAt⟩)

/-- The second section of `start`: the view, and whether the caller may invoke. -/
def startCommitted (run expected : String) (seen : RuntimeAdmissionSpec) (authorizedAt : Instant)
    (io : Io) : Except AdmissionError (RuntimeAdmissionView × Bool) × RuntimeFenceStore :=
  match store.starting codec run expected seen authorizedAt with
  | .error e => (.error e, store)
  | .ok (.inl view) => (.ok (view, false), store)
  | .ok (.inr record) =>
    put io store (store.withStart record)
      (((store.withStart record).get codec run).map fun view => (view, true))

/-- `Start` when no other call comes between its two sections. -/
def start (run expected : String) (authority : Except AdmissionError Unit) (clock : Instant)
    (io : Io) : Except AdmissionError (RuntimeAdmissionView × Bool) × RuntimeFenceStore :=
  match store.startObserved codec run expected with
  | .error e => (.error e, store)
  | .ok view =>
    if view.state ≠ .claimed then (.ok (view, false), store)
    else
      match authority with
      | .error e => (.error e, store)
      | .ok () => store.startCommitted codec run expected view.spec clock io

/-! ## Stop -/

def stopping (run expectedAdmission expectedStart : String) (outcome : RuntimeOutcome)
    (now : Instant) : Except AdmissionError (RuntimeAdmissionView ⊕ RuntimeStopRecord) :=
  if now = 0 then .error .invalid
  else
    match store.get codec run with
    | .error e => .error e
    | .ok view =>
      if view.admissionDigest ≠ expectedAdmission ∨ view.startDigest ≠ some expectedStart then
        .error .conflict
      else if view.state = .stopped then
        if view.outcome ≠ some outcome then .error .conflict else .ok (.inl view)
      else if view.state ≠ .starting ∨ now < view.authorityCheckedAt.getD 0 then .error .invalid
      else .ok (.inr ⟨run, expectedAdmission, expectedStart, outcome, now⟩)

def stop (run expectedAdmission expectedStart : String) (outcome : RuntimeOutcome) (now : Instant)
    (io : Io) : Except AdmissionError RuntimeAdmissionView × RuntimeFenceStore :=
  match store.stopping codec run expectedAdmission expectedStart outcome now with
  | .error e => (.error e, store)
  | .ok (.inl view) => (.ok view, store)
  | .ok (.inr record) =>
    put io store (store.withStop record) ((store.withStop record).get codec run)

end

/-- The loop of `RecoverUnknown`; `io` says how the write for a Run goes. -/
def recoverViews (now : Instant) (io : String → Io) :
    List RuntimeAdmissionView → RuntimeFenceStore →
      Except AdmissionError (List RuntimeAdmissionView) × RuntimeFenceStore
  | [], store => (.ok [], store)
  | view :: rest, store =>
    match view.state, view.startDigest, view.authorityCheckedAt with
    | .starting, some startDigest, some started =>
      if now < started then (.error .invalid, store)
      else
        let record := ⟨view.spec.runId, view.admissionDigest, startDigest, .outcomeUnknown, now⟩
        match put (io view.spec.runId) store (store.withStop record)
            ((store.withStop record).get codec view.spec.runId) with
        | (.error e, next) => (.error e, next)
        | (.ok closed, next) =>
          match recoverViews now io rest next with
          | (.error e, last) => (.error e, last)
          | (.ok recovered, last) => (.ok (closed :: recovered), last)
    | _, _, _ => recoverViews now io rest store

def recoverUnknown (store : RuntimeFenceStore) (now : Instant) (io : String → Io) :
    Except AdmissionError (List RuntimeAdmissionView) × RuntimeFenceStore :=
  if now = 0 then (.error .invalid, store)
  else
    match store.list codec with
    | .error e => (.error e, store)
    | .ok views => recoverViews codec now io views store

end RuntimeFenceStore

end ConveneWire.Admission
