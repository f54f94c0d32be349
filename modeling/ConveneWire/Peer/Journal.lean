import Mathlib.Data.Nat.Notation

/-! # The journal of a Peer Run

`bridge/internal/peer/run_journal.go`, seen from one Run: the three files that
are written once each (`received.json`, `started.json`, `outcome.json`) and the
copy of them the running core has observed. Instants are milliseconds; what the
checks of a request, a proof or a delivery answer is fixed by the partition.

A write replaces a file by a rename, so it happens or it does not; its error may
be reported in either case. A crash ends the process between any two calls. -/

namespace ConveneWire.Peer

def errStore : String := "Peer owner storage is missing, changed or bound to a different identity"
def errConflict : String := "Peer owner storage revision conflict"
def errProof : String := "Peer proof does not match the pinned identity, intent or freshness"
def errExport : String := "Peer export requires current explicit local authorization"
def errTransport : String :=
  "Peer endpoint request failed; retain the original operation for recovery"
def errNotExist : String := "file does not exist"
def errWrite : String := "write failed"

/-! ## Records -/

inductive EventStatus where
  | delivered | working | inputRequired | completed | failed | canceled
  deriving DecidableEq, Repr

inductive EventType where
  | status (status : EventStatus) | reply | output | activity
  deriving DecidableEq, Repr

/-- `PeerRunEvent`. `members` is the JSON text of everything but the sequence. -/
structure PeerRunEvent where
  sequence : Nat
  type : EventType
  clarification : Bool
  members : String
  deriving DecidableEq, Repr

inductive OutcomeState where
  | completed | failed | outcomeUnknown | canceled | expired | deliveryDenied | inputRequired
  deriving DecidableEq, Repr

/-- The event status that spells an outcome, where there is one. -/
def OutcomeState.status? : OutcomeState → Option EventStatus
  | .completed => some .completed
  | .failed => some .failed
  | .canceled => some .canceled
  | .inputRequired => some .inputRequired
  | .outcomeUnknown | .expired | .deliveryDenied => none

structure RunOutcome where
  state : OutcomeState
  reply : String
  /-- The deferred final status, kept until it can be published. -/
  terminal : Option PeerRunEvent
  deriving DecidableEq, Repr

/-- What the journal reads of a `PeerExecutionBinding`. -/
structure Binding where
  runId : String
  requestDigest : String
  deriving DecidableEq, Repr

/-- `RunSettlementCapability`. -/
structure Capability where
  capabilityId : String
  token : String
  issuedAt : Nat
  expiresAt : Nat
  deriving DecidableEq, Repr

structure RunDelivery where
  request : String
  settlement : Capability
  deriving DecidableEq, Repr

structure ReceivedRun where
  receivedAt : Nat
  request : String
  settlement : Option Capability
  deriving DecidableEq, Repr

structure StartedRun where
  requestDigest : String
  startedAt : Nat
  deriving DecidableEq, Repr

structure FinishedRun where
  requestDigest : String
  recordedAt : Nat
  outcome : RunOutcome
  deriving DecidableEq, Repr

structure RunFiles where
  received : Option ReceivedRun
  started : Option StartedRun
  outcome : Option FinishedRun
  deriving DecidableEq, Repr

structure RunRecord where
  request : String
  binding : Binding
  receivedAt : Nat
  startedAt : Option Nat
  outcome : Option RunOutcome
  settlement : Option Capability
  deriving DecidableEq, Repr

structure RunJournal where
  files : RunFiles
  /-- The record the running core has seen last; a restart forgets it. -/
  observed : Option RunRecord
  deriving DecidableEq, Repr

/-- What the checks of the partition answer: `request` verifies a request and reads its
binding, `receiptDigest` verifies a delivery. -/
structure Partition where
  request : String → Except String Binding
  receiptDigest : RunDelivery → Option String

def proofClockSkew : Nat := 5 * 1000

def maximumRunReplyBytes : Nat := 256 * 1024

inductive Write where
  | done | refused
  /-- The file is there, but its directory could not be synced. -/
  | unreported
  deriving DecidableEq, Repr

structure Io where
  /-- The directory of the journal is intact. -/
  checked : Bool
  /-- A fresh admission, an active membership and a deadline ahead (`RunJournal.current`). -/
  current : Bool
  write : Write
  now : Nat
  deriving DecidableEq, Repr

/-! ## Reading -/

def validRunOutcome (outcome : RunOutcome) (started : Bool) : Bool :=
  let reply := decide (outcome.reply.utf8ByteSize ≤ maximumRunReplyBytes) &&
    (outcome.state = .completed || outcome.reply = "")
  let terminal := match outcome.terminal with
    | none => true
    | some event =>
      (match event.type, outcome.state.status? with
        | .status status, some final => status = final
        | _, _ => false) &&
      (outcome.state ≠ .inputRequired || event.clarification)
  reply && terminal &&
    match outcome.state with
    | .completed | .failed | .outcomeUnknown => started
    | .canceled | .expired => true
    | .deliveryDenied => !started
    | .inputRequired => started && outcome.terminal.isSome

def settlementTimely (p : Partition) (received : ReceivedRun) : Bool :=
  match received.settlement with
  | none => true
  | some capability =>
    (p.receiptDigest ⟨received.request, capability⟩).isSome &&
      capability.issuedAt ≤ received.receivedAt + proofClockSkew &&
      received.receivedAt < capability.expiresAt

/-- The start and the outcome belong to the request and follow it in time. -/
def RunFiles.consistent (files : RunFiles) (received : ReceivedRun) (binding : Binding) : Bool :=
  (match files.started with
    | none => true
    | some started =>
      started.requestDigest = binding.requestDigest && received.receivedAt ≤ started.startedAt) &&
  (match files.outcome with
    | none => true
    | some finished =>
      finished.requestDigest = binding.requestDigest &&
        received.receivedAt ≤ finished.recordedAt &&
        decide (∀ started ∈ files.started, started.startedAt ≤ finished.recordedAt) &&
        validRunOutcome finished.outcome files.started.isSome)

/-- `RunJournal.load` without the comparison with what was observed before. -/
def RunFiles.read (p : Partition) (runId : String) (files : RunFiles) : Except String RunRecord :=
  match files.received with
  | none => .error errNotExist
  | some received =>
    match p.request received.request with
    | .error _ => .error errStore
    | .ok binding =>
      if binding.runId = runId ∧ settlementTimely p received ∧ files.consistent received binding then
        .ok ⟨received.request, binding, received.receivedAt, files.started.map (·.startedAt),
          files.outcome.map (·.outcome), received.settlement⟩
      else .error errStore

/-- The later record may only have more in it. -/
def RunRecord.extendedBy (prior record : RunRecord) : Bool :=
  prior.request = record.request && prior.receivedAt = record.receivedAt &&
    prior.settlement = record.settlement &&
    (prior.startedAt.isNone || prior.startedAt = record.startedAt) &&
    (prior.outcome.isNone || prior.outcome = record.outcome)

namespace RunJournal

variable (p : Partition)

variable (runId : String)

def load (j : RunJournal) : Except String RunRecord × RunJournal :=
  match j.files.read p runId with
  | .error e => (.error (if e = errNotExist ∧ j.observed.isSome then errStore else e), j)
  | .ok record =>
    if ∀ prior ∈ j.observed, prior.extendedBy record then
      (.ok record, { j with observed := some record })
    else (.error errStore, j)

/-- Writes a file of the Run and reads the record back. -/
def store (io : Io) (files : RunFiles) (j : RunJournal) : Except String RunRecord × RunJournal :=
  match io.write with
  | .refused => (.error errWrite, j)
  | .unreported => (.error errWrite, { j with files })
  | .done => load p runId { j with files }

/-! ## Calls -/

def receive (raw : String) (settlement : Option Capability) (fresh : Bool) (io : Io)
    (j : RunJournal) : Except String RunRecord × RunJournal :=
  match p.request raw with
  | .error e => (.error e, j)
  | .ok binding =>
    if binding.runId ≠ runId ∨ io.checked = false then (.error errStore, j)
    else
      match j.load p runId with
      | (.ok prior, j) =>
        if prior.binding = binding ∧ prior.request = raw ∧
            (settlement.isSome → prior.settlement = settlement) then (.ok prior, j)
        else (.error errConflict, j)
      | (.error e, j) =>
        if e ≠ errNotExist then (.error e, j)
        else if ∀ capability ∈ settlement, capability.issuedAt ≤ io.now + proofClockSkew ∧
            io.now < capability.expiresAt then
          if fresh ∧ io.current = false then (.error errExport, j)
          else j.store p runId io { j.files with received := some ⟨io.now, raw, settlement⟩ }
        else (.error errProof, j)

/-- Retains a delivery; it grants no start rights. -/
def receiveDelivery (delivery : RunDelivery) (io : Io) (j : RunJournal) : Except String RunRecord ×
    RunJournal :=
  if (p.receiptDigest delivery).isNone then (.error errProof, j)
  else j.receive p runId delivery.request (some delivery.settlement) false io

def begin (io : Io) (j : RunJournal) : Except String RunRecord × RunJournal :=
  if io.checked = false then (.error errStore, j)
  else
    match j.load p runId with
    | (.error e, j) => (.error e, j)
    | (.ok record, j) =>
      if record.startedAt.isSome ∨ record.outcome.isSome then (.error errConflict, j)
      else if io.current = false then (.error errExport, j)
      else if io.now < record.receivedAt then (.error errStore, j)
      else j.store p runId io
        { j.files with started := some ⟨record.binding.requestDigest, io.now⟩ }

def finish (outcome : RunOutcome) (io : Io) (j : RunJournal) : Except String RunRecord × RunJournal
    :=
  if io.checked = false then (.error errStore, j)
  else
    match j.load p runId with
    | (.error e, j) => (.error e, j)
    | (.ok record, j) =>
      match record.outcome with
      | some prior => if prior = outcome then (.ok record, j) else (.error errConflict, j)
      | none =>
        if validRunOutcome outcome record.startedAt.isSome ∧ record.receivedAt ≤ io.now ∧
            (∀ startedAt ∈ record.startedAt, startedAt ≤ io.now) then
          j.store p runId io
            { j.files with outcome := some ⟨record.binding.requestDigest, io.now, outcome⟩ }
        else (.error errStore, j)

end RunJournal

end ConveneWire.Peer
