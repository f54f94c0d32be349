import ConveneWire.Bridge.Types

/-! # The inbox of the Bridge

The calls of `inbox.go` for one Run. The mutex of the inbox makes each of them
one atomic action of the slot; a file operation that fails may have taken effect
all the same. -/

namespace ConveneWire.Bridge

open Run (RuntimeEvent)
open Concurrent (Process)

/-! ## Records -/

/-- The record `Accept` writes for a new Run. -/
def Record.ofRequest (payloadHash : String) (request : RunRequest) : Record where
  runId := request.runId
  idempotencyKey := request.idempotencyKey
  payloadHash := payloadHash
  request := request
  state := .accepted
  lastSequence := 1
  events := []

def Record.withState (record : Record) (next : State) : Record := { record with state := next }

/-- The record with the next sequenced event. -/
def Record.append (record : Record) (state : State) (event : RuntimeEvent) : Record :=
  { record with
    state := state
    lastSequence := event.sequence
    events := record.events ++ [.runtime event] }

def Record.withEvidence (record : Record) (evidence : SupplementalEvidence) : Record :=
  { record with events := record.events ++ [.supplementalEvidence evidence] }

/-- The status that acknowledges a tombstone of a Run without inbox record. -/
def cancellationTombstoneStatus : Frame := .event (.plainStatus 1 .canceled)

namespace RunSlot

variable (s : RunSlot)

def withRecord (record : Record) : RunSlot := { s with record := some record }

/-- A new tombstone is one more recorded fence. -/
def withTombstone (tombstone : CancellationTombstone) : RunSlot :=
  { s with tombstone := some tombstone, fences := s.fences ++ [⟨tombstone, false⟩] }

/-- The removal of the tombstone settles every fence if it was acknowledged for a Run
without inbox record. -/
def withdrawTombstone : RunSlot :=
  { s with
    tombstone := none
    fences :=
      if s.record = none ∧ cancellationTombstoneStatus ∈ s.sent then
        s.fences.map fun fence => { fence with acknowledged := true }
      else s.fences }

def withSent (frame : Frame) : RunSlot := { s with sent := s.sent ++ [frame] }

end RunSlot

/-- A call that replaces or creates a file. -/
def written {α : Type} (answer : Answer) (s next : RunSlot) (value : α) :
    Except String α × RunSlot :=
  match answer.io with
  | .ok => (.ok value, next)
  | .failsBefore => (.error "inbox file operation failed", s)
  | .failsAfter => (.error "inbox file operation failed", next)

/-- A call that only reads. -/
def loaded {α : Type} (answer : Answer) (s : RunSlot) (result : Except String α) :
    Except String α × RunSlot :=
  match answer.io with
  | .ok => (result, s)
  | .failsBefore | .failsAfter => (.error "inbox file could not be read", s)

/-! ## Decisions

What a call does with what it has loaded. A rewrite of the record fails, leaves
the record as it is (`none`) or replaces it. -/

/-- `Inbox.Accept`: the record to return, and whether it was there before. -/
def acceptance (config : Config) (request : RunRequest) (existing : Option Record) :
    Except String (Record × Bool) :=
  match existing with
  | some existing =>
    if existing.idempotencyKey ≠ request.idempotencyKey ∨
        existing.payloadHash ≠ config.payloadHash request then
      .error "duplicate Run payload mismatch"
    else .ok (existing, true)
  | none => .ok (Record.ofRequest (config.payloadHash request) request, false)

/-- `Inbox.TransitionLocalState`: a compare-and-set of the local state. -/
def Record.transition (expected next : State) (record : Record) : Except String (Option Record) :=
  if record.state ≠ expected then
    .error ("Run local state changed: " ++ record.state.text ++ ", expected " ++ expected.text)
  else .ok (some (record.withState next))

/-- `Inbox.AppendEvent`. -/
def Record.appending (state : State) (event : RuntimeEvent) (record : Record) :
    Except String (Option Record) :=
  if event.sequence ≤ record.lastSequence then .ok none
  else if event.sequence ≠ record.lastSequence + 1 then
    .error ("Run event sequence gap: " ++ toString event.sequence)
  else .ok (some (record.append state event))

/-- The entry that already carries the offer's operation. -/
def evidenceOf (operationId : String) (record : Record) : Option SupplementalEvidence :=
  record.events.findSome? fun
    | .runtime _ => none
    | .supplementalEvidence evidence =>
      if evidence.offer.operationId = operationId then some evidence else none

def hasReply (sequence : Int) (record : Record) : Bool :=
  record.runtimeEvents.any fun
    | .reply n .. => n == sequence
    | .status .. | .activity .. | .output .. => false

/-- `Inbox.AppendSupplementalEvidence`. -/
def Record.appendingEvidence (evidence : SupplementalEvidence) (record : Record) :
    Except String (Option Record) :=
  if record.request.supplementalEvidence ≠ some evidence.offer ∨ record.state ≠ .completed ∨
      evidence.sourceReplySequence < 1 then
    .error "supplemental evidence does not match its frozen offer"
  else
    match evidenceOf evidence.offer.operationId record with
    | some existing =>
      if existing ≠ evidence then .error "supplemental evidence operation identity was reused"
      else .ok none
    | none =>
      if ¬ hasReply evidence.sourceReplySequence record then
        .error "supplemental evidence reply was not persisted"
      else .ok (some (record.withEvidence evidence))

section

variable {record next : Record} {result : Option Record}

/-- A new record is the one of the request. -/
theorem acceptance_ok {config : Config} {request : RunRequest} {existing : Option Record}
    {duplicate : Bool} (h : acceptance config request existing = .ok (record, duplicate)) :
    duplicate = true ∧ existing = some record ∨ duplicate = false ∧ existing = none ∧
      record = Record.ofRequest (config.payloadHash request) request := by
  unfold acceptance at h
  split at h
  · split at h
    · cases h
    · cases h
      exact .inl ⟨rfl, rfl⟩
  · cases h
    exact .inr ⟨rfl, rfl, rfl⟩

theorem Record.transition_ok {expected next : State}
    (h : record.transition expected next = .ok result) :
    record.state = expected ∧ result = some (record.withState next) := by
  unfold transition at h
  split at h
  · cases h
  · rename_i hstate
    cases h
    exact ⟨Decidable.not_not.mp hstate, rfl⟩

theorem Record.appending_ok {state : State} {event : RuntimeEvent}
    (h : record.appending state event = .ok result) :
    result = none ∧ event.sequence ≤ record.lastSequence ∨
      result = some (record.append state event) ∧ event.sequence = record.lastSequence + 1 := by
  unfold appending at h
  split at h
  · rename_i hle
    cases h
    exact .inl ⟨rfl, hle⟩
  split at h
  · cases h
  · rename_i hgap
    cases h
    exact .inr ⟨rfl, Decidable.not_not.mp hgap⟩

theorem Record.appendingEvidence_ok {evidence : SupplementalEvidence}
    (h : record.appendingEvidence evidence = .ok (some next)) :
    next = record.withEvidence evidence := by
  unfold appendingEvidence at h
  split at h
  · cases h
  split at h
  · split at h
    · cases h
    · cases h
  split at h
  · cases h
  · cases h
    rfl

end

section

variable (requested : CancelRequest)

def CancelRequest.tombstone : CancellationTombstone :=
  ⟨requested.runId, requested.traceId, requested.agentId, requested.messageId, requested.reason⟩

def CancelRequest.isContract : Bool :=
  isContractRunID requested.runId && isContractTraceID requested.traceId &&
    isContractAgentID requested.agentId

/-- Whether the request is for the Run that the inbox knows, if it knows it. -/
def CancelRequest.concerns (record : Option Record) : Bool :=
  record.all fun record => record.request.traceId = requested.traceId ∧
    record.request.targetAgentId = requested.agentId

end

/-- `Inbox.HasCancellation` for the tombstone it has loaded. -/
def cancellationFound (request : RunRequest) : Option CancellationTombstone → Except String Bool
  | none => .ok false
  | some tombstone =>
    if tombstone.runId ≠ request.runId ∨ tombstone.traceId ≠ request.traceId ∨
        tombstone.agentId ≠ request.targetAgentId then
      .error "Run cancellation tombstone identity mismatch"
    else .ok true

namespace Inbox

/-- `Inbox.Accept`: the record and whether it was there before. -/
def accept (config : Config) (request : RunRequest) : Routine (Record × Bool) :=
  .step fun s answer =>
    if ¬ isContractRunID request.runId then (.error "invalid Run ID", s)
    else if ¬ isContractTraceID request.traceId then (.error "invalid Run trace ID", s)
    else
      match acceptance config request s.record with
      | .error message => (.error message, s)
      | .ok (record, true) => loaded answer s (.ok (record, true))
      | .ok (record, false) => written answer s (s.withRecord record) (record, false)

/-- `Inbox.Get`; `none` stands for a file that does not exist. -/
def get : Routine (Option Record) :=
  .step fun s answer => loaded answer s (.ok s.record)

/-- `Inbox.Get` where a missing file is an error like any other. -/
def load : Routine Record :=
  .step fun s answer =>
    match s.record with
    | none => (.error "inbox record does not exist", s)
    | some record => loaded answer s (.ok record)

/-- The calls that load a record and replace it. -/
def rewrite (decision : Record → Except String (Option Record)) : Routine Record :=
  .step fun s answer =>
    match s.record with
    | none => (.error "inbox record does not exist", s)
    | some record =>
      match decision record with
      | .error message => (.error message, s)
      | .ok none => loaded answer s (.ok record)
      | .ok (some next) => written answer s (s.withRecord next) next

def transitionLocalState (expected next : State) : Routine Record :=
  rewrite (Record.transition expected next)

def appendEvent (state : State) (event : RuntimeEvent) : Routine Record :=
  rewrite (Record.appending state event)

def appendSupplementalEvidence (evidence : SupplementalEvidence) : Routine Record :=
  rewrite (Record.appendingEvidence evidence)

/-- `Inbox.RecordCancellation`: a repeated request must repeat the first one exactly. -/
def cancellationRecorded (requested : CancelRequest) (s : RunSlot) (answer : Answer) :
    Except String CancellationTombstone × RunSlot :=
  if ¬ requested.isContract then (.error "invalid Run cancellation identity", s)
  else if ¬ requested.concerns s.record then (.error "Run cancellation identity mismatch", s)
  else
    match s.tombstone with
    | some existing =>
      if existing ≠ requested.tombstone then (.error "Run cancellation tombstone mismatch", s)
      else loaded answer s (.ok existing)
    | none => written answer s (s.withTombstone requested.tombstone) requested.tombstone

def recordCancellation (requested : CancelRequest) : Routine CancellationTombstone :=
  .step (cancellationRecorded requested)

/-- `Inbox.HasCancellation`. The slot remembers which fences the check came after. -/
def hasCancellation (request : RunRequest) : Routine Bool :=
  .step fun s answer =>
    let s := { s with checked := s.fences }
    if ¬ isContractRunID request.runId then (.error "invalid Run ID", s)
    else loaded answer s (cancellationFound request s.tombstone)

/-- `Inbox.ClearCancellation`. -/
def cancellationCleared (runId : String) (s : RunSlot) (answer : Answer) :
    Except String Unit × RunSlot :=
  if ¬ isContractRunID runId then (.error "invalid Run ID", s)
  else
    match s.tombstone with
    | none => (.ok (), s)
    | some _ => written answer s s.withdrawTombstone ()

def clearCancellation (runId : String) : Routine Unit := .step (cancellationCleared runId)

/-- `Inbox.QuarantineIncompatibleTrace`: the record leaves the active inbox. -/
def quarantineIncompatibleTrace : Routine Unit :=
  .step fun s answer => written answer s { s with record := none } ()

end Inbox

/-- A write to the connection. -/
def send (frame : Frame) : Routine Unit :=
  .step fun s answer =>
    match answer.delivery with
    | .sent => (.ok (), s.withSent frame)
    | .lost => (.error "connection write failed", s)
    | .broken => (.error "connection write failed", s.withSent frame)

def sendAll (frames : List Frame) : Routine Unit := Process.forEach frames send

end ConveneWire.Bridge
