import ConveneWire.Lib.Process
import ConveneWire.Peer.TransportJournal

/-! # Executing and recovering a Peer Run

`bridge/internal/peer/run_execution.go` and `recoverPeerRuns` of `run_worker.go`.
Any number of executions and recoveries of one Run share its journal; each call
of the journal holds its lock, so it is one action of a process. Everything that
is decided elsewhere (the Host, the Runtime, admission, input and output) answers
an action. -/

namespace ConveneWire.Peer

open Concurrent (Process)
open Concurrent.Process (step ask fail forEach)

/-- The journal of a Run with what has been done on its behalf. -/
structure Participant where
  runs : RunJournal
  /-- `transport.json`. -/
  transport : Option TransportState
  transportObserved : Option TransportState
  /-- Requests that may have left for the Host. -/
  sent : List PeerRunEvent
  settlements : List PeerSettlement
  /-- The executions whose `Begin` succeeded, and those that invoked their adapter. -/
  begun : List Nat
  invoked : List Nat

/-- An event before it gets its sequence. -/
structure EventValue where
  type : EventType
  clarification : Bool
  members : String
  deriving DecidableEq, Repr

inductive PreviewType where
  | output | activity
  deriving DecidableEq, Repr

def PreviewType.type : PreviewType → EventType
  | .output => .output
  | .activity => .activity

/-- `bridgeruntime.Event` as `emit` reads it; the texts are those of the values it builds. -/
structure AdapterEvent where
  developmentProposal : Bool
  status : Option EventStatus
  clarification : Bool
  statusMembers : String
  /-- The text of the session update, and whether its cursor is the request's. -/
  session : Option String
  sessionCurrent : Bool
  reply : Option String
  replyMembers : String
  preview : Option (PreviewType × String)
  deriving DecidableEq, Repr

/-- How the Host answers a publication. -/
inductive Publication where
  | receipt (receipt : RunEventReceipt)
  /-- Publication denied by current authority. -/
  | denied
  | failed

/-- What is known when the adapter has returned. -/
structure RuntimeEnd where
  processesStopped : Bool
  /-- The context was canceled, expired or lost its publication rights. -/
  canceled : Bool
  transportFailed : Bool
  deriving DecidableEq, Repr

structure Answer where
  io : Io
  operationId : String
  publish : PeerRunEvent → Publication
  settle : PeerSettlement → Except String RunSettlementReceipt
  requestVerified : Bool
  /-- Everything `executeManaged` checks before it calls `beforeInvoke`. -/
  ready : Bool
  /-- The context is still live after `Begin`. -/
  live : Bool
  reports : Nat
  event : AdapterEvent
  ended : RuntimeEnd
  /-- `recoverPeerRuns` finds the membership active and the delivery not expired. -/
  membershipActive : Bool
  settlementOpen : Bool

abbrev Routine := Process Participant Answer

namespace Participant

def empty : Participant := ⟨⟨⟨none, none, none⟩, none⟩, none, none, [], [], [], []⟩

/-- The process is gone; what it had observed is forgotten. -/
def restart (s : Participant) : Participant :=
  { s with runs := { s.runs with observed := none }, transportObserved := none }

end Participant

variable (p : Partition) (v : Verifier) (runId : String)

/-! ## Calls of the journal -/

/-- A call of the run journal. -/
def onRuns {α : Type} (f : Io → RunJournal → Except String α × RunJournal) : Routine α :=
  step fun s a =>
    let (result, runs) := f a.io s.runs
    (result, { s with runs })

def Participant.readTransport (io : Io) (s : Participant) :
    Except String (RunRecord × Capability × TransportState) × Participant :=
  if io.checked = false then (.error errStore, s)
  else
    match s.runs.load p runId with
    | (.error e, runs) => (.error e, { s with runs })
    | (.ok record, runs) =>
      match record.settlement, s.transport with
      | none, _ => (.error errStore, { s with runs })
      | some capability, none =>
        if s.transportObserved.isSome then (.error errStore, { s with runs })
        else (.ok (record, capability, emptyTransport v record), { s with runs })
      | some capability, some state =>
        if validateTransport p v record capability state ∧
            ∀ previous ∈ s.transportObserved, previous.extendedBy state then
          (.ok (record, capability, state), { s with runs, transportObserved := some state })
        else (.error errStore, { s with runs })

def Participant.writeTransport (io : Io) (next : TransportState) (s : Participant) :
    Except String TransportState × Participant :=
  match io.write with
  | .refused => (.error errWrite, s)
  | .unreported => (.error errWrite, { s with transport := some next })
  | .done => (.ok next, { s with transport := some next, transportObserved := some next })

/-- A call that computes the next state of the transport journal and saves it if it differs. -/
def Participant.callTransport (io : Io)
    (f : RunRecord → Capability → TransportState → Except String TransportState) (s : Participant) :
    Except String TransportState × Participant :=
  match s.readTransport p v runId io with
  | (.error e, s) => (.error e, s)
  | (.ok (record, capability, state), s) =>
    match f record capability state with
    | .error e => (.error e, s)
    | .ok next => if next = state then (.ok state, s) else s.writeTransport io next

def onTransport
    (f : Answer → RunRecord → Capability → TransportState → Except String TransportState) :
    Routine TransportState :=
  step fun s a => s.callTransport p v runId a.io (f a)

def transport : Routine TransportState :=
  onTransport p v runId fun _ _ _ state => .ok state

/-! ## Publication -/

/-- `peerRunExecution.append`: the next sequence is read first and may be taken by then. -/
def append (value : EventValue) : Routine Unit := do
  let state ← transport p v runId
  let event : PeerRunEvent :=
    ⟨state.events.length + 1, value.type, value.clarification, value.members⟩
  let _ ← onTransport p v runId fun _ record capability =>
    appendEvent p v record capability event

def send (event : PeerRunEvent) : Routine Unit :=
  step fun s _ => (.ok (), { s with sent := s.sent ++ [event] })

def publish (event : PeerRunEvent) : Routine Unit := do
  send event
  match ← ask fun a => a.publish event with
  | .failed => fail errTransport
  | .denied => fail errExport
  | .receipt receipt =>
    let _ ← onTransport p v runId fun _ record capability =>
      acknowledgeEvent p v record capability receipt

def flush : Routine Unit := do
  let state ← transport p v runId
  forEach (state.events.drop state.acknowledged) (publish p v runId)

def publicationDenied (message : String) : Bool := message = errExport

/-! ## Recovery -/

def appendTerminal (outcome : RunOutcome) : Routine Unit :=
  match outcome.terminal with
  | none => pure ()
  | some terminal => do
    let _ ← onTransport p v runId fun _ record capability =>
      appendEvent p v record capability terminal

/-- Publication denied permits only the content-free settlement. -/
def flushUnlessDenied : Routine Unit := do
  match ← (flush p v runId).attempt with
  | .ok () => pure ()
  | .error message => if publicationDenied message then pure () else fail message

/-- A Runtime that waits for an answer is not settled. -/
def retainSettlement (outcome : RunOutcome) : Routine (Option PeerSettlement) :=
  if outcome.state = .inputRequired then pure none
  else do
    let state ← onTransport p v runId fun a record capability =>
      prepareSettlement p v record capability a.operationId
    pure state.settlement

def settle (settlement : PeerSettlement) : Routine Unit := do
  step fun s _ => (.ok (), { s with settlements := s.settlements ++ [settlement] })
  match ← ask fun a => a.settle settlement with
  | .error message => fail message
  | .ok receipt =>
    let _ ← onTransport p v runId fun _ record capability =>
      acknowledgeSettlement p v record capability receipt

def recoverFrom (outcome : RunOutcome) (state : TransportState) : Routine Unit :=
  if state.settlementReceipt.isSome then pure ()
  else
    match state.settlement with
    | some settlement => settle p v runId settlement
    | none => do
      appendTerminal p v runId outcome
      flushUnlessDenied p v runId
      match ← retainSettlement p v runId outcome with
      | none => pure ()
      | some settlement => settle p v runId settlement

def recover (record : RunRecord) : Routine Unit :=
  match record.outcome with
  | none => fail errStore
  | some outcome => do
    let state ← transport p v runId
    recoverFrom p v runId outcome state

/-! ## The Runtime -/

/-- A final status that waits for the end of the processes. -/
structure Terminal where
  status : EventStatus
  clarification : Bool
  members : String
  deriving DecidableEq, Repr

/-- What one execution remembers of its adapter. -/
structure Emission where
  terminal : Option Terminal
  reply : String
  deriving DecidableEq, Repr

def Emission.none : Emission := ⟨.none, ""⟩

/-- The values `emit` journals of an event that is not final. -/
def AdapterEvent.values (event : AdapterEvent) : List EventValue :=
  (match event.status with
    | some status => [⟨.status status, event.clarification, event.statusMembers⟩]
    | none => []) ++
  (match event.reply with
    | some _ => [⟨.reply, false, event.replyMembers⟩]
    | none => []) ++
  (match event.preview with
    | some (type, members) => [⟨type.type, false, members⟩]
    | none => [])

/-- The separate update that carries the session of a final status. -/
def appendSession (session : Option String) : Routine Unit :=
  match session with
  | none => pure ()
  | some members => append p v runId ⟨.status .working, false, members⟩

def appendAll (values : List EventValue) : Routine Unit := do
  forEach values (append p v runId)
  flush p v runId

/-- `emit`; the adapter is told of a failure and may go on or stop. -/
def emit (emission : Emission) : Routine Emission := do
  let event ← ask (·.event)
  if emission.terminal.isSome ∨ event.developmentProposal ∨
      (event.session.isSome ∧ event.status.isSome ∧ event.sessionCurrent = false) then
    pure emission
  else
    match event.status with
    | some .delivered => pure emission
    | some .working | none =>
      if event.values = [] then pure emission
      else do
        let _ ← (appendAll p v runId event.values).attempt
        pure { emission with reply := event.reply.getD emission.reply }
    | some status => do
      let _ ← (appendSession p v runId event.session).attempt
      pure { emission with terminal := some ⟨status, event.clarification, event.statusMembers⟩ }

/-- `Begin`, remembered under the execution that called it. -/
def beginRun (execution : Nat) : Routine RunRecord :=
  step fun s a =>
    match s.runs.begin p runId a.io with
    | (.ok record, runs) => (.ok record, { s with runs, begun := s.begun ++ [execution] })
    | (.error e, runs) => (.error e, { s with runs })

def invokeAdapter (execution : Nat) : Routine Unit :=
  step fun s _ => (.ok (), { s with invoked := s.invoked ++ [execution] })

/-- `executeManaged` with the claim of `Begin` as its `beforeInvoke`. -/
def executeManaged (execution : Nat) : Routine Emission := do
  let ready ← ask (·.ready)
  if ready then do
    match ← (beginRun p runId execution).attempt with
    | .error _ => pure .none
    | .ok _ =>
      let live ← ask (·.live)
      if live then do
        invokeAdapter execution
        let reports ← ask (·.reports)
        Process.iterate reports (emit p v runId) .none
      else pure .none
  else pure .none

/-! ## The outcome -/

def EventStatus.outcome : EventStatus → OutcomeState
  | .completed => .completed
  | .canceled => .canceled
  | .inputRequired => .inputRequired
  | .failed | .delivered | .working => .failed

def outcomeState (started : Bool) (ended : RuntimeEnd) (terminal : Option Terminal) :
    OutcomeState :=
  if ended.processesStopped then
    match terminal with
    | some terminal => terminal.status.outcome
    | none =>
      if ended.canceled then .canceled
      else if started then .failed
      else .deliveryDenied
  else .outcomeUnknown

def plainMembers (status : String) : String :=
  "\"status\":\"" ++ status ++ "\",\"type\":\"status\""

/-- The outcome `execute` records and, where there is one, the value of its final event. -/
def outcomeValue (state : OutcomeState) (terminal : Option Terminal) :
    OutcomeState × Option EventValue :=
  match state.status? with
  | none => (state, none)
  | some status =>
    let value : EventValue := match terminal with
      | some terminal =>
        if terminal.status = status then ⟨.status status, terminal.clarification, terminal.members⟩
        else ⟨.status status, false, plainMembers state.text⟩
      | none => ⟨.status status, false, plainMembers state.text⟩
    if state = .inputRequired ∧ value.clarification = false then
      (.failed, some ⟨.status .failed, false, plainMembers "failed"⟩)
    else (state, some value)

def finishRun (outcome : RunOutcome) : Routine RunRecord :=
  onRuns fun io => RunJournal.finish p runId outcome io

def loadRun : Routine RunRecord :=
  onRuns fun io runs => if io.checked then runs.load p runId else (.error errStore, runs)

/-- What `execute` does once the adapter has returned. -/
def conclude (emission : Emission) : Routine RunRecord := do
  let record ← loadRun p runId
  let ended ← ask (·.ended)
  if record.startedAt.isNone ∧ ended.transportFailed then fail errTransport
  else
    let state := outcomeState record.startedAt.isSome ended emission.terminal
    let final := outcomeValue state emission.terminal
    let reply := if final.1 = .completed then emission.reply else ""
    match final.2 with
    | none => finishRun p runId ⟨final.1, reply, none⟩
    | some value =>
      let journal ← transport p v runId
      finishRun p runId ⟨final.1, reply,
        some ⟨journal.events.length + 1, value.type, value.clarification, value.members⟩⟩

/-- Finishes with an outcome and goes on with its recovery. -/
def finishAndRecover (outcome : RunOutcome) : Routine Unit := do
  let record ← finishRun p runId outcome
  recover p v runId record

/-- The first event of a Run says that it was delivered. -/
def announce : Routine Unit := do
  let state ← transport p v runId
  if state.events = [] then append p v runId ⟨.status .delivered, false, plainMembers "delivered"⟩
  else pure ()

/-- `execute` for a Run that is neither finished nor started. -/
def start (execution : Nat) : Routine Unit := do
  announce p v runId
  match ← (flush p v runId).attempt with
  | .error message =>
    if publicationDenied message then finishAndRecover p v runId ⟨.deliveryDenied, "", none⟩
    else fail message
  | .ok () =>
    let emission ← executeManaged p v runId execution
    let record ← conclude p v runId emission
    recover p v runId record

def execute (execution : Nat) (delivery : RunDelivery) : Routine Unit := do
  let record ← onRuns fun io => RunJournal.receiveDelivery p runId delivery io
  if record.outcome.isSome then recover p v runId record
  else if record.startedAt.isSome then finishAndRecover p v runId ⟨.outcomeUnknown, "", none⟩
  else
    let verified ← ask (·.requestVerified)
    if verified then start p v runId execution else fail errProof

/-- The turn of this Run in `recoverPeerRuns`. -/
def recoverPeerRun : Routine Unit := do
  let record ← loadRun p runId
  let active ← ask (·.membershipActive)
  let settlementOpen ← ask (·.settlementOpen)
  if record.settlement.isNone ∨ settlementOpen = false then pure ()
  else if record.outcome.isNone ∧ record.startedAt.isNone ∧ active = false then
    finishAndRecover p v runId ⟨.deliveryDenied, "", none⟩
  else if record.outcome.isSome then recover p v runId record
  else pure ()

end ConveneWire.Peer
