import ConveneWire.Run.Cell
import ConveneWire.Peer.TransportJournal

/-! # The Host's side of a Peer Run

`apps/server/src/peer/run-delivery.ts`, seen from one Run. Every call is one
transaction over the tables of `Run.Database` and the four Peer tables; a call
that fails leaves them alone. What is decided elsewhere (admission, proofs,
current authority) answers a call as its `Checks`. -/

namespace ConveneWire.Peer

open Run (Database RunId Time RunState RuntimeEvent RuntimeStatus RunEventRecord applyRuntimeEvent
  applyReply)
open Transactional

def invalidMessage : String := "INVALID_MESSAGE"
def scopeDenied : String := "SCOPE_DENIED"
def payloadConflict : String := "PAYLOAD_CONFLICT"
def staleAuthorization : String := "STALE_AUTHORIZATION"
def unauthenticated : String := "UNAUTHENTICATED"
def expiredCode : String := "EXPIRED"

/-! ## Events -/

def EventStatus.runtime : EventStatus → RuntimeStatus
  | .delivered => .delivered
  | .working => .working
  | .inputRequired => .inputRequired
  | .completed => .completed
  | .failed => .failed
  | .canceled => .canceled

/-- What redaction leaves of the members of an event. -/
structure EventContents where
  error : Option Run.RuntimeError
  session : Option Run.RuntimeSession
  clarification : Run.RuntimeTaskClarification
  activity : Run.RuntimeActivity
  content : String
  reset : Bool
  assessment : Option String

/-- How the Host reads and digests what it is sent. -/
structure Carrier where
  contents : String → EventContents
  /-- The content of the members is empty or white space. -/
  blank : String → Bool
  eventDigest : PeerRunEvent → String
  settlementDigest : PeerSettlement → String

variable (c : Carrier)

def Carrier.sanitize (event : PeerRunEvent) : RuntimeEvent :=
  let contents := c.contents event.members
  match event.type with
  | .status status => .status event.sequence status.runtime contents.error contents.session
      (if event.clarification then some contents.clarification else none)
  | .reply => .reply event.sequence contents.content contents.assessment
  | .output => .output event.sequence contents.content contents.reset
  | .activity => .activity event.sequence contents.activity

/-! ## Tables -/

/-- `peer_run_deliveries`, with what `decode` reads from the frozen request. -/
structure PeerDelivery where
  capabilityId : String
  bindingDigest : String
  receiptDigest : String
  expiresAt : Time
  contextCursor : Nat
  evidenceRevision : Option Nat
  deriving DecidableEq, Repr

inductive CancellationCause where
  | requester | authorizationLost | deadline
  deriving DecidableEq, Repr

/-- `peer_run_cancellations`. -/
structure PeerCancellation where
  cause : CancellationCause
  ackDeadlineAt : Time
  deriving DecidableEq, Repr

structure Host where
  db : Database
  delivery : Option PeerDelivery
  /-- `peer_run_events`: the sequences the participant published, with their digests. -/
  eventRows : List (Nat × String)
  /-- `peer_run_settlements`. -/
  settlement : Option PeerSettlement
  cancellation : Option PeerCancellation
  deriving DecidableEq, Repr

/-- What the other services answer during a call. -/
structure Checks where
  /-- The message is well formed, its sender is known and its proof holds. -/
  verified : Except String Unit
  /-- The delivery row decodes, and the message is bound to its request. -/
  bound : Except String Unit
  /-- `requireCurrent`. -/
  current : Except String Unit
  now : Time

/-- A transaction of the Run repository. -/
def onDatabase {α : Type} (t : Transaction Database α) : Transaction Host α := fun h => do
  let (a, db) ← t h.db
  pure (a, { h with db })

/-! ## Publication -/

/-- The statuses `validateEvent` lets through in a state. -/
def statusExpected (status : EventStatus) (state : RunState) : Bool :=
  match status with
  | .delivered => state = .queued
  | .working | .inputRequired | .failed | .canceled => state = .delivered || state = .working
  | .completed => state = .working

def sessionExpected (row : PeerDelivery) (session : Option Run.RuntimeSession) : Bool :=
  session.all fun session => session.contextCursor = row.contextCursor &&
    session.resultEvidenceRevision.all fun revision => row.evidenceRevision = some revision

/-- The provisional output of a Run so far. -/
def outputText (events : List RunEventRecord) : String :=
  events.foldl (fun text row => match row.event with
    | .reply .. => ""
    | .output _ content reset => if reset then content else text ++ content
    | .status .. | .activity .. => text) ""

def validateEvent (row : PeerDelivery) (stored : List RunEventRecord) (run : Run.RunRecord)
    (event : PeerRunEvent) : Except String Unit :=
  let contents := c.contents event.members
  if event.sequence ≠ run.lastSequence + 1 then .error payloadConflict
  else match event.type with
    | .status status =>
      if statusExpected status run.state = false then .error staleAuthorization
      else if sessionExpected row contents.session = false then .error payloadConflict
      else .ok ()
    | .reply =>
      if run.state ≠ .working ∨ c.blank event.members then .error staleAuthorization else .ok ()
    | .output =>
      let current := if contents.reset then "" else outputText stored
      if run.state ≠ .working then .error staleAuthorization
      else if 20000 < (current ++ contents.content).length then .error invalidMessage
      else .ok ()
    | .activity => if run.state ≠ .working then .error staleAuthorization else .ok ()

/-- A reply also becomes a message of the Room. -/
def applyPublished (runId : RunId) (event : RuntimeEvent) (now : Time) :
    Transaction Database Run.AppliedRunEvent :=
  match event with
  | .reply sequence content assessment => applyReply runId sequence content assessment now
  | .status .. | .activity .. | .output .. => applyRuntimeEvent runId event now

/-- The writes of `event` for a sequence that was not published before. -/
def publishNew (runId : RunId) (row : PeerDelivery) (event : PeerRunEvent) (now : Time) :
    Transaction Host Unit := fun h =>
  match h.db.getRun runId with
  | none => .error "Cannot read properties of undefined (reading 'lastSequence')"
  | some run => do
    validateEvent c row (h.db.listEvents runId) run event
    let (applied, h) ← onDatabase (applyPublished runId (c.sanitize event) now) h
    if applied.applied then
      pure ((), { h with eventRows := h.eventRows ++ [(event.sequence, c.eventDigest event)] })
    else .error payloadConflict

def event (runId : RunId) (checks : Checks) (capabilityId : String) (event : PeerRunEvent) :
    Transaction Host Unit := fun h => do
  checks.verified
  match h.delivery with
  | none => .error scopeDenied
  | some row =>
    if row.capabilityId ≠ capabilityId ∨ row.expiresAt ≤ checks.now then .error scopeDenied
    else do
      checks.bound
      match h.eventRows.lookup event.sequence with
      | some digest =>
        if digest ≠ c.eventDigest event then .error payloadConflict
        else do
          checks.current
          pure ((), h)
      | none => do
        checks.current
        publishNew c runId row event checks.now h

/-! ## Settlement -/

/-- The status a settlement ends the Run with. -/
def settledStatus (state : OutcomeState) (cancellation : Option PeerCancellation) : RuntimeStatus :=
  match state with
  | .completed => .completed
  | .failed => .failed
  | .outcomeUnknown => .outcomeUnknown
  | .canceled => .canceled
  | .expired => .expired
  | .inputRequired => .inputRequired
  | .deliveryDenied =>
    match cancellation.map PeerCancellation.cause with
    | some .requester => .canceled
    | some .deadline => .expired
    | some .authorizationLost | none => .failed

/-- The writes of `settle` for the first settlement. -/
def settleNew (runId : RunId) (settlement : PeerSettlement) (now : Time) : Transaction Host Unit :=
  fun h =>
    match h.db.getRun runId with
    | none => .error "Cannot read properties of undefined (reading 'state')"
    | some run =>
      let h := { h with settlement := some settlement }
      if run.state.isTerminal then .ok ((), h)
      else do
        let status := settledStatus settlement.state h.cancellation
        let (_, h) ← onDatabase (applyRuntimeEvent runId
          (.plainStatus (run.lastSequence + 1) status) now) h
        pure ((), h)

def settleRun (runId : RunId) (checks : Checks) (settlement : PeerSettlement) :
    Transaction Host Unit := fun h =>
  if settlement.closed = false ∨ settlement.sequence ≠ 1 then .error invalidMessage
  else do
    checks.verified
    match h.delivery with
    | none => .error unauthenticated
    | some row =>
      if row.capabilityId ≠ settlement.capabilityId then .error unauthenticated
      else if row.expiresAt ≤ checks.now then .error expiredCode
      else do
        checks.bound
        if settlement.bindingDigest ≠ row.bindingDigest ∨ settlement.receiptDigest ≠ row.receiptDigest
        then .error payloadConflict
        else match h.settlement with
          | some prior =>
            if c.settlementDigest prior ≠ c.settlementDigest settlement then .error payloadConflict
            else .ok ((), h)
          | none => settleNew runId settlement checks.now h

/-! ## Cancellation -/

def CancellationCause.status : CancellationCause → RuntimeStatus
  | .requester => .canceled
  | .deadline => .expired
  | .authorizationLost => .failed

/-- A Run that was never handed out, or that waits for an answer, ends at once. -/
def cancelKnown (runId : RunId) (cause : CancellationCause) (now : Time) : Transaction Host Unit :=
  fun h =>
    match h.db.getRun runId with
    | none => .error scopeDenied
    | some run =>
      if run.state.isTerminal then .ok ((), h)
      else if h.delivery.isNone ∨ run.state = .inputRequired then do
        let (_, h) ← onDatabase (applyRuntimeEvent runId
          (.plainStatus (run.lastSequence + 1) cause.status) now) h
        pure ((), h)
      else
        .ok ((), { h with cancellation := h.cancellation <|> some ⟨cause, now + 30000⟩ })

/-- The errors of `requireCurrent` that end the authority of a Run. -/
def authorityEnded (code : String) : Bool :=
  [scopeDenied, staleAuthorization, "UNSUPPORTED_CAPABILITY", "REVOKED", expiredCode].contains code

/-- Goes on while the authority is current; cancels the Run once it has ended. -/
def whileCurrent (runId : RunId) (checks : Checks) (cause : CancellationCause)
    (next : Transaction Host Unit) : Transaction Host Unit := fun h =>
  match checks.current with
  | .ok () => next h
  | .error code =>
    if authorityEnded code then cancelKnown runId cause checks.now h else .error code

def dispatch (runId : RunId) (checks : Checks) : Transaction Host Unit :=
  whileCurrent runId checks .authorizationLost fun h => .ok ((), h)

/-- `getOrCreate`, with the capability drawn for a new row. -/
def getOrCreate (checks : Checks) (fresh : PeerDelivery) : Transaction Host Unit := fun h =>
  match h.delivery with
  | some _ => do
    checks.bound
    pure ((), h)
  | none => .ok ((), { h with delivery := some fresh })

/-- The Run as the candidate of a `poll`. -/
def poll (runId : RunId) (checks : Checks) (fresh : PeerDelivery) : Transaction Host Unit :=
  fun h => do
    checks.verified
    whileCurrent runId checks .authorizationLost (getOrCreate checks fresh) h

/-- The turn of this Run in `sweep`. -/
def sweepRun (runId : RunId) (checks : Checks) : Transaction Host Unit := fun h =>
  match h.db.getRun runId with
  | none => .ok ((), h)
  | some run =>
    if run.state ≠ .queued ∧ run.state ≠ .delivered ∧ run.state ≠ .working then .ok ((), h)
    else match h.cancellation with
      | some cancellation =>
        if cancellation.ackDeadlineAt ≤ checks.now then do
          let (_, h) ← onDatabase (applyRuntimeEvent runId
            (.plainStatus (run.lastSequence + 1) .outcomeUnknown) checks.now) h
          pure ((), h)
        else .ok ((), h)
      | none =>
        let cause := if run.deadlineAt ≤ checks.now then .deadline else .authorizationLost
        whileCurrent runId checks cause (fun h => .ok ((), h)) h

end ConveneWire.Peer
