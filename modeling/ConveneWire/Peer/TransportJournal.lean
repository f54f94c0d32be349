import Mathlib.Algebra.GroupWithZero.Nat
import ConveneWire.Peer.Journal

/-! # The transport journal of a Peer Run

`bridge/internal/peer/run_transport_journal.go`: the events of a Run in the order
they are published, the last acknowledgment of the Host, and the settlement. The
journal is one JSON file of bounded size, so the model counts the bytes
`json.Marshal` writes for it. -/

namespace ConveneWire.Peer

/-! ## Bytes -/

/-- A text without characters to escape, in quotes. -/
def textBytes (s : String) : Nat := s.length + 2

def memberBytes (key : String) (value : Nat) : Nat := textBytes key + 1 + value

/-- Members or elements between their brackets, with a comma between any two. -/
def bracketBytes (parts : List Nat) : Nat := parts.sum + (parts.length - 1) + 2

def natBytes (n : Nat) : Nat := (Nat.repr n).length

def PeerRunEvent.bytes (event : PeerRunEvent) : Nat :=
  bracketBytes [memberBytes "sequence" (natBytes event.sequence), event.members.utf8ByteSize]

/-! ## Receipts -/

structure PeerProof where
  purpose : String
  signerNodeId : String
  signerPublicKey : String
  audienceNodeId : String
  operationId : String
  nonce : String
  subjectDigest : String
  issuedAt : String
  expiresAt : String
  signature : String
  deriving DecidableEq, Repr

structure RunEventReceipt where
  bindingDigest : String
  capabilityId : String
  sequence : Nat
  eventDigest : String
  proof : PeerProof
  deriving DecidableEq, Repr

structure PeerSettlement where
  capabilityId : String
  operationId : String
  bindingDigest : String
  sequence : Nat
  state : OutcomeState
  receiptDigest : String
  deriving DecidableEq, Repr

structure RunSettlementReceipt where
  settlement : PeerSettlement
  proof : PeerProof
  deriving DecidableEq, Repr

def opaqueChar (c : Char) : Bool := c.isAlphanum || c = '_' || c = '-'

/-- `^tag_[A-Za-z0-9_-]{8,128}$`. -/
def matchesId (tag : String) (s : String) : Bool :=
  let body := s.toList.drop tag.length
  tag.toList.isPrefixOf s.toList && 8 ≤ body.length && body.length ≤ 128 && body.all opaqueChar

/-- `^[a-f0-9]{64}$`. -/
def matchesDigest (s : String) : Bool :=
  s.length = 64 && s.toList.all fun c => c.isDigit || ('a' ≤ c && c ≤ 'f')

/-- `^[A-Za-z0-9_-]{n}[last]$`. -/
def matchesKey (n : Nat) (last : String) (s : String) : Bool :=
  s.length = n + 1 && s.toList.all opaqueChar && (s.toList.drop n).all (last.toList.contains ·)

/-- `^\d{4}-\d{2}-\d{2}T\d{2}:\d{2}:\d{2}\.\d{3}Z$`. -/
def matchesInstant (s : String) : Bool :=
  s.length = 24 && (s.toList.zip "dddd-dd-ddTdd:dd:dd.dddZ".toList).all fun (c, pattern) =>
    if pattern = 'd' then c.isDigit else c = pattern

def purposes : List String :=
  ["invitation.preview", "invitation.claim", "peer.connect", "human.entry", "agent.export",
    "agent.acceptance", "run.admission", "run.settlement", "node.identity", "peer.leave", "run.poll",
    "run.event"]

def PeerProof.closed (proof : PeerProof) : Bool :=
  purposes.contains proof.purpose && matchesId "node_" proof.signerNodeId &&
    matchesKey 42 "AEIMQUYcgkosw048" proof.signerPublicKey && matchesId "node_" proof.audienceNodeId &&
    matchesId "op_" proof.operationId && matchesKey 42 "AEIMQUYcgkosw048" proof.nonce &&
    matchesDigest proof.subjectDigest && matchesInstant proof.issuedAt &&
    matchesInstant proof.expiresAt && matchesKey 85 "AQgw" proof.signature

def maxSequence : Nat := 9007199254740991

def RunEventReceipt.closed (receipt : RunEventReceipt) : Bool :=
  matchesDigest receipt.bindingDigest && matchesId "peersettle_" receipt.capabilityId &&
    1 ≤ receipt.sequence && receipt.sequence ≤ maxSequence && matchesDigest receipt.eventDigest &&
    receipt.proof.closed

def PeerSettlement.closed (settlement : PeerSettlement) : Bool :=
  matchesId "peersettle_" settlement.capabilityId && matchesId "op_" settlement.operationId &&
    matchesDigest settlement.bindingDigest && 1 ≤ settlement.sequence &&
    settlement.sequence ≤ maxSequence && settlement.state ≠ .inputRequired &&
    matchesDigest settlement.receiptDigest

def RunSettlementReceipt.closed (receipt : RunSettlementReceipt) : Bool :=
  receipt.settlement.closed && receipt.proof.closed

/-- The texts of `PeerSettlementState`. -/
def OutcomeState.text : OutcomeState → String
  | .completed => "completed"
  | .failed => "failed"
  | .outcomeUnknown => "outcome_unknown"
  | .canceled => "canceled"
  | .expired => "expired"
  | .deliveryDenied => "delivery_denied"
  | .inputRequired => "input_required"

def versionBytes : Nat := memberBytes "schemaVersion" (natBytes 1)

def PeerProof.bytes (proof : PeerProof) : Nat :=
  bracketBytes
    [memberBytes "payload" (bracketBytes
      [memberBytes "audienceNodeId" (textBytes proof.audienceNodeId),
        memberBytes "expiresAt" (textBytes proof.expiresAt),
        memberBytes "issuedAt" (textBytes proof.issuedAt),
        memberBytes "nonce" (textBytes proof.nonce),
        memberBytes "operationId" (textBytes proof.operationId),
        memberBytes "purpose" (textBytes proof.purpose),
        versionBytes,
        memberBytes "signerNodeId" (textBytes proof.signerNodeId),
        memberBytes "signerPublicKey" (textBytes proof.signerPublicKey),
        memberBytes "subjectDigest" (textBytes proof.subjectDigest)]),
      memberBytes "signature" (textBytes proof.signature)]

def RunEventReceipt.bytes (receipt : RunEventReceipt) : Nat :=
  bracketBytes
    [versionBytes,
      memberBytes "bindingDigest" (textBytes receipt.bindingDigest),
      memberBytes "capabilityId" (textBytes receipt.capabilityId),
      memberBytes "sequence" (natBytes receipt.sequence),
      memberBytes "eventDigest" (textBytes receipt.eventDigest),
      memberBytes "proof" receipt.proof.bytes]

def PeerSettlement.bytes (settlement : PeerSettlement) : Nat :=
  bracketBytes
    [memberBytes "bindingDigest" (textBytes settlement.bindingDigest),
      memberBytes "capabilityId" (textBytes settlement.capabilityId),
      memberBytes "operationId" (textBytes settlement.operationId),
      memberBytes "receiptDigest" (textBytes settlement.receiptDigest),
      versionBytes,
      memberBytes "sequence" (natBytes settlement.sequence),
      memberBytes "state" (textBytes settlement.state.text)]

def RunSettlementReceipt.bytes (receipt : RunSettlementReceipt) : Nat :=
  bracketBytes
    [versionBytes, memberBytes "settlement" receipt.settlement.bytes,
      memberBytes "proof" receipt.proof.bytes]

/-! ## The journal -/

/-- `runTransportState`. -/
structure TransportState where
  nameSpace : String
  requestDigest : String
  events : List PeerRunEvent
  acknowledgment : Option RunEventReceipt
  settlement : Option PeerSettlement
  settlementReceipt : Option RunSettlementReceipt
  deriving DecidableEq, Repr

def TransportState.acknowledged (state : TransportState) : Nat :=
  match state.acknowledgment with
  | none => 0
  | some receipt => receipt.sequence

/-- A member that is left out when it is nil. -/
def optionalBytes (key : String) : Option Nat → List Nat
  | none => []
  | some value => [memberBytes key value]

def TransportState.bytes (state : TransportState) : Nat :=
  bracketBytes
    ([versionBytes, memberBytes "namespace" (textBytes state.nameSpace),
      memberBytes "requestDigest" (textBytes state.requestDigest),
      memberBytes "events" (bracketBytes (state.events.map PeerRunEvent.bytes))] ++
      optionalBytes "acknowledgment" (state.acknowledgment.map RunEventReceipt.bytes) ++
      optionalBytes "settlement" (state.settlement.map PeerSettlement.bytes) ++
      optionalBytes "settlementReceipt" (state.settlementReceipt.map RunSettlementReceipt.bytes))

def maximumRunEvents : Nat := 4096
def runReceiptReserve : Nat := 8192
def maximumJSONBytes : Nat := 1048576

/-- What the digests and proofs of the partition answer. -/
structure Verifier where
  nameSpace : String
  bindingDigest : Binding → String
  eventDigest : PeerRunEvent → String
  /-- `wire.Decode("PeerRunEvent", …)` accepts the event. -/
  decodes : PeerRunEvent → Bool
  /-- `historicalRunProof` of a receipt. -/
  eventProof : RunEventReceipt → Bool
  settlementProof : RunSettlementReceipt → Bool

variable (p : Partition) (v : Verifier)

/-- The events are numbered from one. -/
def eventsValid (events : List PeerRunEvent) : Bool :=
  events.all v.decodes && events.map PeerRunEvent.sequence = List.range' 1 events.length

def acknowledgmentValid (record : RunRecord) (capability : Capability) (state : TransportState) :
    Bool :=
  match state.acknowledgment with
  | none => true
  | some receipt =>
    receipt.closed && 1 ≤ receipt.sequence && receipt.sequence ≤ state.events.length &&
      receipt.bindingDigest = v.bindingDigest record.binding &&
      receipt.capabilityId = capability.capabilityId &&
      (state.events[receipt.sequence - 1]?).map v.eventDigest = some receipt.eventDigest &&
      v.eventProof receipt

def settlementValid (record : RunRecord) (capability : Capability) (state : TransportState) :
    Bool :=
  match state.settlement with
  | none => true
  | some settlement =>
    settlement.closed && settlement.sequence = 1 &&
      record.outcome.map (·.state) = some settlement.state &&
      settlement.bindingDigest = v.bindingDigest record.binding &&
      settlement.capabilityId = capability.capabilityId &&
      p.receiptDigest ⟨record.request, capability⟩ = some settlement.receiptDigest

def settlementReceiptValid (state : TransportState) : Bool :=
  match state.settlementReceipt with
  | none => true
  | some receipt =>
    state.settlement = some receipt.settlement && receipt.closed && v.settlementProof receipt

def validateTransport (record : RunRecord) (capability : Capability) (state : TransportState) :
    Bool :=
  state.nameSpace = v.nameSpace && state.requestDigest = record.binding.requestDigest &&
    state.events.length ≤ maximumRunEvents && eventsValid v state.events &&
    acknowledgmentValid v record capability state && settlementValid p v record capability state &&
    settlementReceiptValid v state

/-- `saveTransport` up to the write. -/
def saveable (record : RunRecord) (capability : Capability) (state : TransportState) : Bool :=
  validateTransport p v record capability state && state.bytes ≤ maximumJSONBytes

def emptyTransport (record : RunRecord) : TransportState :=
  ⟨v.nameSpace, record.binding.requestDigest, [], none, none, none⟩

/-- What `AppendEvent` leaves for the events and receipts that come later. -/
def appendLimit (event : PeerRunEvent) : Nat :=
  maximumJSONBytes - runReceiptReserve -
    match event.type with
    | .output | .activity => 256 * 1024
    | .reply => 64 * 1024
    | .status _ => 0

section

variable (record : RunRecord)

variable (capability : Capability)

/-- `AppendEvent` up to the write: the state to save, or the retained one. -/
def appendEvent (event : PeerRunEvent) (state : TransportState) : Except String TransportState :=
  if v.decodes event = false ∨ event.sequence < 1 ∨ state.events.length + 1 < event.sequence then
    .error errConflict
  else if event.sequence ≤ state.events.length then
    if state.events[event.sequence - 1]? = some event then .ok state else .error errConflict
  else if state.settlement.isSome then .error errConflict
  else
    let next := { state with events := state.events ++ [event] }
    if next.bytes ≤ appendLimit event ∧ saveable p v record capability next then .ok next
    else .error errStore

def acknowledgeEvent (receipt : RunEventReceipt) (state : TransportState) : Except String
    TransportState :=
  let next := { state with acknowledgment := some receipt }
  if validateTransport p v record capability next = false ∨ state.acknowledged + 1 < receipt.sequence
  then .error errProof
  else if receipt.sequence ≤ state.acknowledged then .ok state
  else if saveable p v record capability next then .ok next
  else .error errStore

/-- The settlement of an outcome, content-free. -/
def settlementOf (outcome : RunOutcome) (operationId : String) : PeerSettlement where
  capabilityId := capability.capabilityId
  operationId := operationId
  bindingDigest := v.bindingDigest record.binding
  sequence := 1
  state := outcome.state
  receiptDigest := (p.receiptDigest ⟨record.request, capability⟩).getD ""

/-- `PrepareSettlement` up to the write, with the operation id drawn for it. -/
def prepareSettlement (operationId : String) (state : TransportState) : Except String TransportState
    :=
  match record.outcome, state.settlement with
  | none, _ => .error errStore
  | some _, some _ => .ok state
  | some outcome, none =>
    let next := { state with
      settlement := some (settlementOf p v record capability outcome operationId) }
    if saveable p v record capability next then .ok next else .error errStore

def acknowledgeSettlement (receipt : RunSettlementReceipt) (state : TransportState) : Except String
    TransportState :=
  let next := { state with settlementReceipt := some receipt }
  if validateTransport p v record capability next = false then .error errProof
  else if state.settlementReceipt.isSome then .ok state
  else if saveable p v record capability next then .ok next
  else .error errStore

end

/-- What the running core has seen is only extended. -/
def TransportState.extendedBy (previous next : TransportState) : Bool :=
  previous.events.isPrefixOf next.events && previous.acknowledged ≤ next.acknowledged &&
    (previous.settlement.isNone || previous.settlement = next.settlement) &&
    (previous.settlementReceipt.isNone || previous.settlementReceipt = next.settlementReceipt)

end ConveneWire.Peer
