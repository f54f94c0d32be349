import ConveneWire.Peer.Budget
import ConveneWire.Peer.AtMostOnce

/-! # Settling a known outcome

`recover` run to its end with a Host that accepts everything, over every journal
the calls of `run_transport_journal.go` can leave behind. -/

namespace ConveneWire.Peer

open Concurrent (Process)
open Concurrent.Process (run_step forEach ask run_bind_ok run_bind_error)

variable {p : Partition} {v : Verifier} {runId : String} {record : RunRecord}
  {capability : Capability} {state next : TransportState}

/-! ## Journals -/

/-- The journals of a Run: the calls made for it, in any order and number, and its outcome
recorded at any point. -/
inductive Journaled (p : Partition) (v : Verifier) (capability : Capability) :
    RunRecord → TransportState → Prop
  | empty (record : RunRecord) : Journaled p v capability record (emptyTransport v record)
  | finished {record : RunRecord} {state : TransportState} (outcome : RunOutcome)
      (hopen : record.outcome = none) (h : Journaled p v capability record state) :
      Journaled p v capability { record with outcome := some outcome } state
  | append {record : RunRecord} {state next : TransportState} (event : PeerRunEvent)
      (h : Journaled p v capability record state)
      (hcall : appendEvent p v record capability event state = .ok next) :
      Journaled p v capability record next
  | acknowledge {record : RunRecord} {state next : TransportState} (receipt : RunEventReceipt)
      (h : Journaled p v capability record state)
      (hcall : acknowledgeEvent p v record capability receipt state = .ok next) :
      Journaled p v capability record next
  | prepare {record : RunRecord} {state next : TransportState} (operationId : String)
      (h : Journaled p v capability record state)
      (hcall : prepareSettlement p v record capability operationId state = .ok next) :
      Journaled p v capability record next
  | settled {record : RunRecord} {state next : TransportState} (receipt : RunSettlementReceipt)
      (h : Journaled p v capability record state)
      (hcall : acknowledgeSettlement p v record capability receipt state = .ok next) :
      Journaled p v capability record next

/-- The texts a partition derives from its keys and digests have their shapes. -/
structure WellShaped (p : Partition) (v : Verifier) (record : RunRecord) (capability : Capability) :
    Prop where
  nameSpace : matchesDigest v.nameSpace = true
  requestDigest : matchesDigest record.binding.requestDigest = true
  bindingDigest : matchesDigest (v.bindingDigest record.binding) = true
  capabilityId : matchesId "peersettle_" capability.capabilityId = true
  receiptDigest : ∃ digest, p.receiptDigest ⟨record.request, capability⟩ = some digest ∧
    matchesDigest digest = true

/-- `validateTransport`, check by check. -/
structure ValidTransport (p : Partition) (v : Verifier) (record : RunRecord) (capability : Capability)
    (state : TransportState) : Prop where
  nameSpace : state.nameSpace = v.nameSpace
  requestDigest : state.requestDigest = record.binding.requestDigest
  count : state.events.length ≤ maximumRunEvents
  events : eventsValid v state.events = true
  acknowledgment : acknowledgmentValid v record capability state = true
  settlement : settlementValid p v record capability state = true
  settlementReceipt : settlementReceiptValid v state = true

theorem validateTransport_iff :
    validateTransport p v record capability state = true ↔ ValidTransport p v record capability state := by
  unfold validateTransport
  simp only [Bool.and_eq_true, decide_eq_true_eq]
  constructor
  · rintro ⟨⟨⟨⟨⟨⟨h₁, h₂⟩, h₃⟩, h₄⟩, h₅⟩, h₆⟩, h₇⟩
    exact ⟨h₁, h₂, h₃, h₄, h₅, h₆, h₇⟩
  · rintro ⟨h₁, h₂, h₃, h₄, h₅, h₆, h₇⟩
    exact ⟨⟨⟨⟨⟨⟨h₁, h₂⟩, h₃⟩, h₄⟩, h₅⟩, h₆⟩, h₇⟩

theorem ValidTransport.closed (h : ValidTransport p v record capability state) : state.Closed := by
  refine ⟨?_, ?_, ?_⟩
  · intro receipt hreceipt
    have hvalid := h.acknowledgment
    simp only [acknowledgmentValid, Option.mem_def.mp hreceipt, Bool.and_eq_true] at hvalid
    exact hvalid.1.1.1.1.1.1
  · intro settlement hsettlement
    have hvalid := h.settlement
    simp only [settlementValid, Option.mem_def.mp hsettlement, Bool.and_eq_true] at hvalid
    exact hvalid.1.1.1.1.1
  · intro receipt hreceipt
    have hvalid := h.settlementReceipt
    simp only [settlementReceiptValid, Option.mem_def.mp hreceipt, Bool.and_eq_true] at hvalid
    exact hvalid.1.2

/-- Only a settlement has a receipt. -/
theorem ValidTransport.unsettled (h : ValidTransport p v record capability state)
    (hopen : state.settlement = none) : state.settlementReceipt = none := by
  have hvalid := h.settlementReceipt
  cases hreceipt : state.settlementReceipt with
  | none => rfl
  | some receipt => simp [settlementReceiptValid, hreceipt, hopen] at hvalid

/-- Every journal is valid and has left the reserve free. -/
structure Sound (p : Partition) (v : Verifier) (record : RunRecord) (capability : Capability)
    (state : TransportState) : Prop where
  valid : ValidTransport p v record capability state
  reserved : state.bare.bytes ≤ maximumJSONBytes - runReceiptReserve

theorem Sound.fits (h : Sound p v record capability state) :
    saveable p v record capability state = true := by
  unfold saveable
  rw [Bool.and_eq_true, decide_eq_true_eq]
  exact ⟨validateTransport_iff.mpr h.valid, TransportState.fits h.valid.closed h.reserved⟩

theorem saveable_valid (h : saveable p v record capability state = true) :
    ValidTransport p v record capability state := by
  unfold saveable at h
  rw [Bool.and_eq_true] at h
  exact validateTransport_iff.mp h.1

theorem emptyTransport_sound (hshape : WellShaped p v record capability) :
    Sound p v record capability (emptyTransport v record) := by
  refine ⟨⟨rfl, rfl, Nat.zero_le _, rfl, rfl, rfl, rfl⟩, ?_⟩
  have hbytes := bracketBytes_mono (.cons (Nat.le_refl versionBytes)
    (.cons (textMember_le "namespace" (matchesDigest_length hshape.nameSpace))
    (.cons (textMember_le "requestDigest" (matchesDigest_length hshape.requestDigest))
    (.cons (Nat.le_refl (memberBytes "events" (bracketBytes []))) .nil))))
  exact Nat.le_trans hbytes (by decide)

/-- No call but an append touches the events. -/
theorem Sound.of_bare (h : Sound p v record capability state)
    (hvalid : ValidTransport p v record capability next) (hbare : next.bare = state.bare) :
    Sound p v record capability next :=
  ⟨hvalid, by rw [hbare]; exact h.reserved⟩

variable {event event : PeerRunEvent} {outcome : RunOutcome}

theorem appendEvent_sound (h : Sound p v record capability state)
    (hcall : appendEvent p v record capability event state = .ok next) :
    Sound p v record capability next := by
  unfold appendEvent at hcall
  split at hcall
  · cases hcall
  split at hcall
  · split at hcall
    · cases hcall
      exact h
    · cases hcall
  split at hcall
  · cases hcall
  simp only at hcall
  split at hcall
  · rename_i hfits
    cases hcall
    refine ⟨saveable_valid hfits.2, Nat.le_trans (TransportState.bare_bytes_le _) ?_⟩
    refine Nat.le_trans hfits.1 ?_
    unfold appendLimit
    omega
  · cases hcall

theorem Journaled.sound {capability : Capability} (hjournal : Journaled p v capability record state)
    (hshape : WellShaped p v record capability) : Sound p v record capability state := by
  induction hjournal with
  | empty record => exact emptyTransport_sound hshape
  | @finished record state outcome hopen hjournal ih =>
    have h := ih { hshape with }
    refine ⟨{ h.valid with settlement := ?_ }, h.reserved⟩
    -- without an outcome there was no settlement
    have hvalid := h.valid.settlement
    cases hsettlement : state.settlement with
    | none => simp [settlementValid, hsettlement]
    | some settlement => simp [settlementValid, hsettlement, hopen] at hvalid
  | append event hjournal hcall ih => exact appendEvent_sound (ih hshape) hcall
  | acknowledge receipt hjournal hcall ih =>
    unfold acknowledgeEvent at hcall
    simp only at hcall
    split at hcall
    · cases hcall
    split at hcall
    · cases hcall
      exact ih hshape
    split at hcall
    · rename_i hsave
      cases hcall
      exact (ih hshape).of_bare (saveable_valid hsave) rfl
    · cases hcall
  | prepare operationId hjournal hcall ih =>
    unfold prepareSettlement at hcall
    split at hcall
    · cases hcall
    · cases hcall
      exact ih hshape
    simp only at hcall
    split at hcall
    · rename_i hsave
      cases hcall
      exact (ih hshape).of_bare (saveable_valid hsave) rfl
    · cases hcall
  | settled receipt hjournal hcall ih =>
    unfold acknowledgeSettlement at hcall
    simp only at hcall
    split at hcall
    · cases hcall
    split at hcall
    · cases hcall
      exact ih hshape
    split at hcall
    · rename_i hsave
      cases hcall
      exact (ih hshape).of_bare (saveable_valid hsave) rfl
    · cases hcall

/-! ## Calls that a cooperating Host lets through -/

theorem eventsValid_iff {events : List PeerRunEvent} :
    eventsValid v events = true ↔ (∀ event ∈ events, v.decodes event = true) ∧
      events.map PeerRunEvent.sequence = List.range' 1 events.length := by
  unfold eventsValid
  rw [Bool.and_eq_true, List.all_eq_true, decide_eq_true_eq]

/-- An event of a valid journal carries its position. -/
theorem ValidTransport.sequence_of (h : ValidTransport p v record capability state) {i : Nat}
    (hevent : state.events[i]? = some event) : event.sequence = i + 1 := by
  obtain ⟨-, hnumbered⟩ := eventsValid_iff.mp h.events
  have hget := congrArg (·[i]?) hnumbered
  obtain ⟨hi, -⟩ := List.getElem?_eq_some_iff.mp hevent
  simp only [List.getElem?_map, hevent, Option.map_some] at hget
  rw [List.getElem?_range' hi] at hget
  have := Option.some.inj hget
  omega

/-- The outcome's event as the next one of the journal. -/
theorem ValidTransport.append (h : ValidTransport p v record capability state)
    (hdecodes : v.decodes event = true) (hnext : event.sequence = state.events.length + 1)
    (hcount : state.events.length < maximumRunEvents) :
    ValidTransport p v record capability { state with events := state.events ++ [event] } := by
  obtain ⟨hall, hnumbered⟩ := eventsValid_iff.mp h.events
  refine { h with count := ?_, events := eventsValid_iff.mpr ⟨?_, ?_⟩, acknowledgment := ?_ }
  · rw [List.length_append]
    exact hcount
  · intro event' hevent'
    rcases List.mem_append.mp hevent' with hevent' | hevent'
    · exact hall event' hevent'
    · obtain rfl := List.mem_singleton.mp hevent'
      exact hdecodes
  · rw [List.map_append, hnumbered, List.length_append, ← List.range'_append]
    simp [hnext, Nat.add_comm]
  · have hvalid := h.acknowledgment
    cases hack : state.acknowledgment with
    | none => simp [acknowledgmentValid]
    | some receipt =>
      simp only [acknowledgmentValid, hack, Bool.and_eq_true, decide_eq_true_eq] at hvalid ⊢
      obtain ⟨⟨⟨⟨⟨⟨hclosed, hpos⟩, hle⟩, hbinding⟩, hcapability⟩, hdigest⟩, hproof⟩ := hvalid
      refine ⟨⟨⟨⟨⟨⟨hclosed, hpos⟩, ?_⟩, hbinding⟩, hcapability⟩, ?_⟩, hproof⟩
      · rw [List.length_append]
        omega
      · rw [List.getElem?_append_left (by omega)]
        exact hdigest

/-- The receipt a Host that accepts an event returns. -/
structure Accepts (v : Verifier) (record : RunRecord) (capability : Capability) (event : PeerRunEvent)
    (receipt : RunEventReceipt) : Prop where
  closed : receipt.closed = true
  sequence : receipt.sequence = event.sequence
  bindingDigest : receipt.bindingDigest = v.bindingDigest record.binding
  capabilityId : receipt.capabilityId = capability.capabilityId
  eventDigest : receipt.eventDigest = v.eventDigest event
  proof : v.eventProof receipt = true

/-- Everything is in order, and the Host accepts what it is sent. -/
structure Cooperates (v : Verifier) (record : RunRecord) (capability : Capability) (a : Answer) :
    Prop where
  checked : a.io.checked = true
  written : a.io.write = .done
  operationId : matchesId "op_" a.operationId = true
  publish : ∀ event, 1 ≤ event.sequence → event.sequence ≤ maximumRunEvents →
    ∃ receipt, a.publish event = .receipt receipt ∧ Accepts v record capability event receipt
  settle : ∀ settlement, settlement.closed = true → ∃ receipt, a.settle settlement = .ok receipt ∧
    receipt.settlement = settlement ∧ receipt.closed = true ∧ v.settlementProof receipt = true

section

variable (h : Sound p v record capability state)
include h

/-- The acknowledgment of the next event is saved. -/
theorem acknowledgeEvent_next (hevent : state.events[state.acknowledged]? = some event)
    {receipt : RunEventReceipt} (haccepts : Accepts v record capability event receipt) :
    acknowledgeEvent p v record capability receipt state =
        .ok { state with acknowledgment := some receipt } ∧
      Sound p v record capability { state with acknowledgment := some receipt } ∧
      receipt.sequence = state.acknowledged + 1 := by
  have hseq : receipt.sequence = state.acknowledged + 1 := by
    rw [haccepts.sequence, h.valid.sequence_of hevent]
  obtain ⟨hlt, -⟩ := List.getElem?_eq_some_iff.mp hevent
  have hvalid : ValidTransport p v record capability { state with acknowledgment := some receipt } := by
    refine { h.valid with acknowledgment := ?_ }
    simp only [acknowledgmentValid, Bool.and_eq_true, decide_eq_true_eq]
    refine ⟨⟨⟨⟨⟨⟨haccepts.closed, by omega⟩, by omega⟩, haccepts.bindingDigest⟩,
      haccepts.capabilityId⟩, ?_⟩, haccepts.proof⟩
    rw [hseq, Nat.add_sub_cancel, hevent, Option.map_some, haccepts.eventDigest]
  have hsound : Sound p v record capability { state with acknowledgment := some receipt } :=
    h.of_bare hvalid rfl
  refine ⟨?_, hsound, hseq⟩
  unfold acknowledgeEvent
  simp only
  rw [if_neg, if_neg, if_pos hsound.fits]
  · omega
  rw [not_or]
  refine ⟨?_, by omega⟩
  rw [validateTransport_iff.mpr hvalid]
  decide

theorem prepareSettlement_fits (hshape : WellShaped p v record capability)
    (houtcome : record.outcome = some outcome) (hstate : outcome.state ≠ .inputRequired)
    (hopen : state.settlement = none) {operationId : String}
    (hoperation : matchesId "op_" operationId = true) :
    ∃ settlement, prepareSettlement p v record capability operationId state =
        .ok { state with settlement := some settlement } ∧
      Sound p v record capability { state with settlement := some settlement } := by
  obtain ⟨digest, hdigest, hmatches⟩ := hshape.receiptDigest
  have hclosed : (settlementOf p v record capability outcome operationId).closed = true := by
    simp only [PeerSettlement.closed, settlementOf, hdigest, Option.getD_some, Bool.and_eq_true,
      decide_eq_true_eq]
    exact ⟨⟨⟨⟨⟨⟨hshape.capabilityId, hoperation⟩, hshape.bindingDigest⟩, Nat.le_refl 1⟩, by decide⟩,
      hstate⟩, hmatches⟩
  have hreceipt := h.valid.unsettled hopen
  have hsound : Sound p v record capability { state with
      settlement := some (settlementOf p v record capability outcome operationId) } := by
    refine h.of_bare { h.valid with settlement := ?_, settlementReceipt := ?_ } rfl
    · simp only [settlementValid, Bool.and_eq_true, decide_eq_true_eq]
      exact ⟨⟨⟨⟨⟨hclosed, rfl⟩, by rw [houtcome]; rfl⟩, rfl⟩, rfl⟩,
        by rw [hdigest]; simp [settlementOf, hdigest]⟩
    · simp only [settlementReceiptValid, hreceipt]
  refine ⟨_, ?_, hsound⟩
  unfold prepareSettlement
  rw [houtcome, hopen]
  simp only
  rw [if_pos hsound.fits]

theorem acknowledgeSettlement_fits {receipt : RunSettlementReceipt}
    (hsettlement : state.settlement = some receipt.settlement)
    (hopen : state.settlementReceipt = none) (hclosed : receipt.closed = true)
    (hproof : v.settlementProof receipt = true) :
    acknowledgeSettlement p v record capability receipt state =
        .ok { state with settlementReceipt := some receipt } ∧
      Sound p v record capability { state with settlementReceipt := some receipt } := by
  have hvalid : ValidTransport p v record capability
      { state with settlementReceipt := some receipt } := by
    refine { h.valid with settlementReceipt := ?_ }
    simp only [settlementReceiptValid, Bool.and_eq_true, decide_eq_true_eq]
    exact ⟨⟨hsettlement, hclosed⟩, hproof⟩
  have hsound := h.of_bare hvalid rfl
  refine ⟨?_, hsound⟩
  unfold acknowledgeSettlement
  simp only
  rw [if_neg, if_neg, if_pos hsound.fits]
  · rw [hopen]
    decide
  · rw [validateTransport_iff.mpr hvalid]
    decide

end

/-! ## One call after the other -/

/-- The participant has this journal on file for the Run, and can read it. -/
structure Holding (p : Partition) (v : Verifier) (runId : String) (record : RunRecord)
    (capability : Capability) (state : TransportState) (s : Participant) : Prop where
  read : s.runs.files.read p runId = .ok record
  seen : ∀ prior ∈ s.runs.observed, prior.extendedBy record = true
  capability : record.settlement = some capability
  stored : s.transport = some state ∨
    s.transport = none ∧ s.transportObserved = none ∧ state = emptyTransport v record
  observed : ∀ previous ∈ s.transportObserved, previous.extendedBy state = true

theorem RunRecord.extendedBy_refl (record : RunRecord) : record.extendedBy record = true := by
  simp [RunRecord.extendedBy]

theorem TransportState.extendedBy_refl (state : TransportState) : state.extendedBy state = true := by
  simp [TransportState.extendedBy]

variable {s : Participant} {a : Answer} {started : Bool} {terminal : PeerRunEvent}

theorem Holding.readTransport (h : Holding p v runId record capability state s)
    (hchecked : a.io.checked = true) (hvalid : ValidTransport p v record capability state) :
    ∃ t, s.readTransport p v runId a.io = (.ok (record, capability, state), t) ∧
      Holding p v runId record capability state t := by
  have hload : s.runs.load p runId = (.ok record, { s.runs with observed := some record }) := by
    unfold RunJournal.load
    rw [h.read]
    exact if_pos h.seen
  have hseen : ∀ prior ∈ some record, prior.extendedBy record = true := by
    intro prior hprior
    cases hprior
    exact record.extendedBy_refl
  unfold Participant.readTransport
  rw [if_neg (by rw [hchecked]; decide), hload]
  simp only
  rw [h.capability]
  rcases h.stored with hstored | ⟨hstored, hobserved, hempty⟩
  · rw [hstored]
    simp only
    rw [if_pos ⟨validateTransport_iff.mpr hvalid, h.observed⟩]
    refine ⟨_, rfl, h.read, hseen, h.capability, .inl rfl, ?_⟩
    intro previous hprevious
    cases hprevious
    exact state.extendedBy_refl
  · rw [hstored, hempty]
    simp only
    rw [if_neg (by rw [hobserved]; decide)]
    refine ⟨_, rfl, h.read, hseen, h.capability, .inr ⟨rfl, hobserved, rfl⟩, ?_⟩
    intro previous hprevious
    rw [hobserved] at hprevious
    cases hprevious

section

variable {f : Answer → RunRecord → Capability → TransportState → Except String TransportState}
  (h : Holding p v runId record capability state s)
  (hcooperates : Cooperates v record capability a)
  (hvalid : ValidTransport p v record capability state)
include h hcooperates hvalid

/-- A call that succeeds leaves its journal on file. -/
theorem Holding.call (hf : f a record capability state = .ok next) :
    ∃ t, (onTransport p v runId f).run a s = (.ok next, t) ∧
      Holding p v runId record capability next t := by
  obtain ⟨t, hread, hholding⟩ := h.readTransport hcooperates.checked hvalid
  unfold onTransport
  rw [run_step]
  unfold Participant.callTransport
  rw [hread]
  simp only
  rw [hf]
  simp only
  split
  · rename_i heq
    rw [heq]
    exact ⟨t, rfl, hholding⟩
  unfold Participant.writeTransport
  rw [hcooperates.written]
  refine ⟨_, rfl, hholding.read, hholding.seen, hholding.capability, .inl rfl, ?_⟩
  intro previous hprevious
  cases hprevious
  exact next.extendedBy_refl

theorem Holding.call_error {message : String} (hf : f a record capability state = .error message) :
    ∃ t, (onTransport p v runId f).run a s = (.error message, t) ∧
      Holding p v runId record capability state t := by
  obtain ⟨t, hread, hholding⟩ := h.readTransport hcooperates.checked hvalid
  refine ⟨t, ?_, hholding⟩
  unfold onTransport
  rw [run_step]
  unfold Participant.callTransport
  rw [hread]
  simp only
  rw [hf]

end

/-- Everything journaled and not acknowledged is published, in order. -/
theorem Holding.publishAll (hcooperates : Cooperates v record capability a) :
    ∀ (events : List PeerRunEvent) {state : TransportState} {s : Participant},
      Holding p v runId record capability state s → Sound p v record capability state →
      state.events.drop state.acknowledged = events → ∃ t acknowledgment,
        (forEach events (publish p v runId)).run a s = (.ok ⟨⟩, t) ∧
        Holding p v runId record capability { state with acknowledgment } t ∧
        Sound p v record capability { state with acknowledgment } := by
  intro events
  induction events with
  | nil =>
    intro state s h hsound _
    exact ⟨s, state.acknowledgment, rfl, h, hsound⟩
  | cons event rest ih =>
    intro state s h hsound hdrop
    have hevent : state.events[state.acknowledged]? = some event := by
      have hget := congrArg (·[0]?) hdrop
      simpa using hget
    obtain ⟨hlt, -⟩ := List.getElem?_eq_some_iff.mp hevent
    have hseq := hsound.valid.sequence_of hevent
    have hcount := hsound.valid.count
    obtain ⟨receipt, hpublish, haccepts⟩ := hcooperates.publish event (by omega) (by omega)
    obtain ⟨hack, hsound', hreceipt⟩ := acknowledgeEvent_next hsound hevent haccepts
    -- the request leaves before its receipt is journaled
    have hsent : Holding p v runId record capability state { s with sent := s.sent ++ [event] } :=
      { h with }
    obtain ⟨t, hcall, hholding⟩ := hsent.call hcooperates hsound.valid
      (f := fun _ record capability => acknowledgeEvent p v record capability receipt) hack
    have hrun : (publish p v runId event).run a s = (.ok ⟨⟩, t) := by
      unfold publish
      have hask : (ask (fun a : Answer => a.publish event) : Routine Publication).run a
          { s with sent := s.sent ++ [event] } =
          (.ok (.receipt receipt), { s with sent := s.sent ++ [event] }) := by
        rw [← hpublish]
        rfl
      rw [run_bind_ok (a := ⟨⟩) (t := { s with sent := s.sent ++ [event] }) rfl, run_bind_ok hask]
      simp only
      rw [run_bind_ok hcall]
      rfl
    have hrest : ({ state with acknowledgment := some receipt } : TransportState).events.drop
        ({ state with acknowledgment := some receipt } : TransportState).acknowledged = rest := by
      simp only [TransportState.acknowledged]
      rw [hreceipt, ← List.drop_drop, hdrop]
      rfl
    obtain ⟨u, acknowledgment, hloop, hfinal, hsoundFinal⟩ := ih hholding hsound' hrest
    refine ⟨u, acknowledgment, ?_, hfinal, hsoundFinal⟩
    unfold forEach
    rw [run_bind_ok hrun]
    exact hloop

/-! ## Recovery -/

/-- The Host's receipt for the settlement is on file. -/
def Participant.settled (s : Participant) : Bool :=
  s.transport.any fun state => state.settlementReceipt.isSome

theorem Holding.settled_iff (h : Holding p v runId record capability state s) :
    s.settled = state.settlementReceipt.isSome := by
  unfold Participant.settled
  rcases h.stored with hstored | ⟨hstored, -, rfl⟩ <;> rw [hstored] <;> rfl

/-- There is room for an event below the limits all events share. -/
def Room (event : PeerRunEvent) (state : TransportState) : Prop :=
  state.events.length < maximumRunEvents ∧
    ({ state with events := state.events ++ [event] } : TransportState).bytes ≤
      maximumJSONBytes - runReceiptReserve

instance instDecidableRoom : Decidable (Room event state) := inferInstanceAs (Decidable (_ ∧ _))

/-- The outcome's event is in the journal, or there is room for it. -/
def TerminalFits (outcome : RunOutcome) (state : TransportState) : Prop :=
  ∀ terminal ∈ outcome.terminal, state.events[terminal.sequence - 1]? = some terminal ∨
    state.events.length < maximumRunEvents ∧
      ({ state with events := state.events ++ [terminal] } : TransportState).bytes ≤
        maximumJSONBytes - runReceiptReserve

/-- The outcome's event was numbered after the events before it, as `execute` does. -/
def TerminalNext (v : Verifier) (outcome : RunOutcome) (state : TransportState) : Prop :=
  ∀ terminal ∈ outcome.terminal, v.decodes terminal = true ∧
    (terminal.sequence = state.events.length + 1 ∨
      state.events[terminal.sequence - 1]? = some terminal)

theorem appendTerminal_limit (hvalid : validRunOutcome outcome started = true)
    (hterminal : outcome.terminal = some terminal) :
    appendLimit terminal = maximumJSONBytes - runReceiptReserve := by
  unfold validRunOutcome at hvalid
  rw [hterminal] at hvalid
  unfold appendLimit
  cases htype : terminal.type with
  | status status => exact Nat.sub_zero _
  | reply | output | activity => simp [htype] at hvalid

theorem appendEvent_retained (h : Sound p v record capability state)
    (hdecodes : v.decodes event = true) (hretained : state.events[event.sequence - 1]? = some event)
    : appendEvent p v record capability event state = .ok state := by
  obtain ⟨hlt, -⟩ := List.getElem?_eq_some_iff.mp hretained
  have hseq := h.valid.sequence_of hretained
  unfold appendEvent
  rw [if_neg, if_pos (by omega), if_pos hretained]
  rw [hdecodes]
  simp only [Bool.true_eq_false, false_or, not_or, Nat.not_lt]
  omega

theorem appendEvent_room (h : Sound p v record capability state) (hdecodes : v.decodes event = true)
    (hnext : event.sequence = state.events.length + 1) (hopen : state.settlement = none)
    (hlimit : appendLimit event = maximumJSONBytes - runReceiptReserve) :
    appendEvent p v record capability event state =
      if Room event state then .ok { state with events := state.events ++ [event] }
      else .error errStore := by
  have hrange : ¬ (v.decodes event = false ∨ event.sequence < 1 ∨
      state.events.length + 1 < event.sequence) := by
    rw [hdecodes]
    simp only [Bool.true_eq_false, false_or, not_or, Nat.not_lt]
    omega
  unfold appendEvent
  rw [if_neg hrange, if_neg (by omega), if_neg (by rw [hopen]; decide)]
  simp only
  rw [hlimit]
  by_cases hroom : Room event state
  · have hvalid := h.valid.append hdecodes hnext hroom.1
    have hsave : Sound p v record capability { state with events := state.events ++ [event] } :=
      ⟨hvalid, Nat.le_trans (TransportState.bare_bytes_le _) hroom.2⟩
    rw [if_pos hroom, if_pos ⟨hroom.2, hsave.fits⟩]
  · rw [if_neg hroom, if_neg]
    rintro ⟨hbytes, hsave⟩
    have hcount := (saveable_valid hsave).count
    rw [List.length_append] at hcount
    exact hroom ⟨hcount, hbytes⟩

section

variable {outcome : RunOutcome} (h : Holding p v runId record capability state s)
  (hsound : Sound p v record capability state) (hcooperates : Cooperates v record capability a)
include h hsound hcooperates

theorem Holding.settle {settlement : PeerSettlement}
    (hsettlement : state.settlement = some settlement) (hopen : state.settlementReceipt = none) :
    ((settle p v runId settlement).run a s).2.settled = true := by
  have hclosed := hsound.valid.closed.settlement settlement hsettlement
  obtain ⟨receipt, hanswer, rfl, hreceipt, hproof⟩ := hcooperates.settle settlement hclosed
  obtain ⟨hcall, hsound'⟩ := acknowledgeSettlement_fits hsound hsettlement hopen hreceipt hproof
  have hsent : Holding p v runId record capability state
      { s with settlements := s.settlements ++ [receipt.settlement] } := { h with }
  obtain ⟨t, hrun, hholding⟩ := hsent.call hcooperates hsound.valid
    (f := fun _ record capability => acknowledgeSettlement p v record capability receipt) hcall
  have hask : (ask (fun a : Answer => a.settle receipt.settlement) :
      Routine (Except String RunSettlementReceipt)).run a
      { s with settlements := s.settlements ++ [receipt.settlement] } =
      (.ok (.ok receipt), { s with settlements := s.settlements ++ [receipt.settlement] }) := by
    rw [← hanswer]
    rfl
  unfold Peer.settle
  rw [run_bind_ok (a := ⟨⟩)
    (t := { s with settlements := s.settlements ++ [receipt.settlement] }) rfl,
    run_bind_ok hask]
  simp only
  rw [run_bind_ok hrun]
  exact hholding.settled_iff.trans rfl

/-- The steps of a recovery that is not held up by the outcome's event. -/
theorem Holding.recover_settles (hshape : WellShaped p v record capability)
    (houtcome : record.outcome = some outcome) (hstate : outcome.state ≠ .inputRequired) (hopen : state.settlement = none)
    (hnumbered : TerminalNext v outcome state)
    (hvalid : validRunOutcome outcome started = true) (hfits : TerminalFits outcome state) :
    ((recoverFrom p v runId outcome state).run a s).2.settled = true := by
  have hunsettled := hsound.valid.unsettled hopen
  -- the outcome's event
  obtain ⟨t, state', hterminal, hholding, hsound', hopen', hunsettled'⟩ : ∃ t state',
      (appendTerminal p v runId outcome).run a s = (.ok ⟨⟩, t) ∧
      Holding p v runId record capability state' t ∧ Sound p v record capability state' ∧
      state'.settlement = none ∧ state'.settlementReceipt = none := by
    unfold appendTerminal
    cases hevent : outcome.terminal with
    | none => exact ⟨s, state, rfl, h, hsound, hopen, hunsettled⟩
    | some terminal =>
      obtain ⟨hdecodes, hplace⟩ := hnumbered terminal hevent
      have happend : ∃ next, appendEvent p v record capability terminal state = .ok next ∧
          next.settlement = none ∧ next.settlementReceipt = none := by
        rcases hfits terminal hevent with hretained | hroom
        · exact ⟨state, appendEvent_retained hsound hdecodes hretained, hopen, hunsettled⟩
        rcases hplace with hnext | hretained
        · refine ⟨{ state with events := state.events ++ [terminal] }, ?_, hopen, hunsettled⟩
          rw [appendEvent_room hsound hdecodes hnext hopen (appendTerminal_limit hvalid hevent),
            if_pos (show Room terminal state from hroom)]
        · exact ⟨state, appendEvent_retained hsound hdecodes hretained, hopen, hunsettled⟩
      obtain ⟨next, hcall, hopen', hunsettled'⟩ := happend
      obtain ⟨t, hrun, hholding⟩ := h.call hcooperates hsound.valid
        (f := fun _ record capability => appendEvent p v record capability terminal) hcall
      refine ⟨t, next, ?_, hholding, appendEvent_sound hsound hcall, hopen', hunsettled'⟩
      simp only
      rw [run_bind_ok hrun]
      rfl
  -- everything is published
  obtain ⟨u, acknowledgment, hflush, hholding', hsound''⟩ : ∃ u acknowledgment,
      (flush p v runId).run a t = (.ok ⟨⟩, u) ∧
      Holding p v runId record capability { state' with acknowledgment } u ∧
      Sound p v record capability { state' with acknowledgment } := by
    obtain ⟨t', hread, hholding'⟩ := hholding.call hcooperates hsound'.valid
      (f := fun _ _ _ state => .ok state) rfl
    obtain ⟨u, acknowledgment, hloop, hdone⟩ :=
      Holding.publishAll hcooperates _ hholding' hsound' rfl
    refine ⟨u, acknowledgment, ?_, hdone⟩
    unfold flush
    rw [run_bind_ok (show (transport p v runId).run a t = _ from hread)]
    exact hloop
  -- the settlement is drawn up and sent
  obtain ⟨settlement, hprepare, hsettlement⟩ := prepareSettlement_fits hsound'' hshape houtcome hstate
    hopen' hcooperates.operationId
  obtain ⟨w, hretain, hholding''⟩ := hholding'.call hcooperates hsound''.valid
    (f := fun a record capability => prepareSettlement p v record capability a.operationId) hprepare
  have hdenied : (flushUnlessDenied p v runId).run a t = (.ok ⟨⟩, u) := by
    unfold flushUnlessDenied
    rw [run_bind_ok Process.run_attempt, hflush]
    rfl
  have hretained : (retainSettlement p v runId outcome).run a u = (.ok (some settlement), w) := by
    unfold retainSettlement
    rw [if_neg hstate, run_bind_ok hretain]
    rfl
  unfold recoverFrom
  rw [if_neg (by rw [hunsettled]; decide), hopen]
  simp only
  rw [run_bind_ok hterminal, run_bind_ok hdenied, run_bind_ok hretained]
  exact hholding''.settle hsettlement hcooperates rfl hunsettled'

/-- The outcome's event does not fit, so nothing is settled, now or later. -/
theorem Holding.recover_blocked (hopen : state.settlement = none)
    (hvalid : validRunOutcome outcome started = true)
    (hterminal : outcome.terminal = some terminal) (hdecodes : v.decodes terminal = true)
    (hnext : terminal.sequence = state.events.length + 1) (hfull : ¬ Room terminal state) :
    ∃ t, (recoverFrom p v runId outcome state).run a s = (.error errStore, t) ∧
      Holding p v runId record capability state t ∧ state.settlementReceipt = none := by
  have hunsettled := hsound.valid.unsettled hopen
  have happend := appendEvent_room hsound hdecodes hnext hopen (appendTerminal_limit hvalid hterminal)
  rw [if_neg hfull] at happend
  obtain ⟨t, hrun, hholding⟩ := h.call_error hcooperates hsound.valid
    (f := fun _ record capability => appendEvent p v record capability terminal) happend
  refine ⟨t, ?_, hholding, hunsettled⟩
  unfold recoverFrom
  rw [if_neg (by rw [hunsettled]; decide), hopen]
  simp only
  refine run_bind_error ?_
  unfold appendTerminal
  rw [hterminal]
  exact run_bind_error hrun

/-- A recovery reads the journal first. -/
theorem Holding.recover_run (houtcome : record.outcome = some outcome) :
    ∃ t, (recover p v runId record).run a s = (recoverFrom p v runId outcome state).run a t ∧
      Holding p v runId record capability state t := by
  obtain ⟨t, hread, hholding⟩ := h.call hcooperates hsound.valid
    (f := fun _ _ _ state => .ok state) rfl
  refine ⟨t, ?_, hholding⟩
  unfold recover
  rw [houtcome]
  exact run_bind_ok hread

end

variable {outcome : RunOutcome} {n : Nat}

theorem RunFiles.read_valid {files : RunFiles} (h : files.read p runId = .ok record)
    (houtcome : record.outcome = some outcome) :
    validRunOutcome outcome files.started.isSome = true := by
  unfold RunFiles.read at h
  split at h
  · cases h
  split at h
  · cases h
  split at h
  · rename_i hread
    cases h
    obtain ⟨finished, hfinished, rfl⟩ := Option.map_eq_some_iff.mp houtcome
    have hconsistent := hread.2.2
    simp only [RunFiles.consistent, hfinished, Bool.and_eq_true] at hconsistent
    exact hconsistent.2.2
  · cases h

/-! ## A Runtime that reports often -/

/-- The `n`-th event of a Run whose Runtime only reports that it works. -/
def statusEvent (n : Nat) : PeerRunEvent :=
  if n = 1 then ⟨1, .status .delivered, false, plainMembers "delivered"⟩
  else ⟨n, .status .working, false, plainMembers "working"⟩

def statusJournal (n : Nat) : TransportState :=
  ⟨plainDigest, plainDigest, (List.range' 1 n).map statusEvent, none, none, none⟩

def statusRecord : RunRecord where
  request := plainDelivery.request
  binding := ⟨"run", plainDigest⟩
  receivedAt := 0
  startedAt := some 0
  outcome := none
  settlement := some plainDelivery.settlement

/-- The Runtime completes after `n` events. -/
def statusOutcome (n : Nat) : RunOutcome :=
  ⟨.completed, "", some ⟨n + 1, .status .completed, false, plainMembers "completed"⟩⟩

def statusParticipant (n : Nat) : Participant where
  runs := ⟨⟨some ⟨0, plainDelivery.request, some plainDelivery.settlement⟩, some ⟨plainDigest, 0⟩,
    some ⟨plainDigest, 0, statusOutcome n⟩⟩, none⟩
  transport := some (statusJournal n)
  transportObserved := none
  sent := []
  settlements := []
  begun := []
  invoked := []

theorem statusJournal_length (n : Nat) : (statusJournal n).events.length = n := by
  unfold statusJournal
  rw [List.length_map, List.length_range']

theorem statusEvent_sequence (n : Nat) : (statusEvent n).sequence = n := by
  unfold statusEvent
  split
  · rename_i h
    exact h.symm
  · rfl

theorem statusEvent_bytes (h : n ≤ maxSequence) : (statusEvent n).bytes ≤ 80 := by
  have hmembers : (statusEvent n).members.utf8ByteSize ≤ 37 := by
    unfold statusEvent
    split
    · decide +kernel
    · exact (by decide +kernel : (plainMembers "working").utf8ByteSize ≤ 37)
  have hsequence : natBytes (statusEvent n).sequence ≤ 16 := by
    rw [statusEvent_sequence]
    exact natBytes_le h
  have hbytes := bracketBytes_mono (.cons (memberBytes_le "sequence" hsequence)
    (.cons hmembers .nil))
  exact Nat.le_trans hbytes (by decide)

theorem statusJournal_bytes (h : n ≤ maximumRunEvents) : (statusJournal n).bytes ≤ 340000 := by
  have hsum : ∀ n, n ≤ maximumRunEvents →
      (((List.range' 1 n).map statusEvent).map PeerRunEvent.bytes).sum ≤ 80 * n := by
    intro n hn
    induction n with
    | zero => exact Nat.le_refl _
    | succ n ih =>
      have hlast : (statusEvent (1 + 1 * n)).bytes ≤ 80 := by
        refine statusEvent_bytes ?_
        unfold maximumRunEvents at hn
        unfold maxSequence
        omega
      rw [List.range'_concat, List.map_append, List.map_append, List.sum_append]
      simp only [List.map_cons, List.map_nil, List.sum_cons, List.sum_nil]
      have := ih (by omega)
      omega
  have hevents : bracketBytes (((List.range' 1 n).map statusEvent).map PeerRunEvent.bytes) ≤
      80 * 4096 + 4096 + 2 := by
    have := hsum n h
    unfold bracketBytes
    rw [List.length_map, List.length_map, List.length_range']
    unfold maximumRunEvents at h
    omega
  have hdigest : plainDigest.length ≤ 64 := by decide +kernel
  have hbytes := bracketBytes_mono (.cons (Nat.le_refl versionBytes)
    (.cons (textMember_le "namespace" hdigest)
    (.cons (textMember_le "requestDigest" hdigest)
    (.cons (memberBytes_le "events" hevents) .nil))))
  exact Nat.le_trans hbytes (by decide)

theorem plainDigest_matches : matchesDigest plainDigest = true := by decide +kernel

theorem plainProof_closed : plainProof.closed = true := by decide +kernel

theorem plain_wellShaped (outcome : Option RunOutcome) :
    WellShaped plainPartition plainVerifier { statusRecord with outcome } plainDelivery.settlement where
  nameSpace := plainDigest_matches
  requestDigest := plainDigest_matches
  bindingDigest := plainDigest_matches
  capabilityId := by decide +kernel
  receiptDigest := ⟨plainDigest, rfl, plainDigest_matches⟩

/-- Every report is journaled, up to the limit. -/
theorem statusJournal_journaled (h : n ≤ maximumRunEvents) :
    Journaled plainPartition plainVerifier plainDelivery.settlement statusRecord (statusJournal n) := by
  induction n with
  | zero => exact .empty statusRecord
  | succ n ih =>
    have hjournal := ih (Nat.le_of_succ_le h)
    have hnext : (statusJournal (n + 1)).events = (statusJournal n).events ++ [statusEvent (n + 1)] := by
      unfold statusJournal
      rw [List.range'_concat, List.map_append]
      simp [Nat.add_comm]
    have hlimit : appendLimit (statusEvent (n + 1)) = maximumJSONBytes - runReceiptReserve := by
      unfold statusEvent
      split <;> exact Nat.sub_zero _
    refine .append (statusEvent (n + 1)) hjournal ?_
    rw [appendEvent_room (hjournal.sound (plain_wellShaped none)) rfl
      (by rw [statusEvent_sequence, statusJournal_length]) rfl hlimit, if_pos]
    · exact congrArg Except.ok (congrArg (fun events => { statusJournal n with events }) hnext.symm)
    · refine ⟨by rw [statusJournal_length]; exact h, ?_⟩
      rw [← hnext]
      exact Nat.le_trans (statusJournal_bytes h) (by decide)

theorem plain_cooperates (outcome : Option RunOutcome) :
    Cooperates plainVerifier { statusRecord with outcome } plainDelivery.settlement
      (plainAnswer completedEvent) where
  checked := rfl
  written := rfl
  operationId := by decide +kernel
  publish := by
    intro event hpos hle
    have hid : matchesId "peersettle_" "peersettle_aaaaaaaa" = true := by decide +kernel
    refine ⟨_, rfl, ?_, rfl, rfl, rfl, rfl, rfl⟩
    simp only [RunEventReceipt.closed, plainDigest_matches, plainProof_closed, hid, Bool.and_eq_true, decide_eq_true_eq,
      and_true, true_and]
    unfold maximumRunEvents at hle
    unfold maxSequence
    omega
  settle := by
    intro settlement hclosed
    refine ⟨_, rfl, rfl, ?_, rfl⟩
    rw [RunSettlementReceipt.closed, hclosed, Bool.true_and]
    exact plainProof_closed

theorem statusParticipant_holding (n : Nat) :
    Holding plainPartition plainVerifier "run" { statusRecord with outcome := some (statusOutcome n) }
      plainDelivery.settlement (statusJournal n) (statusParticipant n) where
  read := by
    have htimely : settlementTimely plainPartition
        ⟨0, plainDelivery.request, some plainDelivery.settlement⟩ = true := by decide +kernel
    simpa [RunFiles.read, statusParticipant, plainPartition, RunFiles.consistent, validRunOutcome,
      statusOutcome, OutcomeState.status?, statusRecord] using htimely
  seen := fun _ h => by cases h
  capability := rfl
  stored := .inl rfl
  observed := fun _ h => by cases h

theorem statusOutcome_next (n : Nat) :
    TerminalNext plainVerifier (statusOutcome n) (statusJournal n) := by
  intro terminal hterminal
  cases hterminal
  refine ⟨rfl, .inl ?_⟩
  rw [statusJournal_length]

end ConveneWire.Peer
