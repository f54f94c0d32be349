import Mathlib.Data.List.Forall2
import ConveneWire.Peer.TransportJournal

/-! # Room for the receipts of a Peer Run

`AppendEvent` keeps `runReceiptReserve` bytes free. What comes after the events
(an acknowledgment, the settlement and its receipt) has a closed shape, so it is
bounded and always fits; the events themselves share what is left. -/

namespace ConveneWire.Peer

/-! ## Closed shapes are bounded -/

variable {s : String} {n : Nat}

theorem matchesId_length {tag : String} (h : matchesId tag s = true) :
    s.length ≤ tag.length + 128 := by
  unfold matchesId at h
  simp only [Bool.and_eq_true, decide_eq_true_eq, List.length_drop, String.length_toList] at h
  omega

theorem matchesDigest_length (h : matchesDigest s = true) : s.length ≤ 64 := by
  unfold matchesDigest at h
  simp only [Bool.and_eq_true, decide_eq_true_eq] at h
  omega

theorem matchesKey_length {last : String} (h : matchesKey n last s = true) : s.length ≤ n + 1 := by
  unfold matchesKey at h
  simp only [Bool.and_eq_true, decide_eq_true_eq] at h
  omega

theorem matchesInstant_length (h : matchesInstant s = true) : s.length ≤ 24 := by
  unfold matchesInstant at h
  simp only [Bool.and_eq_true, decide_eq_true_eq] at h
  omega

theorem purposes_length : ∀ purpose ∈ purposes, purpose.length ≤ 18 := by decide

theorem natBytes_le (h : n ≤ maxSequence) : natBytes n ≤ 16 := by
  have hdigits : (Nat.toDigits 10 n).length ≤ 16 := by
    refine (Nat.length_toDigits_le_iff (by decide) (by decide)).mpr ?_
    exact Nat.lt_of_le_of_lt h (by decide)
  unfold natBytes Nat.repr
  rw [String.length_ofList]
  exact hdigits

theorem stateBytes_le (state : OutcomeState) : textBytes state.text ≤ 17 := by
  cases state <;> decide

theorem memberBytes_le (key : String) {a b : Nat} (h : a ≤ b) : memberBytes key a ≤ memberBytes key b :=
  Nat.add_le_add_left h _

theorem textMember_le (key : String) (h : s.length ≤ n) :
    memberBytes key (textBytes s) ≤ memberBytes key (n + 2) :=
  memberBytes_le key (Nat.add_le_add_right h 2)

/-- A record is no longer than one with longer members. -/
theorem bracketBytes_mono {xs ys : List Nat} (h : List.Forall₂ (· ≤ ·) xs ys) :
    bracketBytes xs ≤ bracketBytes ys := by
  have hsum : xs.sum ≤ ys.sum := by
    induction h with
    | nil => exact Nat.le_refl _
    | cons hxy _ ih =>
      rw [List.sum_cons, List.sum_cons]
      exact Nat.add_le_add hxy ih
  unfold bracketBytes
  rw [h.length_eq]
  omega

theorem PeerProof.bytes_le {proof : PeerProof} (h : proof.closed = true) : proof.bytes ≤ 893 := by
  unfold PeerProof.closed at h
  simp only [Bool.and_eq_true, List.contains_eq_mem, decide_eq_true_eq] at h
  obtain ⟨⟨⟨⟨⟨⟨⟨⟨⟨hpurpose, hsigner⟩, hkey⟩, haudience⟩, hoperation⟩, hnonce⟩, hsubject⟩, hissued⟩,
    hexpires⟩, hsignature⟩ := h
  have hpayload := bracketBytes_mono
    (.cons (textMember_le "audienceNodeId" (matchesId_length haudience))
    (.cons (textMember_le "expiresAt" (matchesInstant_length hexpires))
    (.cons (textMember_le "issuedAt" (matchesInstant_length hissued))
    (.cons (textMember_le "nonce" (matchesKey_length hnonce))
    (.cons (textMember_le "operationId" (matchesId_length hoperation))
    (.cons (textMember_le "purpose" (purposes_length _ hpurpose))
    (.cons (Nat.le_refl versionBytes)
    (.cons (textMember_le "signerNodeId" (matchesId_length hsigner))
    (.cons (textMember_le "signerPublicKey" (matchesKey_length hkey))
    (.cons (textMember_le "subjectDigest" (matchesDigest_length hsubject)) .nil))))))))))
  have hproof := bracketBytes_mono (.cons (memberBytes_le "payload" hpayload)
    (.cons (textMember_le "signature" (matchesKey_length hsignature)) .nil))
  exact Nat.le_trans hproof (by decide)

theorem RunEventReceipt.bytes_le {receipt : RunEventReceipt} (h : receipt.closed = true) :
    receipt.bytes ≤ 1270 := by
  unfold RunEventReceipt.closed at h
  simp only [Bool.and_eq_true, decide_eq_true_eq] at h
  obtain ⟨⟨⟨⟨⟨hbinding, hcapability⟩, -⟩, hsequence⟩, hevent⟩, hproof⟩ := h
  have hreceipt := bracketBytes_mono (.cons (Nat.le_refl versionBytes)
    (.cons (textMember_le "bindingDigest" (matchesDigest_length hbinding))
    (.cons (textMember_le "capabilityId" (matchesId_length hcapability))
    (.cons (memberBytes_le "sequence" (natBytes_le hsequence))
    (.cons (textMember_le "eventDigest" (matchesDigest_length hevent))
    (.cons (memberBytes_le "proof" (PeerProof.bytes_le hproof)) .nil))))))
  exact Nat.le_trans hreceipt (by decide)

theorem PeerSettlement.bytes_le {settlement : PeerSettlement} (h : settlement.closed = true) :
    settlement.bytes ≤ 544 := by
  unfold PeerSettlement.closed at h
  simp only [Bool.and_eq_true, decide_eq_true_eq] at h
  obtain ⟨⟨⟨⟨⟨⟨hcapability, hoperation⟩, hbinding⟩, -⟩, hsequence⟩, -⟩, hreceipt⟩ := h
  have hsettlement := bracketBytes_mono
    (.cons (textMember_le "bindingDigest" (matchesDigest_length hbinding))
    (.cons (textMember_le "capabilityId" (matchesId_length hcapability))
    (.cons (textMember_le "operationId" (matchesId_length hoperation))
    (.cons (textMember_le "receiptDigest" (matchesDigest_length hreceipt))
    (.cons (Nat.le_refl versionBytes)
    (.cons (memberBytes_le "sequence" (natBytes_le hsequence))
    (.cons (memberBytes_le "state" (stateBytes_le settlement.state)) .nil)))))))
  exact Nat.le_trans hsettlement (by decide)

theorem RunSettlementReceipt.bytes_le {receipt : RunSettlementReceipt} (h : receipt.closed = true) :
    receipt.bytes ≤ 1479 := by
  unfold RunSettlementReceipt.closed at h
  simp only [Bool.and_eq_true] at h
  have hreceipt := bracketBytes_mono (.cons (Nat.le_refl versionBytes)
    (.cons (memberBytes_le "settlement" (PeerSettlement.bytes_le h.1))
    (.cons (memberBytes_le "proof" (PeerProof.bytes_le h.2)) .nil)))
  exact Nat.le_trans hreceipt (by decide)

/-! ## The journal -/

/-- The events of a journal without its receipts. -/
def TransportState.bare (state : TransportState) : TransportState :=
  { state with acknowledgment := none, settlement := none, settlementReceipt := none }

theorem bracketBytes_append {parts : List Nat} (h : parts ≠ []) (more : List Nat) :
    bracketBytes (parts ++ more) = bracketBytes parts + (more.sum + more.length) := by
  have hpos : 0 < parts.length := List.length_pos_iff.mpr h
  unfold bracketBytes
  rw [List.sum_append, List.length_append]
  omega

/-- What an optional member adds. -/
def optionalCost (key : String) (value : Option Nat) : Nat :=
  (optionalBytes key value).sum + (optionalBytes key value).length

theorem optionalCost_le {key : String} {value : Option Nat}
    (h : ∀ bytes ∈ value, bytes ≤ n) : optionalCost key value ≤ memberBytes key n + 1 := by
  cases value with
  | none => exact Nat.zero_le _
  | some bytes =>
    have hbytes := memberBytes_le key (h bytes rfl)
    simp only [optionalCost, optionalBytes, List.sum_cons, List.sum_nil, List.length_singleton]
    omega

/-- The bytes of a journal are those of its events and what each receipt adds. -/
theorem TransportState.bytes_eq (state : TransportState) :
    state.bytes = state.bare.bytes +
      (optionalCost "acknowledgment" (state.acknowledgment.map RunEventReceipt.bytes) +
        optionalCost "settlement" (state.settlement.map PeerSettlement.bytes) +
        optionalCost "settlementReceipt"
          (state.settlementReceipt.map RunSettlementReceipt.bytes)) := by
  simp only [TransportState.bytes, TransportState.bare, optionalCost, Option.map_none, optionalBytes,
    List.append_nil]
  rw [List.append_assoc, List.append_assoc, bracketBytes_append (by simp)]
  simp only [List.sum_append, List.length_append]
  omega

/-- The receipts of a journal are closed. -/
structure TransportState.Closed (state : TransportState) : Prop where
  acknowledgment : ∀ receipt ∈ state.acknowledgment, receipt.closed = true
  settlement : ∀ settlement ∈ state.settlement, settlement.closed = true
  settlementReceipt : ∀ receipt ∈ state.settlementReceipt, receipt.closed = true

/-- A journal that left the reserve free has room for every receipt. -/
theorem TransportState.fits {state : TransportState} (hclosed : state.Closed)
    (hbare : state.bare.bytes ≤ maximumJSONBytes - runReceiptReserve) :
    state.bytes ≤ maximumJSONBytes := by
  have hack : optionalCost "acknowledgment" (state.acknowledgment.map RunEventReceipt.bytes) ≤ 1288 := by
    refine optionalCost_le (n := 1270) fun bytes hbytes => ?_
    obtain ⟨receipt, hreceipt, rfl⟩ := Option.map_eq_some_iff.mp hbytes
    exact RunEventReceipt.bytes_le (hclosed.acknowledgment receipt hreceipt)
  have hsettlement : optionalCost "settlement" (state.settlement.map PeerSettlement.bytes) ≤ 558 := by
    refine optionalCost_le (n := 544) fun bytes hbytes => ?_
    obtain ⟨settlement, hsettlement, rfl⟩ := Option.map_eq_some_iff.mp hbytes
    exact PeerSettlement.bytes_le (hclosed.settlement settlement hsettlement)
  have hreceipt : optionalCost "settlementReceipt"
      (state.settlementReceipt.map RunSettlementReceipt.bytes) ≤ 1500 := by
    refine optionalCost_le (n := 1479) fun bytes hbytes => ?_
    obtain ⟨receipt, hreceipt, rfl⟩ := Option.map_eq_some_iff.mp hbytes
    exact RunSettlementReceipt.bytes_le (hclosed.settlementReceipt receipt hreceipt)
  rw [TransportState.bytes_eq]
  unfold maximumJSONBytes runReceiptReserve at *
  omega

theorem TransportState.bare_bytes_le (state : TransportState) : state.bare.bytes ≤ state.bytes := by
  rw [state.bytes_eq]
  exact Nat.le_add_right _ _

end ConveneWire.Peer
