import ConveneWire.Discussion.Runs

/-! # What holds of every Discussion

The budget, its ledger and the Waves, in every state the system can be in:
after any calls in any order, each stopped anywhere. -/

namespace ConveneWire.Discussion

open Transactional
open OrdinalLog
open BudgetSnapshot (charge turnsUsed usage leaseEndTurn extensions agentRunsUsed)

variable {w : System} {P : Platform} {discussionId : DiscussionId} {record : DiscussionRecord}

theorem Reachable.sound (h : Reachable P w) (hget : w.store.get discussionId = some record) :
    (w.store.aggregate discussionId).Sound record :=
  h.valid.sound hget

/-! ## A Discussion to speak of -/

/-- A platform that compares strings by their characters; nothing below depends on its digests. -/
def plainPlatform : Platform where
  localeCompare left right := compare left.toList right.toList
  trim := id
  utf16Length := String.length
  normalized := id
  words value := [value]
  foldPunctuation := id
  lexicalCharacters := String.toList
  sha256 _ := "0000000000000000000000000000000000000000000000000000000000000000"
  selectionDigest _ := "0000000000000000000000000000000000000000000000000000000000000000"
  sealDigest _ := "0000000000000000000000000000000000000000000000000000000000000000"
  readAssessment _ := none
  waveResultMessageId waveId := 2 * waveId
  fallbackMessageId discussionId := 2 * discussionId

/-- A managed Agent that may take part in a quorum. -/
def quorumAgent : Agent where
  name := "agent"
  role := "participant"
  teamId := 1
  enabled := true
  integrationMode := .managed
  deviceId := some 1
  ownerPrivateOutput := false
  supportsDiscussionSupplementalEvidence := true
  readOnlyFilesystem := true

/-- One Room of one Team with three Agents. Identifiers are odd and differ from call to call. -/
def sampleEnv (now call : Nat) : Env where
  clock _ := now
  fresh path := 2 * path.foldl (fun n k => 10 * n + k) call + 1
  requireRoomMember _ := .ok ⟨1, .owner⟩
  getRoom _ := some ⟨1, true⟩
  getTask _ := some ⟨1, false, true, []⟩
  getDefaultTask _ := some 1
  getAgent agentId := if agentId ∈ [1, 2, 3] then some quorumAgent else none
  isRoomAgent _ _ := true
  deviceActive _ := true
  peerParticipantAllowed _ _ _ := false
  hasPeerDelivery _ := false
  appendAllowed _ := .ok ()
  createRunAllowed _ := .ok ()
  buildInstruction _ _ _ _ := .ok ()
  verifyEvidenceRefs _ _ _ := []
  releasedForTurn _ _ _ := none
  admittedSummary _ _ _ := none
  planProposals := none

/-- Two of the three Agents are a quorum after thirty seconds. -/
def sampleRequest : CreateInput where
  roomId := 1
  goal := "Plan the release"
  participantAgentIds := [1, 2, 3]
  policy := {
    waveCompletionMode := some .readOnlyQuorum
    quorumMinimumCompleted := some 2
    quorumSoftDeadlineSeconds := some 30 }

def emptyCore : Run.Database := ⟨[], [], [], [], [⟨1, 0⟩], [], [], [], [], [], 1000⟩

/-- After `create`: one open Wave of three Turns, each with a queued Run. -/
def sampleCreated : System :=
  (exec plainPlatform 5 (sampleEnv 0 1) (.create sampleRequest) (System.initial emptyCore)).state

def sampleId : DiscussionId := 23

theorem reachable_sampleCreated : Reachable plainPlatform sampleCreated :=
  ⟨emptyCore, rfl, .single (.call 5 (sampleEnv 0 1) (.create sampleRequest)
    Program.state_mem_visits)⟩

theorem get_sampleCreated : ∃ record, sampleCreated.store.get sampleId = some record ∧
    record.state = .active ∧ record.currentWave = 1 ∧ record.currentTurn = 3 := by
  have hget : (sampleCreated.store.get sampleId).map (fun record =>
      (record.state, record.currentWave, record.currentTurn)) = some (.active, 1, 3) := by
    decide +kernel
  obtain ⟨record, hrecord, heq⟩ := Option.map_eq_some_iff.mp hget
  cases hstate : record.state <;> simp_all

/-! ## Budget -/

theorem contributions_add_finalizations (waves : List DiscussionWave) :
    contributions waves + finalizations waves = waves.length := by
  rw [List.length_eq_countP_add_countP (fun wave => decide (wave.phase ≠ .finalization))]
  simp [contributions, finalizations]

theorem Aggregate.Sound.contributions_le {a : Aggregate} (h : a.Sound record) :
    contributions a.waves ≤ record.policy.regularTurnLimit := by
  have hregular := h.regular
  rcases h.paid with hpaid | ⟨hpaid, hlt⟩ <;> omega

/-- A requested automatic lease is granted. -/
theorem granted_of_request {input : DecisionInput} (hpolicy : input.policy.Bounded)
    (h : (decideDiscussion input).grantAutomaticLease) :
    ∃ granted, grantDiscussionLease input.budget input.policy none .automatic = .ok granted ∧
      input.budget.leaseEndTurn < granted.leaseEndTurn := by
  have hverdict := decideDiscussion_verdict input
  generalize decideDiscussion input = decision at h hverdict
  cases hverdict with
  | canceled | finalized | held | proceeded => cases h
  | renewed hard renewal => exact automatic_lease_granted hpolicy hard renewal

/-- Waves are planned within the lease and the regular limit, and every lease that is asked for
below the hard boundary is granted. -/
theorem discussion_budget_safe (h : Reachable P w) (hget : w.store.get discussionId = some record) :
    record.budget.turnsUsed ≤ record.budget.leaseEndTurn ∧ record.budget.turnsUsed ≤
        record.policy.hardMaxTurns - record.policy.finalizationReserveTurns ∧
      contributions (w.store.listWaves discussionId) ≤
        record.policy.hardMaxTurns - record.policy.finalizationReserveTurns ∧
      finalizations (w.store.listWaves discussionId) ≤ 1 ∧
      (w.store.listWaves discussionId).length ≤ record.policy.hardMaxTurns ∧
      (∀ input : DecisionInput, input.policy = record.policy →
        (decideDiscussion input).grantAutomaticLease →
        ∃ granted, grantDiscussionLease input.budget input.policy none .automatic = .ok granted ∧
          input.budget.leaseEndTurn < granted.leaseEndTurn) ∧
      ∀ (budget : BudgetSnapshot) (extension : Option Int),
        (∀ turns ∈ extension, 1 ≤ turns ∧ turns ≤ 20) →
        (inspectBudget budget record.policy).leaseBoundaryReached →
        (inspectBudget budget record.policy).hardBoundaryReached = false →
        ∃ granted, grantDiscussionLease budget record.policy extension .user = .ok granted ∧
          budget.leaseEndTurn < granted.leaseEndTurn := by
  have hsound := h.sound hget
  have hperm : (w.store.listWaves discussionId).Perm (w.store.aggregate discussionId).waves :=
    List.perm_insertionSort _ _
  have hcontributions : contributions (w.store.listWaves discussionId) ≤
      record.policy.regularTurnLimit := by
    unfold contributions
    rw [hperm.countP_eq]
    exact hsound.contributions_le
  have hfinalizations : finalizations (w.store.listWaves discussionId) ≤ 1 := by
    unfold finalizations
    rw [hperm.countP_eq]
    exact hsound.once
  refine ⟨hsound.lease, hsound.regular, hcontributions, hfinalizations, ?_, ?_, ?_⟩
  · have htotal := contributions_add_finalizations (w.store.listWaves discussionId)
    have hlimit := hsound.policy.regular_lt_hard
    omega
  · intro input hinput hrequest
    exact granted_of_request (hinput ▸ hsound.policy) hrequest
  intro budget extension hvalid hlease hhard
  refine user_lease_granted ?_ hhard hlease
  cases extension with
  | none =>
    have hpos := hsound.policy.initialLease_pos
    have hle := hsound.policy.initialLease_le
    simp only [Option.getD_none]
    omega
  | some turns => exact hvalid turns rfl

theorem discussion_budget_safe_sample :
    ∃ record, sampleCreated.store.get sampleId = some record ∧
      record.budget.turnsUsed ≤ record.budget.leaseEndTurn ∧
      (sampleCreated.store.listWaves sampleId).length ≤ record.policy.hardMaxTurns := by
  obtain ⟨record, hget, -⟩ := get_sampleCreated
  have hsafe := discussion_budget_safe reachable_sampleCreated hget
  exact ⟨record, hget, hsafe.1, hsafe.2.2.2.2.1⟩

/-! ## Ledger -/

/-- The turns of the events of some types. -/
def turnsOf (types : List BudgetEventType) (events : List DiscussionBudgetEvent) : Nat :=
  ((events.filter fun event => event.eventType ∈ types).map DiscussionBudgetEvent.turns).sum

/-- The Agent Runs that the metadata of some types of events record. -/
def agentRunsOf (types : List BudgetEventType) (events : List DiscussionBudgetEvent) : Nat :=
  ((events.filter fun event => event.eventType ∈ types).map fun event =>
    event.metadata.agentRuns).sum

theorem foldl_charge (events : List DiscussionBudgetEvent) (budget : BudgetSnapshot) :
    events.foldl charge budget = { budget with
      turnsUsed := budget.turnsUsed + turnsOf [.turnRecorded] events
      leaseEndTurn := budget.leaseEndTurn + turnsOf [.leaseGranted, .extensionGranted] events
      extensions := budget.extensions +
        events.countP fun event => event.eventType = .extensionGranted
      agentRunsUsed := budget.agentRunsUsed +
        agentRunsOf [.turnRecorded, .finalizationReserved] events } := by
  induction events generalizing budget with
  | nil => rfl
  | cons event rest ih =>
    rw [List.foldl_cons, ih]
    unfold charge turnsOf agentRunsOf
    cases hevent : event.eventType <;> simp [hevent, Nat.add_assoc, Nat.add_comm]

/-- The budget of a Discussion is the sum of its ledger. -/
theorem discussion_budget_is_ledger (h : Reachable P w)
    (hget : w.store.get discussionId = some record) :
    (w.store.listBudgetEvents discussionId).map DiscussionBudgetEvent.ordinal =
        List.range' 1 (w.store.listBudgetEvents discussionId).length ∧
      turnsOf [.turnRecorded] (w.store.listBudgetEvents discussionId) = record.budget.turnsUsed ∧
      turnsOf [.leaseGranted, .extensionGranted] (w.store.listBudgetEvents discussionId) =
        record.budget.leaseEndTurn ∧ ((w.store.listBudgetEvents discussionId).countP fun event =>
        event.eventType = .extensionGranted) = record.budget.extensions ∧
      agentRunsOf [.turnRecorded, .finalizationReserved] (w.store.listBudgetEvents discussionId) =
        record.budget.agentRunsUsed := by
  have hsound := h.sound hget
  have hevents : w.store.listBudgetEvents discussionId =
      (w.store.aggregate discussionId).budgetEvents := rfl
  have hledger := hsound.ledger
  rw [foldl_charge] at hledger
  rw [hevents]
  refine ⟨hsound.eventOrdinals.range, ?_, ?_, ?_, ?_⟩
  · have hturns := congrArg turnsUsed hledger
    simpa [usage, emptyBudgetSnapshot] using hturns.symm
  · have hlease := congrArg leaseEndTurn hledger
    simpa [usage, emptyBudgetSnapshot] using hlease.symm
  · have hextensions := congrArg extensions hledger
    simpa [usage, emptyBudgetSnapshot] using hextensions.symm
  · have hruns := congrArg agentRunsUsed hledger
    simpa [usage, emptyBudgetSnapshot] using hruns.symm

theorem discussion_budget_is_ledger_sample :
    ∃ record, sampleCreated.store.get sampleId = some record ∧
      turnsOf [.leaseGranted, .extensionGranted] (sampleCreated.store.listBudgetEvents sampleId) =
        record.budget.leaseEndTurn := by
  obtain ⟨record, hget, -⟩ := get_sampleCreated
  exact ⟨record, hget, (discussion_budget_is_ledger reachable_sampleCreated hget).2.2.1⟩

/-! ## Waves -/

/-- Rows already in the order of their ordinals. -/
theorem insertionSort_consecutive {α : Type} {ord : α → Nat} {rows : List α}
    (r : α → α → Prop) [DecidableRel r] (hr : ∀ a b, ord a ≤ ord b → r a b)
    (h : Consecutive ord rows) : rows.insertionSort r = rows := by
  refine List.Pairwise.insertionSort_eq (List.pairwise_iff_getElem.mpr fun i j hi hj hij => ?_)
  refine hr _ _ ?_
  rw [h.ord_getElem hi, h.ord_getElem hj, Nat.cast_id, Nat.cast_id]
  omega

/-- Waves and Turns are numbered without gaps, at most one Wave is open, and every Agent has at most
one Turn that is not settled. -/
theorem discussion_wave_structure (h : Reachable P w)
    (hget : w.store.get discussionId = some record) :
    openWaves (w.store.listWaves discussionId) ≤ 1 ∧
      (w.store.listWaves discussionId).map DiscussionWave.ordinal =
        List.range' 1 record.currentWave ∧
      (w.store.listTurns discussionId).map DiscussionTurn.ordinal =
        List.range' 1 record.currentTurn ∧
      ∀ agentId, ((w.store.listTurns discussionId).countP fun turn =>
        turn.speakerAgentId = agentId ∧ ¬ turn.state.isTerminal) ≤ 1 := by
  have hsound := h.sound hget
  have hwaves : w.store.listWaves discussionId = (w.store.aggregate discussionId).waves :=
    insertionSort_consecutive _ (fun _ _ hle => hle) hsound.waveOrdinals
  have hturns : w.store.listTurns discussionId = (w.store.aggregate discussionId).turns :=
    insertionSort_consecutive _ (fun _ _ hle => hle) hsound.turnOrdinals
  rw [hwaves, hturns, ← hsound.waveCount, ← hsound.turnCount]
  refine ⟨hsound.oneOpen, hsound.waveOrdinals.range, hsound.turnOrdinals.range, fun agentId => ?_⟩
  have hcount := List.nodup_iff_count_le_one.mp hsound.agents agentId
  simpa [runningAgents, List.count, List.countP_map, List.countP_filter, Function.comp_def,
    beq_eq_decide] using hcount

theorem discussion_wave_structure_sample :
    openWaves (sampleCreated.store.listWaves sampleId) ≤ 1 ∧
      (sampleCreated.store.listTurns sampleId).map DiscussionTurn.ordinal = List.range' 1 3 := by
  obtain ⟨record, hget, -, -, hturn⟩ := get_sampleCreated
  have hstructure := discussion_wave_structure reachable_sampleCreated hget
  rw [hturn] at hstructure
  exact ⟨hstructure.1, hstructure.2.2.1⟩

/-! ## History -/

/-- What no write to a Discussion takes back: its ledger, closed Waves and settled Turns. -/
structure Aggregate.Later (a a' : Aggregate) : Prop where
  events : a.budgetEvents <+: a'.budgetEvents
  waves : ∀ wave ∈ a.waves, wave.state ≠ .opened → wave ∈ a'.waves
  turns : ∀ turn ∈ a.turns, turn.state.isTerminal → turn ∈ a'.turns

theorem Aggregate.Later.step {excused : Prop} {a b c : Aggregate} (h : a.Later b)
    (hstep : Aggregate.Step excused b c) : a.Later c where
  events := h.events.trans (by cases hstep <;> simp)
  waves := by
    intro wave hwave hclosed
    obtain ⟨_, hwave', hmoves⟩ := hstep.wave (h.waves wave hwave hclosed)
    exact hmoves.closed hclosed ▸ hwave'
  turns := by
    intro turn hturn hsettled
    obtain ⟨_, hturn', hmoves⟩ := hstep.turn_kept (h.turns turn hturn hsettled)
    exact hmoves.settled hsettled ▸ hturn'

end ConveneWire.Discussion
