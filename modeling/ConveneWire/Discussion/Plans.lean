import ConveneWire.Discussion.Invariant
import ConveneWire.Discussion.Transactions

/-! # Charges and plans

What the orchestrator computes before it writes: the events of a charge lead
from the stored budget to the new one, and a plan is the next Wave for Agents
that have no running Turn. -/

namespace ConveneWire.Discussion

open Transactional (bind_ok)
open Run (Time MessageId AgentId)

/-! ## Charges -/

/-- A charge continues the stored ledger of its Discussion from `base`. -/
structure BudgetCharge.Continues (charge : BudgetCharge) (s : Store) (discussion : DiscussionRecord)
    (base : BudgetSnapshot) : Prop where
  charges : Charges (s.aggregate discussion.discussionId).budgetEvents.length base charge.events
    charge.budget
  own : ∀ event ∈ charge.events, event.discussionId = discussion.discussionId
  lease : base.leaseEndTurn ≤ charge.budget.leaseEndTurn

open BudgetCharge (Continues)

variable {decision : PolicyDecision} {used budget : BudgetSnapshot} {turns : List DiscussionTurn}

section Charges

variable {env : Env} {s : Store} {discussion : DiscussionRecord} {base : BudgetSnapshot}
  {charge charge' : BudgetCharge} {budget : BudgetSnapshot} {requestedTurns : Option Int}
  {durationSeconds : Nat}

theorem continues_nil (h : budget.usage = base.usage) :
    Continues ⟨budget, []⟩ s discussion base := by
  refine ⟨.nil h, by simp, ?_⟩
  have hlease := congrArg BudgetSnapshot.leaseEndTurn h
  exact (show budget.leaseEndTurn = base.leaseEndTurn from hlease).ge

/-- Appending an event that `newBudgetEvent` numbered after the earlier ones. -/
theorem BudgetCharge.Continues.snoc (h : charge.Continues s discussion base)
    {eventType : BudgetEventType} {turns : Nat} {metadata : BudgetMetadata}
    (usage : budget.usage = (charge.budget.charge (newBudgetEvent env s discussion eventType turns
      durationSeconds metadata charge.events.length)).usage)
    (lease : charge.budget.leaseEndTurn ≤ budget.leaseEndTurn) :
    Continues ⟨budget, charge.events ++ [newBudgetEvent env s discussion eventType turns
      durationSeconds metadata charge.events.length]⟩ s discussion base := by
  refine ⟨h.charges.snoc rfl usage, fun event hevent => ?_, h.lease.trans lease⟩
  rcases List.mem_append.mp hevent with hevent | hevent
  · exact h.own event hevent
  · rw [List.mem_singleton.mp hevent]
    rfl

/-- The ledger entry of a granted lease. -/
theorem usage_granted {source : LeaseSource} {previous : BudgetSnapshot} {count : Nat}
    (h : grantDiscussionLease previous discussion.policy requestedTurns source = .ok budget) :
    budget.usage = (previous.charge (newBudgetEvent env s discussion .extensionGranted
      (budget.leaseEndTurn - previous.leaseEndTurn) durationSeconds (.lease source) count)).usage := by
  obtain ⟨hlt, hbudget⟩ := grantDiscussionLease_ok h
  have hlease : previous.leaseEndTurn + (budget.leaseEndTurn - previous.leaseEndTurn) =
      budget.leaseEndTurn := by omega
  rw [hbudget]
  simp only [BudgetSnapshot.charge, newBudgetEvent, BudgetSnapshot.usage, hlease]

theorem chargeAutomaticLease_ok (h : charge.Continues s discussion base)
    (hcharge : chargeAutomaticLease env s discussion decision charge = .ok charge') :
    charge'.Continues s discussion base ∧ charge'.budget.turnsUsed = charge.budget.turnsUsed ∧
      (decision.grantAutomaticLease → charge.budget.leaseEndTurn < charge'.budget.leaseEndTurn) ∧
      charge.budget.leaseEndTurn ≤ charge'.budget.leaseEndTurn := by
  unfold chargeAutomaticLease at hcharge
  split at hcharge
  · obtain ⟨budget, hgrant, hcharge⟩ := bind_ok hcharge
    cases hcharge
    obtain ⟨hlt, hbudget⟩ := grantDiscussionLease_ok hgrant
    exact ⟨h.snoc (usage_granted hgrant) hlt.le, by rw [hbudget], fun _ => hlt, hlt.le⟩
  · rename_i hno
    cases hcharge
    exact ⟨h, rfl, fun hgrant => absurd hgrant hno, le_rfl⟩

theorem chargeFinalization_continues {waveId : Option WaveId} (h : charge.Continues s discussion base) :
    (chargeFinalization env s discussion waveId charge).Continues s discussion base :=
  h.snoc rfl le_rfl

theorem continues_recordTurnUsage {agentRuns : Nat} {now : Time} {waveId : WaveId}
    {waveOrdinal : Nat} {outcomes : OutcomeCounts}
    (h : recordTurnUsage base agentRuns discussion.createdAt now = .ok used) :
    Continues ⟨used, [newBudgetEvent env s discussion .turnRecorded 1 durationSeconds
      (.settledWave waveId waveOrdinal agentRuns outcomes) 0]⟩ s discussion base ∧
      used.turnsUsed = base.turnsUsed + 1 ∧ used.leaseEndTurn = base.leaseEndTurn := by
  have hused := recordTurnUsage_ok h
  have hbase : Continues ⟨base, []⟩ s discussion base := continues_nil rfl
  refine ⟨hbase.snoc ?_ ?_, ?_, ?_⟩
  · rw [hused]
    rfl
  · rw [hused]
  · rw [hused]
  · rw [hused]

/-- The charge of a resume: nothing, or a lease the requester asked for. -/
theorem prepareResumeBudget_ok
    (h : prepareResumeBudget env s discussion requestedTurns = .ok charge) :
    charge.Continues s discussion discussion.budget ∧
      charge.budget.turnsUsed = discussion.budget.turnsUsed ∧
      ((inspectBudget charge.budget discussion.policy).hardBoundaryReached = false →
        charge.budget.turnsUsed < charge.budget.leaseEndTurn ∨
          discussion.budget.leaseEndTurn < charge.budget.leaseEndTurn) := by
  unfold prepareResumeBudget at h
  simp only at h
  split at h
  · rename_i hresume
    cases h
    refine ⟨continues_nil rfl, rfl, fun hhard => .inl ?_⟩
    rcases hresume with hlease | hreached
    · rw [leaseReached_iff, not_le] at hlease
      exact hlease
    · rw [hhard] at hreached
      cases hreached
  · obtain ⟨budget, hgrant, h⟩ := bind_ok h
    cases h
    obtain ⟨hlt, hbudget⟩ := grantDiscussionLease_ok hgrant
    have hbase : Continues ⟨discussion.budget, []⟩ s discussion discussion.budget :=
      continues_nil rfl
    exact ⟨hbase.snoc (usage_granted hgrant) hlt.le, by rw [hbudget], fun _ => .inr hlt⟩

end Charges

/-! ## Plans -/

theorem foldl_max_range' (start : Nat) (n : Nat) :
    (List.range' (start + 1) n).foldl max 0 = if n = 0 then 0 else start + n := by
  induction n with
  | zero => rfl
  | succ n ih =>
    rw [List.range'_1_concat, List.foldl_append, ih]
    simp only [List.foldl_cons, List.foldl_nil, Nat.add_eq_zero_iff, one_ne_zero, and_false, if_false]
    split <;> omega

theorem maximumOrdinal_range {start : Nat}
    (h : turns.map DiscussionTurn.ordinal = List.range' (start + 1) turns.length)
    (hne : turns ≠ []) : maximumOrdinal turns = start + turns.length := by
  have hfold : maximumOrdinal turns = (turns.map DiscussionTurn.ordinal).foldl max 0 := by
    rw [List.foldl_map]
    rfl
  rw [hfold, h, foldl_max_range']
  simp [hne]

variable {discussion record : DiscussionRecord} {inputMessageId : MessageId} {s : Store}
  {selection : ParticipantSelection} {eligible participants : List DiscussionParticipant}
  {through : Nat}

/-- Every running Agent is live up to the current Wave. -/
theorem mem_liveAgents {discussionId : DiscussionId}
    (hsound : (s.aggregate discussionId).Sound record) (hthrough : record.currentWave ≤ through)
    {agentId : AgentId} (h : agentId ∈ runningAgents (s.aggregate discussionId).turns) :
    agentId ∈ liveAgents s discussionId through := by
  obtain ⟨turn, hturn, rfl⟩ := List.mem_map.mp h
  obtain ⟨hmem, hrunning⟩ := List.mem_filter.mp hturn
  refine List.mem_map_of_mem (List.mem_filter.mpr ⟨(List.mem_insertionSort _).mpr hmem, ?_⟩)
  simp only [decide_eq_true_eq] at hrunning ⊢
  refine ⟨hrunning, ?_⟩
  cases hlookup : Table.lookup DiscussionWave.waveId turn.waveId (s.listWaves discussionId) with
  | none => exact Nat.zero_le _
  | some wave =>
    have hwave : wave ∈ (s.aggregate discussionId).waves :=
      (List.mem_insertionSort _).mp (List.mem_of_find?_eq_some hlookup)
    have hordinal := hsound.waveOrdinals.ord_le_length hwave
    have hcount := hsound.waveCount
    simp only [Option.map_some, Option.getD_some]
    omega

variable {P : Platform} {env : Env} {finalization : Bool}

theorem mem_eligibleParticipants {participant : DiscussionParticipant}
    (h : participant ∈ eligibleParticipants env discussion participants) :
    participant ∈ participants := by
  unfold eligibleParticipants at h
  split at h
  · split at h
    · exact (List.mem_filter.mp h).1
    · cases h
  · cases h

/-- A selection is made of distinct given participants. -/
theorem selectParticipants_ok
    (h : selectParticipants P env s discussion participants finalization = .ok selection) :
    (∀ participant ∈ selection.participants, participant ∈ participants) ∧
      (selection.participants.map DiscussionParticipant.agentId).Nodup ∧
      selection.participants ≠ [] := by
  have hselects := selectDiscussionParticipants_selects P h
  refine ⟨fun participant hparticipant => ?_, hselects.nodup, hselects.nonempty⟩
  obtain ⟨candidate, hcandidate, rfl⟩ := hselects.subset participant hparticipant
  obtain ⟨eligible, heligible, hagent⟩ := List.mem_filterMap.mp hcandidate
  obtain ⟨agent, -, rfl⟩ := Option.map_eq_some_iff.mp hagent
  exact mem_eligibleParticipants heligible

variable {now : Time} {policy : DiscussionPolicy} {kind : TurnKind}
  {plan : WavePlan} {discussion : DiscussionRecord}

/-- What a plan built from a selection is. -/
theorem buildWavePlan_ok
    (h : buildWavePlan P env discussion selection inputMessageId kind now = .ok plan) :
    plan = ⟨planWave env discussion selection.participants inputMessageId kind selection.snapshot now,
      selection.participants.zipIdx.map (planTurn env discussion inputMessageId kind now)⟩ := by
  unfold buildWavePlan at h
  obtain ⟨_, -, h⟩ := bind_ok h
  obtain ⟨_, -, h⟩ := bind_ok h
  cases h
  rfl

/-- A plan for participants that are free follows the Discussion it was built from. -/
theorem buildWavePlan_follows {env' : Env} {current : DiscussionRecord}
    (hselect : selectParticipants P env' s current participants finalization = .ok selection)
    (hplan : buildWavePlan P env discussion selection inputMessageId kind now = .ok plan)
    (hfree : ∀ participant ∈ participants, participant.agentId ∉ runningAgents turns) :
    plan.Follows discussion turns ∧ plan.turns ≠ [] ∧
      (plan.wave.phase = .finalization ↔ kind = .finalization) ∧
      maximumOrdinal plan.turns = discussion.currentTurn + plan.turns.length := by
  obtain ⟨hsubset, hnodup, hne⟩ := selectParticipants_ok hselect
  have heq := buildWavePlan_ok hplan
  have hordinals : plan.turns.map DiscussionTurn.ordinal =
      List.range' (discussion.currentTurn + 1) plan.turns.length := by
    rw [heq]
    simp only [List.map_map, List.length_map, List.length_zipIdx]
    refine List.ext_getElem (by simp) fun i hi _ => ?_
    simp [planTurn]
    omega
  have hspeakers : plan.turns.map DiscussionTurn.speakerAgentId =
      selection.participants.map DiscussionParticipant.agentId := by
    rw [heq, List.map_map]
    refine List.ext_getElem (by simp) fun i hi _ => ?_
    simp [planTurn]
  have hturns : plan.turns ≠ [] := by
    rw [heq]
    simpa using hne
  refine ⟨⟨by rw [heq]; rfl, by rw [heq]; rfl, hordinals, hspeakers ▸ hnodup, ?_⟩, hturns, ?_,
    maximumOrdinal_range hordinals hturns⟩
  · intro turn hturn
    have hspeaker : turn.speakerAgentId ∈ selection.participants.map
        DiscussionParticipant.agentId := hspeakers ▸ List.mem_map_of_mem hturn
    obtain ⟨participant, hparticipant, hagent⟩ := List.mem_map.mp hspeaker
    rw [← hagent]
    exact hfree participant (hsubset participant hparticipant)
  · rw [heq]
    simp only [planWave]
    split
    · rename_i hkind
      simp [hkind]
    · rename_i hkind
      simp [hkind]

/-- The participants of the next Wave are free. -/
theorem eligible_free {env : Env} (hsound : (s.aggregate discussion.discussionId).Sound record)
    (hthrough : record.currentWave ≤ through) :
    ∀ participant ∈ eligibleParticipantsForNextWave env s discussion participants through,
      participant.agentId ∉ runningAgents (s.aggregate discussion.discussionId).turns := by
  intro participant hparticipant hrunning
  have hlive := (List.mem_filter.mp hparticipant).2
  simp only [decide_eq_true_eq] at hlive
  exact hlive (mem_liveAgents hsound hthrough hrunning)

/-! ## The decision about a settled Wave -/

/-- Everything `adjustDecision` can return, with what holds of the budget then. -/
inductive Advice (policy : DiscussionPolicy) (used : BudgetSnapshot)
    (eligible : List DiscussionParticipant) : PolicyDecision → Prop
  | proceed (grant : Bool) (some_eligible : eligible ≠ [])
      (regular : used.turnsUsed < policy.regularTurnLimit)
      (lease : grant = false → used.turnsUsed < used.leaseEndTurn) :
      Advice policy used eligible (.proceed grant)
  | finalize (reason : DiscussionStateReason) (outputMode : DiscussionOutputMode)
      (some_eligible : eligible ≠ []) : Advice policy used eligible (.finalize reason outputMode)
  | stop {decision : PolicyDecision} (action : decision.action ≠ .continue)
      (no_finalizer : decision.action = .finalize → eligible = [])
      (state : decision.state ≠ .finalizing) (grant : decision.grantAutomaticLease = false) :
      Advice policy used eligible decision

theorem endWithoutFinalizer_stop (decision : PolicyDecision) :
    (endWithoutFinalizer decision).action = decision.action ∧
      (endWithoutFinalizer decision).state.isTerminal ∧
      (endWithoutFinalizer decision).grantAutomaticLease = decision.grantAutomaticLease := by
  unfold endWithoutFinalizer
  split <;> exact ⟨rfl, rfl, rfl⟩

theorem waitHuman_advice {reason : DiscussionStateReason} :
    Advice policy used eligible (.waitHuman .waitingHuman reason) :=
  .stop (by simp [PolicyDecision.waitHuman]) (by simp [PolicyDecision.waitHuman])
    (by simp [PolicyDecision.waitHuman]) rfl

theorem adjustDecision_advice {input : DecisionInput} (hpolicy : input.policy = policy)
    (hbudget : input.budget = budget) :
    Advice policy budget eligible (adjustDecision discussion eligible (decideDiscussion input)) := by
  subst hpolicy hbudget
  have hverdict := decideDiscussion_verdict input
  generalize decideDiscussion input = decided at hverdict ⊢
  unfold adjustDecision
  split
  · exact waitHuman_advice
  rename_i hnobody
  split
  · exact waitHuman_advice
  split
  · rename_i hend
    obtain ⟨haction, hterminal, hgrant⟩ := endWithoutFinalizer_stop decided
    refine .stop (by rw [haction, hend.2]; decide) (fun _ => hend.1) (fun hstate => ?_) ?_
    · rw [hstate] at hterminal
      cases hterminal
    rw [hgrant]
    cases hverdict with
    | canceled | finalized | held => rfl
    | proceeded | renewed => cases hend.2
  · rename_i hfinalizer
    cases hverdict with
    | canceled => exact .stop (by simp) (by simp) (by simp) rfl
    | finalized reason outputMode =>
      exact .finalize reason outputMode fun hnil => hfinalizer ⟨hnil, rfl⟩
    | held action state reason action_held state_held =>
      refine .stop ?_ ?_ ?_ rfl
      · rcases action_held with rfl | rfl <;> simp
      · rcases action_held with rfl | rfl <;> simp
      · rintro rfl
        cases state_held
    | proceeded hard lease =>
      exact .proceed false (fun hnil => hnobody ⟨hnil, rfl⟩) (turnsUsed_lt_regular hard)
        fun _ => lease
    | renewed hard renewal =>
      exact .proceed true (fun hnil => hnobody ⟨hnil, rfl⟩) (turnsUsed_lt_regular hard) nofun

end ConveneWire.Discussion
