import ConveneWire.Discussion.Settlement

/-! # Every call moves the Discussions by their steps

The calls of members and of the clock on top of `reconcileDiscussion` and
`onRunTerminal`, and with them every run of the system. -/

namespace ConveneWire.Discussion

open Transactional
open Run (Time RunId RunRecord)

variable {w w' : System} {P : Platform}

/-! ## Decisions outside a settlement -/

/-- A record as calls pass it on: the row `base` as last read, under a state of the call and with
a charge on its budget. -/
structure Carries (s : Store) (base discussion : DiscussionRecord) (charge : BudgetCharge) :
    Prop where
  knows : Knows s base
  discussionId : discussion.discussionId = base.discussionId
  version : discussion.version = base.version
  policy : discussion.policy = base.policy
  currentWave : discussion.currentWave = base.currentWave
  currentTurn : discussion.currentTurn = base.currentTurn
  continues : charge.Continues s base base.budget
  used : charge.budget.turnsUsed = base.budget.turnsUsed
  unfinished : base.state.isTerminal = false

variable {discussion base : DiscussionRecord} {s s' : Store} {charge : BudgetCharge}
  {discussionId : DiscussionId} {now : Time}

/-- Messages change nothing a call carries. -/
theorem Carries.core (h : Carries s base discussion charge)
    (core : Run.Database) : Carries { s with core } base discussion charge :=
  { h with continues := ⟨h.continues.charges, h.continues.own, h.continues.lease⟩ }

/-- A charge continues the ledger of a Discussion whatever else its record says. -/
theorem BudgetCharge.Continues.of_id {budget : BudgetSnapshot}
    (h : charge.Continues s discussion budget) (hid : discussion.discussionId = base.discussionId) :
    charge.Continues s base budget :=
  ⟨hid ▸ h.charges, hid ▸ h.own, h.lease⟩

section Decisions

variable {base discussion : DiscussionRecord} {events : List DiscussionBudgetEvent} {env : Env}
  {decision : PolicyDecision}

theorem emits_persistDecision {terminalAt : Option Time}
    (hcarries : Carries w.store base discussion ⟨discussion.budget, events⟩)
    (hstate : decision.state ≠ .finalizing)
    (hterminalAt : decision.state.isTerminal → terminalAt.isSome)
    (hfinalizing : base.state = .finalizing → decision.state.isTerminal) :
    Steps Moves w (persistDecision env discussion decision events terminalAt) := by
  refine emits_transact fun u s' h => ⟨.single ?_, trivial⟩
  have hown : ∀ event ∈ events, event.discussionId = discussion.discussionId :=
    fun event hevent => (hcarries.continues.own event hevent).trans hcarries.discussionId.symm
  obtain ⟨record, hget, hversion, hwrites⟩ := Store.recordDecisionAndUpdate_ok hown h
  have hid : (aggregateUpdate env discussion decision discussion.progress discussion.budget
      events none env.now).decision.discussionId = base.discussionId := hcarries.discussionId
  rw [hid] at hget hwrites
  obtain rfl : record = base := hcarries.knows record hget (hversion.trans hcarries.version)
  exact moves_of_writes hwrites (.amended hget hcarries.unfinished
    ⟨rfl, rfl, hterminalAt, hcarries.continues.lease⟩ (.nothing rfl rfl hstate) hfinalizing
    hcarries.used hcarries.continues.charges)

/-- What makes the planned Wave the one the decision is for. -/
inductive Intended (base : DiscussionRecord) (budget : BudgetSnapshot) : TurnKind → PolicyDecision →
    Prop
  | contribution {decision : PolicyDecision} (state : decision.state = .active)
      (regular : budget.turnsUsed < base.policy.regularTurnLimit)
      (lease : budget.turnsUsed < budget.leaseEndTurn ∨
        base.budget.leaseEndTurn < budget.leaseEndTurn) :
      Intended base budget .discussion decision
  | finalization {decision : PolicyDecision} (state : decision.state = .finalizing) :
      Intended base budget .finalization decision

theorem WavePlan.Follows.of_cursor {plan : WavePlan} {turns : List DiscussionTurn}
    (h : plan.Follows discussion turns) (hwave : discussion.currentWave = base.currentWave)
    (hturn : discussion.currentTurn = base.currentTurn) : plan.Follows base turns :=
  ⟨hwave ▸ h.waveOrdinal, h.opened, hturn ▸ h.turnOrdinals, h.nodup, h.free⟩

theorem emits_persistWavePlan (input : WavePlanInput)
    (hcarries : Carries w.store base input.discussion ⟨input.budget, input.budgetEvents⟩)
    (hintended : Intended base input.budget input.kind input.decision)
    (honce : base.state ≠ .finalizing)
    (hclosed : ∀ wave ∈ (w.store.aggregate base.discussionId).waves, wave.state ≠ .opened)
    (hfree : w.store.get base.discussionId = some base → ∀ participant ∈ input.participants,
      participant.agentId ∉ runningAgents (w.store.aggregate base.discussionId).turns) :
    Steps Moves w (persistWavePlan P env input) := by
  unfold persistWavePlan
  refine emits_query ?_
  refine emits_except fun selection hselect => ?_
  refine .bind (emits_uniqueWaveAnchor moves_core) fun anchor t _ hanchor => ?_
  obtain ⟨core, rfl⟩ := hanchor
  refine emits_except fun plan hplan => ?_
  refine emits_transact fun u s' h => ⟨.single ?_, trivial⟩
  have hown : ∀ event ∈ input.budgetEvents, event.discussionId = input.discussion.discussionId :=
    fun event hevent => (hcarries.continues.own event hevent).trans hcarries.discussionId.symm
  obtain ⟨record, hget, hversion, hwrites⟩ := Store.recordDecisionAndPlanWave_ok hown h
  simp only [aggregateUpdate, newDecision, hcarries.discussionId] at hget hwrites hversion
  obtain rfl : record = base := hcarries.knows record hget (hversion.trans hcarries.version)
  obtain ⟨hfollows, -, hphase, hmaximum⟩ := buildWavePlan_follows hselect hplan (hfree hget)
  have hbase := hfollows.of_cursor hcarries.currentWave hcarries.currentTurn
  rw [hcarries.currentTurn] at hmaximum
  have hlease := hcarries.continues.lease
  generalize hkind : input.kind = kind at hintended hphase
  generalize hdecision : input.decision = decision at hintended
  refine moves_of_writes hwrites (.planned hget hcarries.unfinished honce ⟨rfl, rfl, ?_, hlease⟩
    hclosed ?_ hcarries.used hcarries.continues.charges)
  · show input.decision.state.isTerminal → _
    rw [hdecision]
    cases hintended with
    | contribution state => rw [state]; exact nofun
    | finalization state => rw [state]; exact nofun
  · cases hintended with
    | contribution state regular lease =>
      refine .contribution hbase hbase.waveOrdinal hmaximum (fun h => ?_) (hdecision ▸ state) regular
        lease
      cases hphase.mp h
    | finalization state =>
      exact .finalization hbase hbase.waveOrdinal hmaximum (hphase.mpr rfl) (hdecision ▸ state)

theorem endWithoutFinalizer_state (decision : PolicyDecision) :
    (endWithoutFinalizer decision).state ≠ .finalizing := by
  unfold endWithoutFinalizer
  split <;> nofun

/-- The participants a call plans with are free, if the row it carries is still the stored one. -/
theorem Carries.free {participants : List DiscussionParticipant}
    (hcarries : Carries w.store base discussion charge) (hv : w.Valid)
    (hget : w.store.get base.discussionId = some base) :
    ∀ participant ∈ eligibleParticipantsForNextWave env w.store discussion participants
      discussion.currentWave,
      participant.agentId ∉ runningAgents (w.store.aggregate base.discussionId).turns := by
  rw [← hcarries.discussionId]
  exact eligible_free (hcarries.discussionId ▸ hv.sound hget) hcarries.currentWave.ge

theorem decideFrom_hard
    (h : (inspectBudget discussion.budget discussion.policy).hardBoundaryReached) :
    (decideFrom discussion none).state = .finalizing := by
  unfold decideFrom decideDiscussion
  simp [h, PolicyDecision.finalize]

variable {reconcile : Reconcile} (hreconcile : reconcile.Sound) (hv : w.Valid)
  (hcarries : Carries w.store base discussion ⟨discussion.budget, events⟩)
  (honce : base.state ≠ .finalizing)
  (hclosed : ∀ wave ∈ (w.store.aggregate base.discussionId).waves, wave.state ≠ .opened)
include hreconcile hv hcarries honce hclosed

theorem emits_planContinuation
    (hintended : Intended base discussion.budget .discussion (.proceed false)) :
    Steps Moves w (planContinuation P reconcile env discussion events) := by
  unfold planContinuation
  refine emits_query ?_
  simp only [id_eq]
  have hwait : ∀ reason, Steps Moves w (do
      persistDecision (env.part 0) discussion (.waitHuman .waitingHuman reason) events none
      pure ([] : List RunRecord)) := fun reason =>
    .returning (emits_persistDecision hcarries nofun nofun fun h => absurd h honce)
  split
  · exact hwait _
  split
  · exact hwait _
  exact .andThen (emits_persistWavePlan ⟨_, _, _, _, _, _, _, _⟩ hcarries hintended honce
    hclosed (hcarries.free hv)) fun _ t ht => hreconcile _ _ _ (hv.run ht)

theorem emits_planFinalization (hstate : decision.state = .finalizing) :
    Steps Moves w (planFinalization P reconcile env discussion decision events) := by
  unfold planFinalization
  refine emits_query ?_
  simp only [id_eq]
  split
  · refine .bind (emits_appendFallbackConclusion moves_core) ?_
    rintro _ _ _ ⟨core, rfl⟩
    exact .returning (emits_persistDecision (hcarries.core core)
      (endWithoutFinalizer_state decision) (fun _ => rfl) fun h => absurd h honce)
  have hcharged : Carries w.store base discussion (chargeFinalization (env.part 0) w.store discussion
      none ⟨discussion.budget, events⟩) :=
    have hbefore := hcarries.continues.of_id hcarries.discussionId.symm
    { hcarries with
      continues := (chargeFinalization_continues hbefore).of_id hcarries.discussionId }
  refine .andThen (emits_persistWavePlan ⟨_, _, _, _, _, _, _, _⟩ hcharged
    (.finalization hstate) honce hclosed fun hget => ?_) fun _ t ht => hreconcile _ _ _ (hv.run ht)
  exact fun participant hparticipant =>
    hcarries.free hv hget participant (List.mem_filter.mp hparticipant).1

theorem emits_resume
    (hlease : (inspectBudget discussion.budget base.policy).hardBoundaryReached = false →
      discussion.budget.turnsUsed < discussion.budget.leaseEndTurn ∨
        base.budget.leaseEndTurn < discussion.budget.leaseEndTurn) :
    Steps Moves w (resume P reconcile env discussion events) := by
  unfold resume
  split
  · rename_i hhard
    exact emits_planFinalization hreconcile hv hcarries honce hclosed (decideFrom_hard hhard)
  rename_i hhard
  rw [hcarries.policy, Bool.not_eq_true] at hhard
  exact emits_planContinuation hreconcile hv hcarries honce hclosed
    (.contribution rfl (turnsUsed_lt_regular hhard) (hlease hhard))

end Decisions

/-! ## `control` -/

theorem decideDiscussion_finalize {input : DecisionInput}
    (h : (decideDiscussion input).action = .finalize) :
    (decideDiscussion input).state = .finalizing := by
  have hverdict := decideDiscussion_verdict input
  generalize decideDiscussion input = decision at h hverdict ⊢
  cases hverdict with
  | finalized => rfl
  | canceled | proceeded | renewed => cases h
  | held action state reason action_held => rcases action_held with rfl | rfl <;> cases h

theorem closed_of_latestOpenWave (h : latestOpenWave s discussionId = none) :
    ∀ wave ∈ (s.aggregate discussionId).waves, wave.state ≠ .opened := by
  intro wave hwave hopened
  have hnone := List.getLast?_eq_none_iff.mp h
  refine List.not_mem_nil (hnone ▸ List.mem_filter.mpr ⟨(List.mem_insertionSort _).mpr hwave, ?_⟩)
  simp [hopened]

/-- A stored record without a charge. -/
theorem carries_stored (hget : w.store.get discussion.discussionId = some discussion)
    (hunfinished : discussion.state.isTerminal = false) :
    Carries w.store discussion discussion ⟨discussion.budget, []⟩ :=
  ⟨knows_of_get hget, rfl, rfl, rfl, rfl, rfl, continues_nil rfl, rfl, hunfinished⟩

/-- A write to the row alone that keeps budget and cursor. -/
theorem moves_amend {record record' : DiscussionRecord}
    (hwrites : w.store.Writes discussionId { w.store.aggregate discussionId with
      record := some record' } s') (hget : w.store.get discussionId = some record)
    (hunfinished : record.state.isTerminal = false) (honce : record.state ≠ .finalizing)
    (hrow : RowMoves record record') (hstate : record'.state ≠ .finalizing)
    (hbudget : record'.budget = record.budget) (hwave : record'.currentWave = record.currentWave)
    (hturn : record'.currentTurn = record.currentTurn) : Moves w { w with store := s' } := by
  have hstep : Aggregate.Step (Excused w) (w.store.aggregate discussionId)
      { w.store.aggregate discussionId with
        record := some record'
        budgetEvents := (w.store.aggregate discussionId).budgetEvents ++ [] } :=
    .amended hget hunfinished hrow (.nothing hwave hturn hstate) (fun h => absurd h honce)
      (by rw [hbudget]) (.nil (by rw [hbudget]))
  refine moves_of_writes hwrites ?_
  simpa using hstep

/-- The record `adjust_goal` goes on with. -/
theorem Carries.adjusted {goal : String}
    (hcontinues : charge.Continues w.store discussion discussion.budget)
    (hused : charge.budget.turnsUsed = discussion.budget.turnsUsed) {updated : DiscussionRecord}
    (hupdated : updated = { discussion with
      goal, state := .active, stateReason := none, requestedAction := none
      version := discussion.version + 1, updatedAt := now })
    (hwrites : w.store.Writes discussion.discussionId
      { w.store.aggregate discussion.discussionId with record := some updated } s') :
    Carries s' updated { updated with budget := charge.budget } charge := by
  have hid : updated.discussionId = discussion.discussionId := by rw [hupdated]
  have hbudget : updated.budget = discussion.budget := by rw [hupdated]
  have hget : s'.get updated.discussionId = some updated := by
    rw [hid]
    exact congrArg Aggregate.record hwrites.self
  refine ⟨knows_of_get hget, rfl, rfl, rfl, rfl, rfl, ⟨?_, ?_, ?_⟩, ?_, ?_⟩
  · rw [hid, hwrites.self, hbudget]
    exact hcontinues.charges
  · rw [hid]
    exact hcontinues.own
  · rw [hbudget]
    exact hcontinues.lease
  · rw [hbudget]
    exact hused
  · rw [hupdated]
    rfl

section Control

variable {depth : Nat} {env : Env} {discussion : DiscussionRecord} {input : ControlInput}
  (hv : w.Valid) (hget : w.store.get discussion.discussionId = some discussion)
  (hunfinished : discussion.state.isTerminal = false)
include hget hunfinished

theorem emits_controlCancel : Steps Moves w (controlCancel env w.store discussion) := by
  have hcarries := carries_stored hget hunfinished
  unfold controlCancel
  exact .returning (emits_persistDecision hcarries nofun (fun _ => rfl) fun _ => rfl)

include hv

theorem emits_controlAdjustGoal :
    Steps Moves w (controlAdjustGoal P depth env w.store discussion input) := by
  unfold controlAdjustGoal
  refine emits_except fun _ hallowed => ?_
  obtain ⟨hnone, hresumable⟩ := require_ok hallowed
  refine emits_except fun _ _ => ?_
  refine emits_except fun charge hcharge => ?_
  obtain ⟨hcontinues, hused, hlease⟩ := prepareResumeBudget_ok hcharge
  refine .bind (P := fun _ t => ∃ s' now, t = { w with store := s' } ∧
    w.store.Writes discussion.discussionId { w.store.aggregate discussion.discussionId with
      record := some { discussion with
        goal := P.trim (input.goal.getD "")
        state := .active, stateReason := none, requestedAction := none
        version := discussion.version + 1, updatedAt := now } } s')
    (emits_transact fun u s' h => ?_) ?_
  · obtain ⟨record, hrecord, hwrites⟩ := Store.updateRow_ok h fun _ => rfl
    obtain rfl : discussion = record := Option.mem_unique hget hrecord
    refine ⟨.single (moves_amend hwrites hget hunfinished ?_ ⟨rfl, rfl, nofun, le_rfl⟩ nofun rfl rfl
      rfl), s', _, rfl, hwrites⟩
    intro hfinalizing
    rw [hfinalizing] at hresumable
    cases hresumable
  · rintro _ t ht ⟨s', now, rfl, hwrites⟩
    refine emits_require fun updated hupdated hid => ?_
    have hself := congrArg Aggregate.record hwrites.self
    have hrow : updated = _ := Option.mem_unique hupdated hself
    have hcarries := Carries.adjusted hcontinues hused hrow (hrow ▸ hwrites)
    refine .returning (emits_resume (reconcileDiscussion_sound depth) (hv.run ht) hcarries ?_ ?_ ?_)
    · rw [hrow]
      nofun
    · rw [hid]
      show ∀ wave ∈ (s'.aggregate discussion.discussionId).waves, _
      rw [hwrites.self]
      exact closed_of_latestOpenWave hnone
    · have hbudget : updated.budget = discussion.budget := by rw [hrow]
      have hpolicy : updated.policy = discussion.policy := by rw [hrow]
      rw [hbudget, hpolicy]
      exact hlease

theorem emits_controlContinue :
    Steps Moves w (controlContinue P depth env w.store discussion input) := by
  unfold controlContinue
  refine emits_except fun _ hallowed => ?_
  have hresumable := require_ok hallowed
  refine emits_except fun _ hclosed => ?_
  have hnone := require_ok hclosed
  refine emits_except fun charge hcharge => ?_
  obtain ⟨hcontinues, hused, hlease⟩ := prepareResumeBudget_ok hcharge
  have hbudget : (continued discussion charge.budget).budget = charge.budget := by
    unfold continued
    split <;> rfl
  have hcarries : Carries w.store discussion (continued discussion charge.budget)
      ⟨(continued discussion charge.budget).budget, charge.events⟩ := by
    rw [hbudget]
    unfold continued
    split <;> exact ⟨knows_of_get hget, rfl, rfl, rfl, rfl, rfl, hcontinues, hused, hunfinished⟩
  refine .returning (emits_resume (reconcileDiscussion_sound depth) hv hcarries ?_
    (closed_of_latestOpenWave hnone) ?_)
  · intro hfinalizing
    rw [hfinalizing] at hresumable
    cases hresumable
  · rw [hbudget]
    exact hlease

theorem emits_controlStop {action : RequestedAction} (honce : discussion.state ≠ .finalizing) :
    Steps Moves w (controlStop P depth env w.store discussion action) := by
  have hcarries := carries_stored hget hunfinished
  unfold controlStop
  split
  · refine .returning (emits_transact (R := fun _ _ => True) fun u s' h => ⟨.single ?_, trivial⟩)
    obtain ⟨record, hrecord, hwrites⟩ := Store.updateRow_ok h fun _ => rfl
    obtain rfl : discussion = record := Option.mem_unique hget hrecord
    exact moves_amend hwrites hget hunfinished honce ⟨rfl, rfl, nofun, le_rfl⟩ nofun rfl rfl rfl
  rename_i hnone
  simp only [Bool.not_eq_true, Option.isSome_eq_false_iff, Option.isNone_iff_eq_none] at hnone
  simp only
  split
  · rename_i hfinalize
    exact .returning (emits_planFinalization (reconcileDiscussion_sound depth) hv hcarries honce
      (closed_of_latestOpenWave hnone) (decideDiscussion_finalize hfinalize))
  rename_i hfinalize
  refine .returning (emits_persistDecision hcarries ?_ ?_ fun h => absurd h honce)
  all_goals
    have hverdict := decideDiscussion_verdict {
      progress := discussion.progress, budget := discussion.budget, policy := discussion.policy
      requestedOutputMode := discussion.outputMode, userIntent := some action.intent }
    unfold decideFrom at hfinalize ⊢
    generalize decideDiscussion _ = decision at hverdict hfinalize ⊢
    cases hverdict with
    | canceled intent => cases action <;> cases intent
    | finalized => exact absurd rfl hfinalize
    | held _ state _ _ state_held => cases state <;> cases state_held <;> nofun
    | proceeded | renewed => nofun

omit hget hunfinished in
theorem emits_control : Steps Moves w (control P depth env discussionId input) := by
  unfold control
  refine emits_require fun discussion hget hid => ?_
  refine emits_query ?_
  refine emits_except fun member _ => ?_
  refine emits_except fun _ _ => ?_
  split
  · exact .pure trivial
  rename_i hterminal
  have hunfinished : discussion.state.isTerminal = false := by simpa using hterminal
  rw [← hid] at hget
  unfold controlUnfinished
  split
  · exact emits_controlCancel hget hunfinished
  split
  · split
    · exact .pure trivial
    · exact .fail
  rename_i honce
  split
  · exact emits_controlAdjustGoal hv hget hunfinished
  · exact emits_controlContinue hv hget hunfinished
  · exact emits_controlStop hv hget hunfinished honce
  · exact emits_controlStop hv hget hunfinished honce
  · exact emits_controlStop hv hget hunfinished honce
  · exact emits_controlCancel hget hunfinished

end Control

/-! ## `create` -/

variable {env : Env} {input : CreateInput} {depth : Nat}

theorem checkCreate_bounded {checked : CheckedCreate}
    (h : checkCreate P env s input now = .ok checked) : checked.policy.Bounded := by
  simp only [checkCreate, bind_eq_ok] at h
  obtain ⟨_, -, _, -, _, -, _, -, _, -, _, -, _, -, _, -, _, -, _, -, _, -, _, hpolicy, _, -, h⟩ := h
  cases h
  exact resolvePolicy_bounded hpolicy

theorem emits_create (hv : w.Valid) : Steps Moves w (create P depth env input) := by
  unfold create createWithinTransaction
  refine .atomic (emits_query ?_)
  refine emits_except fun checked hchecked => ?_
  have hbounded := checkCreate_bounded hchecked
  refine .andThen (emits_appendMessage moves_core).steps fun _ t ht => ?_
  generalize hdiscussion : newDiscussion input checked ((env.part 1).freshId)
    (rootMessage (env.part 0) input checked env.now).messageId env.now = discussion
  have hbudget : discussion.budget = emptyBudgetSnapshot discussion.policy.initialLeaseTurns := by
    rw [← hdiscussion]
    rfl
  have hactive : discussion.state = .active := by
    rw [← hdiscussion]
    rfl
  have hpolicy : discussion.policy.Bounded := by
    rw [← hdiscussion]
    exact hbounded
  refine .bind (P := fun _ u => u.store.get discussion.discussionId = some discussion ∧
      (u.store.aggregate discussion.discussionId).waves = [] ∧
      (u.store.aggregate discussion.discussionId).turns = [])
    (emits_transact fun _ s' h => ?_) ?_
  · obtain ⟨hnone, hwrites⟩ := Store.create_ok rfl h
    have hempty := ((hv.run ht).aggregates discussion.discussionId).absent hnone
    refine ⟨.single (moves_of_writes hwrites (.created hnone ⟨hpolicy, hactive, ?_, ?_, hbudget, rfl,
      rfl, ?_⟩)), congrArg Aggregate.record hwrites.self, ?_, ?_⟩
    all_goals try (rw [← hdiscussion]; rfl)
    · exact (congrArg Aggregate.waves hwrites.self).trans hempty.1
    · exact (congrArg Aggregate.turns hwrites.self).trans hempty.2.1
  · rintro _ u hu ⟨hget, hwaves, hturns⟩
    have hcarries := carries_stored hget (by rw [hactive]; rfl)
    refine .andThen (emits_persistWavePlan ⟨_, _, _, _, _, _, _, _⟩ hcarries
      (.contribution rfl ?_ (.inl ?_)) ?_ ?_ ?_) fun _ v hv' => ?_
    · rw [hbudget]
      exact hpolicy.regular_pos
    · rw [hbudget]
      exact hpolicy.initialLease_pos
    · rw [hactive]
      nofun
    · rw [hwaves]
      nofun
    · rw [hturns]
      exact fun _ _ _ => List.not_mem_nil
    · exact .returning (reconcileDiscussion_sound depth _ _ _ (hv.run (ht.trans (hu.trans hv'))))

/-! ## Run events -/

theorem keyedRuns_update {core : Run.Database} {p : RunRecord → Prop} [DecidablePred p]
    {f : RunRecord → RunRecord} (hid : ∀ run, (f run).runId = run.runId)
    (hkey : ∀ run, (f run).orchestrationKey = run.orchestrationKey) :
    keyedRuns { core with runs := Table.update p f core.runs } = keyedRuns core := by
  unfold keyedRuns Table.update
  rw [List.filterMap_map]
  refine List.filterMap_congr fun run _ => ?_
  simp only [Function.comp]
  split
  · rw [hid, hkey]
  · rfl

/-- No event of a Run creates a Run. -/
theorem keyedRuns_storeEvent {current : RunRecord} {event : Run.RuntimeEvent}
    {core core' : Run.Database} (h : Run.storeEvent current event now core = .ok core') :
    keyedRuns core' = keyedRuns core := by
  unfold Run.storeEvent at h
  obtain ⟨opened, hopened, h⟩ := bind_ok h
  have hopen : opened.runs = core.runs := by
    unfold Run.Database.openClarification at hopened
    split at hopened
    · cases hopened
      rfl
    split at hopened
    · cases hopened
    split at hopened
    · cases hopened
    split at hopened
    · cases hopened
    rename_i htake
    cases hopened
    unfold Run.Database.takeMessageSequence at htake
    split at htake
    · cases htake
    · cases htake
      rfl
  have hbefore : ((opened.advanceTaskCursor current event now).insertReplyRoutingIntent current.runId
      event now).runs = core.runs := by
    unfold Run.Database.advanceTaskCursor Run.Database.insertReplyRoutingIntent
    split <;> split <;> exact hopen
  have hupdated : ∀ state, keyedRuns (((opened.advanceTaskCursor current event
      now).insertReplyRoutingIntent current.runId event now).updateRun current state event.sequence
        now) = keyedRuns core := by
    intro state
    have hkeyed := (keyedRuns_update (p := fun row => row.runId = current.runId)
      (f := RunRecord.advance state event.sequence now) (fun _ => rfl) fun _ => rfl).trans
        (keyedRuns_of_runs hbefore)
    unfold Run.Database.updateRun
    simp only
    split <;> exact hkeyed
  dsimp only at h
  split at h <;> cases h
  · exact hupdated _
  · exact hupdated _

theorem emits_applyStatus {run : RunRecord} {status : Run.RuntimeStatus} {error : Run.RuntimeError}
    : Emits Moves w (applyStatus run status error now) fun _ w' => CoreOnly w w' := by
  refine emits_transact fun applied s' h => ?_
  unfold onCore at h
  split at h
  · cases h
  rename_i a core happly
  cases h
  refine ⟨.single (moves_core ?_), ⟨_, rfl⟩⟩
  obtain ⟨current, -, ⟨-, rfl, -⟩ | ⟨-, -, -, hstored, -⟩⟩ := Run.applyRuntimeEvent_cases happly
  · rfl
  · exact keyedRuns_storeEvent hstored

theorem emits_onRunInputRequired {runId : RunId} (hv : w.Valid) :
    Steps Moves w (onRunInputRequired P depth env runId) := by
  unfold onRunInputRequired
  refine emits_query ?_
  split
  · exact .pure trivial
  split
  · exact .andThen emits_applyStatus.steps fun _ t ht =>
      emits_onRunTerminal depth (hv.run ht)
  · exact .pure trivial

end ConveneWire.Discussion
