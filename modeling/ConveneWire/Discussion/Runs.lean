import ConveneWire.Discussion.Calls

/-! # Runs of the system

Deadlines and recovery move the Discussions by their steps like every other
call, so each state the system can be in is reached by `Moves` and is valid. -/

namespace ConveneWire.Discussion

open Transactional
open Run (Time RunRecord)
open Relation (ReflTransGen)

variable {w w' : System} {P : Platform} {depth : Nat} {env : Env}

/-! ## Deadlines -/

variable {now : Time} {turn : DiscussionTurn} {waveId : WaveId} {discussionId : DiscussionId}

theorem emits_expireRun {run : RunRecord} : Steps Moves w (expireRun env run now) := by
  unfold expireRun
  have hended : ∀ status error, Steps Moves w (do
      let applied ← applyStatus run status error now
      pure applied.run) := fun status error =>
    .returning emits_applyStatus
  split
  · exact .pure trivial
  split
  · exact hended _ _
  · exact hended _ _

section

variable (hv : w.Valid)
include hv

theorem emits_expireFound {found : Option RunRecord} :
    Steps Moves w (match found with
      | none => pure []
      | some run => do
        let ended ← expireRun env run now
        let result ← onRunTerminal P depth (env.part 1) ended.runId
        pure ((scheduledRuns result).filter fun run => run.state = .queued)) := by
  cases found with
  | none => exact .pure trivial
  | some run =>
    refine .andThen emits_expireRun fun ended t ht => ?_
    exact .returning (emits_onRunTerminal depth (hv.run ht))

theorem emits_expireTurn (hstored : Stored w.store turn) :
    Steps Moves w (expireTurn P depth now env turn) := by
  unfold expireTurn
  cases turn.runId with
  | some runId => exact emits_query (emits_expireFound hv)
  | none => exact .andThen (emits_ensureRun depth hstored) fun _ t ht =>
      emits_expireFound (hv.run ht)

/-- A loop over the members of a Wave. -/
theorem emits_members {β : Type} {f : Env → DiscussionTurn → Program System β}
    (h : ∀ env turn t, t.Valid → Stored t.store turn → Steps Moves t (f env turn)) :
    Steps Moves w (Env.collect f env (w.store.listTurnsForWave waveId)) :=
  emits_collect _ fun env turn hturn t ht =>
    h env turn t (hv.run ht) ((stored_of_mem (mem_listTurnsForWave.mp hturn).1).run ht)

theorem emits_expireDueWaves : Steps Moves w (expireDueWaves P depth env) := by
  unfold expireDueWaves
  refine emits_query ?_
  refine .returning (emits_collect _ fun env wave _ t ht => ?_)
  unfold expireWave
  refine emits_query ?_
  exact .returning (emits_members (hv.run ht) fun _ _ _ hvalid hstored =>
    emits_expireTurn hvalid hstored)

theorem emits_settleQuorumTurn : Steps Moves w (settleQuorumTurn P depth env turn) := by
  unfold settleQuorumTurn
  refine emits_query ?_
  split
  · exact .pure trivial
  split
  · exact .returning (emits_onRunTerminal depth hv)
  · exact .pure trivial

theorem emits_settleQuorumTurns {turns : List DiscussionTurn} :
    Steps Moves w (settleQuorumTurns P depth waveId env turns) := by
  induction turns generalizing w env with
  | nil => exact .pure trivial
  | cons turn rest ih =>
    rw [settleQuorumTurns]
    refine .andThen (emits_settleQuorumTurn hv) fun runs t ht => ?_
    refine emits_query ?_
    split
    · exact .returning (ih (hv.run ht))
    · exact .pure trivial

theorem emits_reconcileDueQuorums : Steps Moves w (reconcileDueQuorums P depth now env) := by
  unfold reconcileDueQuorums
  refine emits_query ?_
  refine .returning (emits_collect _ fun env wave _ t ht => ?_)
  unfold reconcileDueQuorum
  refine emits_query ?_
  split
  · exact .pure trivial
  split
  · exact emits_settleQuorumTurns (hv.run ht)
  · exact .pure trivial

theorem emits_sweepTurn : Steps Moves w (sweepTurn P depth env turn) := by
  unfold sweepTurn
  refine emits_query ?_
  split
  · exact .pure trivial
  split
  · exact .returning (emits_onRunInputRequired hv)
  split
  · exact .returning (emits_onRunTerminal depth hv)
  · exact .pure trivial

theorem emits_sweepDueWaves : Steps Moves w (sweepDueWaves P depth env) := by
  unfold sweepDueWaves
  refine emits_query ?_
  refine .andThen (emits_collect _ fun env wave _ t ht => ?_) fun _ t ht => ?_
  · unfold sweepWave
    refine emits_query ?_
    exact .returning (emits_members (hv.run ht) fun _ _ _ hvalid _ => emits_sweepTurn hvalid)
  refine .andThen (emits_reconcileDueQuorums (hv.run ht)) fun _ u hu => ?_
  exact .returning (emits_expireDueWaves (hv.run (ht.trans hu)))

end

/-! ## Canceled Discussions on restart -/

theorem Aggregate.Step.wave {excused : Prop} {a a' : Aggregate} (h : Aggregate.Step excused a a')
    {wave : DiscussionWave} (hwave : wave ∈ a.waves) : ∃ wave' ∈ a'.waves, WaveMoves wave wave' := by
  cases h with
  | rows _ waves => exact ⟨_, List.mem_map_of_mem hwave, waves wave hwave⟩
  | finished _ _ _ _ _ _ waves => exact ⟨_, List.mem_map_of_mem hwave, waves wave hwave⟩
  | created | amended => exact ⟨wave, hwave, .refl wave⟩
  | planned => exact ⟨wave, List.mem_append_left _ hwave, .refl wave⟩
  | advanced _ _ _ _ _ _ waves =>
    exact ⟨_, List.mem_append_left _ (List.mem_map_of_mem hwave), waves wave hwave⟩

/-- A Wave keeps its row. -/
theorem wave_run (h : ReflTransGen Moves w w') {wave : DiscussionWave} (hwave : wave ∈ w.store.waves) :
    ∃ row ∈ (w'.store.aggregate wave.discussionId).waves, row.waveId = wave.waveId := by
  induction h with
  | refl => exact ⟨wave, List.mem_filter.mpr ⟨hwave, by simp⟩, rfl⟩
  | tail _ hmove ih =>
    obtain ⟨row, hrow, hid⟩ := ih
    obtain ⟨row', hrow', hmoves⟩ := (hmove.aggregates wave.discussionId).wave hrow
    exact ⟨row', hrow', hmoves.waveId.trans hid⟩

/-- The Wave is closed or its Discussion is finished. -/
def Aggregate.Over (a : Aggregate) (waveId : WaveId) : Prop :=
  ∃ wave ∈ a.waves, wave.waveId = waveId ∧
    (wave.state ≠ .opened ∨ ∃ record, a.record = some record ∧ record.state.isTerminal)

/-- Only closing the open Wave can reopen a finished Discussion. -/
theorem Aggregate.Over.step {excused : Prop} {a a' : Aggregate} (hover : a.Over waveId)
    (hvalid : a.Valid) (h : Aggregate.Step excused a a') : a'.Over waveId := by
  obtain ⟨wave, hwave, hid, hclosed | ⟨record, hrecord, hterminal⟩⟩ := hover
  · obtain ⟨wave', hwave', hmoves⟩ := h.wave hwave
    exact ⟨wave', hwave', hmoves.waveId.trans hid, .inl (by rw [hmoves.closed hclosed]; exact hclosed)⟩
  have hsame : ∀ {r : DiscussionRecord}, a.record = some r → r = record := fun hfound =>
    Option.mem_unique hfound hrecord
  cases h with
  | created absent =>
    rw [absent] at hrecord
    cases hrecord
  | rows turns waves =>
    exact ⟨_, List.mem_map_of_mem hwave, (waves wave hwave).waveId.trans hid,
      .inr ⟨record, hrecord, hterminal⟩⟩
  | amended found unfinished | planned found unfinished =>
    rw [hsame found, hterminal] at unfinished
    cases unfinished
  | finished found finalizing =>
    rw [← hsame found, finalizing] at hterminal
    cases hterminal
  | @advanced _ _ current g _ _ found _ _ member opened _ waves closes =>
    refine ⟨g wave, List.mem_append_left _ (List.mem_map_of_mem hwave),
      (waves wave hwave).waveId.trans hid, .inl ?_⟩
    by_cases hopen : wave.state = .opened
    · have honly := (hvalid.sound record hrecord).open_unique member hwave opened hopen
      exact honly ▸ closes
    · rw [(waves wave hwave).closed hopen]
      exact hopen

theorem over_run (hv : w.Valid)
    (hover : (w.store.aggregate discussionId).Over waveId) (h : ReflTransGen Moves w w') :
    (w'.store.aggregate discussionId).Over waveId := by
  induction h with
  | refl => exact hover
  | tail hrun hmove ih =>
    exact ih.step ((hv.run hrun).aggregates discussionId) (hmove.aggregates discussionId)

theorem emits_closeSettledWave (hv : w.Valid)
    (hover : (w.store.aggregate discussionId).Over waveId) :
    Steps Moves w (closeSettledWave waveId now) := by
  unfold closeSettledWave
  refine emits_query ?_
  simp only [id_eq]
  cases hwave : w.store.getWave waveId with
  | none => exact .pure trivial
  | some wave =>
    simp only
    split
    · rename_i hopen
      obtain ⟨row, hrow, hid, hover⟩ := hover
      have hkey : wave.waveId = waveId := Table.lookup_key hwave
      obtain ⟨hmem, hdiscussion⟩ := List.mem_filter.mp hrow
      have hsame : row = wave := List.inj_on_of_nodup_map hv.wellFormed.waveIds hmem
        (List.mem_of_find?_eq_some hwave) (hid.trans hkey.symm)
      subst hsame
      rcases hover with hclosed | ⟨record, hrecord, hterminal⟩
      · exact absurd hopen.1 hclosed
      have hown : row.discussionId = discussionId := by simpa using hdiscussion
      rw [← hkey] at hwave ⊢
      exact .returning (emits_closeWave hwave (hown ▸ hrecord) hterminal)
    · exact .pure trivial

theorem emits_closeCanceledTurn (hv : w.Valid) :
    Steps Moves w (closeCanceledTurn P depth now env turn) := by
  unfold closeCanceledTurn
  split
  · exact .pure trivial
  split
  · exact (emits_modify (.single (moves_of_onlyTurns Store.onlyTurns_settleTurn))).mono
      fun _ _ _ _ => trivial
  refine emits_query ?_
  split
  · exact .pure trivial
  rename_i run _
  have hended : Steps Moves w (endCanceledRun env run now) := by
    unfold endCanceledRun
    split
    · exact .pure trivial
    split
    · exact .returning emits_applyStatus
    · exact .returning emits_applyStatus
  refine .andThen hended fun ended t ht => ?_
  exact .returning (emits_onRunTerminal depth (hv.run ht))

theorem emits_closeCanceledWaves (hv : w.Valid) :
    Steps Moves w (closeCanceledWaves P depth env) := by
  unfold closeCanceledWaves
  refine emits_query ?_
  refine .returning (emits_collect _ fun env wave hwave t ht => ?_)
  have hrow : wave ∈ w.store.waves := (List.mem_filter.mp ((List.mem_insertionSort _).mp hwave)).1
  unfold closeCanceledWave
  refine emits_query ?_
  simp only [id_eq]
  cases hget : t.store.get wave.discussionId with
  | none => exact .pure trivial
  | some discussion =>
    simp only [System.when]
    split
    · rename_i hcanceled
      have hover : (t.store.aggregate wave.discussionId).Over wave.waveId := by
        obtain ⟨row, hrow, hmoves⟩ := wave_run ht hrow
        exact ⟨row, hrow, hmoves, .inr ⟨discussion, hget, by simp_all [DiscussionState.isTerminal]⟩⟩
      refine .andThen (emits_members (hv.run ht) fun _ _ _ hvalid _ =>
        emits_closeCanceledTurn hvalid) fun _ u hu => ?_
      exact emits_closeSettledWave (hv.run (ht.trans hu)) (over_run (hv.run ht) hover hu)
    · exact .pure trivial

/-! ## Open Discussions on restart -/

theorem emits_recoverDecided {s : Store} {discussion current : DiscussionRecord}
    {charge : BudgetCharge} {input : DecisionInput} (hv : w.Valid)
    (hcarries : Carries w.store discussion current ⟨current.budget, charge.events⟩)
    (hactive : discussion.state = .active)
    (hclosed : ∀ wave ∈ (w.store.aggregate discussion.discussionId).waves, wave.state ≠ .opened)
    (hpolicy : input.policy = discussion.policy)
    (hused : current.budget.turnsUsed = input.budget.turnsUsed)
    (hle : input.budget.leaseEndTurn ≤ current.budget.leaseEndTurn)
    (hgrant : (decideDiscussion input).grantAutomaticLease →
      discussion.budget.leaseEndTurn < current.budget.leaseEndTurn) :
    Steps Moves w (recoverDecided P depth env s current (decideDiscussion input) charge.events) := by
  have honce : discussion.state ≠ .finalizing := by
    rw [hactive]
    nofun
  have hverdict := decideDiscussion_verdict input
  have hfinalize := @decideDiscussion_finalize input
  generalize decideDiscussion input = decision at hverdict hgrant hfinalize ⊢
  unfold recoverDecided
  split
  · rename_i hcontinue
    refine emits_planContinuation (reconcileDiscussion_sound depth) hv hcarries honce hclosed ?_
    cases hverdict with
    | canceled | finalized => cases hcontinue
    | held action state reason action_held => rcases action_held with rfl | rfl <;> cases hcontinue
    | proceeded hard lease =>
      exact .contribution rfl (hused.trans_lt (hpolicy ▸ turnsUsed_lt_regular hard))
        (.inl (hused.trans_lt (lease.trans_le hle)))
    | renewed hard renewal =>
      exact .contribution rfl (hused.trans_lt (hpolicy ▸ turnsUsed_lt_regular hard))
        (.inr (hgrant rfl))
  split
  · rename_i haction
    split
    · refine .bind (emits_appendFallbackConclusion moves_core) ?_
      rintro _ _ - ⟨core, rfl⟩
      exact .returning (emits_persistDecision (hcarries.core core) nofun (fun _ => rfl)
        fun h => absurd h honce)
    · exact emits_planFinalization (reconcileDiscussion_sound depth) hv hcarries honce hclosed
        (hfinalize haction)
  · rename_i hcontinue haction
    refine .returning (emits_persistDecision hcarries ?_ ?_ fun h => absurd h honce)
    · cases hverdict with
      | canceled => nofun
      | finalized => exact absurd rfl haction
      | held _ state _ _ state_held => cases state <;> cases state_held <;> nofun
      | proceeded | renewed => exact absurd rfl hcontinue
    · cases hverdict with
      | canceled => exact fun _ => rfl
      | finalized => exact absurd rfl haction
      | held _ state _ _ state_held => cases state <;> cases state_held <;> nofun
      | proceeded | renewed => exact absurd rfl hcontinue

theorem emits_recoverOpen {discussion : DiscussionRecord} (hv : w.Valid)
    (hknows : Knows w.store discussion) : Steps Moves w (recoverOpen P depth env discussion) := by
  unfold recoverOpen
  refine emits_query ?_
  split
  · exact .pure trivial
  rename_i hguard
  simp only [not_or, not_not, Bool.not_eq_true, List.any_eq_false, decide_eq_true_eq] at hguard
  obtain ⟨hactive, hclosed⟩ := hguard
  have hopen : ∀ wave ∈ (w.store.aggregate discussion.discussionId).waves, wave.state ≠ .opened :=
    fun wave hwave => hclosed wave ((List.mem_insertionSort _).mpr hwave)
  unfold recoverActiveWithoutWave
  refine emits_query ?_
  refine emits_except fun charge hcharge => ?_
  have hrefreshed : BudgetCharge.Continues
      ⟨refreshElapsedBudget discussion ((env.part 0).now), []⟩ w.store
      { discussion with budget := refreshElapsedBudget discussion ((env.part 0).now) }
      discussion.budget := continues_nil rfl
  obtain ⟨hcontinues, hused, hgrant, hle⟩ := chargeAutomaticLease_ok hrefreshed hcharge
  exact emits_recoverDecided hv ⟨hknows, rfl, rfl, rfl, rfl, rfl, hcontinues.of_id rfl, hused,
    by rw [hactive]; rfl⟩ hactive hopen rfl hused hle hgrant

theorem emits_recover (hv : w.Valid) : Steps Moves w (recover P depth env) := by
  unfold recover
  refine .andThen (emits_closeCanceledWaves hv) fun _ t₁ h₁ => ?_
  refine .andThen (emits_reconcileDueQuorums (hv.run h₁)) fun _ t₂ h₂ => ?_
  have h₂ := h₁.trans h₂
  refine .andThen (emits_expireDueWaves (hv.run h₂)) fun _ t₃ h₃ => ?_
  have h₃ := h₂.trans h₃
  refine emits_query ?_
  refine .andThen (emits_collect _ fun env discussion hdiscussion t ht => ?_) fun _ t₄ h₄ => ?_
  · have hrow := (List.mem_filter.mp ((List.mem_insertionSort _).mp hdiscussion)).1
    exact emits_recoverOpen (hv.run (h₃.trans ht))
      (knows_run ht ((hv.run h₃).wellFormed.get_of_mem hrow))
  have h₄ := h₃.trans h₄
  refine emits_query ?_
  refine .andThen (emits_collect _ fun env discussion _ t ht =>
    reconcileDiscussion_sound depth _ _ _ (hv.run (h₄.trans ht))) fun _ t₅ h₅ => ?_
  have h₅ := h₄.trans h₅
  refine emits_query ?_
  refine .andThen (emits_collect _ fun env wave _ t ht => ?_) fun _ t₆ h₆ => ?_
  · unfold recoverWave
    refine emits_query ?_
    exact .returning (emits_members (hv.run (h₅.trans ht)) fun _ _ _ hvalid _ =>
      emits_settleQuorumTurn hvalid)
  exact emits_query (.pure trivial)

/-! ## All calls -/

theorem emits_exec (call : Call) (hv : w.Valid) : Steps Moves w (exec P depth env call) := by
  have hdiscard : ∀ {α : Type} {m : Program System α}, Emits Moves w m (fun _ _ => True) →
      Steps Moves w (discard m) := fun h =>
    .returning h
  cases call with
  | create input => exact hdiscard (emits_create hv)
  | control discussionId input => exact hdiscard (emits_control hv)
  | onRunTerminal runId => exact hdiscard (emits_onRunTerminal depth hv)
  | onRunInputRequired runId => exact hdiscard (emits_onRunInputRequired hv)
  | reconcileDiscussion discussionId =>
    exact hdiscard (reconcileDiscussion_sound depth _ _ _ hv)
  | expireDueWaves => exact hdiscard (emits_expireDueWaves hv)
  | sweepDueWaves => exact hdiscard (emits_sweepDueWaves hv)
  | recover => exact hdiscard (emits_recover hv)

/-- Every step of the system is made of moves. -/
theorem Step.moves (h : Step P w w') (hv : w.Valid) : ReflTransGen Moves w w' := by
  cases h with
  | call depth env call visited => exact (emits_exec call hv).visits visited
  | other core keyed => exact .single (moves_core keyed)

theorem moves_of_steps (h : ReflTransGen (Step P) w w') (hv : w.Valid) : ReflTransGen Moves w w' := by
  induction h with
  | refl => exact .refl
  | tail _ hstep ih => exact ih.trans (hstep.moves (hv.run ih))

theorem valid_initial (core : Run.Database) : (System.initial core).Valid := by
  refine ⟨fun discussionId => ?_, ⟨List.nodup_nil, List.nodup_nil, List.nodup_nil, ?_⟩⟩
  · exact Aggregate.valid_empty
  · intro turn hturn
    exact absurd hturn List.not_mem_nil

theorem Reachable.valid (h : Reachable P w) : w.Valid := by
  obtain ⟨core, -, hsteps⟩ := h
  exact (valid_initial core).run (moves_of_steps hsteps (valid_initial core))

end ConveneWire.Discussion
