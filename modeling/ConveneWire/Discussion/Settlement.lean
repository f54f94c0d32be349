import ConveneWire.Discussion.Refinement

/-! # Run outcomes

`settle` and `reconcileTerminalWaveTurns` only settle Turns, so what they leave
can be traced back to what they found: a completed Turn had completed or its Run
had, and a Turn still running could not be settled. With that, a quorum that
seals a Wave of a finished Discussion shows in the entry of the call. -/

namespace ConveneWire.Discussion

open Transactional
open Run (Time RunId RunRecord)
open DiscussionTurn

variable {w w' : System} {P : Platform}

/-! ## Settled Turns -/

/-- What a settlement may make of a Turn. -/
structure SettleMoves (s : Store) (turn turn' : DiscussionTurn) : Prop extends
    TurnMoves turn turn' where
  runId : turn'.runId = turn.runId
  completed : turn'.state = .completed → turn.isCompletable s

/-- The tables after settlements: only Turn rows moved. -/
def Settled (s s' : Store) : Prop :=
  ∃ f, s' = { s with turns := s.turns.map f } ∧ ∀ turn ∈ s.turns, SettleMoves s turn (f turn)

theorem SettleMoves.refl (s : Store) (turn : DiscussionTurn) : SettleMoves s turn turn :=
  { TurnMoves.refl turn with
    runId := rfl
    completed := fun h => by simp [isCompletable, h] }

theorem Settled.refl (s : Store) : Settled s s :=
  ⟨id, by simp, fun turn _ => .refl s turn⟩

variable {s s' : Store} {turn turn' : DiscussionTurn}

theorem SettleMoves.trans {turn'' : DiscussionTurn} (h : SettleMoves s turn turn')
    (h' : SettleMoves s' turn' turn'') (hcore : s'.core = s.core) : SettleMoves s turn turn'' where
  turnId := h'.turnId.trans h.turnId
  discussionId := h'.discussionId.trans h.discussionId
  ordinal := h'.ordinal.trans h.ordinal
  waveId := h'.waveId.trans h.waveId
  speaker := h'.speaker.trans h.speaker
  settled hterminal := by
    obtain rfl := h.settled hterminal
    exact h'.settled hterminal
  runId := h'.runId.trans h.runId
  completed hcompleted := by
    have hcompletable := h'.completed hcompleted
    simp only [isCompletable, hcore, h.runId, decide_eq_true_eq] at hcompletable
    rcases hcompletable with hcompleted | hrun
    · exact h.completed hcompleted
    · simp [isCompletable, hrun]

theorem Settled.trans {s'' : Store} (h : Settled s s') (h' : Settled s' s'') : Settled s s'' := by
  obtain ⟨f, rfl, hf⟩ := h
  obtain ⟨g, rfl, hg⟩ := h'
  refine ⟨g ∘ f, by simp, fun turn hturn => ?_⟩
  exact (hf turn hturn).trans (hg (f turn) (List.mem_map_of_mem hturn)) rfl

/-- No row of the Turn is unsettled. -/
def Ended (s : Store) (turn : DiscussionTurn) : Prop :=
  ∀ row ∈ s.turns, row.turnId = turn.turnId → row.state.isTerminal

variable {discussion discussion : DiscussionRecord} {env env : Env} {now : Time} {run : RunRecord}
  {runId : RunId} {turn : DiscussionTurn} {wave wave : DiscussionWave} {turns : List DiscussionTurn}
  {quorumSeal : DiscussionWaveSeal} {outcome : TurnOutcome}

/-- One Turn of a terminal Run settled. -/
theorem settled_settleTurn (hwell : s.WellFormed)
    (hrun : s.core.getRun runId = some run) (hturn : s.findTurnByRun runId = some turn)
    (hcompleted : outcome.state = .completed → run.state = .completed) :
    Settled s (s.settleTurn turn.turnId outcome now) := by
  refine ⟨_, rfl, fun row hrow => ?_⟩
  dsimp only
  split
  · rename_i hguard
    have hmem := List.mem_of_find?_eq_some hturn
    have hsame : row = turn := List.inj_on_of_nodup_map hwell.turnIds hrow hmem hguard.1
    have hbound : turn.runId = some runId := by simpa using List.find?_some hturn
    refine ⟨Store.unsettled_moves (by simpa using hguard.2) ⟨rfl, rfl, rfl, rfl, rfl⟩, rfl, fun h => ?_⟩
    have hstate : run.state = .completed := hcompleted h
    simp [isCompletable, hsame, hbound, hrun, hstate]
  · exact .refl s row

theorem settled_awaitDisclosure {turnId : TurnId} : Settled s (s.awaitDisclosure turnId now) := by
  refine ⟨_, rfl, fun row hrow => ?_⟩
  dsimp only
  split
  · rename_i hguard
    simp only [decide_eq_true_eq, Bool.not_eq_true] at hguard
    exact ⟨Store.unsettled_moves hguard.2.1 ⟨rfl, rfl, rfl, rfl, rfl⟩, rfl, fun h => by cases h⟩
  · exact .refl s row

/-! ## What a settlement keeps -/

section Kept

variable {s s' : Store}

section

variable (h : Settled s s')
include h

theorem Settled.tables :
    s'.core = s.core ∧ s'.discussions = s.discussions ∧ s'.waves = s.waves := by
  obtain ⟨f, rfl, -⟩ := h
  exact ⟨rfl, rfl, rfl⟩

theorem Settled.get (discussionId : DiscussionId) : s'.get discussionId = s.get discussionId := by
  obtain ⟨f, rfl, -⟩ := h
  rfl

theorem Settled.getWave (waveId : WaveId) : s'.getWave waveId = s.getWave waveId := by
  obtain ⟨f, rfl, -⟩ := h
  rfl

theorem Settled.wellFormed (hwell : s.WellFormed) : s'.WellFormed := by
  obtain ⟨f, rfl, hf⟩ := h
  have hids : (s.turns.map f).map turnId = s.turns.map turnId := by
    rw [List.map_map]
    exact List.map_congr_left fun turn hturn => (hf turn hturn).turnId
  have hnodup : ((s.turns.map f).map turnId).Nodup := hids ▸ hwell.turnIds
  refine ⟨hnodup, hwell.waveIds, hwell.discussionIds, fun turn' hturn' => ?_⟩
  obtain ⟨turn, hturn, rfl⟩ := List.mem_map.mp hturn'
  rw [(hf turn hturn).waveId, (hf turn hturn).discussionId]
  exact hwell.linked turn hturn

/-- Every row after a settlement is what became of one before it. -/
theorem Settled.origin (hturn' : turn' ∈ s'.turns) :
    ∃ turn ∈ s.turns, SettleMoves s turn turn' := by
  obtain ⟨f, rfl, hf⟩ := h
  obtain ⟨turn, hturn, rfl⟩ := List.mem_map.mp hturn'
  exact ⟨turn, hturn, hf turn hturn⟩

/-- A settled Turn is settled afterwards. -/
theorem Settled.terminal (hwell : s.WellFormed) (hturn : turn ∈ s.turns)
    (hterminal : turn.state.isTerminal) : Ended s' turn := by
  intro row hrow hid
  obtain ⟨origin, horigin, hmoves⟩ := h.origin hrow
  have hsame : origin = turn :=
    List.inj_on_of_nodup_map hwell.turnIds horigin hturn (hmoves.turnId.symm.trans hid)
  rw [hmoves.settled (hsame ▸ hterminal), hsame]
  exact hterminal

theorem Settled.findTurnByRun {runId : RunId} (hturn : s.findTurnByRun runId = some turn) :
    ∃ turn', s'.findTurnByRun runId = some turn' ∧ SettleMoves s turn turn' := by
  obtain ⟨f, rfl, hf⟩ := h
  refine ⟨f turn, ?_, hf turn (List.mem_of_find?_eq_some hturn)⟩
  have hfind : (s.turns.map f).find? (fun row => row.runId = some runId) =
      (s.turns.find? fun row => row.runId = some runId).map f := by
    rw [List.find?_map, ← List.head?_filter, ← List.head?_filter]
    congr 2
    exact List.filter_congr fun row hrow => by simp [(hf row hrow).runId]
  exact hfind.trans (congrArg (Option.map f) hturn)

/-- How many members of a Wave completed, traced back. -/
theorem Settled.countP_completed (waveId : WaveId) :
    (s'.listTurnsForWave waveId).countP (fun turn => turn.state = .completed) ≤
      (s.listTurnsForWave waveId).countP (isCompletable s) := by
  obtain ⟨f, rfl, hf⟩ := h
  unfold Store.listTurnsForWave
  rw [(List.perm_insertionSort _ _).countP_eq, (List.perm_insertionSort _ _).countP_eq]
  simp only [Table.select, List.countP_filter, List.countP_map]
  refine List.countP_mono_left fun turn hturn hp => ?_
  simp only [Function.comp, Bool.and_eq_true, decide_eq_true_eq] at hp ⊢
  exact ⟨(hf turn hturn).completed hp.1, (hf turn hturn).waveId ▸ hp.2⟩

end

end Kept

/-! ## `settle` -/

theorem sharedOutcome_state {core : Run.Database} :
    (sharedOutcome P core run turn).state.isTerminal ∧
      ((sharedOutcome P core run turn).state = .completed → run.state = .completed) := by
  unfold sharedOutcome
  simp only
  split
  · rename_i output houtput
    refine ⟨rfl, fun _ => ?_⟩
    split at houtput
    · assumption
    · cases houtput
  · dsimp only
    split
    · exact ⟨rfl, nofun⟩
    · exact ⟨rfl, nofun⟩

theorem privateOutcome_state
    (h : privateOutcome P env s discussion wave run turn now = some outcome)
    (hcompleted : outcome.state = .completed) : run.state = .completed := by
  unfold privateOutcome at h
  simp only at h
  split at h
  · rename_i released hreleased
    split at hreleased
    · rename_i hguard
      exact hguard.2.2.1
    · cases hreleased
  · split at h
    · cases h
    · cases h
      dsimp only at hcompleted
      split at hcompleted <;> cases hcompleted

/-- What `settleRun` does with the Turn of a Run. -/
theorem settleRun_ok (hwell : s.WellFormed) (hrun : s.core.getRun runId = some run)
    (hturn : s.findTurnByRun runId = some turn) (h : settleRun P env run turn now s = .ok s') :
    s.OnlyTurns s' ∧ Settled s s' ∧ (isOwnerPrivateOutput s.core run.runId = false → Ended s' turn) := by
  unfold settleRun at h
  split at h
  · rename_i hprivate
    split at h
    · cases h
      unfold settlePrivate
      refine ⟨?_, ?_, fun hshared => by simp [hshared] at hprivate⟩
      · split
        · exact Store.onlyTurns_awaitDisclosure
        · exact Store.onlyTurns_settleTurn
      split
      · exact settled_awaitDisclosure
      · rename_i outcome houtcome
        exact settled_settleTurn hwell hrun hturn (privateOutcome_state houtcome)
    · cases h
  · cases h
    refine ⟨Store.onlyTurns_settleTurn, settled_settleTurn hwell hrun hturn sharedOutcome_state.2,
      fun _ row hrow hid => ?_⟩
    obtain ⟨origin, -, rfl⟩ := List.mem_map.mp hrow
    dsimp only at hid ⊢
    split
    · exact sharedOutcome_state.1
    · rename_i hguard
      rw [if_neg hguard] at hid
      simpa [hid] using hguard

/-- What `settle` leaves and returns. -/
structure SettleResult (s s' : Store) (runId : RunId) (result : Option WaveSettlement) : Prop where
  settled : Settled s s'
  ended : ∀ turn, s.findTurnByRun runId = some turn → turn.isSettleable s → Ended s' turn
  returned : ∀ settlement, result = some settlement → ∃ turn,
    s.findTurnByRun runId = some turn ∧
      settlement = ⟨turn.discussionId, s'.getWave turn.waveId, s'.listTurnsForWave turn.waveId⟩

theorem isSettleable_iff (h : turn.runId = some runId) : turn.isSettleable s ↔
      (∃ run, s.core.getRun runId = some run ∧ run.state.isTerminal) ∧
        isOwnerPrivateOutput s.core runId = false ∧ s.findTurnByRun runId = some turn := by
  simp [isSettleable, h, Option.any_eq_true]

theorem emits_settle (hwell : w.store.WellFormed) :
    Emits Moves w (settle P env runId now) fun result w' => ∃ s', w' = { w with store := s' } ∧
      SettleResult w.store s' runId result := by
  have hnothing : (∀ run turn, w.store.core.getRun runId = some run →
      w.store.findTurnByRun runId = some turn → run.state.isTerminal = false) →
      ∃ s', w = { w with store := s' } ∧ SettleResult w.store s' runId none := by
    intro hnone
    refine ⟨w.store, rfl, .refl _, fun turn hturn hsettleable => ?_, nofun⟩
    have hbound : turn.runId = some runId := by simpa using List.find?_some hturn
    obtain ⟨⟨run, hrun, hterminal⟩, -⟩ := (isSettleable_iff hbound).mp hsettleable
    rw [hnone run turn hrun hturn] at hterminal
    cases hterminal
  unfold settle
  refine emits_query ?_
  simp only [id_eq]
  split
  · rename_i run turn hrun hturn
    split
    · refine .bind (P := fun _ t => ∃ s', t = { w with store := s' } ∧ Settled w.store s' ∧
          (isOwnerPrivateOutput w.store.core run.runId = false → Ended s' turn))
        (emits_transact fun _ s' h => ?_) ?_
      · cases hresult : settleRun P env run turn now w.store with
        | error e => simp [hresult, Except.map] at h
        | ok settled =>
          simp only [hresult, Except.map, Except.ok.injEq, Prod.mk.injEq] at h
          obtain ⟨-, rfl⟩ := h
          obtain ⟨honly, hsettled, hended⟩ := settleRun_ok hwell hrun hturn hresult
          exact ⟨.single (moves_of_onlyTurns honly), _, rfl, hsettled, hended⟩
      · rintro _ t - ⟨s', rfl, hsettled, hended⟩
        refine emits_query (.pure ⟨s', rfl, hsettled, ?_, ?_⟩)
        · intro other hother hsettleable
          obtain rfl : turn = other := Option.mem_unique hturn hother
          have hbound : turn.runId = some runId := by simpa using List.find?_some hturn
          have hid : run.runId = runId := Table.lookup_key hrun
          exact hended (hid ▸ ((isSettleable_iff hbound).mp hsettleable).2.1)
        · rintro settlement ⟨⟩
          exact ⟨turn, hturn, rfl⟩
    · rename_i hrunning
      refine .pure (hnothing fun other _ hother _ => ?_)
      rw [← Option.mem_unique hrun hother]
      simpa using hrunning
  · rename_i hmissing
    exact .pure (hnothing fun run turn hrun hturn => (hmissing run turn hrun hturn).elim)

/-! ## The other members of a Wave -/

theorem Settled.settleable (h : Settled s s') (hmoves : SettleMoves s turn turn')
    (hwell : s.WellFormed) (hturn' : turn' ∈ s'.turns) (hsettleable : turn.isSettleable s) :
    turn'.isSettleable s' := by
  cases hbound : turn.runId with
  | none => simp [isSettleable, hbound] at hsettleable
  | some runId =>
    obtain ⟨hrun, hshared, hfound⟩ := (isSettleable_iff hbound).mp hsettleable
    obtain ⟨found, hfound', hmoves'⟩ := h.findTurnByRun hfound
    have hsame : found = turn' := List.inj_on_of_nodup_map (h.wellFormed hwell).turnIds
      (List.mem_of_find?_eq_some hfound') hturn' (hmoves'.turnId.trans hmoves.turnId.symm)
    have hcore := h.tables.1
    exact (isSettleable_iff (hmoves.runId.trans hbound)).mpr
      ⟨hcore ▸ hrun, hcore ▸ hshared, hsame ▸ hfound'⟩

theorem emits_settleMember (hs : s.WellFormed) (hsettled : Settled s w.store)
    (hturn : turn ∈ s.turns) :
    Emits Moves w (reconcileTerminalWaveTurns.settleMember P env turn) fun _ w' =>
      ∃ s', w' = { w with store := s' } ∧ Settled w.store s' ∧
        (turn.isSettleable s → Ended s' turn) := by
  unfold reconcileTerminalWaveTurns.settleMember
  refine emits_query ?_
  simp only [id_eq]
  have hcore := hsettled.tables.1
  by_cases hterminal : turn.state.isTerminal
  · rw [if_pos hterminal]
    exact .pure ⟨w.store, rfl, .refl _, fun _ => hsettled.terminal hs hturn hterminal⟩
  rw [if_neg hterminal]
  cases hbound : turn.runId with
  | none =>
    refine .pure ⟨w.store, rfl, .refl _, fun hsettleable => ?_⟩
    simp [isSettleable, hbound] at hsettleable
  | some runId =>
    simp only [Option.bind_some]
    cases hrun : w.store.core.getRun runId with
    | none =>
      refine .pure ⟨w.store, rfl, .refl _, fun hsettleable => ?_⟩
      obtain ⟨⟨run, hfound, -⟩, -⟩ := (isSettleable_iff hbound).mp hsettleable
      rw [hcore, hfound] at hrun
      cases hrun
    | some run =>
      simp only [System.when]
      split
      · refine .bind (emits_settle (hsettled.wellFormed hs)) ?_
        rintro _ t - ⟨s', rfl, hresult⟩
        refine .pure ⟨s', rfl, hresult.settled, fun hsettleable row hrow hid => ?_⟩
        have hrunId : run.runId = runId := Table.lookup_key hrun
        obtain ⟨-, -, hfound⟩ := (isSettleable_iff hbound).mp hsettleable
        obtain ⟨turn', hturn', hmoves⟩ := hsettled.findTurnByRun hfound
        refine hresult.ended turn' (hrunId ▸ hturn') ?_ row hrow (hid.trans hmoves.turnId.symm)
        exact hsettled.settleable hmoves hs (List.mem_of_find?_eq_some hturn') hsettleable
      · rename_i hrunning
        refine .pure ⟨w.store, rfl, .refl _, fun hsettleable => ?_⟩
        obtain ⟨⟨other, hfound, hended⟩, -⟩ := (isSettleable_iff hbound).mp hsettleable
        rw [hcore, hfound] at hrun
        rw [← Option.some.inj hrun] at hrunning
        exact absurd hended hrunning

theorem emits_settleMembers (hs : s.WellFormed) (hsettled : Settled s w.store)
    (hturns : ∀ turn ∈ turns, turn ∈ s.turns) :
    Emits Moves w (Env.collect (reconcileTerminalWaveTurns.settleMember P) env turns) fun _ w' =>
      ∃ s', w' = { w with store := s' } ∧ Settled w.store s' ∧
        ∀ turn ∈ turns, turn.isSettleable s → Ended s' turn := by
  induction turns generalizing w env with
  | nil => exact .pure ⟨w.store, rfl, .refl _, by simp⟩
  | cons turn rest ih =>
    refine .bind (emits_settleMember hs hsettled (hturns turn (List.mem_cons_self ..))) ?_
    rintro _ t - ⟨s₁, rfl, hfirst, hended⟩
    refine .bind (ih (hsettled.trans hfirst) fun other hother =>
      hturns other (List.mem_cons_of_mem _ hother)) ?_
    rintro _ t - ⟨s₂, rfl, hrest, hothers⟩
    refine .pure ⟨s₂, rfl, hfirst.trans hrest, fun other hother hsettleable row hrow hid => ?_⟩
    rcases List.mem_cons.mp hother with rfl | hother
    · obtain ⟨between, hbetween, hmoves⟩ := hrest.origin hrow
      have hterminal := hended hsettleable between hbetween (hmoves.turnId.symm.trans hid)
      rw [hmoves.settled hterminal]
      exact hterminal
    · exact hothers other hother hsettleable row hrow hid

/-! ## `onRunTerminal` -/

theorem mem_listTurnsForWave {waveId : WaveId} :
    turn ∈ s.listTurnsForWave waveId ↔ turn ∈ s.turns ∧ turn.waveId = waveId := by
  simp [Store.listTurnsForWave, Table.select]

theorem quorumSealIfReady_some
    (h : quorumSealIfReady P env s discussion wave turns = some quorumSeal) :
    discussion.policy.waveCompletionMode = .readOnlyQuorum ∧ wave.phase ≠ .finalization ∧
      wave.state = .opened ∧ quorumSoftDeadline discussion wave ≤ env.now ∧
      discussion.policy.quorumMinimumCompleted ≤
        turns.countP fun turn => turn.state = .completed := by
  unfold quorumSealIfReady at h
  split at h
  · cases h
  rename_i hguard
  simp only [not_or, not_not, not_lt] at hguard
  obtain ⟨hmode, hphase, hopened, hdue⟩ := hguard
  simp only at h
  split at h
  · cases h
  rename_i henough
  simp only [not_or, not_lt] at henough
  refine ⟨hmode, hphase, hopened, hdue, henough.1.trans ?_⟩
  rw [List.length_insertionSort, List.length_filterMap_eq_countP]
  refine List.countP_mono_left fun turn _ hturn => ?_
  unfold acceptedMember at hturn
  split at hturn
  · rename_i hstate _ _ _
    simp [hstate]
  · cases hturn

/-- A Wave of a finished Discussion that a quorum seals could be seen to reopen at the entry. -/
theorem reopens_of_quorum {s s' : Store} (hsettled : Settled s s')
    (hterminal : discussion.state.isTerminal)
    (hrunning : ∀ turn ∈ s.turns, turn.waveId = wave.waveId → turn.isSettleable s → Ended s' turn)
    (hopen : ¬ ((s'.listTurnsForWave wave.waveId).all fun turn => turn.state.isTerminal))
    (hseal : quorumSealIfReady P ((env.part 2).part 1) s' discussion wave
      (s'.listTurnsForWave wave.waveId) = some quorumSeal) : Reopens env s discussion wave := by
  obtain ⟨hmode, hphase, hopened, hdue, hcompleted⟩ := quorumSealIfReady_some hseal
  refine ⟨hterminal, hmode, hopened, hphase, hdue,
    hcompleted.trans (hsettled.countP_completed wave.waveId), ?_⟩
  simp only [List.all_eq_true, not_forall] at hopen
  obtain ⟨row, hrow, hlive⟩ := hopen
  obtain ⟨hmem, hwave⟩ := mem_listTurnsForWave.mp hrow
  obtain ⟨turn, hturn, hmoves⟩ := hsettled.origin hmem
  have hturnWave : turn.waveId = wave.waveId := hmoves.waveId.symm.trans hwave
  refine ⟨turn, mem_listTurnsForWave.mpr ⟨hturn, hturnWave⟩, ?_, ?_⟩
  · by_contra hterminal
    have hsame := hmoves.settled (by simpa using hterminal)
    exact hlive (by rw [hsame]; simpa using hterminal)
  · by_contra hsettleable
    exact hlive (hrunning turn hturn hturnWave (by simpa using hsettleable) row hmem hmoves.turnId)

theorem emits_advanceAfterSettlement {reconcile : Reconcile} (hreconcile : reconcile.Sound)
    {turns : List DiscussionTurn} (hv : w.Valid)
    (hget : w.store.get discussion.discussionId = some discussion)
    (hwave : w.store.getWave wave.waveId = some wave)
    (hown : wave.discussionId = discussion.discussionId)
    (hreopens : ∀ quorumSeal, ¬ (turns.all fun turn => turn.state.isTerminal) →
      quorumSealIfReady P (env.part 1) w.store discussion wave turns = some quorumSeal →
      discussion.state.isTerminal → Excused w) :
    Steps Moves w (advanceAfterSettlement P reconcile env discussion wave turns) := by
  unfold advanceAfterSettlement
  refine emits_query ?_
  split
  · exact emits_advanceReadyWave hreconcile hv hget hwave hown
  rename_i hrunning
  simp only [id_eq]
  cases hseal : quorumSealIfReady P (env.part 1) w.store discussion wave turns with
  | none => exact .pure trivial
  | some quorumSeal =>
    refine emits_advanceSettledWave hreconcile hv hget hwave (quorumSealIfReady_some hseal).2.1 ?_
    by_cases hterminal : discussion.state.isTerminal
    · exact .inr (hreopens quorumSeal hrunning hseal hterminal)
    · exact .inl (by simpa using hterminal)

/-- The members a call goes on with: as `settle` left them, or settled further in a quorum. -/
theorem emits_membersAfterSettlement {result : Option WaveSettlement} (hs : s.WellFormed)
    (hsettle : SettleResult s w.store runId result) (hwave : wave.waveId = turn.waveId) :
    Emits Moves w (if discussion.policy.waveCompletionMode = .readOnlyQuorum then
        reconcileTerminalWaveTurns P env wave (w.store.listTurnsForWave turn.waveId)
      else pure (w.store.listTurnsForWave turn.waveId)) fun turns w' =>
      ∃ s', w' = { w with store := s' } ∧ Settled s s' ∧ turns = s'.listTurnsForWave wave.waveId ∧
        (discussion.policy.waveCompletionMode = .readOnlyQuorum → ∀ member ∈ s.turns,
          member.waveId = wave.waveId → member.isSettleable s → Ended s' member) := by
  split
  · unfold reconcileTerminalWaveTurns
    refine .bind (emits_settleMembers (hsettle.settled.wellFormed hs) (.refl _)
      fun member hmember => (mem_listTurnsForWave.mp hmember).1) ?_
    rintro _ t - ⟨s', rfl, hsettled, hended⟩
    refine .read ⟨s', rfl, hsettle.settled.trans hsettled, rfl, ?_⟩
    intro _ member hmember hmemberWave hsettleable row hrow hid
    obtain ⟨between, hbetween, hmoves⟩ := hsettled.origin hrow
    obtain ⟨origin, horigin, hfirst⟩ := hsettle.settled.origin hbetween
    have hsame : origin = member := List.inj_on_of_nodup_map hs.turnIds horigin hmember
      (hfirst.turnId.symm.trans (hmoves.turnId.symm.trans hid))
    subst hsame
    have hlisted : between ∈ w.store.listTurnsForWave turn.waveId :=
      mem_listTurnsForWave.mpr ⟨hbetween, hfirst.waveId.trans (hmemberWave.trans hwave)⟩
    exact hended between hlisted
      (hsettle.settled.settleable hfirst hs hbetween hsettleable) row hrow
      hmoves.turnId
  · rename_i hmode
    exact .pure ⟨w.store, rfl, hsettle.settled, by rw [hwave], fun h => absurd h hmode⟩

theorem emits_onRunTerminal (depth : Nat) (hv : w.Valid) :
    Steps Moves w (onRunTerminal P depth env runId) := by
  unfold onRunTerminal onRunTerminalWithinTransaction
  refine .atomic (.bind (emits_enter (R := fun _ w' => w' =
    { w with entries := w.entries ++ [Entry.settling env runId w.store] }) rfl) ?_)
  rintro _ entered hentered rfl
  refine .bind (emits_settle hv.wellFormed) ?_
  rintro settlement _ hsettling ⟨s₁, rfl, hsettle⟩
  cases settlement with
  | none => exact .pure trivial
  | some settlement =>
    obtain ⟨turn, hturn, rfl⟩ := hsettle.returned settlement rfl
    refine emits_require fun discussion hget hid => ?_
    simp only
    cases hwave : s₁.getWave turn.waveId with
    | none => exact .pure trivial
    | some wave =>
      simp only
      split
      · exact .pure trivial
      have hkey : wave.waveId = turn.waveId := Table.lookup_key hwave
      rw [Program.ite_bind]
      refine .bind (emits_membersAfterSettlement
        (w := ⟨s₁, w.entries ++ [.settling env runId w.store]⟩) hv.wellFormed hsettle hkey) ?_
      rintro turns _ hmembers ⟨s₂, rfl, hsettled, rfl, hended⟩
      refine .returning (emits_advanceAfterSettlement (reconcileDiscussion_sound depth)
        (hv.run (hentered.trans (hsettling.trans hmembers))) ?_ ?_ ?_ ?_)
      · rw [hsettled.get, hid, ← hsettle.settled.get]
        exact hget
      · rw [hsettled.getWave, hkey, ← hsettle.settled.getWave]
        exact hwave
      · rw [hid]
        exact hv.wellFormed.wave_discussion (List.mem_of_find?_eq_some hturn)
          (hsettle.settled.getWave _ ▸ hwave)
      · intro quorumSeal hrunning hseal hterminal
        refine ⟨.settling env runId w.store, by simp, fun hlawful => ?_⟩
        refine hlawful turn hturn discussion (hsettle.settled.get _ ▸ hget) wave
          (hsettle.settled.getWave _ ▸ hwave) ?_
        exact reopens_of_quorum hsettled hterminal (hended (quorumSealIfReady_some hseal).1) hrunning
          hseal

end ConveneWire.Discussion
