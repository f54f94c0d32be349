import ConveneWire.Discussion.Aggregate

/-! # What the steps of a Discussion keep

One invariant for every reachable Discussion: its ledger adds up, its Waves and
Turns are numbered without gaps, at most one Wave is open, no Agent speaks
twice at once, and Waves are planned within the budget. -/

namespace ConveneWire.Discussion

open OrdinalLog
open DiscussionWave (ordinal)

section

variable (waves : List DiscussionWave)

/-- The Waves that are charged to the regular budget. -/
def contributions : Nat :=
  waves.countP fun wave => wave.phase ≠ .finalization

def finalizations : Nat :=
  waves.countP fun wave => wave.phase = .finalization

def openWaves : Nat :=
  waves.countP fun wave => wave.state = .opened

end

/-- The invariant of a Discussion that exists. -/
structure Aggregate.Sound (a : Aggregate) (record : DiscussionRecord) : Prop where
  policy : record.policy.Bounded
  terminalAt : record.state.isTerminal → record.terminalAt.isSome
  eventOrdinals : Consecutive DiscussionBudgetEvent.ordinal a.budgetEvents
  ledger : record.budget.usage =
    a.budgetEvents.foldl BudgetSnapshot.charge (emptyBudgetSnapshot 0)
  waveOrdinals : Consecutive ordinal a.waves
  waveCount : a.waves.length = record.currentWave
  turnOrdinals : Consecutive DiscussionTurn.ordinal a.turns
  turnCount : a.turns.length = record.currentTurn
  oneOpen : openWaves a.waves ≤ 1
  agents : (runningAgents a.turns).Nodup
  lease : record.budget.turnsUsed ≤ record.budget.leaseEndTurn
  regular : record.budget.turnsUsed ≤ record.policy.regularTurnLimit
  /-- An open contribution Wave can still be paid for. -/
  payable : ∀ wave ∈ a.waves, wave.state = .opened → wave.phase ≠ .finalization →
    record.budget.turnsUsed < record.budget.leaseEndTurn ∧
      record.budget.turnsUsed < record.policy.regularTurnLimit
  paid : contributions a.waves ≤ record.budget.turnsUsed ∨
    contributions a.waves = record.budget.turnsUsed + 1 ∧
      record.budget.turnsUsed < record.policy.regularTurnLimit
  /-- While a Discussion waits for a decision, every Wave is paid for. -/
  idle : record.state.isTerminal = false → (∀ wave ∈ a.waves, wave.state ≠ .opened) →
    contributions a.waves ≤ record.budget.turnsUsed
  once : finalizations a.waves ≤ 1
  /-- After the finalization Wave is planned nothing else is open. -/
  last : (∃ wave ∈ a.waves, wave.phase = .finalization) →
    (record.state = .finalizing ∨ record.state.isTerminal) ∧
      ∀ wave ∈ a.waves, wave.state = .opened → wave.phase = .finalization

/-- The invariant of the rows of one identifier; without a Discussion there are none. -/
structure Aggregate.Valid (a : Aggregate) : Prop where
  absent : a.record = none → a.waves = [] ∧ a.turns = [] ∧ a.budgetEvents = []
  sound : ∀ record, a.record = some record → a.Sound record

/-! ## Rows that move -/

variable {plan : WavePlan} {before after : BudgetSnapshot} {wave : DiscussionWave}

section Rows

variable {f : DiscussionTurn → DiscussionTurn} {g : DiscussionWave → DiscussionWave}
  {turns : List DiscussionTurn} {waves : List DiscussionWave}

theorem countP_phase_map (p : WavePhase → Bool) (hg : ∀ wave ∈ waves, WaveMoves wave (g wave)) :
    (waves.map g).countP (fun wave => p wave.phase) = waves.countP fun wave => p wave.phase := by
  rw [List.countP_map]
  refine List.countP_congr fun wave hwave => ?_
  simp [(hg wave hwave).phase]

theorem contributions_map (hg : ∀ wave ∈ waves, WaveMoves wave (g wave)) :
    contributions (waves.map g) = contributions waves :=
  countP_phase_map (fun phase => phase ≠ .finalization) hg

theorem finalizations_map (hg : ∀ wave ∈ waves, WaveMoves wave (g wave)) :
    finalizations (waves.map g) = finalizations waves :=
  countP_phase_map (fun phase => phase = .finalization) hg

/-- A Wave that is open after a move was open before it. -/
theorem WaveMoves.opened {wave' : DiscussionWave} (h : WaveMoves wave wave')
    (hopen : wave'.state = .opened) : wave.state = .opened := by
  by_contra hclosed
  exact hclosed (h.closed hclosed ▸ hopen)

theorem openWaves_map (hg : ∀ wave ∈ waves, WaveMoves wave (g wave)) :
    openWaves (waves.map g) ≤ openWaves waves := by
  unfold openWaves
  rw [List.countP_map]
  refine List.countP_mono_left fun wave hwave hopen => ?_
  simpa using (hg wave hwave).opened (by simpa using hopen)

theorem waveOrdinals_map (hg : ∀ wave ∈ waves, WaveMoves wave (g wave))
    (h : Consecutive ordinal waves) : Consecutive ordinal (waves.map g) :=
  h.map fun wave hwave => (hg wave hwave).ordinal

theorem turnOrdinals_map (hf : ∀ turn ∈ turns, TurnMoves turn (f turn))
    (h : Consecutive DiscussionTurn.ordinal turns) :
    Consecutive DiscussionTurn.ordinal (turns.map f) :=
  h.map fun turn hturn => (hf turn hturn).ordinal

/-- Turns only stop running. -/
theorem runningAgents_map (hf : ∀ turn ∈ turns, TurnMoves turn (f turn)) :
    (runningAgents (turns.map f)).Sublist (runningAgents turns) := by
  induction turns with
  | nil => exact .slnil
  | cons turn rest ih =>
    have hturn := hf turn (List.mem_cons_self ..)
    have hrest := ih fun other hother => hf other (List.mem_cons_of_mem _ hother)
    unfold runningAgents at hrest ⊢
    simp only [List.map_cons, List.filter_cons]
    by_cases hsettled : turn.state.isTerminal
    · rw [hturn.settled hsettled]
      simpa [hsettled] using hrest
    · by_cases hsettled' : (f turn).state.isTerminal
      · simpa [hsettled, hsettled'] using hrest.cons _
      · simpa [hsettled, hsettled', hturn.speaker] using hrest

theorem runningAgents_append {more : List DiscussionTurn} :
    runningAgents (turns ++ more) = runningAgents turns ++ runningAgents more := by
  simp [runningAgents]

theorem runningAgents_subset_speakers :
    (runningAgents turns).Sublist (turns.map DiscussionTurn.speakerAgentId) :=
  List.filter_sublist.map _

/-- The Agents of a plan join those already running. -/
theorem WavePlan.Follows.agents {record : DiscussionRecord}
    (h : plan.Follows record turns) (hrunning : (runningAgents turns).Nodup) :
    (runningAgents (turns ++ plan.turns)).Nodup := by
  rw [runningAgents_append]
  refine List.nodup_append.mpr ⟨hrunning, h.nodup.sublist runningAgents_subset_speakers, ?_⟩
  rintro agent hagent other hother rfl
  obtain ⟨turn, hturn, rfl⟩ := List.mem_map.mp (runningAgents_subset_speakers.subset hother)
  exact h.free turn hturn hagent

end Rows

/-! ## One step -/

theorem eventOrdinals_charges {events : List DiscussionBudgetEvent}
    {more : List DiscussionBudgetEvent} (h : Consecutive DiscussionBudgetEvent.ordinal events)
    (hmore : Charges events.length before more after) :
    Consecutive DiscussionBudgetEvent.ordinal (events ++ more) :=
  h.append_range hmore.ordinals

theorem ledger_charges {events more : List DiscussionBudgetEvent}
    (h : before.usage = events.foldl BudgetSnapshot.charge (emptyBudgetSnapshot 0))
    (hmore : Charges events.length before more after) :
    after.usage = (events ++ more).foldl BudgetSnapshot.charge (emptyBudgetSnapshot 0) := by
  rw [hmore.usage, BudgetSnapshot.usage_foldl, h, List.foldl_append]

namespace Aggregate

variable {a : Aggregate} {record record' : DiscussionRecord}

theorem sound_created {event : DiscussionBudgetEvent} (absent : a.record = none)
    (fresh : record.Fresh event) (h : a.Valid) :
    ({ a with record := some record, budgetEvents := a.budgetEvents ++ [event] }
      : Aggregate).Sound record := by
  obtain ⟨hwaves, hturns, hevents⟩ := h.absent absent
  have hused : record.budget.turnsUsed = 0 := by rw [fresh.budget]; rfl
  constructor
  · exact fresh.policy
  · intro hterminal
    rw [fresh.state] at hterminal
    cases hterminal
  · simp [hevents, Consecutive, fresh.ordinal]
  · simp [hevents, BudgetSnapshot.charge, fresh.eventType, fresh.turns, fresh.budget,
      emptyBudgetSnapshot, BudgetSnapshot.usage]
  · simp [hwaves, Consecutive]
  · simp [hwaves, fresh.wave]
  · simp [hturns, Consecutive]
  · simp [hturns, fresh.turn]
  · simp [hwaves, openWaves]
  · simp [hturns, runningAgents]
  · omega
  · omega
  · simp [hwaves]
  · simp [hwaves, contributions]
  · simp [hwaves, contributions]
  · simp [hwaves, finalizations]
  · simp [hwaves]

variable {events : List DiscussionBudgetEvent} {g : DiscussionWave → DiscussionWave}

/-- Waves move; one that closes does so in a finished Discussion. -/
theorem Sound.moved (waves : ∀ wave ∈ a.waves, WaveMoves wave (g wave))
    (closing : (∀ wave ∈ a.waves, (g wave).state = wave.state) ∨ record.state.isTerminal)
    (h : a.Sound record) : ({ a with waves := a.waves.map g } : Aggregate).Sound record where
  __ := h
  waveOrdinals := waveOrdinals_map waves h.waveOrdinals
  waveCount := by simpa using h.waveCount
  oneOpen := (openWaves_map waves).trans h.oneOpen
  payable := by
    intro wave' hwave' hopen hphase
    obtain ⟨wave, hwave, rfl⟩ := List.mem_map.mp hwave'
    rw [(waves wave hwave).phase] at hphase
    exact h.payable wave hwave ((waves wave hwave).opened hopen) hphase
  paid := by
    rw [contributions_map waves]
    exact h.paid
  idle := by
    intro hunfinished hnone
    rw [contributions_map waves]
    refine h.idle hunfinished fun wave hwave hopen => ?_
    rcases closing with hsame | hterminal
    · exact hnone (g wave) (List.mem_map_of_mem hwave) (by rw [hsame wave hwave, hopen])
    · rw [hunfinished] at hterminal
      cases hterminal
  once := by
    rw [finalizations_map waves]
    exact h.once
  last := by
    rintro ⟨wave', hwave', hphase⟩
    obtain ⟨wave, hwave, rfl⟩ := List.mem_map.mp hwave'
    rw [(waves wave hwave).phase] at hphase
    obtain ⟨hstate, honly⟩ := h.last ⟨wave, hwave, hphase⟩
    refine ⟨hstate, fun other' hother' hopen => ?_⟩
    obtain ⟨other, hother, rfl⟩ := List.mem_map.mp hother'
    rw [(waves other hother).phase]
    exact honly other hother ((waves other hother).opened hopen)

theorem sound_rows {f : DiscussionTurn → DiscussionTurn}
    (turns : ∀ turn ∈ a.turns, TurnMoves turn (f turn))
    (waves : ∀ wave ∈ a.waves, WaveMoves wave (g wave))
    (closing : (∀ wave ∈ a.waves, (g wave).state = wave.state) ∨ record.state.isTerminal)
    (h : a.Sound record) :
    ({ a with turns := a.turns.map f, waves := a.waves.map g } : Aggregate).Sound record where
  __ := h.moved waves closing
  turnOrdinals := turnOrdinals_map turns h.turnOrdinals
  turnCount := by simpa using h.turnCount
  agents := h.agents.sublist (runningAgents_map turns)

theorem sound_amended (unfinished : record.state.isTerminal = false) (row : RowMoves record record')
    (plans : Plans a.turns record record' none)
    (finalizing : record.state = .finalizing → record'.state.isTerminal)
    (used : record'.budget.turnsUsed = record.budget.turnsUsed)
    (charges : Charges a.budgetEvents.length record.budget events record'.budget)
    (h : a.Sound record) :
    ({ a with record := some record', budgetEvents := a.budgetEvents ++ events }
      : Aggregate).Sound record' := by
  cases plans with
  | nothing wave turn state =>
    have hlease := row.lease
    refine { h with
      policy := row.policy ▸ h.policy
      terminalAt := row.terminalAt
      eventOrdinals := eventOrdinals_charges h.eventOrdinals charges
      ledger := ledger_charges h.ledger charges
      waveCount := h.waveCount.trans wave.symm
      turnCount := h.turnCount.trans turn.symm
      lease := used ▸ h.lease.trans hlease
      regular := ?_, payable := ?_, paid := ?_
      idle := fun _ hnone => used ▸ h.idle unfinished hnone
      last := fun hfinal => ?_ }
    · rw [used, row.policy]
      exact h.regular
    · intro wave hwave hopen hphase
      obtain ⟨hlt, hregular⟩ := h.payable wave hwave hopen hphase
      rw [used, row.policy]
      exact ⟨hlt.trans_le hlease, hregular⟩
    · rw [used, row.policy]
      exact h.paid
    · obtain ⟨hstate, honly⟩ := h.last hfinal
      rcases hstate with hstate | hstate
      · exact ⟨.inr (finalizing hstate), honly⟩
      · rw [unfinished] at hstate
        cases hstate

/-- Planning the next Wave once nothing is open and everything is paid for. -/
theorem sound_next {waves : List DiscussionWave}
    (hwaves : Consecutive ordinal waves) (hcount : waves.length = record.currentWave)
    (hnone : ∀ wave ∈ waves, wave.state ≠ .opened)
    (hphases : ∀ wave ∈ waves, wave.phase ≠ .finalization)
    (hpaid : contributions waves ≤ record'.budget.turnsUsed)
    (hlease : record'.budget.turnsUsed ≤ record.budget.leaseEndTurn)
    (hregular : record'.budget.turnsUsed ≤ record.policy.regularTurnLimit)
    (row : RowMoves record record') (plans : Plans a.turns record record' (some plan))
    (charges : Charges a.budgetEvents.length record.budget events record'.budget)
    (h : a.Sound record) :
    Aggregate.Sound ⟨some record', waves ++ [plan.wave], a.turns ++ plan.turns,
      a.budgetEvents ++ events⟩ record' := by
  obtain ⟨follows, wave, turn⟩ : plan.Follows record a.turns ∧
      record'.currentWave = record.currentWave + 1 ∧
      record'.currentTurn = record.currentTurn + plan.turns.length := by
    cases plans with
    | contribution follows wave turn => exact ⟨follows, wave, turn⟩
    | finalization follows wave turn => exact ⟨follows, wave, turn⟩
  have hopened : openWaves waves = 0 := List.countP_eq_zero.mpr fun wave hw => by
    simpa using hnone wave hw
  have hfinals : finalizations waves = 0 := List.countP_eq_zero.mpr fun wave hw => by
    simpa using hphases wave hw
  have hmem : ∀ {wave}, wave ∈ waves ++ [plan.wave] → wave.state = .opened → wave = plan.wave := by
    intro wave hw hopen
    rcases List.mem_append.mp hw with hw | hw
    · exact absurd hopen (hnone wave hw)
    · exact List.mem_singleton.mp hw
  have hunfinished : record'.state.isTerminal = false := by
    cases plans with
    | contribution _ _ _ _ state => rw [state]; rfl
    | finalization _ _ _ _ state => rw [state]; rfl
  have hrow := row.lease
  constructor
  · exact row.policy ▸ h.policy
  · exact row.terminalAt
  · exact eventOrdinals_charges h.eventOrdinals charges
  · exact ledger_charges h.ledger charges
  · exact hwaves.snoc (by simp [follows.waveOrdinal, hcount])
  · simp [wave, hcount]
  · exact h.turnOrdinals.append_range (by rw [follows.turnOrdinals, h.turnCount])
  · simp [turn, h.turnCount]
  · unfold openWaves at hopened ⊢
    rw [List.countP_append, hopened, Nat.zero_add]
    exact List.countP_le_length
  · exact follows.agents h.agents
  · exact hlease.trans hrow
  · exact row.policy ▸ hregular
  · intro wave hw hopen hphase
    obtain rfl := hmem hw hopen
    cases plans with
    | contribution _ _ _ _ _ regular lease =>
      refine ⟨?_, row.policy ▸ regular⟩
      rcases lease with lease | lease
      · exact lease
      · exact hlease.trans_lt lease
    | finalization _ _ _ phase => exact absurd phase hphase
  · rw [row.policy]
    cases plans with
    | contribution _ _ _ phase _ regular =>
      have hadd : contributions (waves ++ [plan.wave]) = contributions waves + 1 := by
        simp [contributions, phase]
      dsimp only
      omega
    | finalization _ _ _ phase =>
      have hadd : contributions (waves ++ [plan.wave]) = contributions waves := by
        simp [contributions, phase]
      dsimp only
      omega
  · intro _ hclosed
    exact absurd follows.opened (hclosed plan.wave (by simp))
  · unfold finalizations at hfinals ⊢
    rw [List.countP_append, hfinals, Nat.zero_add]
    exact List.countP_le_length
  · rintro ⟨wave, hw, hphase⟩
    rcases List.mem_append.mp hw with hw | hw
    · exact absurd hphase (hphases wave hw)
    obtain rfl := List.mem_singleton.mp hw
    cases plans with
    | contribution _ _ _ phase => exact absurd hphase phase
    | finalization _ _ _ _ state =>
      exact ⟨.inl state, fun other hother hopen => hmem hother hopen ▸ hphase⟩

theorem sound_planned (unfinished : record.state.isTerminal = false)
    (once : record.state ≠ .finalizing) (row : RowMoves record record')
    (none_open : ∀ wave ∈ a.waves, wave.state ≠ .opened)
    (plans : Plans a.turns record record' (some plan))
    (used : record'.budget.turnsUsed = record.budget.turnsUsed)
    (charges : Charges a.budgetEvents.length record.budget events record'.budget)
    (h : a.Sound record) :
    Aggregate.Sound ⟨some record', a.waves ++ [plan.wave], a.turns ++ plan.turns,
      a.budgetEvents ++ events⟩ record' := by
  refine sound_next h.waveOrdinals h.waveCount none_open (fun wave hwave hphase => ?_)
    (used ▸ h.idle unfinished none_open) (used ▸ h.lease) (used ▸ h.regular) row plans charges h
  rcases (h.last ⟨wave, hwave, hphase⟩).1 with hstate | hstate
  · exact once hstate
  · rw [unfinished] at hstate
    cases hstate

/-- Two Waves that are both open are the same. -/
theorem Sound.open_unique (h : a.Sound record) {other : DiscussionWave} (hwave : wave ∈ a.waves)
    (hother : other ∈ a.waves) (hopen : wave.state = .opened) (hopen' : other.state = .opened) :
    other = wave := by
  have hlength : (a.waves.filter fun wave => wave.state = .opened).length ≤ 1 := by
    rw [← List.countP_eq_length_filter]
    exact h.oneOpen
  have hin : wave ∈ a.waves.filter fun wave => wave.state = .opened := by
    simp [hwave, hopen]
  have hin' : other ∈ a.waves.filter fun wave => wave.state = .opened := by
    simp [hother, hopen']
  match hfilter : a.waves.filter (fun wave => wave.state = .opened) with
  | [] => simp [hfilter] at hin
  | [only] => simp_all
  | _ :: _ :: _ => simp [hfilter] at hlength

theorem sound_advanced {plan : Option WavePlan} (row : RowMoves record record')
    (member : wave ∈ a.waves) (opened : wave.state = .opened) (phase : wave.phase ≠ .finalization)
    (waves : ∀ other ∈ a.waves, WaveMoves other (g other)) (closes : (g wave).state ≠ .opened)
    (plans : Plans a.turns record record' plan)
    (used : record'.budget.turnsUsed = record.budget.turnsUsed + 1)
    (charges : Charges a.budgetEvents.length record.budget events record'.budget)
    (h : a.Sound record) : Aggregate.Sound ⟨some record', a.waves.map g ++ WavePlan.waves plan,
      a.turns ++ WavePlan.members plan, a.budgetEvents ++ events⟩ record' := by
  have hnone : ∀ other ∈ a.waves.map g, other.state ≠ .opened := by
    intro other' hother' hopen
    obtain ⟨other, hother, rfl⟩ := List.mem_map.mp hother'
    have hsame := h.open_unique member hother opened ((waves other hother).opened hopen)
    exact closes (hsame ▸ hopen)
  have hphases : ∀ other ∈ a.waves.map g, other.phase ≠ .finalization := by
    intro other' hother' hfinal
    obtain ⟨other, hother, rfl⟩ := List.mem_map.mp hother'
    rw [(waves other hother).phase] at hfinal
    exact phase ((h.last ⟨other, hother, hfinal⟩).2 wave member opened)
  obtain ⟨hlease, hregular⟩ := h.payable wave member opened phase
  have hpaid : contributions (a.waves.map g) ≤ record'.budget.turnsUsed := by
    rw [contributions_map waves]
    rcases h.paid with hpaid | hpaid <;> omega
  have hordinals := waveOrdinals_map waves h.waveOrdinals
  have hcount : (a.waves.map g).length = record.currentWave := by simpa using h.waveCount
  cases plan with
  | some plan =>
    simpa [WavePlan.waves, WavePlan.members] using
      sound_next hordinals hcount hnone hphases hpaid (by omega) (by omega) row plans charges h
  | none =>
    have hrow := row.lease
    cases plans with
    | nothing wave' turn' state =>
      simp only [WavePlan.waves, WavePlan.members, Option.toList_none, List.map_nil,
        List.flatMap_nil, List.append_nil]
      constructor
      · exact row.policy ▸ h.policy
      · exact row.terminalAt
      · exact eventOrdinals_charges h.eventOrdinals charges
      · exact ledger_charges h.ledger charges
      · exact hordinals
      · exact hcount.trans wave'.symm
      · exact h.turnOrdinals
      · exact h.turnCount.trans turn'.symm
      · exact (openWaves_map waves).trans h.oneOpen
      · exact h.agents
      · omega
      · rw [row.policy]
        omega
      · intro other hother hopen
        exact absurd hopen (hnone other hother)
      · exact .inl hpaid
      · exact fun _ _ => hpaid
      · rw [finalizations_map waves]
        exact h.once
      · rintro ⟨other, hother, hfinal⟩
        exact absurd hfinal (hphases other hother)

theorem sound_finished (finalizing : record.state = .finalizing) (row : RowMoves record record')
    (terminal : record'.state.isTerminal) (budget : record'.budget = record.budget)
    (cursor : record'.currentWave = record.currentWave ∧ record'.currentTurn = record.currentTurn)
    (waves : ∀ wave ∈ a.waves, WaveMoves wave (g wave)) (h : a.Sound record) :
    ({ a with record := some record', waves := a.waves.map g } : Aggregate).Sound record' := by
  have hstate : record'.state ≠ .finalizing := fun heq => by
    rw [heq] at terminal
    cases terminal
  have hrecord := sound_amended (by rw [finalizing]; rfl) row (.nothing cursor.1 cursor.2 hstate)
    (fun _ => terminal) (congrArg _ budget) (.nil (congrArg _ budget)) h
  rw [List.append_nil] at hrecord
  exact Sound.moved (a := { a with record := some record' }) waves (.inr terminal) hrecord

theorem Sound.valid (h : a.Sound record) (found : a.record = some record) : a.Valid := by
  refine ⟨fun hnone => ?_, fun other hother => ?_⟩
  · rw [found] at hnone
    cases hnone
  · rw [found] at hother
    exact Option.some.inj hother ▸ h

/-- Every step keeps the invariant. -/
theorem Step.valid {excused : Prop} {a' : Aggregate} (hstep : Aggregate.Step excused a a')
    (h : a.Valid) : a'.Valid := by
  cases hstep with
  | created absent fresh => exact (sound_created absent fresh h).valid rfl
  | @rows f g turns waves closing =>
    refine ⟨fun hnone => ?_, fun record hrecord => ?_⟩
    · obtain ⟨hwaves, hturns, hevents⟩ := h.absent hnone
      simp [hwaves, hturns, hevents]
    refine sound_rows turns waves (closing.imp_right ?_) (h.sound record hrecord)
    rintro ⟨other, hother, hterminal⟩
    have hsame : a.record = some record := hrecord
    rw [hsame] at hother
    exact Option.some.inj hother ▸ hterminal
  | amended found unfinished row plans finalizing used charges =>
    have hsound := h.sound _ found
    exact (sound_amended unfinished row plans finalizing used charges hsound).valid rfl
  | planned found unfinished once row none_open plans used charges =>
    have hsound := h.sound _ found
    exact (sound_planned unfinished once row none_open plans used charges hsound).valid rfl
  | advanced found unfinished row member opened phase waves closes plans used charges =>
    have hsound := h.sound _ found
    exact (sound_advanced row member opened phase waves closes plans used charges hsound).valid rfl
  | finished found finalizing row terminal budget cursor waves =>
    have hsound := h.sound _ found
    exact (sound_finished finalizing row terminal budget cursor waves hsound).valid rfl

theorem valid_empty : (Aggregate.mk none [] [] []).Valid :=
  ⟨fun _ => ⟨rfl, rfl, rfl⟩, fun record h => absurd h.symm (Option.some_ne_none record)⟩

end Aggregate

end ConveneWire.Discussion
