import ConveneWire.Discussion.Recovery

/-! # One Discussion as a state machine

The rows of one Discussion, and everything a single write can do to them. The
orchestrator is later shown to move every Discussion by these steps only; the
results about budgets, Waves and terminal states are about the steps alone.

`excused` stands for the one way in which a finished Discussion is written to
again; it is left open here. -/

namespace ConveneWire.Discussion

open BudgetSnapshot

@[ext] structure Aggregate where
  record : Option DiscussionRecord
  waves : List DiscussionWave
  turns : List DiscussionTurn
  budgetEvents : List DiscussionBudgetEvent

def Store.aggregate (s : Store) (discussionId : DiscussionId) : Aggregate where
  record := s.get discussionId
  waves := Table.select DiscussionWave.discussionId discussionId s.waves
  turns := Table.select DiscussionTurn.discussionId discussionId s.turns
  budgetEvents := Table.select DiscussionBudgetEvent.discussionId discussionId s.budgetEvents

/-! ## The ledger -/

/-- What an event of the ledger does to a budget; no event carries the duration. -/
def BudgetSnapshot.charge (budget : BudgetSnapshot) (event : DiscussionBudgetEvent) :
    BudgetSnapshot :=
  match event.eventType with
  | .leaseGranted => { budget with leaseEndTurn := budget.leaseEndTurn + event.turns }
  | .turnRecorded => { budget with
      turnsUsed := budget.turnsUsed + event.turns
      agentRunsUsed := budget.agentRunsUsed + event.metadata.agentRuns }
  | .extensionGranted => { budget with
      leaseEndTurn := budget.leaseEndTurn + event.turns
      extensions := budget.extensions + 1 }
  | .finalizationReserved => { budget with
      agentRunsUsed := budget.agentRunsUsed + event.metadata.agentRuns }

/-- A budget without its duration. -/
def BudgetSnapshot.usage (budget : BudgetSnapshot) : BudgetSnapshot :=
  { budget with durationSeconds := 0 }

theorem BudgetSnapshot.usage_charge (budget : BudgetSnapshot) (event : DiscussionBudgetEvent) :
    (budget.charge event).usage = budget.usage.charge event := by
  unfold charge usage
  cases event.eventType <;> rfl

theorem BudgetSnapshot.usage_foldl (events : List DiscussionBudgetEvent) (budget : BudgetSnapshot) :
    (events.foldl charge budget).usage = events.foldl charge budget.usage := by
  induction events generalizing budget with
  | nil => rfl
  | cons event rest ih => rw [List.foldl_cons, ih, usage_charge, List.foldl_cons]

/-- `events` lead from one budget to another and are numbered after the first `count`. -/
structure Charges (count : Nat) (before : BudgetSnapshot) (events : List DiscussionBudgetEvent)
    (after : BudgetSnapshot) : Prop where
  ordinals : events.map DiscussionBudgetEvent.ordinal = List.range' (count + 1) events.length
  usage : after.usage = (events.foldl BudgetSnapshot.charge before).usage

theorem Charges.nil {count : Nat} {before after : BudgetSnapshot}
    (h : after.usage = before.usage) : Charges count before [] after :=
  ⟨rfl, h⟩

theorem Charges.snoc {count : Nat} {before between after : BudgetSnapshot}
    {events : List DiscussionBudgetEvent} {event : DiscussionBudgetEvent}
    (h : Charges count before events between) (ordinal : event.ordinal = count + events.length + 1)
    (usage : after.usage = (between.charge event).usage) :
    Charges count before (events ++ [event]) after := by
  refine ⟨?_, ?_⟩
  · rw [List.map_append, h.ordinals, List.length_append, ← List.range'_append]
    simp [ordinal]
    omega
  · rw [usage, usage_charge, h.usage, usage_foldl, List.foldl_append,
      List.foldl_cons, List.foldl_nil, usage_charge, usage_foldl]

/-! ## Rows -/

/-- What a Turn row may become: a settled one stays as it is. -/
structure TurnMoves (turn turn' : DiscussionTurn) : Prop where
  turnId : turn'.turnId = turn.turnId
  discussionId : turn'.discussionId = turn.discussionId
  ordinal : turn'.ordinal = turn.ordinal
  waveId : turn'.waveId = turn.waveId
  speaker : turn'.speakerAgentId = turn.speakerAgentId
  settled : turn.state.isTerminal → turn' = turn

theorem TurnMoves.refl (turn : DiscussionTurn) : TurnMoves turn turn :=
  ⟨rfl, rfl, rfl, rfl, rfl, fun _ => rfl⟩

/-- What a Wave row may become: a closed one stays as it is. -/
structure WaveMoves (wave wave' : DiscussionWave) : Prop where
  waveId : wave'.waveId = wave.waveId
  discussionId : wave'.discussionId = wave.discussionId
  ordinal : wave'.ordinal = wave.ordinal
  phase : wave'.phase = wave.phase
  closed : wave.state ≠ .opened → wave' = wave

theorem WaveMoves.refl (wave : DiscussionWave) : WaveMoves wave wave :=
  ⟨rfl, rfl, rfl, rfl, fun _ => rfl⟩

/-- The Agents with a Turn still running. -/
def runningAgents (turns : List DiscussionTurn) : List Run.AgentId :=
  (turns.filter fun turn => ¬ turn.state.isTerminal).map DiscussionTurn.speakerAgentId

/-- A plan is the next Wave of its Discussion, for Agents that are free. -/
structure WavePlan.Follows (plan : WavePlan) (record : DiscussionRecord)
    (turns : List DiscussionTurn) : Prop where
  waveOrdinal : plan.wave.ordinal = record.currentWave + 1
  opened : plan.wave.state = .opened
  turnOrdinals : plan.turns.map DiscussionTurn.ordinal =
    List.range' (record.currentTurn + 1) plan.turns.length
  nodup : (plan.turns.map DiscussionTurn.speakerAgentId).Nodup
  free : ∀ turn ∈ plan.turns, turn.speakerAgentId ∉ runningAgents turns

/-- The cursor and the state that go with a plan, or with none. -/
inductive Plans (turns : List DiscussionTurn) (record record' : DiscussionRecord) :
    Option WavePlan → Prop
  | nothing (wave : record'.currentWave = record.currentWave)
      (turn : record'.currentTurn = record.currentTurn) (state : record'.state ≠ .finalizing) :
      Plans turns record record' none
  | contribution {plan : WavePlan} (follows : plan.Follows record turns)
      (wave : record'.currentWave = record.currentWave + 1)
      (turn : record'.currentTurn = record.currentTurn + plan.turns.length)
      (phase : plan.wave.phase ≠ .finalization) (state : record'.state = .active)
      (regular : record'.budget.turnsUsed < record.policy.regularTurnLimit)
      (lease : record'.budget.turnsUsed < record'.budget.leaseEndTurn ∨
        record.budget.leaseEndTurn < record'.budget.leaseEndTurn) :
      Plans turns record record' (some plan)
  | finalization {plan : WavePlan} (follows : plan.Follows record turns)
      (wave : record'.currentWave = record.currentWave + 1)
      (turn : record'.currentTurn = record.currentTurn + plan.turns.length)
      (phase : plan.wave.phase = .finalization) (state : record'.state = .finalizing) :
      Plans turns record record' (some plan)

/-- What every write to an unfinished Discussion's row keeps. -/
structure RowMoves (record record' : DiscussionRecord) : Prop where
  policy : record'.policy = record.policy
  version : record'.version = record.version + 1
  terminalAt : record'.state.isTerminal → record'.terminalAt.isSome
  lease : record.budget.leaseEndTurn ≤ record'.budget.leaseEndTurn

def WavePlan.waves (plan : Option WavePlan) : List DiscussionWave :=
  plan.toList.map WavePlan.wave

def WavePlan.members (plan : Option WavePlan) : List DiscussionTurn :=
  plan.toList.flatMap WavePlan.turns

/-- A new Discussion under an accepted policy, with its first lease. -/
structure DiscussionRecord.Fresh (record : DiscussionRecord) (event : DiscussionBudgetEvent) :
    Prop where
  policy : record.policy.Bounded
  state : record.state = .active
  wave : record.currentWave = 0
  turn : record.currentTurn = 0
  budget : record.budget = emptyBudgetSnapshot record.policy.initialLeaseTurns
  ordinal : event.ordinal = 1
  eventType : event.eventType = .leaseGranted
  turns : event.turns = record.policy.initialLeaseTurns

/-! ## Steps -/

inductive Aggregate.Step (excused : Prop) : Aggregate → Aggregate → Prop
  | created {a : Aggregate} {record : DiscussionRecord} {event : DiscussionBudgetEvent}
      (absent : a.record = none) (fresh : record.Fresh event) :
      Step excused a { a with
        record := some record, budgetEvents := a.budgetEvents ++ [event] }
  /-- Rows of Turns and Waves move; a Wave closes here only in a finished Discussion. -/
  | rows {a : Aggregate} {f : DiscussionTurn → DiscussionTurn} {g : DiscussionWave → DiscussionWave}
      (turns : ∀ turn ∈ a.turns, TurnMoves turn (f turn))
      (waves : ∀ wave ∈ a.waves, WaveMoves wave (g wave))
      (closing : (∀ wave ∈ a.waves, (g wave).state = wave.state) ∨
        ∃ record, a.record = some record ∧ record.state.isTerminal) :
      Step excused a { a with turns := a.turns.map f, waves := a.waves.map g }
  /-- A decision without a Wave, or a request. -/
  | amended {a : Aggregate} {record record' : DiscussionRecord}
      {events : List DiscussionBudgetEvent} (found : a.record = some record)
      (unfinished : record.state.isTerminal = false) (row : RowMoves record record')
      (plans : Plans a.turns record record' none)
      (finalizing : record.state = .finalizing → record'.state.isTerminal)
      (used : record'.budget.turnsUsed = record.budget.turnsUsed)
      (charges : Charges a.budgetEvents.length record.budget events record'.budget) :
      Step excused a { a with
        record := some record', budgetEvents := a.budgetEvents ++ events }
  /-- A Wave planned while none is open. -/
  | planned {a : Aggregate} {record record' : DiscussionRecord} {plan : WavePlan}
      {events : List DiscussionBudgetEvent} (found : a.record = some record)
      (unfinished : record.state.isTerminal = false) (once : record.state ≠ .finalizing)
      (row : RowMoves record record') (none_open : ∀ wave ∈ a.waves, wave.state ≠ .opened)
      (plans : Plans a.turns record record' (some plan))
      (used : record'.budget.turnsUsed = record.budget.turnsUsed)
      (charges : Charges a.budgetEvents.length record.budget events record'.budget) :
      Step excused a ⟨some record', a.waves ++ [plan.wave], a.turns ++ plan.turns,
        a.budgetEvents ++ events⟩
  /-- A settled or sealed Wave is closed, paid for and followed by what was decided. -/
  | advanced {a : Aggregate} {record record' : DiscussionRecord} {wave : DiscussionWave}
      {g : DiscussionWave → DiscussionWave} {plan : Option WavePlan}
      {events : List DiscussionBudgetEvent} (found : a.record = some record)
      (unfinished : record.state.isTerminal = false ∨ excused) (row : RowMoves record record')
      (member : wave ∈ a.waves) (opened : wave.state = .opened) (phase : wave.phase ≠ .finalization)
      (waves : ∀ other ∈ a.waves, WaveMoves other (g other)) (closes : (g wave).state ≠ .opened)
      (plans : Plans a.turns record record' plan)
      (used : record'.budget.turnsUsed = record.budget.turnsUsed + 1)
      (charges : Charges a.budgetEvents.length record.budget events record'.budget) :
      Step excused a ⟨some record', a.waves.map g ++ WavePlan.waves plan,
        a.turns ++ WavePlan.members plan, a.budgetEvents ++ events⟩
  /-- The finalization Wave ends and the Discussion with it. -/
  | finished {a : Aggregate} {record record' : DiscussionRecord}
      {g : DiscussionWave → DiscussionWave} (found : a.record = some record)
      (finalizing : record.state = .finalizing) (row : RowMoves record record')
      (terminal : record'.state.isTerminal) (budget : record'.budget = record.budget)
      (cursor : record'.currentWave = record.currentWave ∧ record'.currentTurn = record.currentTurn)
      (waves : ∀ wave ∈ a.waves, WaveMoves wave (g wave)) :
      Step excused a { a with record := some record', waves := a.waves.map g }

theorem Aggregate.Step.refl {excused : Prop} (a : Aggregate) : Aggregate.Step excused a a := by
  have h : Aggregate.Step excused a { a with turns := a.turns.map id, waves := a.waves.map id } :=
    .rows (fun turn _ => .refl turn) (fun wave _ => .refl wave) (.inl fun _ _ => rfl)
  simpa using h

/-- Excuses only add steps. -/
theorem Aggregate.Step.mono {p q : Prop} (hpq : p → q) {a a' : Aggregate}
    (h : Aggregate.Step p a a') : Aggregate.Step q a a' := by
  cases h with
  | created absent fresh => exact .created absent fresh
  | rows turns waves closing => exact .rows turns waves closing
  | amended found unfinished row plans finalizing used charges =>
    exact .amended found unfinished row plans finalizing used charges
  | planned found unfinished once row none_open plans used charges =>
    exact .planned found unfinished once row none_open plans used charges
  | advanced found unfinished row member opened phase waves closes plans used charges =>
    exact .advanced found (unfinished.imp_right hpq) row member opened phase waves closes plans used
      charges
  | finished found finalizing row terminal budget cursor waves =>
    exact .finished found finalizing row terminal budget cursor waves

end ConveneWire.Discussion
