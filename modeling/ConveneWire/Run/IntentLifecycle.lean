import ConveneWire.Run.ServerStep

/-! # The life of a cancellation intent

An intent and its Run are two rows that several calls write. They agree in every
reachable state, and once the intent is resolved neither moves again. -/

namespace ConveneWire.Run

open Relation (ReflTransGen)
open Transition (Preserved)

/-- The intent rows of one Run. -/
def Database.intentsOf (db : Database) (runId : RunId) : List RunCancellationIntent :=
  (db.cell runId).intents

/-- An intent that agrees with the state of its Run. -/
structure RunCancellationIntent.Agrees (intent : RunCancellationIntent) (state : RunState) :
    Prop where
  pending : intent.state = .pending ↔ state.isTerminal = false
  resolved : intent.state = .resolved → intent.terminalStatus = some state

/-- The Run exists, has at most one intent, and they agree. -/
def Cell.Agrees (c : Cell) : Prop :=
  ∃ run, c.run = some run ∧ c.intents.length ≤ 1 ∧ ∀ intent ∈ c.intents, intent.Agrees run.state

namespace Cell

variable {c c' : Cell} {run : RunRecord} {state : RunState} {now : Time}

theorem length_resolved (intents : List RunCancellationIntent) :
    (resolved intents state now).length = intents.length := by
  simp [resolved, Table.update]

variable {intents : List RunCancellationIntent} {P : RuntimeEvent → Prop}

/-- Resolving pending intents with a terminal state makes them agree with it. -/
theorem resolved_agrees (hended : state.isTerminal = true)
    (hpending : ∀ intent ∈ intents, intent.state = .pending) :
    ∀ intent ∈ resolved intents state now, intent.Agrees state := by
  intro intent hmem
  obtain ⟨row, hrow, rfl⟩ := List.mem_map.mp hmem
  rw [if_pos (hpending row hrow)]
  refine ⟨?_, fun _ => rfl⟩
  simp [RunCancellationIntent.resolve, hended]

/-- An ended Run has no pending intent left. -/
theorem not_pending (hagrees : ∀ intent ∈ c.intents, intent.Agrees run.state)
    (hended : run.state.isTerminal = true) : ∀ intent ∈ c.intents, ¬ intent.state = .pending := by
  intro intent hmem hpending
  rw [(hagrees intent hmem).pending, hended] at hpending
  cases hpending

theorem resolved_eq_self (h : ∀ intent ∈ intents, ¬ intent.state = .pending) :
    resolved intents state now = intents :=
  Table.update_eq_self h

theorem Agrees.step : Preserved (Step P) Agrees := by
  rintro c c' hstep ⟨run, hrun, hone, hagrees⟩
  cases hstep with
  | @append run' event now hrun' hlive hseq =>
    obtain rfl := Option.mem_unique hrun hrun'
    have hpending : ∀ intent ∈ c.intents, intent.state = .pending :=
      fun intent hmem => (hagrees intent hmem).pending.mpr hlive
    refine ⟨_, rfl, ?_, ?_⟩
    · simp only [append]
      split
      · rwa [length_resolved]
      · exact hone
    simp only [append, RunRecord.advance]
    split
    · rename_i hended
      exact resolved_agrees hended hpending
    rename_i hnext
    intro intent hmem
    refine ⟨⟨fun _ => by simpa using hnext, fun _ => hpending intent hmem⟩, fun hresolved => ?_⟩
    rw [hpending intent hmem] at hresolved
    cases hresolved
  | resolve hrun' hended =>
    obtain rfl := Option.mem_unique hrun hrun'
    rw [resolved_eq_self (not_pending hagrees hended)]
    exact ⟨run, hrun, hone, hagrees⟩
  | @request run' intent hrun' hlive hnone hpending hopen =>
    obtain rfl := Option.mem_unique hrun hrun'
    refine ⟨run, hrun, Nat.le_refl 1, fun other hmem => ?_⟩
    obtain rfl := List.mem_singleton.mp hmem
    refine ⟨⟨fun _ => hlive, fun _ => hpending⟩, fun hresolved => ?_⟩
    rw [hpending] at hresolved
    cases hresolved
  | mark hmark =>
    refine ⟨run, hrun, by simpa [Table.update] using hone, fun intent hmem => ?_⟩
    obtain ⟨row, hrow, rfl⟩ := List.mem_map.mp hmem
    split
    · exact ⟨(hagrees row hrow).pending, (hagrees row hrow).resolved⟩
    · exact hagrees row hrow
  | ensure | sent | accept => exact ⟨run, hrun, hone, hagrees⟩

/-- Once a Run has ended, no step changes its row or its intents. -/
theorem Step.ended (hstep : Step P c c') (hrun : c.run = some run)
    (hended : run.state.isTerminal = true)
    (hagrees : ∀ intent ∈ c.intents, intent.Agrees run.state) :
    c'.run = some run ∧ c'.intents = c.intents := by
  have hnone := not_pending hagrees hended
  cases hstep with
  | append hrun' hlive _ | request hrun' hlive _ _ _ =>
    obtain rfl := Option.mem_unique hrun hrun'
    rw [hended] at hlive
    cases hlive
  | resolve hrun' _ => exact ⟨hrun, resolved_eq_self hnone⟩
  | mark hmark =>
    exact ⟨hrun, Table.update_eq_self fun row hrow hp => hnone row hrow (hmark row hp)⟩
  | ensure | sent | accept => exact ⟨hrun, rfl⟩

theorem ended_run (hsteps : ReflTransGen (Step P) c c') (hrun : c.run = some run)
    (hended : run.state.isTerminal = true)
    (hagrees : ∀ intent ∈ c.intents, intent.Agrees run.state) :
    c'.run = some run ∧ c'.intents = c.intents := by
  induction hsteps with
  | refl => exact ⟨hrun, rfl⟩
  | tail _ hstep ih =>
    obtain ⟨hrun', hintents⟩ := ih
    obtain ⟨hrun'', hintents'⟩ := hstep.ended hrun' hended (by rwa [hintents])
    exact ⟨hrun'', hintents'.trans hintents⟩

end Cell

/-- **The cancellation intent lifecycle.** Start from any Run without an intent. Whatever calls
follow, it has at most one intent, which is pending exactly while the Run has not ended; once
resolved, the intent carries the Run's final state, and no later call changes either. -/
theorem cancellation_intent_lifecycle {options : CancellationOptions} {s₀ s t : Server}
    {runId : RunId} {run₀ : RunRecord} (hrun : s₀.database.getRun runId = some run₀)
    (hnone : s₀.database.intentsOf runId = []) (hs : ServerRun options s₀ s)
    (ht : ServerRun options s t) :
    ∃ run, s.database.getRun runId = some run ∧ (s.database.intentsOf runId).length ≤ 1 ∧
      ∀ intent ∈ s.database.intentsOf runId,
        (intent.state = .pending ↔ run.state.isTerminal = false) ∧
        (intent.state = .resolved → intent.terminalStatus = some run.state ∧
          t.database.getRun runId = some run ∧ t.database.intentsOf runId = [intent]) := by
  have hstart : (s₀.database.cell runId).Agrees := by
    refine ⟨run₀, hrun, ?_, fun intent hmem => ?_⟩
    · exact (congrArg List.length hnone).trans_le (Nat.zero_le 1)
    · rw [show (s₀.database.cell runId).intents = [] from hnone] at hmem
      cases hmem
  obtain ⟨run, hget, hone, hagrees⟩ := Cell.Agrees.step.run (hs.database runId) hstart
  refine ⟨run, hget, hone, fun intent hmem => ⟨(hagrees intent hmem).pending, fun hresolved => ?_⟩⟩
  have hended : run.state.isTerminal = true := by
    rw [← Bool.not_eq_false, ← (hagrees intent hmem).pending, hresolved]
    simp
  obtain ⟨hrun', hintents⟩ := Cell.ended_run (ht.database runId) hget hended hagrees
  refine ⟨(hagrees intent hmem).resolved hresolved, hrun', ?_⟩
  obtain ⟨only, honly⟩ : ∃ only, (s.database.cell runId).intents = [only] :=
    List.length_eq_one_iff.mp (Nat.le_antisymm hone (List.length_pos_of_mem hmem))
  have hmem' : intent ∈ (s.database.cell runId).intents := hmem
  rw [honly] at hmem' hintents
  rw [List.mem_singleton.mp hmem']
  exact hintents

/-- A dispatched Run is canceled and the Bridge acknowledges it. -/
theorem cancellation_intent_lifecycle_acknowledged :
    let options : CancellationOptions := {}
    let dispatched := ((ServerCall.dispatch (managedEnv 5 .sent) 7).exec options
      (queuedServer [queuedRun 7])).state
    let requested := ((ServerCall.cancel (managedEnv 6 .sent) 7 40 "stop").exec options
      dispatched).state
    let acknowledged := ((ServerCall.repository
      (.applyEvent 7 (.plainStatus 1 .canceled) 9)).exec options requested).state
    ((requested.database.intentsOf 7).map RunCancellationIntent.state = [.pending] ∧
      (acknowledged.database.intentsOf 7).map RunCancellationIntent.terminalStatus =
        [some .canceled]) ∧
      ∃ run, acknowledged.database.getRun 7 = some run ∧
        (acknowledged.database.intentsOf 7).length ≤ 1 ∧
        ∀ intent ∈ acknowledged.database.intentsOf 7,
          (intent.state = .pending ↔ run.state.isTerminal = false) ∧
          (intent.state = .resolved → intent.terminalStatus = some run.state) := by
  intro options dispatched requested acknowledged
  refine ⟨by decide, ?_⟩
  have hrun : ServerRun options (queuedServer [queuedRun 7]) acknowledged :=
    .tail (.tail (.single ⟨_, Transactional.Program.state_mem_visits⟩)
      ⟨_, Transactional.Program.state_mem_visits⟩) ⟨_, Transactional.Program.state_mem_visits⟩
  obtain ⟨run, hget, hone, hagrees⟩ := cancellation_intent_lifecycle
    (by rfl : (queuedServer [queuedRun 7]).database.getRun 7 = some (queuedRun 7)) rfl hrun .refl
  exact ⟨run, hget, hone, fun intent hmem =>
    ⟨(hagrees intent hmem).1, fun hresolved => ((hagrees intent hmem).2 hresolved).1⟩⟩

end ConveneWire.Run
