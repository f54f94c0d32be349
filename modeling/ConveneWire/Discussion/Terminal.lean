import ConveneWire.Discussion.Guarantees

/-! # Finished Discussions

Once a Discussion is completed, canceled or terminated, nothing is added to it,
as long as no entry of the run is unlawful. A quorum that seals a Wave of a
canceled Discussion is such an entry, and it does reopen the Discussion. -/

namespace ConveneWire.Discussion

open Transactional
open Run (RunId RunRecord)
open Relation (ReflTransGen)
open DiscussionWave (waveId)
open DiscussionTurn (turnId isCompletable)

variable {w w' : System} {P : Platform} {discussionId : DiscussionId} {record : DiscussionRecord}

/-! ## One step -/

/-- Only rows of Turns and Waves move in a finished Discussion. -/
theorem Aggregate.Step.finished_kept {a a' : Aggregate} (h : Aggregate.Step False a a')
    (hrecord : a.record = some record) (hterminal : record.state.isTerminal) :
    a'.record = some record ∧ a'.waves.map waveId = a.waves.map waveId ∧
      a'.turns.map turnId = a.turns.map turnId := by
  have hsame : ∀ {r : DiscussionRecord}, a.record = some r → r = record := fun hfound =>
    Option.mem_unique hfound hrecord
  cases h with
  | created absent =>
    rw [absent] at hrecord
    cases hrecord
  | rows turns waves =>
    refine ⟨hrecord, ?_, ?_⟩
    · rw [List.map_map]
      exact List.map_congr_left fun wave hwave => (waves wave hwave).waveId
    · rw [List.map_map]
      exact List.map_congr_left fun turn hturn => (turns turn hturn).turnId
  | amended found unfinished | planned found unfinished =>
    rw [hsame found, hterminal] at unfinished
    cases unfinished
  | advanced found unfinished =>
    rw [hsame found, hterminal] at unfinished
    rcases unfinished with unfinished | excused
    · cases unfinished
    · exact excused.elim
  | finished found finalizing =>
    rw [← hsame found, finalizing] at hterminal
    cases hterminal

theorem turnKey_injective {a b : TurnId} (h : turnKey a = turnKey b) : a = b := by
  have hdigits := congrArg (fun key => Nat.ofDigitChars 10 key.toList 0) h
  simpa [turnKey, Nat.toString_eq_ofList_toDigits] using hdigits

/-- The Runs of a Discussion: those under the key of one of its Turns. -/
def discussionRuns (s : Store) (discussionId : DiscussionId) : List (RunId × String) :=
  (keyedRuns s.core).filter fun entry =>
    entry.2 ∈ (s.aggregate discussionId).turns.map fun turn => turnKey turn.turnId

/-- What is kept of a finished Discussion. -/
structure Kept (s s' : Store) (discussionId : DiscussionId) (record : DiscussionRecord) : Prop where
  record : s'.get discussionId = some record
  waves : (s'.aggregate discussionId).waves.map waveId =
    (s.aggregate discussionId).waves.map waveId
  turns : (s'.aggregate discussionId).turns.map turnId =
    (s.aggregate discussionId).turns.map turnId
  runs : discussionRuns s' discussionId = discussionRuns s discussionId

theorem Kept.refl {s : Store} (h : s.get discussionId = some record) :
    Kept s s discussionId record :=
  ⟨h, rfl, rfl, rfl⟩

theorem Kept.trans {s s' s'' : Store} (h : Kept s s' discussionId record)
    (h' : Kept s' s'' discussionId record) : Kept s s'' discussionId record :=
  ⟨h'.record, h'.waves.trans h.waves, h'.turns.trans h.turns, h'.runs.trans h.runs⟩

/-- A new Run under a key of the Discussion would be for one of its own Turns. -/
theorem key_not_mem (hv : w.Valid) (hget : w.store.get discussionId = some record)
    (hterminal : record.state.isTerminal) {turn : DiscussionTurn} (hturn : turn ∈ w.store.turns)
    {discussion : DiscussionRecord} (hdiscussion : w.store.get turn.discussionId = some discussion)
    (hunfinished : discussion.state.isTerminal = false) :
    turnKey turn.turnId ∉
      (w.store.aggregate discussionId).turns.map fun turn => turnKey turn.turnId := by
  intro hkey
  obtain ⟨own, hown, heq⟩ := List.mem_map.mp hkey
  obtain ⟨hmem, hid⟩ := List.mem_filter.mp hown
  have hsame : own = turn :=
    List.inj_on_of_nodup_map hv.wellFormed.turnIds hmem hturn (turnKey_injective heq)
  subst hsame
  have hrow : own.discussionId = discussionId := by simpa using hid
  rw [hrow, hget] at hdiscussion
  rw [← Option.some.inj hdiscussion, hterminal] at hunfinished
  cases hunfinished

theorem Moves.kept (h : Moves w w') (hv : w.Valid) (hlawful : ¬ Excused w')
    (hget : w.store.get discussionId = some record) (hterminal : record.state.isTerminal) :
    Kept w.store w'.store discussionId record := by
  obtain ⟨hrecord, hwaves, hturns⟩ :=
    ((h.aggregates discussionId).mono hlawful).finished_kept hget hterminal
  have hkeys : ((w'.store.aggregate discussionId).turns.map fun turn => turnKey turn.turnId) =
      (w.store.aggregate discussionId).turns.map fun turn => turnKey turn.turnId := by
    have hmapped := congrArg (List.map turnKey) hturns
    simpa [List.map_map, Function.comp_def] using hmapped
  refine ⟨hrecord, hwaves, hturns, ?_⟩
  unfold discussionRuns
  rw [hkeys]
  rcases h.runs with hruns | ⟨turn, hturn, runId, discussion, hruns, hdiscussion, hallowed⟩
  · rw [hruns]
  have hunfinished := hallowed.resolve_right hlawful
  have hnew := key_not_mem hv hget hterminal hturn hdiscussion hunfinished
  rw [hruns, List.filter_append, List.filter_singleton]
  simp [hnew]

/-! ## Every run -/

theorem kept_run (h : ReflTransGen Moves w w') (hv : w.Valid) (hlawful : ¬ Excused w')
    (hget : w.store.get discussionId = some record) (hterminal : record.state.isTerminal) :
    Kept w.store w'.store discussionId record := by
  induction h with
  | refl => exact .refl hget
  | tail hrun hmove ih =>
    have hbefore := ih fun hexcused => hlawful (hexcused.mono hmove.entries)
    exact hbefore.trans (hmove.kept (hv.run hrun) hlawful hbefore.record hterminal)

theorem listWaves_eq (hv : w.Valid) (hget : w.store.get discussionId = some record) :
    w.store.listWaves discussionId = (w.store.aggregate discussionId).waves :=
  insertionSort_consecutive _ (fun _ _ hle => hle) (hv.sound hget).waveOrdinals

theorem listTurns_eq (hv : w.Valid) (hget : w.store.get discussionId = some record) :
    w.store.listTurns discussionId = (w.store.aggregate discussionId).turns :=
  insertionSort_consecutive _ (fun _ _ hle => hle) (hv.sound hget).turnOrdinals

/-- In a run whose entries are all lawful a finished Discussion keeps its row and gets no Wave, Turn
or Run. -/
theorem terminal_discussion_absorbing (hreach : Reachable P w) (hrun : ReflTransGen (Step P) w w')
    (hlawful : ∀ entry ∈ w'.entries, entry.Lawful)
    (hget : w.store.get discussionId = some record) (hterminal : record.state.isTerminal) :
    w'.store.get discussionId = some record ∧ record.terminalAt.isSome ∧
      (w'.store.listWaves discussionId).map waveId = (w.store.listWaves discussionId).map waveId ∧
      (w'.store.listTurns discussionId).map turnId = (w.store.listTurns discussionId).map turnId ∧
      discussionRuns w'.store discussionId = discussionRuns w.store discussionId := by
  have hv := hreach.valid
  have hmoves := moves_of_steps hrun hv
  have hkept := kept_run hmoves hv (fun ⟨entry, hentry, hunlawful⟩ => hunlawful (hlawful entry hentry))
    hget hterminal
  have hv' := hv.run hmoves
  rw [listWaves_eq hv hget, listTurns_eq hv hget, listWaves_eq hv' hkept.record,
    listTurns_eq hv' hkept.record]
  exact ⟨hkept.record, (hv.sound hget).terminalAt hterminal, hkept.waves, hkept.turns, hkept.runs⟩

instance (env : Env) (s : Store) (discussion : DiscussionRecord) (wave : DiscussionWave) :
    Decidable (Reopens env s discussion wave) :=
  decidable_of_iff (discussion.state.isTerminal ∧
      discussion.policy.waveCompletionMode = .readOnlyQuorum ∧ wave.state = .opened ∧
      wave.phase ≠ .finalization ∧
      quorumSoftDeadline discussion wave ≤ ((env.part 2).part 1).now ∧
      discussion.policy.quorumMinimumCompleted ≤
        (s.listTurnsForWave wave.waveId).countP (isCompletable s) ∧
      ∃ turn ∈ s.listTurnsForWave wave.waveId,
        turn.state.isTerminal = false ∧ turn.isSettleable s = false)
    ⟨fun ⟨h₁, h₂, h₃, h₄, h₅, h₆, h₇⟩ => ⟨h₁, h₂, h₃, h₄, h₅, h₆, h₇⟩,
      fun ⟨h₁, h₂, h₃, h₄, h₅, h₆, h₇⟩ => ⟨h₁, h₂, h₃, h₄, h₅, h₆, h₇⟩⟩

instance (entry : Entry) : Decidable entry.Lawful := by
  cases entry <;> unfold Entry.Lawful <;> infer_instance

/-- The sample Discussion, canceled after a second while its Runs are queued. -/
def sampleCanceled : System :=
  (exec plainPlatform 5 (sampleEnv 1000 2) (.control sampleId { action := .cancel })
    sampleCreated).state

theorem run_sampleCanceled : ReflTransGen (Step plainPlatform) sampleCreated sampleCanceled :=
  .single (.call 5 (sampleEnv 1000 2) (.control sampleId { action := .cancel })
    Program.state_mem_visits)

theorem reachable_sampleCanceled : Reachable plainPlatform sampleCanceled := by
  obtain ⟨core, hcore, hrun⟩ := reachable_sampleCreated
  exact ⟨core, hcore, hrun.trans run_sampleCanceled⟩

theorem get_sampleCanceled : ∃ record, sampleCanceled.store.get sampleId = some record ∧
    record.state = .canceled := by
  have hget : (sampleCanceled.store.get sampleId).map DiscussionRecord.state = some .canceled := by
    decide +kernel
  exact Option.map_eq_some_iff.mp hget

/-- The server restarts a second later. -/
def sampleRecovered : System :=
  (exec plainPlatform 5 (sampleEnv 2000 3) .recover sampleCanceled).state

theorem terminal_discussion_absorbing_sample :
    ∃ record, sampleCanceled.store.get sampleId = some record ∧
      sampleRecovered.store.get sampleId = some record ∧ record.terminalAt.isSome := by
  obtain ⟨record, hget, hstate⟩ := get_sampleCanceled
  have hrun : ReflTransGen (Step plainPlatform) sampleCanceled sampleRecovered :=
    .single (.call 5 (sampleEnv 2000 3) .recover Program.state_mem_visits)
  have hlawful : ∀ entry ∈ sampleRecovered.entries, entry.Lawful := by decide +kernel
  have hkept := terminal_discussion_absorbing reachable_sampleCanceled hrun hlawful hget
    (by rw [hstate]; rfl)
  exact ⟨record, hget, hkept.1, hkept.2.1⟩

/-! ## A canceled Discussion that goes on -/

/-- The Agent of a Run replies and completes. -/
def replied (core : Run.Database) (run : RunRecord) : Run.Database :=
  match Run.applyReplyAndTerminal run.runId 1 "Done" none 2 none none none 2000 core with
  | .ok (_, core) => core
  | .error _ => core

/-- Two of the three Agents reply after the cancellation, before their Runs are reported. -/
def sampleReplied : System :=
  { sampleCanceled with store := { sampleCanceled.store with
    core := (sampleCanceled.store.core.runs.take 2).foldl replied sampleCanceled.store.core } }

/-- The first of the two Runs is reported a minute after the start. -/
def sampleReopened : System :=
  (exec plainPlatform 5 (sampleEnv 60000 3) (.onRunTerminal 28401) sampleReplied).state

/-- The quorum of a canceled Discussion makes it active again and plans a second Wave. -/
theorem terminal_discussion_reopened :
    Reachable plainPlatform sampleCanceled ∧
      ReflTransGen (Step plainPlatform) sampleCanceled sampleReopened ∧
      (sampleCanceled.store.get sampleId).map DiscussionRecord.state = some .canceled ∧
      (sampleReopened.store.get sampleId).map (fun record => (record.state, record.terminalAt)) =
        some (.active, none) ∧ ((sampleCanceled.store.listWaves sampleId).length,
        (sampleReopened.store.listWaves sampleId).length) = (1, 2) := by
  have hkeyed : keyedRuns sampleReplied.store.core = keyedRuns sampleCanceled.store.core := by
    decide +kernel
  refine ⟨reachable_sampleCanceled, .tail (.single (.other _ hkeyed)) (.call 5 (sampleEnv 60000 3)
    (.onRunTerminal 28401) Program.state_mem_visits), ?_⟩
  decide +kernel

/-! ## Canceling the Runs of a Discussion -/

/-- The Turn still has a Run to cancel. -/
def LiveRun (turn : DiscussionTurn) (runId : RunId) : Prop :=
  turn.state.isTerminal = false ∧ turn.runId = some runId

/-- What `cancel` returns: the Runs still live in the Wave that is open. -/
theorem control_cancel_runs {depth : Nat} {env : Env} {result : MutationResult}
    (hget : w.store.get discussionId = some record)
    (hok : (control P depth env discussionId { action := .cancel } w).result = .ok result)
    (runId : RunId) : runId ∈ result.cancelRunIds ↔ record.state.isTerminal = false ∧
      ∃ wave, latestOpenWave w.store discussionId = some wave ∧
        ∃ turn ∈ w.store.turns, turn.waveId = wave.waveId ∧ LiveRun turn runId := by
  have hemits : Emits (fun _ _ => True) w (control P depth env discussionId { action := .cancel })
      fun result _ => runId ∈ result.cancelRunIds ↔ record.state.isTerminal = false ∧
        ∃ wave, latestOpenWave w.store discussionId = some wave ∧
          ∃ turn ∈ w.store.turns, turn.waveId = wave.waveId ∧ LiveRun turn runId := by
    unfold control
    refine emits_require fun discussion hdiscussion hid => emits_query ?_
    obtain rfl := Option.mem_unique hget hdiscussion
    refine emits_except fun member _ => emits_except fun _ _ => ?_
    split
    · rename_i hterminal
      exact .pure (by simp [hterminal])
    rename_i hterminal
    unfold controlUnfinished
    rw [if_pos rfl, controlCancel]
    refine .andThen (emits_transact fun _ _ _ => ⟨.single trivial, trivial⟩) fun _ _ _ => .pure ?_
    cases hwave : latestOpenWave w.store record.discussionId with
    | none => simp [← hid, hwave]
    | some wave =>
      simp [← hid, hwave, hterminal, LiveRun, Store.listTurnsForWave, Table.select, and_assoc]
  exact hemits.returns result hok

/-- `cancel` returns the Run of every live Turn exactly when each such Run belongs to the Wave
that is open in an unfinished Discussion. -/
theorem cancel_reaches_live_iff {depth : Nat} {env : Env} {result : MutationResult}
    (hget : w.store.get discussionId = some record)
    (hok : (control P depth env discussionId { action := .cancel } w).result = .ok result) :
    (∀ turn ∈ w.store.listTurns discussionId, ∀ runId, LiveRun turn runId →
      runId ∈ result.cancelRunIds) ↔
    ∀ turn ∈ w.store.listTurns discussionId, ∀ runId, LiveRun turn runId →
      record.state.isTerminal = false ∧
      ∃ wave, latestOpenWave w.store discussionId = some wave ∧
        ∃ member ∈ w.store.turns, member.waveId = wave.waveId ∧ LiveRun member runId := by
  simp only [control_cancel_runs hget hok]

theorem cancel_reaches_live_iff_sample :
    ∃ result, (control plainPlatform 5 (sampleEnv 1000 2) sampleId { action := .cancel }
        sampleCreated).result = .ok result ∧
      ∀ turn ∈ sampleCreated.store.listTurns sampleId, ∀ runId, LiveRun turn runId →
        runId ∈ result.cancelRunIds := by
  obtain ⟨record, hget, hstate, -⟩ := get_sampleCreated
  have hsome : (control plainPlatform 5 (sampleEnv 1000 2) sampleId { action := .cancel }
      sampleCreated).result.isOk = true := by
    decide +kernel
  cases hok : (control plainPlatform 5 (sampleEnv 1000 2) sampleId { action := .cancel }
      sampleCreated).result with
  | error e => simp [hok, Except.isOk, Except.toBool] at hsome
  | ok result =>
    refine ⟨result, rfl, (cancel_reaches_live_iff hget hok).mpr fun turn hturn runId hlive => ?_⟩
    have hwave : ∀ turn ∈ sampleCreated.store.listTurns sampleId,
        (latestOpenWave sampleCreated.store sampleId).map waveId =
          some turn.waveId := by
      decide +kernel
    obtain ⟨wave, hopen, hid⟩ := Option.map_eq_some_iff.mp (hwave turn hturn)
    exact ⟨by rw [hstate]; rfl, wave, hopen, turn, (mem_listTurns.mp hturn).1, hid.symm, hlive⟩

/-- Two of three Agents have replied, and their quorum has sealed the first Wave. -/
def sampleSealed : System :=
  (exec plainPlatform 5 (sampleEnv 60000 3) (.onRunTerminal 28401)
    { sampleCreated with store := { sampleCreated.store with
      core := (sampleCreated.store.core.runs.take 2).foldl replied sampleCreated.store.core } }).state

/-- The third Agent's Run goes on after the Discussion is canceled in its second Wave. -/
theorem cancel_misses_sealed_member :
    Reachable plainPlatform sampleSealed ∧ (∃ turn ∈ sampleSealed.store.listTurns sampleId,
        turn.state.isTerminal = false ∧ turn.runId = some 2842201) ∧
      (control plainPlatform 5 (sampleEnv 61000 4) sampleId { action := .cancel }
        sampleSealed).result.toOption.map MutationResult.cancelRunIds =
          some [64524201, 645242201] := by
  refine ⟨?_, by decide +kernel, by decide +kernel⟩
  obtain ⟨core, hcore, hrun⟩ := reachable_sampleCreated
  exact ⟨core, hcore, .tail (.tail hrun (.other _ (by decide +kernel)))
    (.call 5 (sampleEnv 60000 3) (.onRunTerminal 28401) Program.state_mem_visits)⟩

end ConveneWire.Discussion
