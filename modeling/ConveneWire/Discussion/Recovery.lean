import ConveneWire.Discussion.Control

/-! # Deadlines and recovery

`expireDueWaves`, `sweepDueWaves` and `recover`, with
`discussion-recovery-service.ts`; then all calls together as one system. -/

namespace ConveneWire.Discussion

open Run (RunId Time RunRecord)
open Transactional

variable (P : Platform)

/-! ## Deadlines -/

def scheduledRuns : Option MutationResult → List RunRecord
  | none => []
  | some result => result.scheduledRuns

def waveDeadlineUnknown : Run.RuntimeError where
  code := "DISCUSSION_WAVE_DEADLINE_UNKNOWN"
  message := "The Discussion Wave deadline passed before a terminal Runtime outcome."
  retryable := false

def waveDeadlineExpired : Run.RuntimeError where
  code := "RUN_EXPIRED"
  message := "The Run expired before its Discussion Wave deadline."
  retryable := false

/-- The Run of a due Turn, ended: one that may have started has an unknown outcome. -/
def expireRun (env : Env) (run : RunRecord) (now : Time) : Program System RunRecord := do
  if run.state.isTerminal then pure run
  else if run.state ≠ .queued ∨ env.hasPeerDelivery run.runId then do
    let applied ← applyStatus run .outcomeUnknown waveDeadlineUnknown now
    pure applied.run
  else do
    let applied ← applyStatus run .expired waveDeadlineExpired now
    pure applied.run

def expireTurn (depth : Nat) (now : Time) (env : Env) (turn : DiscussionTurn) :
    Program System (List RunRecord) := do
  let found ← match turn.runId with
    | some runId => System.query fun s => s.core.getRun runId
    | none => ensureRun P depth (env.part 0) turn
  match found with
  | none => pure []
  | some run => do
    let ended ← expireRun env run now
    let result ← onRunTerminal P depth (env.part 1) ended.runId
    pure ((scheduledRuns result).filter fun run => run.state = .queued)

def expireWave (depth : Nat) (now : Time) (env : Env) (wave : DiscussionWave) :
    Program System (List RunRecord) := do
  let turns ← System.query fun s => s.listTurnsForWave wave.waveId
  let scheduled ← Env.collect (expireTurn P depth now) env turns
  pure scheduled.flatten

def expireDueWaves (depth : Nat) (env : Env) : Program System (List RunRecord) := do
  let now := env.now
  let due ← System.query fun s => s.listOpenWaves.filter fun wave => wave.deadlineAt ≤ now
  let scheduled ← Env.collect (expireWave P depth now) (env.part 0) due
  pure (uniqueRuns scheduled.flatten)

/-- One member Run of a Wave past its soft deadline. -/
def settleQuorumTurn (depth : Nat) (env : Env) (turn : DiscussionTurn) :
    Program System (List RunRecord) := do
  let run ← System.query fun s => turn.runId.bind s.core.getRun
  match run with
  | none => pure []
  | some run =>
    if run.state.isTerminal then do
      let result ← onRunTerminal P depth env run.runId
      pure (scheduledRuns result)
    else pure []

/-- The members of one Wave in turn, until the Wave is no longer open. -/
def settleQuorumTurns (depth : Nat) (waveId : WaveId) :
    Env → List DiscussionTurn → Program System (List RunRecord)
  | _, [] => pure []
  | env, turn :: rest => do
    let runs ← settleQuorumTurn P depth (env.part 0) turn
    let wave ← System.query fun s => s.getWave waveId
    if wave.any fun wave => wave.state = .opened then do
      let more ← settleQuorumTurns depth waveId (env.part 1) rest
      pure (runs ++ more)
    else pure runs

def reconcileDueQuorum (depth : Nat) (now : Time) (env : Env) (wave : DiscussionWave) :
    Program System (List RunRecord) := do
  let s ← System.query id
  match s.get wave.discussionId with
  | none => pure []
  | some discussion =>
    if discussion.policy.waveCompletionMode = .readOnlyQuorum ∧
        quorumSoftDeadline discussion wave ≤ now then
      settleQuorumTurns P depth wave.waveId env (s.listTurnsForWave wave.waveId)
    else pure []

def reconcileDueQuorums (depth : Nat) (now : Time) (env : Env) :
    Program System (List RunRecord) := do
  let waves ← System.query fun s => s.listOpenWaves
  let scheduled ← Env.collect (reconcileDueQuorum P depth now) env waves
  pure (uniqueRuns scheduled.flatten)

def sweepTurn (depth : Nat) (env : Env) (turn : DiscussionTurn) :
    Program System (List RunRecord) := do
  let s ← System.query id
  match if turn.state.isTerminal then none else turn.runId.bind s.core.getRun with
  | none => pure []
  | some run =>
    if run.state = .inputRequired then do
      let result ← onRunInputRequired P depth env run.runId
      pure (scheduledRuns result)
    else if run.state.isTerminal ∨ isOwnerPrivateOutput s.core run.runId then do
      let result ← onRunTerminal P depth env run.runId
      pure (scheduledRuns result)
    else pure []

def sweepWave (depth : Nat) (env : Env) (wave : DiscussionWave) :
    Program System (List RunRecord) := do
  let turns ← System.query fun s => s.listTurnsForWave wave.waveId
  let scheduled ← Env.collect (sweepTurn P depth) env turns
  pure scheduled.flatten

def sweepDueWaves (depth : Nat) (env : Env) : Program System (List RunRecord) := do
  let waves ← System.query fun s => s.listOpenWaves
  let swept ← Env.collect (sweepWave P depth) (env.part 0) waves
  let quorums ← reconcileDueQuorums P depth (env.part 1).now (env.part 1)
  let expired ← expireDueWaves P depth (env.part 2)
  pure (uniqueRuns (swept.flatten ++ quorums ++ expired))

def discussionCanceled : Run.RuntimeError where
  code := "DISCUSSION_CANCELED"
  message := "The Discussion was canceled before this Run was accepted."
  retryable := false

def cancelRecoveryUnknown : Run.RuntimeError where
  code := "DISCUSSION_CANCEL_RECOVERY_UNKNOWN"
  message := "The server restarted before cancellation reached a known Runtime outcome."
  retryable := false

def canceledBeforeDispatch : TurnOutcome :=
  ⟨none, .canceled, none, none, some .discussionCanceledBeforeDispatch⟩

/-- The Run of a canceled Discussion's member, ended on restart. -/
def endCanceledRun (env : Env) (run : RunRecord) (now : Time) : Program System RunRecord :=
  if run.state.isTerminal then pure run
  else if run.state = .queued ∧ ¬ env.hasPeerDelivery run.runId then do
    let applied ← applyStatus run .canceled discussionCanceled now
    pure applied.run
  else do
    let applied ← applyStatus run .outcomeUnknown cancelRecoveryUnknown now
    pure applied.run

def closeCanceledTurn (depth : Nat) (now : Time) (env : Env) (turn : DiscussionTurn) :
    Program System Unit :=
  if turn.state.isTerminal then pure ()
  else match turn.runId with
    | none => System.modify (Store.settleTurn turn.turnId canceledBeforeDispatch now)
    | some runId => do
      let found ← System.query fun s => s.core.getRun runId
      match found with
      | none => pure ()
      | some run => do
        let ended ← endCanceledRun env run now
        let _ ← onRunTerminal P depth env ended.runId
        pure ()

/-- Closes the Wave if all its members are settled by now. -/
def closeSettledWave (waveId : WaveId) (now : Time) : Program System Unit := do
  let s ← System.query id
  let members := s.listTurnsForWave waveId
  match s.getWave waveId with
  | none => pure ()
  | some wave =>
    if wave.state = .opened ∧ members.all fun turn => turn.state.isTerminal then do
      let _ ← System.transact (Store.closeWave waveId wave.version (waveCloseState members) now)
      pure ()
    else pure ()

def closeCanceledWave (depth : Nat) (now : Time) (env : Env) (wave : DiscussionWave) :
    Program System Unit := do
  let s ← System.query id
  match s.get wave.discussionId with
  | none => pure ()
  | some discussion => System.when (discussion.state = .canceled) do
    let _ ← Env.collect (closeCanceledTurn P depth now) env (s.listTurnsForWave wave.waveId)
    closeSettledWave wave.waveId now

def closeCanceledWaves (depth : Nat) (env : Env) : Program System Unit := do
  let waves ← System.query fun s => s.listOpenWaves
  let _ ← Env.collect (closeCanceledWave P depth env.now) (env.part 0) waves
  pure ()

def refreshElapsedBudget (discussion : DiscussionRecord) (now : Time) : BudgetSnapshot :=
  { discussion.budget with
    durationSeconds := max discussion.budget.durationSeconds
      (elapsedSeconds discussion.createdAt now) }

/-- What `recoverActiveWithoutWave` does once a lease, if one was due, is charged. -/
def recoverDecided (depth : Nat) (env : Env) (s : Store) (current : DiscussionRecord)
    (decision : PolicyDecision) (events : List DiscussionBudgetEvent) :
    Program System (List RunRecord) :=
  if decision.action = .continue then
    planContinuation P (reconcileDiscussion P depth) env current events
  else if decision.action = .finalize then
    if decision.reason = some .hardBudgetExhausted ∧ current.currentWave = 0 ∧
        s.listWaves current.discussionId = [] then do
      appendFallbackConclusion P (env.part 0) current current.rootMessageId
      persistDecision (env.part 1) current { decision with state := .terminated } events
        (some (env.part 2).now)
      pure []
    else planFinalization P (reconcileDiscussion P depth) env current decision events
  else do
    persistDecision (env.part 1) current decision events
      (if decision.action = .cancel ∨ decision.action = .terminate then some (env.part 2).now
        else none)
    pure []

def recoverActiveWithoutWave (depth : Nat) (env : Env) (discussion : DiscussionRecord) :
    Program System (List RunRecord) := do
  let s ← System.query id
  let current := { discussion with budget := refreshElapsedBudget discussion (env.part 0).now }
  let decision := decideFrom current none
  let charge ← System.ofExcept (chargeAutomaticLease (env.part 1) s current decision
    ⟨current.budget, []⟩)
  recoverDecided P depth (env.part 2) s { current with budget := charge.budget } decision
    charge.events

/-- An open Discussion that a crash left without a Wave to wait for. -/
def recoverOpen (depth : Nat) (env : Env) (discussion : DiscussionRecord) :
    Program System (List RunRecord) := do
  let waves ← System.query fun s => s.listWaves discussion.discussionId
  if discussion.state ≠ .active ∨ waves.any fun wave => wave.state = .opened then pure []
  else recoverActiveWithoutWave P depth env discussion

/-- The outcomes of open Waves' members that were never reported. -/
def recoverWave (depth : Nat) (env : Env) (wave : DiscussionWave) :
    Program System (List RunRecord) := do
  let turns ← System.query fun s => s.listTurnsForWave wave.waveId
  let scheduled ← Env.collect (settleQuorumTurn P depth) env turns
  pure scheduled.flatten

/-- Whether a Run scheduled during recovery is still worth dispatching. -/
def isDispatchable (s : Store) (now : Time) (run : RunRecord) : Bool :=
  run.state = .queued ∧ (s.findTurnByRun run.runId).any fun turn =>
    ((s.getWave turn.waveId).any fun wave => wave.state = .opened ∧ now < wave.deadlineAt) ∧
      (s.get turn.discussionId).any fun discussion => ¬ discussion.state.isTerminal

/-- `recover`, after the plan drafts of finished Discussions were reconciled. -/
def recover (depth : Nat) (env : Env) : Program System (List RunRecord) := do
  closeCanceledWaves P depth (env.part 0)
  let now := (env.part 1).now
  let quorums ← reconcileDueQuorums P depth now (env.part 1)
  let expired ← expireDueWaves P depth (env.part 2)
  let unattended ← System.query Store.listOpen
  let recovered ← Env.collect (recoverOpen P depth) (env.part 3) unattended
  let unfinished ← System.query Store.listOpen
  let reconciled ← Env.collect (fun env discussion =>
    reconcileDiscussion P depth env discussion.discussionId) (env.part 4) unfinished
  let waves ← System.query Store.listOpenWaves
  let settled ← Env.collect (recoverWave P depth) (env.part 5) waves
  let s ← System.query id
  pure ((uniqueRuns (quorums ++ expired ++ recovered.flatten ++ reconciled.flatten ++
    settled.flatten)).filter (isDispatchable s now))

/-! ## Runs of the system -/

inductive Call where
  | create (input : CreateInput)
  | control (discussionId : DiscussionId) (input : ControlInput)
  | onRunTerminal (runId : RunId)
  | onRunInputRequired (runId : RunId)
  | reconcileDiscussion (discussionId : DiscussionId)
  | expireDueWaves
  | sweepDueWaves
  | recover

/-- Runs a program for what it writes. -/
def discard {α : Type} (m : Program System α) : Program System Unit := do
  let _ ← m
  pure ()

def exec (depth : Nat) (env : Env) : Call → Program System Unit
  | .create input => discard (create P depth env input)
  | .control discussionId input => discard (control P depth env discussionId input)
  | .onRunTerminal runId => discard (onRunTerminal P depth env runId)
  | .onRunInputRequired runId => discard (onRunInputRequired P depth env runId)
  | .reconcileDiscussion discussionId => discard (reconcileDiscussion P depth env discussionId)
  | .expireDueWaves => discard (expireDueWaves P depth env)
  | .sweepDueWaves => discard (sweepDueWaves P depth env)
  | .recover => discard (recover P depth env)

/-- The Runs that carry an orchestration key, with it. -/
def keyedRuns (core : Run.Database) : List (RunId × String) :=
  core.runs.filterMap fun run => run.orchestrationKey.map fun key => (run.runId, key)

/-- One step: a call, stopped anywhere, or a change of the Run tables by the other services, which
create no Run under an orchestration key. -/
inductive Step : System → System → Prop
  | call (depth : Nat) (env : Env) (call : Call) {w w' : System}
      (visited : w' ∈ (exec P depth env call).visits w) : Step w w'
  | other (core : Run.Database) {w : System} (keyed : keyedRuns core = keyedRuns w.store.core) :
      Step w { w with store := { w.store with core } }

/-- Before the first Discussion. -/
def System.initial (core : Run.Database) : System where
  store := ⟨core, [], [], [], [], [], [], []⟩
  entries := []

/-- The states the system can be in, from any Run tables without a Discussion's Runs. -/
def Reachable (w : System) : Prop :=
  ∃ core, keyedRuns core = [] ∧ Relation.ReflTransGen (Step P) (System.initial core) w

end ConveneWire.Discussion
