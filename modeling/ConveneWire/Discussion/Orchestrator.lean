import ConveneWire.Discussion.Services

/-! # `discussion-orchestrator.ts`

Planning a Wave, running its Turns and settling it, with
`discussion-wave-planner.ts`. JavaScript runs a call to its end before the next
one, so a call is one program; `atomic` marks the parts that commit as one
transaction, everything else commits statement by statement.

`reconcileDiscussion` and `advanceSettledWave` call each other. The depth of that
nesting is a parameter: a call that exceeds it raises, as the JavaScript stack
does, and every result holds for every depth. -/

namespace ConveneWire.Discussion

open Run (MessageId AgentId RunId Time RunRecord)
open Transactional
open Discussion.System (query ofOption transact ofExcept enter when)
open DiscussionTurn (speakerAgentId isUnbound waveId)

variable (P : Platform)

structure MutationResult where
  discussionId : DiscussionId
  scheduledRuns : List RunRecord := []
  cancelRunIds : List RunId := []

/-- `[...new Map(runs.map((run) => [run.runId, run])).values()]`. -/
def uniqueRuns (runs : List RunRecord) : List RunRecord :=
  (distinct (runs.map RunRecord.runId)).filterMap fun runId =>
    runs.reverse.find? fun run => run.runId = runId

def requireDiscussion (discussionId : DiscussionId) : Program System DiscussionRecord := do
  let s ← query id
  ofOption s!"Discussion not found: {discussionId}" (s.get discussionId)

/-! ## Participants -/

def isQuorumCapableAgent (env : Env) (agent : Agent) : Bool :=
  agent.enabled ∧ agent.integrationMode = .managed ∧ ¬ agent.ownerPrivateOutput ∧
    agent.readOnlyFilesystem ∧ agent.supportsDiscussionSupplementalEvidence ∧
    agent.deviceId.any env.deviceActive

/-- Whether an Agent may take part now. -/
def isEligible (env : Env) (discussion : DiscussionRecord) (room : RoomSettings)
    (task : TaskSettings) (participant : DiscussionParticipant) : Bool :=
  let agentId := participant.agentId
  (env.getAgent agentId).any fun agent =>
    agent.enabled ∧ agent.teamId = room.teamId ∧ env.isRoomAgent discussion.roomId agentId ∧
      (agent.integrationMode ≠ .peer ∨
        env.peerParticipantAllowed agentId discussion.roomId (env.part agentId).now) ∧
      (task.isDefault ∨ task.assignments.any fun assignment => assignment.1 = agentId) ∧
      (discussion.policy.waveCompletionMode ≠ .readOnlyQuorum ∨ isQuorumCapableAgent env agent)

def eligibleParticipants (env : Env) (discussion : DiscussionRecord)
    (participants : List DiscussionParticipant) : List DiscussionParticipant :=
  match env.getRoom discussion.roomId, env.getTask discussion.taskId with
  | some room, some task =>
    if room.allowDiscussion ∧ task.roomId = discussion.roomId ∧ ¬ task.closed then
      participants.filter (isEligible env discussion room task)
    else []
  | _, _ => []

/-- The Agents with a Turn still running in a Wave up to the given one. -/
def liveAgents (s : Store) (discussionId : DiscussionId) (throughWaveOrdinal : Nat) :
    List AgentId :=
  let waves := s.listWaves discussionId
  ((s.listTurns discussionId).filter fun turn => ¬ turn.state.isTerminal ∧
    ((Table.lookup DiscussionWave.waveId turn.waveId waves).map DiscussionWave.ordinal).getD 0 ≤
      throughWaveOrdinal).map speakerAgentId

def eligibleParticipantsForNextWave (env : Env) (s : Store) (discussion : DiscussionRecord)
    (participants : List DiscussionParticipant) (throughWaveOrdinal : Nat) :
    List DiscussionParticipant :=
  (eligibleParticipants env discussion participants).filter fun participant =>
    participant.agentId ∉ liveAgents s discussion.discussionId throughWaveOrdinal

def requiredParticipantRolesAvailable (discussion : DiscussionRecord)
    (participants : List DiscussionParticipant) : Bool :=
  (discussion.mode ≠ .review ∧ ¬ discussion.policy.requireReviewer) ∨
    participants.any fun participant => participant.role = .reviewer

/-- The ids of the questions an Agent has raised in completed Turns. -/
def reportedQuestionIds (s : Store) (discussionId : DiscussionId) (agentId : AgentId) :
    List String :=
  let turns := (s.listTurns discussionId).filter fun turn =>
    turn.state = .completed ∧ turn.speakerAgentId = agentId
  (distinct (turns.flatMap fun turn =>
    ((turn.assessment.bind AgentAssessment.openQuestions).getD []).map
      OpenQuestion.id)).insertionSort P.Precedes

def selectParticipants (env : Env) (s : Store) (discussion : DiscussionRecord)
    (participants : List DiscussionParticipant) (finalization : Bool) :
    Except String ParticipantSelection :=
  let task := env.getTask discussion.taskId
  let candidates := (eligibleParticipants env discussion participants).filterMap
    fun participant => (env.getAgent participant.agentId).map fun agent =>
      { participant
        agentRole := agent.role
        taskRole := task.bind fun task => (task.assignments.find? fun assignment =>
          assignment.1 = participant.agentId).map Prod.snd
        reportedQuestionIds := reportedQuestionIds P s discussion.discussionId
          participant.agentId : ParticipantCandidate }
  selectDiscussionParticipants P discussion candidates finalization

/-! ## Plans, decisions and budget events -/

def finalizationDurationMilliseconds : Nat := 5 * 60 * 1000

section

variable (env : Env)

section

variable (discussion : DiscussionRecord)

def planWave (participants : List DiscussionParticipant) (inputMessageId : MessageId)
    (kind : TurnKind) (selection : DiscussionWaveSelection) (now : Time) : DiscussionWave where
  waveId := env.freshId
  discussionId := discussion.discussionId
  ordinal := discussion.currentWave + 1
  phase := if kind = .finalization then .finalization else .contribution
  inputMessageId
  state := .opened
  deadlineAt := if kind = .finalization then now + finalizationDurationMilliseconds
    else min discussion.deadlineAt (now + discussion.policy.waveTimeoutSeconds * 1000)
  expectedMembers := participants.length
  version := 1
  createdAt := now
  updatedAt := now
  closedAt := none
  selection

def planTurn (inputMessageId : MessageId) (kind : TurnKind) (now : Time)
    (member : DiscussionParticipant × Nat) : DiscussionTurn where
  turnId := (env.part member.2).freshId
  discussionId := discussion.discussionId
  ordinal := discussion.currentTurn + member.2 + 1
  kind
  speakerAgentId := member.1.agentId
  inputMessageId
  runId := none
  outputMessageId := none
  state := .planned
  assessment := none
  replyHash := none
  createdAt := now
  updatedAt := now
  completedAt := none
  waveId := env.freshId
  waveMemberOrdinal := member.2
  terminalReason := none

def buildWavePlan (selection : ParticipantSelection) (inputMessageId : MessageId) (kind : TurnKind)
    (now : Time) : Except String WavePlan := do
  let participants := selection.participants
  require (participants ≠ []) "Discussion Wave has no eligible participant"
  assertDiscussionWaveSelection P selection.snapshot
    (some (participants.map DiscussionParticipant.agentId))
  pure ⟨planWave env discussion participants inputMessageId kind selection.snapshot now,
    participants.zipIdx.map (planTurn env discussion inputMessageId kind now)⟩

def newDecision (decision : PolicyDecision) (progress : ProgressSnapshot)
    (nextAgentId : Option AgentId) (now : Time) : DiscussionDecision where
  decisionId := env.freshId
  discussionId := discussion.discussionId
  aggregateVersion := discussion.version
  progressVersion := progress.version
  action := decision.action
  reason := decision.reason
  nextAgentId
  outputMode := decision.outputMode
  createdAt := now

end

def newBudgetEvent (s : Store) (discussion : DiscussionRecord) (eventType : BudgetEventType)
    (turns durationSeconds : Nat) (metadata : BudgetMetadata) (ordinalOffset : Nat) :
    DiscussionBudgetEvent where
  budgetEventId := env.freshId
  discussionId := discussion.discussionId
  ordinal := (s.listBudgetEvents discussion.discussionId).length + ordinalOffset + 1
  eventType
  turns
  durationSeconds
  metadata
  createdAt := env.now

/-- The row a decision writes: the passed record's values under the decision's state. -/
def aggregateUpdate (discussion : DiscussionRecord) (decision : PolicyDecision)
    (progress : ProgressSnapshot) (budget : BudgetSnapshot)
    (budgetEvents : List DiscussionBudgetEvent) (nextAgentId : Option AgentId) (now : Time) :
    AggregateUpdate where
  decision := newDecision env discussion decision progress nextAgentId now
  expectedVersion := discussion.version
  state := decision.state
  stateReason := decision.reason
  outputMode := if decision.action = .finalize then decision.outputMode else discussion.outputMode
  progress
  budget
  requestedAction := none
  budgetEvents

def persistDecision (discussion : DiscussionRecord) (decision : PolicyDecision)
    (budgetEvents : List DiscussionBudgetEvent) (terminalAt : Option Time) : Program System Unit :=
  transact (Store.recordDecisionAndUpdate (aggregateUpdate env discussion decision
    discussion.progress discussion.budget budgetEvents none env.now) terminalAt)

end

structure WavePlanInput where
  discussion : DiscussionRecord
  participants : List DiscussionParticipant
  inputMessageId : MessageId
  kind : TurnKind
  decision : PolicyDecision
  progress : ProgressSnapshot
  budget : BudgetSnapshot
  budgetEvents : List DiscussionBudgetEvent

def persistWavePlan (env : Env) (input : WavePlanInput) : Program System Unit := do
  let now := env.now
  let s ← query id
  let selection ← ofExcept (selectParticipants P (env.part 0) s input.discussion
    input.participants (input.kind = .finalization))
  let inputMessageId ← uniqueWaveAnchor (env.part 1) input.discussion selection.participants
    input.inputMessageId now
  let plan ← ofExcept (buildWavePlan P (env.part 2) input.discussion selection
    inputMessageId input.kind now)
  let nextAgentId := if input.kind = .finalization then
    plan.turns.head?.map speakerAgentId else none
  transact (Store.recordDecisionAndPlanWave P (aggregateUpdate (env.part 3)
    input.discussion input.decision input.progress input.budget input.budgetEvents nextAgentId
    now) plan)

/-! ## Runs of planned Turns -/

/-- `runs.createRuns([run])`. -/
def createRun (env : Env) (run : RunRecord) : Transaction Store Unit := fun s => do
  require (s.core.getRun run.runId = none) "UNIQUE constraint failed: runs.run_id"
  env.createRunAllowed run
  pure ((), { s with core := { s.core with runs := s.core.runs ++ [run] } })

def turnRun (env : Env) (discussion : DiscussionRecord) (wave : DiscussionWave)
    (turn : DiscussionTurn) (traceId : Nat) (now : Time) : RunRecord where
  runId := env.freshId
  traceId
  roomId := discussion.roomId
  taskId := discussion.taskId
  triggerMessageId := turn.inputMessageId
  requesterMemberId := discussion.requesterMemberId
  targetAgentId := turn.speakerAgentId
  state := .queued
  lastSequence := 0
  deadlineAt := wave.deadlineAt
  createdAt := now
  updatedAt := now
  terminalAt := none
  orchestrationKey := some (turnKey turn.turnId)

/-- The end of `ensureRun`: a new Run, then the Turn bound to it. -/
def startTurn (env : Env) (s : Store) (discussion : DiscussionRecord) (turn : DiscussionTurn) :
    Program System (Option RunRecord) := do
  let inputMessage ← ofOption s!"Discussion input Message not found: {turn.inputMessageId}"
    (s.core.getMessage turn.inputMessageId)
  let wave ← ofOption s!"Discussion Wave not found for Turn: {turn.turnId}"
    (s.getWave turn.waveId)
  ofExcept (env.buildInstruction s discussion wave turn)
  let run := turnRun env discussion wave turn inputMessage.traceId env.now
  transact (createRun env run)
  transact (Store.bindTurnRun turn.turnId run.runId .queued env.now)
  pure (some run)

def ensureRun : Nat → Env → DiscussionTurn → Program System (Option RunRecord)
  | 0, _, _ => Program.fail "Maximum call stack size exceeded"
  | depth + 1, env, turn => do
    enter (Entry.dispatching turn)
    let s ← query id
    match turn.runId with
    | some runId => pure (s.core.getRun runId)
    | none =>
      match findByOrchestrationKey s.core turn.turnId with
      | some byKey => do
        transact (Store.bindTurnRun turn.turnId byKey.runId
          (if byKey.state = .working then .working else .queued) env.now)
        pure (some byKey)
      | none => do
        let discussion ← requireDiscussion turn.discussionId
        match findTriggered s.core turn.inputMessageId turn.speakerAgentId with
        | none => startTurn (env.part 0) s discussion turn
        | some collision =>
          let latestAnchor := latestOutputMessageId P s discussion
          if latestAnchor = turn.inputMessageId then
            Program.fail s!"Discussion Run anchor conflicts with existing Run: {collision.runId}"
          else do
            transact (Store.reanchorPlannedWave turn.waveId latestAnchor env.now)
            let reanchored ← query fun s => s.getTurn turn.turnId
            match reanchored with
            | none => pure none
            | some reanchored => ensureRun depth (env.part 1) reanchored

/-- Whether a planned member would collide with a Run of another Turn. -/
def hasAnchorCollision (core : Run.Database) (turns : List DiscussionTurn) : Bool :=
  turns.any fun turn => core.runs.any fun run =>
    run.triggerMessageId = turn.inputMessageId ∧ run.targetAgentId = turn.speakerAgentId ∧
      run.orchestrationKey ≠ some (turnKey turn.turnId)

def preparePlannedWaveAnchor (env : Env) (waveId : WaveId) : Program System Unit := do
  let s ← query id
  match s.getWave waveId with
  | none => pure ()
  | some wave =>
    let turns := s.listTurnsForWave waveId
    if wave.state = .opened ∧ turns.all isUnbound ∧
        hasAnchorCollision s.core turns then do
      let discussion ← requireDiscussion wave.discussionId
      let planned := (s.listParticipants discussion.discussionId).filter fun participant =>
        turns.any fun turn => turn.speakerAgentId = participant.agentId
      let replacement ← uniqueWaveAnchor env discussion planned (latestOutputMessageId P s discussion)
        env.now
      transact (Store.reanchorPlannedWave waveId replacement env.now)
    else pure ()

/-! ## Advancing a settled Wave -/

/-- How the orchestrator's functions name `reconcileDiscussion` before it is defined. -/
abbrev Reconcile := Env → DiscussionId → Program System (List RunRecord)

/-- The replies of a settled Wave that count as progress. -/
def successfulResults (env : Env) (s : Store) (discussion : DiscussionRecord)
    (participants : List DiscussionParticipant) (turns : List DiscussionTurn) :
    List SuccessfulWaveResult :=
  turns.filterMap fun turn =>
    if turn.state = .completed ∧ turn.outputMessageId.isSome then
      (contributionReply env s turn).map fun reply =>
        { participantOrdinal := turn.waveMemberOrdinal
          reply
          assessment := turn.assessment
          speakerIsReviewer := participants.any fun participant =>
            participant.agentId = turn.speakerAgentId ∧ participant.role = .reviewer
          verifiedEvidenceRefs := env.verifyEvidenceRefs s discussion
            ((turn.assessment.bind AgentAssessment.newEvidenceRefs).getD []) }
    else none

def outcomeCounts (turns : List DiscussionTurn) (quorumSeal : Option DiscussionWaveSeal) :
    OutcomeCounts where
  completed := turns.countP fun turn => turn.state = .completed
  failed := turns.countP fun turn => turn.state = .failed
  canceled := turns.countP fun turn => turn.state = .canceled
  live := turns.countP fun turn => ¬ turn.state.isTerminal
  quorumSealId := quorumSeal.map fun candidate => candidate.sealId

/-- A finalization nobody can speak in ends the Discussion at once. -/
def endWithoutFinalizer (decision : PolicyDecision) : PolicyDecision :=
  if decision.reason = some .hardBudgetExhausted then { decision with state := .terminated }
  else { decision with state := .completed, reason := some .runtimeFailure }

/-- What becomes of a decision that cannot be carried out with the eligible participants. -/
def adjustDecision (discussion : DiscussionRecord) (eligible : List DiscussionParticipant)
    (decision : PolicyDecision) : PolicyDecision :=
  if eligible = [] ∧ decision.action = .continue then .waitHuman .waitingHuman .runtimeFailure
  else if decision.action = .continue ∧ ¬ requiredParticipantRolesAvailable discussion eligible then
    .waitHuman .waitingHuman .policyViolation
  else if eligible = [] ∧ decision.action = .finalize then endWithoutFinalizer decision
  else decision

/-- A budget and the ledger events that lead to it. -/
structure BudgetCharge where
  budget : BudgetSnapshot
  events : List DiscussionBudgetEvent

/-- The automatic lease a decision asks for. -/
def chargeAutomaticLease (env : Env) (s : Store) (discussion : DiscussionRecord)
    (decision : PolicyDecision) (charge : BudgetCharge) : Except String BudgetCharge :=
  if decision.grantAutomaticLease then do
    let budget ← grantDiscussionLease charge.budget discussion.policy none .automatic
    pure ⟨budget, charge.events ++ [newBudgetEvent env s discussion .extensionGranted
      (budget.leaseEndTurn - charge.budget.leaseEndTurn) budget.durationSeconds (.lease .automatic)
      charge.events.length]⟩
  else .ok charge

/-- The Agent Run a finalization Wave reserves. -/
def chargeFinalization (env : Env) (s : Store) (discussion : DiscussionRecord)
    (waveId : Option WaveId) (charge : BudgetCharge) : BudgetCharge :=
  ⟨{ charge.budget with agentRunsUsed := charge.budget.agentRunsUsed + 1 },
    charge.events ++ [newBudgetEvent env s discussion .finalizationReserved 1
      charge.budget.durationSeconds (.finalization waveId 1) charge.events.length]⟩

structure NextWave where
  plan : Option WavePlan
  charge : BudgetCharge

/-- The Wave that follows a settled one, if the decision has one. -/
def planNextWave (env : Env) (s : Store) (discussion : DiscussionRecord)
    (eligible : List DiscussionParticipant) (decision : PolicyDecision)
    (progress : ProgressSnapshot) (inputMessageId : MessageId) (now : Time) (charge : BudgetCharge) :
    Except String NextWave :=
  let current := { discussion with progress, budget := charge.budget }
  if decision.action = .continue then do
    let selection ← selectParticipants P env s current eligible false
    let plan ← buildWavePlan P env discussion selection inputMessageId .discussion now
    pure ⟨some plan, charge⟩
  else if decision.action = .finalize ∧ eligible ≠ [] then do
    let selection ← selectParticipants P env s current eligible true
    let plan ← buildWavePlan P env discussion selection inputMessageId .finalization now
    pure ⟨some plan, chargeFinalization env s discussion (some plan.wave.waveId) charge⟩
  else .ok ⟨none, charge⟩

/-- The input of `closeReadyWaveAndApply` for a settled Wave. -/
def settledApply (env : Env) (discussion : DiscussionRecord) (wave : DiscussionWave)
    (allTurns : List DiscussionTurn) (quorumSeal : Option DiscussionWaveSeal)
    (decision : PolicyDecision) (progress : ProgressSnapshot) (next : NextWave) (now : Time) :
    Store.ApplyInput where
  waveId := wave.waveId
  expectedWaveVersion := wave.version
  closeState := if quorumSeal.isSome then .partly else waveCloseState allTurns
  closedAt := now
  update := aggregateUpdate env discussion decision progress next.charge.budget next.charge.events
    (if decision.action = .finalize then next.plan.bind fun plan =>
      plan.turns.head?.map speakerAgentId else none) now
  terminalAt := if decision.state.isTerminal then some now else none
  nextWave := next.plan
  quorumSeal

def advanceSettledWave (reconcile : Reconcile) (env : Env) (discussion : DiscussionRecord)
    (wave : DiscussionWave) (projectionTurns allTurns : List DiscussionTurn)
    (quorumSeal : Option DiscussionWaveSeal) : Program System MutationResult := do
  let s ← query id
  let participants := s.listParticipants discussion.discussionId
  let eligible := eligibleParticipantsForNextWave env s discussion participants wave.ordinal
  let results := successfulResults env s discussion participants projectionTurns
  let evaluation ← ofExcept (evaluateWaveProgress P discussion.progress results
    discussion.policy (recentAcceptedReplies env s discussion wave))
  let nextInputMessageId ← ensureWaveResultAnchor P (env.part 0) discussion wave projectionTurns
    (env.part 0).now
  let used ← ofExcept (recordTurnUsage discussion.budget wave.expectedMembers
    discussion.createdAt (env.part 1).now)
  let recorded := newBudgetEvent (env.part 1) s discussion .turnRecorded 1 used.durationSeconds
    (.settledWave wave.waveId wave.ordinal wave.expectedMembers (outcomeCounts allTurns quorumSeal)) 0
  let decided := decideDiscussion {
    progress := evaluation.snapshot
    budget := used
    policy := discussion.policy
    requestedOutputMode := discussion.outputMode
    userIntent := discussion.requestedAction.map RequestedAction.intent
    runtimeInputRequired := projectionTurns.any fun turn =>
      turn.terminalReason = some .inputRequired
    runtimeFailed := results = [] }
  when (eligible = [] ∧ decided.action = .finalize)
    (appendFallbackConclusion P (env.part 2) discussion nextInputMessageId)
  let decision := adjustDecision discussion eligible decided
  let granted ← ofExcept (chargeAutomaticLease (env.part 3) s discussion decision
    ⟨used, [recorded]⟩)
  let now := (env.part 4).now
  let next ← ofExcept (planNextWave P (env.part 4) s discussion eligible decision
    evaluation.snapshot nextInputMessageId now granted)
  let applied ← transact (Store.closeReadyWaveAndApply P (settledApply (env.part 5)
    discussion wave allTurns quorumSeal decision evaluation.snapshot next now))
  if applied ∧ next.plan.isSome then do
    let scheduledRuns ← reconcile (env.part 6) discussion.discussionId
    pure { discussionId := discussion.discussionId, scheduledRuns }
  else pure { discussionId := discussion.discussionId }

/-- Closing a finalization Wave; a successful one may leave a plan draft with it. -/
def closeFinalization (env : Env) (discussion : DiscussionRecord) (wave : DiscussionWave)
    (turns : List DiscussionTurn) (succeeded : Bool) (now : Time) : Program System Unit :=
  let close := transact (Store.closeFinalizationAndFinish {
    discussionId := discussion.discussionId
    expectedDiscussionVersion := discussion.version
    state := if discussion.stateReason = some .hardBudgetExhausted then .terminated else .completed
    waveId := wave.waveId
    expectedWaveVersion := wave.version
    waveState := waveCloseState turns
    now })
  match if succeeded then env.planProposals else none with
  | some propose => Program.atomic do
    close
    ofExcept (propose discussion wave)
  | none => close

def finishFinalization (env : Env) (discussion : DiscussionRecord) (wave : DiscussionWave)
    (turns : List DiscussionTurn) : Program System MutationResult := do
  let finalizationSucceeded := turns.any fun turn => turn.state = .completed
  when (¬ finalizationSucceeded)
    (appendFallbackConclusion P (env.part 0) discussion wave.inputMessageId)
  closeFinalization env discussion wave turns finalizationSucceeded (env.part 1).now
  pure { discussionId := discussion.discussionId }

def advanceReadyWave (reconcile : Reconcile) (env : Env) (discussion : DiscussionRecord)
    (wave : DiscussionWave) (turns : List DiscussionTurn) : Program System MutationResult :=
  if discussion.state.isTerminal then do
    let _ ← transact (Store.closeWave wave.waveId wave.version (waveCloseState turns) env.now)
    pure { discussionId := discussion.discussionId }
  else if wave.phase = .finalization then finishFinalization P env discussion wave turns
  else advanceSettledWave P reconcile env discussion wave turns turns none

/-! ## Reconciling -/

def agentUnavailable : TurnOutcome := ⟨none, .failed, none, none, some .agentUnavailable⟩

/-- One Wave that lost planned members: it may now be settled. -/
def advanceAffectedWave (reconcile : Reconcile) (discussionId : DiscussionId) (env : Env)
    (waveId : WaveId) : Program System (List RunRecord) := do
  let s ← query id
  let turns := s.listTurnsForWave waveId
  match s.getWave waveId with
  | none => pure []
  | some wave =>
    if wave.state = .opened ∧ turns.all fun turn => turn.state.isTerminal then do
      let discussion ← requireDiscussion discussionId
      let result ← advanceReadyWave P reconcile env discussion wave turns
      pure result.scheduledRuns
    else pure []

/-- The stored selections of open Waves still name their members. -/
def checkOpenSelections (s : Store) (discussionId : DiscussionId) : Except String Unit :=
  (s.listWaves discussionId).forM fun wave =>
    if wave.state = .opened then
      assertDiscussionWaveSelection P wave.selection
        (some ((s.listTurnsForWave wave.waveId).map speakerAgentId))
    else .ok ()

def reconcileDiscussion : Nat → Reconcile
  | 0, _, _ => Program.fail "Maximum call stack size exceeded"
  | depth + 1, env, discussionId => do
    let discussion ← requireDiscussion discussionId
    let s ← query id
    let eligible := eligibleParticipants env discussion (s.listParticipants discussionId)
    ofExcept (checkOpenSelections P s discussionId)
    let unavailable := (s.listTurns discussionId).filter fun turn => turn.state = .planned ∧
      ¬ eligible.any fun participant => participant.agentId = turn.speakerAgentId
    let _ ← Env.collect (fun env turn => System.modify
      (Store.settleTurn turn.turnId agentUnavailable env.now)) (env.part 0) unavailable
    let planned ← query fun s => (s.listTurns discussionId).filter fun turn =>
      turn.state = .planned
    let _ ← Env.collect (preparePlannedWaveAnchor P) (env.part 1)
      (distinct (planned.map waveId))
    let pending ← query fun s => (s.listTurns discussionId).filter fun turn =>
      turn.state = .planned ∨ turn.state = .queued
    let runs ← Env.collect (ensureRun P depth) (env.part 2) pending
    let advanced ← Env.collect (advanceAffectedWave P (reconcileDiscussion depth) discussionId)
      (env.part 3) (distinct (unavailable.map waveId))
    let queued := runs.filterMap fun run => run.filter fun run => run.state = .queued
    pure (uniqueRuns (queued ++ advanced.flatten))

/-! ## Run outcomes -/

/-- `quorumSoftDeadline(wave.createdAt, seconds)`. -/
def quorumSoftDeadline (discussion : DiscussionRecord) (wave : DiscussionWave) : Time :=
  wave.createdAt + discussion.policy.quorumSoftDeadlineSeconds * 1000

/-- The member entry of a seal for a Turn that completed with a projected reply. -/
def acceptedMember (s : Store) (participants : List DiscussionParticipant) (turn : DiscussionTurn) :
    Option WaveSealMember :=
  match turn.state, turn.runId, turn.outputMessageId, turn.replyHash with
  | .completed, some runId, some outputMessageId, some replyHash =>
    let message := s.core.getMessage outputMessageId
    let reply := (s.core.listEvents runId).find? fun row => (replyAssessment row.event).isSome ∧
      s.core.replyProjections.any fun projection => projection.runId = runId ∧
        projection.replySequence = row.sequence ∧ projection.messageId = outputMessageId
    let participant := participants.find? fun participant =>
      participant.agentId = turn.speakerAgentId
    match message, reply, participant with
    | some message, some reply, some participant =>
      some ⟨turn.turnId, turn.waveMemberOrdinal, turn.speakerAgentId, participant.role, runId,
        reply.sequence, message.messageId, message.sequence, replyHash⟩
    | _, _, _ => none
  | _, _, _, _ => none

def quorumSealIfReady (env : Env) (s : Store) (discussion : DiscussionRecord)
    (wave : DiscussionWave) (turns : List DiscussionTurn) : Option DiscussionWaveSeal :=
  if discussion.policy.waveCompletionMode ≠ .readOnlyQuorum ∨ wave.phase = .finalization ∨
      wave.state ≠ .opened ∨ env.now < quorumSoftDeadline discussion wave then none
  else
    let participants := s.listParticipants discussion.discussionId
    let acceptedMembers := (turns.filterMap (acceptedMember s participants)).insertionSort
      WaveSealMember.OrdinalLe
    let requiredRoles := wave.selection.requiredRoles
    if acceptedMembers.length < discussion.policy.quorumMinimumCompleted ∨
        (requiredRoles.any fun role => ¬ acceptedMembers.any fun member => member.role = role) then
      none
    else some (createDiscussionWaveSeal P {
      sealId := env.freshId
      discussionId := discussion.discussionId
      waveId := wave.waveId
      softDeadlineAt := quorumSoftDeadline discussion wave
      minimumCompleted := discussion.policy.quorumMinimumCompleted
      requiredRoles
      acceptedMembers
      sealedAt := (env.part 0).now })

/-- Settles the members whose Runs ended without a callback. -/
def reconcileTerminalWaveTurns (env : Env) (wave : DiscussionWave) (turns : List DiscussionTurn) :
    Program System (List DiscussionTurn) := do
  let _ ← Env.collect (fun env turn => settleMember env turn) env turns
  query fun s => s.listTurnsForWave wave.waveId
where
  settleMember (env : Env) (turn : DiscussionTurn) : Program System Unit := do
    let s ← query id
    match if turn.state.isTerminal then none else turn.runId.bind s.core.getRun with
    | none => pure ()
    | some run => when run.state.isTerminal do
      let _ ← settle P env run.runId env.now
      pure ()

/-- The Wave of a settled Run goes on if it is ready, or sealed if a quorum is. -/
def advanceAfterSettlement (reconcile : Reconcile) (env : Env) (discussion : DiscussionRecord)
    (wave : DiscussionWave) (turns : List DiscussionTurn) : Program System MutationResult := do
  let s ← query id
  if turns.all fun turn => turn.state.isTerminal then
    advanceReadyWave P reconcile (env.part 0) discussion wave turns
  else match quorumSealIfReady P (env.part 1) s discussion wave turns with
    | none => pure { discussionId := discussion.discussionId }
    | some quorumSeal =>
      let accepted := turns.filter fun turn =>
        quorumSeal.acceptedMembers.any fun member => member.turnId = turn.turnId
      advanceSettledWave P reconcile (env.part 2) discussion wave accepted turns (some quorumSeal)

def onRunTerminalWithinTransaction (reconcile : Reconcile) (env : Env) (runId : RunId) :
    Program System (Option MutationResult) := do
  enter (Entry.settling env runId)
  let settlement ← settle P (env.part 0) runId (env.part 0).now
  match settlement with
  | none => pure none
  | some settlement => do
    let discussion ← requireDiscussion settlement.discussionId
    match settlement.wave with
    | none => pure (some { discussionId := discussion.discussionId })
    | some wave =>
      if wave.state ≠ .opened then pure (some { discussionId := discussion.discussionId })
      else do
        let turns ← if discussion.policy.waveCompletionMode = .readOnlyQuorum then
          reconcileTerminalWaveTurns P (env.part 1) wave settlement.turns
          else pure settlement.turns
        let result ← advanceAfterSettlement P reconcile (env.part 2) discussion wave turns
        pure (some result)

def onRunTerminal (depth : Nat) (env : Env) (runId : RunId) :
    Program System (Option MutationResult) :=
  Program.atomic (onRunTerminalWithinTransaction P (reconcileDiscussion P depth) env runId)

/-- A repository call on the Run tables. -/
def onCore {α : Type} (t : Transaction Run.Database α) : Transaction Store α := fun s =>
  match t s.core with
  | .error e => .error e
  | .ok (a, core) => .ok (a, { s with core })

def applyStatus (run : RunRecord) (status : Run.RuntimeStatus) (error : Run.RuntimeError)
    (now : Time) : Program System Run.AppliedRunEvent :=
  transact (onCore (Run.applyRuntimeEvent run.runId
    (.failedStatus (run.lastSequence + 1) status error) now))

def discussionInputRequired : Run.RuntimeError where
  code := "DISCUSSION_INPUT_REQUIRED"
  message := "This Discussion Runtime requires human input that the Wave cannot resume."
  retryable := false

def onRunInputRequired (depth : Nat) (env : Env) (runId : RunId) :
    Program System (Option MutationResult) := do
  let s ← query id
  match s.core.getRun runId with
  | none => pure none
  | some run =>
    if run.state = .inputRequired ∧ (s.findTurnByRun runId).isSome then do
      let applied ← applyStatus run .outcomeUnknown discussionInputRequired (env.part 0).now
      onRunTerminal P depth (env.part 1) applied.run.runId
    else pure none

end ConveneWire.Discussion
