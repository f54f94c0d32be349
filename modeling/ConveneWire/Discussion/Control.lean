import ConveneWire.Discussion.Orchestrator

/-! # `create` and `control`

What members ask of the orchestrator: a new Discussion, and the six controls of
an unfinished one. -/

namespace ConveneWire.Discussion

open Run (RoomId TaskId MessageId AgentId Time RunRecord Member)
open Transactional
open Discussion.System (query ofExcept transact)

variable (P : Platform)

/-! ## Planning from outside a settlement -/

def planContinuation (reconcile : Reconcile) (env : Env) (discussion : DiscussionRecord)
    (budgetEvents : List DiscussionBudgetEvent) : Program System (List RunRecord) := do
  let s ← query id
  let participants := eligibleParticipantsForNextWave env s discussion
    (s.listParticipants discussion.discussionId) discussion.currentWave
  if participants = [] then do
    persistDecision (env.part 0) discussion (.waitHuman .waitingHuman .runtimeFailure)
      budgetEvents none
    pure []
  else if ¬ requiredParticipantRolesAvailable discussion participants then do
    persistDecision (env.part 0) discussion (.waitHuman .waitingHuman .policyViolation)
      budgetEvents none
    pure []
  else do
    persistWavePlan P (env.part 0) {
      discussion
      participants
      inputMessageId := latestOutputMessageId P s discussion
      kind := .discussion
      decision := .proceed false
      progress := discussion.progress
      budget := discussion.budget
      budgetEvents }
    reconcile (env.part 1) discussion.discussionId

def planFinalization (reconcile : Reconcile) (env : Env) (discussion : DiscussionRecord)
    (decision : PolicyDecision) (usageEvents : List DiscussionBudgetEvent) :
    Program System (List RunRecord) := do
  let s ← query id
  let participants := (eligibleParticipantsForNextWave env s discussion
    (s.listParticipants discussion.discussionId) discussion.currentWave).filter
      fun participant => ¬ (env.getAgent participant.agentId).any Agent.ownerPrivateOutput
  if participants = [] then do
    appendFallbackConclusion P (env.part 0) discussion (latestOutputMessageId P s discussion)
    persistDecision (env.part 1) discussion (endWithoutFinalizer decision) usageEvents
      (some (env.part 0).now)
    pure []
  else do
    let charge := chargeFinalization (env.part 0) s discussion none ⟨discussion.budget, usageEvents⟩
    persistWavePlan P (env.part 1) {
      discussion
      participants
      inputMessageId := latestOutputMessageId P s discussion
      kind := .finalization
      decision
      progress := discussion.progress
      budget := charge.budget
      budgetEvents := charge.events }
    reconcile (env.part 2) discussion.discussionId

/-- `prepareResumeBudget`: at the lease boundary, below the hard one, a resume needs a lease. -/
def prepareResumeBudget (env : Env) (s : Store) (discussion : DiscussionRecord)
    (requestedTurns : Option Int) : Except String BudgetCharge :=
  let status := inspectBudget discussion.budget discussion.policy
  if ¬ status.leaseBoundaryReached ∨ status.hardBoundaryReached then .ok ⟨discussion.budget, []⟩
  else do
    let budget ← grantDiscussionLease discussion.budget discussion.policy requestedTurns .user
    pure ⟨budget, [newBudgetEvent env s discussion .extensionGranted
      (budget.leaseEndTurn - discussion.budget.leaseEndTurn) discussion.budget.durationSeconds
      (.lease .user) 0]⟩

/-- The decision from a record alone, outside a settlement. -/
def decideFrom (discussion : DiscussionRecord) (userIntent : Option DiscussionUserIntent) :
    PolicyDecision :=
  decideDiscussion {
    progress := discussion.progress
    budget := discussion.budget
    policy := discussion.policy
    requestedOutputMode := discussion.outputMode
    userIntent }

/-- Where `continue` and `adjust_goal` end: a resumed Discussion goes on or finalizes. -/
def resume (reconcile : Reconcile) (env : Env) (discussion : DiscussionRecord)
    (budgetEvents : List DiscussionBudgetEvent) : Program System (List RunRecord) :=
  if (inspectBudget discussion.budget discussion.policy).hardBoundaryReached then
    planFinalization P reconcile env discussion (decideFrom discussion none) budgetEvents
  else planContinuation P reconcile env discussion budgetEvents

/-! ## `control` -/

inductive ControlAction where
  | finish | stopAfterTurn | pause | cancel | continue | adjustGoal
  deriving DecidableEq, Repr

def ControlAction.text : ControlAction → String
  | .finish => "finish"
  | .stopAfterTurn => "stop_after_turn"
  | .pause => "pause"
  | .cancel => "cancel"
  | .continue => "continue"
  | .adjustGoal => "adjust_goal"

structure ControlInput where
  action : ControlAction
  goal : Option String := none
  extensionTurns : Option Int := none

def latestOpenWave (s : Store) (discussionId : DiscussionId) : Option DiscussionWave :=
  ((s.listWaves discussionId).filter fun wave => wave.state = .opened).getLast?

def controlCancel (env : Env) (s : Store) (discussion : DiscussionRecord) :
    Program System MutationResult := do
  let cancelRunIds := match latestOpenWave s discussion.discussionId with
    | none => []
    | some wave => ((s.listTurnsForWave wave.waveId).filter fun turn =>
        ¬ turn.state.isTerminal).filterMap DiscussionTurn.runId
  persistDecision (env.part 0) discussion (decideFrom discussion (some .cancel)) []
    (some (env.part 1).now)
  pure { discussionId := discussion.discussionId, cancelRunIds }

def controlAdjustGoal (depth : Nat) (env : Env) (s : Store) (discussion : DiscussionRecord)
    (input : ControlInput) : Program System MutationResult := do
  ofExcept (require (latestOpenWave s discussion.discussionId = none ∧
    discussion.state.isResumable)
    s!"Discussion cannot adjust its goal from {discussion.state.text}")
  let goal := P.trim (input.goal.getD "")
  ofExcept (require (1 ≤ P.utf16Length goal ∧ P.utf16Length goal ≤ 20000)
    "Adjusted goal must contain 1 to 20000 characters")
  let charge ← ofExcept (prepareResumeBudget (env.part 0) s discussion input.extensionTurns)
  transact (Store.updateGoal discussion.discussionId discussion.version goal
    (env.part 1).now)
  let updated ← requireDiscussion discussion.discussionId
  let scheduledRuns ← resume P (reconcileDiscussion P depth) (env.part 2)
    { updated with budget := charge.budget } charge.events
  pure { discussionId := discussion.discussionId, scheduledRuns }

/-- The record `planContinuation` is given on `continue`; `planFinalization` gets the stored
state, which no finalization decision keeps. -/
def continued (discussion : DiscussionRecord) (budget : BudgetSnapshot) : DiscussionRecord :=
  if (inspectBudget budget discussion.policy).hardBoundaryReached then { discussion with budget }
  else { discussion with state := .active, stateReason := none, requestedAction := none, budget }

def controlContinue (depth : Nat) (env : Env) (s : Store) (discussion : DiscussionRecord)
    (input : ControlInput) : Program System MutationResult := do
  ofExcept (require discussion.state.isResumable
    s!"Discussion cannot continue from {discussion.state.text}")
  ofExcept (require (latestOpenWave s discussion.discussionId = none)
    "Discussion cannot continue while a Wave is still open")
  let charge ← ofExcept (prepareResumeBudget (env.part 0) s discussion input.extensionTurns)
  let scheduledRuns ← resume P (reconcileDiscussion P depth) (env.part 1)
    (continued discussion charge.budget) charge.events
  pure { discussionId := discussion.discussionId, scheduledRuns }

/-- `finish`, `stop_after_turn` and `pause`: noted for the open Wave, or decided at once. -/
def controlStop (depth : Nat) (env : Env) (s : Store) (discussion : DiscussionRecord)
    (action : RequestedAction) : Program System MutationResult :=
  if (latestOpenWave s discussion.discussionId).isSome then do
    transact (Store.requestAction discussion.discussionId discussion.version action
      .stopRequested (if action = .pause then .userPaused else .userRequestedFinish) env.now)
    pure { discussionId := discussion.discussionId }
  else
    let decision := decideFrom discussion (some action.intent)
    if decision.action = .finalize then do
      let scheduledRuns ← planFinalization P (reconcileDiscussion P depth) (env.part 0) discussion
        decision []
      pure { discussionId := discussion.discussionId, scheduledRuns }
    else do
      persistDecision (env.part 0) discussion decision [] none
      pure { discussionId := discussion.discussionId }

/-- The dispatch of `control` once the requester may act on an unfinished Discussion. -/
def controlUnfinished (depth : Nat) (env : Env) (s : Store) (discussion : DiscussionRecord)
    (input : ControlInput) : Program System MutationResult :=
  if input.action = .cancel then controlCancel env s discussion
  else if discussion.state = .finalizing then
    if input.action = .finish ∨ input.action = .stopAfterTurn then
      pure { discussionId := discussion.discussionId }
    else Program.fail s!"Discussion cannot {input.action.text} while finalizing"
  else match input.action with
    | .adjustGoal => controlAdjustGoal P depth env s discussion input
    | .continue => controlContinue P depth env s discussion input
    | .finish => controlStop P depth env s discussion .finish
    | .stopAfterTurn => controlStop P depth env s discussion .stopAfterTurn
    | .pause => controlStop P depth env s discussion .pause
    | .cancel => controlCancel env s discussion

def control (depth : Nat) (env : Env) (discussionId : DiscussionId) (input : ControlInput) :
    Program System MutationResult := do
  let discussion ← requireDiscussion discussionId
  let s ← query id
  let member ← ofExcept (env.requireRoomMember discussion.roomId)
  ofExcept (require (member.memberId = discussion.requesterMemberId ∨ member.role = .owner)
    "Discussion control is limited to its requester or Team Owner")
  if discussion.state.isTerminal then pure { discussionId }
  else controlUnfinished P depth env s discussion input

/-! ## `create` -/

/-- The absent `mode` and `outputMode` of a request are filled in by the defaults here. -/
structure CreateInput where
  roomId : RoomId
  taskId : Option TaskId := none
  goal : String
  participantAgentIds : List AgentId
  mode : DiscussionMode := .roundRobin
  outputMode : DiscussionOutputMode := .finalAnswer
  policy : PolicyOverrides := {}

/-- What a participant of a new Discussion must be. -/
def requireParticipant (env : Env) (room : RoomSettings) (roomId : RoomId) (task : TaskSettings)
    (now : Time) (agentId : AgentId) : Except String Agent :=
  match env.getAgent agentId with
  | none => .error s!"Discussion participant is unavailable: {agentId}"
  | some agent => do
    require (agent.enabled ∧ agent.teamId = room.teamId ∧ env.isRoomAgent roomId agentId ∧
      (agent.integrationMode ≠ .peer ∨ env.peerParticipantAllowed agentId roomId now))
      s!"Discussion participant is unavailable: {agentId}"
    require (task.isDefault ∨ task.assignments.any fun assignment => assignment.1 = agentId)
      s!"Discussion participant is not assigned: {agentId}"
    pure agent

/-- The checks that tie the policy, the mode and the participants together. -/
def requireConsistent (env : Env) (input : CreateInput) (policy : DiscussionPolicy)
    (agents : List Agent) : Except String Unit := do
  require (¬ ((agents.any fun agent => agent.integrationMode = .peer) ∧
    agents.any fun agent => agent.ownerPrivateOutput))
    "Peer Discussion currently requires shared-output participants"
  require (input.outputMode = .none ∨ ¬ agents.all fun agent => agent.ownerPrivateOutput)
    "Discussion final output requires a shared-output Finalizer participant"
  require (policy.requireReviewer → input.mode = .review)
    "Reviewer-required Discussion policy requires review mode"
  require (policy.waveCompletionMode = .readOnlyQuorum →
    policy.quorumMinimumCompleted ≤ agents.length ∧ agents.all (isQuorumCapableAgent env))
    "Read-only quorum requires managed supplemental-capable read-only participants"

/-- The open Discussion of a Task, which excludes another one. -/
def openDiscussion (s : Store) (roomId : RoomId) (taskId : TaskId) : Option DiscussionRecord :=
  (s.listForRoom roomId).find? fun row => row.taskId = taskId ∧ ¬ row.state.isTerminal

/-- What a request to create a Discussion was checked to be. -/
structure CheckedCreate where
  member : Member
  goal : String
  taskId : TaskId
  policy : DiscussionPolicy

def checkCreate (env : Env) (s : Store) (input : CreateInput) (now : Time) :
    Except String CheckedCreate := do
  let member ← env.requireRoomMember input.roomId
  let goal := P.trim input.goal
  require (1 ≤ P.utf16Length goal ∧ P.utf16Length input.goal ≤ 20000)
    "Discussion goal must contain 1 to 20000 characters"
  require (2 ≤ input.participantAgentIds.length ∧
    input.participantAgentIds.length ≤ maximumParticipants)
    "Discussion requires 2 to 5 participants"
  require input.participantAgentIds.Nodup "Discussion participants must be unique"
  let room ← (env.getRoom input.roomId).elim (.error s!"Room not found: {input.roomId}") .ok
  require room.allowDiscussion "Room policy does not allow Agent Discussions"
  let taskId ← (input.taskId.or (env.getDefaultTask input.roomId)).elim
    (.error "Discussion Task must be runnable in the target Room") .ok
  let task ← (env.getTask taskId).elim
    (.error "Discussion Task must be runnable in the target Room") .ok
  require (task.roomId = input.roomId ∧ ¬ task.closed)
    "Discussion Task must be runnable in the target Room"
  (openDiscussion s input.roomId taskId).elim (.ok ()) fun row =>
    .error s!"Task already has an active Discussion: {row.discussionId}"
  let agents ← input.participantAgentIds.mapM
    (requireParticipant env room input.roomId task now)
  let policy ← resolvePolicy input.policy
  requireConsistent env input policy agents
  pure ⟨member, goal, taskId, policy⟩

def newDiscussion (input : CreateInput) (checked : CheckedCreate) (discussionId : DiscussionId)
    (rootMessageId : MessageId) (now : Time) : DiscussionRecord where
  discussionId
  roomId := input.roomId
  taskId := checked.taskId
  rootMessageId
  requesterMemberId := checked.member.memberId
  goal := checked.goal
  mode := input.mode
  state := .active
  stateReason := none
  outputMode := input.outputMode
  policy := checked.policy
  progress := emptyProgressSnapshot
  budget := emptyBudgetSnapshot checked.policy.initialLeaseTurns
  currentTurn := 0
  currentWave := 0
  requestedAction := none
  version := 1
  deadlineAt := now + checked.policy.maxDurationSeconds * 1000
  createdAt := now
  updatedAt := now
  terminalAt := none

def newParticipants (input : CreateInput) (discussionId : DiscussionId) :
    List DiscussionParticipant :=
  input.participantAgentIds.zipIdx.map fun (agentId, ordinal) =>
    { discussionId, ordinal, agentId
      role := if input.mode = .review ∧ ordinal + 1 = input.participantAgentIds.length
        then .reviewer else .participant }

def initialBudgetEvent (env : Env) (discussionId : DiscussionId) (policy : DiscussionPolicy)
    (now : Time) : DiscussionBudgetEvent where
  budgetEventId := env.freshId
  discussionId
  ordinal := 1
  eventType := .leaseGranted
  turns := policy.initialLeaseTurns
  durationSeconds := 0
  metadata := .lease .initial
  createdAt := now

/-- The Message a Discussion starts from, written by its requester. -/
def rootMessage (env : Env) (input : CreateInput) (checked : CheckedCreate) (now : Time) :
    NewMessage where
  messageId := env.freshId
  roomId := input.roomId
  taskId := checked.taskId
  senderType := .member
  senderId := checked.member.memberId
  content := checked.goal
  parentMessageId := none
  traceId := (env.part 0).freshId
  createdAt := now

def createWithinTransaction (depth : Nat) (env : Env) (input : CreateInput) :
    Program System MutationResult := do
  let now := env.now
  let s ← query id
  let checked ← ofExcept (checkCreate P env s input now)
  let message := rootMessage (env.part 0) input checked now
  transact (appendMessage env message)
  let discussion := newDiscussion input checked (env.part 1).freshId message.messageId now
  let participants := newParticipants input discussion.discussionId
  transact (Store.create discussion participants
    (initialBudgetEvent (env.part 2) discussion.discussionId checked.policy now))
  persistWavePlan P (env.part 3) {
    discussion
    participants
    inputMessageId := message.messageId
    kind := .discussion
    decision := .proceed false
    progress := discussion.progress
    budget := discussion.budget
    budgetEvents := [] }
  let scheduledRuns ← reconcileDiscussion P depth (env.part 4) discussion.discussionId
  pure { discussionId := discussion.discussionId, scheduledRuns }

def create (depth : Nat) (env : Env) (input : CreateInput) : Program System MutationResult :=
  Program.atomic (createWithinTransaction P depth env input)

end ConveneWire.Discussion
