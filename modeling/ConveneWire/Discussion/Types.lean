import ConveneWire.Run.Types

/-! # Discussions: the data model

The rows of `discussion-repository.ts` and the types of `discussion-types.ts`.
Identifiers and timestamps are as in the Run model. Rows written before Waves
existed (a Wave without a selection, a Turn without a Wave) are not modelled. -/

namespace ConveneWire.Discussion

open Run (RoomId TaskId MessageId MemberId AgentId RunId Time RunState)

abbrev DiscussionId := Nat
abbrev WaveId := Nat
abbrev TurnId := Nat
abbrev SealId := Nat
abbrev TeamId := Nat

inductive DiscussionMode where
  | roundRobin | review
  deriving DecidableEq, Repr

inductive DiscussionState where
  | active | stopRequested | waitingHuman | awaitingExtension | paused | finalizing
  | completed | canceled | terminated
  deriving DecidableEq, Repr

namespace DiscussionState

/-- `terminalDiscussionStates`. -/
def isTerminal : DiscussionState → Bool
  | .completed | .canceled | .terminated => true
  | .active | .stopRequested | .waitingHuman | .awaitingExtension | .paused | .finalizing => false

/-- The states in which a requester may continue or adjust the goal. -/
def isResumable : DiscussionState → Bool
  | .awaitingExtension | .waitingHuman | .paused => true
  | .active | .stopRequested | .finalizing | .completed | .canceled | .terminated => false

/-- The spelling used in error messages. -/
def text : DiscussionState → String
  | .active => "active"
  | .stopRequested => "stop_requested"
  | .waitingHuman => "waiting_human"
  | .awaitingExtension => "awaiting_extension"
  | .paused => "paused"
  | .finalizing => "finalizing"
  | .completed => "completed"
  | .canceled => "canceled"
  | .terminated => "terminated"

end DiscussionState

inductive DiscussionStateReason where
  | goalSatisfied | userRequestedFinish | discussionPlateau | softBudgetExhausted
  | hardBudgetExhausted | policyViolation | runtimeFailure | userPaused | userCanceled
  | inputRequired
  deriving DecidableEq, Repr

inductive DiscussionAction where
  | continue | waitHuman | pause | finalize | cancel | terminate
  deriving DecidableEq, Repr

inductive DiscussionOutputMode where
  | none | summary | finalAnswer | artifact | decisionRecord | unresolvedIssues
  deriving DecidableEq, Repr

inductive ParticipantSelectionMode where
  | allEligible | questionFocused
  deriving DecidableEq, Repr

inductive WaveCompletionMode where
  | allSettled | readOnlyQuorum
  deriving DecidableEq, Repr

structure DiscussionPolicy where
  initialLeaseTurns : Nat
  automaticMaxTurns : Nat
  hardMaxTurns : Nat
  maxDurationSeconds : Nat
  waveTimeoutSeconds : Nat
  plateauWindow : Nat
  minimumCompletionConfidence : Rat
  finalizationReserveTurns : Nat
  requireReviewer : Bool
  allowAutomaticFinish : Bool
  participantSelectionMode : ParticipantSelectionMode
  focusedParticipantLimit : Nat
  waveCompletionMode : WaveCompletionMode
  quorumMinimumCompleted : Nat
  quorumSoftDeadlineSeconds : Nat
  deriving DecidableEq, Repr

inductive Importance where
  | low | medium | high
  deriving DecidableEq, Repr

def Importance.rank : Importance → Nat
  | .low => 0
  | .medium => 1
  | .high => 2

def Importance.text : Importance → String
  | .low => "low"
  | .medium => "medium"
  | .high => "high"

structure OpenQuestion where
  id : String
  question : String
  importance : Importance
  deriving DecidableEq, Repr

inductive Disagreement where
  | none | low | medium | high
  deriving DecidableEq, Repr

def Disagreement.rank : Disagreement → Nat
  | .none => 0
  | .low => 1
  | .medium => 2
  | .high => 3

inductive Recommendation where
  | continue | finish | waitHuman
  deriving DecidableEq, Repr

structure AgentAssessment where
  goalSatisfied : Option Bool := none
  confidence : Option Rat := none
  resolvedQuestionIds : Option (List String) := none
  openQuestions : Option (List OpenQuestion) := none
  newEvidenceRefs : Option (List String) := none
  disagreementRemaining : Option Disagreement := none
  newInformationAdded : Option Bool := none
  reviewerApproved : Option Bool := none
  recommendation : Option Recommendation := none
  deriving DecidableEq, Repr

structure ProgressSnapshot where
  version : Nat
  goalSatisfied : Bool
  confidence : Option Rat
  openQuestions : List OpenQuestion
  evidenceRefs : List String
  verifiedEvidenceRefs : List String
  /-- `none` is the source's `"unknown"`. -/
  disagreementRemaining : Option Disagreement
  reviewerApproved : Bool
  plateauCount : Nat
  replyHashes : List String
  lastTurnAddedInformation : Bool
  deriving DecidableEq, Repr

def emptyProgressSnapshot : ProgressSnapshot where
  version := 0
  goalSatisfied := false
  confidence := none
  openQuestions := []
  evidenceRefs := []
  verifiedEvidenceRefs := []
  disagreementRemaining := none
  reviewerApproved := false
  plateauCount := 0
  replyHashes := []
  lastTurnAddedInformation := true

structure BudgetSnapshot where
  turnsUsed : Nat
  agentRunsUsed : Nat
  durationSeconds : Nat
  leaseEndTurn : Nat
  extensions : Nat
  deriving DecidableEq, Repr

def emptyBudgetSnapshot (leaseEndTurn : Nat) : BudgetSnapshot := ⟨0, 0, 0, leaseEndTurn, 0⟩

inductive RequestedAction where
  | finish | stopAfterTurn | pause
  deriving DecidableEq, Repr

structure DiscussionRecord where
  discussionId : DiscussionId
  roomId : RoomId
  taskId : TaskId
  rootMessageId : MessageId
  requesterMemberId : MemberId
  goal : String
  mode : DiscussionMode
  state : DiscussionState
  stateReason : Option DiscussionStateReason
  outputMode : DiscussionOutputMode
  policy : DiscussionPolicy
  progress : ProgressSnapshot
  budget : BudgetSnapshot
  currentTurn : Nat
  currentWave : Nat
  requestedAction : Option RequestedAction
  version : Nat
  deadlineAt : Time
  createdAt : Time
  updatedAt : Time
  terminalAt : Option Time
  deriving DecidableEq, Repr

inductive ParticipantRole where
  | participant | reviewer
  deriving DecidableEq, Repr

structure DiscussionParticipant where
  discussionId : DiscussionId
  ordinal : Nat
  agentId : AgentId
  role : ParticipantRole
  deriving DecidableEq, Repr

/-! ## Waves and Turns -/

inductive TurnKind where
  | discussion | finalization
  deriving DecidableEq, Repr

inductive TurnState where
  | planned | queued | working | completed | failed | canceled
  deriving DecidableEq, Repr

/-- `terminalTurnStates`. -/
def TurnState.isTerminal : TurnState → Bool
  | .completed | .failed | .canceled => true
  | .planned | .queued | .working => false

def TurnState.text : TurnState → String
  | .planned => "planned"
  | .queued => "queued"
  | .working => "working"
  | .completed => "completed"
  | .failed => "failed"
  | .canceled => "canceled"

/-- The reasons a Turn can carry; `run` is the source's `run_` followed by the Run state. -/
inductive TerminalReason where
  | inputRequired | completedWithoutReply | run (state : RunState) | agentUnavailable
  | discussionCanceledBeforeDispatch | awaitingOwnerDisclosure | disclosureReleased
  | disclosureCanceled | disclosureUnavailable
  deriving DecidableEq, Repr

def TerminalReason.text : TerminalReason → String
  | .inputRequired => "input_required"
  | .completedWithoutReply => "completed_without_reply"
  | .run state => "run_" ++ state.text
  | .agentUnavailable => "agent_unavailable"
  | .discussionCanceledBeforeDispatch => "discussion_canceled_before_dispatch"
  | .awaitingOwnerDisclosure => "awaiting_owner_disclosure"
  | .disclosureReleased => "disclosure_released"
  | .disclosureCanceled => "disclosure_canceled"
  | .disclosureUnavailable => "disclosure_unavailable"

structure DiscussionTurn where
  turnId : TurnId
  discussionId : DiscussionId
  ordinal : Nat
  kind : TurnKind
  speakerAgentId : AgentId
  inputMessageId : MessageId
  runId : Option RunId
  outputMessageId : Option MessageId
  state : TurnState
  assessment : Option AgentAssessment
  replyHash : Option String
  createdAt : Time
  updatedAt : Time
  completedAt : Option Time
  waveId : WaveId
  waveMemberOrdinal : Nat
  terminalReason : Option TerminalReason
  deriving DecidableEq, Repr

inductive WavePhase where
  | contribution | review | finalization
  deriving DecidableEq, Repr

/-- `opened` and `partly` are the source's `open` and `partial`. -/
inductive WaveState where
  | opened | completed | partly | failed | canceled
  deriving DecidableEq, Repr

inductive SelectionReason where
  | allMemberPolicy | noFocusQuestions | noDeterministicMatch
  | questionReporter | roleMatch | requiredReviewer
  | finalizerReviewer | finalizerPrimary | finalizerOrdinal
  deriving DecidableEq, Repr

structure SelectionExplanation where
  agentId : AgentId
  reasons : List SelectionReason
  reportedQuestionIds : List String
  matchedRoleTerms : List String
  deriving DecidableEq, Repr

inductive SelectionStrategy where
  | allEligible | questionFocused | finalizer
  deriving DecidableEq, Repr

/-- A selection before its digest is added. Only version 2 snapshots are produced. -/
structure UnsignedWaveSelection where
  explanations : List SelectionExplanation
  strategy : SelectionStrategy
  focusQuestionIds : List String
  eligibleAgentIds : List AgentId
  selectedAgentIds : List AgentId
  requiredRoles : List ParticipantRole
  focusedParticipantLimit : Nat
  deriving DecidableEq, Repr

structure DiscussionWaveSelection extends UnsignedWaveSelection where
  selectionDigest : String
  deriving DecidableEq, Repr

structure DiscussionWave where
  waveId : WaveId
  discussionId : DiscussionId
  ordinal : Nat
  phase : WavePhase
  inputMessageId : MessageId
  state : WaveState
  deadlineAt : Time
  expectedMembers : Nat
  version : Nat
  createdAt : Time
  updatedAt : Time
  closedAt : Option Time
  selection : DiscussionWaveSelection
  deriving DecidableEq, Repr

structure WaveSealMember where
  turnId : TurnId
  waveMemberOrdinal : Nat
  agentId : AgentId
  role : ParticipantRole
  runId : RunId
  sourceReplySequence : Int
  outputMessageId : MessageId
  sourceMessageSequence : Nat
  replyHash : String
  deriving DecidableEq, Repr

/-- A seal before its digest is added. -/
structure UnsignedWaveSeal where
  sealId : SealId
  discussionId : DiscussionId
  waveId : WaveId
  softDeadlineAt : Time
  minimumCompleted : Nat
  requiredRoles : List ParticipantRole
  acceptedMembers : List WaveSealMember
  sealedAt : Time
  deriving DecidableEq, Repr

structure DiscussionWaveSeal extends UnsignedWaveSeal where
  sealDigest : String
  deriving DecidableEq, Repr

/-! ## Decisions and the budget ledger -/

structure DiscussionDecision where
  decisionId : Nat
  discussionId : DiscussionId
  aggregateVersion : Nat
  progressVersion : Nat
  action : DiscussionAction
  /-- `none` is the source's `"discussion_active"`. -/
  reason : Option DiscussionStateReason
  nextAgentId : Option AgentId
  outputMode : DiscussionOutputMode
  createdAt : Time
  deriving DecidableEq, Repr

inductive BudgetEventType where
  | leaseGranted | turnRecorded | extensionGranted | finalizationReserved
  deriving DecidableEq, Repr

inductive LeaseSource where
  | initial | automatic | user
  deriving DecidableEq, Repr

structure OutcomeCounts where
  completed : Nat
  failed : Nat
  canceled : Nat
  live : Nat
  quorumSealId : Option SealId
  deriving DecidableEq, Repr

/-- The `metadata` of a budget event, by the kind of event it is written for. -/
inductive BudgetMetadata where
  | lease (source : LeaseSource)
  | settledWave (waveId : WaveId) (waveOrdinal agentRuns : Nat) (outcomes : OutcomeCounts)
  | finalization (waveId : Option WaveId) (agentRuns : Nat)
  deriving DecidableEq, Repr

/-- `metadata.agentRuns`, zero where the field is absent. -/
def BudgetMetadata.agentRuns : BudgetMetadata → Nat
  | .lease _ => 0
  | .settledWave _ _ agentRuns _ => agentRuns
  | .finalization _ agentRuns => agentRuns

structure DiscussionBudgetEvent where
  budgetEventId : Nat
  discussionId : DiscussionId
  ordinal : Nat
  eventType : BudgetEventType
  turns : Nat
  durationSeconds : Nat
  metadata : BudgetMetadata
  createdAt : Time
  deriving DecidableEq, Repr

def waveCloseState (turns : List DiscussionTurn) : WaveState :=
  let completed := turns.countP fun turn => turn.state = .completed
  let canceled := turns.countP fun turn => turn.state = .canceled
  if completed = turns.length then .completed
  else if canceled = turns.length then .canceled
  else if 0 < completed then .partly
  else .failed

theorem waveCloseState_ne_opened (turns : List DiscussionTurn) : waveCloseState turns ≠ .opened := by
  unfold waveCloseState
  simp only
  repeat' split
  all_goals decide

end ConveneWire.Discussion
