import ConveneWire.Run.Repository
import ConveneWire.Discussion.Policy
import ConveneWire.Discussion.Selector

/-! # `discussion-repository.ts`

The Discussion tables next to the Run tables, and the transactions on them. A
primary key names at most one row, so an `UPDATE` by key is decided by the row
that `lookup` returns. The other unique indexes of the schema are not modelled:
the invariants proved later show that no insertion would meet them. -/

namespace ConveneWire.Discussion

open Run (RoomId MessageId RunId Time)
open Transactional
open Table (lookup select update)

structure Store where
  core : Run.Database
  discussions : List DiscussionRecord
  participants : List DiscussionParticipant
  waves : List DiscussionWave
  turns : List DiscussionTurn
  decisions : List DiscussionDecision
  budgetEvents : List DiscussionBudgetEvent
  seals : List DiscussionWaveSeal
  deriving DecidableEq, Repr

/-! ## Orders of the queries -/

def DiscussionRecord.UpdateOrder (a b : DiscussionRecord) : Prop :=
  a.updatedAt < b.updatedAt ∨ a.updatedAt = b.updatedAt ∧ a.discussionId ≤ b.discussionId

def DiscussionParticipant.OrdinalLe (a b : DiscussionParticipant) : Prop := a.ordinal ≤ b.ordinal

def DiscussionWave.OrdinalLe (a b : DiscussionWave) : Prop := a.ordinal ≤ b.ordinal

def DiscussionWave.DeadlineOrder (a b : DiscussionWave) : Prop :=
  a.deadlineAt < b.deadlineAt ∨ a.deadlineAt = b.deadlineAt ∧
    (a.discussionId < b.discussionId ∨ a.discussionId = b.discussionId ∧ a.ordinal ≤ b.ordinal)

def DiscussionTurn.OrdinalLe (a b : DiscussionTurn) : Prop := a.ordinal ≤ b.ordinal

def DiscussionTurn.MemberOrder (a b : DiscussionTurn) : Prop :=
  a.waveMemberOrdinal < b.waveMemberOrdinal ∨
    a.waveMemberOrdinal = b.waveMemberOrdinal ∧ a.ordinal ≤ b.ordinal

instance : DecidableRel DiscussionRecord.UpdateOrder := fun _ _ =>
  inferInstanceAs (Decidable (_ ∨ _))

instance : DecidableRel DiscussionParticipant.OrdinalLe := fun a b =>
  inferInstanceAs (Decidable (a.ordinal ≤ b.ordinal))

instance : DecidableRel DiscussionWave.OrdinalLe := fun a b =>
  inferInstanceAs (Decidable (a.ordinal ≤ b.ordinal))

instance : DecidableRel DiscussionWave.DeadlineOrder := fun _ _ =>
  inferInstanceAs (Decidable (_ ∨ _))

instance : DecidableRel DiscussionTurn.OrdinalLe := fun a b =>
  inferInstanceAs (Decidable (a.ordinal ≤ b.ordinal))

instance : DecidableRel DiscussionTurn.MemberOrder := fun _ _ =>
  inferInstanceAs (Decidable (_ ∨ _))

namespace Store

/-! ## Queries -/

variable (s : Store)

def get (discussionId : DiscussionId) : Option DiscussionRecord :=
  lookup DiscussionRecord.discussionId discussionId s.discussions

def listForRoom (roomId : RoomId) : List DiscussionRecord :=
  select DiscussionRecord.roomId roomId s.discussions

/-- `WHERE state NOT IN ('completed', 'canceled', 'terminated')`. -/
def listOpen : List DiscussionRecord :=
  (s.discussions.filter fun row => ¬ row.state.isTerminal).insertionSort
    DiscussionRecord.UpdateOrder

def listParticipants (discussionId : DiscussionId) : List DiscussionParticipant :=
  (select DiscussionParticipant.discussionId discussionId s.participants).insertionSort
    DiscussionParticipant.OrdinalLe

def findTurnByRun (runId : RunId) : Option DiscussionTurn :=
  s.turns.find? fun row => row.runId = some runId

def getTurn (turnId : TurnId) : Option DiscussionTurn :=
  lookup DiscussionTurn.turnId turnId s.turns

def listTurns (discussionId : DiscussionId) : List DiscussionTurn :=
  (select DiscussionTurn.discussionId discussionId s.turns).insertionSort
    DiscussionTurn.OrdinalLe

def getWave (waveId : WaveId) : Option DiscussionWave :=
  lookup DiscussionWave.waveId waveId s.waves

def listWaves (discussionId : DiscussionId) : List DiscussionWave :=
  (select DiscussionWave.discussionId discussionId s.waves).insertionSort
    DiscussionWave.OrdinalLe

def listOpenWaves : List DiscussionWave :=
  (s.waves.filter fun row => row.state = .opened).insertionSort DiscussionWave.DeadlineOrder

def listTurnsForWave (waveId : WaveId) : List DiscussionTurn :=
  (select DiscussionTurn.waveId waveId s.turns).insertionSort DiscussionTurn.MemberOrder

def listWaveSeals (discussionId : DiscussionId) : List DiscussionWaveSeal :=
  select (fun row : DiscussionWaveSeal => row.discussionId) discussionId s.seals

def listBudgetEvents (discussionId : DiscussionId) : List DiscussionBudgetEvent :=
  select DiscussionBudgetEvent.discussionId discussionId s.budgetEvents

end Store

/-! ## Creation -/

namespace Store

def create (discussion : DiscussionRecord) (participants : List DiscussionParticipant)
    (initialBudgetEvent : DiscussionBudgetEvent) : Transaction Store Unit := fun s => do
  require (s.get discussion.discussionId = none)
    "UNIQUE constraint failed: discussions.discussion_id"
  pure ((), { s with
    discussions := s.discussions ++ [discussion]
    participants := s.participants ++ participants
    budgetEvents := s.budgetEvents ++ [initialBudgetEvent] })

end Store

/-! ## Turns -/

structure TurnOutcome where
  outputMessageId : Option MessageId
  state : TurnState
  assessment : Option AgentAssessment
  replyHash : Option String
  terminalReason : Option TerminalReason
  deriving DecidableEq, Repr

namespace DiscussionTurn

def bind (runId : RunId) (state : TurnState) (now : Time) (turn : DiscussionTurn) :
    DiscussionTurn :=
  { turn with runId := some runId, state, updatedAt := now }

def reanchor (inputMessageId : MessageId) (now : Time) (turn : DiscussionTurn) : DiscussionTurn :=
  { turn with inputMessageId, updatedAt := now }

def settle (outcome : TurnOutcome) (now : Time) (turn : DiscussionTurn) : DiscussionTurn :=
  { turn with
    outputMessageId := outcome.outputMessageId
    state := outcome.state
    assessment := outcome.assessment
    replyHash := outcome.replyHash
    terminalReason := outcome.terminalReason
    updatedAt := now
    completedAt := some now }

def awaitDisclosure (now : Time) (turn : DiscussionTurn) : DiscussionTurn :=
  { turn with
    state := .working, terminalReason := some .awaitingOwnerDisclosure, updatedAt := now }

/-- `run_id IS NULL AND state = 'planned'`. -/
def isUnbound (turn : DiscussionTurn) : Bool := turn.runId = none ∧ turn.state = .planned

end DiscussionTurn

namespace Store

/-- `UPDATE discussion_turns SET … WHERE turn_id = ? AND guard`. -/
def updateTurn (s : Store) (turnId : TurnId) (guard : DiscussionTurn → Bool)
    (f : DiscussionTurn → DiscussionTurn) : Store :=
  let turns := update (fun row => row.turnId = turnId ∧ guard row) f s.turns
  { s with turns }

def bindTurnRun (turnId : TurnId) (runId : RunId) (state : TurnState) (now : Time) :
    Transaction Store Unit := fun s => do
  require ((s.getTurn turnId).any DiscussionTurn.isUnbound)
    "Discussion Turn is already bound to a Run"
  pure ((), s.updateTurn turnId DiscussionTurn.isUnbound (DiscussionTurn.bind runId state now))

def reanchorPlannedWave (waveId : WaveId) (inputMessageId : MessageId) (now : Time) :
    Transaction Store Unit := fun s =>
  match s.getWave waveId with
  | none => .error s!"Discussion Wave not found: {waveId}"
  | some wave => do
    let members := s.listTurnsForWave waveId
    require (wave.state = .opened ∧ members.length = wave.expectedMembers ∧
      members.all DiscussionTurn.isUnbound)
      "Discussion Wave cannot be reanchored after Run binding"
    let turns := update (fun row => row.waveId = waveId ∧ row.isUnbound)
      (DiscussionTurn.reanchor inputMessageId now) s.turns
    let waves := update (fun row => row.waveId = waveId ∧ row.version = wave.version ∧
        row.state = .opened)
      (fun row => { row with inputMessageId, version := row.version + 1, updatedAt := now }) s.waves
    pure ((), { s with turns, waves })

def settleTurn (turnId : TurnId) (outcome : TurnOutcome) (now : Time) (s : Store) : Store :=
  s.updateTurn turnId (fun row => ¬ row.state.isTerminal) (DiscussionTurn.settle outcome now)

def awaitDisclosure (turnId : TurnId) (now : Time) (s : Store) : Store :=
  s.updateTurn turnId (fun row => ¬ row.state.isTerminal ∧
    row.terminalReason ≠ some .awaitingOwnerDisclosure) (DiscussionTurn.awaitDisclosure now)

end Store

/-! ## Waves -/

structure WavePlan where
  wave : DiscussionWave
  turns : List DiscussionTurn
  deriving DecidableEq, Repr

def DiscussionWave.close (state : WaveState) (closedAt : Time) (wave : DiscussionWave) :
    DiscussionWave :=
  { wave with state, version := wave.version + 1, updatedAt := closedAt, closedAt := some closedAt }

structure CloseInput where
  waveId : WaveId
  discussionId : DiscussionId
  state : WaveState
  closedAt : Time
  expectedVersion : Nat
  allowNonterminal : Bool := false

namespace Store

/-- `closeReadyWaveRow`; `none` when no row was updated. -/
def closeReadyWaveRow (s : Store) (input : CloseInput) : Option Store :=
  match s.getWave input.waveId with
  | none => none
  | some wave =>
    let members := select DiscussionTurn.waveId input.waveId s.turns
    if wave.discussionId = input.discussionId ∧ wave.state = .opened ∧
        wave.version = input.expectedVersion ∧ wave.expectedMembers = members.length ∧
        (input.allowNonterminal ∨ members.all fun turn => turn.state.isTerminal) then
      let waves := update (fun row => row.waveId = input.waveId ∧
          row.discussionId = input.discussionId ∧ row.state = .opened)
        (DiscussionWave.close input.state input.closedAt) s.waves
      some { s with waves }
    else none

/-- `closeWave`: whether a row was closed is reported, not enforced. -/
def closeWave (waveId : WaveId) (expectedVersion : Nat) (state : WaveState) (now : Time) :
    Transaction Store Bool := fun s =>
  match s.getWave waveId with
  | none => .error s!"Discussion Wave not found: {waveId}"
  | some current =>
    match s.closeReadyWaveRow ⟨waveId, current.discussionId, state, now, expectedVersion, false⟩ with
    | none => .ok (false, s)
    | some closed => .ok (true, closed)

end Store

def DiscussionTurn.isPlannedMember (wave : DiscussionWave) (turn : DiscussionTurn) : Bool :=
  turn.discussionId = wave.discussionId ∧ turn.waveId = wave.waveId ∧
    turn.inputMessageId = wave.inputMessageId ∧
    turn.waveMemberOrdinal < wave.expectedMembers ∧ turn.state = .planned ∧ turn.runId = none ∧
    turn.outputMessageId = none ∧ turn.completedAt = none ∧
    (wave.phase = .finalization ↔ turn.kind = .finalization)

variable (P : Platform)

def Store.validateWavePlan (s : Store) (plan : WavePlan) : Except String Unit := do
  let wave := plan.wave
  require (wave.state = .opened ∧ wave.closedAt = none ∧
    wave.expectedMembers = plan.turns.length ∧ plan.turns ≠ [])
    "Discussion Wave member count is inconsistent"
  let selectedAgentIds := (plan.turns.insertionSort DiscussionTurn.MemberOrder).map
    DiscussionTurn.speakerAgentId
  assertDiscussionWaveSelection P wave.selection (some selectedAgentIds)
  require (wave.phase = .finalization ↔ wave.selection.strategy = .finalizer)
    "Discussion Wave selection strategy does not match its phase"
  let participants := s.listParticipants wave.discussionId
  require (wave.selection.eligibleAgentIds.all fun agentId =>
    participants.any fun participant => participant.agentId = agentId)
    "Discussion Wave selection contains a foreign participant"
  require (.reviewer ∈ wave.selection.requiredRoles →
    (participants.find? fun participant => participant.role = .reviewer).any fun reviewer =>
      reviewer.agentId ∈ selectedAgentIds)
    "Discussion Wave selection omits its required reviewer"
  require (wave.selection.selectedAgentIds = selectedAgentIds)
    "Discussion Wave selection does not match member Turns"
  require (plan.turns.all (DiscussionTurn.isPlannedMember wave) ∧
    (plan.turns.map DiscussionTurn.waveMemberOrdinal).Nodup ∧
    (plan.turns.map DiscussionTurn.speakerAgentId).Nodup ∧
    (plan.turns.map DiscussionTurn.ordinal).Nodup)
    "Discussion Wave contains an invalid member Turn"

/-- The `insertWave` and `insertTurn` statements of a plan. -/
def Store.insertPlan (s : Store) (plan : WavePlan) : Except String Store := do
  require (s.getWave plan.wave.waveId = none) "UNIQUE constraint failed: discussion_waves.wave_id"
  require (plan.turns.all (fun turn => s.getTurn turn.turnId = none) ∧
    (plan.turns.map DiscussionTurn.turnId).Nodup)
    "UNIQUE constraint failed: discussion_turns.turn_id"
  pure { s with waves := s.waves ++ [plan.wave], turns := s.turns ++ plan.turns }

/-! ## Quorum seals -/

def WaveSealMember.OrdinalLe (a b : WaveSealMember) : Prop :=
  a.waveMemberOrdinal ≤ b.waveMemberOrdinal

instance : DecidableRel WaveSealMember.OrdinalLe := fun a b =>
  inferInstanceAs (Decidable (a.waveMemberOrdinal ≤ b.waveMemberOrdinal))

def createDiscussionWaveSeal (input : UnsignedWaveSeal) : DiscussionWaveSeal :=
  let acceptedMembers := input.acceptedMembers.insertionSort WaveSealMember.OrdinalLe
  let unsigned := { input with acceptedMembers }
  { unsigned with sealDigest := P.sealDigest unsigned }

def assertDiscussionWaveSeal (candidate : DiscussionWaveSeal) : Except String Unit :=
  let members := candidate.acceptedMembers
  require (2 ≤ candidate.minimumCompleted ∧ candidate.minimumCompleted ≤ 5 ∧
    (candidate.requiredRoles.all fun role => role = .reviewer) ∧ candidate.requiredRoles.Nodup ∧
    candidate.minimumCompleted ≤ members.length ∧ members.length ≤ 5 ∧
    (members.map WaveSealMember.turnId).Nodup ∧ (members.map WaveSealMember.agentId).Nodup ∧
    members.map WaveSealMember.waveMemberOrdinal =
      (members.map WaveSealMember.waveMemberOrdinal).insertionSort (· ≤ ·) ∧
    (members.all fun member => 1 ≤ member.sourceReplySequence ∧
      1 ≤ member.sourceMessageSequence ∧ isHexDigest member.replyHash) ∧
    (candidate.requiredRoles.all fun role => members.any fun member => member.role = role) ∧
    isHexDigest candidate.sealDigest ∧
    candidate.sealDigest = P.sealDigest candidate.toUnsignedWaveSeal)
    "Discussion Wave seal is invalid"

/-- The stored Turn that an accepted member names, unchanged. -/
def WaveSealMember.describes (member : WaveSealMember) (discussionId : DiscussionId)
    (turn : DiscussionTurn) : Bool :=
  turn.turnId = member.turnId ∧ turn.discussionId = discussionId ∧
    turn.speakerAgentId = member.agentId ∧ turn.waveMemberOrdinal = member.waveMemberOrdinal ∧
    turn.runId = some member.runId ∧ turn.outputMessageId = some member.outputMessageId ∧
    turn.replyHash = some member.replyHash ∧ turn.state = .completed

def Store.insertWaveSeal (s : Store) (candidate : DiscussionWaveSeal) : Except String Store := do
  require (candidate.acceptedMembers.all fun member =>
    (s.listTurnsForWave candidate.waveId).any (member.describes candidate.discussionId))
    "Discussion Wave seal member does not match its Turn"
  pure { s with seals := s.seals ++ [candidate] }

/-! ## Transactions on the aggregate -/

/-- What the three decision transactions write to the `discussions` row. -/
structure AggregateUpdate where
  decision : DiscussionDecision
  expectedVersion : Nat
  state : DiscussionState
  stateReason : Option DiscussionStateReason
  outputMode : DiscussionOutputMode
  progress : ProgressSnapshot
  budget : BudgetSnapshot
  requestedAction : Option RequestedAction
  budgetEvents : List DiscussionBudgetEvent
  deriving DecidableEq, Repr

def AggregateUpdate.apply (update : AggregateUpdate) (row : DiscussionRecord) : DiscussionRecord :=
  { row with
    state := update.state
    stateReason := update.stateReason
    outputMode := update.outputMode
    progress := update.progress
    budget := update.budget
    requestedAction := update.requestedAction
    version := row.version + 1
    updatedAt := update.decision.createdAt }

/-- `Math.max(...turns.map(({ ordinal }) => ordinal))`. -/
def maximumOrdinal (turns : List DiscussionTurn) : Nat :=
  turns.foldl (fun highest turn => max highest turn.ordinal) 0

/-- The cursor moves to a plan with it. -/
def DiscussionRecord.moveTo (plan : WavePlan) (row : DiscussionRecord) : DiscussionRecord :=
  { row with currentTurn := maximumOrdinal plan.turns, currentWave := plan.wave.ordinal }

namespace Store

def insertDecision (s : Store) (decision : DiscussionDecision) : Store :=
  { s with decisions := s.decisions ++ [decision] }

def insertBudgetEvents (s : Store) (events : List DiscussionBudgetEvent) : Store :=
  { s with budgetEvents := s.budgetEvents ++ events }

/-- `UPDATE discussions SET … WHERE discussion_id = ? AND guard`, which must change a row. -/
def updateDiscussion (s : Store) (discussionId : DiscussionId) (guard : DiscussionRecord → Bool)
    (f : DiscussionRecord → DiscussionRecord) (message : String) : Except String Store := do
  require ((s.get discussionId).any guard) message
  let discussions := update (fun row => row.discussionId = discussionId ∧ guard row) f
    s.discussions
  pure { s with discussions }

def staleVersion : String := "Stale Discussion aggregate version"

def recordDecisionAndUpdate (update : AggregateUpdate) (terminalAt : Option Time) :
    Transaction Store Unit := fun s => do
  let s ← (s.insertDecision update.decision).updateDiscussion update.decision.discussionId
    (fun row => row.version = update.expectedVersion)
    (fun row => { update.apply row with terminalAt }) staleVersion
  pure ((), s.insertBudgetEvents update.budgetEvents)

def recordDecisionAndPlanWave (update : AggregateUpdate) (plan : WavePlan) :
    Transaction Store Unit := fun s => do
  s.validateWavePlan P plan
  require (update.decision.discussionId = plan.wave.discussionId)
    "Discussion Wave decision targets another Discussion"
  let s ← (s.insertDecision update.decision).updateDiscussion update.decision.discussionId
    (fun row => row.version = update.expectedVersion ∧ row.currentWave + 1 = plan.wave.ordinal)
    (fun row => (update.apply row).moveTo plan) staleVersion
  let s ← s.insertPlan plan
  pure ((), s.insertBudgetEvents update.budgetEvents)

structure ApplyInput where
  waveId : WaveId
  expectedWaveVersion : Nat
  closeState : WaveState
  closedAt : Time
  update : AggregateUpdate
  terminalAt : Option Time
  nextWave : Option WavePlan
  quorumSeal : Option DiscussionWaveSeal

/-- The checks of `closeReadyWaveAndApply` on the next Wave and on the seal. -/
def checkNextWave (s : Store) (discussionId : DiscussionId) : Option WavePlan → Except String Unit
  | none => .ok ()
  | some plan => do
    s.validateWavePlan P plan
    require (plan.wave.discussionId = discussionId) "Next Discussion Wave targets another Discussion"

def checkSeal (waveId : WaveId) (discussionId : DiscussionId) (closeState : WaveState) :
    Option DiscussionWaveSeal → Except String Unit
  | none => .ok ()
  | some candidate => do
    assertDiscussionWaveSeal P candidate
    require (candidate.waveId = waveId ∧ candidate.discussionId = discussionId ∧
      closeState = .partly) "Discussion Wave seal targets another transition"

/-- Whether the aggregate is where the transition expects it. -/
def awaitsApply (s : Store) (input : ApplyInput) : Bool :=
  (s.get input.update.decision.discussionId).any fun aggregate =>
    (s.getWave input.waveId).any fun wave =>
      aggregate.version = input.update.expectedVersion ∧
        wave.discussionId = input.update.decision.discussionId ∧
        aggregate.currentWave = wave.ordinal ∧
        input.nextWave.all fun plan => plan.wave.ordinal = wave.ordinal + 1

def insertNextWave (s : Store) : Option WavePlan → Except String Store
  | none => .ok s
  | some plan => s.insertPlan plan

def insertOptionalSeal (s : Store) : Option DiscussionWaveSeal → Except String Store
  | none => .ok s
  | some candidate => s.insertWaveSeal candidate

/-- The writes after the Wave was closed. -/
def applyClosed (input : ApplyInput) (s : Store) : Except String Store := do
  let s ← s.insertOptionalSeal input.quorumSeal
  let s ← (s.insertDecision input.update.decision).updateDiscussion
    input.update.decision.discussionId
    (fun row => row.version = input.update.expectedVersion)
    (fun row =>
      let row := { input.update.apply row with terminalAt := input.terminalAt }
      match input.nextWave with
      | none => row
      | some plan => row.moveTo plan) staleVersion
  let s ← s.insertNextWave input.nextWave
  pure (s.insertBudgetEvents input.update.budgetEvents)

/-- `closeReadyWaveAndApply`; the result says whether it was applied. -/
def closeReadyWaveAndApply (input : ApplyInput) : Transaction Store Bool := fun s => do
  s.checkNextWave P input.update.decision.discussionId input.nextWave
  checkSeal P input.waveId input.update.decision.discussionId input.closeState input.quorumSeal
  if s.awaitsApply input then
    match s.closeReadyWaveRow ⟨input.waveId, input.update.decision.discussionId, input.closeState,
        input.closedAt, input.expectedWaveVersion, input.quorumSeal.isSome⟩ with
    | none => pure (false, s)
    | some closed =>
      let applied ← applyClosed input closed
      pure (true, applied)
  else pure (false, s)

def requestAction (discussionId : DiscussionId) (expectedVersion : Nat) (action : RequestedAction)
    (state : DiscussionState) (stateReason : DiscussionStateReason) (now : Time) :
    Transaction Store Unit := fun s => do
  let s ← s.updateDiscussion discussionId (fun row => row.version = expectedVersion)
    (fun row => { row with
      requestedAction := some action, state, stateReason := some stateReason
      version := row.version + 1, updatedAt := now }) staleVersion
  pure ((), s)

def updateGoal (discussionId : DiscussionId) (expectedVersion : Nat) (goal : String) (now : Time) :
    Transaction Store Unit := fun s => do
  let s ← s.updateDiscussion discussionId (fun row => row.version = expectedVersion)
    (fun row => { row with
      goal, state := .active, stateReason := none, requestedAction := none
      version := row.version + 1, updatedAt := now }) staleVersion
  pure ((), s)

structure FinishInput where
  discussionId : DiscussionId
  expectedDiscussionVersion : Nat
  state : DiscussionState
  waveId : WaveId
  expectedWaveVersion : Nat
  waveState : WaveState
  now : Time

def closeFinalizationAndFinish (input : FinishInput) : Transaction Store Unit := fun s =>
  match s.closeReadyWaveRow ⟨input.waveId, input.discussionId, input.waveState, input.now,
      input.expectedWaveVersion, false⟩ with
  | none => .error "Finalization Wave is not ready or already closed"
  | some closed => do
    let s ← closed.updateDiscussion input.discussionId
      (fun row => row.version = input.expectedDiscussionVersion ∧ row.state = .finalizing)
      (fun row => { row with
        state := input.state, requestedAction := none, version := row.version + 1
        updatedAt := input.now, terminalAt := some input.now })
      "Stale or non-finalizing Discussion aggregate"
    pure ((), s)

end Store

end ConveneWire.Discussion
