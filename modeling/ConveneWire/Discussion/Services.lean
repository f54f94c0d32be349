import ConveneWire.Run.Server
import ConveneWire.Discussion.Repository

/-! # What the orchestrator stands on

The environment of a call, the state calls run against, and the two services the
orchestrator delegates to: `discussion-evidence-service.ts` (anchors and the
replies that count) and `wave-settlement-service.ts` (a Run outcome becomes a
Turn outcome). -/

namespace ConveneWire.Discussion

open Run (RoomId TaskId MessageId AgentId DeviceId RunId Time RunRecord MessageRecord
  SenderType Member IntegrationMode)
open Transactional

/-! ## The environment of a call -/

structure Agent where
  name : String
  role : String
  teamId : TeamId
  enabled : Bool
  integrationMode : IntegrationMode
  deviceId : Option DeviceId
  ownerPrivateOutput : Bool
  supportsDiscussionSupplementalEvidence : Bool
  /-- `runtimePolicy?.filesystemAccess === "read-only"`. -/
  readOnlyFilesystem : Bool

structure RoomSettings where
  teamId : TeamId
  allowDiscussion : Bool

structure TaskSettings where
  roomId : RoomId
  /-- `state` or `lifecycleState` is completed or canceled. -/
  closed : Bool
  isDefault : Bool
  assignments : List (AgentId × TaskRole)

/-- `ReleasedDiscussionEvidence`, as far as a settlement uses it. -/
structure ReleasedEvidence where
  messageId : MessageId
  resultId : String
  summary : String

/-- Everything a call asks besides the tables of the model. It is given anew for every call.
`clock` and `fresh` answer each reading of the clock and each `createOpaqueId` on its own: a
reading is named by the path of `part`s that leads to it. -/
structure Env where
  clock : List Nat → Time
  fresh : List Nat → Nat
  requireRoomMember : RoomId → Except String Member
  getRoom : RoomId → Option RoomSettings
  getTask : TaskId → Option TaskSettings
  getDefaultTask : RoomId → Option TaskId
  getAgent : AgentId → Option Agent
  isRoomAgent : RoomId → AgentId → Bool
  deviceActive : DeviceId → Bool
  peerParticipantAllowed : AgentId → RoomId → Time → Bool
  hasPeerDelivery : RunId → Bool
  /-- The checks of `appendMessage` and `createMemberMessage` on other tables. -/
  appendAllowed : MessageRecord → Except String Unit
  /-- The context fence and manifest of a new Run, which can fail. -/
  createRunAllowed : RunRecord → Except String Unit
  /-- `buildInstruction`; the text itself is not a column of the Run model. -/
  buildInstruction : Store → DiscussionRecord → DiscussionWave → DiscussionTurn → Except String Unit
  verifyEvidenceRefs : Store → DiscussionRecord → List String → List String
  /-- `disclosures.forTurn` and the summary of `disclosures.admitted`. -/
  releasedForTurn : Store → DiscussionTurn → Time → Option ReleasedEvidence
  admittedSummary : Store → String → DiscussionTurn → Option String
  /-- `planProposals`: retaining the draft of a finished Discussion can fail. -/
  planProposals : Option (DiscussionRecord → DiscussionWave → Except String Unit)

namespace Env

def now (env : Env) : Time := env.clock []

def freshId (env : Env) : Nat := env.fresh []

/-- The environment of the `k`-th part of a call. -/
def part (env : Env) (k : Nat) : Env :=
  { env with
    clock := fun path => env.clock (k :: path)
    fresh := fun path => env.fresh (k :: path) }

end Env

/-! ## The state calls run against -/

/-- The entries of calls that the results on terminal Discussions look back at, each with what
it found. -/
inductive Entry where
  /-- `onRunTerminal(runId)`. -/
  | settling (env : Env) (runId : RunId) (store : Store)
  /-- `ensureRun(turn)`. -/
  | dispatching (turn : DiscussionTurn) (store : Store)

/-- The committed tables and, as history, the entries so far. -/
structure System where
  store : Store
  entries : List Entry

namespace System

def query {α : Type} (f : Store → α) : Program System α := Program.read fun w => f w.store

def transact {α : Type} (t : Transaction Store α) : Program System α :=
  Program.zoom System.store (fun store w => { w with store }) (Program.transact t)

def modify (f : Store → Store) : Program System Unit := transact fun s => .ok ((), f s)

def enter (entry : Store → Entry) : Program System Unit :=
  Program.transact fun w => .ok ((), { w with entries := w.entries ++ [entry w.store] })

def ofExcept {α : Type} : Except String α → Program System α
  | .ok a => pure a
  | .error e => Program.fail e

def ofOption {α : Type} (message : String) : Option α → Program System α
  | some a => pure a
  | none => Program.fail message

def when (condition : Bool) (m : Program System Unit) : Program System Unit :=
  if condition then m else pure ()

end System

/-- A loop over `xs`; every turn of it has readings of its own. -/
def Env.collect {α β : Type} (f : Env → α → Program System β) :
    Env → List α → Program System (List β)
  | _, [] => pure []
  | env, x :: rest => do
    let y ← f (env.part 0) x
    let ys ← Env.collect f (env.part 1) rest
    pure (y :: ys)

/-! ## Messages -/

structure NewMessage where
  messageId : MessageId
  roomId : RoomId
  taskId : TaskId
  senderType : SenderType
  senderId : Nat
  content : String
  parentMessageId : Option MessageId
  traceId : Nat
  createdAt : Time

def NewMessage.record (message : NewMessage) (sequence : Nat) : MessageRecord where
  messageId := message.messageId
  traceId := message.traceId
  roomId := message.roomId
  taskId := message.taskId
  sequence
  senderType := message.senderType
  senderId := message.senderId
  content := message.content
  parentMessageId := message.parentMessageId
  createdAt := message.createdAt

def appendMessage (env : Env) (message : NewMessage) : Transaction Store Unit := fun s =>
  match s.core.takeMessageSequence message.roomId with
  | none => .error s!"Room not found: {message.roomId}"
  | some (sequence, core) => do
    env.appendAllowed (message.record sequence)
    require (core.getMessage message.messageId = none)
      "UNIQUE constraint failed: messages.message_id"
    pure ((), { s with core := { core with
      messages := core.messages ++ [message.record sequence] } })

def MessageRecord.SequenceLe (a b : MessageRecord) : Prop := a.sequence ≤ b.sequence

instance : DecidableRel MessageRecord.SequenceLe := fun a b =>
  inferInstanceAs (Decidable (a.sequence ≤ b.sequence))

/-- `findAgentReply`: the last reply of the Agent to a Message. -/
def findAgentReply (core : Run.Database) (parentMessageId : MessageId) (agentId : AgentId) :
    Option MessageRecord :=
  ((core.messages.filter fun row => row.parentMessageId = some parentMessageId ∧
    row.senderType = .agent ∧ row.senderId = agentId).insertionSort
      MessageRecord.SequenceLe).getLast?

/-- `findByTrigger` for one Agent. -/
def findTriggered (core : Run.Database) (messageId : MessageId) (agentId : AgentId) :
    Option RunRecord :=
  core.runs.find? fun run => run.triggerMessageId = messageId ∧ run.targetAgentId = agentId

/-- The orchestration key of a Turn's Run is the Turn's identifier. -/
def turnKey (turnId : TurnId) : String := toString turnId

def findByOrchestrationKey (core : Run.Database) (turnId : TurnId) : Option RunRecord :=
  core.runs.find? fun run => run.orchestrationKey = some (turnKey turnId)

/-- `isOwnerPrivateOutput`: the frozen delivery decides. -/
def isOwnerPrivateOutput (core : Run.Database) (runId : RunId) : Bool :=
  (core.getDelivery runId).any fun delivery => delivery.payload.ownerPrivateOutput

/-! ## Evidence: the replies that count -/

variable (P : Platform)

def contributionReply (env : Env) (s : Store) (turn : DiscussionTurn) : Option String :=
  if turn.terminalReason = some .disclosureReleased then
    ((turn.assessment.bind AgentAssessment.newEvidenceRefs).getD []).head?.bind fun resultId =>
      env.admittedSummary s resultId turn
  else turn.outputMessageId.bind fun messageId =>
    (s.core.getMessage messageId).map MessageRecord.content

/-- Whether a seal of the Wave left the Turn out. -/
def sealedOut (seals : List DiscussionWaveSeal) (turn : DiscussionTurn) : Bool :=
  seals.any fun candidate => candidate.waveId = turn.waveId ∧
    ¬ candidate.acceptedMembers.any fun member => member.turnId = turn.turnId

def acceptedPriorTurnMessages (s : Store) (discussion : DiscussionRecord)
    (currentWave : DiscussionWave) : List MessageRecord :=
  let waves := s.listWaves discussion.discussionId
  let seals := s.listWaveSeals discussion.discussionId
  (s.listTurns discussion.discussionId).filterMap fun turn =>
    match Table.lookup DiscussionWave.waveId turn.waveId waves with
    | none => none
    | some wave =>
      if currentWave.ordinal ≤ wave.ordinal ∨ sealedOut seals turn then none
      else turn.outputMessageId.bind s.core.getMessage

def recentAcceptedReplies (env : Env) (s : Store) (discussion : DiscussionRecord)
    (currentWave : DiscussionWave) : List String :=
  let byMessage := (s.listTurns discussion.discussionId).reverse
  (lastOf 10 (acceptedPriorTurnMessages s discussion currentWave)).map fun message =>
    let turn := byMessage.find? fun turn => turn.outputMessageId = some message.messageId
    (turn.bind (contributionReply env s)).getD message.content

/-! ## Evidence: anchors -/

def latestOutputMessageId (s : Store) (discussion : DiscussionRecord) : MessageId :=
  let closed := (s.listWaves discussion.discussionId).filter fun wave => wave.state ≠ .opened
  let anchor := closed.getLast?.bind fun wave => s.core.getMessage (P.waveResultMessageId wave.waveId)
  let outputs := (s.listTurns discussion.discussionId).filterMap fun turn =>
    turn.outputMessageId.bind s.core.getMessage
  let latest := anchor.or (outputs.insertionSort MessageRecord.SequenceLe).getLast?
  (latest.map MessageRecord.messageId).getD discussion.rootMessageId

section

variable (env : Env)

/-- A Message the Discussion writes itself. -/
def systemMessage (s : Store) (discussion : DiscussionRecord) (messageId : MessageId)
    (content : String) (parentMessageId : MessageId) (createdAt : Time) : NewMessage where
  messageId
  roomId := discussion.roomId
  taskId := discussion.taskId
  senderType := .system
  senderId := discussion.discussionId
  content
  parentMessageId := some parentMessageId
  traceId := ((s.core.getMessage parentMessageId).map MessageRecord.traceId).getD env.freshId
  createdAt

/-- An anchor none of the participants has a Run on: the candidate, or a new Message below it. -/
def uniqueWaveAnchor (discussion : DiscussionRecord) (participants : List DiscussionParticipant)
    (candidateMessageId : MessageId) (now : Time) : Program System MessageId := do
  let s ← System.query id
  if participants.any fun participant =>
      (findTriggered s.core candidateMessageId participant.agentId).isSome then
    if s.core.getMessage candidateMessageId = none then
      Program.fail s!"Discussion continuation Message not found: {candidateMessageId}"
    else
      let messageId := env.freshId
      System.transact (appendMessage env (systemMessage (env.part 0) s discussion messageId
        "继续讨论：上一轮没有产生可复用的新输入，已创建新的执行锚点。" candidateMessageId now))
      pure messageId
  else pure candidateMessageId

def agentName (agentId : AgentId) : String :=
  ((env.getAgent agentId).map Agent.name).getD (toString agentId)

def ensureWaveResultAnchor (discussion : DiscussionRecord) (wave : DiscussionWave)
    (turns : List DiscussionTurn) (now : Time) : Program System MessageId := do
  let messageId := P.waveResultMessageId wave.waveId
  let s ← System.query id
  if s.core.getMessage messageId = none then
    let lines := (turns.insertionSort DiscussionTurn.MemberOrder).map fun turn =>
      "- " ++ agentName env turn.speakerAgentId ++ ": " ++ turn.state.text
    System.transact (appendMessage env (systemMessage env s discussion messageId
      ("\n".intercalate (("第 " ++ toString wave.ordinal ++ " 轮已收敛。") :: lines))
      wave.inputMessageId now))
    pure messageId
  else pure messageId

/-- The private contributions that no released evidence stands for. -/
def missingPrivateTurns (s : Store) (discussion : DiscussionRecord) : List DiscussionTurn :=
  (s.listTurns discussion.discussionId).filter fun turn =>
    turn.kind = .discussion ∧ turn.runId.any (isOwnerPrivateOutput s.core) ∧
      (turn.terminalReason ≠ some .disclosureReleased ∨ contributionReply env s turn = none)

def fallbackContent (s : Store) (discussion : DiscussionRecord) : String :=
  let questions := discussion.progress.openQuestions
  let unresolved := if questions = [] then "暂无记录的未决问题。"
    else "\n".intercalate (questions.map fun question =>
      "- [" ++ question.importance.text ++ "] " ++ question.question)
  let missing := missingPrivateTurns env s discussion
  let privateUnresolved := if missing = [] then ""
    else "\n\n未取得可接纳的私有证据：" ++ toString missing.length ++ " 项。\n" ++
      "\n".intercalate ((lastOf 10 missing).map fun turn => "- " ++ toString turn.speakerAgentId ++
        ": " ++ (turn.terminalReason.map TerminalReason.text).getD "unavailable") ++
      "\n这些来源仍未解决，不能据此判断其私有状态或验收通过。"
  "讨论已停止，最终生成器未能完成。\n\n未决问题：\n" ++ unresolved ++ privateUnresolved

def appendFallbackConclusion (discussion : DiscussionRecord) (parentMessageId : MessageId) : Program
    System Unit := do
  let messageId := P.fallbackMessageId discussion.discussionId
  let s ← System.query id
  if s.core.getMessage messageId = none then
    System.transact (appendMessage env (systemMessage env s discussion messageId
      (fallbackContent env s discussion) parentMessageId env.now))
  else pure ()

end

/-! ## Settlement -/

structure WaveSettlement where
  discussionId : DiscussionId
  wave : Option DiscussionWave
  turns : List DiscussionTurn

def terminalReason (core : Run.Database) (run : RunRecord) (hasOutput : Bool) : TerminalReason :=
  if (core.listEvents run.runId).any fun row => row.event.status? = some .inputRequired then
    .inputRequired
  else if run.state = .completed ∧ ¬ hasOutput then .completedWithoutReply
  else .run run.state

def replyAssessment : Run.RuntimeEvent → Option (Option String)
  | .reply _ _ assessment => some assessment
  | .status .. | .activity .. | .output .. => none

/-- The assessment of the last reply, parsed. -/
def latestAssessment (core : Run.Database) (runId : RunId) : Option AgentAssessment :=
  ((core.listEvents runId).filterMap fun row => replyAssessment row.event).getLast?.join.bind
    fun raw => (P.readAssessment raw).bind (parseAgentAssessment P)

/-- What an ordinary terminal Run makes of its Turn. -/
def sharedOutcome (core : Run.Database) (run : RunRecord) (turn : DiscussionTurn) : TurnOutcome :=
  let output := findAgentReply core turn.inputMessageId turn.speakerAgentId
  match if run.state = .completed then output else none with
  | some output =>
    ⟨some output.messageId, .completed, latestAssessment P core run.runId,
      some (hashDiscussionReply P output.content), none⟩
  | none =>
    ⟨none, if run.state = .canceled then .canceled else .failed, none, none,
      some (terminalReason core run output.isSome)⟩

variable (env : Env)

/-- What a terminal Run with owner-private output makes of its Turn; `none` waits for the owner. -/
def privateOutcome (s : Store) (discussion : DiscussionRecord) (wave : DiscussionWave)
    (run : RunRecord) (turn : DiscussionTurn) (now : Time) : Option TurnOutcome :=
  let canceled : Bool := discussion.state = .canceled ∨ run.state = .canceled
  let released := if ¬ canceled ∧ wave.state = .opened ∧ run.state = .completed ∧
    turn.kind = .discussion then env.releasedForTurn s turn wave.deadlineAt else none
  match released with
  | some released =>
    some ⟨some released.messageId, .completed, some { newEvidenceRefs := some [released.resultId] },
      some (hashDiscussionReply P released.summary), some .disclosureReleased⟩
  | none =>
    if ¬ canceled ∧ run.state = .completed ∧ wave.state = .opened ∧ now < wave.deadlineAt ∧
        discussion.requestedAction = none ∧ discussion.state = .active ∧
        turn.kind = .discussion then none
    else some ⟨none, if canceled then .canceled else .failed, none, none,
      some (if canceled then .disclosureCanceled
        else if run.state ≠ .completed then terminalReason s.core run false
        else .disclosureUnavailable)⟩

/-- The tables after a private settlement. -/
def settlePrivate (run : RunRecord) (turn : DiscussionTurn) (wave : DiscussionWave)
    (discussion : DiscussionRecord) (now : Time) (s : Store) : Store :=
  match privateOutcome P env s discussion wave run turn now with
  | none => s.awaitDisclosure turn.turnId now
  | some outcome => s.settleTurn turn.turnId outcome now

/-- The tables after `settle` found the Run and its Turn. -/
def settleRun (run : RunRecord) (turn : DiscussionTurn) (now : Time) (s : Store) : Except String
    Store :=
  if ¬ turn.state.isTerminal ∧ isOwnerPrivateOutput s.core run.runId then
    match s.getWave turn.waveId, s.get turn.discussionId with
    | some wave, some discussion => .ok (settlePrivate P env run turn wave discussion now s)
    | _, _ => .error "Cannot read properties of undefined (reading 'state')"
  else .ok (s.settleTurn turn.turnId (sharedOutcome P s.core run turn) now)

/-- `settle`: null unless the Run is terminal and belongs to a Turn. -/
def settle (runId : RunId) (now : Time) : Program System (Option WaveSettlement) := do
  let s ← System.query id
  match s.core.getRun runId, s.findTurnByRun runId with
  | some run, some turn =>
    if run.state.isTerminal then
      System.transact fun s => (settleRun P env run turn now s).map ((), ·)
      let settled ← System.query id
      pure (some ⟨turn.discussionId, settled.getWave turn.waveId,
        settled.listTurnsForWave turn.waveId⟩)
    else pure none
  | _, _ => pure none

end ConveneWire.Discussion
