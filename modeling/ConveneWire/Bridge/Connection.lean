import ConveneWire.Bridge.Admission

/-! # The connection client, seen from one Run

`connection/client.go`: recovery runs before the first frame is read, one worker
handles a Run at a time, a cancel request for an active Run is staged beside its
worker and one for an inactive Run is replayed by the reader itself. A lost
connection lets the running routines finish; a crash ends them between any two
of their actions. -/

namespace ConveneWire.Bridge

open Relation (ReflTransGen)
open Transition (Preserved)

inductive Phase where
  | offline | recovering | online | closing
  deriving DecidableEq, Repr

/-- Which routine writes the record of the Run. -/
inductive WriterKind where
  | recovery
  | worker (request : RunRequest)
  | replay

structure Writer where
  kind : WriterKind
  process : Routine Unit

/-- The Bridge as far as it concerns one Run. The reader of the connection is idle
unless it stages a cancellation or replays a canceled Run. -/
structure Machine where
  slot : RunSlot
  phase : Phase
  writer : Option Writer
  stager : Option (Routine Unit)

namespace Machine

/-- An empty inbox before the first connection. -/
def initial : Machine := ⟨.empty, .offline, none, none⟩

/-- What follows a routine of the reader: its failure ends the connection. -/
def afterReader (phase : Phase) : Except String Unit → Phase
  | .ok () => phase
  | .error _ => .closing

def afterRecovery : Except String Unit → Phase
  | .ok () => .online
  | .error _ => .offline

/-- The frames, losses, crashes and single actions that move the machine of a Run. -/
inductive Step (config : Config) (runId : String) : Machine → Machine → Prop
  | connect {s} :
      Step config runId ⟨s, .offline, none, none⟩
        ⟨s, .recovering, some ⟨.recovery, RuntimeExecutor.recover config⟩, none⟩
  | recovered {s result} :
      Step config runId ⟨s, .recovering, some ⟨.recovery, .done result⟩, none⟩
        ⟨s, afterRecovery result, none, none⟩
  | request {s} (request : RunRequest) (hrun : request.runId = runId) :
      Step config runId ⟨s, .online, none, none⟩
        ⟨{ s with explicitCancel := false }, .online,
          some ⟨.worker request, Handler.handle config request⟩, none⟩
  | cancelActive {s request process} (requested : CancelRequest) (hrun : requested.runId = runId)
      (hagent : requested.agentId = request.targetAgentId)
      (htrace : requested.traceId = request.traceId) :
      Step config runId ⟨s, .online, some ⟨.worker request, process⟩, none⟩
        ⟨s, .online, some ⟨.worker request, process⟩,
          some (RuntimeExecutor.stageCancellation requested)⟩
  | cancelInactive {s} (requested : CancelRequest) (hrun : requested.runId = runId) :
      Step config runId ⟨s, .online, none, none⟩
        ⟨s, .online, some ⟨.replay, RuntimeExecutor.replayCanceledRun config requested⟩, none⟩
  | staged {s phase writer} :
      Step config runId ⟨s, phase, writer, some (.done (.ok ()))⟩
        ⟨{ s with explicitCancel := true }, phase, writer, none⟩
  /-- The worker's context has already been canceled with the connection. -/
  | stagedLate {s writer} :
      Step config runId ⟨s, .closing, writer, some (.done (.ok ()))⟩ ⟨s, .closing, writer, none⟩
  | stageFailed {s phase writer message} :
      Step config runId ⟨s, phase, writer, some (.done (.error message))⟩
        ⟨s, .closing, writer, none⟩
  | replayed {s phase result} :
      Step config runId ⟨s, phase, some ⟨.replay, .done result⟩, none⟩
        ⟨s, afterReader phase result, none, none⟩
  | finished {s phase request result stager} :
      Step config runId ⟨s, phase, some ⟨.worker request, .done result⟩, stager⟩
        ⟨s, phase, none, stager⟩
  | lose {s writer stager} :
      Step config runId ⟨s, .online, writer, stager⟩ ⟨s, .closing, writer, stager⟩
  | drained {s} :
      Step config runId ⟨s, .closing, none, none⟩ ⟨s, .offline, none, none⟩
  | writerActs {s phase kind effect next stager} (answer : Answer) :
      Step config runId ⟨s, phase, some ⟨kind, .act effect next⟩, stager⟩
        ⟨effect s answer, phase, some ⟨kind, next s answer⟩, stager⟩
  | stagerActs {s phase writer effect next} (answer : Answer) :
      Step config runId ⟨s, phase, writer, some (.act effect next)⟩
        ⟨effect s answer, phase, writer, some (next s answer)⟩
  | crash {s phase writer stager} :
      Step config runId ⟨s, phase, writer, stager⟩
        ⟨{ s with explicitCancel := false }, .offline, none, none⟩

/-- The machines an inbox can get into over its lifetime. -/
def Reachable (config : Config) (runId : String) (m : Machine) : Prop :=
  ReflTransGen (Step config runId) initial m

/-! ## The invariant of the machine -/

/-- The slot is valid and both routines, if they run, keep to their contracts from here. -/
structure Safe (m : Machine) : Prop where
  slot : m.slot.Valid
  writer : ∀ w, m.writer = some w →
    (Bridge.writer Anything).Runs (fun _ => Own Anything) w.process m.slot
  stager : ∀ p, m.stager = some p → Bridge.stager.Runs (fun _ => RunSlot.Valid) p m.slot

theorem Safe.initial : Machine.initial.Safe :=
  ⟨RunSlot.Valid.empty, fun _ h => (by cases h), fun _ h => (by cases h)⟩

variable {config : Config} {runId : String} {s : RunSlot} {phase : Phase} {w : Option Writer}
  {g : Option (Routine Unit)} {kind : WriterKind}

/-- No routine runs: only the slot matters. -/
theorem Safe.idle (hs : s.Valid) : Safe ⟨s, phase, none, none⟩ :=
  ⟨hs, fun _ h => (by cases h), fun _ h => (by cases h)⟩

/-- A routine of the writer starts while the reader is idle. -/
theorem Safe.starts {p : Routine Unit} (hs : s.Valid) (hp : Writes Anything p fun _ => Anything) :
    Safe ⟨s, phase, some ⟨kind, p⟩, none⟩ where
  slot := hs
  writer := fun _ h => by
    cases h
    exact hp.runs (own_stable Anything Anything) ⟨hs, trivial⟩
  stager := fun _ h => by cases h

/-- The cause of a canceled context concerns neither contract. -/
theorem Safe.explicitCancel (h : Safe ⟨s, phase, w, g⟩) (explicitCancel : Bool) :
    Safe ⟨{ s with explicitCancel }, phase, w, none⟩ where
  slot := h.slot.withExplicitCancel explicitCancel
  writer := fun w hw => (h.writer w hw).interfere
    ⟨fun hs => hs.withExplicitCancel explicitCancel, rfl⟩
  stager := fun _ h => by cases h

theorem safe_step : Preserved (Step config runId) Safe := by
  intro m m' hstep h
  cases hstep with
  | connect => exact .starts h.slot RuntimeExecutor.recover_spec
  | recovered => exact .idle h.slot
  | request request hrun => exact .starts (h.slot.withExplicitCancel false) Handler.handle_spec
  | cancelActive requested =>
    refine ⟨h.slot, h.writer, fun _ hp => ?_⟩
    cases hp
    exact stageCancellation_spec.runs valid_stable h.slot
  | cancelInactive requested => exact .starts h.slot RuntimeExecutor.replayCanceledRun_spec
  | staged => exact h.explicitCancel true
  | stagedLate => exact ⟨h.slot, h.writer, fun _ hp => by cases hp⟩
  | stageFailed => exact ⟨h.slot, h.writer, fun _ hp => by cases hp⟩
  | replayed => exact .idle h.slot
  | finished => exact ⟨h.slot, fun _ hw => (by cases hw), h.stager⟩
  | lose => exact ⟨h.slot, h.writer, h.stager⟩
  | drained => exact .idle h.slot
  | writerActs answer =>
    have hrun := h.writer _ rfl
    refine ⟨(hrun.guar answer).valid h.slot, fun _ hw => ?_, fun p hp => ?_⟩
    · cases hw
      exact hrun.next answer
    · exact (h.stager p hp).interfere (hrun.guar answer)
  | stagerActs answer =>
    have hrun := h.stager _ rfl
    refine ⟨(hrun.guar answer).1 h.slot, fun w hw => ?_, fun _ hp => ?_⟩
    · exact (h.writer w hw).interfere (hrun.guar answer)
    · cases hp
      exact hrun.next answer
  | crash => exact .idle (h.slot.withExplicitCancel false)

/-- What has been sent stays sent. -/
theorem Safe.sent {m m' : Machine} (h : m.Safe) (hstep : Step config runId m m') :
    m.slot.sent <+: m'.slot.sent := by
  cases hstep with
  | writerActs answer => exact ((h.writer _ rfl).guar answer).sent
  | stagerActs answer =>
    have howned := ((h.stager _ rfl).guar answer).2
    exact ⟨[], (List.append_nil _).trans (congrArg Owned.sent howned).symm⟩
  | connect | recovered | request | cancelActive | cancelInactive | staged | stagedLate
  | stageFailed | replayed | finished | lose | drained | crash => exact List.prefix_rfl

/-- The slot of a reachable machine is valid, also between the actions of its routines. -/
theorem Reachable.valid {m : Machine} (h : Reachable config runId m) : m.slot.Valid :=
  (safe_step.run h .initial).slot

/-! ## At most one start -/

/-- `OnNew` is invoked at most once over the lifetime of the inbox, and every tombstone
recorded before the last check of that invocation had been acknowledged and removed
again while the Run had no inbox record. -/
theorem runtime_started_at_most_once {m : Machine} (h : Reachable config runId m) :
    m.slot.starts.length ≤ 1 ∧
      ∀ start ∈ m.slot.starts, ∀ fence ∈ start.checked, fence.acknowledged = true :=
  ⟨h.valid.once, h.valid.started⟩

/-- The writer taken through any answers of the environment. -/
theorem advances (answers : List Answer) (s : RunSlot) (p : Routine Unit) :
    ReflTransGen (Step config runId) ⟨s, phase, some ⟨kind, p⟩, g⟩
      ⟨(p.advance s answers).1, phase, some ⟨kind, (p.advance s answers).2⟩, g⟩ := by
  induction answers generalizing s p with
  | nil => exact .refl
  | cons answer rest ih =>
    cases p with
    | done result => exact .refl
    | act effect next => exact .head (.writerActs answer) (ih _ _)

/-! ### A Run that is delivered after its cancellation was acknowledged -/

def steadyConfig : Config where
  payloadHash request := request.idempotencyKey
  redact text := text
  shareReasoningSummaries := false
  hasGate := true
  hasBeforeStart := true

def steadyAnswer : Answer where
  io := .ok
  delivery := .sent
  preparation := .ready
  gateAcquired := true
  beforeStart := true
  runtime := ⟨true, true, false, true⟩
  reports := 0
  event := .output "" false
  executed := true

def lateRequest : RunRequest where
  runId := "run_delivered"
  traceId := "trace_delivered"
  targetAgentId := "agent_delivered"
  idempotencyKey := "key"
  governed := false
  desktopAdoption := false
  ownerPrivateOutput := false
  pinnedArtifactContent := false
  supplementalEvidence := none
  body := ""

def earlyCancel : CancelRequest where
  runId := "run_delivered"
  traceId := "trace_delivered"
  agentId := "agent_delivered"
  messageId := "msg"
  reason := "canceled by user"

/-- The slot once the cancellation of the unknown Run has been acknowledged. -/
def acknowledgedSlot : RunSlot :=
  ((RuntimeExecutor.replayCanceledRun steadyConfig earlyCancel).advance .empty
    (List.replicate 4 steadyAnswer)).1

/-- The worker of the late delivery, right after it has invoked the Runtime. -/
def lateStart : Machine :=
  let worker := (Handler.handle steadyConfig lateRequest).advance acknowledgedSlot
    (List.replicate 15 steadyAnswer)
  ⟨worker.1, .online, some ⟨.worker lateRequest, worker.2⟩, none⟩

theorem acknowledged_reachable :
    Reachable steadyConfig "run_delivered" ⟨acknowledgedSlot, .online, none, none⟩ := by
  have hrecover : ReflTransGen (Step steadyConfig "run_delivered") initial
      ⟨.empty, .online, none, none⟩ :=
    .head .connect ((advances [steadyAnswer] _ _).tail .recovered)
  exact hrecover.trans (.head (.cancelInactive earlyCancel rfl)
    ((advances (List.replicate 4 steadyAnswer) _ _).tail .replayed))

theorem lateStart_reachable : Reachable steadyConfig "run_delivered" lateStart :=
  acknowledged_reachable.trans (.head (.request lateRequest rfl) (advances _ _ _))

theorem lateStart_starts : lateStart.slot.starts =
    [⟨lateRequest, [⟨⟨"run_delivered", "trace_delivered", "agent_delivered", "msg",
      "canceled by user"⟩, true⟩]⟩] := by
  decide

theorem runtime_started_late : lateStart.slot.starts.length = 1 ∧
    ∀ start ∈ lateStart.slot.starts, ∀ fence ∈ start.checked, fence.acknowledged = true :=
  ⟨by rw [lateStart_starts]; rfl, (runtime_started_at_most_once lateStart_reachable).2⟩

/-- A tombstone for the very request was recorded before the last check of a start. -/
theorem start_after_acknowledged_tombstone :
    ∃ m, Reachable steadyConfig "run_delivered" m ∧
      ∃ start ∈ m.slot.starts, ∃ fence ∈ start.checked, fence.Matches start.request := by
  refine ⟨lateStart, lateStart_reachable, ?_⟩
  rw [lateStart_starts]
  exact ⟨_, List.mem_cons_self, _, List.mem_cons_self, rfl, rfl, rfl⟩

end Machine

end ConveneWire.Bridge
