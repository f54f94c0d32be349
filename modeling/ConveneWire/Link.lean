import ConveneWire.Bridge.Connection
import ConveneWire.Run.BridgeRunEventService

/-! # The logs of the Bridge and of the server

One Run on one Device: the Bridge keeps its own log of the Run and reports it in
frames; the server stores what it accepts and may end the Run by itself. A frame
that was sent may arrive at any later time and any number of times, which covers
replays, duplicates and lost connections. -/

namespace ConveneWire

open Relation (ReflTransGen)
open Transition (Preserved)
open Transactional
open OrdinalLog (Consecutive ClosedBy)
open Run Bridge

/-- What the server compares of a stored event. -/
def Run.RunEventRecord.key (row : RunEventRecord) : EventKey :=
  ⟨row.sequence, eventKind row.event, row.event.status?⟩

/-- The log of the Bridge for the Run, empty while it has no inbox record. -/
def Bridge.RunSlot.log (s : RunSlot) : List RuntimeEvent := (s.record.map Record.log).getD []

/-- The inputs of the server besides the frame when it handles one. -/
structure Arrival where
  env : Env
  policy : IngressPolicy
  identity : EventIdentity
  now : Time
  materializations : Materializations
  failure : MaterializationError

/-- The handler of each frame of the Bridge. Supplemental evidence has tables of its own. -/
def Arrival.deliver (arrival : Arrival) : Frame → Program Server Unit
  | .accepted _ => do
    let _ ← DeliveryService.accept arrival.env arrival.identity.principal arrival.identity.runId
      arrival.identity.traceId arrival.identity.agentId 1 arrival.now arrival.materializations
      arrival.failure
  | .event (.status sequence status error session clarification) => do
    let _ ← BridgeRunEventService.applyStatus arrival.env arrival.policy arrival.identity
      ⟨sequence, status, error, session, clarification⟩ arrival.now
  | .event (.activity sequence activity) => do
    let _ ← BridgeRunEventService.applyActivity arrival.env arrival.policy arrival.identity
      sequence activity arrival.now
  | .event (.output sequence content reset) => do
    let _ ← BridgeRunEventService.applyOutput arrival.env arrival.policy arrival.identity
      sequence content reset arrival.now
  | .event (.reply sequence content assessment) => do
    let _ ← BridgeRunEventService.applyReply arrival.env arrival.policy arrival.identity
      sequence content assessment arrival.now
  | .supplementalEvidence _ => pure ()

/-- For this Run the server makes terminal events only. -/
def endsOnly (runId : RunId) : EventFilter := fun r event => r = runId → event.isTerminal = true

/-- Both sides, and which rows of the server's log came from the Bridge. -/
structure Link where
  bridge : Machine
  server : Server
  reported : List RunEventRecord
  made : List RunEventRecord

namespace Link

/-- The rows that `t` has more than `s`. -/
def added (runId : RunId) (s t : Server) : List RunEventRecord :=
  (t.database.listEvents runId).drop (s.database.listEvents runId).length

/-- A step of the Bridge, the arrival of a frame it has sent, or a call of the server itself.
Both calls may stop at any of their commits. `name` is the Run's id on the Bridge. -/
inductive Step (config : Config) (options : CancellationOptions) (name : String) (runId : RunId) :
    Link → Link → Prop
  | bridge {link : Link} {m : Machine} (h : Machine.Step config name link.bridge m) :
      Step config options name runId link { link with bridge := m }
  | arrive {link : Link} {t : Server} (arrival : Arrival) (frame : Frame)
      (hsent : frame ∈ link.bridge.slot.sent) (hrun : arrival.identity.runId = runId)
      (ht : t ∈ (arrival.deliver frame).visits link.server) :
      Step config options name runId link { link with
        server := t, reported := link.reported ++ added runId link.server t }
  | host {link : Link} {t : Server} (call : ServerCall) (hcall : call.Stores (endsOnly runId))
      (ht : t ∈ (call.exec options).visits link.server) :
      Step config options name runId link { link with
        server := t, made := link.made ++ added runId link.server t }

/-- An empty inbox and a server that has stored nothing for the Run. -/
def start (server : Server) : Link := ⟨.initial, server, [], []⟩

/-! ## What a step does to the server's log -/

variable {config : Config} {options : CancellationOptions} {name : String} {runId : RunId}
  {t s : Server}

/-- An event with the key of what the frame reports. -/
def reports (frame : Frame) (runId : RunId) : EventFilter := fun r event =>
  r = runId → frame.entry?.map eventKey = some (eventKey event)

theorem deliver_emits (arrival : Arrival) (hrun : arrival.identity.runId = runId) (s : Server)
    (frame : Frame) : Steps (Server.Step (reports frame runId)) s (arrival.deliver frame) := by
  subst hrun
  cases frame with
  | accepted failed =>
    exact .returning (DeliveryService.accept_emits s _ _ _ _ _ _ _ _ fun _ => rfl)
  | event entry =>
    cases entry with
    | status =>
      exact .returning (BridgeRunEventService.applyStatus_emits fun _ => rfl)
    | activity =>
      exact .returning (BridgeRunEventService.applyActivity_emits fun _ => rfl)
    | output =>
      exact .returning (BridgeRunEventService.applyOutput_emits fun _ => rfl)
    | reply =>
      exact .returning (BridgeRunEventService.applyReply_emits fun _ _ _ => rfl)
  | supplementalEvidence => exact .pure trivial

theorem endsOnly_allowsEnd : (endsOnly runId).AllowsEnd := fun _ _ h _ => h

/-- The log of the Run grows by rows that `P` allows and stays a log. -/
structure Extends (P : EventFilter) (runId : RunId) (s t : Server) : Prop where
  events : t.database.listEvents runId = s.database.listEvents runId ++ added runId s t
  stored : ∀ row ∈ added runId s t, row.sequence = row.event.sequence ∧ P runId row.event
  logged : (s.database.cell runId).Logged → (t.database.cell runId).Logged

theorem Extends.of_steps {P : EventFilter} (h : ReflTransGen (Server.Step P) s t) :
    Extends P runId s t := by
  have hdb := Server.Step.database h
  obtain ⟨rows, hevents, hrows⟩ := hdb.appends runId
  have hadded : added runId s t = rows := by rw [added, hevents, List.drop_left]
  exact ⟨hadded ▸ hevents, hadded ▸ hrows, hdb.logged⟩

/-! ## Agreement -/

/-- The server's log is what the Bridge reported and then what the server made, and every
reported row has the key of a frame that was sent. -/
structure Agrees (runId : RunId) (link : Link) : Prop where
  bridge : link.bridge.Safe
  logged : (link.server.database.cell runId).Logged
  events : link.server.database.listEvents runId = link.reported ++ link.made
  ends : ∀ row ∈ link.made, row.EndsRun
  sent : ∀ row ∈ link.reported, ∃ frame ∈ link.bridge.slot.sent,
    frame.entry?.map eventKey = some row.key

variable {link : Link} {row : RunEventRecord}

theorem closed_of_logged (h : (s.database.cell runId).Logged) :
    ClosedBy RunEventRecord.EndsRun (s.database.listEvents runId) := by
  obtain ⟨_, -, hlog⟩ := h
  exact hlog.closed

/-- Nothing is stored once the server has ended the Run. -/
theorem Agrees.made_nil_or {rows : List RunEventRecord} (h : Agrees runId link)
    (hclosed : ClosedBy RunEventRecord.EndsRun (link.reported ++ link.made ++ rows)) :
    link.made = [] ∨ rows = [] := by
  cases hmade : link.made with
  | nil => exact .inl rfl
  | cons row rest =>
    right
    have hafter : rest ++ rows = [] := hclosed.nothing_after
      (by rw [hmade, List.append_assoc, List.cons_append])
      (h.ends row (by rw [hmade]; exact List.mem_cons_self))
    exact (List.append_eq_nil_iff.mp hafter).2

theorem Agrees.arrive {frame : Frame} (h : Agrees runId link)
    (hframe : frame ∈ link.bridge.slot.sent)
    (ht : Extends (reports frame runId) runId link.server t) : Agrees runId { link with
      server := t, reported := link.reported ++ added runId link.server t } where
  bridge := h.bridge
  logged := ht.logged h.logged
  events := by
    have hclosed := closed_of_logged (ht.logged h.logged)
    rw [ht.events, h.events] at hclosed
    rw [ht.events, h.events]
    rcases h.made_nil_or hclosed with hmade | hrows
    · simp [hmade]
    · simp [hrows]
  ends := h.ends
  sent := fun row hrow => by
    rcases List.mem_append.mp hrow with hrow | hrow
    · exact h.sent row hrow
    obtain ⟨hseq, hkey⟩ := ht.stored row hrow
    refine ⟨frame, hframe, ?_⟩
    rw [hkey rfl, eventKey, ← hseq]
    rfl

theorem Agrees.host (h : Agrees runId link) (ht : Extends (endsOnly runId) runId link.server t) :
    Agrees runId { link with server := t, made := link.made ++ added runId link.server t } where
  bridge := h.bridge
  logged := ht.logged h.logged
  events := by
    rw [ht.events, h.events, List.append_assoc]
  ends := fun row hrow => by
    rcases List.mem_append.mp hrow with hrow | hrow
    · exact h.ends row hrow
    · exact (ht.stored row hrow).2 rfl
  sent := h.sent

theorem agrees_step : Preserved (Step config options name runId) (Agrees runId) := by
  intro link link' hstep h
  cases hstep with
  | bridge hbridge =>
    refine ⟨Machine.safe_step hbridge h.bridge, h.logged, h.events, h.ends, fun row hrow => ?_⟩
    obtain ⟨frame, hframe, hkey⟩ := h.sent row hrow
    exact ⟨frame, (h.bridge.sent hbridge).subset hframe, hkey⟩
  | arrive arrival frame hsent hrun ht =>
    exact h.arrive hsent (.of_steps ((deliver_emits arrival hrun _ _).visits ht))
  | host call hcall ht =>
    exact h.host (.of_steps ((ServerCall.exec_emits endsOnly_allowsEnd options hcall _).visits ht))

/-- The key of the status that acknowledges a cancellation without a record. -/
def acknowledgement : EventKey := ⟨1, .status, some .canceled⟩

/-- A row is backed by the log of the Bridge or acknowledges a cancellation. -/
theorem Agrees.backed (h : Agrees runId link) (hrow : row ∈ link.reported) :
    row.key = acknowledgement ∨ row.key ∈ link.bridge.slot.log.map eventKey := by
  obtain ⟨frame, hframe, hkey⟩ := h.sent row hrow
  rcases h.bridge.slot.backed frame hframe with rfl | ⟨record, hrecord, hbacks⟩
  · exact .inl (Option.some.inj hkey).symm
  right
  obtain ⟨event, hevent, hkey⟩ := Option.map_eq_some_iff.mp hkey
  rw [← hkey, RunSlot.log, hrecord]
  exact hbacks event hevent

theorem Agrees.consecutive (h : Agrees runId link) :
    Consecutive RunEventRecord.sequence (link.reported ++ link.made) := by
  obtain ⟨_, -, hlog⟩ := h.logged
  rw [← h.events]
  exact hlog.consecutive

/-- An acknowledgement ends the Run with sequence 1, so it is all there is. -/
theorem Agrees.acknowledged (h : Agrees runId link) (hrow : row ∈ link.reported)
    (hkey : row.key = acknowledgement) :
    link.reported.map RunEventRecord.key = [acknowledgement] := by
  obtain ⟨before, after, hsplit⟩ := List.append_of_mem hrow
  have hends : row.EndsRun := by
    have hstatus : row.event.status? = some .canceled := congrArg EventKey.status hkey
    rw [RunEventRecord.EndsRun, RuntimeEvent.isTerminal, hstatus]
    rfl
  have hclosed := closed_of_logged h.logged
  rw [h.events, hsplit, List.append_assoc] at hclosed
  have hafter : after ++ link.made = [] := hclosed.nothing_after rfl hends
  have hbefore : before = [] := by
    have hconsecutive := h.consecutive.left
    rw [hsplit] at hconsecutive
    have hseq := hconsecutive.ord_getElem (i := before.length) (by simp)
    rw [List.getElem_append_right (Nat.le_refl _)] at hseq
    have hone : row.sequence = 1 := congrArg EventKey.sequence hkey
    simp only [Nat.sub_self, List.getElem_cons_zero, hone] at hseq
    exact List.eq_nil_of_length_eq_zero (by omega)
  rw [hsplit, hbefore, (List.append_eq_nil_iff.mp hafter).1]
  simp [hkey]

theorem log_consecutive (h : link.bridge.Safe) :
    Consecutive EventKey.sequence (link.bridge.slot.log.map eventKey) := by
  rw [OrdinalLog.consecutive_map, RunSlot.log]
  cases hrecord : link.bridge.slot.record with
  | none => exact .nil
  | some record => exact (h.slot.sequenced record hrecord).consecutive

/-- **Agreement of the logs.** The server's log is what the Bridge reported followed by at most
one terminal event of its own. What the Bridge reported is where its log begins, unless it is
the single status that acknowledges a cancellation received before the Run. -/
theorem server_log_agrees {server : Server} {run₀ : RunRecord}
    (hrun : server.database.getRun runId = some run₀) (hstate : run₀.state = .queued)
    (hlast : run₀.lastSequence = 0) (hterminal : run₀.terminalAt = none)
    (hevents : server.database.listEvents runId = [])
    (hreach : ReflTransGen (Step config options name runId) (start server) link) :
    link.server.database.listEvents runId = link.reported ++ link.made ∧
      link.made.length ≤ 1 ∧ (∀ row ∈ link.made, row.EndsRun) ∧
      (link.reported.map RunEventRecord.key <+: link.bridge.slot.log.map eventKey ∨
        link.reported.map RunEventRecord.key = [acknowledgement]) := by
  have hstart : Agrees runId (start server) := by
    refine ⟨.initial, ⟨run₀, hrun, ?_⟩, hevents, fun _ h => absurd h List.not_mem_nil,
      fun _ h => absurd h List.not_mem_nil⟩
    show EventLog run₀ (server.database.listEvents runId)
    rw [hevents]
    exact .queued hstate hlast hterminal
  have h : Agrees runId link := agrees_step.run hreach hstart
  refine ⟨h.events, ?_, h.ends, ?_⟩
  · have hclosed := closed_of_logged h.logged
    rw [h.events] at hclosed
    cases hmade : link.made with
    | nil => exact Nat.zero_le 1
    | cons row rest =>
      have hends := h.ends row (by rw [hmade]; exact List.mem_cons_self)
      rw [hmade] at hclosed
      obtain rfl : rest = [] := hclosed.nothing_after rfl hends
      exact Nat.le_refl 1
  · by_cases hack : ∃ row ∈ link.reported, row.key = acknowledgement
    · obtain ⟨row, hrow, hkey⟩ := hack
      exact .inr (h.acknowledged hrow hkey)
    left
    have hkeys : Consecutive EventKey.sequence (link.reported.map RunEventRecord.key) :=
      OrdinalLog.consecutive_map.mpr h.consecutive.left
    refine hkeys.isPrefix_of_subset (fun _ _ => Int.ofNat.inj) (log_consecutive h.bridge)
      fun key hkey => ?_
    obtain ⟨row, hrow, rfl⟩ := List.mem_map.mp hkey
    exact (h.backed hrow).resolve_left fun h => hack ⟨row, hrow, h⟩

theorem bridge_steps {m : Machine} (h : ReflTransGen (Machine.Step config name) link.bridge m) :
    ReflTransGen (Step config options name runId) link { link with bridge := m } := by
  induction h with
  | refl => exact .refl
  | tail _ hstep ih => exact ih.tail (.bridge hstep)

/-! ### Runs on one Device -/

def openPolicy : IngressPolicy where
  sameTeam := fun _ => true
  redactSensitiveText := id
  safeRuntimeFailureDetails := some
  parseAgentAssessment := some
  sessionAcknowledged := fun _ _ => true
  hasRoomContextReceipt := fun _ => false
  proposalAllowed := fun _ _ => true

/-- A frame about Run 7 from the Device of its Agent. -/
def deviceArrival : Arrival where
  env := managedEnv 7 .sent
  policy := openPolicy
  identity := ⟨⟨1, 1⟩, 7, 0, 1⟩
  now := 7
  materializations := .undefined
  failure := .undefined

/-- The delivery of Run 7 waits for its Device. -/
def waiting : Server :=
  ((ServerCall.dispatch (managedEnv 5 .notConnected) 7).exec .standard (queuedServer [queuedRun 7])).state

/-- The Run is canceled while it waits. -/
def canceling : Server :=
  ((ServerCall.cancel (managedEnv 6 .sent) 7 9 "canceled by user").exec .standard waiting).state

def acceptedServer : Server := (deviceArrival.deliver (.accepted false) waiting).state

def acknowledgedServer : Server :=
  (deviceArrival.deliver cancellationTombstoneStatus canceling).state

/-- The Bridge has accepted the Run and reported it. -/
def acceptedLink : Link :=
  ⟨Machine.lateStart, acceptedServer, added 7 waiting acceptedServer, []⟩

/-- The Bridge has acknowledged the cancellation of a Run it never received. -/
def acknowledgedLink : Link :=
  ⟨⟨Machine.acknowledgedSlot, .online, none, none⟩, acknowledgedServer,
    added 7 canceling acknowledgedServer, []⟩

theorem waiting_reachable : ReflTransGen (Step Machine.steadyConfig {} "run_delivered" 7)
    (start (queuedServer [queuedRun 7])) (start waiting) :=
  .single (.host (.dispatch (managedEnv 5 .notConnected) 7) trivial Program.state_mem_visits)

theorem acceptedLink_reachable : ReflTransGen (Step Machine.steadyConfig {} "run_delivered" 7)
    (start (queuedServer [queuedRun 7])) acceptedLink := by
  refine (waiting_reachable.trans (bridge_steps Machine.lateStart_reachable)).tail ?_
  exact .arrive deviceArrival (.accepted false) (by decide) rfl Program.state_mem_visits

theorem acknowledgedLink_reachable : ReflTransGen (Step Machine.steadyConfig {} "run_delivered" 7)
    (start (queuedServer [queuedRun 7])) acknowledgedLink := by
  have hcancel : ReflTransGen (Step Machine.steadyConfig {} "run_delivered" 7)
      (start waiting) (start canceling) :=
    .single (.host (.cancel (managedEnv 6 .sent) 7 9 "canceled by user")
      ⟨fun _ h => absurd h (by simp [managedEnv]), fun _ h => absurd h (by simp [managedEnv])⟩
      Program.state_mem_visits)
  refine ((waiting_reachable.trans hcancel).trans
    (bridge_steps Machine.acknowledged_reachable)).tail ?_
  exact .arrive deviceArrival cancellationTombstoneStatus (by decide) rfl
    Program.state_mem_visits

theorem server_log_agrees_accepted :
    acceptedLink.reported.map RunEventRecord.key = [⟨1, .status, some .delivered⟩] ∧
      acceptedLink.server.database.listEvents 7 = acceptedLink.reported ++ acceptedLink.made ∧
      (acceptedLink.reported.map RunEventRecord.key <+: acceptedLink.bridge.slot.log.map eventKey ∨
        acceptedLink.reported.map RunEventRecord.key = [acknowledgement]) := by
  obtain ⟨hevents, -, -, hagrees⟩ := server_log_agrees
    (by rfl : (queuedServer [queuedRun 7]).database.getRun 7 = some (queuedRun 7))
    rfl rfl rfl rfl acceptedLink_reachable
  exact ⟨by decide, hevents, hagrees⟩

/-- The server has stored an event while the log of the Bridge is empty. -/
theorem acknowledged_without_log :
    ¬ ∀ (config : Config) (options : CancellationOptions) (name : String) (runId : RunId)
      (server : Server) (run₀ : RunRecord) (link : Link),
      server.database.getRun runId = some run₀ → run₀.state = .queued → run₀.lastSequence = 0 →
      run₀.terminalAt = none → server.database.listEvents runId = [] →
      ReflTransGen (Step config options name runId) (start server) link →
      link.reported.map RunEventRecord.key <+: link.bridge.slot.log.map eventKey := by
  intro h
  have hinitial := h _ _ _ 7 _ (queuedRun 7) _ rfl rfl rfl rfl rfl acknowledgedLink_reachable
  have hreported : acknowledgedLink.reported.map RunEventRecord.key = [acknowledgement] := by
    decide
  have hlog : acknowledgedLink.bridge.slot.log = [] := by decide
  rw [hreported, hlog] at hinitial
  exact absurd hinitial (by decide)

end Link

end ConveneWire
