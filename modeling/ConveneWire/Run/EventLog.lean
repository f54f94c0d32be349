import ConveneWire.Run.Cell

/-! # The event log of a Run

`EventLog` relates a Run row to its stored events. It holds of a queued Run
without events, every `Cell.Step` keeps it, and so does every interleaving of
repository calls, stopped at any commit. -/

namespace ConveneWire.Run

open Relation (ReflTransGen)
open Transactional
open Transition (Preserved)

/-- The status of the last stored status event, `queued` if there is none. -/
def lastStatus (events : List RunEventRecord) : RunState :=
  (events.filterMap fun row => row.event.status?).getLast?.getD .queued

/-- A stored event that carries a terminal status. -/
def RunEventRecord.EndsRun (row : RunEventRecord) : Prop := row.event.isTerminal = true

open RunEventRecord (EndsRun)

instance : DecidablePred EndsRun := fun row =>
  inferInstanceAs (Decidable (row.event.isTerminal = true))

structure EventLog (run : RunRecord) (events : List RunEventRecord) : Prop where
  /-- The stored sequences are 1, 2, …, in order. -/
  consecutive : OrdinalLog.Consecutive RunEventRecord.sequence events
  /-- `lastSequence` counts them. -/
  length : events.length = run.lastSequence
  state : run.state = lastStatus events
  /-- An event that ends the Run is the last one. -/
  closed : OrdinalLog.ClosedBy EndsRun events
  terminalAt : run.terminalAt.isSome = run.state.isTerminal

theorem lastStatus_append (events : List RunEventRecord) (row : RunEventRecord) :
    lastStatus (events ++ [row]) = row.event.status?.getD (lastStatus events) := by
  unfold lastStatus
  cases h : row.event.status? with
  | none => simp [List.filterMap_append, h]
  | some state => simp [List.filterMap_append, h]

namespace EventLog

variable {run : RunRecord} {events : List RunEventRecord} {event : RuntimeEvent} {now : Time}

/-- A queued Run without events. -/
theorem queued (hstate : run.state = .queued) (hlast : run.lastSequence = 0)
    (hterm : run.terminalAt = none) : EventLog run [] where
  consecutive := .nil
  length := hlast.symm
  state := hstate
  closed := .nil
  terminalAt := by rw [hterm, hstate]; rfl

/-- Nothing in the log of a live Run ends it: the end would be the last event, and the Run's
state would be that end. -/
theorem not_ended (h : EventLog run events) (hlive : run.state.isTerminal = false) :
    ∀ row ∈ events, ¬ row.EndsRun := by
  intro row hrow hends
  obtain ⟨before, after, rfl⟩ := List.append_of_mem hrow
  obtain rfl := h.closed.nothing_after rfl hends
  have hstate := h.state
  rw [lastStatus_append] at hstate
  unfold EndsRun RuntimeEvent.isTerminal at hends
  cases hstatus : row.event.status? with
  | none => simp [hstatus] at hends
  | some state =>
    rw [hstatus] at hends hstate
    rw [hstate] at hlive
    simp_all

theorem append (h : EventLog run events) (hlive : run.state.isTerminal = false)
    (hseq : event.sequence = run.lastSequence + 1) :
    EventLog (run.advance (event.status?.getD run.state) event.sequence now)
      (events ++ [run.eventRow event now]) where
  consecutive := by
    refine h.consecutive.snoc ?_
    rw [h.length]
    show event.sequence = ((run.lastSequence + 1 : ℕ) : ℤ)
    omega
  length := by
    rw [List.length_append, h.length]
    simp only [RunRecord.advance, hseq, List.length_singleton]
    omega
  state := by
    rw [lastStatus_append, ← h.state]
    rfl
  closed := .snoc (h.not_ended hlive)
  terminalAt := by
    simp only [RunRecord.advance]
    split
    · rename_i hterm
      rw [hterm]
      rfl
    rename_i hterm
    rw [Bool.not_eq_true] at hterm
    rw [hterm]
    rfl

end EventLog

/-- The rows of a Run that exists and whose log agrees with it. -/
def Cell.Logged (c : Cell) : Prop := ∃ run, c.run = some run ∧ EventLog run c.events

theorem Cell.Logged.step {P : RuntimeEvent → Prop} : Preserved (Cell.Step P) Cell.Logged := by
  rintro c c' hstep ⟨run, hrun, hlog⟩
  cases hstep with
  | append hrun' hlive hseq =>
    obtain rfl := Option.mem_unique hrun hrun'
    exact ⟨_, rfl, hlog.append hlive hseq⟩
  | resolve | request | mark | ensure | sent | accept => exact ⟨run, hrun, hlog⟩

theorem Database.Step.logged {P : EventFilter} {db db' : Database} (h : db.Step P db') {runId : RunId}
    (hlog : (db.cell runId).Logged) : (db'.cell runId).Logged :=
  Cell.Logged.step.run (h runId) hlog

/-- Rows are only ever added to a log, and only rows of events that `P` allows. -/
theorem Database.Step.appends {P : EventFilter} {db db' : Database} (h : db.Step P db')
    (runId : RunId) : ∃ added, db'.listEvents runId = db.listEvents runId ++ added ∧
      ∀ row ∈ added, row.sequence = row.event.sequence ∧ P runId row.event := by
  refine Transition.run_relates (R := Cell.Step (P runId)) (P := fun c c' =>
    ∃ added, c'.events = c.events ++ added ∧
      ∀ row ∈ added, row.sequence = row.event.sequence ∧ P runId row.event)
    (fun c => ⟨[], by simp, by simp⟩) (fun {c c' c''} hold hstep => ?_) (h runId)
  obtain ⟨added, hadded, hrows⟩ := hold
  cases hstep with
  | @append run event now _ _ _ hevent =>
    refine ⟨added ++ [run.eventRow event now], ?_, fun row hrow => ?_⟩
    · rw [← List.append_assoc, ← hadded]
      rfl
    rcases List.mem_append.mp hrow with hrow | hrow
    · exact hrows row hrow
    · obtain rfl := List.mem_singleton.mp hrow
      exact ⟨rfl, hevent⟩
  | resolve | request | mark | ensure | sent | accept => exact ⟨added, hadded, hrows⟩

/-! ## Calls of the repository -/

/-- The public writing methods of `RunRepository`. -/
inductive RepositoryCall where
  | applyEvent (runId : RunId) (event : RuntimeEvent) (now : Time)
  | applyReply (runId : RunId) (sequence : Int) (content : String) (assessment : Option String)
      (now : Time)
  | applyReplyAndTerminal (runId : RunId) (replySequence : Int) (content : String)
      (assessment : Option String) (terminalSequence : Int) (error : Option RuntimeError)
      (session : Option RuntimeSession) (clarification : Option RuntimeTaskClarification)
      (now : Time)
  | requestCancellation (input : CancellationInput)
  | markCancellationIntentSent (runId : RunId) (messageId : MessageId) (sentAt : Time)
  | expireCancellationIntents (now : Time) (limit : Int)
  | expireQueued (roomId : RoomId) (now : Time)

def RepositoryCall.exec : RepositoryCall → Program Database Unit
  | .applyEvent runId event now => do
    let _ ← Program.transact (applyRuntimeEvent runId event now)
  | .applyReply runId sequence content assessment now => do
    let _ ← Program.transact (Run.applyReply runId sequence content assessment now)
  | .applyReplyAndTerminal runId replySequence content assessment terminalSequence error session
      clarification now => do
    let _ ← Program.transact (Run.applyReplyAndTerminal runId replySequence content assessment
      terminalSequence error session clarification now)
  | .requestCancellation input => do
    let _ ← Program.transact (Run.requestCancellation input)
  | .markCancellationIntentSent runId messageId sentAt => do
    let _ ← Program.transact (Run.markCancellationIntentSent runId messageId sentAt)
  | .expireCancellationIntents now limit => do
    let _ ← Run.expireCancellationIntents now limit
  | .expireQueued roomId now => do
    let _ ← Run.expireQueued roomId now

/-- The events a call delivers are among those `P` allows. -/
def RepositoryCall.Stores (P : EventFilter) : RepositoryCall → Prop
  | .applyEvent runId event _ => P runId event
  | .applyReply runId sequence content assessment _ => P runId (.reply sequence content assessment)
  | .applyReplyAndTerminal runId replySequence content assessment terminalSequence error session
      clarification _ =>
    P runId (.reply replySequence content assessment) ∧
      P runId (.status terminalSequence .completed error session clarification)
  | .requestCancellation _ | .markCancellationIntentSent .. | .expireCancellationIntents ..
  | .expireQueued .. => True

theorem RepositoryCall.stores_all (call : RepositoryCall) : call.Stores .all := by
  cases call <;> simp [Stores, EventFilter.all]

variable {call : RepositoryCall}

section

variable {P : EventFilter}

theorem expireCancellationIntents_emits (hP : P.AllowsEnd) (db : Database) (now : Time)
    (limit : Int) : Steps (Database.Step P) db (expireCancellationIntents now limit) := by
  refine .read_bind ?_
  refine .collect (fun _ => True) trivial fun row _ u _ _ => ?_
  exact .transact fun _ _ h => ⟨.single (expireCancellationIntent_step hP h), trivial⟩

theorem expireQueued_emits (hP : P.AllowsEnd) (db : Database) (roomId : RoomId) (now : Time) :
    Steps (Database.Step P) db (expireQueued roomId now) := by
  refine .read_bind ?_
  refine .collect (fun _ => True) trivial fun row _ u _ _ => ?_
  exact .transact fun _ _ h => ⟨.single (expireQueuedRun_step hP h), trivial⟩

/-- Every state a repository call can leave behind is reached by commits of the machine. -/
theorem RepositoryCall.exec_emits (hP : P.AllowsEnd)
    (hcall : call.Stores P) (db : Database) : Steps (Database.Step P) db call.exec := by
  cases call with
  | applyEvent runId event now =>
    exact .returning (.transact fun _ _ h => ⟨.single (applyRuntimeEvent_step hcall h), trivial⟩)
  | applyReply runId sequence content assessment now =>
    exact .returning (.transact fun _ _ h => ⟨.single (applyReply_step hcall h), trivial⟩)
  | applyReplyAndTerminal =>
    refine .returning (.transact (Q := fun _ _ => True) fun _ _ h => ?_)
    exact ⟨.single (applyReplyAndTerminal_step hcall.1 hcall.2 h), trivial⟩
  | requestCancellation input =>
    exact .returning (.transact fun _ _ h => ⟨.single (requestCancellation_step hP h), trivial⟩)
  | markCancellationIntentSent runId messageId sentAt =>
    exact .returning (.transact fun _ _ h => ⟨.single (markCancellationIntentSent_step h), trivial⟩)
  | expireCancellationIntents now limit =>
    exact .returning (expireCancellationIntents_emits hP db now limit)
  | expireQueued roomId now =>
    exact .returning (expireQueued_emits hP db roomId now)

end

/-- `db'` is left behind by some sequence of repository calls, each finished, failed or stopped
at one of its commits. -/
def RepositoryRun : Database → Database → Prop :=
  ReflTransGen fun db db' => ∃ call : RepositoryCall, db' ∈ call.exec.visits db

theorem RepositoryRun.steps {db db' : Database} (h : RepositoryRun db db') :
    ReflTransGen (Database.Step .all) db db' := by
  induction h with
  | refl => exact .refl
  | tail _ hcall ih =>
    obtain ⟨call, hvisit⟩ := hcall
    exact ih.trans ((RepositoryCall.exec_emits EventFilter.all_allowsEnd call.stores_all _).visits hvisit)

/-! ## Redelivery -/

/-- The Run and the sequence of the first event a call delivers. -/
def RepositoryCall.delivers : RepositoryCall → Option (RunId × Int)
  | .applyEvent runId event _ => some (runId, event.sequence)
  | .applyReply runId sequence .. => some (runId, sequence)
  | .applyReplyAndTerminal runId replySequence .. => some (runId, replySequence)
  | .requestCancellation _ | .markCancellationIntentSent .. | .expireCancellationIntents ..
  | .expireQueued .. => none

variable {db db' d : Database} {runId : RunId} {run : RunRecord} {event : RuntimeEvent} {now : Time}

theorem applyRuntimeEvent_old (hrun : db.getRun runId = some run)
    (hold : event.sequence ≤ run.lastSequence) :
    applyRuntimeEvent runId event now db = .ok (⟨false, run⟩, db) := by
  simp [applyRuntimeEvent, hrun, hold]

theorem applyReply_old {sequence : Int} {content : String} {assessment : Option String}
    (hrun : db.getRun runId = some run) (hold : sequence ≤ run.lastSequence) :
    applyReply runId sequence content assessment now db = .ok (⟨false, run⟩, db) := by
  have hevent : (RuntimeEvent.reply sequence content assessment).sequence ≤ run.lastSequence := hold
  simp [applyReply, applyRuntimeEvent_old hrun hevent, bind, Except.bind, pure, Except.pure]

theorem transact_visits {α : Type} {t : Transaction Database α}
    (h : ∀ a s, t db = .ok (a, s) → s = db)
    (hd : d ∈ Program.visits (do let _ ← Program.transact t) db) : d = db := by
  have hemits : Steps (fun s s' => s = db → s' = db) db (do let _ ← Program.transact t) :=
    .returning (.transact fun a s hs => ⟨.single fun _ => h a s hs, trivial⟩)
  have hkeep : Preserved (fun s s' => s = db → s' = db) fun s => s = db := fun _ _ hstep => hstep
  exact hkeep.run (hemits.visits hd) rfl

/-- A delivery the Run has already seen leaves every table as it was. -/
theorem RepositoryCall.redelivery {n : Int} (hcall : call.delivers = some (runId, n))
    (hrun : db.getRun runId = some run) (hold : n ≤ run.lastSequence) (hd : d ∈ call.exec.visits db)
    : d = db := by
  cases call with
  | applyEvent r event now =>
    cases hcall
    refine transact_visits (fun a s hs => ?_) hd
    rw [applyRuntimeEvent_old hrun hold] at hs
    cases hs
    rfl
  | applyReply r sequence content assessment now =>
    cases hcall
    refine transact_visits (fun a s hs => ?_) hd
    rw [applyReply_old hrun hold] at hs
    cases hs
    rfl
  | applyReplyAndTerminal r replySequence content assessment terminalSequence =>
    cases hcall
    refine transact_visits (fun a s hs => ?_) hd
    unfold Run.applyReplyAndTerminal at hs
    split at hs
    · cases hs
    · rw [applyReply_old hrun hold] at hs
      cases hs
      rfl
  | requestCancellation | markCancellationIntentSent | expireCancellationIntents | expireQueued =>
    cases hcall

/-- **The event log of a Run.** From a queued Run without events, whatever calls are made in
whatever order, its log is numbered 1..lastSequence, its state is the last stored status, at most
one event ends it and nothing is stored after that event, `terminalAt` is set exactly when the
state is terminal, and an event delivered again changes nothing. -/
theorem run_event_log {db₀ : Database} {run₀ : RunRecord} (hrun : db₀.getRun runId = some run₀)
    (hstate : run₀.state = .queued) (hlast : run₀.lastSequence = 0)
    (hterminal : run₀.terminalAt = none) (hevents : db₀.listEvents runId = [])
    (hreach : RepositoryRun db₀ db) :
    ∃ run, db.getRun runId = some run ∧ (db.listEvents runId).map RunEventRecord.sequence =
        (List.range' 1 run.lastSequence).map Nat.cast ∧
      run.state = lastStatus (db.listEvents runId) ∧
      (db.listEvents runId).countP (fun row => row.EndsRun) ≤ 1 ∧
      (∀ before row after, db.listEvents runId = before ++ row :: after → row.EndsRun →
        after = []) ∧ run.terminalAt.isSome = run.state.isTerminal ∧
      ∀ (call : RepositoryCall) (n : Int), call.delivers = some (runId, n) →
        n ≤ run.lastSequence → ∀ d ∈ call.exec.visits db, d = db := by
  have hfresh : (db₀.cell runId).Logged := by
    refine ⟨run₀, hrun, ?_⟩
    show EventLog run₀ (db₀.listEvents runId)
    rw [hevents]
    exact .queued hstate hlast hterminal
  have hkeep : Preserved (Database.Step .all) fun db => (db.cell runId).Logged :=
    fun _ _ hstep hlog => hstep.logged hlog
  obtain ⟨run, hget, hlog⟩ := hkeep.run hreach.steps hfresh
  refine ⟨run, hget, ?_, hlog.state, hlog.closed.countP_le_one, ?_, hlog.terminalAt, ?_⟩
  · rw [← hlog.length]
    exact hlog.consecutive
  · intro before row after hsplit hends
    exact hlog.closed.nothing_after hsplit hends
  · intro call n hcall hold d hd
    exact RepositoryCall.redelivery hcall hget hold hd

/-- A Run of Room 1 that waits for its Agent. -/
def queuedRun (runId : RunId) : RunRecord where
  runId
  traceId := 0
  roomId := 1
  taskId := 1
  triggerMessageId := 1
  requesterMemberId := 1
  targetAgentId := 1
  state := .queued
  lastSequence := 0
  deadlineAt := 100
  createdAt := 0
  updatedAt := 0
  terminalAt := none
  orchestrationKey := none

/-- The tables right after `runs` were created. -/
def queuedDatabase (runs : List RunRecord) : Database where
  runs
  runEvents := []
  cancellationIntents := []
  deliveries := []
  rooms := [⟨1, 1⟩]
  messages := []
  clarifications := []
  agentTasks := []
  replyRoutingIntents := []
  replyProjections := []
  nextId := 1

/-- One accepted and then completed Run. -/
theorem run_event_log_completed :
    let accepted := RepositoryCall.applyEvent 7 (.plainStatus 1 .delivered) 5
    let completed := RepositoryCall.applyEvent 7 (.plainStatus 2 .completed) 6
    let db := (completed.exec (accepted.exec (queuedDatabase [queuedRun 7])).state).state
    ∃ run, db.getRun 7 = some run ∧
      (db.listEvents 7).map RunEventRecord.sequence =
        (List.range' 1 run.lastSequence).map Nat.cast ∧
      run.state = lastStatus (db.listEvents 7) ∧ run.terminalAt.isSome = run.state.isTerminal := by
  intro accepted completed db
  have hreach : RepositoryRun (queuedDatabase [queuedRun 7]) db :=
    .tail (.single ⟨accepted, Program.state_mem_visits⟩) ⟨completed, Program.state_mem_visits⟩
  obtain ⟨run, hget, hseq, hstate, -, -, hterm, -⟩ :=
    run_event_log (by rfl : (queuedDatabase [queuedRun 7]).getRun 7 = some (queuedRun 7))
      rfl rfl rfl rfl hreach
  exact ⟨run, hget, hseq, hstate, hterm⟩

end ConveneWire.Run
