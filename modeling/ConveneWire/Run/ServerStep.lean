import ConveneWire.Run.CancellationService
import ConveneWire.Run.DeliveryService

/-! # Commits and socket writes of the server

`Server.Step` lists everything one commit or one socket write can be. Every
service call, stopped anywhere, is a sequence of such steps. -/

namespace ConveneWire.Run

open Relation (ReflTransGen)
open Transactional

/-- The Run has a cancellation intent that waits for the Bridge. -/
def Database.PendingIntent (db : Database) (runId : RunId) : Prop :=
  ∃ intent, db.getCancellationIntent runId = some intent ∧ intent.state = .pending

/-- What holds when `dispatch` writes a start request: the row it sends, no pending intent, and
the entry it belongs to. Only a queued Run can have got its row since that entry. -/
structure Server.Requestable (s : Server) (payload : DeliveryPayload) (run : RunRecord)
    (delivery : DeliveryRecord) (entry : DispatchEntry) : Prop where
  run_eq : s.database.getRun entry.runId = some run
  delivery_eq : s.database.getDelivery entry.runId = some delivery
  payload_eq : delivery.payload = payload
  pending : delivery.state = .pending
  no_intent : ¬ s.database.PendingIntent entry.runId
  entered : entry ∈ s.dispatches
  current : entry.database = s.database ∨ run.state = .queued
  disclosure : entry.env.canDeliverDisclosureDiscussion entry.runId = true
  desktop : entry.env.desktopRunAllowed entry.runId = true
  trusted : DeliveryService.trustChanged delivery.payload
    ((entry.env.getAgent run.targetAgentId).bind AgentRecord.runtimePolicy) = false
  connected : entry.env.send delivery.deviceId = .sent

/-- Everything one commit or one socket write of the server can be. -/
inductive Server.Step (P : EventFilter) : Server → Server → Prop
  | commit {s : Server} {database : Database} (h : s.database.Step P database) :
      Step P s { s with database }
  | enter {s : Server} {runId : RunId} {env : Env} :
      Step P s { s with dispatches := s.dispatches ++ [⟨runId, env, s.database⟩] }
  | cancelSent {s : Server} {deviceId : DeviceId} {messageId : MessageId} {runId : RunId}
      {traceId : TraceId} {agentId : AgentId} {reason : String} :
      Step P s { s with outbox := s.outbox ++
        [⟨deviceId, .runCancelRequested messageId runId traceId agentId reason, s.database⟩] }
  | requested {s : Server} {payload : DeliveryPayload} {run : RunRecord}
      {delivery : DeliveryRecord} {entry : DispatchEntry}
      (h : s.Requestable payload run delivery entry) :
      Step P s { s with outbox := s.outbox ++
        [⟨delivery.deviceId, .runRequested payload, s.database⟩] }

variable {P : EventFilter} {s t : Server} {options : CancellationOptions}

namespace Server

variable {α : Type}

theorem withDatabase_emits {m : Program Database α} {Q : α → Database → Prop}
    (h : Emits (Database.Step P) s.database m Q) : Emits (Step P) s (withDatabase m) fun a t =>
      ∃ database, t = { s with database } ∧ Q a database :=
  .zoom rfl (fun _ _ hstep => .commit hstep) h

theorem transact_emits {t : Transaction Database α}
    (h : ∀ a db, t s.database = .ok (a, db) → s.database.Step P db) :
    Emits (Step P) s (transact t) fun a u =>
      ∃ database, u = { s with database } ∧ t s.database = .ok (a, database) :=
  withDatabase_emits (.transact fun a db hdb => ⟨.single (h a db hdb), hdb⟩)

theorem written_cancel_emits (s : Server) {deviceId : DeviceId} {messageId : MessageId}
    {runId : RunId} {traceId : TraceId} {agentId : AgentId} {reason : String} :
    Steps (Step P) s (written deviceId (.runCancelRequested messageId runId traceId agentId reason)) := by
  refine .transact fun _ _ h => ?_
  cases h
  exact ⟨.single .cancelSent, trivial⟩

theorem runCalls_emits (hP : P.AllowsEnd) (s : Server) {calls : List RepositoryCall}
    (hcalls : ∀ call ∈ calls, call.Stores P) : Steps (Step P) s (runCalls calls) := by
  refine .forEach (fun _ => True) trivial fun call hcall t _ _ => ?_
  exact (withDatabase_emits (RepositoryCall.exec_emits hP (hcalls call hcall) t.database)).mono
    fun _ _ _ _ => trivial

theorem ofExcept_emits (s : Server) (x : Except String α) :
    Emits (Step P) s (ofExcept x) fun _ t => t = s := by
  cases x with
  | ok a => exact .pure rfl
  | error e => exact .fail

end Server

open Server (Step transact_emits withDatabase_emits)

/-! ## The cancellation service -/

namespace CancellationService

variable {options : CancellationOptions} {env : Env} {s : Server}

theorem dispatch_emits (s : Server) (runId : RunId) (sentAt : Time) :
    Steps (Step P) s (dispatch env runId sentAt) := by
  refine .read_bind (.read_bind ?_)
  split
  · split
    · exact .pure trivial
    split
    · exact .pure trivial
    · exact .pure trivial
    refine .andThen (Server.written_cancel_emits s) fun _ t _ => ?_
    exact .returning (transact_emits fun _ _ h => markCancellationIntentSent_step h)
  · exact .pure trivial

theorem dispatchDue_emits (s : Server) (now : Time) (deviceId : Option DeviceId) (force : Bool) :
    Steps (Step P) s (dispatchDue options env now deviceId force) := by
  refine .read_bind ?_
  refine .bind (.collect (fun _ => True) trivial fun intent _ t _ _ => ?_) fun _ _ _ _ => ?_
  · exact .returning (dispatch_emits t intent.runId now)
  · exact .pure trivial

/-- The calls a delegated cancellation makes deliver only events that `P` allows. -/
def DelegateStores (P : EventFilter)
    (handler : Option (RunId → MemberId → String → List RepositoryCall)) : Prop :=
  ∀ calls ∈ handler, ∀ runId memberId reason, ∀ call ∈ calls runId memberId reason, call.Stores P

theorem delegate_emits (hP : P.AllowsEnd) (s : Server)
    {handler : Option (RunId → MemberId → String → List RepositoryCall)}
    (hhandler : DelegateStores P handler) (unavailable : String)
    (run : RunRecord) (memberId : MemberId) (reason : String) :
    Steps (Step P) s (delegate handler unavailable run memberId reason) := by
  cases handler with
  | none => exact .fail
  | some handler =>
    refine .bind (Server.runCalls_emits hP s (hhandler handler rfl _ _ _)) fun _ t _ _ => ?_
    exact .read_bind (.pure trivial)

theorem dispatchPending_emits (s : Server) (intent : Option RunCancellationIntent) (now : Time) :
    Steps (Step P) s (dispatchPending env intent now) := by
  unfold dispatchPending
  split
  · split
    · exact .returning (dispatch_emits s _ _)
    · exact .pure trivial
  · exact .pure trivial

theorem cancelLocal_emits (hP : P.AllowsEnd) (s : Server) (run : RunRecord) (memberId : MemberId)
    (messageId : MessageId) (reason : String) :
    Steps (Step P) s (cancelLocal options env run memberId messageId reason) := by
  refine .read_bind (.read_bind ?_)
  split
  · exact .fail
  · refine .bind (transact_emits fun _ _ h => requestCancellation_step hP h)
      fun requested t _ _ => ?_
    exact .andThen (dispatchPending_emits t _ _) fun _ u _ => .read_bind (.pure trivial)

theorem cancel_emits (hP : P.AllowsEnd) (hhosted : DelegateStores P env.hostedCancellation)
    (hpeer : DelegateStores P env.peerCancellation) (s : Server) (runId : RunId)
    (messageId : MessageId) (reason : String) :
    Steps (Step P) s (cancel options env runId messageId reason) := by
  refine .read_bind ?_
  split
  · exact .fail
  refine .bind (Server.ofExcept_emits s _) fun member t _ _ => ?_
  split
  · exact .fail
  split
  · exact .pure trivial
  split
  · exact delegate_emits hP t hpeer _ _ _ _
  · split
    · exact delegate_emits hP t hhosted _ _ _ _
    · exact .fail
  · exact cancelLocal_emits hP t _ _ _ _

theorem sweep_emits (hP : P.AllowsEnd) (s : Server) (force : Bool) :
    Steps (Step P) s (sweep options env force) := by
  refine .bind (withDatabase_emits (expireCancellationIntents_emits hP _ _ _))
    fun expired t _ _ => ?_
  exact .returning (dispatchDue_emits t _ _ _)

theorem resendForDevice_emits (hP : P.AllowsEnd) (s : Server) (deviceId : DeviceId) :
    Steps (Step P) s (resendForDevice options env deviceId) := by
  refine .bind (withDatabase_emits (expireCancellationIntents_emits hP _ _ _)) fun _ t _ _ => ?_
  exact dispatchDue_emits t _ _ _

end CancellationService

/-! ## The delivery service -/

namespace DeliveryService

variable {env : Env} {runId : RunId} {db db' : Database} {now : Time}
  {delivery : Option DeliveryRecord} {row : DeliveryRecord} {u : Unit}

/-- What `ensure` can do: find no row to send, find the existing row, or insert one for a queued
Run. -/
theorem ensure_cases (h : ensure env runId db = .ok (delivery, db')) :
    (db' = db ∧ (delivery = none ∨ delivery = db.getDelivery runId)) ∨
    ∃ run row, db.getRun runId = some run ∧ run.state = .queued ∧ db.getDelivery runId = none ∧
      row.runId = runId ∧ row.state = .pending ∧ row.payload.runId = run.runId ∧
      db' = { db with deliveries := db.deliveries ++ [row], nextId := db.nextId + 2 } ∧
      delivery = db'.getDelivery runId := by
  unfold ensure at h
  split at h
  · rename_i existing hexisting
    cases h
    exact .inl ⟨rfl, .inr hexisting.symm⟩
  rename_i hnone
  split at h
  · cases h
    exact .inl ⟨rfl, .inl rfl⟩
  rename_i run hrun
  have hid : run.runId = runId := Table.lookup_key hrun
  split at h
  · cases h
    exact .inl ⟨rfl, .inl rfl⟩
  rename_i hqueued
  split at h
  · split at h
    · split at h
      · cases h
      rename_i manifest _
      cases h
      exact .inr ⟨run, deliveryRow env run _ _ manifest db.nextId, hrun,
        not_not.mp hqueued, hnone, hid, rfl, rfl, rfl, rfl⟩
    · cases h
      exact .inl ⟨rfl, .inl rfl⟩
  · cases h
    exact .inl ⟨rfl, .inl rfl⟩

theorem insertDelivery_cell {next : Nat} (hid : row.runId = runId)
    (hnone : db.getDelivery runId = none) :
    ({ db with deliveries := db.deliveries ++ [row], nextId := next } : Database).cell runId =
      { db.cell runId with delivery := some row } := by
  have hrow : Table.lookup DeliveryRecord.runId runId (db.deliveries ++ [row]) = some row :=
    Table.lookup_append_self hid hnone
  exact congrArg (fun delivery => { db.cell runId with delivery }) hrow

theorem insertDelivery_cell_ne {next other : Nat} (hne : other ≠ row.runId) :
    ({ db with deliveries := db.deliveries ++ [row], nextId := next } : Database).cell other =
      db.cell other := by
  have hrow : Table.lookup DeliveryRecord.runId other (db.deliveries ++ [row]) = _ :=
    Table.lookup_append_ne hne.symm
  exact congrArg (fun delivery => { db.cell other with delivery }) hrow

theorem ensure_step (h : ensure env runId db = .ok (delivery, db')) : db.Step P db' := by
  obtain ⟨rfl, -⟩ | ⟨run, row, hrun, hqueued, hnone, hid, hpending, haddr, rfl, -⟩ := ensure_cases h
  · exact .refl _
  · refine .of_cell runId ?_ fun other hne => insertDelivery_cell_ne (hid ▸ hne)
    rw [insertDelivery_cell hid hnone]
    exact .single (.ensure hrun hqueued hnone hpending haddr)

theorem recordSend_step {attemptId : Nat} (h : recordSend attemptId now db = .ok (u, db')) :
    db.Step P db' := by
  cases h
  intro r
  have hrow : Table.lookup DeliveryRecord.runId r (Table.update
      (fun row => row.deliveryAttemptId = attemptId ∧ row.state = .pending)
      (DeliveryRecord.recordSend now) db.deliveries) = _ := Table.lookup_update fun _ => rfl
  refine .single ?_
  simp only [Database.cell, Database.getDelivery, hrow]
  exact .sent

theorem markAccepted_step (h : markAccepted runId now db = .ok (u, db')) : db.Step P db' := by
  cases h
  intro r
  have hrow : Table.lookup DeliveryRecord.runId r (Table.update
      (fun row => row.runId = runId ∧ row.state = .pending)
      (DeliveryRecord.accept now) db.deliveries) = _ := Table.lookup_update fun _ => rfl
  refine .single ?_
  simp only [Database.cell, Database.getDelivery, hrow]
  exact .accept

section

variable (hP : P.AllowsEnd)
include hP

theorem refuse_emits (s : Server) (run : Option RunRecord) (error : RuntimeError) (now : Time) :
    Steps (Step P) s (refuse run error now) := by
  unfold refuse
  split
  · split
    · exact .returning (transact_emits fun _ _ h => applyRuntimeEvent_step (hP _ _ rfl) h)
    · exact .pure trivial
  · exact .pure trivial

/-- The send of `dispatch`: `entry` found the gates open and the tables as they are now. -/
theorem sendDelivery_emits {run : RunRecord} (hrun : s.database.getRun runId = some run)
    (hintent : ¬ s.database.PendingIntent runId) (hentry : ⟨runId, env, s.database⟩ ∈ s.dispatches)
    (hdisclosure : env.canDeliverDisclosureDiscussion runId = true)
    (hdesktop : env.desktopRunAllowed runId = true) :
    Steps (Step P) s (sendDelivery env runId (some run)) := by
  refine .bind (transact_emits fun _ _ h => ensure_step h) fun delivery? t _ ht => ?_
  obtain ⟨database, rfl, hensure⟩ := ht
  -- `ensure` leaves the Run and its intents alone, and only a queued Run gets a new row.
  have hcell : (database.cell runId).run = some run ∧
      (database.cell runId).intents = (s.database.cell runId).intents ∧
      (s.database = database ∨ run.state = .queued) := by
    obtain ⟨rfl, -⟩ | ⟨run', row, hrun', hqueued, hnone, hid, -, -, rfl, -⟩ := ensure_cases hensure
    · exact ⟨hrun, rfl, .inl rfl⟩
    · obtain rfl := Option.mem_unique hrun hrun'
      rw [insertDelivery_cell hid hnone]
      exact ⟨hrun, rfl, .inr hqueued⟩
  obtain ⟨hrun', hintents, hcurrent⟩ := hcell
  have hintent' : ¬ database.PendingIntent runId := by
    rintro ⟨intent, hget, hpending⟩
    refine hintent ⟨intent, ?_, hpending⟩
    rw [Database.getCancellationIntent, Table.lookup_eq_head_select] at hget ⊢
    rw [← hget]
    exact congrArg List.head? hintents.symm
  split
  · exact .pure trivial
  rename_i delivery
  have hdelivery : database.getDelivery runId = some delivery := by
    obtain ⟨rfl, hd⟩ | ⟨_, _, _, _, _, _, _, _, _, hd⟩ := ensure_cases hensure
    · rcases hd with hd | hd
      · cases hd
      · exact hd.symm
    · exact hd.symm
  split
  · exact .pure trivial
  rename_i hstate
  dsimp only
  split
  · exact refuse_emits hP _ _ _ _
  rename_i htrust
  split
  · exact .fail
  · exact .pure trivial
  rename_i hsend
  have hpending : delivery.state = .pending := by
    cases hs : delivery.state with
    | pending => rfl
    | accepted => exact absurd hs hstate
  have hrequest : Server.Requestable { s with database } delivery.payload run delivery
      ⟨runId, env, s.database⟩ :=
    { run_eq := hrun'
      delivery_eq := hdelivery
      payload_eq := rfl
      pending := hpending
      no_intent := hintent'
      entered := hentry
      current := hcurrent
      disclosure := hdisclosure
      desktop := hdesktop
      trusted := by simpa using htrust
      connected := hsend }
  refine .andThen (.transact fun _ _ h => ?_) fun _ u _ => ?_
  · cases h
    exact ⟨.single (.requested hrequest), trivial⟩
  · refine .bind (transact_emits fun _ _ h => recordSend_step h) fun _ _ _ _ => ?_
    exact .read trivial

theorem dispatchBody_emits (hentry : ⟨runId, env, s.database⟩ ∈ s.dispatches) :
    Steps (Step P) s (dispatchBody env runId) := by
  refine .read_bind ?_
  split
  · exact .read trivial
  rename_i hintent
  have hintent' : ¬ s.database.PendingIntent runId := by
    rintro ⟨intent, hget, hpending⟩
    simp [hget, hpending] at hintent
  refine .read_bind ?_
  split
  · exact refuse_emits hP _ _ _ _
  rename_i hdisclosure
  split
  · exact .returning (withDatabase_emits (expireQueued_emits hP _ _ _))
  split
  · exact refuse_emits hP _ _ _ _
  rename_i hdesktop
  rw [not_or] at hdesktop
  cases hrun : s.database.getRun runId with
  | none => simp [hrun] at hdesktop
  | some run =>
    have hopen : env.canDeliverDisclosureDiscussion runId = true := by
      simpa [hrun] using hdisclosure
    have hallowed : env.desktopRunAllowed runId = true := by simpa using hdesktop.2
    show Emits (Step P) s (sendDelivery env runId (s.database.getRun runId)) _
    rw [hrun]
    exact sendDelivery_emits hP hrun hintent' hentry hopen hallowed

theorem dispatch_emits (s : Server) (runId : RunId) : Steps (Step P) s (dispatch env runId) := by
  refine .bind (.transact (Q := fun _ t => ⟨runId, env, t.database⟩ ∈ t.dispatches)
    fun _ _ h => ?_) fun _ t _ ht => dispatchBody_emits hP ht
  cases h
  exact ⟨.single .enter, by simp⟩

theorem dispatchQueuedForDevice_emits (s : Server) (later : RunId → Env) (deviceId : DeviceId) :
    Steps (Step P) s (dispatchQueuedForDevice env later deviceId) := by
  refine .read_bind (.forEach (fun _ => True) trivial fun runId _ t _ _ => ?_)
  exact .returning (dispatch_emits hP t runId)

end

theorem accept_emits (s : Server) (principal : DevicePrincipal) (runId : RunId) (traceId : TraceId)
    (agentId : AgentId) (sequence : Int) (now : Time) (materializations : Materializations)
    (failure : MaterializationError) (hP : P runId (.plainStatus 1 .delivered)) :
    Steps (Step P) s (accept env principal runId traceId agentId sequence now materializations
      failure) := by
  unfold accept
  split
  · exact .fail
  refine .read_bind (.read_bind ?_)
  split
  · split
    · exact .fail
    refine .bind (Server.ofExcept_emits s _) fun _ _ _ _ => ?_
    refine .bind (transact_emits fun _ _ h => markAccepted_step h) fun _ _ _ _ => ?_
    exact .returning (transact_emits fun _ _ h => applyRuntimeEvent_step hP h)
  · exact .fail

end DeliveryService

/-! ## Calls -/

/-- The calls that reach Runs, their intents and their deliveries. -/
inductive ServerCall where
  | repository (call : RepositoryCall)
  | cancel (env : Env) (runId : RunId) (messageId : MessageId) (reason : String)
  | sweep (env : Env) (force : Bool)
  | resendForDevice (env : Env) (deviceId : DeviceId)
  | dispatch (env : Env) (runId : RunId)
  | dispatchQueuedForDevice (env : Env) (later : RunId → Env) (deviceId : DeviceId)
  | accept (env : Env) (principal : DevicePrincipal) (runId : RunId) (traceId : TraceId)
      (agentId : AgentId) (sequence : Int) (now : Time) (materializations : Materializations)
      (failure : MaterializationError)

def ServerCall.exec (options : CancellationOptions) : ServerCall → Program Server Unit
  | .repository call => Server.withDatabase call.exec
  | .cancel env runId messageId reason => do
    let _ ← CancellationService.cancel options env runId messageId reason
  | .sweep env force => do
    let _ ← CancellationService.sweep options env force
  | .resendForDevice env deviceId => do
    let _ ← CancellationService.resendForDevice options env deviceId
  | .dispatch env runId => do
    let _ ← DeliveryService.dispatch env runId
  | .dispatchQueuedForDevice env later deviceId =>
    DeliveryService.dispatchQueuedForDevice env later deviceId
  | .accept env principal runId traceId agentId sequence now materializations failure => do
    let _ ← DeliveryService.accept env principal runId traceId agentId sequence now
      materializations failure

/-- The events a call delivers are among those `P` allows. -/
def ServerCall.Stores (P : EventFilter) : ServerCall → Prop
  | .repository call => call.Stores P
  | .cancel env .. => CancellationService.DelegateStores P env.hostedCancellation ∧
      CancellationService.DelegateStores P env.peerCancellation
  | .accept _ _ runId .. => P runId (.plainStatus 1 .delivered)
  | .sweep .. | .resendForDevice .. | .dispatch .. | .dispatchQueuedForDevice .. => True

theorem ServerCall.stores_all (call : ServerCall) : call.Stores .all := by
  cases call with
  | repository call => exact call.stores_all
  | cancel =>
    exact ⟨fun _ _ _ _ _ call _ => call.stores_all, fun _ _ _ _ _ call _ => call.stores_all⟩
  | accept => exact trivial
  | sweep | resendForDevice | dispatch | dispatchQueuedForDevice => exact trivial

theorem ServerCall.exec_emits (hP : P.AllowsEnd) (options : CancellationOptions) {call : ServerCall}
    (hcall : call.Stores P) (s : Server) : Steps (Step P) s (call.exec options) := by
  cases call with
  | repository call =>
    exact (withDatabase_emits (RepositoryCall.exec_emits hP hcall _)).mono fun _ _ _ _ => trivial
  | cancel env runId messageId reason =>
    exact .returning (CancellationService.cancel_emits hP hcall.1 hcall.2 s runId messageId reason)
  | sweep env force =>
    exact .returning (CancellationService.sweep_emits hP s force)
  | resendForDevice env deviceId =>
    exact .returning (CancellationService.resendForDevice_emits hP s deviceId)
  | dispatch env runId =>
    exact .returning (DeliveryService.dispatch_emits hP s runId)
  | dispatchQueuedForDevice env later deviceId =>
    exact DeliveryService.dispatchQueuedForDevice_emits hP s later deviceId
  | accept env principal runId traceId agentId sequence now materializations failure =>
    exact .returning (DeliveryService.accept_emits s principal runId traceId agentId sequence now
      materializations failure hcall)

/-- `t` is left behind by some sequence of calls from `s`, each finished, failed or stopped at one
of its commits. -/
def ServerRun (options : CancellationOptions) : Server → Server → Prop :=
  ReflTransGen fun s t => ∃ call : ServerCall, t ∈ (call.exec options).visits s

theorem ServerRun.steps (h : ServerRun options s t) : ReflTransGen (Step .all) s t := by
  induction h with
  | refl => exact .refl
  | tail _ hcall ih =>
    obtain ⟨call, hvisit⟩ := hcall
    have hemits := ServerCall.exec_emits EventFilter.all_allowsEnd options call.stores_all
    exact ih.trans ((hemits _).visits hvisit)

/-- The tables along steps of the server move by commits only. -/
theorem Server.Step.database (h : ReflTransGen (Step P) s t) : s.database.Step P t.database := by
  refine Transition.run_relates (P := fun s t => s.database.Step P t.database)
    (fun s => .refl s.database) (fun hst htu => ?_) h
  cases htu with
  | commit hdb => exact hst.trans hdb
  | enter | cancelSent | requested => exact hst

theorem ServerRun.database (h : ServerRun options s t) : s.database.Step .all t.database :=
  Step.database h.steps

/-- An environment with one interruptible managed Agent on Device 1, at a fixed time. -/
def managedEnv (now : Time) (send : SendResult) : Env where
  clock := fun _ => now
  requireRoomMember := fun _ => .ok ⟨1, .member⟩
  getAgent := fun agentId => if agentId = 1 then
    some ⟨1, some 1, 1, .managed, true, false, none, none⟩ else none
  canDeliverDisclosureDiscussion := fun _ => true
  desktopRunAllowed := fun _ => true
  getContextManifest := fun _ => some ⟨none, none, false⟩
  hasDesktopAdoption := fun _ => false
  plannedArtifacts := fun _ => []
  send := fun _ => send
  hostedCancellation := none
  peerCancellation := none

/-- A server whose Room holds the trigger message of the given Runs. -/
def queuedServer (runs : List RunRecord) : Server where
  database := { queuedDatabase runs with
    messages := [⟨1, 0, 1, 1, 1, .member, 1, "@agent", none, 0⟩], nextId := 2 }
  outbox := []
  dispatches := []

end ConveneWire.Run
