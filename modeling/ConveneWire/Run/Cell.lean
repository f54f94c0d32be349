import ConveneWire.Lib.OrdinalLog
import ConveneWire.Run.Repository

/-! # One Run across the tables

`Database.cell` collects the rows of a single Run. `Cell.Step` lists everything
that can happen to them; each repository operation is a sequence of such steps
for every Run at once (`Database.Step`), whichever Run it was called for. -/

namespace ConveneWire.Run

open Relation (ReflTransGen)
open Transactional
open Database
open RunCancellationIntent (resolve recordSend)
open Table (select update lookup_key)

structure Cell where
  run : Option RunRecord
  events : List RunEventRecord
  intents : List RunCancellationIntent
  delivery : Option DeliveryRecord

def Database.cell (db : Database) (runId : RunId) : Cell where
  run := db.getRun runId
  events := db.listEvents runId
  intents := select RunCancellationIntent.runId runId db.cancellationIntents
  delivery := db.getDelivery runId

namespace Cell

/-- The intent rows after `resolveCancellationIntent`. -/
def resolved (intents : List RunCancellationIntent) (status : RunState) (now : Time) :
    List RunCancellationIntent :=
  update (fun row => row.state = .pending)
    (resolve status now) intents

/-- All rows of the Run after an event was stored. -/
def append (c : Cell) (run : RunRecord) (event : RuntimeEvent) (now : Time) : Cell where
  run := some (run.advance (event.status?.getD run.state) event.sequence now)
  events := c.events ++ [run.eventRow event now]
  intents :=
    let nextState := event.status?.getD run.state
    if nextState.isTerminal then resolved c.intents nextState now else c.intents
  delivery := c.delivery

/-- The transitions of one Run, storing only events that `P` allows. -/
inductive Step (P : RuntimeEvent → Prop) : Cell → Cell → Prop
  /-- An event with the next sequence reaches a Run that has not ended. -/
  | append {c : Cell} {run : RunRecord} {event : RuntimeEvent} {now : Time}
      (hrun : c.run = some run) (hlive : run.state.isTerminal = false)
      (hseq : event.sequence = run.lastSequence + 1) (hevent : P event) :
      Step P c (c.append run event now)
  /-- A leftover pending intent of an ended Run is resolved with its state. -/
  | resolve {c : Cell} {run : RunRecord} {now : Time}
      (hrun : c.run = some run) (hended : run.state.isTerminal = true) :
      Step P c { c with intents := resolved c.intents run.state now }
  /-- The first cancellation request that needs the Bridge. -/
  | request {c : Cell} {run : RunRecord} {intent : RunCancellationIntent}
      (hrun : c.run = some run) (hlive : run.state.isTerminal = false)
      (hnone : c.intents = []) (hpending : intent.state = .pending)
      (hopen : intent.terminalStatus = none) : Step P c { c with intents := [intent] }
  /-- Send bookkeeping of a pending intent. -/
  | mark {c : Cell} {p : RunCancellationIntent → Prop} [DecidablePred p] {sentAt : Time}
      (hpending : ∀ row, p row → row.state = .pending) :
      Step P c { c with
        intents := update p (recordSend sentAt) c.intents }
  /-- A queued Run gets its delivery row. -/
  | ensure {c : Cell} {run : RunRecord} {delivery : DeliveryRecord}
      (hrun : c.run = some run) (hqueued : run.state = .queued) (hnone : c.delivery = none)
      (hpending : delivery.state = .pending) (haddr : delivery.payload.runId = run.runId) :
      Step P c { c with delivery := some delivery }
  /-- Send bookkeeping of the delivery row. -/
  | sent {c : Cell} {p : DeliveryRecord → Prop} [DecidablePred p] {sentAt : Time} :
      Step P c { c with
        delivery := c.delivery.map fun row => if p row then row.recordSend sentAt else row }
  /-- The Bridge accepted the delivery. -/
  | accept {c : Cell} {p : DeliveryRecord → Prop} [DecidablePred p] {now : Time} :
      Step P c { c with
        delivery := c.delivery.map fun row => if p row then row.accept now else row }

end Cell

/-- Which events may be stored for which Run. -/
abbrev EventFilter := RunId → RuntimeEvent → Prop

def EventFilter.all : EventFilter := fun _ _ => True

/-- A status that ends a Run may be stored for any Run. -/
def EventFilter.AllowsEnd (P : EventFilter) : Prop :=
  ∀ runId event, event.isTerminal = true → P runId event

theorem EventFilter.all_allowsEnd : EventFilter.all.AllowsEnd := fun _ _ _ => trivial

/-- One commit of the server, seen from every Run. -/
def Database.Step (P : EventFilter) (db db' : Database) : Prop :=
  ∀ runId, ReflTransGen (Cell.Step (P runId)) (db.cell runId) (db'.cell runId)

variable {P : EventFilter}

theorem Database.Step.refl (db : Database) : db.Step P db := fun _ => .refl

theorem Database.Step.trans {db db' db'' : Database} (h : db.Step P db') (h' : db'.Step P db'') :
    db.Step P db'' :=
  fun runId => (h runId).trans (h' runId)

/-- A commit that touches the rows of one Run only. -/
theorem Database.Step.of_cell {db db' : Database} (runId : RunId)
    (hself : ReflTransGen (Cell.Step (P runId)) (db.cell runId) (db'.cell runId))
    (hother : ∀ other, other ≠ runId → db'.cell other = db.cell other) : db.Step P db' := by
  intro other
  by_cases h : other = runId
  · subst h
    exact hself
  · rw [hother other h]

theorem Database.Step.of_cell_eq {db db' : Database} (h : ∀ runId, db'.cell runId = db.cell runId) :
    db.Step P db' := by
  intro runId
  rw [h runId]

/-! ## Statements, seen from a cell -/

namespace Database

variable {db db' : Database} {runId other : RunId} {run : RunRecord} {event : RuntimeEvent}
  {now : Time} {state : RunState} {sequence : Int}

theorem openClarification_cell (h : db.openClarification run event now = .ok db') (r : RunId) :
    db'.cell r = db.cell r := by
  unfold openClarification at h
  split at h
  · cases h
    rfl
  split at h
  · cases h
  split at h
  · cases h
  split at h
  · cases h
  rename_i sequence' taken htake
  unfold takeMessageSequence at htake
  split at htake
  · cases htake
  · cases htake
    cases h
    rfl

theorem advanceTaskCursor_cell (r : RunId) :
    (db.advanceTaskCursor run event now).cell r = db.cell r := by
  unfold advanceTaskCursor
  split <;> rfl

theorem insertReplyRoutingIntent_cell (r : RunId) :
    (db.insertReplyRoutingIntent runId event now).cell r = db.cell r := by
  unfold insertReplyRoutingIntent
  split <;> rfl

theorem insertEvent_cell :
    (db.insertEvent run event now).cell run.runId = { db.cell run.runId with
      events := (db.cell run.runId).events ++ [run.eventRow event now] } := by
  have hrows : select RunEventRecord.runId run.runId
      (db.runEvents ++ [run.eventRow event now]) = _ := Table.select_append_self rfl
  exact congrArg (fun events => { db.cell run.runId with events }) hrows

theorem insertEvent_cell_ne (h : other ≠ run.runId) :
    (db.insertEvent run event now).cell other = db.cell other := by
  have hrows : select RunEventRecord.runId other
      (db.runEvents ++ [run.eventRow event now]) = _ := Table.select_append_ne h.symm
  exact congrArg (fun events => { db.cell other with events }) hrows

/-- The trigger does not touch the Run's own rows. -/
theorem updateRun_cell_eq (r : RunId) :
    (db.updateRun run state sequence now).cell r = { db.cell r with
      run := (db.getRun r).map fun row =>
        if row.runId = run.runId then row.advance state sequence now else row } := by
  have hrow : Table.lookup RunRecord.runId r (update
      (fun row => row.runId = run.runId) (RunRecord.advance state sequence now) db.runs) =
      (db.getRun r).map _ := Table.lookup_update fun _ => rfl
  unfold updateRun
  split
  · exact congrArg (fun run => { db.cell r with run }) hrow
  · exact congrArg (fun run => { db.cell r with run }) hrow

theorem updateRun_cell (h : db.getRun run.runId = some run) :
    (db.updateRun run state sequence now).cell run.runId = { db.cell run.runId with
      run := some (run.advance state sequence now) } := by
  rw [updateRun_cell_eq, h]
  simp

theorem updateRun_cell_ne (h : other ≠ run.runId) :
    (db.updateRun run state sequence now).cell other = db.cell other := by
  rw [updateRun_cell_eq]
  cases hrow : db.getRun other with
  | none => simp [cell, hrow]
  | some row =>
    have hkey : row.runId = other := lookup_key hrow
    simp [cell, hrow, hkey, h]

theorem resolveCancellationIntent_cell :
    (db.resolveCancellationIntent runId state now).cell runId = { db.cell runId with
      intents := Cell.resolved (db.cell runId).intents state now } := by
  have hrows : select RunCancellationIntent.runId runId
      (db.resolveCancellationIntent runId state now).cancellationIntents = _ :=
    Table.select_update_self fun _ => rfl
  exact congrArg (fun intents => { db.cell runId with intents }) hrows

theorem resolveCancellationIntent_cell_ne (h : other ≠ runId) :
    (db.resolveCancellationIntent runId state now).cell other = db.cell other := by
  have hrows : select RunCancellationIntent.runId other
      (db.resolveCancellationIntent runId state now).cancellationIntents = _ :=
    Table.select_update_ne (fun _ => rfl) fun row hrow => by simp [hrow, h]
  exact congrArg (fun intents => { db.cell other with intents }) hrows

theorem takeMessageSequence_cell {roomId : RoomId} {n : Nat}
    (h : db.takeMessageSequence roomId = some (n, db')) (r : RunId) : db'.cell r = db.cell r := by
  unfold takeMessageSequence at h
  split at h
  · cases h
  · cases h
    rfl

end Database

/-! ## Operations, seen from every cell -/

section Operations

variable {db db' : Database} {runId : RunId} {run : RunRecord} {event : RuntimeEvent} {now : Time}

/-- The writes of one event are the `append` of its Run's cell. -/
theorem storeEvent_cell (hrun : db.getRun run.runId = some run)
    (h : storeEvent run event now db = .ok db') :
    db'.cell run.runId = (db.cell run.runId).append run event now := by
  obtain ⟨opened, hopen, h⟩ := bind_ok h
  have hbefore : ((opened.advanceTaskCursor run event now).insertReplyRoutingIntent
      run.runId event now).cell run.runId = { db.cell run.runId with
        events := (db.cell run.runId).events ++ [run.eventRow event now] } := by
    rw [insertReplyRoutingIntent_cell, advanceTaskCursor_cell,
      openClarification_cell hopen, insertEvent_cell]
  have hget : ((opened.advanceTaskCursor run event now).insertReplyRoutingIntent
      run.runId event now).getRun run.runId = some run := by
    rw [← hrun]
    exact congrArg Cell.run hbefore
  split at h
  · rename_i hterm
    cases h
    rw [resolveCancellationIntent_cell, updateRun_cell hget, hbefore]
    simp only [Cell.append, hterm, if_true]
  · rename_i hterm
    cases h
    rw [updateRun_cell hget, hbefore]
    simp only [Cell.append, hterm, Bool.false_eq_true, if_false]

theorem storeEvent_cell_ne (h : storeEvent run event now db = .ok db') {other : RunId}
    (hne : other ≠ run.runId) : db'.cell other = db.cell other := by
  obtain ⟨opened, hopen, h⟩ := bind_ok h
  have hupdated : ∀ state, (((opened.advanceTaskCursor run event now).insertReplyRoutingIntent
      run.runId event now).updateRun run state event.sequence now).cell other = db.cell other := by
    intro state
    rw [updateRun_cell_ne hne, insertReplyRoutingIntent_cell,
      advanceTaskCursor_cell, openClarification_cell hopen,
      insertEvent_cell_ne hne]
  split at h
  · cases h
    rw [resolveCancellationIntent_cell_ne hne, hupdated]
  · cases h
    exact hupdated _

variable {applied : AppliedRunEvent}

/-- What `applyRuntimeEvent` can do: nothing, or store the next event of a live Run. -/
theorem applyRuntimeEvent_cases (h : applyRuntimeEvent runId event now db = .ok (applied, db')) :
    ∃ current, db.getRun runId = some current ∧ ((applied = ⟨false, current⟩ ∧ db' = db ∧
          (event.sequence ≤ current.lastSequence ∨ current.state.isTerminal)) ∨
        (applied.applied = true ∧ event.sequence = current.lastSequence + 1 ∧
          current.state.isTerminal = false ∧ storeEvent current event now db = .ok db' ∧
          db'.getRun runId = some applied.run)) := by
  unfold applyRuntimeEvent at h
  cases hrun : db.getRun runId with
  | none => simp [hrun] at h
  | some current =>
    refine ⟨current, rfl, ?_⟩
    simp only [hrun] at h
    split at h
    · rename_i hold
      cases h
      exact .inl ⟨rfl, rfl, hold⟩
    rename_i hnew
    rw [not_or, Bool.not_eq_true] at hnew
    split at h
    · cases h
    rename_i hseq
    obtain ⟨stored, hstored, h⟩ := bind_ok h
    split at h
    · cases h
    · rename_i updated hupdated
      cases h
      exact .inr ⟨rfl, not_not.mp hseq, hnew.2, hstored, hupdated⟩

theorem applyRuntimeEvent_step (hP : P runId event)
    (h : applyRuntimeEvent runId event now db = .ok (applied, db')) : db.Step P db' := by
  obtain ⟨current, hrun, ⟨-, rfl, -⟩ | ⟨-, hseq, hlive, hstored, -⟩⟩ := applyRuntimeEvent_cases h
  · exact .refl _
  obtain rfl : current.runId = runId := lookup_key hrun
  refine .of_cell _ ?_ fun other hne => storeEvent_cell_ne hstored hne
  rw [storeEvent_cell hrun hstored]
  exact .single (.append hrun hlive hseq hP)

variable {content : String} {assessment : Option String} {messageId : MessageId}

theorem insertReplyMessage_step
    (h : insertReplyMessage run content now db = .ok (messageId, db')) : db.Step P db' := by
  unfold insertReplyMessage at h
  split at h
  · cases h
  · rename_i sequence taken htake
    cases h
    exact .of_cell_eq fun r => takeMessageSequence_cell htake r

theorem applyReply_step {sequence : Int} (hP : P runId (.reply sequence content assessment))
    (h : applyReply runId sequence content assessment now db = .ok (applied, db')) :
    db.Step P db' := by
  obtain ⟨⟨first, stored⟩, hstored, h⟩ := bind_ok h
  have hfirst := applyRuntimeEvent_step hP hstored
  dsimp only at h
  split at h
  · obtain ⟨⟨messageId, inserted⟩, hinserted, h⟩ := bind_ok h
    cases h
    exact (hfirst.trans (insertReplyMessage_step hinserted)).trans (.of_cell_eq fun _ => rfl)
  · cases h
    exact hfirst

theorem applyReplyAndTerminal_step {replySequence terminalSequence : Int} {content : String}
    {error : Option RuntimeError} {session : Option RuntimeSession}
    {clarification : Option RuntimeTaskClarification} {applied : AppliedRunEvent}
    (hP : P runId (.reply replySequence content assessment))
    (hend : P runId (.status terminalSequence .completed error session clarification))
    (h : applyReplyAndTerminal runId replySequence content assessment terminalSequence error session
      clarification now db = .ok (applied, db')) : db.Step P db' := by
  unfold applyReplyAndTerminal at h
  split at h
  · cases h
  obtain ⟨⟨reply, replied⟩, hreply, h⟩ := bind_ok h
  have hfirst := applyReply_step hP hreply
  dsimp only at h
  split at h
  · obtain ⟨⟨terminal, ended⟩, hended, h⟩ := bind_ok h
    dsimp only at h
    split at h
    · cases h
      exact hfirst.trans (applyRuntimeEvent_step hend hended)
    · cases h
  · cases h
    exact hfirst

theorem resolveCancellationIntent_step (hrun : db.getRun runId = some run)
    (hended : run.state.isTerminal = true) :
    db.Step P (db.resolveCancellationIntent runId run.state now) := by
  refine .of_cell _ ?_ fun other hne => resolveCancellationIntent_cell_ne hne
  rw [resolveCancellationIntent_cell]
  exact .single (.resolve hrun hended)

variable {request : RunCancellationRequest} {expired : RunRecord}

theorem cancelNow_step (hP : P.AllowsEnd) (h : cancelNow run now db = .ok (request, db')) :
    db.Step P db' := by
  obtain ⟨⟨applied, stored⟩, hstored, h⟩ := bind_ok h
  cases h
  exact applyRuntimeEvent_step (hP _ _ rfl) hstored

/-- Inserting an intent for a live Run that has none. -/
theorem insertIntent_step {intent : RunCancellationIntent} (hrun : db.getRun intent.runId = some run)
    (hlive : run.state.isTerminal = false) (hnone : db.getCancellationIntent intent.runId = none)
    (hpending : intent.state = .pending) (hopen : intent.terminalStatus = none) :
    db.Step P { db with cancellationIntents := db.cancellationIntents ++ [intent] } := by
  have hempty : (db.cell intent.runId).intents = [] := by
    rw [getCancellationIntent, Table.lookup_eq_head_select] at hnone
    exact List.head?_eq_none_iff.mp hnone
  refine .of_cell intent.runId (.single ?_) fun other hne => ?_
  · have hrows : select RunCancellationIntent.runId intent.runId
        (db.cancellationIntents ++ [intent]) = [intent] := by
      rw [Table.select_append_self rfl]
      exact congrArg (· ++ [intent]) hempty
    have hcell : ({ db with cancellationIntents := db.cancellationIntents ++ [intent] } :
        Database).cell intent.runId = { db.cell intent.runId with intents := [intent] } :=
      congrArg (fun intents => { db.cell intent.runId with intents }) hrows
    rw [hcell]
    exact .request hrun hlive hempty hpending hopen
  · have hrows : select RunCancellationIntent.runId other
        (db.cancellationIntents ++ [intent]) = _ := Table.select_append_ne hne.symm
    exact congrArg (fun intents => { db.cell other with intents }) hrows

theorem requestCancellation_step {input : CancellationInput} (hP : P.AllowsEnd)
    (h : requestCancellation input db = .ok (request, db')) : db.Step P db' := by
  unfold requestCancellation at h
  cases hrun : db.getRun input.runId with
  | none => simp [hrun] at h
  | some run =>
    have hid : run.runId = input.runId := lookup_key hrun
    simp only [hrun] at h
    split at h
    · rename_i hended
      cases h
      split
      · exact resolveCancellationIntent_step (hid ▸ hrun) hended
      · exact .refl _
    rename_i hlive
    split at h
    · exact cancelNow_step hP h
    split at h
    · cases h
      exact .refl _
    rename_i hnone
    split at h
    · exact cancelNow_step hP h
    split at h
    · cases h
    split at h
    · cases h
    · cases h
      have hnone : db.getCancellationIntent run.runId = none := by simpa using hnone
      exact insertIntent_step (hid ▸ hrun) (by simpa using hlive) hnone rfl rfl

theorem markCancellationIntentSent_step {intent : Option RunCancellationIntent}
    (h : markCancellationIntentSent runId messageId now db = .ok (intent, db')) :
    db.Step P db' := by
  cases h
  refine .of_cell runId (.single ?_) fun other hne => ?_
  · have hrows : select RunCancellationIntent.runId runId (update
        (fun row => row.runId = runId ∧ row.messageId = messageId ∧ row.state = .pending)
        (recordSend now) db.cancellationIntents) = _ :=
      Table.select_update_self fun _ => rfl
    simp only [cell, hrows]
    exact .mark fun row hrow => hrow.2
  · have hrows : select RunCancellationIntent.runId other (update
        (fun row => row.runId = runId ∧ row.messageId = messageId ∧ row.state = .pending)
        (recordSend now) db.cancellationIntents) = _ :=
      Table.select_update_ne (fun _ => rfl) fun row hrow hp => hne (hrow.symm.trans hp.1)
    exact congrArg (fun intents => { db.cell other with intents }) hrows

theorem expireCancellationIntent_step (hP : P.AllowsEnd)
    (h : expireCancellationIntent runId now db = .ok (expired, db')) : db.Step P db' := by
  unfold expireCancellationIntent at h
  split at h
  · rename_i intent run hintent hrun
    have hid : run.runId = runId := lookup_key hrun
    split at h
    · cases h
      exact .refl _
    split at h
    · rename_i hended
      cases h
      exact resolveCancellationIntent_step (hid ▸ hrun) hended
    · obtain ⟨⟨applied, stored⟩, hstored, h⟩ := bind_ok h
      cases h
      exact applyRuntimeEvent_step (hP _ _ rfl) hstored
  · cases h

theorem expireQueuedRun_step (hP : P.AllowsEnd)
    (h : expireQueuedRun runId now db = .ok (expired, db')) : db.Step P db' := by
  obtain ⟨⟨applied, stored⟩, hstored, h⟩ := bind_ok h
  cases h
  exact applyRuntimeEvent_step (hP _ _ rfl) hstored

end Operations

end ConveneWire.Run
