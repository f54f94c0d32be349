import ConveneWire.Governed.Recovery

/-! # What the routines do to the inbox of a governed Run

A record is made once, by `Accept`, for a request whose identity was checked, and keeps
its request for good. Only the reports of a Runtime can bring it into the state
`working`; `W` says whether such reports are made. -/

namespace ConveneWire.Governed

open Bridge
open Bridge.RuntimeExecutor
open Bridge.Handler (isExplicitCancel isCanceled cancelUnadmitted cancelAfterAcceptance
  handleQueueExit)
open Run (RuntimeEvent)
open Concurrent (Process Contract)
open Concurrent.Contract (Attempted)

/-- A governed record under its own name, as recovery checks it. -/
structure GovernedRecord (run : String) (record : Record) : Prop where
  runId : record.runId = run
  request : record.request.runId = run
  governed : record.request.governed = true
  valid : validateRecoveryRecord record = .ok ()

/-- One action on the inbox of the Run. -/
structure SlotStep (run : String) (W : Prop) (s t : RunSlot) : Prop where
  kept : ∀ r, s.record = some r →
    ∃ r', t.record = some r' ∧ r'.runId = r.runId ∧ r'.request = r.request
  fresh : ∀ r', t.record = some r' → s.record ≠ none ∨ GovernedRecord run r'
  working : ∀ r', t.record = some r' → r'.state = .working →
    W ∨ ∃ r, s.record = some r ∧ r.state = .working

namespace SlotStep

variable {run : String} {W : Prop} {s t u : RunSlot}

theorem of_record (h : t.record = s.record) : SlotStep run W s t where
  kept := fun r hr => ⟨r, h.trans hr, rfl, rfl⟩
  fresh := fun r hr => .inl (by rw [← h, hr]; exact Option.some_ne_none r)
  working := fun r hr hw => .inr ⟨r, h ▸ hr, hw⟩

theorem refl (s : RunSlot) : SlotStep run W s s := of_record rfl

/-- The record is replaced by one of the same request. -/
theorem rewritten {r next : Record} (hr : s.record = some r) (hrun : next.runId = r.runId)
    (hrequest : next.request = r.request)
    (hworking : next.state = .working → W ∨ r.state = .working) :
    SlotStep run W s (s.withRecord next) where
  kept := fun r' hr' => by
    obtain rfl := Option.mem_unique hr hr'
    exact ⟨next, rfl, hrun, hrequest⟩
  fresh := fun _ _ => .inl (by rw [hr]; exact Option.some_ne_none r)
  working := fun r' hr' hw => by
    cases hr'
    exact (hworking hw).imp id fun h => ⟨r, hr, h⟩

end SlotStep

/-- Everybody keeps to the steps; only the reports of a Runtime make `W` true. -/
def keeping (run : String) (W : Prop) : Contract RunSlot where
  rely := SlotStep run True
  guar := SlotStep run W
  fails := fun _ => True

/-- The record of the slot is one of this request. -/
def Holds (request : RunRequest) (s : RunSlot) : Prop :=
  ∃ r, s.record = some r ∧ r.request = request

variable {s : RunSlot}

theorem holds_kept {run : String} {W : Prop} {request : RunRequest} {t : RunSlot}
    (h : SlotStep run W s t) (hs : Holds request s) : Holds request t := by
  obtain ⟨r, hr, hrequest⟩ := hs
  obtain ⟨r', hr', -, hsame⟩ := h.kept r hr
  exact ⟨r', hr', hsame.trans hrequest⟩

/-- The routine only takes steps of its contract. -/
def Plain (run : String) (W : Prop) {α : Type} (p : Bridge.Routine α) : Prop :=
  (keeping run W).Triple (fun _ => True) p fun _ _ => True

variable {run : String} {W : Prop} {α β : Type} {config : Bridge.Config} {request : RunRequest}
  {answer : Bridge.Answer} {p : Bridge.Routine α}

theorem Plain.pure {a : α} : Plain run W (Pure.pure a) := Contract.Triple.skip

theorem Plain.fail {message : String} : Plain run W (Process.fail message : Bridge.Routine α) :=
  Contract.Triple.fail fun _ _ => trivial

theorem Plain.bind {f : α → Bridge.Routine β} (hp : Plain run W p)
    (hf : ∀ a, Plain run W (f a)) : Plain run W (p >>= f) :=
  Contract.Triple.bind hp hf

theorem Plain.step {f : RunSlot → Bridge.Answer → Except String α × RunSlot}
    (h : ∀ s i, SlotStep run W s (f s i).2) : Plain run W (Process.step f) :=
  Contract.Triple.act (fun _ => trivial) fun s i _ => h s i

theorem Plain.attempt (h : Plain run W p) : Plain run W p.attempt := by
  have hattempt : (keeping run W).Triple (fun _ => True) p.attempt
      (Attempted (fun _ _ => True) fun _ => True) := Contract.Triple.attempt h
  exact hattempt.weaken fun _ _ _ => trivial

theorem Plain.forEach {xs : List α} {f : α → Bridge.Routine PUnit}
    (h : ∀ x, Plain run W (f x)) : Plain run W (Process.forEach xs f) :=
  Contract.Triple.forEach fun x _ => h x

/-! ## Calls of the inbox -/

theorem loaded_state {result : Except String α} : (loaded answer s result).2 = s := by
  unfold loaded
  split <;> rfl

theorem written_slot {next : RunSlot} {value : α}
    (h : SlotStep run W s next) : SlotStep run W s (written answer s next value).2 := by
  unfold written
  split
  · exact h
  · exact .refl s
  · exact h

theorem load_plain : Plain run W Inbox.load := by
  refine .step fun s i => ?_
  split
  · exact .refl s
  · rw [loaded_state]
    exact .refl s

theorem get_plain : Plain run W Inbox.get := by
  refine .step fun s i => ?_
  rw [loaded_state]
  exact .refl s

theorem send_plain {frame : Frame} : Plain run W (send frame) := by
  refine .step fun s i => ?_
  split
  · exact .of_record rfl
  · exact .refl s
  · exact .of_record rfl

theorem sendAll_plain {frames : List Frame} : Plain run W (sendAll frames) :=
  .forEach fun _ => send_plain

theorem hasCancellation_plain : Plain run W (Inbox.hasCancellation request) := by
  refine .step fun s i => ?_
  dsimp only
  split
  · exact .of_record rfl
  · rw [loaded_state]
    exact .of_record rfl

theorem clearCancellation_plain {runId : String} : Plain run W (Inbox.clearCancellation runId) := by
  refine .step fun s i => ?_
  unfold Inbox.cancellationCleared
  split
  · exact .refl s
  split
  · exact .refl s
  · exact written_slot (.of_record rfl)

variable {record : Record} {requested : CancelRequest}
  {decision : Record → Except String (Option Record)} {reporting : Reporting}
  {expected next state : State} {event : AdapterEvent} {code text : String}

theorem recordCancellation_plain : Plain run W (Inbox.recordCancellation requested) := by
  refine .step fun s i => ?_
  unfold Inbox.cancellationRecorded
  split
  · exact .refl s
  split
  · exact .refl s
  split
  · split
    · exact .refl s
    · rw [loaded_state]
      exact .refl s
  · exact written_slot (.of_record rfl)

theorem isExplicitCancel_plain : Plain run W isExplicitCancel := .step fun s _ => .refl s

theorem isCanceled_plain : Plain run W (isCanceled request) :=
  hasCancellation_plain.bind fun _ => isExplicitCancel_plain.bind fun _ => .pure

/-- A decision on the record that keeps its request. -/
def Decent (W : Prop) (decision : Record → Except String (Option Record)) : Prop :=
  ∀ r next, decision r = .ok (some next) → next.runId = r.runId ∧ next.request = r.request ∧
    (next.state = .working → W ∨ r.state = .working)

/-- The action of `Inbox.rewrite`. -/
def rewriting (decision : Record → Except String (Option Record)) (s : RunSlot)
    (answer : Bridge.Answer) : Except String Record × RunSlot :=
  match s.record with
  | none => (.error "inbox record does not exist", s)
  | some record =>
    match decision record with
    | .error message => (.error message, s)
    | .ok none => loaded answer s (.ok record)
    | .ok (some next) => written answer s (s.withRecord next) next

theorem rewrite_eq (decision : Record → Except String (Option Record)) :
    Inbox.rewrite decision = Process.step (rewriting decision) := rfl

section

variable (h : Decent W decision)
include h

theorem rewriting_slot (s : RunSlot) (i : Bridge.Answer) :
    SlotStep run W s (rewriting decision s i).2 := by
  unfold rewriting
  split
  · exact .refl s
  rename_i r hr
  split
  · exact .refl s
  · rw [loaded_state]
    exact .refl s
  · rename_i next hnext
    obtain ⟨hrun, hrequest, hworking⟩ := h r next hnext
    exact written_slot (.rewritten hr hrun hrequest hworking)

theorem rewriting_request {i : Bridge.Answer} {r r' : Record} (hr : s.record = some r)
    (hok : (rewriting decision s i).1 = .ok r') : r'.request = r.request := by
  unfold rewriting at hok
  rw [hr] at hok
  dsimp only at hok
  split at hok
  · cases hok
  · unfold loaded at hok
    split at hok
    · cases hok
      rfl
    · cases hok
    · cases hok
  · rename_i hnext
    unfold written at hok
    split at hok
    · cases hok
      exact (h r _ hnext).2.1
    · cases hok
    · cases hok

theorem rewrite_plain : Plain run W (Inbox.rewrite decision) :=
  Plain.step (rewriting_slot h)

/-- The record that a rewrite returns has the request of the slot. -/
theorem rewrite_holds :
    (keeping run W).Triple (Holds request) (Inbox.rewrite decision) fun r s =>
      r.request = request ∧ Holds request s := by
  rw [rewrite_eq]
  refine .step_free (fun _ => trivial) (fun s i _ => rewriting_slot h s i) ?_ ?_
  · intro s i r' hs hok
    have hslot : SlotStep run W s (rewriting decision s i).2 := rewriting_slot h s i
    refine ⟨?_, holds_kept hslot hs⟩
    obtain ⟨r, hr, hrequest⟩ := hs
    exact (rewriting_request h hr hok).trans hrequest
  · exact fun r s t hst hs => ⟨hs.1, holds_kept hst hs.2⟩

end

theorem transition_decent (hnext : next ≠ .working) :
    Decent W (Record.transition expected next) := by
  intro r r' h
  cases (Record.transition_ok h).2
  exact ⟨rfl, rfl, fun hw => absurd hw hnext⟩

theorem append_decent {event : RuntimeEvent} (hstate : state = .working → W) :
    Decent W (Record.appending state event) := by
  intro r r' h
  rcases Record.appending_ok h with ⟨hnone, -⟩ | ⟨hsome, -⟩
  · cases hnone
  · cases hsome
    exact ⟨rfl, rfl, fun hw => .inl (hstate hw)⟩

theorem appendingEvidence_decent {evidence : SupplementalEvidence} :
    Decent W (Record.appendingEvidence evidence) := by
  intro r r' h
  rw [Record.appendingEvidence_ok h]
  exact ⟨rfl, rfl, .inr⟩

theorem transition_plain (hnext : next ≠ .working) :
    Plain run W (Inbox.transitionLocalState expected next) :=
  rewrite_plain (transition_decent hnext)

theorem append_plain {event : RuntimeEvent} (hstate : state = .working → W) :
    Plain run W (Inbox.appendEvent state event) :=
  rewrite_plain (append_decent hstate)

/-- `Accept` makes governed records of requests with a contract identity. -/
theorem accept_holds (hrun : request.runId = run) (hgoverned : request.governed = true) :
    (keeping run W).Triple (fun _ => True) (Inbox.accept config request) fun accepted s =>
      Holds accepted.1.request s := by
  refine .step_free (fun _ => trivial) ?_ ?_ fun a s t hst hs => holds_kept hst hs
  · intro s i _
    split
    · exact .refl s
    rename_i hid
    split
    · exact .refl s
    rename_i htrace
    split
    · exact .refl s
    · rw [loaded_state]
      exact .refl s
    rename_i record haccepted
    obtain ⟨hfalse, -⟩ | ⟨-, hnone, rfl⟩ := acceptance_ok haccepted
    · cases hfalse
    refine written_slot ⟨fun r hr => ?_, fun r' hr' => .inr ?_, fun r' hr' hw => ?_⟩
    · rw [hnone] at hr
      cases hr
    · cases hr'
      refine ⟨hrun, hrun, hgoverned, ?_⟩
      simp only [Decidable.not_not] at hid htrace
      simp [validateRecoveryRecord, Record.ofRequest, hid, htrace]
    · cases hr'
      cases hw
  · intro s i a _ ha
    split at ha
    · cases ha
    rename_i hid
    rw [if_neg hid]
    split at ha
    · cases ha
    rename_i htrace
    rw [if_neg htrace]
    split at ha
    · cases ha
    · rename_i record haccepted
      rw [loaded_state]
      obtain ⟨-, hrecord⟩ | ⟨hfalse, -⟩ := acceptance_ok haccepted
      swap
      · cases hfalse
      dsimp only [loaded] at ha
      split at ha
      · cases ha
        exact ⟨record, hrecord, rfl⟩
      · cases ha
      · cases ha
    · rename_i record haccepted
      unfold written at ha ⊢
      split at ha
      · cases ha
        exact ⟨record, rfl, rfl⟩
      · cases ha
      · cases ha

/-! ## Routines -/

theorem replayFrames_plain : Plain run W (replayFrames config) := by
  refine load_plain.bind fun latest => ?_
  split
  · exact .fail
  · exact .pure

theorem replay_plain : Plain run W (replay config) :=
  replayFrames_plain.bind fun _ => sendAll_plain

theorem clearTerminalCancellationFence_plain :
    Plain run W (clearTerminalCancellationFence request) := by
  refine load_plain.bind fun record => ?_
  split
  · refine hasCancellation_plain.bind fun staged => ?_
    split
    · exact clearCancellation_plain
    · exact .pure
  · exact .pure

theorem leavePreparation_plain : Plain run W (leavePreparation record) := by
  unfold leavePreparation
  split
  · exact transition_plain nofun
  · exact .pure

theorem cancelQueued_plain : Plain run W (cancelQueued config) := by
  refine load_plain.bind fun latest => ?_
  split
  · exact replayFrames_plain
  refine leavePreparation_plain.bind fun latest => ?_
  split
  · exact .fail
  refine (append_plain nofun).bind fun _ => ?_
  split
  · exact .pure
  · exact replayFrames_plain

theorem failFrames_plain : Plain run W (failFrames config request code text) := by
  refine load_plain.bind fun latest => ?_
  split
  · exact replayFrames_plain.bind fun _ => .pure
  · exact (append_plain nofun).bind fun _ => .pure

theorem failBeforeRuntime_plain : Plain run W (failBeforeRuntime config request code text) := by
  refine failFrames_plain.bind fun outcome => sendAll_plain.bind fun _ => ?_
  split
  · exact clearTerminalCancellationFence_plain
  · exact .pure

theorem emitUnknown_plain {lastSequence : Int} :
    Plain run W (emitUnknown request lastSequence code) :=
  (append_plain nofun).bind fun _ => send_plain.bind fun _ => clearTerminalCancellationFence_plain

theorem cancelUnadmitted_plain {failed : Bool} :
    Plain run W (cancelUnadmitted config record failed) :=
  leavePreparation_plain.bind fun _ => cancelQueued_plain.bind fun _ =>
    send_plain.bind fun _ => sendAll_plain.bind fun _ => clearCancellation_plain

theorem cancelAfterAcceptance_plain : Plain run W (cancelAfterAcceptance config record) :=
  cancelQueued_plain.bind fun _ => sendAll_plain.bind fun _ => clearCancellation_plain

theorem handleQueueExit_plain : Plain run W (handleQueueExit config record) := by
  refine isExplicitCancel_plain.bind fun explicit => ?_
  split
  · exact cancelAfterAcceptance_plain
  · exact .pure

theorem cancelTombstonedRecord_plain : Plain run W (cancelTombstonedRecord config request) :=
  cancelQueued_plain.bind fun _ => send_plain.bind fun _ => sendAll_plain.bind fun _ =>
    clearCancellation_plain

theorem stageCancellation_plain : Plain run W (stageCancellation requested) := by
  refine recordCancellation_plain.bind fun _ => get_plain.bind fun record => ?_
  split
  · exact .pure
  · split
    · exact clearCancellation_plain
    · exact .pure

theorem replayCanceledRun_plain : Plain run W (replayCanceledRun config requested) := by
  refine get_plain.bind fun record => ?_
  split
  · exact recordCancellation_plain.bind fun _ => send_plain.bind fun _ => clearCancellation_plain
  split
  · exact .fail
  split
  · exact .fail
  split
  · exact recordCancellation_plain.bind fun _ => cancelTombstonedRecord_plain
  split
  · exact .fail
  split
  · exact .fail
  · exact replay_plain.bind fun _ => clearCancellation_plain

theorem report_plain {message : RuntimeEvent} :
    Plain run W (report request reporting event message) := by
  unfold report
  split
  · split
    · exact send_plain
    · exact (rewrite_plain appendingEvidence_decent).bind fun _ => send_plain.bind fun _ => send_plain
  · exact send_plain
  · exact send_plain
  · exact send_plain

variable {config : Config}

/-- The reports of a Runtime that may be running. -/
theorem emit_plain : Plain run True (emit config request reporting event) := by
  unfold emit
  split
  · exact .pure
  dsimp only
  split
  · exact .pure
  refine (append_plain fun _ => trivial).attempt.bind fun appended => ?_
  split
  · exact .pure
  · exact report_plain.attempt.bind fun _ => .pure

theorem clearClosed_plain {closed : Bool} : Plain run W (clearClosed request closed) := by
  unfold clearClosed
  split
  · exact clearTerminalCancellationFence_plain
  · exact .pure

theorem failBeforeAcceptance_plain : Plain run W (failBeforeAcceptance config request) :=
  failFrames_plain.bind fun _ => clearClosed_plain.bind fun _ => send_plain.bind fun _ =>
    sendAll_plain

theorem acknowledgeTerminal_plain : Plain run W (acknowledgeTerminal config) :=
  send_plain.bind fun _ => replay_plain

theorem recoverUnknown_plain : Plain run W (recoverUnknown config record) :=
  (append_plain nofun).bind fun _ => clearTerminalCancellationFence_plain.bind fun _ =>
    acknowledgeTerminal_plain

theorem recoverRecord_plain {views : List Admission.RuntimeAdmissionView} :
    Plain run W (recoverRecord config views record) := by
  refine hasCancellation_plain.bind fun canceled => ?_
  split
  · exact cancelTombstonedRecord_plain
  split
  · exact acknowledgeTerminal_plain.bind fun _ => clearTerminalCancellationFence_plain
  split
  · exact .pure
  split
  · exact .pure
  split
  · exact .pure
  · exact .fail
  · exact recoverUnknown_plain

end ConveneWire.Governed
