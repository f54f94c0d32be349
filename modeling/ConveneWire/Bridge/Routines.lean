import ConveneWire.Bridge.Calls
import ConveneWire.Lib.Program

/-! # What the routines of the Bridge keep

One specification for every routine of the executor and of the handler, from the
calls of the inbox upwards. The interesting ones say that a canceled Run is
settled before its tombstone goes, that a report never overtakes the outbox, and
that the Runtime is started from a record that has not been started before. -/

namespace ConveneWire.Bridge

open Run (RuntimeEvent)
open Concurrent (Process)

variable {config : Config}

/-- The slot's record backs all of the frames. -/
def Owned.Backs (frames : List Frame) (o : Owned) : Prop :=
  ∃ r, o.record = some r ∧ ∀ frame ∈ frames, r.Backs frame

namespace RuntimeExecutor

variable {r : Record} {reporting : Reporting} {request : RunRequest} {A : Owned → Prop}
  {message : RuntimeEvent} {event : AdapterEvent}

theorem replayFrames_spec :
    Writes A (replayFrames config) fun frames o => A o ∧ o.Backs frames := by
  refine load_spec.bind fun latest => ?_
  split
  · exact own_fail
  · refine own_pure fun o ho => ⟨ho.1, latest, ho.2, fun frame hframe => ?_⟩
    obtain ⟨event, hevent, rfl⟩ := List.mem_map.mp hframe
    exact Record.backs_replay config hevent

theorem replay_spec : Writes Anything (replay config) fun _ => Anything := by
  refine (replayFrames_spec (A := Anything)).bind fun frames => ?_
  refine own_post (Q := fun _ o => Anything o ∧ o.Backs frames) ?_ fun _ _ _ => trivial
  exact sendAll_spec (fun _ _ ho => ho) fun o ho => ho.2

theorem clearTerminalCancellationFence_spec (hA : ∀ o checked, A o → A { o with checked }) :
    Writes A (clearTerminalCancellationFence request) fun _ => A := by
  refine load_spec.bind fun record => ?_
  split
  · rename_i hterminal
    refine own_of_valid (B := fun o => A o ∧ o.Settled)
      (fun s hs ho => ⟨ho.1, hs.settled_of_terminal ho.2 hterminal⟩) ?_
    refine .bind (hasCancellation_spec fun o checked ho => ⟨hA o checked ho.1, ho.2⟩) fun staged => ?_
    refine own_pre (B := fun o => A o ∧ o.Settled) (fun o ho => ho.1) ?_
    split
    · exact own_post (clearCancellation_spec fun o ho => .inl ho.2) fun _ _ ho => ho.1
    · exact own_pure fun _ ho => ho.1
  · exact own_pure fun _ ho => ho.1

/-- Leaving preparation keeps what is said about the record up to its state. -/
theorem leavePreparation_spec {K : Record → List Start → Prop}
    (hK : ∀ r starts, K r starts → K (r.withState .accepted) starts) :
    Writes (fun o => o.record = some r ∧ K r o.starts) (leavePreparation r)
      fun r' o => o.record = some r' ∧ K r' o.starts ∧ r'.state ≠ .preparing := by
  unfold leavePreparation
  split
  · refine own_post (transition_spec rfl fun _ _ _ _ _ h => by cases h) ?_
    rintro r' o ⟨old, ⟨hold, hk⟩, _, hr', hrecord⟩
    cases hold
    rw [hr'] at hrecord ⊢
    exact ⟨hrecord, hK r _ hk, by simp [Record.withState]⟩
  · rename_i hstate
    exact own_pure fun o ho => ⟨ho.1, ho.2, hstate⟩

/-- A canceled Run is settled, and what is to be reported about it is in its log. -/
theorem cancelQueued_spec :
    Writes Anything (cancelQueued config) fun frames o => o.Settled ∧ o.Backs frames := by
  refine load_spec.bind fun latest => ?_
  split
  · rename_i hterminal
    exact own_of_valid (B := Owned.Settled)
      (fun s hs ho => hs.settled_of_terminal ho.2 hterminal) replayFrames_spec
  refine .bind (own_pre (fun o ho => ⟨ho.2, trivial⟩)
    (leavePreparation_spec (K := fun _ _ => True) fun _ _ h => h)) fun latest => ?_
  split
  · exact own_fail
  refine .bind (own_pre (B := fun o => o.record = some latest)
    (fun o ho => ho.1) (appendEvent_spec (by decide) ?_ (fun _ _ => trivial)
      fun _ _ _ _ _ => trivial)) fun appended => ?_
  · intro o r ho hr
    rw [ho] at hr
    cases hr
    exact Int.lt_succ latest.lastSequence
  refine own_of_valid (B := fun o => o.Settled ∧
      o.Backs [.event (.plainStatus (latest.lastSequence + 1) .canceled)]) ?_ ?_
  · rintro s hs ⟨r, hr, hnext, rfl, hrecord⟩
    refine ⟨hs.settled_of_terminal hrecord rfl, _, hrecord, fun frame hframe => ?_⟩
    rw [List.mem_singleton.mp hframe]
    exact Record.backs_append r _ _
  · split
    · exact own_pure fun _ ho => ho
    · exact own_pre (fun o ho => ho.1) replayFrames_spec

theorem failFrames_spec {code text : String} :
    Writes Anything (failFrames config request code text) fun result o => o.Backs result.1 := by
  refine load_spec.bind fun latest => ?_
  split
  · refine .bind replayFrames_spec fun frames => ?_
    exact own_pure fun o ho => ho.2
  refine .bind (own_pre (B := fun o => o.record = some latest)
    (fun o ho => ho.2) (appendEvent_spec (by decide) ?_ (fun _ _ => trivial)
      fun _ _ _ _ _ => trivial)) fun appended => own_pure ?_
  · intro o r ho hr
    rw [ho] at hr
    cases hr
    exact Int.lt_succ latest.lastSequence
  · rintro o ⟨r, hr, hnext, rfl, hrecord⟩
    refine ⟨_, hrecord, fun frame hframe => ?_⟩
    rw [List.mem_singleton.mp hframe]
    exact Record.backs_append r _ _

theorem failBeforeRuntime_spec {code text : String} :
    Writes Anything (failBeforeRuntime config request code text) fun _ => Anything := by
  refine .bind failFrames_spec ?_
  rintro ⟨frames, closed⟩
  refine .bind (R := fun _ => Own fun o => o.Backs frames) (sendAll_spec (fun _ _ ho => ho) fun o ho => ho) fun _ => ?_
  refine own_pre (B := Anything) (fun _ _ => trivial) ?_
  split
  · exact clearTerminalCancellationFence_spec fun _ _ _ => trivial
  · exact own_pure fun _ _ => trivial

theorem failMaterialization_spec :
    Writes Anything (failMaterialization config request) fun frames o => o.Backs frames := by
  refine .bind failFrames_spec ?_
  rintro ⟨frames, closed⟩
  dsimp only
  split
  · refine .bind (clearTerminalCancellationFence_spec fun _ _ ho => ho) fun _ => ?_
    exact own_pure fun _ ho => ho
  · exact own_pure fun _ ho => ho

/-- The outbox is not ahead of the sequence the caller counts. -/
def NotAhead (sequence : Int) (o : Owned) : Prop :=
  ∃ r, o.record = some r ∧ r.lastSequence ≤ sequence

/-- An event that was just appended may be sent. -/
theorem send_appended_spec {state : State} {event : RuntimeEvent} {appended : Record} :
    Writes (fun o => ∃ r, A { o with record := some r } ∧
        event.sequence = r.lastSequence + 1 ∧ appended = r.append state event ∧
        o.record = some appended)
      (send (.event event)) fun _ => Anything := by
  refine own_post (Q := fun _ o => o.record = some appended ∧ appended.Backs (.event event)) ?_
    fun _ _ _ => trivial
  refine own_pre ?_ (send_spec (fun _ _ ho => ho) (fun _ _ => trivial) fun o ho => ⟨appended, ho⟩)
  rintro o ⟨r, _, _, rfl, hrecord⟩
  exact ⟨hrecord, Record.backs_append r _ _⟩

theorem emitUnknown_spec {lastSequence : Int} {code : String} :
    Writes (NotAhead lastSequence) (emitUnknown request lastSequence code) fun _ => Anything := by
  refine .bind (appendEvent_spec (by decide) ?_ (fun _ _ => trivial)
    fun _ _ _ _ _ => trivial) fun appended => ?_
  · rintro o r ⟨r', hr', hle⟩ hr
    rw [hr] at hr'
    cases hr'
    exact Int.lt_add_one_of_le hle
  · exact send_appended_spec.bind fun _ => clearTerminalCancellationFence_spec fun _ _ _ => trivial

/-! ### Reports -/

theorem boundaryEvent_sequence {sequence : Int}
    (h : boundaryEvent config sequence event = .ok message) : message.sequence = sequence := by
  cases event with
  | status status error session clarification =>
    cases h
    rfl
  | activity activity =>
    obtain ⟨boundary, _, h⟩ := Transactional.bind_ok h
    cases h
    rfl
  | output content reset =>
    simp only [boundaryEvent] at h
    split at h
    · cases h
    · cases h
      rfl
  | reply content assessment =>
    simp only [boundaryEvent] at h
    split at h
    · cases h
    · cases h
      rfl

theorem receive_currentState (event : AdapterEvent) (h : reporting.currentState ≠ .preparing) :
    (reporting.receive event).currentState ≠ .preparing := by
  cases event with
  | status status =>
    cases status <;> simp [Reporting.receive, State.ofStatus]
  | activity => exact h
  | output => exact h
  | reply => exact h

/-- What holds between two reports of the Runtime. -/
def Reporting.Holds (reporting : Reporting) (o : Owned) : Prop :=
  reporting.currentState ≠ .preparing ∧ NotAhead reporting.sequence o

/-- The message of a report is in the outbox before it is sent. -/
theorem report_spec :
    WritesOr (NotAhead reporting.sequence) (fun o => NotAhead reporting.sequence o ∧ o.Backs [.event message])
      (report request reporting event message) fun _ => NotAhead reporting.sequence := by
  have hsend : WritesOr (NotAhead reporting.sequence) (fun o => NotAhead reporting.sequence o ∧ o.Backs [.event message])
      (send (.event message)) fun _ => NotAhead reporting.sequence := by
    refine own_post (send_spec (fun _ _ ho => ho) (fun o ho => ho.1) ?_) fun _ _ ho => ho.1
    rintro o ⟨_, r, hr, hall⟩
    exact ⟨r, hr, hall _ (List.mem_singleton.mpr rfl)⟩
  unfold report
  split
  · split
    · exact hsend
    rename_i evidence _
    refine .bind (appendSupplementalEvidence_spec ?_ fun o ho => ho.1) fun _ => ?_
    · rintro o r r' ⟨⟨old, hold, hle⟩, old', hold', hall⟩ hr hsame
      rw [hr] at hold hold'
      cases hold
      cases hold'
      refine ⟨⟨r', rfl, hsame.lastSequence ▸ hle⟩, r', rfl, fun frame hframe => ?_⟩
      exact (hall frame hframe).extend (hsame.log ▸ List.prefix_rfl)
    · refine .bind (own_pre (fun o ho => ho.1) hsend) fun _ => ?_
      refine send_spec (fun _ _ ho => ho) (fun o ho => ho) ?_
      rintro o ⟨r, hr, _⟩
      exact ⟨r, hr, r.backs_supplementalEvidence evidence⟩
  · exact hsend
  · exact hsend
  · exact hsend

/-- One report keeps the count of the loop at or above the outbox, whatever fails. -/
theorem onReport_spec (reporting : Reporting) :
    Writes reporting.Holds (onReport config request reporting) fun next => next.Holds := by
  refine .bind own_ask fun event => ?_
  split
  · exact own_pure fun _ ho => ho
  refine .assume (fun s hs => hs.2.1) fun hstate => ?_
  have hnext := receive_currentState event hstate
  -- the sequence has moved on before anything can fail
  refine own_pre (B := fun o => NotAhead reporting.sequence o) (fun o ho => ho.2) ?_
  have hcount : ∀ o, NotAhead reporting.sequence o →
      NotAhead (reporting.receive event).sequence o := by
    rintro o ⟨r, hr, hle⟩
    exact ⟨r, hr, Int.le_add_one hle⟩
  dsimp only
  split
  · exact own_pure fun o ho => ⟨hnext, hcount o ho⟩
  rename_i message hmessage
  have hsequence := boundaryEvent_sequence hmessage
  refine .bind (.attempt (F := Own (NotAhead (reporting.receive event).sequence))
    (appendEvent_spec hnext ?_ hcount ?_)) fun appended => ?_
  · rintro o r ⟨r', hr', hle⟩ hr
    rw [hr] at hr'
    cases hr'
    rw [hsequence]
    exact Int.lt_add_one_of_le hle
  · intro o r _ _ _
    exact ⟨_, rfl, Int.le_of_eq hsequence⟩
  · split
    · exact own_pure fun o ho => ⟨hnext, ho⟩
    rename_i record
    refine .bind (.attempt (report_spec.strengthen ?_)) fun sent => ?_
    · rintro s ⟨hs, r, _, _, rfl, hrecord⟩
      refine ⟨hs, ⟨_, hrecord, Int.le_of_eq hsequence⟩, _, hrecord, fun frame hframe => ?_⟩
      rw [List.mem_singleton.mp hframe]
      exact Record.backs_append r _ _
    · refine .pure fun s hs => ?_
      have hs : Own (NotAhead (reporting.receive event).sequence) s := by
        cases sent with
        | ok _ => exact hs
        | error _ => exact hs
      refine ⟨hs.1, ?_⟩
      cases event <;> exact ⟨hnext, hs.2⟩

/-- Any number of reports, by induction on that number. -/
theorem reports_spec {reports : Nat} :
    Writes reporting.Holds
      (Process.iterate reports (onReport config request) reporting) fun _ => Anything :=
  own_post (.iterate (J := fun next => Own (Reporting.Holds next)) onReport_spec
    reports reporting) fun _ _ _ => trivial

theorem execute_spec (hstate : r.state ≠ .preparing) :
    Writes (fun o => o.record = some r) (execute config r) fun _ => Anything := by
  refine .bind own_ask fun runtime => ?_
  have hfail : ∀ code text, Writes (fun o => o.record = some r)
      (failBeforeRuntime config r.request code text) fun _ => Anything :=
    fun code text => own_pre (fun _ _ => trivial) failBeforeRuntime_spec
  dsimp only
  split
  · exact own_fail
  split
  · exact hfail _ _
  split
  · exact hfail _ _
  split
  · exact hfail _ _
  split
  · exact own_pre (fun o ho => ⟨r, ho, Int.le_refl _⟩) emitUnknown_spec
  refine .bind own_ask fun reports => ?_
  refine .bind
    (own_pre (fun o ho => ⟨hstate, r, ho, Int.le_refl _⟩) reports_spec) fun reporting => ?_
  refine .bind own_ask fun executed => ?_
  split
  · exact clearTerminalCancellationFence_spec fun _ _ _ => trivial
  refine load_spec.bind fun latest => ?_
  split
  · exact own_fail
  · exact own_pre (fun o ho => ⟨latest, ho.2, Int.le_refl _⟩) emitUnknown_spec

/-! ### Cancellation requests and recovery -/

/-- Acknowledging a canceled Run: its tombstone goes last. -/
theorem acknowledgeCanceled_spec {frames : List Frame} {failed : Bool} {runId : String} :
    Writes (fun o => o.Settled ∧ o.Backs frames)
      (do
        send (.accepted failed)
        sendAll frames
        Inbox.clearCancellation runId) fun _ => Anything := by
  refine .bind (R := fun _ => Own fun o => o.Settled ∧ o.Backs frames) ?_ fun _ => ?_
  · refine send_spec (fun _ _ ho => ho) (fun _ _ => trivial) ?_
    rintro o ⟨⟨r, hr, _⟩, _⟩
    exact ⟨r, hr, r.backs_accepted failed⟩
  · refine .bind (R := fun _ => Own fun o => o.Settled ∧ o.Backs frames)
      (sendAll_spec (fun _ _ ho => ho) fun o ho => ho.2) fun _ => ?_
    exact own_post (clearCancellation_spec fun o ho => .inl ho.1) fun _ _ _ => trivial

theorem cancelTombstonedRecord_spec :
    Writes Anything (cancelTombstonedRecord config request) fun _ => Anything :=
  cancelQueued_spec.bind fun _ => acknowledgeCanceled_spec

theorem replayCanceledRun_spec {requested : CancelRequest} :
    Writes Anything (replayCanceledRun config requested) fun _ => Anything := by
  refine get_spec.bind fun record => ?_
  split
  · -- a Run without record: acknowledge the tombstone, then remove it
    refine .bind recordCancellation_spec fun tombstone => ?_
    refine .bind (R := fun _ => Own fun o =>
      o.record = none ∧ cancellationTombstoneStatus ∈ o.sent) ?_ fun _ => ?_
    · refine own_step fun s i hs ho => ?_
      have hstep : Advances s (s.withSent cancellationTombstoneStatus) :=
        ⟨fun _ => hs.withSent (.inl rfl), id, List.prefix_append _ _⟩
      have hmem : cancellationTombstoneStatus ∈
          (s.withSent cancellationTombstoneStatus).owned.sent :=
        List.mem_append_right _ List.mem_cons_self
      split
      · exact ⟨hstep, ho.2, hmem⟩
      · exact ⟨.refl s, trivial⟩
      · exact ⟨hstep, trivial⟩
    · exact own_post (clearCancellation_spec fun o ho => .inr ho) fun _ _ _ => trivial
  · rename_i record
    split
    · exact own_fail
    split
    · exact own_fail
    split
    · exact .bind (own_pre (fun _ _ => trivial) recordCancellation_spec)
        fun _ => cancelTombstonedRecord_spec
    rename_i hterminal
    split
    · exact own_fail
    split
    · exact own_fail
    refine own_of_valid (B := Owned.Settled) (fun s hs ho =>
      hs.settled_of_terminal ho.2 (by simpa using hterminal)) ?_
    refine .bind (R := fun _ => Own Owned.Settled) ?_ fun _ =>
      own_post (clearCancellation_spec fun o ho => .inl ho)
        fun _ _ _ => trivial
    refine .bind replayFrames_spec fun frames => ?_
    exact own_post (sendAll_spec (fun _ _ ho => ho) fun o ho => ho.2) fun _ _ ho => ho.1

theorem recoverEvidence_spec :
    Writes (fun o => o.record = some r) (recoverEvidence r) fun r' o => o.record = some r' := by
  unfold recoverEvidence
  split
  · exact own_pure fun _ ho => ho
  · refine own_pre (B := fun o => ∃ r', o.record = some r') (fun o ho => ⟨r, ho⟩) ?_
    exact own_post (appendSupplementalEvidence_spec (fun o r r' _ _ _ => ⟨r', rfl⟩)
      fun _ _ => trivial) fun _ _ ho => ho.2

theorem prepareRecovered_spec : Writes A (prepareRecovered r) fun _ => A := by
  unfold prepareRecovered
  split
  · exact own_pure fun _ ho => ho
  refine .bind own_ask fun preparation => ?_
  split
  · exact own_pure fun _ ho => ho
  · exact own_pure fun _ ho => ho
  · exact own_fail

theorem closeInterrupted_spec :
    Writes (fun o => o.record = some r) (closeInterrupted r) fun _ => Anything := by
  unfold closeInterrupted
  split
  · refine .bind (appendEvent_spec (by decide) ?_ (fun _ _ => trivial)
      fun _ _ _ _ _ => trivial) fun _ => own_pure fun _ _ => trivial
    intro o r' ho hr
    rw [ho] at hr
    cases hr
    exact Int.lt_succ r.lastSequence
  · exact own_pure fun _ _ => trivial

theorem recoverRecord_spec :
    Writes (fun o => o.record = some r) (recoverRecord config r) fun _ => Anything := by
  refine .bind (hasCancellation_spec fun _ _ ho => ho) fun canceled => ?_
  split
  · exact own_pre (fun _ _ => trivial) cancelTombstonedRecord_spec
  split
  · exact own_pure fun _ _ => trivial
  refine .bind (own_pre (fun o ho => ho.1) recoverEvidence_spec) fun r => ?_
  refine .bind prepareRecovered_spec fun failed => ?_
  refine .bind (send_spec (fun _ _ ho => ho) (fun _ _ => trivial)
    fun o ho => ⟨r, ho, r.backs_accepted failed⟩) fun _ => ?_
  exact closeInterrupted_spec.bind fun _ => replay_spec

/-- Recovery never puts a record of this inbox aside: its identity was checked when
it was accepted. -/
theorem recover_spec : Writes Anything (recover config) fun _ => Anything := by
  refine get_spec.bind fun record => ?_
  split
  · exact own_pure fun _ _ => trivial
  rename_i record
  split
  · rename_i message hinvalid
    intro s hs
    have hvalid := hs.1.identity record hs.2.2
    rw [hinvalid] at hvalid
    cases hvalid
  · exact own_pre (fun o ho => ho.2) recoverRecord_spec

end RuntimeExecutor

end ConveneWire.Bridge
