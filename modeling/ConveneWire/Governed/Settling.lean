import ConveneWire.Governed.Recovery

/-! # Recovery closes a record

With an inbox whose files can be read and written and a connection that takes what is
sent, the routines of recovery succeed on a record whose tombstone, if there is one,
is for its own request; without that they fail. -/

namespace ConveneWire.Governed

open Bridge
open Bridge.RuntimeExecutor
open Run (RuntimeEvent)
open Admission (RuntimeAdmissionView)
open Concurrent (Process)

/-- File operations succeed and the connection stays. -/
def Works (a : Bridge.Answer) : Prop := a.io = .ok ∧ a.delivery = .sent

/-- The tombstone of the slot, if any, is for the request. -/
def OwnTombstone (request : RunRequest) (s : RunSlot) : Prop :=
  ∃ found, cancellationFound request s.tombstone = .ok found

/-- The slot holds this record, which is in order. -/
structure Sane (r : Record) (s : RunSlot) : Prop where
  record : s.record = some r
  valid : validateRecoveryRecord r = .ok ()
  fence : OwnTombstone r.request s

variable {config : Bridge.Config} {r : Record} {s : RunSlot} {request : RunRequest}

theorem validateRecoveryRecord_run (h : validateRecoveryRecord r = .ok ()) :
    isContractRunID r.request.runId = true := by
  unfold validateRecoveryRecord at h
  split at h
  · cases h
  rename_i hrun
  obtain ⟨hrun, hsame⟩ := not_or.mp hrun
  rw [Decidable.not_not.mp hsame]
  exact Decidable.not_not.mp hrun

/-- Another state and more events do not change what is checked. -/
theorem validateRecoveryRecord_same {r' : Record} (hrun : r'.runId = r.runId)
    (hrequest : r'.request = r.request) (h : validateRecoveryRecord r = .ok ()) :
    validateRecoveryRecord r' = .ok () := by
  unfold validateRecoveryRecord at h ⊢
  rwa [hrun, hrequest]

/-! ## Calls of the inbox -/

section

variable (h : Sane r s)
include h

theorem load_sane : Inbox.load.Succeeds Works (fun r' t => r' = r ∧ Sane r t) s := by
  refine .step fun a ha => ⟨r, ?_, rfl, ?_⟩
  · simp [h.record, loaded, ha.1]
  · simpa [h.record, loaded, ha.1] using h

theorem hasCancellation_sane :
    (Inbox.hasCancellation r.request).Succeeds Works (fun _ t => Sane r t) s := by
  obtain ⟨found, hfound⟩ := h.fence
  refine .step fun a ha => ⟨found, ?_, ?_⟩
  · simp [validateRecoveryRecord_run h.valid, loaded, ha.1, hfound]
  · simp only [validateRecoveryRecord_run h.valid, not_true_eq_false, if_false, loaded, ha.1]
    exact ⟨h.record, h.valid, h.fence⟩

theorem clearCancellation_sane :
    (Inbox.clearCancellation r.request.runId).Succeeds Works (fun _ t => Sane r t) s := by
  refine .step fun a ha => ⟨(), ?_⟩
  unfold Inbox.cancellationCleared
  rw [if_neg (not_not.mpr (validateRecoveryRecord_run h.valid))]
  cases htombstone : s.tombstone with
  | none => exact ⟨rfl, h⟩
  | some tombstone =>
    simp only [written, ha.1]
    exact ⟨trivial, h.record, h.valid, ⟨false, rfl⟩⟩

/-- A rewrite of the record that keeps its identity. -/
theorem rewrite_sane {decision : Record → Except String (Option Record)} {next : Record}
    (hnext : decision r = .ok (some next)) (hrun : next.runId = r.runId)
    (hrequest : next.request = r.request) :
    (Inbox.rewrite decision).Succeeds Works (fun r' t => r' = next ∧ Sane next t) s := by
  refine .step fun a ha => ⟨next, ?_⟩
  simp only [h.record, hnext, written, ha.1]
  refine ⟨trivial, trivial, rfl, validateRecoveryRecord_same hrun hrequest h.valid, ?_⟩
  rw [hrequest]
  exact h.fence

theorem transition_sane {expected next : State} (hstate : r.state = expected) :
    (Inbox.transitionLocalState expected next).Succeeds Works
      (fun r' t => r' = r.withState next ∧ Sane (r.withState next) t) s :=
  rewrite_sane h (by simp [Record.transition, hstate]) rfl rfl

theorem appendEvent_sane {state : State} {event : RuntimeEvent}
    (hsequence : event.sequence = r.lastSequence + 1) :
    (Inbox.appendEvent state event).Succeeds Works
      (fun r' t => r' = r.append state event ∧ Sane (r.append state event) t) s := by
  refine rewrite_sane h ?_ rfl rfl
  rw [Record.appending, if_neg (by omega), if_neg (not_not.mpr hsequence)]

theorem send_sane {frame : Frame} : (send frame).Succeeds Works (fun _ t => Sane r t) s := by
  refine .step fun a ha => ⟨(), ?_⟩
  simp only [ha.2]
  exact ⟨trivial, h.record, h.valid, h.fence⟩

theorem sendAll_sane {frames : List Frame} :
    (sendAll frames).Succeeds Works (fun _ t => Sane r t) s :=
  .forEach (J := fun _ t => Sane r t) frames h fun _ _ _ ht => send_sane ht

theorem replayFrames_sane : (replayFrames config).Succeeds Works (fun _ t => Sane r t) s := by
  refine (load_sane h).bind ?_
  rintro latest t ⟨hlatest, ht⟩
  subst latest
  rw [ht.valid]
  exact .pure ht

theorem replay_sane : (replay config).Succeeds Works (fun _ t => Sane r t) s :=
  (replayFrames_sane h).bind fun _ _ ht => sendAll_sane ht

/-! ## Closing -/

theorem clearTerminalCancellationFence_sane :
    (clearTerminalCancellationFence r.request).Succeeds Works (fun _ t => Sane r t) s := by
  refine (load_sane h).bind ?_
  rintro latest t ⟨hlatest, ht⟩
  subst latest
  split
  · refine (hasCancellation_sane ht).bind fun staged u hu => ?_
    split
    · exact clearCancellation_sane hu
    · exact .pure hu
  · exact .pure ht

theorem leavePreparation_sane :
    (leavePreparation r).Succeeds Works (fun r' t => Sane r' t ∧ r'.request = r.request ∧
      r'.state = if r.state = .preparing then .accepted else r.state) s := by
  unfold leavePreparation
  split
  · rename_i hpreparing
    refine (transition_sane h hpreparing).mono ?_
    rintro r' t ⟨hr', ht⟩
    subst r'
    exact ⟨ht, rfl, rfl⟩
  · exact .pure ⟨h, rfl, rfl⟩

/-- The Run is over after a cancellation. -/
theorem cancelQueued_sane :
    (cancelQueued config).Succeeds Works (fun _ t => ∃ r', Sane r' t ∧ r'.request = r.request ∧
      r'.state.isTerminal = true) s := by
  refine (load_sane h).bind ?_
  rintro latest t ⟨hlatest, ht⟩
  subst latest
  split
  · rename_i hterminal
    refine (replayFrames_sane ht).mono fun _ u hu => ⟨_, hu, rfl, ?_⟩
    revert hterminal
    cases r.state <;> simp [State.isTerminal, State.isCancellationTerminal]
  rename_i hopen
  refine (leavePreparation_sane ht).bind ?_
  rintro latest u ⟨hu, hrequest, hstate⟩
  have hlive : latest.state = .accepted ∨ latest.state = .working ∨
      latest.state = .inputRequired := by
    rw [hstate]
    revert hopen
    cases r.state <;> simp [State.isCancellationTerminal]
  rw [if_neg (by rcases hlive with h | h | h <;> simp [h])]
  refine (appendEvent_sane hu rfl).bind ?_
  rintro _ v ⟨-, hv⟩
  split
  · exact .pure ⟨_, hv, hrequest, rfl⟩
  · refine (replayFrames_sane hv).mono fun _ w hw => ?_
    exact ⟨_, hw, hrequest, rfl⟩

theorem cancelTombstonedRecord_sane :
    (cancelTombstonedRecord config r.request).Succeeds Works
      (fun _ t => ∃ r', Sane r' t ∧ r'.request = r.request ∧ r'.state.isTerminal = true) s := by
  refine (cancelQueued_sane h).bind ?_
  rintro events t ⟨r', ht, hrequest, hterminal⟩
  refine (send_sane ht).bind fun _ u hu => (sendAll_sane hu).bind fun _ v hv => ?_
  rw [← hrequest]
  exact (clearCancellation_sane hv).mono fun _ w hw => ⟨r', hw, rfl, hterminal⟩

end

variable {config : Governed.Config}

theorem acknowledgeTerminal_sane (h : Sane r s) :
    (acknowledgeTerminal config).Succeeds Works (fun _ t => Sane r t) s :=
  (send_sane h).bind fun _ _ ht => replay_sane ht

theorem recoverUnknown_sane (h : Sane r s) :
    (recoverUnknown config r).Succeeds Works
      (fun _ t => ∃ r', Sane r' t ∧ r'.request = r.request ∧ r'.state.isTerminal = true) s := by
  refine (appendEvent_sane h rfl).bind ?_
  rintro _ t ⟨-, ht⟩
  refine (clearTerminalCancellationFence_sane ht).bind fun _ u hu => ?_
  refine (acknowledgeTerminal_sane hu).mono fun _ v hv => ?_
  exact ⟨_, hv, rfl, rfl⟩

theorem recoverTerminal_sane (h : Sane r s) :
    (recoverTerminal config r).Succeeds Works (fun _ t => Sane r t) s :=
  (acknowledgeTerminal_sane h).bind fun _ _ ht => clearTerminalCancellationFence_sane ht

variable {views : List RuntimeAdmissionView}

/-- No admission is open any more: the record of a stopped one is over afterwards. -/
theorem recoverRecord_sane (h : Sane r s)
    (hopen : ∀ view, viewOf views r.runId = some view → view.state ≠ .starting) :
    (recoverRecord config views r).Succeeds Works
      (fun _ t => ∃ r', Sane r' t ∧ r'.request = r.request ∧
        (r.state ≠ .preparing → ∀ view, viewOf views r.runId = some view →
          view.state = .stopped → r'.state.isTerminal = true)) s := by
  refine (hasCancellation_sane h).bind fun canceled t ht => ?_
  split
  · exact (cancelTombstonedRecord_sane ht).mono fun _ u ⟨r', hu, hrequest, hterminal⟩ =>
      ⟨r', hu, hrequest, fun _ _ _ _ => hterminal⟩
  split
  · rename_i hterminal
    exact (recoverTerminal_sane ht).mono fun _ u hu => ⟨r, hu, rfl, fun _ _ _ _ => hterminal⟩
  split
  · rename_i hpreparing
    exact .pure ⟨r, ht, rfl, fun hnot => absurd hpreparing hnot⟩
  split
  · rename_i hnone
    exact .pure ⟨r, ht, rfl, fun _ view hview => by simp [hnone] at hview⟩
  rename_i view hview
  split
  · rename_i hclaimed
    refine .pure ⟨r, ht, rfl, fun _ view' hview' hstopped => ?_⟩
    obtain rfl := Option.mem_unique hview hview'
    rw [hclaimed] at hstopped
    cases hstopped
  · rename_i hstarting
    exact absurd hstarting (hopen view hview)
  · exact (recoverUnknown_sane ht).mono fun _ u ⟨r', hu, hrequest, hterminal⟩ =>
      ⟨r', hu, hrequest, fun _ _ _ _ => hterminal⟩

/-- A tombstone of another request stops the recovery of the record. -/
theorem recoverRecord_returns :
    (recoverRecord config views r).Returns Works (fun _ _ => OwnTombstone r.request s) s := by
  have hfound : (Inbox.hasCancellation r.request).Returns Works
      (fun _ _ => OwnTombstone r.request s) s := by
    refine .step fun a found ha hfound => ?_
    split at hfound
    · cases hfound
    · simp only [loaded, ha.1] at hfound
      exact ⟨found, hfound⟩
  refine hfound.bind fun _ t ht => ?_
  exact Process.Ends.mono (fun _ _ _ _ _ => ht) (Process.Ends.any _ t)

end ConveneWire.Governed
