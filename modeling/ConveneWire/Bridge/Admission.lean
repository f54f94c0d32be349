import ConveneWire.Bridge.Routines

/-! # Admission of a Run

The specifications of the handler. A record is startable while its only event is
the acceptance and the Runtime has not been invoked; it leaves preparation once,
by a compare-and-set, and only the call that moved it may go on to `OnNew`. -/

namespace ConveneWire.Bridge

open Concurrent (Process)

variable {config : Config}

namespace Handler

variable {r : Record} {request : RunRequest} {failed : Bool}

theorem cancelUnadmitted_spec :
    Writes (fun o => o.record = some r) (cancelUnadmitted config r failed) fun _ => Anything := by
  refine .bind (own_pre (fun o ho => ⟨ho, trivial⟩)
    (RuntimeExecutor.leavePreparation_spec (K := fun _ _ => True) fun _ _ h => h)) fun record => ?_
  refine own_pre (B := Anything) (fun _ _ => trivial) ?_
  exact RuntimeExecutor.cancelQueued_spec.bind fun _ => RuntimeExecutor.acknowledgeCanceled_spec

theorem cancelAfterAcceptance_spec :
    Writes Anything (cancelAfterAcceptance config r) fun _ => Anything := by
  refine RuntimeExecutor.cancelQueued_spec.bind fun frames => ?_
  refine .bind (R := fun _ => Own fun o => o.Settled ∧ o.Backs frames)
    (sendAll_spec (fun _ _ ho => ho) fun o ho => ho.2) fun _ => ?_
  exact own_post (clearCancellation_spec fun o ho => .inl ho.1) fun _ _ _ => trivial

theorem handleQueueExit_spec : Writes Anything (handleQueueExit config r) fun _ => Anything := by
  refine isExplicitCancel_spec.bind fun explicit => ?_
  split
  · exact cancelAfterAcceptance_spec
  · exact own_pure fun _ _ => trivial

/-! ## The start of the Runtime -/

/-- A startable record that has left preparation. -/
def Ready (r : Record) (o : Owned) : Prop := Startable r o ∧ r.state ≠ .preparing

/-- The last tombstone check saw only acknowledged fences. -/
def Unfenced (o : Owned) : Prop := ∀ f ∈ o.checked, f.acknowledged = true

theorem Ready.not_settled {o : Owned} (h : Ready r o) : ¬ o.Settled := by
  rintro ⟨r', hr', hlast⟩
  rw [h.1.1] at hr'
  cases hr'
  have hone := h.1.2.1
  omega

theorem isCanceled_spec : Writes (Ready r) (isCanceled request) fun canceled o =>
      Ready r o ∧ (canceled = false → Unfenced o) := by
  refine .bind (hasCancellation_spec fun _ _ ho => ho) fun staged => ?_
  refine .bind isExplicitCancel_spec fun explicit => ?_
  refine own_pure fun o ho => ⟨ho.1, fun hfalse => ?_⟩
  have hstaged : staged = false := (Bool.or_eq_false_iff.mp hfalse).1
  exact (ho.2 hstaged).resolve_right ho.1.not_settled

/-- `OnNew` is invoked on a ready record after an unfenced check, and so only once. -/
theorem onNew_spec :
    Writes (fun o => Ready r o ∧ Unfenced o) (onNew config r) fun _ => Anything := by
  refine .assume (fun s hs => hs.2.1.2) fun hstate => ?_
  refine .bind (R := fun _ => Own fun o => o.record = some r) ?_
    fun _ => RuntimeExecutor.execute_spec hstate
  refine own_step fun s i hs ho => ?_
  obtain ⟨⟨⟨hr, _, hfirst⟩, _⟩, hchecked⟩ := ho
  have hvalid := hs.start r.request hr hstate hfirst hchecked
  exact ⟨⟨fun _ => hvalid, id, List.prefix_rfl⟩, hr⟩

theorem startRuntime_spec :
    Writes (fun o => Ready r o ∧ Unfenced o) (startRuntime config r) fun _ => Anything := by
  refine .bind own_ask fun ready => ?_
  split
  · exact own_fail
  · exact onNew_spec

theorem runNew_spec : Writes (Ready r) (runNew config r) fun _ => Anything := by
  have hcancel : ∀ {A : Owned → Prop}, Writes A
      (cancelAfterAcceptance config r) fun _ => Anything :=
    own_pre (fun _ _ => trivial) cancelAfterAcceptance_spec
  refine isCanceled_spec.bind fun canceled => ?_
  split
  · exact hcancel
  rename_i hcanceled
  have hcanceled : canceled = false := by simpa using hcanceled
  split
  · refine own_pre (fun o ho => ho.1) ?_
    refine .bind (own_ask (A := Ready r)) fun acquired => ?_
    split
    · exact own_pre (fun _ _ => trivial) handleQueueExit_spec
    refine isCanceled_spec.bind fun canceled => ?_
    split
    · exact hcancel
    · rename_i hagain
      exact own_pre (fun o ho => ⟨ho.1, ho.2 (by simpa using hagain)⟩) startRuntime_spec
  · exact own_pre (fun o ho => ⟨ho.1, ho.2 hcanceled⟩) startRuntime_spec

/-! ## The handler -/

/-- The record of a delivery; startable unless the delivery is a mere duplicate. -/
def Admitted (starts : Prop) (r : Record) (o : Owned) : Prop :=
  o.record = some r ∧ (starts → r.lastSequence = 1 ∧ o.starts = [])

variable {duplicate resumePreparing : Bool} {starts : Prop}

theorem enterPreparation_spec {r : Record} (hnew : duplicate = false → starts) :
    Writes (Admitted starts r) (enterPreparation r duplicate) fun r' => Admitted starts r' := by
  unfold enterPreparation
  split
  · exact own_pure fun _ ho => ho
  rename_i hduplicate
  have hstarts := hnew (by simpa using hduplicate)
  refine own_post (transition_spec rfl ?_) ?_
  · rintro o r' ⟨hr, hfresh⟩ hr' _ _
    rw [hr] at hr'
    cases hr'
    exact hfresh hstarts
  · rintro r' o ⟨old, ⟨hold, hfresh⟩, _, rfl, hrecord⟩
    cases hold
    exact ⟨hrecord, hfresh⟩

theorem reportPreparationFailure_spec :
    Writes Anything (reportPreparationFailure config r) fun _ => Anything := by
  refine RuntimeExecutor.failMaterialization_spec.bind fun frames => ?_
  refine .bind (R := fun _ => Own fun o => o.Backs frames) ?_ fun _ =>
    own_post (sendAll_spec (fun _ _ ho => ho) fun o ho => ho)
      fun _ _ _ => trivial
  refine send_spec (fun _ _ ho => ho) (fun _ _ => trivial) ?_
  rintro o ⟨r, hr, _⟩
  exact ⟨r, hr, r.backs_accepted true⟩

theorem acknowledge_spec (hstarts : ¬ (duplicate = true ∧ ¬ resumePreparing = true) → starts)
    (hstate : r.state ≠ .preparing) : Writes (Admitted starts r)
      (acknowledge config r duplicate resumePreparing) fun _ => Anything := by
  refine .bind (send_spec (fun _ _ ho => ho) (fun _ _ => trivial)
    fun o ho => ⟨r, ho.1, r.backs_accepted false⟩) fun _ => ?_
  split
  · exact own_pre (fun _ _ => trivial) RuntimeExecutor.replay_spec
  rename_i hnot
  refine own_pre ?_ runNew_spec
  rintro o ⟨hr, hfresh⟩
  obtain ⟨hlast, hfirst⟩ := hfresh (hstarts hnot)
  exact ⟨⟨hr, hlast, hfirst⟩, hstate⟩

theorem admitRequest_spec (hstarts : ¬ (duplicate = true ∧ ¬ resumePreparing = true) → starts) :
    Writes (Admitted starts r)
      (admitRequest config r duplicate resumePreparing failed) fun _ => Anything := by
  refine .bind (own_pre (fun o ho => ho) (RuntimeExecutor.leavePreparation_spec
    (K := fun r begun => starts → r.lastSequence = 1 ∧ begun = []) fun _ _ h => h)) fun record => ?_
  refine .assume (fun s hs => hs.2.2.2) fun hstate => ?_
  refine own_pre (B := Admitted starts record) (fun o ho => ⟨ho.1, ho.2.1⟩) ?_
  refine .bind (R := fun _ => Own (Admitted starts record)) ?_ fun canceled => ?_
  · refine .bind (hasCancellation_spec fun _ _ ho => ho) fun staged => ?_
    refine .bind isExplicitCancel_spec fun explicit => ?_
    exact own_pure fun o ho => ho.1
  split
  · exact own_pre (fun o ho => ho.1) cancelUnadmitted_spec
  · split
    · exact own_pre (fun _ _ => trivial) reportPreparationFailure_spec
    · exact acknowledge_spec hstarts hstate

/-- A delivery: a fresh record and one found in preparation can be started, no other. -/
theorem handle_spec : Writes Anything (handle config request) fun _ => Anything := by
  unfold handle
  split
  · exact own_fail
  refine (accept_spec config request).bind ?_
  rintro ⟨record, duplicate⟩
  dsimp only
  refine .bind (hasCancellation_spec fun _ _ ho => ho) fun canceled => ?_
  split
  · exact own_pre (fun o ho => ho.1.1) cancelUnadmitted_spec
  have hresume : ¬ (duplicate = true ∧ ¬ (duplicate && record.state == .preparing) = true) →
      duplicate = false ∨ record.state = .preparing := by
    cases duplicate <;> simp
  refine own_of_valid (B := Admitted (duplicate = false ∨ record.state = .preparing) record) ?_ ?_
  · rintro s hs ⟨⟨hr, hnew⟩, _⟩
    refine ⟨hr, ?_⟩
    rintro (hfalse | hpreparing)
    · exact ⟨(hnew hfalse).2.2.1, (hnew hfalse).2.2.2⟩
    · exact hs.preparing record hr hpreparing
  refine .bind (enterPreparation_spec fun h => .inl h) fun record' => ?_
  refine .bind own_ask fun preparation => ?_
  split
  · refine .bind isExplicitCancel_spec fun explicit => ?_
    split
    · exact own_pre (fun o ho => ho.1) cancelUnadmitted_spec
    · exact own_fail
  · exact admitRequest_spec hresume
  · exact admitRequest_spec hresume

end Handler

/-! ## Staging beside a worker -/

theorem stager_tombstone {α : Type} {f : RunSlot → Answer → Except String α × RunSlot}
    {P : RunSlot → Prop} (h : ∀ s i, P s → (f s i).2.Valid ∧ (f s i).2.owned = s.owned) :
    stager.Triple P (Process.step f) fun _ => RunSlot.Valid :=
  .step (fun s i hs => ⟨fun _ => (h s i hs).1, (h s i hs).2⟩)
    (fun s i _ hs _ => (h s i hs).1) (fun _ => valid_stable) (fun s i _ hs _ => (h s i hs).1)
    valid_stable

/-- While it stages a cancellation, the reader removes only the tombstone of a settled Run. -/
theorem stageCancellation_spec {requested : CancelRequest} :
    stager.Triple RunSlot.Valid (RuntimeExecutor.stageCancellation requested)
      fun _ => RunSlot.Valid := by
  refine .bind (stager_tombstone fun _ i hs =>
    cancellationRecorded_owned i hs) fun _ => ?_
  refine .bind (R := fun record s => s.Valid ∧ ∀ r, record = some r →
    r.state.isCancellationTerminal = true → s.Settled) ?_ fun record => ?_
  · refine .step ?_ ?_ ?_ ?_ valid_stable
    · intro s i hs
      unfold loaded
      cases i.io <;> exact ⟨id, rfl⟩
    · intro s i record hs hr
      unfold loaded at hr ⊢
      cases hio : i.io with
      | ok =>
        simp only [hio] at hr ⊢
        cases hr
        exact ⟨hs, fun r hr hterminal => hs.settled_of_terminal hr hterminal⟩
      | failsBefore => simp [hio] at hr
      | failsAfter => simp [hio] at hr
    · intro record s t hst hs
      exact ⟨hst.valid hs.1, fun r hr hterminal => hst.settled (hs.2 r hr hterminal)⟩
    · intro s i e hs _
      unfold loaded
      cases i.io <;> exact hs
  · split
    · exact .pure fun _ hs => hs.1
    rename_i record
    split
    · rename_i hterminal
      exact stager_tombstone fun s i hs =>
        cancellationCleared_owned i hs.1 (.inl (hs.2 record rfl hterminal))
    · exact .pure fun _ hs => hs.1

end ConveneWire.Bridge
