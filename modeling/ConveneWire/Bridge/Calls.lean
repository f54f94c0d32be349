import ConveneWire.Bridge.Slot

/-! # The calls of the inbox under interference

While a worker handles a Run, only the reader's staging of a cancellation touches
the slot, and it leaves the record alone. So the record, the frames sent and the
starts belong to the worker: an assertion about them is stable, and each call of
the inbox has a specification in terms of them. -/

namespace ConveneWire.Bridge

open Run (RuntimeEvent)
open Concurrent (Process Contract)
open Transition (Preserved)

/-- The part of a slot that only its writer changes. -/
structure Owned where
  record : Option Record
  sent : List Frame
  checked : List Fence
  starts : List Start

def RunSlot.owned (s : RunSlot) : Owned := ⟨s.record, s.sent, s.checked, s.starts⟩

def Owned.Settled (o : Owned) : Prop := ∃ r, o.record = some r ∧ 2 ≤ r.lastSequence

/-- A valid slot whose owned part satisfies an assertion. -/
def Own (A : Owned → Prop) (s : RunSlot) : Prop := s.Valid ∧ A s.owned

/-- No demand on the owned part. -/
def Anything (_ : Owned) : Prop := True

/-- What the writer promises: the invariant, a settled Run stays settled, and the
history of frames only grows. -/
structure Advances (s t : RunSlot) : Prop where
  valid : s.Valid → t.Valid
  settled : s.Settled → t.Settled
  sent : s.sent <+: t.sent

theorem Advances.refl (s : RunSlot) : Advances s s := ⟨id, id, List.prefix_rfl⟩

/-- The contract of the one process that writes the record of a Run. -/
def writer (F : Owned → Prop) : Contract RunSlot where
  rely s t := (s.Valid → t.Valid) ∧ t.owned = s.owned
  guar := Advances
  fails := Own F

/-- The writer takes a slot from `A` to what `Q` says of its result, or fails with `F`. -/
abbrev WritesOr {α : Type} (F A : Owned → Prop) (p : Routine α) (Q : α → Owned → Prop) : Prop :=
  (writer F).Triple (Own A) p fun a => Own (Q a)

abbrev Writes {α : Type} := @WritesOr α Anything

/-- The contract of the reader while it stages a cancellation beside a worker. -/
def stager : Contract RunSlot where
  rely := (writer Anything).guar
  guar := (writer Anything).rely
  fails := RunSlot.Valid

theorem own_stable (F A : Owned → Prop) : Preserved (writer F).rely (Own A) := by
  intro s t hst hs
  refine ⟨hst.1 hs.1, ?_⟩
  rw [hst.2]
  exact hs.2

theorem valid_stable : Preserved stager.rely RunSlot.Valid := fun _ _ hst hs => hst.valid hs

section Rules

variable {α β : Type} {F A B : Owned → Prop} {Q : α → Owned → Prop} {p : Routine α}

/-- The result of an action: a value with its assertion, or a failure with `F`. -/
def Outcome (F : Owned → Prop) (Q : α → Owned → Prop) (o : Owned) : Except String α → Prop
  | .ok a => Q a o
  | .error _ => F o

theorem own_step {f : RunSlot → Answer → Except String α × RunSlot}
    (h : ∀ s i, s.Valid → A s.owned →
      Advances s (f s i).2 ∧ Outcome F Q (f s i).2.owned (f s i).1) :
    WritesOr F A (Process.step f) Q := by
  refine .step ?_ ?_ (fun a => own_stable F (Q a)) ?_ (own_stable F F)
  · intro s i hs
    exact (h s i hs.1 hs.2).1
  · intro s i a hs hr
    obtain ⟨hstep, hout⟩ := h s i hs.1 hs.2
    rw [hr] at hout
    exact ⟨hstep.valid hs.1, hout⟩
  · intro s i e hs hr
    obtain ⟨hstep, hout⟩ := h s i hs.1 hs.2
    rw [hr] at hout
    exact ⟨hstep.valid hs.1, hout⟩

theorem own_ask {f : Answer → α} : WritesOr F A (Process.ask f) fun _ => A :=
  .ask (own_stable F A) (fun s _ => .refl s) fun _ _ hs => hs

theorem own_pure {a : α} (h : ∀ o, A o → Q a o) : WritesOr F A (pure a : Routine α) Q :=
  .pure fun s hs => ⟨hs.1, h s.owned hs.2⟩

theorem own_fail {message : String} : Writes A (Process.fail message : Routine α) Q :=
  .fail fun _ hs => ⟨hs.1, trivial⟩

/-- Facts the invariant gives may be added to an assertion. -/
theorem own_of_valid (h : ∀ s : RunSlot, s.Valid → A s.owned → B s.owned) (hp : WritesOr F B p Q) :
    WritesOr F A p Q :=
  hp.strengthen fun s hs => ⟨hs.1, h s hs.1 hs.2⟩

theorem own_pre (h : ∀ o, A o → B o) (hp : WritesOr F B p Q) : WritesOr F A p Q :=
  own_of_valid (fun s _ => h s.owned) hp

theorem own_post {Q' : α → Owned → Prop} (hp : WritesOr F A p Q)
    (h : ∀ a o, Q a o → Q' a o) : WritesOr F A p Q' :=
  hp.weaken fun a s hs => ⟨hs.1, h a s.owned hs.2⟩

end Rules

/-! ## Specifications -/

section Calls

variable {α : Type} {F A : Owned → Prop} {Q : α → Owned → Prop} {answer : Answer}

/-- A call that reads leaves the slot as it is, whether it fails or not. -/
theorem loaded_outcome {s t : RunSlot} {result : Except String α} (hstep : Advances s t)
    (hF : F t.owned) (hQ : Outcome F Q t.owned result) : Advances s (loaded answer t result).2 ∧
      Outcome F Q (loaded answer t result).2.owned (loaded answer t result).1 := by
  unfold loaded
  cases answer.io with
  | ok => exact ⟨hstep, hQ⟩
  | failsBefore => exact ⟨hstep, hF⟩
  | failsAfter => exact ⟨hstep, hF⟩

variable {s : RunSlot} {requested : CancelRequest} {request : RunRequest} {runId : String}

/-- A call that writes leaves the old slot or the new one. -/
theorem written_outcome {next : RunSlot} {value : α} (hnext : Advances s next) (hF : F s.owned)
    (hF' : F next.owned) (hQ : Q value next.owned) : Advances s (written answer s next value).2 ∧
      Outcome F Q (written answer s next value).2.owned (written answer s next value).1 := by
  unfold written
  cases answer.io with
  | ok => exact ⟨hnext, hQ⟩
  | failsBefore => exact ⟨.refl s, hF⟩
  | failsAfter => exact ⟨hnext, hF'⟩

/-- A record of the same Run that is no shorter. -/
theorem advances_withRecord {r next : Record} (hr : s.record = some r)
    (hnext : (s.withRecord next).Valid) (hlast : 2 ≤ r.lastSequence → 2 ≤ next.lastSequence) :
    Advances s (s.withRecord next) where
  valid := fun _ => hnext
  settled := by
    rintro ⟨r', hr', htwo⟩
    rw [hr] at hr'
    cases hr'
    exact ⟨_, rfl, hlast htwo⟩
  sent := List.prefix_rfl

theorem load_spec : Writes A Inbox.load fun r o => A o ∧ o.record = some r := by
  refine own_step fun s i hs hA => ?_
  split
  · exact ⟨.refl s, trivial⟩
  · rename_i r hr
    exact loaded_outcome (.refl s) trivial ⟨hA, hr⟩

theorem get_spec : Writes A Inbox.get fun r o => A o ∧ o.record = r :=
  own_step fun s _ _ hA => loaded_outcome (.refl s) trivial ⟨hA, rfl⟩

/-- A record that may still be started, once. -/
def Startable (r : Record) (o : Owned) : Prop :=
  o.record = some r ∧ r.lastSequence = 1 ∧ o.starts = []

theorem validate_ofRequest (payloadHash : String) (hrun : isContractRunID request.runId = true)
    (htrace : isContractTraceID request.traceId = true) :
    RuntimeExecutor.validateRecoveryRecord (Record.ofRequest payloadHash request) = .ok () := by
  simp [RuntimeExecutor.validateRecoveryRecord, Record.ofRequest, hrun, htrace]

theorem accept_spec (config : Config) (request : RunRequest) :
    Writes Anything (Inbox.accept config request) fun result o => o.record = some result.1 ∧
        (result.2 = false → result.1.state = .accepted ∧ Startable result.1 o) := by
  refine own_step fun s i hs _ => ?_
  split
  · exact ⟨.refl s, trivial⟩
  rename_i hrun
  split
  · exact ⟨.refl s, trivial⟩
  rename_i htrace
  cases hrecord : s.record with
  | some existing =>
    unfold acceptance
    dsimp only
    by_cases hmatch : existing.idempotencyKey ≠ request.idempotencyKey ∨
        existing.payloadHash ≠ config.payloadHash request
    · rw [if_pos hmatch]
      exact ⟨.refl s, trivial⟩
    · rw [if_neg hmatch]
      exact loaded_outcome (.refl s) trivial ⟨hrecord, fun h => by cases h⟩
  | none =>
    have hvalid := hs.withRecord_new hrecord
      (validate_ofRequest (config.payloadHash request) (by simpa using hrun)
        (by simpa using htrace)) (Record.Sequenced.ofRequest _ request) rfl
    refine written_outcome ⟨fun _ => hvalid, ?_, List.prefix_rfl⟩ trivial trivial
      ⟨rfl, fun _ => ⟨rfl, rfl, rfl, ?_⟩⟩
    · rintro ⟨r, hr, _⟩
      rw [hrecord] at hr
      cases hr
    · exact hs.unrecorded hrecord

/-- A rewrite leaves the record or replaces it by what was decided. -/
theorem rewrite_spec {decision : Record → Except String (Option Record)}
    {Q : Record → Owned → Prop} (hF : ∀ o, A o → F o)
    (hkeep : ∀ o r, A o → o.record = some r → decision r = .ok none → Q r o)
    (hnext : ∀ s r next, s.Valid → A s.owned → s.record = some r → decision r = .ok (some next) →
      Advances s (s.withRecord next) ∧ F (s.withRecord next).owned ∧
        Q next (s.withRecord next).owned) : WritesOr F A (Inbox.rewrite decision) Q := by
  refine own_step fun s i hs ha => ?_
  split
  · exact ⟨.refl s, hF _ ha⟩
  rename_i r hr
  split
  · exact ⟨.refl s, hF _ ha⟩
  · rename_i hdecision
    exact loaded_outcome (.refl s) (hF _ ha) (hkeep _ r ha hr hdecision)
  · rename_i next hdecision
    obtain ⟨hstep, hF', hQ⟩ := hnext s r next hs ha hr hdecision
    exact written_outcome hstep (hF _ ha) hF' hQ

/-- What the writer owned before it replaced the record. -/
theorem owned_withRecord {r : Record} (hr : s.record = some r) (next : Record) :
    ({ (s.withRecord next).owned with record := some r } : Owned) = s.owned := by
  rw [← hr]
  rfl

/-- A compare-and-set that succeeds has moved the record of the slot. -/
theorem transition_spec {expected next : State} (hnext : next.isWaiting = true)
    (hA : ∀ o r, A o → o.record = some r → r.state = expected →
      next = .preparing → r.lastSequence = 1 ∧ o.starts = []) :
    Writes A (Inbox.transitionLocalState expected next) fun r' o =>
      ∃ r, A { o with record := some r } ∧ r.state = expected ∧ r' = r.withState next ∧
        o.record = some r' := by
  refine rewrite_spec (fun _ _ => trivial) (fun o r _ _ hdecision => ?_)
    fun s r r' hs ha hr hdecision => ?_
  · cases (Record.transition_ok hdecision).2
  obtain ⟨hstate, heq⟩ := Record.transition_ok hdecision
  cases heq
  have hvalid := hs.withState hr hnext (hA s.owned r ha hr hstate)
  refine ⟨advances_withRecord hr hvalid fun h => h, trivial, r, ?_, hstate, rfl, rfl⟩
  rw [owned_withRecord hr]
  exact ha

/-- An event behind the record is never taken for stored: it is the next one or a gap. -/
theorem appendEvent_spec {state : State} {event : RuntimeEvent} (hstate : state ≠ .preparing)
    (hbehind : ∀ o r, A o → o.record = some r → r.lastSequence < event.sequence)
    (hF : ∀ o, A o → F o)
    (hF' : ∀ o r, A o → o.record = some r → event.sequence = r.lastSequence + 1 →
      F { o with record := some (r.append state event) }) :
    WritesOr F A (Inbox.appendEvent state event) fun r' o =>
      ∃ r, A { o with record := some r } ∧ event.sequence = r.lastSequence + 1 ∧
        r' = r.append state event ∧ o.record = some r' := by
  refine rewrite_spec hF (fun o r ha hr hdecision => ?_) fun s r r' hs ha hr hdecision => ?_
  · rcases Record.appending_ok hdecision with ⟨-, hle⟩ | ⟨hsome, -⟩
    · exact absurd hle (Int.not_le.mpr (hbehind o r ha hr))
    · cases hsome
  rcases Record.appending_ok hdecision with ⟨hnone, -⟩ | ⟨hsome, hnext⟩
  · cases hnone
  cases hsome
  refine ⟨⟨fun _ => hs.append hr hnext hstate,
    fun _ => RunSlot.Settled.append hs hr state hnext, List.prefix_rfl⟩,
    hF' _ r ha hr hnext, r, ?_, hnext, rfl, rfl⟩
  rw [owned_withRecord hr]
  exact ha

/-- Evidence changes the record, but not its state, its sequence or its log. -/
structure SameLog (r r' : Record) : Prop where
  log : r'.log = r.log
  state : r'.state = r.state
  lastSequence : r'.lastSequence = r.lastSequence
  request : r'.request = r.request

theorem appendSupplementalEvidence_spec {evidence : SupplementalEvidence}
    (hA : ∀ o r r', A o → o.record = some r → SameLog r r' → A { o with record := some r' })
    (hF : ∀ o, A o → F o) :
    WritesOr F A (Inbox.appendSupplementalEvidence evidence) fun r' o =>
      A o ∧ o.record = some r' := by
  refine rewrite_spec hF (fun o r ha hr _ => ⟨ha, hr⟩) fun s r r' hs ha hr hdecision => ?_
  obtain rfl := Record.appendingEvidence_ok hdecision
  have hsame : SameLog r (r.withEvidence evidence) :=
    ⟨r.log_withEvidence evidence, rfl, rfl, rfl⟩
  have hnext : A (s.withRecord (r.withEvidence evidence)).owned := hA s.owned r _ ha hr hsame
  exact ⟨advances_withRecord hr (hs.withEvidence hr) fun h => h, hF _ hnext, hnext, rfl⟩

/-- A check that finds no tombstone has only seen acknowledged fences, unless the Run is settled. -/
theorem hasCancellation_spec (hA : ∀ o checked, A o → A { o with checked }) :
    Writes A (Inbox.hasCancellation request) fun staged o => A o ∧
      (staged = false → (∀ f ∈ o.checked, f.acknowledged = true) ∨ o.Settled) := by
  refine own_step fun s i hs ha => ?_
  have hnext : A ({ s with checked := s.fences } : RunSlot).owned := hA s.owned s.fences ha
  have hstep : Advances s { s with checked := s.fences } :=
    ⟨fun _ => hs.withChecked s.fences, id, List.prefix_rfl⟩
  dsimp only
  split
  · exact ⟨hstep, trivial⟩
  refine loaded_outcome hstep (trivial) ?_
  cases htombstone : s.tombstone with
  | none => exact ⟨hnext, fun _ => hs.fenced htombstone⟩
  | some tombstone =>
    unfold cancellationFound
    dsimp only
    split
    · exact trivial
    · exact ⟨hnext, fun h => by cases h⟩

/-- Removing the tombstone of a Run that is through with it touches nothing the writer owns. -/
theorem cancellationCleared_owned (i : Answer) (hs : s.Valid)
    (hdone : s.Settled ∨ s.record = none ∧ cancellationTombstoneStatus ∈ s.sent) :
    (Inbox.cancellationCleared runId s i).2.Valid ∧
      (Inbox.cancellationCleared runId s i).2.owned = s.owned := by
  unfold Inbox.cancellationCleared
  split
  · exact ⟨hs, rfl⟩
  split
  · exact ⟨hs, rfl⟩
  unfold written
  cases i.io with
  | ok => exact ⟨hs.withdrawTombstone hdone, rfl⟩
  | failsBefore => exact ⟨hs, rfl⟩
  | failsAfter => exact ⟨hs.withdrawTombstone hdone, rfl⟩

theorem cancellationRecorded_owned (i : Answer) (hs : s.Valid) :
    (Inbox.cancellationRecorded requested s i).2.Valid ∧
      (Inbox.cancellationRecorded requested s i).2.owned = s.owned := by
  unfold Inbox.cancellationRecorded
  split
  · exact ⟨hs, rfl⟩
  split
  · exact ⟨hs, rfl⟩
  split
  · split
    · exact ⟨hs, rfl⟩
    · unfold loaded
      cases i.io <;> exact ⟨hs, rfl⟩
  · unfold written
    cases i.io with
    | ok => exact ⟨hs.withTombstone _, rfl⟩
    | failsBefore => exact ⟨hs, rfl⟩
    | failsAfter => exact ⟨hs.withTombstone _, rfl⟩

theorem settled_of_owned {t : RunSlot} (h : t.owned = s.owned) (hs : s.Settled) : t.Settled := by
  obtain ⟨r, hr, hlast⟩ := hs
  have hrecord : t.record = s.record := congrArg Owned.record h
  exact ⟨r, hrecord.trans hr, hlast⟩

/-- An action on the tombstone alone, as a step of the writer. -/
theorem own_step_tombstone {f : RunSlot → Answer → Except String α × RunSlot}
    (h : ∀ s i, s.Valid → A s.owned → (f s i).2.Valid ∧ (f s i).2.owned = s.owned) :
    Writes A (Process.step f) fun _ => A := by
  refine own_step fun s i hs ha => ?_
  obtain ⟨hvalid, howned⟩ := h s i hs ha
  have hsent : (f s i).2.sent = s.sent := congrArg Owned.sent howned
  refine ⟨⟨fun _ => hvalid, settled_of_owned howned, hsent ▸ List.prefix_rfl⟩, ?_⟩
  rw [howned]
  cases (f s i).1 with
  | ok a => exact ha
  | error e => exact trivial

theorem clearCancellation_spec
    (hdone : ∀ o, A o → o.Settled ∨ o.record = none ∧ cancellationTombstoneStatus ∈ o.sent) :
    Writes A (Inbox.clearCancellation runId) fun _ => A :=
  own_step_tombstone fun s i hs ha => cancellationCleared_owned i hs (hdone s.owned ha)

theorem recordCancellation_spec : Writes A (Inbox.recordCancellation requested) fun _ => A :=
  own_step_tombstone fun _ i hs _ => cancellationRecorded_owned i hs

/-- A frame may be sent if the log backs it; nothing else changes. -/
theorem send_spec {frame : Frame} (hA : ∀ o sent, A o → A { o with sent })
    (hF : ∀ o, A o → F o) (hframe : ∀ o, A o → ∃ r, o.record = some r ∧ r.Backs frame) :
    WritesOr F A (send frame) fun _ => A := by
  refine own_step fun s i hs ha => ?_
  have hstep : Advances s (s.withSent frame) :=
    ⟨fun _ => hs.withSent (.inr (hframe s.owned ha)), id, List.prefix_append _ _⟩
  have hnext : A (s.withSent frame).owned := hA s.owned _ ha
  split
  · exact ⟨hstep, hnext⟩
  · exact ⟨.refl s, hF _ ha⟩
  · exact ⟨hstep, hF _ hnext⟩

theorem sendAll_spec {frames : List Frame} (hA : ∀ o sent, A o → A { o with sent })
    (hframes : ∀ o, A o → ∃ r, o.record = some r ∧ ∀ frame ∈ frames, r.Backs frame) :
    Writes A (sendAll frames) fun _ => A := by
  refine .forEach fun frame hframe => send_spec hA (fun _ _ => trivial) fun o ho => ?_
  obtain ⟨r, hr, hall⟩ := hframes o ho
  exact ⟨r, hr, hall frame hframe⟩

theorem isExplicitCancel_spec : Writes A Handler.isExplicitCancel fun _ => A :=
  own_step_tombstone fun _ _ hs _ => ⟨hs, rfl⟩

end Calls

end ConveneWire.Bridge
