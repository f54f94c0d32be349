import ConveneWire.Bridge.Handler
import ConveneWire.Lib.OrdinalLog

/-! # The invariant of a slot

`RunSlot.Valid` is what every action of the Bridge keeps: the outbox is numbered
without gaps, every frame sent is backed by it, a record in preparation has not
been started, and a tombstone only disappears when it was acknowledged or when
the record has moved on for good. -/

namespace ConveneWire.Bridge

open Run (RuntimeEvent RunState)
open OrdinalLog (Consecutive)
open Record

/-! ## The durable log of a record -/

inductive EventKind where
  | status | activity | output | reply
  deriving DecidableEq, Repr

/-- What identifies an event on both sides of the connection. -/
structure EventKey where
  sequence : Int
  kind : EventKind
  status : Option RunState
  deriving DecidableEq, Repr

def eventKind : RuntimeEvent → EventKind
  | .status .. => .status
  | .activity .. => .activity
  | .output .. => .output
  | .reply .. => .reply

def eventKey (event : RuntimeEvent) : EventKey :=
  ⟨event.sequence, eventKind event, event.status?⟩

/-- `run.accepted` as an entry of the log. -/
def acceptedEntry : RuntimeEvent := .plainStatus 1 .delivered

/-- The durable log of the Bridge: the acceptance, then the sequenced outbox. -/
def Record.log (record : Record) : List RuntimeEvent := acceptedEntry :: record.runtimeEvents

/-- The log entry a frame reports. -/
def Frame.entry? : Frame → Option RuntimeEvent
  | .accepted _ => some acceptedEntry
  | .event entry => some entry
  | .supplementalEvidence _ => none

/-- The log numbers its entries 1, 2, … and the record knows the last number. -/
structure Record.Sequenced (record : Record) : Prop where
  consecutive : Consecutive RuntimeEvent.sequence record.log
  last : record.lastSequence = record.log.length

/-- The log has an entry for what the frame reports. -/
def Record.Backs (record : Record) (frame : Frame) : Prop :=
  ∀ event, frame.entry? = some event → eventKey event ∈ record.log.map eventKey

@[simp] theorem Record.log_append (record : Record) (state : State) (event : RuntimeEvent) :
    (record.append state event).log = record.log ++ [event] := by
  simp [log, append, runtimeEvents, InboxEvent.runtime?]

@[simp] theorem Record.log_withEvidence (record : Record) (evidence : SupplementalEvidence) :
    (record.withEvidence evidence).log = record.log := by
  simp [log, withEvidence, runtimeEvents, InboxEvent.runtime?]

theorem Record.Sequenced.ofRequest (payloadHash : String) (request : RunRequest) :
    (ofRequest payloadHash request).Sequenced :=
  ⟨rfl, rfl⟩

variable {record : Record} {event : RuntimeEvent} {next : Record} {state : State} {frame : Frame}

theorem Record.Sequenced.one_le (h : record.Sequenced) : 1 ≤ record.lastSequence := by
  rw [h.last, log, List.length_cons]
  omega

theorem Record.Sequenced.append {record : Record} (h : record.Sequenced)
    (hnext : event.sequence = record.lastSequence + 1) : (record.append state event).Sequenced := by
  have hlast : event.sequence = ((record.log.length + 1 : ℕ) : ℤ) := by
    rw [hnext, h.last]
    rfl
  refine ⟨?_, ?_⟩
  · rw [log_append]
    exact h.consecutive.snoc hlast
  · rw [log_append, List.length_append]
    exact hlast

theorem Record.Backs.extend (h : record.log <+: next.log) (hb : record.Backs frame) :
    next.Backs frame := by
  intro event hevent
  obtain ⟨entry, hentry, hkey⟩ := List.mem_map.mp (hb event hevent)
  exact List.mem_map.mpr ⟨entry, h.subset hentry, hkey⟩

theorem Record.backs_accepted (record : Record) (failed : Bool) : record.Backs (.accepted failed) := by
  intro event hevent
  cases hevent
  exact List.mem_map.mpr ⟨acceptedEntry, List.mem_cons_self, rfl⟩

theorem Record.backs_supplementalEvidence (record : Record) (evidence : SupplementalEvidence) :
    record.Backs (.supplementalEvidence evidence) := by
  intro event hevent
  cases hevent

theorem Record.backs_append (record : Record) (state : State) (event : RuntimeEvent) :
    (record.append state event).Backs (.event event) := by
  intro entry hentry
  cases hentry
  rw [log_append]
  exact List.mem_map.mpr ⟨event, List.mem_append_right _ List.mem_cons_self, rfl⟩

/-- Withholding a summary keeps the key of its entry. -/
theorem entry?_replayEvent (config : Config) (event : InboxEvent) :
    (RuntimeExecutor.replayEvent config event).frame.entry?.map eventKey =
      event.runtime?.map eventKey := by
  unfold RuntimeExecutor.replayEvent
  split
  · cases event <;> rfl
  unfold RuntimeExecutor.privateReasoningReplay
  split
  · split <;> rfl
  · cases event <;> rfl

theorem Record.backs_replay (config : Config) {event : InboxEvent} (h : event ∈ record.events) :
    record.Backs (RuntimeExecutor.replayEvent config event).frame := by
  intro entry hentry
  have hkey := entry?_replayEvent config event
  rw [hentry, Option.map_some, eq_comm, Option.map_eq_some_iff] at hkey
  obtain ⟨original, horiginal, hkey⟩ := hkey
  rw [← hkey]
  refine List.mem_map.mpr ⟨original, ?_, rfl⟩
  exact List.mem_cons_of_mem _ (List.mem_filterMap.mpr ⟨event, h, horiginal⟩)

/-! ## The invariant -/

/-- The record exists and has left the state in which it could still be started. -/
def RunSlot.Settled (s : RunSlot) : Prop := ∃ r, s.record = some r ∧ 2 ≤ r.lastSequence

structure RunSlot.Valid (s : RunSlot) : Prop where
  identity : ∀ r, s.record = some r → RuntimeExecutor.validateRecoveryRecord r = .ok ()
  sequenced : ∀ r, s.record = some r → r.Sequenced
  waiting : ∀ r, s.record = some r → r.state.isWaiting = true ∨ 2 ≤ r.lastSequence
  preparing : ∀ r, s.record = some r → r.state = .preparing → r.lastSequence = 1 ∧ s.starts = []
  unrecorded : s.record = none → s.starts = []
  once : s.starts.length ≤ 1
  fenced : s.tombstone = none → (∀ f ∈ s.fences, f.acknowledged = true) ∨ s.Settled
  started : ∀ start ∈ s.starts, ∀ f ∈ start.checked, f.acknowledged = true
  backed : ∀ frame ∈ s.sent,
    frame = cancellationTombstoneStatus ∨ ∃ r, s.record = some r ∧ r.Backs frame

namespace RunSlot

theorem Valid.empty : RunSlot.empty.Valid where
  identity := fun _ h => by cases h
  sequenced := fun _ h => by cases h
  waiting := fun _ h => by cases h
  preparing := fun _ h => by cases h
  unrecorded := fun _ => rfl
  once := Nat.zero_le 1
  fenced := fun _ => .inl fun _ hf => absurd hf List.not_mem_nil
  started := fun _ hf => absurd hf List.not_mem_nil
  backed := fun _ hf => absurd hf List.not_mem_nil

variable {s : RunSlot} {r r : Record}

theorem Valid.settled_of_terminal (h : s.Valid) (hr : s.record = some r)
    (hstate : r.state.isCancellationTerminal = true) : s.Settled := by
  refine ⟨r, hr, ?_⟩
  rcases h.waiting r hr with hwait | hlast
  · cases hs : r.state <;> simp_all [State.isWaiting, State.isCancellationTerminal]
  · exact hlast

/-- A record that grows keeps the frames sent before it backed. -/
theorem Valid.backed_withRecord (h : s.Valid) (hlog : ∀ r, s.record = some r → r.log <+: next.log) :
    ∀ frame ∈ (s.withRecord next).sent, frame = cancellationTombstoneStatus ∨
      ∃ r, (s.withRecord next).record = some r ∧ r.Backs frame := by
  intro frame hframe
  rcases h.backed frame hframe with hack | ⟨r, hr, hb⟩
  · exact .inl hack
  · exact .inr ⟨next, rfl, hb.extend (hlog r hr)⟩

/-- A record for a Run that had none. -/
theorem Valid.withRecord_new (h : s.Valid) (hnone : s.record = none)
    (hidentity : RuntimeExecutor.validateRecoveryRecord r = .ok ()) (hseq : r.Sequenced)
    (hstate : r.state = .accepted) : (s.withRecord r).Valid where
  identity := fun _ hr => by cases hr; exact hidentity
  sequenced := fun _ hr => by cases hr; exact hseq
  waiting := fun _ hr => by cases hr; exact .inl (by rw [hstate]; rfl)
  preparing := fun _ hr hp => by cases hr; rw [hstate] at hp; cases hp
  unrecorded := fun hr => by cases hr
  once := h.once
  fenced := fun ht => by
    rcases h.fenced ht with hack | ⟨r', hr', _⟩
    · exact .inl hack
    · rw [hnone] at hr'; cases hr'
  started := h.started
  backed := h.backed_withRecord fun r' hr' => by rw [hnone] at hr'; cases hr'

/-- A record that takes the place of one with a part of its log. -/
theorem Valid.withRecord (h : s.Valid) (hr : s.record = some r)
    (hidentity : RuntimeExecutor.validateRecoveryRecord next = .ok ()) (hseq : next.Sequenced)
    (hwaiting : next.state.isWaiting = true ∨ 2 ≤ next.lastSequence)
    (hpreparing : next.state = .preparing → next.lastSequence = 1 ∧ s.starts = [])
    (hlog : r.log <+: next.log) (hlast : r.lastSequence ≤ next.lastSequence) :
    (s.withRecord next).Valid where
  identity := fun _ hr' => by cases hr'; exact hidentity
  sequenced := fun _ hr' => by cases hr'; exact hseq
  waiting := fun _ hr' => by cases hr'; exact hwaiting
  preparing := fun _ hr' hp => by cases hr'; exact hpreparing hp
  unrecorded := fun hr' => by cases hr'
  once := h.once
  fenced := fun ht => (h.fenced ht).imp_right fun ⟨r', hr', hsettled⟩ => by
    rw [hr] at hr'
    cases hr'
    exact ⟨_, rfl, Int.le_trans hsettled hlast⟩
  started := h.started
  backed := h.backed_withRecord fun r' hr' => by
    rw [hr] at hr'
    cases hr'
    exact hlog

/-- Into and out of preparation. -/
theorem Valid.withState (h : s.Valid) (hr : s.record = some r) {next : State}
    (hnext : next.isWaiting = true)
    (hfresh : next = .preparing → r.lastSequence = 1 ∧ s.starts = []) :
    (s.withRecord (r.withState next)).Valid :=
  h.withRecord hr (h.identity r hr) ⟨(h.sequenced r hr).1, (h.sequenced r hr).2⟩ (.inl hnext) hfresh
    List.prefix_rfl (Int.le_refl _)

theorem Settled.append (hs : s.Valid) (hr : s.record = some r) (state : State)
    (hnext : event.sequence = r.lastSequence + 1) :
    (s.withRecord (r.append state event)).Settled := by
  have hone := (hs.sequenced r hr).one_le
  refine ⟨_, rfl, ?_⟩
  change 2 ≤ event.sequence
  omega

/-- The next event of the outbox. -/
theorem Valid.append (h : s.Valid) (hr : s.record = some r)
    (hnext : event.sequence = r.lastSequence + 1) (hstate : state ≠ .preparing) :
    (s.withRecord (r.append state event)).Valid := by
  obtain ⟨_, ⟨⟩, hlast⟩ := Settled.append h hr state hnext
  refine h.withRecord hr (h.identity r hr) ((h.sequenced r hr).append hnext) (.inr hlast)
    (fun hp => absurd hp hstate) ?_ ?_
  · rw [log_append]
    exact List.prefix_append _ _
  · change r.lastSequence ≤ event.sequence
    omega

section

variable (h : s.Valid)
include h

theorem Valid.withEvidence (hr : s.record = some r) {evidence : SupplementalEvidence} :
    (s.withRecord (r.withEvidence evidence)).Valid := by
  refine h.withRecord hr (h.identity r hr) ⟨?_, ?_⟩ (h.waiting r hr) (h.preparing r hr) ?_
    (Int.le_refl _)
  · rw [log_withEvidence]
    exact (h.sequenced r hr).consecutive
  · rw [log_withEvidence]
    exact (h.sequenced r hr).last
  · exact (log_withEvidence r evidence).symm ▸ List.prefix_rfl

theorem Valid.withTombstone (tombstone : CancellationTombstone) :
    (s.withTombstone tombstone).Valid :=
  { h with fenced := fun ht => by cases ht }

/-- A tombstone goes when its Run is settled, or acknowledged without a record. -/
theorem Valid.withdrawTombstone
    (hdone : s.Settled ∨ s.record = none ∧ cancellationTombstoneStatus ∈ s.sent) :
    s.withdrawTombstone.Valid :=
  { h with
    fenced := fun _ => by
      rcases hdone with hsettled | hack
      · exact .inr hsettled
      left
      intro f hf
      rw [RunSlot.withdrawTombstone, if_pos hack] at hf
      obtain ⟨_, _, rfl⟩ := List.mem_map.mp hf
      rfl }

theorem Valid.withSent
    (hframe : frame = cancellationTombstoneStatus ∨ ∃ r, s.record = some r ∧ r.Backs frame) :
    (s.withSent frame).Valid :=
  { h with
    backed := fun f hf => by
      rcases List.mem_append.mp hf with hf | hf
      · exact h.backed f hf
      · rw [List.mem_singleton.mp hf]
        exact hframe }

theorem Valid.withChecked (checked : List Fence) : ({ s with checked } : RunSlot).Valid :=
  { h with }

theorem Valid.withExplicitCancel (explicitCancel : Bool) :
    ({ s with explicitCancel } : RunSlot).Valid :=
  { h with }

/-- The first start of the Runtime, checked against acknowledged fences only. -/
theorem Valid.start (request : RunRequest) (hr : s.record = some r) (hstate : r.state ≠ .preparing)
    (hfirst : s.starts = []) (hchecked : ∀ f ∈ s.checked, f.acknowledged = true) :
    ({ s with starts := s.starts ++ [⟨request, s.checked⟩] } : RunSlot).Valid :=
  { h with
    preparing := fun r' hr' hp => by
      change s.record = some r' at hr'
      rw [hr] at hr'
      cases hr'
      exact absurd hp hstate
    unrecorded := fun hnone => by
      change s.record = none at hnone
      rw [hr] at hnone
      cases hnone
    once := by simp [hfirst]
    started := fun start hstart => by
      simp only [hfirst, List.nil_append, List.mem_singleton] at hstart
      rw [hstart]
      exact hchecked }

end

end RunSlot

end ConveneWire.Bridge
