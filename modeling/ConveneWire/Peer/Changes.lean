import ConveneWire.Lib.Pool
import ConveneWire.Peer.Execution

/-! # What one action can do to the journal of a Peer Run

`FilesStep` and `TransportStep` say what a call of the journal can do to the
files, whatever it reports. `Change` is the step an execution promises to all
others, and every routine of `Peer.Execution` keeps that promise. -/

namespace ConveneWire.Peer

/-! ## The files of a Run -/

/-- Each file is written once: a start only while there is no outcome, an outcome only
if it fits the start. -/
inductive FilesStep (a : RunFiles) : RunFiles → Prop
  | same : FilesStep a a
  | received (received : ReceivedRun) (hnone : a.received = none) :
      FilesStep a { a with received := some received }
  | started (started : StartedRun) (hnone : a.started = none) (hopen : a.outcome = none) :
      FilesStep a { a with started := some started }
  | finished (finished : FinishedRun) (hopen : a.outcome = none)
      (hvalid : validRunOutcome finished.outcome a.started.isSome = true) :
      FilesStep a { a with outcome := some finished }

/-- The outcome on file. -/
def RunFiles.result (files : RunFiles) : Option RunOutcome := files.outcome.map (·.outcome)

variable {a b : RunFiles} {outcome : RunOutcome}

theorem FilesStep.received_kept (h : FilesStep a b) {received : ReceivedRun}
    (ha : a.received = some received) : b.received = some received := by
  cases h with
  | received _ hnone =>
    rw [hnone] at ha
    cases ha
  | same | started | finished => exact ha

theorem FilesStep.started_kept (h : FilesStep a b) {started : StartedRun}
    (ha : a.started = some started) : b.started = some started := by
  cases h with
  | started _ hnone =>
    rw [hnone] at ha
    cases ha
  | same | received | finished => exact ha

theorem FilesStep.outcome_kept (h : FilesStep a b) {finished : FinishedRun}
    (ha : a.outcome = some finished) : b.outcome = some finished := by
  cases h with
  | finished _ hopen =>
    rw [hopen] at ha
    cases ha
  | same | received | started => exact ha

theorem FilesStep.result_kept (h : FilesStep a b) (ha : a.result = some outcome) :
    b.result = some outcome := by
  obtain ⟨finished, hfinished, rfl⟩ := Option.map_eq_some_iff.mp ha
  simp [RunFiles.result, h.outcome_kept hfinished]

/-! ## Calls of the run journal -/

variable {p : Partition} {runId : String}

/-- A record shows what the files hold. -/
structure RunRecord.Shows (record : RunRecord) (files : RunFiles) : Prop where
  startedAt : record.startedAt = files.started.map (·.startedAt)
  outcome : record.outcome = files.result

variable {event : PeerRunEvent} {files files : RunFiles} {record : RunRecord}

theorem RunFiles.read_shows (h : files.read p runId = .ok record) : record.Shows files := by
  unfold RunFiles.read at h
  split at h
  · cases h
  split at h
  · cases h
  split at h
  · cases h
    exact ⟨rfl, rfl⟩
  · cases h

/-- Only a missing directory is reported as missing. -/
theorem RunFiles.read_received (h : files.read p runId = .error errNotExist) :
    files.received = none := by
  have hne : errStore ≠ errNotExist := by decide
  unfold RunFiles.read at h
  split at h
  · assumption
  split at h
  · injection h with h
    exact absurd h hne
  split at h
  · cases h
  · injection h with h
    exact absurd h hne

namespace RunJournal

variable {j : RunJournal}

theorem load_files : (j.load p runId).2.files = j.files := by
  unfold load
  split
  · rfl
  · split <;> rfl

variable {j' : RunJournal}

theorem load_kept {result : Except String RunRecord} (h : j.load p runId = (result, j')) :
    j'.files = j.files := by
  rw [← @load_files p runId j, h]

theorem load_shows (h : j.load p runId = (.ok record, j')) : record.Shows j.files := by
  unfold load at h
  split at h
  · cases h
  rename_i record' hread
  split at h
  · cases h
    exact RunFiles.read_shows hread
  · cases h

/-- What a write leaves, and what it reports when it succeeds. -/
theorem store_spec (io : Io) (files : RunFiles) :
    ((j.store p runId io files).2.files = j.files ∨ (j.store p runId io files).2.files = files) ∧
    ∀ record, (j.store p runId io files).1 = .ok record →
      (j.store p runId io files).2.files = files ∧ record.Shows files := by
  unfold store
  split
  · exact ⟨.inl rfl, fun _ h => by cases h⟩
  · exact ⟨.inr rfl, fun _ h => by cases h⟩
  · rw [load_files]
    exact ⟨.inr rfl, fun record h => ⟨rfl, load_shows (Prod.ext h rfl)⟩⟩

variable {io : Io}

/-- A write that is allowed is a step whether or not it succeeds. -/
theorem store_step (h : FilesStep j.files files) :
    FilesStep j.files (j.store p runId io files).2.files := by
  rcases (store_spec (p := p) (j := j) io files).1 with hs | hs
  · rw [hs]
    exact .same
  · rw [hs]
    exact h

theorem load_missing (h : j.load p runId = (.error errNotExist, j')) : j.files.received = none := by
  have hne : errStore ≠ errNotExist := by decide
  unfold load at h
  split at h
  · rename_i e hread
    simp only [Prod.mk.injEq, Except.error.injEq] at h
    obtain ⟨h, -⟩ := h
    split at h
    · exact absurd h hne
    · subst h
      exact RunFiles.read_received hread
  · split at h
    · cases h
    · simp only [Prod.mk.injEq, Except.error.injEq] at h
      exact absurd h.1 hne

/-! Each call is a step of the files, and a record it returns shows what they hold then. -/

theorem refused {e : String} {P : RunRecord → Prop} (h : j'.files = j.files) :
    FilesStep j.files j'.files ∧
      ∀ record, (Except.error e : Except String RunRecord) = .ok record → P record :=
  ⟨h ▸ .same, fun _ h => by cases h⟩

theorem returned {j' : RunJournal} (h : j'.files = j.files) (hshows : record.Shows j.files) :
    FilesStep j.files j'.files ∧
      ∀ record', (Except.ok record : Except String RunRecord) = .ok record' →
        record'.Shows j'.files := by
  refine ⟨h ▸ .same, fun record' heq => ?_⟩
  cases heq
  rw [h]
  exact hshows

theorem stored (h : FilesStep j.files files) :
    FilesStep j.files (j.store p runId io files).2.files ∧
      ∀ record, (j.store p runId io files).1 = .ok record →
        record.Shows (j.store p runId io files).2.files := by
  refine ⟨store_step h, fun record hrecord => ?_⟩
  obtain ⟨hafter, hshows⟩ := (store_spec io _).2 record hrecord
  rw [hafter]
  exact hshows

theorem receive_spec {raw : String} {settlement : Option Capability} {fresh : Bool} :
    FilesStep j.files (j.receive p runId raw settlement fresh io).2.files ∧
    ∀ record, (j.receive p runId raw settlement fresh io).1 = .ok record →
      record.Shows (j.receive p runId raw settlement fresh io).2.files := by
  unfold receive
  split
  · exact refused rfl
  split
  · exact refused rfl
  split
  · rename_i prior j' hload
    have hfiles := load_kept hload
    have hshows : prior.Shows j.files := load_shows hload
    split
    · exact returned hfiles hshows
    · exact refused hfiles
  rename_i e j' hload
  have hfiles := load_kept hload
  split
  · exact refused hfiles
  rename_i he
  split
  · split
    · exact refused hfiles
    have hnone : j'.files.received = none := by
      rw [hfiles]
      rw [Decidable.not_not.mp he] at hload
      exact load_missing hload
    rw [← hfiles]
    exact stored (.received ⟨io.now, raw, settlement⟩ hnone)
  · exact refused hfiles

theorem receiveDelivery_spec {delivery : RunDelivery} :
    FilesStep j.files (j.receiveDelivery p runId delivery io).2.files ∧
    ∀ record, (j.receiveDelivery p runId delivery io).1 = .ok record →
      record.Shows (j.receiveDelivery p runId delivery io).2.files := by
  unfold receiveDelivery
  split
  · exact refused rfl
  · exact receive_spec

theorem begin_spec :
    FilesStep j.files (j.begin p runId io).2.files ∧ ∀ record, (j.begin p runId io).1 = .ok record →
      j.files.started = none ∧ (j.begin p runId io).2.files.started.isSome := by
  unfold begin
  split
  · exact refused rfl
  split
  · rename_i e j' hload
    exact refused (load_kept hload)
  rename_i record j' hload
  have hfiles := load_kept hload
  have hshows : record.Shows j.files := load_shows hload
  split
  · exact refused hfiles
  rename_i hfree
  split
  · exact refused hfiles
  split
  · exact refused hfiles
  -- neither started nor finished
  rw [not_or, hshows.startedAt, hshows.outcome, RunFiles.result] at hfree
  simp only [Option.isSome_map, Bool.not_eq_true, Option.isSome_eq_false_iff,
    Option.isNone_iff_eq_none] at hfree
  obtain ⟨hstarted, houtcome⟩ := hfree
  rw [← hfiles] at hstarted houtcome ⊢
  refine ⟨store_step (.started _ hstarted houtcome), fun record h => ⟨hstarted, ?_⟩⟩
  rw [((store_spec io _).2 record h).1]
  rfl

theorem finish_spec : FilesStep j.files (j.finish p runId outcome io).2.files ∧
    ∀ record, (j.finish p runId outcome io).1 = .ok record →
      record.Shows (j.finish p runId outcome io).2.files := by
  unfold finish
  split
  · exact refused rfl
  split
  · rename_i e j' hload
    exact refused (load_kept hload)
  rename_i record j' hload
  have hfiles := load_kept hload
  have hshows : record.Shows j.files := load_shows hload
  split
  · split
    · exact returned hfiles hshows
    · exact refused hfiles
  rename_i hnone
  split
  · rename_i hvalid
    rw [hshows.outcome, RunFiles.result, Option.map_eq_none_iff, ← hfiles] at hnone
    rw [hshows.startedAt, Option.isSome_map, ← hfiles] at hvalid
    rw [← hfiles]
    exact stored (.finished _ hnone hvalid.1)
  · exact refused hfiles

end RunJournal

/-! ## The transport journal -/

/-- Statuses an execution holds back until its processes have stopped. -/
def EventType.final : EventType → Bool
  | .status .completed | .status .failed | .status .canceled | .status .inputRequired => true
  | .status .delivered | .status .working | .reply | .output | .activity => false

/-- What the Host can come to see of a transport journal. -/
structure View where
  events : List PeerRunEvent
  settlement : Option PeerSettlement

def TransportState.view (state : TransportState) : View := ⟨state.events, state.settlement⟩

def Participant.view (s : Participant) : View :=
  match s.transport with
  | none => ⟨[], none⟩
  | some state => state.view

/-- One more event, final only if it is the outcome's, or the settlement of the outcome. -/
inductive ViewStep (files : RunFiles) (a : View) : View → Prop
  | same : ViewStep files a a
  | appended (event : PeerRunEvent) (hnext : event.sequence = a.events.length + 1)
      (hopen : a.settlement = none)
      (hfinal : event.type.final = false ∨
        ∃ outcome, files.result = some outcome ∧ outcome.terminal = some event) :
      ViewStep files a ⟨a.events ++ [event], none⟩
  | settled (settlement : PeerSettlement) (outcome : RunOutcome) (hopen : a.settlement = none)
      (houtcome : files.result = some outcome) (hstate : settlement.state = outcome.state) :
      ViewStep files a ⟨a.events, some settlement⟩

theorem ViewStep.events_kept {a b : View} (h : ViewStep files a b) (ha : event ∈ a.events) :
    event ∈ b.events := by
  cases h with
  | appended => exact List.mem_append_left _ ha
  | same | settled => exact ha

theorem ViewStep.settlement_kept {a b : View} (h : ViewStep files a b) {settlement : PeerSettlement}
    (ha : a.settlement = some settlement) : b.settlement = some settlement := by
  cases h with
  | same => exact ha
  | appended _ _ hopen | settled _ _ hopen =>
    rw [hopen] at ha
    cases ha

variable {v : Verifier} {record : RunRecord} {capability : Capability} {state next : TransportState}
  {s s' : Participant} {result : Except String TransportState} {io : Io}

theorem appendEvent_ok (h : appendEvent p v record capability event state = .ok next) :
    next = state ∨ event.sequence = state.events.length + 1 ∧ state.settlement = none ∧
      next = { state with events := state.events ++ [event] } := by
  unfold appendEvent at h
  split at h
  · cases h
  rename_i hrange
  split at h
  · split at h
    · cases h
      exact .inl rfl
    · cases h
  rename_i hnew
  split at h
  · cases h
  rename_i hopen
  simp only at h
  split at h
  · cases h
    refine .inr ⟨by omega, ?_, rfl⟩
    simpa using hopen
  · cases h

theorem appendEvent_step {event : PeerRunEvent} (hfinal : event.type.final = false ∨
      ∃ outcome, files.result = some outcome ∧ outcome.terminal = some event)
    (h : appendEvent p v record capability event state = .ok next) :
    ViewStep files state.view next.view := by
  rcases appendEvent_ok h with rfl | ⟨hnext, hopen, rfl⟩
  · exact .same
  · have hstep := ViewStep.appended (a := state.view) event hnext hopen hfinal
    rw [← hopen] at hstep
    exact hstep

theorem acknowledgeEvent_step {receipt : RunEventReceipt}
    (h : acknowledgeEvent p v record capability receipt state = .ok next) :
    ViewStep files state.view next.view := by
  unfold acknowledgeEvent at h
  simp only at h
  split at h
  · cases h
  split at h
  · cases h
    exact .same
  split at h
  · cases h
    exact .same
  · cases h

theorem prepareSettlement_step {operationId : String} (hshows : record.Shows files)
    (h : prepareSettlement p v record capability operationId state = .ok next) :
    ViewStep files state.view next.view := by
  unfold prepareSettlement at h
  split at h
  · cases h
  · cases h
    exact .same
  rename_i outcome houtcome hopen
  simp only at h
  split at h
  · cases h
    rw [hshows.outcome] at houtcome
    exact .settled _ outcome hopen houtcome rfl
  · cases h

theorem acknowledgeSettlement_step {receipt : RunSettlementReceipt}
    (h : acknowledgeSettlement p v record capability receipt state = .ok next) :
    ViewStep files state.view next.view := by
  unfold acknowledgeSettlement at h
  simp only at h
  split at h
  · cases h
  split at h
  · cases h
    exact .same
  split at h
  · cases h
    exact .same
  · cases h

/-- Reading changes what is remembered only, and the state read is the one on file. -/
theorem Participant.readTransport_spec
    {result : Except String (RunRecord × Capability × TransportState)}
    (h : s.readTransport p v runId io = (result, s')) :
    (∃ runs transportObserved, runs.files = s.runs.files ∧
      s' = { s with runs, transportObserved }) ∧
    ∀ {record capability state}, result = .ok (record, capability, state) →
      record.Shows s.runs.files ∧ state.view = s.view := by
  unfold readTransport at h
  split at h
  · cases h
    exact ⟨⟨s.runs, s.transportObserved, rfl, rfl⟩, fun h => by cases h⟩
  split at h
  · rename_i e runs hload
    cases h
    exact ⟨⟨runs, s.transportObserved, RunJournal.load_kept hload, rfl⟩, fun h => by cases h⟩
  rename_i record runs hload
  have hfiles := RunJournal.load_kept hload
  have hshows := RunJournal.load_shows hload
  split at h
  · cases h
    exact ⟨⟨runs, s.transportObserved, hfiles, rfl⟩, fun h => by cases h⟩
  · rename_i capability _ hnone
    split at h
    · cases h
      exact ⟨⟨runs, s.transportObserved, hfiles, rfl⟩, fun h => by cases h⟩
    cases h
    refine ⟨⟨runs, s.transportObserved, hfiles, rfl⟩, fun h => ?_⟩
    cases h
    exact ⟨hshows, by rw [Participant.view, hnone]; rfl⟩
  · rename_i capability state _ hsome
    split at h
    · cases h
      refine ⟨⟨runs, some state, hfiles, rfl⟩, fun h => ?_⟩
      cases h
      exact ⟨hshows, by rw [Participant.view, hsome]⟩
    · cases h
      exact ⟨⟨runs, s.transportObserved, hfiles, rfl⟩, fun h => by cases h⟩

theorem Participant.writeTransport_spec (h : s.writeTransport io next = (result, s')) :
    (∃ transport transportObserved, s' = { s with transport, transportObserved }) ∧
    (s'.view = s.view ∨ s'.view = next.view) ∧
    ∀ {state}, result = .ok state → state = next ∧ s'.view = next.view := by
  unfold writeTransport at h
  split at h <;> cases h
  · exact ⟨⟨_, _, rfl⟩, .inl rfl, fun h => by cases h⟩
  · exact ⟨⟨_, _, rfl⟩, .inr rfl, fun h => by cases h⟩
  · refine ⟨⟨_, _, rfl⟩, .inr rfl, fun h => ?_⟩
    cases h
    exact ⟨rfl, rfl⟩

/-- What a call does to the journal, whatever it reports. -/
theorem Participant.callTransport_spec
    {f : RunRecord → Capability → TransportState → Except String TransportState}
    (hf : ∀ {record capability state next}, record.Shows s.runs.files →
      f record capability state = .ok next → ViewStep s.runs.files state.view next.view)
    (h : s.callTransport p v runId io f = (result, s')) :
    (∃ runs transport transportObserved, runs.files = s.runs.files ∧
      s' = { s with runs, transport, transportObserved }) ∧
    ViewStep s.runs.files s.view s'.view ∧ ∀ {state}, result = .ok state → s'.view = state.view := by
  unfold callTransport at h
  split at h
  · rename_i e t hread
    cases h
    obtain ⟨⟨runs, observed, hfiles, rfl⟩, -⟩ := Participant.readTransport_spec hread
    exact ⟨⟨runs, s.transport, observed, hfiles, rfl⟩, .same, fun h => by cases h⟩
  rename_i record capability state t hread
  obtain ⟨⟨runs, observed, hfiles, rfl⟩, hstate⟩ := Participant.readTransport_spec hread
  obtain ⟨hshows, hview⟩ := hstate rfl
  split at h
  · cases h
    exact ⟨⟨runs, s.transport, observed, hfiles, rfl⟩, .same, fun h => by cases h⟩
  rename_i next hnext
  have hstep := hf hshows hnext
  rw [hview] at hstep
  split at h
  · cases h
    refine ⟨⟨runs, s.transport, observed, hfiles, rfl⟩, .same, fun h => ?_⟩
    cases h
    exact hview.symm
  obtain ⟨⟨transport, observed', rfl⟩, hviews, hok⟩ := Participant.writeTransport_spec h
  refine ⟨⟨runs, transport, observed', hfiles, rfl⟩, ?_, fun h => ?_⟩
  · rcases hviews with hview' | hview'
    · rw [hview']
      exact .same
    · rw [hview']
      exact hstep
  · obtain ⟨rfl, hview'⟩ := hok h
    exact hview'

end ConveneWire.Peer
