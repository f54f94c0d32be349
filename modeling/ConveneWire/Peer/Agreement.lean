import ConveneWire.Run.EventLog
import ConveneWire.Peer.AtMostOnce
import ConveneWire.Peer.Host

/-! # The two logs of a Peer Run agree

The participant journals events and sends them, over and over and in any order;
the Host stores what it accepts and may end the Run itself at any time. The Host
can only receive what the participant sent. -/

namespace ConveneWire.Peer

open Concurrent (Pool)
open OrdinalLog (Consecutive)
open Relation (ReflTransGen)
open Run (Cell Database EventFilter RunId RunState RuntimeEvent RuntimeStatus RunEventRecord Time
  applyRuntimeEvent)
open Transactional (Transaction bind_ok)
open Transition (Preserved)
open PeerRunEvent

/-! ## The system -/

/-- Every other service stores nothing for a Peer Run but a status that ends it. -/
def endsOnly (runId : RunId) : EventFilter := fun r event => r = runId → event.isTerminal = true

/-- The calls the Host serves while the participant is in `s`. -/
inductive HostStep (c : Carrier) (runId : RunId) (s : Participant) (h : Host) : Host → Prop
  | dispatch {h'} (checks : Checks) (hcall : dispatch runId checks h = .ok ((), h')) :
      HostStep c runId s h h'
  | poll {h'} (checks : Checks) (fresh : PeerDelivery)
      (hcall : poll runId checks fresh h = .ok ((), h')) : HostStep c runId s h h'
  | event {h'} (checks : Checks) (capabilityId : String) (published : PeerRunEvent)
      (hsent : published ∈ s.sent)
      (hcall : event c runId checks capabilityId published h = .ok ((), h')) :
      HostStep c runId s h h'
  | settle {h'} (checks : Checks) (settlement : PeerSettlement)
      (hsent : settlement ∈ s.settlements)
      (hcall : settleRun c runId checks settlement h = .ok ((), h')) : HostStep c runId s h h'
  | cancel {h'} (now : Time) (hcall : cancelKnown runId .requester now h = .ok ((), h')) :
      HostStep c runId s h h'
  | sweep {h'} (checks : Checks) (hcall : sweepRun runId checks h = .ok ((), h')) :
      HostStep c runId s h h'
  | other {db : Database} (hdb : h.db.Step (endsOnly runId) db) :
      HostStep c runId s h { h with db }

structure System where
  participant : Pool Participant Answer
  host : Host

/-- Both sides of a Run, which they know by different identifiers. -/
structure Link where
  partition : Partition
  verifier : Verifier
  peerRunId : String
  carrier : Carrier
  runId : RunId

inductive System.Step (l : Link) : System → System → Prop
  | participant {pool pool' host} (h : Participant.Step l.partition l.verifier l.peerRunId pool pool') :
      System.Step l ⟨pool, host⟩ ⟨pool', host⟩
  | host {pool host host'} (h : HostStep l.carrier l.runId pool.shared host host') :
      System.Step l ⟨pool, host⟩ ⟨pool, host'⟩

/-- The Run is queued on the Host and unknown to the participant. -/
structure Host.Queued (runId : RunId) (h : Host) : Prop where
  run : ∃ run, h.db.getRun runId = some run ∧ run.state = .queued ∧ run.lastSequence = 0 ∧
    run.terminalAt = none
  events : h.db.listEvents runId = []
  eventRows : h.eventRows = []

def System.Reachable (l : Link) (s : System) : Prop :=
  ∃ host, Host.Queued l.runId host ∧
    ReflTransGen (System.Step l) ⟨⟨.empty, []⟩, host⟩ s

/-- The state the Host has the Run in. -/
def Host.state (h : Host) (runId : RunId) : Option RunState := (h.db.getRun runId).map (·.state)

/-- The rows the participant published are counted by `peer_run_events`; the others are the
Host's own. -/
def Host.published (h : Host) (runId : RunId) : List RunEventRecord :=
  (h.db.listEvents runId).take h.eventRows.length

def Host.ended (h : Host) (runId : RunId) : List RunEventRecord :=
  (h.db.listEvents runId).drop h.eventRows.length

/-- What both logs record of an event besides its contents. -/
inductive EventKind where
  | status (status : RuntimeStatus) | reply | output | activity
  deriving DecidableEq, Repr

def PeerRunEvent.shape (event : PeerRunEvent) : Int × EventKind :=
  (event.sequence, match event.type with
    | .status status => .status status.runtime
    | .reply => .reply
    | .output => .output
    | .activity => .activity)

def storedShape (row : RunEventRecord) : Int × EventKind :=
  (row.sequence, match row.event with
    | .status _ status _ _ _ => .status status
    | .reply .. => .reply
    | .output .. => .output
    | .activity .. => .activity)

/-! ## What the participant can send -/

/-- The journal is numbered, its final events and its settlement are those of the outcome on
file, and nothing else was sent. -/
structure Told (s : Participant) : Prop where
  numbered : Consecutive PeerRunEvent.sequence s.view.events
  final : ∀ event ∈ s.view.events, event.type.final = true →
    ∃ outcome, s.runs.files.result = some outcome ∧ outcome.terminal = some event
  settled : ∀ settlement, s.view.settlement = some settlement →
    ∃ outcome, s.runs.files.result = some outcome ∧ settlement.state = outcome.state
  sent : ∀ event ∈ s.sent, event ∈ s.view.events
  settlements : ∀ settlement ∈ s.settlements, s.view.settlement = some settlement

theorem Told.empty : Told .empty where
  numbered := .nil
  final := fun _ h => by cases h
  settled := fun _ h => by cases h
  sent := fun _ h => by cases h
  settlements := fun _ h => by cases h

/-- What `Told` says of the journal itself. -/
structure Backed (files : RunFiles) (view : View) : Prop where
  numbered : Consecutive sequence view.events
  final : ∀ event ∈ view.events, event.type.final = true →
    ∃ outcome, files.result = some outcome ∧ outcome.terminal = some event
  settled : ∀ settlement, view.settlement = some settlement →
    ∃ outcome, files.result = some outcome ∧ settlement.state = outcome.state

theorem ViewStep.backed {files files' : RunFiles} {a b : View} (h : ViewStep files a b)
    (hfiles : FilesStep files files') (hbacked : Backed files a) : Backed files' b := by
  have hkept : Backed files' a := by
    refine ⟨hbacked.numbered, fun event hevent htype => ?_, fun settlement hsettlement => ?_⟩
    · obtain ⟨outcome, hresult, hterminal⟩ := hbacked.final event hevent htype
      exact ⟨outcome, hfiles.result_kept hresult, hterminal⟩
    · obtain ⟨outcome, hresult, hstate⟩ := hbacked.settled settlement hsettlement
      exact ⟨outcome, hfiles.result_kept hresult, hstate⟩
  cases h with
  | same => exact hkept
  | appended event hnext hopen hnew =>
    refine ⟨hkept.numbered.snoc (by simpa using hnext), ?_, fun _ h => by cases h⟩
    intro event' hevent' htype
    rcases List.mem_append.mp hevent' with hevent' | hevent'
    · exact hkept.final event' hevent' htype
    obtain rfl := List.mem_singleton.mp hevent'
    rcases hnew with hnew | ⟨outcome, hresult, hterminal⟩
    · rw [hnew] at htype
      cases htype
    · exact ⟨outcome, hfiles.result_kept hresult, hterminal⟩
  | settled settlement outcome hopen hresult hstate =>
    refine { hkept with settled := fun settlement' hsettlement' => ?_ }
    cases hsettlement'
    exact ⟨outcome, hfiles.result_kept hresult, hstate⟩

theorem Told.stable : Stable Told := by
  intro n s t hchange h
  obtain ⟨hnumbered, hfinal, hsettled⟩ :=
    hchange.view.backed hchange.files ⟨h.numbered, h.final, h.settled⟩
  refine ⟨hnumbered, hfinal, hsettled, ?_, ?_⟩
  · intro event hevent
    have hkept : event ∈ s.view.events := by
      rcases hchange.sent with hs | ⟨sent, hsent, hs⟩ <;> rw [hs] at hevent
      · exact h.sent event hevent
      · rcases List.mem_append.mp hevent with hevent | hevent
        · exact h.sent event hevent
        · obtain rfl := List.mem_singleton.mp hevent
          exact hsent
    exact hchange.view.events_kept hkept
  · intro settlement hsettlement
    have hkept : s.view.settlement = some settlement := by
      rcases hchange.settlements with hs | ⟨retained, hretained, hs⟩ <;> rw [hs] at hsettlement
      · exact h.settlements settlement hsettlement
      · rcases List.mem_append.mp hsettlement with hsettlement | hsettlement
        · exact h.settlements settlement hsettlement
        · obtain rfl := List.mem_singleton.mp hsettlement
          exact hretained
    exact hchange.view.settlement_kept hkept

/-- The journal of events only grows. -/
theorem ViewStep.events_prefix {files : RunFiles} {a b : View} (h : ViewStep files a b) :
    a.events <+: b.events := by
  cases h with
  | same | settled => exact List.prefix_refl _
  | appended event => exact List.prefix_append _ _

/-! ## What the Host can do to the rows of the Run -/

variable {c : Carrier} {runId : RunId} {s : Participant} {h h' : Host} {checks : Checks}
  {applied : Run.AppliedRunEvent}

inductive HostChange (c : Carrier) (runId : RunId) (s : Participant) (h h' : Host) : Prop
  /-- Nothing, or the Host ends the Run. -/
  | ended (hdb : h.db.Step (endsOnly runId) h'.db) (hrows : h'.eventRows = h.eventRows)
  /-- The next event of the participant reaches a live Run. -/
  | published (event : PeerRunEvent) (run : Run.RunRecord) (now : Time) (hsent : event ∈ s.sent)
      (hrun : h.db.getRun runId = some run) (hlive : run.state.isTerminal = false)
      (hseq : event.sequence = run.lastSequence + 1)
      (hcell : h'.db.cell runId = (h.db.cell runId).append run (c.sanitize event) now)
      (hrows : h'.eventRows = h.eventRows ++ [(event.sequence, c.eventDigest event)])

theorem HostChange.refl : HostChange c runId s h h := .ended (.refl _) rfl

theorem onDatabase_ok {α : Type} {t : Transaction Database α} {a : α}
    (hcall : onDatabase t h = .ok (a, h')) : ∃ db, t h.db = .ok (a, db) ∧ h' = { h with db } := by
  obtain ⟨⟨a', db⟩, ht, hcall⟩ := bind_ok hcall
  cases hcall
  exact ⟨db, ht, rfl⟩

/-- A status the Host stores by itself. -/
theorem applyEnd_change {status : RuntimeStatus} {sequence : Int} {now : Time}
    (hstatus : status.toState.isTerminal = true)
    (hcall : onDatabase (applyRuntimeEvent runId (.plainStatus sequence status) now) h =
      .ok (applied, h')) : HostChange c runId s h h' := by
  obtain ⟨db, happly, rfl⟩ := onDatabase_ok hcall
  have hends : endsOnly runId runId (.plainStatus sequence status) := fun _ => hstatus
  exact .ended (Run.applyRuntimeEvent_step hends happly) rfl

variable {now : Time} {cause : CancellationCause}

theorem cancelKnown_change
    (hcall : cancelKnown runId cause now h = .ok ((), h')) : HostChange c runId s h h' := by
  unfold cancelKnown at hcall
  split at hcall
  · cases hcall
  split at hcall
  · cases hcall
    exact .refl
  split at hcall
  · obtain ⟨⟨applied, stored⟩, happly, hcall⟩ := bind_ok hcall
    cases hcall
    exact applyEnd_change (by cases cause <;> rfl) happly
  · cases hcall
    exact .ended (.refl _) rfl

theorem whileCurrent_change {next : Transaction Host Unit}
    (hnext : ∀ {h'}, next h = .ok ((), h') → HostChange c runId s h h')
    (hcall : whileCurrent runId checks cause next h = .ok ((), h')) : HostChange c runId s h h' := by
  unfold whileCurrent at hcall
  split at hcall
  · exact hnext hcall
  split at hcall
  · exact cancelKnown_change hcall
  · cases hcall

theorem dispatch_change (hcall : dispatch runId checks h = .ok ((), h')) :
    HostChange c runId s h h' := by
  refine whileCurrent_change (fun hnext => ?_) hcall
  cases hnext
  exact .refl

theorem poll_change {fresh : PeerDelivery} (hcall : poll runId checks fresh h = .ok ((), h')) :
    HostChange c runId s h h' := by
  obtain ⟨_, -, hcall⟩ := bind_ok hcall
  refine whileCurrent_change (fun hnext => ?_) hcall
  unfold getOrCreate at hnext
  split at hnext
  · obtain ⟨_, -, hnext⟩ := bind_ok hnext
    cases hnext
    exact .refl
  · cases hnext
    exact .ended (.refl _) rfl

theorem sweepRun_change (hcall : sweepRun runId checks h = .ok ((), h')) :
    HostChange c runId s h h' := by
  unfold sweepRun at hcall
  split at hcall
  · cases hcall
    exact .refl
  split at hcall
  · cases hcall
    exact .refl
  split at hcall
  · split at hcall
    · obtain ⟨⟨applied, stored⟩, happly, hcall⟩ := bind_ok hcall
      cases hcall
      exact applyEnd_change rfl happly
    · cases hcall
      exact .refl
  · refine whileCurrent_change (fun hnext => ?_) hcall
    cases hnext
    exact .refl

/-- A settlement that passes its schema ends the Run. -/
theorem settledStatus_isTerminal {state : OutcomeState} {cancellation : Option PeerCancellation}
    (hstate : state ≠ .inputRequired) :
    (settledStatus state cancellation).toState.isTerminal = true := by
  cases state with
  | inputRequired => exact absurd rfl hstate
  | deliveryDenied =>
    rcases cancellation with _ | ⟨cause, _⟩
    · rfl
    · cases cause <;> rfl
  | completed | failed | outcomeUnknown | canceled | expired => rfl

variable {settlement : PeerSettlement} {state : RunState}

/-- What an accepted settlement does. -/
theorem settleRun_cases (hcall : settleRun c runId checks settlement h = .ok ((), h')) :
    settlement.state ≠ .inputRequired ∧ (h.settlement.isSome ∧ h' = h ∨
      h.settlement = none ∧ settleNew runId settlement checks.now h = .ok ((), h')) := by
  unfold settleRun at hcall
  split at hcall
  · cases hcall
  rename_i hclosed
  rw [not_or, Bool.not_eq_false] at hclosed
  refine ⟨?_, ?_⟩
  · have := hclosed.1
    unfold PeerSettlement.closed at this
    simp only [Bool.and_eq_true, decide_eq_true_eq] at this
    exact this.1.2
  obtain ⟨_, -, hcall⟩ := bind_ok hcall
  split at hcall
  · cases hcall
  split at hcall
  · cases hcall
  split at hcall
  · cases hcall
  obtain ⟨_, -, hcall⟩ := bind_ok hcall
  split at hcall
  · cases hcall
  split at hcall
  · rename_i prior hprior
    split at hcall
    · cases hcall
    · cases hcall
      exact .inl ⟨by rw [hprior]; rfl, rfl⟩
  · rename_i hnone
    exact .inr ⟨hnone, hcall⟩

/-- The first settlement ends a Run that is live. -/
theorem settleNew_cases (hcall : settleNew runId settlement now h = .ok ((), h')) :
    ∃ run, h.db.getRun runId = some run ∧
      (run.state.isTerminal = true ∧ h' = { h with settlement := some settlement } ∨
        run.state.isTerminal = false ∧ ∃ applied db, applyRuntimeEvent runId
          (.plainStatus (run.lastSequence + 1) (settledStatus settlement.state h.cancellation)) now
          h.db = .ok (applied, db) ∧ h' = { h with db, settlement := some settlement }) := by
  unfold settleNew at hcall
  split at hcall
  · cases hcall
  rename_i run hrun
  refine ⟨run, hrun, ?_⟩
  simp only at hcall
  split at hcall
  · rename_i hended
    cases hcall
    exact .inl ⟨hended, rfl⟩
  rename_i hlive
  obtain ⟨⟨applied, stored⟩, happly, hcall⟩ := bind_ok hcall
  cases hcall
  obtain ⟨db, hdb, rfl⟩ := onDatabase_ok happly
  exact .inr ⟨by simpa using hlive, applied, db, hdb, rfl⟩

theorem settleRun_change (hcall : settleRun c runId checks settlement h = .ok ((), h')) :
    HostChange c runId s h h' := by
  obtain ⟨hstate, ⟨-, rfl⟩ | ⟨-, hnew⟩⟩ := settleRun_cases hcall
  · exact .refl
  obtain ⟨run, -, ⟨-, rfl⟩ | ⟨-, applied, db, happly, rfl⟩⟩ := settleNew_cases hnew
  · exact .ended (.refl _) rfl
  · have hends : endsOnly runId runId (.plainStatus (run.lastSequence + 1)
        (settledStatus settlement.state h.cancellation)) := fun _ => settledStatus_isTerminal hstate
    exact .ended (Run.applyRuntimeEvent_step hends happly) rfl

/-- An event that was applied is appended to the rows of its Run, a reply too. -/
theorem applyPublished_cell {event : RuntimeEvent} {db db' : Database}
    (hcall : applyPublished runId event now db = .ok (applied, db'))
    (happlied : applied.applied = true) :
    ∃ run, db.getRun runId = some run ∧ run.state.isTerminal = false ∧
      event.sequence = run.lastSequence + 1 ∧
      db'.cell runId = (db.cell runId).append run event now := by
  have happly : ∀ {event applied db'}, applyRuntimeEvent runId event now db = .ok (applied, db') →
      applied.applied = true → ∃ run, db.getRun runId = some run ∧ run.state.isTerminal = false ∧
        event.sequence = run.lastSequence + 1 ∧
        db'.cell runId = (db.cell runId).append run event now := by
    intro event applied db' hcall happlied
    obtain ⟨run, hrun, ⟨rfl, -⟩ | ⟨-, hseq, hlive, hstored, -⟩⟩ := Run.applyRuntimeEvent_cases hcall
    · cases happlied
    · obtain rfl : run.runId = runId := Table.lookup_key hrun
      exact ⟨run, hrun, hlive, hseq, Run.storeEvent_cell hrun hstored⟩
  unfold applyPublished at hcall
  split at hcall
  · obtain ⟨⟨first, stored⟩, hstored, hcall⟩ := bind_ok hcall
    dsimp only at hcall
    split at hcall
    · rename_i hfirst
      obtain ⟨⟨messageId, inserted⟩, hinserted, hcall⟩ := bind_ok hcall
      cases hcall
      obtain ⟨run, hrun, hlive, hseq, hcell⟩ := happly hstored hfirst
      refine ⟨run, hrun, hlive, hseq, ?_⟩
      unfold Run.insertReplyMessage at hinserted
      split at hinserted
      · cases hinserted
      rename_i htake
      cases hinserted
      rw [← hcell, ← Database.takeMessageSequence_cell htake]
      rfl
    · rename_i hfirst
      cases hcall
      exact absurd happlied hfirst
  all_goals exact happly hcall happlied

@[simp] theorem sanitize_sequence (event : PeerRunEvent) :
    (c.sanitize event).sequence = event.sequence := by
  unfold Carrier.sanitize
  cases event.type <;> rfl

theorem event_change {capabilityId : String} {published : PeerRunEvent} (hsent : published ∈ s.sent)
    (hcall : event c runId checks capabilityId published h = .ok ((), h')) :
    HostChange c runId s h h' := by
  obtain ⟨_, -, hcall⟩ := bind_ok hcall
  split at hcall
  · cases hcall
  rename_i row hrow
  split at hcall
  · cases hcall
  obtain ⟨_, -, hcall⟩ := bind_ok hcall
  split at hcall
  · split at hcall
    · cases hcall
    · obtain ⟨_, -, hcall⟩ := bind_ok hcall
      cases hcall
      exact .refl
  obtain ⟨_, -, hcall⟩ := bind_ok hcall
  unfold publishNew at hcall
  split at hcall
  · cases hcall
  obtain ⟨_, -, hcall⟩ := bind_ok hcall
  obtain ⟨⟨applied, stored⟩, happly, hcall⟩ := bind_ok hcall
  dsimp only at hcall
  split at hcall
  · rename_i happlied
    cases hcall
    obtain ⟨db, hdb, rfl⟩ := onDatabase_ok happly
    obtain ⟨run, hrun, hlive, hseq, hcell⟩ := applyPublished_cell hdb happlied
    rw [sanitize_sequence] at hseq
    exact .published published run checks.now hsent hrun hlive (by omega) hcell rfl
  · cases hcall

theorem HostStep.change (hstep : HostStep c runId s h h') : HostChange c runId s h h' := by
  cases hstep with
  | dispatch checks hcall => exact dispatch_change hcall
  | poll checks fresh hcall => exact poll_change hcall
  | event checks capabilityId published hsent hcall => exact event_change hsent hcall
  | settle checks settlement hsent hcall => exact settleRun_change hcall
  | cancel now hcall => exact cancelKnown_change hcall
  | sweep checks hcall => exact sweepRun_change hcall
  | other hdb => exact .ended hdb rfl

/-! ## Agreement -/

/-- What the published part of the Host's log is, and what may follow it. -/
structure Agrees (c : Carrier) (runId : RunId) (events : List PeerRunEvent) (h : Host)
    (published : List PeerRunEvent) (ended : List RuntimeEvent) : Prop where
  logged : (h.db.cell runId).Logged
  journaled : published <+: events
  rows : h.eventRows.map Prod.fst = published.map PeerRunEvent.sequence
  stored : (h.db.listEvents runId).map RunEventRecord.event = published.map c.sanitize ++ ended
  once : ended.length ≤ 1
  ends : ∀ event ∈ ended, event.isTerminal = true

variable {events : List PeerRunEvent} {published : List PeerRunEvent}
  {ended base : List RuntimeEvent} {n : Nat} {run : Run.RunRecord}

/-- A live Run was not ended. -/
theorem ended_nil {rows : List RunEventRecord} {ended : List RuntimeEvent}
    (hlog : Run.EventLog run rows) (hlive : run.state.isTerminal = false)
    (hstored : rows.map RunEventRecord.event = base ++ ended)
    (hends : ∀ event ∈ ended, event.isTerminal = true) : ended = [] := by
  refine List.eq_nil_iff_forall_not_mem.mpr fun event hevent => ?_
  have hmem : event ∈ rows.map RunEventRecord.event := by
    rw [hstored]
    exact List.mem_append_right _ hevent
  obtain ⟨row, hrow, rfl⟩ := List.mem_map.mp hmem
  exact hlog.not_ended hlive row hrow (hends _ hevent)

theorem Agrees.numbered (hagrees : Agrees c runId events h published ended)
    (hnumbered : Consecutive sequence events) : Consecutive sequence published := by
  obtain ⟨rest, rfl⟩ := hagrees.journaled
  exact hnumbered.left

/-- The participant has journaled more. -/
theorem Agrees.grown (hagrees : Agrees c runId events h published ended)
    {events' : List PeerRunEvent} (hgrown : events <+: events') :
    Agrees c runId events' h published ended :=
  { hagrees with journaled := hagrees.journaled.trans hgrown }

/-- One transition of the rows that stores nothing but an end. -/
theorem cell_ended_step : Preserved (Cell.Step (endsOnly runId runId)) fun cell => cell.Logged ∧
      ∃ ended, cell.events.map RunEventRecord.event = base ++ ended ∧ ended.length ≤ 1 ∧
        ∀ event ∈ ended, event.isTerminal = true := by
  rintro cell cell' hstep ⟨hlogged, ended, hstored, honce, hends⟩
  refine ⟨Cell.Logged.step hstep hlogged, ?_⟩
  cases hstep with
  | @append run event now hrun hlive hseq hevent =>
    obtain ⟨run', hrun', hlog⟩ := hlogged
    obtain rfl := Option.mem_unique hrun hrun'
    have hnil := ended_nil hlog hlive hstored hends
    refine ⟨[event], ?_, Nat.le_refl 1, ?_⟩
    · rw [hnil, List.append_nil] at hstored
      simp [Cell.append, Run.RunRecord.eventRow, hstored]
    · intro event' hevent'
      obtain rfl := List.mem_singleton.mp hevent'
      exact hevent rfl
  | resolve | request | mark | ensure | sent | accept => exact ⟨ended, hstored, honce, hends⟩

theorem HostChange.agrees (hchange : HostChange c runId s h h') (htold : Told s)
    (hagrees : Agrees c runId s.view.events h published ended) :
    ∃ published ended, Agrees c runId s.view.events h' published ended := by
  cases hchange with
  | ended hdb hrows =>
    obtain ⟨hlogged, ended', hstored, honce, hends⟩ := cell_ended_step.run (hdb runId)
      ⟨hagrees.logged, ended, hagrees.stored, hagrees.once, hagrees.ends⟩
    exact ⟨published, ended', hlogged, hagrees.journaled, by rw [hrows, hagrees.rows], hstored,
      honce, hends⟩
  | published event run now hsent hrun hlive hseq hcell hrows =>
    obtain ⟨run', hrun', hlog⟩ := hagrees.logged
    obtain rfl := Option.mem_unique hrun hrun'
    have hstored := hagrees.stored
    rw [ended_nil hlog hlive hstored hagrees.ends, List.append_nil] at hstored
    -- the next sequence of the Host is the next event of the journal
    have hlength : published.length = run.lastSequence := by
      rw [← hlog.length, ← List.length_map (f := c.sanitize), ← hstored, List.length_map]
      rfl
    have hjournaled : published ++ [event] <+: s.view.events := by
      refine Consecutive.isPrefix_of_subset (fun _ _ hcast => hcast) ?_ htold.numbered ?_
      · exact (hagrees.numbered htold.numbered).snoc (by simp [hlength, hseq])
      intro event' hevent'
      rcases List.mem_append.mp hevent' with hevent' | hevent'
      · exact hagrees.journaled.subset hevent'
      · obtain rfl := List.mem_singleton.mp hevent'
        exact htold.sent _ hsent
    refine ⟨published ++ [event], [], ?_, hjournaled, ?_, ?_, Nat.zero_le 1, by simp⟩
    · rw [hcell]
      refine ⟨_, rfl, hlog.append hlive ?_⟩
      rw [sanitize_sequence, hseq]
      simp
    · rw [hrows, List.map_append, hagrees.rows, List.map_append]
      rfl
    · have hevents : h'.db.listEvents runId = _ := congrArg Cell.events hcell
      rw [hevents, List.append_nil, List.map_append, ← hstored]
      simp [Cell.append, Run.RunRecord.eventRow, Database.cell]

/-- The invariant of the whole system. -/
structure System.Consistent (l : Link) (s : System) : Prop where
  safe : Pool.Safe execution Once s.participant
  told : Told s.participant.shared
  agrees : ∃ published ended,
    Agrees l.carrier l.runId s.participant.shared.view.events s.host published ended

theorem Told.restart {s : Participant} (h : Told s) : Told s.restart :=
  ⟨h.numbered, h.final, h.settled, h.sent, h.settlements⟩

theorem System.consistent_step (l : Link) : Preserved (System.Step l) (System.Consistent l) := by
  rintro s t hstep ⟨hsafe, htold, published, ended, hagrees⟩
  cases hstep with
  | participant hpool =>
    refine ⟨executions_fit.preserved hpool hsafe,
      step_stable Told.stable (fun _ => Told.restart) hsafe hpool htold, published, ended, ?_⟩
    have hgrown := step_stable (P := fun t => _ <+: t.view.events)
      (fun _ _ _ hchange hs => hs.trans hchange.view.events_prefix) (fun _ hs => hs) hsafe hpool
      (List.prefix_refl _)
    exact hagrees.grown hgrown
  | host hhost => exact ⟨hsafe, htold, hhost.change.agrees htold hagrees⟩

theorem Host.Queued.agrees {host : Host} (hqueued : host.Queued runId) :
    Agrees c runId [] host [] [] where
  logged := by
    obtain ⟨run, hrun, hstate, hlast, hterminal⟩ := hqueued.run
    refine ⟨run, hrun, ?_⟩
    show Run.EventLog run (host.db.listEvents runId)
    rw [hqueued.events]
    exact .queued hstate hlast hterminal
  journaled := List.prefix_refl _
  rows := by rw [hqueued.eventRows]; rfl
  stored := by rw [hqueued.events]; rfl
  once := Nat.zero_le 1
  ends := fun _ hevent => by cases hevent

theorem System.Reachable.consistent {l : Link} {s : System} (hreach : System.Reachable l s) :
    System.Consistent l s := by
  obtain ⟨host, hqueued, hrun⟩ := hreach
  exact (System.consistent_step l).run hrun ⟨Pool.Safe.start .empty, .empty, [], [], hqueued.agrees⟩

/-! ## The end of a Run -/

theorem cell_state_kept {P : RuntimeEvent → Prop} (hended : state.isTerminal = true) :
    Preserved (Cell.Step P) fun cell => cell.run.map (·.state) = some state := by
  intro cell cell' hstep hstate
  cases hstep with
  | append hrun hlive =>
    rw [hrun] at hstate
    cases hstate
    rw [hended] at hlive
    cases hlive
  | resolve | request | mark | ensure | sent | accept => exact hstate

theorem HostChange.state_kept (hchange : HostChange c runId s h h')
    (hended : state.isTerminal = true) (hstate : h.state runId = some state) :
    h'.state runId = some state := by
  cases hchange with
  | ended hdb => exact (cell_state_kept hended).run (hdb runId) hstate
  | published event run now hsent hrun hlive =>
    rw [Host.state, hrun] at hstate
    cases hstate
    rw [hended] at hlive
    cases hlive

/-- A Run that has ended stays as it is. -/
theorem System.state_kept {l : Link} (hended : state.isTerminal = true) :
    Preserved (System.Step l) fun s => s.host.state l.runId = some state := by
  intro s t hstep hstate
  cases hstep with
  | participant => exact hstate
  | host hhost => exact hhost.change.state_kept hended hstate

/-- A journaled event that ends the Run on the Host is the participant's outcome. -/
theorem Told.outcome_of_terminal (htold : Told s) (honce : Once n s) {event : PeerRunEvent}
    (hevent : event ∈ s.view.events) (hstatus : (c.sanitize event).status? = some state)
    (hended : state.isTerminal = true) : ∃ outcome, s.runs.files.result = some outcome ∧
      ∀ cancellation, (settledStatus outcome.state cancellation).toState = state := by
  unfold Carrier.sanitize at hstatus
  cases htype : event.type with
  | reply | output | activity =>
    rw [htype] at hstatus
    cases hstatus
  | status status =>
    rw [htype] at hstatus
    obtain rfl : status.runtime.toState = state := Option.some.inj hstatus
    have hfinal : event.type.final = true := by
      rw [htype]
      cases status with
      | delivered | working => cases hended
      | inputRequired | completed | failed | canceled => rfl
    obtain ⟨outcome, hresult, hterminal⟩ := htold.final event hevent hfinal
    refine ⟨outcome, hresult, fun cancellation => ?_⟩
    obtain ⟨finished, hfinished, rfl⟩ := Option.map_eq_some_iff.mp hresult
    have hvalid := honce.valid finished hfinished
    unfold validRunOutcome at hvalid
    rw [hterminal] at hvalid
    simp only [htype, Bool.and_eq_true] at hvalid
    obtain ⟨⟨-, hspelled, -⟩, -⟩ := hvalid
    cases hstate : finished.outcome.state with
    | completed | failed | canceled | inputRequired =>
      rw [hstate] at hspelled
      simp only [OutcomeState.status?, decide_eq_true_eq] at hspelled
      subst hspelled
      rfl
    | outcomeUnknown | expired | deliveryDenied =>
      rw [hstate] at hspelled
      cases hspelled

/-- A Run whose stored events were all published is in the state its outcome settles to, if it
has ended. -/
theorem Agrees.outcome_of_ended (hagrees : Agrees c runId s.view.events h published [])
    (htold : Told s) (honce : Once n s) (hrun : h.db.getRun runId = some run)
    (hended : run.state.isTerminal = true) : ∃ outcome, s.runs.files.result = some outcome ∧
      ∀ cancellation, (settledStatus outcome.state cancellation).toState = run.state := by
  obtain ⟨run', hrun', hlog⟩ := hagrees.logged
  obtain rfl := Option.mem_unique hrun hrun'
  have hlast : Run.lastStatus (h.db.listEvents runId) = run.state := hlog.state.symm
  unfold Run.lastStatus at hlast
  cases hget : ((h.db.listEvents runId).filterMap fun row => row.event.status?).getLast? with
  | none =>
    rw [hget] at hlast
    rw [← hlast] at hended
    cases hended
  | some state =>
    rw [hget] at hlast
    obtain rfl : state = run.state := hlast
    obtain ⟨row, hrow, hstatus⟩ := List.mem_filterMap.mp (List.mem_of_getLast? hget)
    have hmem : row.event ∈ (h.db.listEvents runId).map RunEventRecord.event :=
      List.mem_map_of_mem hrow
    rw [hagrees.stored, List.append_nil] at hmem
    obtain ⟨event, hevent, heq⟩ := List.mem_map.mp hmem
    rw [← heq] at hstatus
    exact htold.outcome_of_terminal honce (hagrees.journaled.subset hevent) hstatus hended

/-- The first settlement that is accepted leaves the Run in the state of the outcome on file,
unless the Host ended it before. -/
theorem settleRun_state (hagrees : Agrees c runId s.view.events h published []) (htold : Told s)
    (honce : Once n s) (hsent : settlement ∈ s.settlements) (hfirst : h.settlement = none)
    (hcall : settleRun c runId checks settlement h = .ok ((), h')) :
    ∃ outcome, s.runs.files.result = some outcome ∧ settlement.state = outcome.state ∧
      (settledStatus outcome.state h.cancellation).toState.isTerminal = true ∧
      h'.state runId = some (settledStatus outcome.state h.cancellation).toState := by
  obtain ⟨outcome, hresult, hstate⟩ := htold.settled settlement (htold.settlements _ hsent)
  obtain ⟨hsettles, ⟨hsome, -⟩ | ⟨-, hnew⟩⟩ := settleRun_cases hcall
  · rw [hfirst] at hsome
    cases hsome
  rw [hstate] at hsettles
  refine ⟨outcome, hresult, hstate, settledStatus_isTerminal hsettles, ?_⟩
  obtain ⟨run, hrun, ⟨hended, rfl⟩ | ⟨hlive, applied, db, happly, rfl⟩⟩ := settleNew_cases hnew
  · obtain ⟨outcome', hresult', hended'⟩ := hagrees.outcome_of_ended htold honce hrun hended
    obtain rfl := Option.mem_unique hresult hresult'
    rw [hended', Host.state, hrun]
    rfl
  obtain ⟨run', hrun', ⟨-, -, hold⟩ | ⟨-, -, -, hstored, -⟩⟩ := Run.applyRuntimeEvent_cases happly
  · obtain rfl := Option.mem_unique hrun hrun'
    rw [hlive] at hold
    simp only [RuntimeEvent.plainStatus, RuntimeEvent.sequence, Bool.false_eq_true, or_false] at hold
    omega
  · obtain rfl := Option.mem_unique hrun hrun'
    obtain rfl : run.runId = runId := Table.lookup_key hrun
    have hcell := congrArg Cell.run (Run.storeEvent_cell hrun hstored)
    rw [Host.state, show db.getRun run.runId = _ from hcell, hstate]
    rfl

theorem sanitize_shape (event : PeerRunEvent) (row : RunEventRecord)
    (hrow : row.event = c.sanitize event) (hseq : row.sequence = event.sequence) :
    storedShape row = event.shape := by
  unfold storedShape shape
  rw [hrow, hseq]
  unfold Carrier.sanitize
  cases event.type <;> rfl

section

variable (hagrees : Agrees c runId events h published ended)
include hagrees

theorem Agrees.split :
    (h.published runId).map RunEventRecord.event = published.map c.sanitize ∧
    (h.ended runId).map RunEventRecord.event = ended := by
  have hlength : h.eventRows.length = (published.map c.sanitize).length := by
    rw [List.length_map, ← List.length_map (f := Prod.fst), hagrees.rows, List.length_map]
  constructor
  · rw [Host.published, List.map_take, hagrees.stored, hlength, List.take_left']
    rfl
  · rw [Host.ended, List.map_drop, hagrees.stored, hlength, List.drop_left']
    rfl

theorem Agrees.length : (h.published runId).length = published.length := by
  rw [← List.length_map (f := RunEventRecord.event), hagrees.split.1, List.length_map]

theorem Agrees.sequences (hnumbered : Consecutive sequence events) :
    (h.published runId).map RunEventRecord.sequence =
      published.map fun event => (event.sequence : Int) := by
  obtain ⟨run, hrun, hlog⟩ := hagrees.logged
  have hconsecutive := hagrees.numbered hnumbered
  have hsplit : h.published runId ++ h.ended runId = h.db.listEvents runId :=
    List.take_append_drop _ _
  have htaken : Consecutive RunEventRecord.sequence (h.published runId) := by
    have hall : Consecutive RunEventRecord.sequence (h.db.listEvents runId) := hlog.consecutive
    rw [← hsplit] at hall
    exact hall.left
  have hpublished : published.map (fun event => (event.sequence : Int)) =
      (published.map sequence).map Nat.cast := by
    rw [List.map_map]
    rfl
  rw [hpublished, hconsecutive.range, htaken, hagrees.length]

theorem Agrees.shapes (hnumbered : Consecutive sequence events) :
    (h.published runId).map storedShape <+: events.map shape := by
  have hevents := hagrees.split.1
  have hsequences := hagrees.sequences hnumbered
  have hshapes : (h.published runId).map storedShape = published.map shape := by
    refine List.ext_getElem (by simp [hagrees.length]) fun i hi hi' => ?_
    rw [List.length_map] at hi hi'
    have hevent := congrArg (·[i]?) hevents
    have hsequence := congrArg (·[i]?) hsequences
    simp only [List.getElem?_map, List.getElem?_eq_getElem hi, List.getElem?_eq_getElem hi',
      Option.map_some, Option.some.injEq] at hevent hsequence
    rw [List.getElem_map, List.getElem_map]
    exact sanitize_shape _ _ hevent hsequence
  rw [hshapes]
  exact hagrees.journaled.map _

end

/-- **Agreement.** In every state of every run, the events the Host stored are a prefix of
those the participant journaled, followed by at most one with which the Host ended the Run; and
the first settlement it accepts leaves the Run, for good, in the state of the outcome on file,
unless the Host had ended it before. -/
theorem peer_logs_agree {l : Link} {s : System} (hreach : System.Reachable l s) :
    s.host.db.listEvents l.runId = s.host.published l.runId ++ s.host.ended l.runId ∧
    (s.host.published l.runId).map RunEventRecord.sequence =
      s.host.eventRows.map (fun row => (row.1 : Int)) ∧
    (s.host.published l.runId).map storedShape <+:
      s.participant.shared.view.events.map PeerRunEvent.shape ∧ (s.host.ended l.runId).length ≤ 1 ∧
    (∀ row ∈ s.host.ended l.runId, row.event.isTerminal = true) ∧
    ∀ {checks settlement host'}, settlement ∈ s.participant.shared.settlements →
      s.host.settlement = none →
      settleRun l.carrier l.runId checks settlement s.host = .ok ((), host') →
      s.host.ended l.runId = [] → ∃ outcome, s.participant.shared.runs.files.result = some outcome ∧
        settlement.state = outcome.state ∧
        ∀ s', ReflTransGen (System.Step l) ⟨s.participant, host'⟩ s' → s'.host.state l.runId =
            some (settledStatus outcome.state s.host.cancellation).toState := by
  obtain ⟨hsafe, htold, published, ended, hagrees⟩ := hreach.consistent
  obtain ⟨hpublished, hended⟩ := hagrees.split
  refine ⟨(List.take_append_drop _ _).symm, ?_, hagrees.shapes htold.numbered, ?_, ?_, ?_⟩
  · have hrows := congrArg (List.map (Nat.cast : Nat → Int)) hagrees.rows
    rw [List.map_map, List.map_map] at hrows
    rw [hagrees.sequences htold.numbered]
    exact hrows.symm
  · rw [← List.length_map (f := RunEventRecord.event), hended]
    exact hagrees.once
  · intro row hrow
    refine hagrees.ends _ ?_
    rw [← hended]
    exact List.mem_map_of_mem hrow
  · intro checks settlement host' hsent hfirst hcall hnone
    rw [hnone] at hended
    subst hended
    obtain ⟨outcome, hresult, hstate, hterminal, hafter⟩ :=
      settleRun_state hagrees htold hsafe.shared hsent hfirst hcall
    exact ⟨outcome, hresult, hstate, fun s' hrun => (System.state_kept hterminal).run hrun hafter⟩

/-! A completed Run of which the Host has stored the first event. -/

def plainCarrier : Carrier where
  contents := fun _ => ⟨none, none, ⟨"", none⟩, ⟨"", .tool, .started, none, none, false⟩, "", false,
    none⟩
  blank := fun _ => false
  eventDigest := fun _ => plainDigest
  settlementDigest := fun _ => plainDigest

def plainLink : Link := ⟨plainPartition, plainVerifier, "run", plainCarrier, 7⟩

def plainChecks : Checks := ⟨.ok (), .ok (), .ok (), 0⟩

def queuedHost : Host := ⟨Run.queuedDatabase [Run.queuedRun 7], none, [], none, none⟩

def polledHost : Host :=
  { queuedHost with
    delivery := some ⟨"peersettle_aaaaaaaa", plainDigest, plainDigest, 1, 0, none⟩ }

def deliveredHost : Host :=
  { polledHost with
    db := { polledHost.db with
      runs := [(Run.queuedRun 7).advance .delivered 1 0]
      runEvents := [(Run.queuedRun 7).eventRow (.plainStatus 1 .delivered) 0] }
    eventRows := [(1, plainDigest)] }

theorem deliveredHost_reachable : System.Reachable plainLink ⟨completedRun, deliveredHost⟩ := by
  have hqueued : queuedHost.Queued 7 := ⟨⟨Run.queuedRun 7, rfl, rfl, rfl, rfl⟩, rfl, rfl⟩
  have hrun : ReflTransGen (System.Step plainLink) ⟨⟨.empty, []⟩, queuedHost⟩
      ⟨completedRun, queuedHost⟩ :=
    completedRun_reachable.lift (fun pool => (⟨pool, queuedHost⟩ : System))
      fun _ _ hstep => .participant hstep
  refine ⟨queuedHost, hqueued, (hrun.tail (@System.Step.host plainLink completedRun queuedHost
    polledHost ?_)).tail (.host ?_)⟩
  · exact .poll plainChecks ⟨"peersettle_aaaaaaaa", plainDigest, plainDigest, 1, 0, none⟩ rfl
  · exact .event plainChecks "peersettle_aaaaaaaa" deliveredEvent completedRun_shared.2.2.2.1
      (by decide +kernel)

theorem peer_logs_agree_completed :
    deliveredHost.published 7 = [(Run.queuedRun 7).eventRow (.plainStatus 1 .delivered) 0] ∧
    (deliveredHost.published 7).map storedShape <+:
      completedRun.shared.view.events.map PeerRunEvent.shape ∧
    ∃ host', settleRun plainCarrier 7 plainChecks completedSettlement deliveredHost =
      .ok ((), host') ∧ host'.state 7 = some .completed := by
  obtain ⟨-, -, hprefix, -, -, hsettle⟩ := peer_logs_agree deliveredHost_reachable
  refine ⟨rfl, hprefix, ?_⟩
  have hok : (settleRun plainCarrier 7 plainChecks completedSettlement
      deliveredHost).toOption.isSome = true := by decide +kernel
  cases hcall : settleRun plainCarrier 7 plainChecks completedSettlement deliveredHost with
  | error e =>
    rw [hcall] at hok
    cases hok
  | ok result =>
    obtain ⟨outcome, -, hstate, hafter⟩ := @hsettle plainChecks completedSettlement result.2
      completedRun_shared.2.2.2.2 rfl hcall (by decide +kernel)
    rw [← hstate] at hafter
    exact ⟨result.2, rfl, hafter _ .refl⟩

end ConveneWire.Peer
