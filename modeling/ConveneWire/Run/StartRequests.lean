import ConveneWire.Run.ServerStep

/-! # Start requests

Which Runs `DeliveryService.dispatch` writes to a Bridge. A delivery row outlives
the queued state of its Run, and `dispatch` never looks at the state of a Run
that is no longer queued: a Run that ended while its row was pending is sent
again if it is dispatched again. Nothing else goes wrong. -/

namespace ConveneWire.Run

open Transactional
open Transition (Preserved)

/-- Before the first delivery. -/
def Server.Initial (s : Server) : Prop :=
  s.database.deliveries = [] ∧ s.outbox = [] ∧ s.dispatches = []

/-- The Run was live and nobody was waiting for its cancellation when the frame was written. -/
def SentFrame.Startable (sent : SentFrame) (runId : RunId) : Prop :=
  ∃ run, sent.database.getRun runId = some run ∧ run.state.isTerminal = false ∧
    ¬ sent.database.PendingIntent runId

/-- `dispatch` was entered for a Run that had ended with its delivery row still pending, while
every gate was open and the Device connected. -/
def DispatchEntry.ReopensEnded (entry : DispatchEntry) : Prop :=
  ∃ run delivery, entry.database.getRun entry.runId = some run ∧ run.state.isTerminal = true ∧
    entry.database.getDelivery entry.runId = some delivery ∧ delivery.state = .pending ∧
    entry.env.canDeliverDisclosureDiscussion entry.runId = true ∧
    entry.env.desktopRunAllowed entry.runId = true ∧
    DeliveryService.trustChanged delivery.payload
      ((entry.env.getAgent run.targetAgentId).bind AgentRecord.runtimePolicy) = false ∧
    entry.env.send delivery.deviceId = .sent

/-- The rows of Run `runId` carry its identifier, the frozen payload included. -/
structure Cell.Addressed (runId : RunId) (c : Cell) : Prop where
  run : ∀ run, c.run = some run → run.runId = runId
  payload : ∀ delivery, c.delivery = some delivery → delivery.payload.runId = runId

theorem Cell.Addressed.step {P : RuntimeEvent → Prop} {runId : RunId} :
    Preserved (Cell.Step P) (Cell.Addressed runId) := by
  intro c c' hstep h
  cases hstep with
  | append hrun _ _ =>
    refine ⟨fun run' hrun' => ?_, h.payload⟩
    cases hrun'
    have hid := h.run _ hrun
    exact hid
  | resolve | request | mark => exact ⟨h.run, h.payload⟩
  | ensure hrun _ _ _ haddr =>
    refine ⟨h.run, fun delivery hdelivery => ?_⟩
    cases hdelivery
    exact haddr.trans (h.run _ hrun)
  | sent | accept =>
    refine ⟨h.run, fun delivery hdelivery => ?_⟩
    obtain ⟨row, hrow, rfl⟩ := Option.map_eq_some_iff.mp hdelivery
    have hpayload := h.payload row hrow
    split
    · exact hpayload
    · exact hpayload

/-- Every start request so far was startable, or its dispatch reopened an ended Run. -/
structure Server.StartsTraced (s : Server) : Prop where
  addressed : ∀ runId, (s.database.cell runId).Addressed runId
  traced : ∀ sent ∈ s.outbox, ∀ payload, sent.frame = .runRequested payload →
    sent.Startable payload.runId ∨ ∃ entry ∈ s.dispatches, entry.ReopensEnded

theorem Server.Initial.startsTraced {s : Server} (h : s.Initial) : s.StartsTraced := by
  obtain ⟨hdeliveries, houtbox, -⟩ := h
  refine ⟨fun runId => ⟨fun run hrun => Table.lookup_key hrun, fun delivery hdelivery => ?_⟩,
    fun sent hsent => ?_⟩
  · have hnone : s.database.getDelivery runId = none := by
      simp [Database.getDelivery, hdeliveries, Table.lookup]
    rw [show s.database.getDelivery runId = some delivery from hdelivery] at hnone
    cases hnone
  · rw [houtbox] at hsent
    cases hsent

/-- A start request that goes out: its Run is live, or it had already ended when the dispatch
was entered, since only a queued Run can have got its delivery row in between. -/
theorem Server.Requestable.startable_or_reopens {s : Server} {payload : DeliveryPayload}
    {run : RunRecord} {delivery : DeliveryRecord} {entry : DispatchEntry}
    (h : s.Requestable payload run delivery entry)
    (haddr : (s.database.cell entry.runId).Addressed entry.runId) :
    SentFrame.Startable ⟨delivery.deviceId, .runRequested payload, s.database⟩ payload.runId ∨
      entry.ReopensEnded := by
  have hid : payload.runId = entry.runId := by
    rw [← h.payload_eq]
    exact haddr.payload delivery h.delivery_eq
  cases hended : run.state.isTerminal with
  | false =>
    refine .inl ⟨run, ?_, hended, ?_⟩
    · rw [hid]
      exact h.run_eq
    · rw [hid]
      exact h.no_intent
  | true =>
    rcases h.current with hcurrent | hqueued
    · refine .inr ⟨run, delivery, ?_, hended, ?_, h.pending, h.disclosure, h.desktop, h.trusted,
        h.connected⟩
      · rw [hcurrent]
        exact h.run_eq
      · rw [hcurrent]
        exact h.delivery_eq
    · rw [hqueued] at hended
      cases hended

theorem Server.StartsTraced.step {P : EventFilter} :
    Preserved (Server.Step P) Server.StartsTraced := by
  intro s t hstep h
  cases hstep with
  | commit hdb =>
    exact ⟨fun runId => Cell.Addressed.step.run (hdb runId) (h.addressed runId), h.traced⟩
  | enter =>
    refine ⟨h.addressed, fun sent hsent payload hframe => ?_⟩
    rcases h.traced sent hsent payload hframe with hstart | ⟨entry, hentry, hreopens⟩
    · exact .inl hstart
    · exact .inr ⟨entry, List.mem_append_left _ hentry, hreopens⟩
  | cancelSent =>
    refine ⟨h.addressed, fun sent hsent payload hframe => ?_⟩
    rcases List.mem_append.mp hsent with hsent | hsent
    · exact h.traced sent hsent payload hframe
    · rw [List.mem_singleton.mp hsent] at hframe
      cases hframe
  | requested hrequest =>
    refine ⟨h.addressed, fun sent hsent payload hframe => ?_⟩
    rcases List.mem_append.mp hsent with hsent | hsent
    · exact h.traced sent hsent payload hframe
    obtain rfl := List.mem_singleton.mp hsent
    cases hframe
    rcases hrequest.startable_or_reopens (h.addressed _) with hstart | hreopens
    · exact .inl hstart
    · exact .inr ⟨_, hrequest.entered, hreopens⟩

/-- **Start requests reach live Runs.** In every run of calls in which no dispatch, direct or made
by `dispatchQueuedForDevice`, is entered for a Run that has ended with its delivery row pending,
every start request is written while its Run is live and has no pending intent. -/
theorem start_requests_live {options : CancellationOptions} {s₀ s : Server} (hinit : s₀.Initial)
    (hrun : ServerRun options s₀ s) (hdispatch : ∀ entry ∈ s.dispatches, ¬ entry.ReopensEnded) :
    ∀ sent ∈ s.outbox, ∀ payload, sent.frame = .runRequested payload →
      sent.Startable payload.runId := by
  intro sent hsent payload hframe
  have htraced := Server.StartsTraced.step.run hrun.steps hinit.startsTraced
  rcases htraced.traced sent hsent payload hframe with hstart | ⟨entry, hentry, hreopens⟩
  · exact hstart
  · exact absurd hreopens (hdispatch entry hentry)

/-- One Run is dispatched while its Device is connected. -/
theorem start_requests_live_dispatched :
    let options : CancellationOptions := {}
    let s := ((ServerCall.dispatch (managedEnv 5 .sent) 7).exec options
      (queuedServer [queuedRun 7])).state
    s.outbox.length = 1 ∧ ∀ sent ∈ s.outbox, ∀ payload, sent.frame = .runRequested payload →
      sent.Startable payload.runId := by
  intro options s
  have hinit : (queuedServer [queuedRun 7]).Initial := ⟨rfl, rfl, rfl⟩
  have hrun : ServerRun options (queuedServer [queuedRun 7]) s :=
    .single ⟨_, Program.state_mem_visits⟩
  refine ⟨by decide, start_requests_live hinit hrun fun entry hentry => ?_⟩
  have hdispatches : s.dispatches =
      [⟨7, managedEnv 5 .sent, (queuedServer [queuedRun 7]).database⟩] := rfl
  rw [hdispatches] at hentry
  obtain rfl := List.mem_singleton.mp hentry
  rintro ⟨run, delivery, hrun, hended, -⟩
  cases hrun
  cases hended

/-- Two Runs of one Room whose deliveries wait for their Device. -/
def waitingDeliveries : Server :=
  let options := CancellationOptions.standard
  let first := ((ServerCall.dispatch (managedEnv 50 .notConnected) 7).exec options
    (queuedServer [queuedRun 7, queuedRun 8])).state
  ((ServerCall.dispatch (managedEnv 50 .notConnected) 8).exec options first).state

/-- The Device reconnects after both deadlines: dispatching the first Run expires both, and the
second, selected before that, is dispatched and sent although it has expired. -/
def expiredThenSent : Server :=
  ((ServerCall.dispatchQueuedForDevice (managedEnv 200 .sent) (fun _ => managedEnv 200 .sent) 1).exec
    .standard waitingDeliveries).state

theorem expiredThenSent_outbox :
    expiredThenSent.outbox.map (fun sent => (sent.deviceId, sent.frame)) =
        [(1, .runRequested ⟨8, 0, 1, 4, 5, none, none, false, none, [], 100⟩)] ∧
      expiredThenSent.outbox.map (fun sent => (sent.database.getRun 8).map RunRecord.state) =
        [some .expired] := by
  constructor
  · rfl
  · rfl

theorem start_request_after_expiry :
    ¬ ∀ (options : CancellationOptions) (s₀ s : Server), s₀.Initial → ServerRun options s₀ s →
      ∀ sent ∈ s.outbox, ∀ payload, sent.frame = .runRequested payload →
        sent.Startable payload.runId := by
  intro h
  have hrun : ServerRun {} (queuedServer [queuedRun 7, queuedRun 8]) expiredThenSent :=
    .tail (.tail (.single ⟨_, Program.state_mem_visits⟩) ⟨_, Program.state_mem_visits⟩)
      ⟨_, Program.state_mem_visits⟩
  obtain ⟨hframes, hstates⟩ := expiredThenSent_outbox
  obtain ⟨sent, houtbox⟩ : ∃ sent, expiredThenSent.outbox = [sent] :=
    List.length_eq_one_iff.mp (by simpa using congrArg List.length hframes)
  rw [houtbox] at hframes hstates
  simp only [List.map_cons, List.map_nil, List.cons.injEq, and_true, Prod.mk.injEq] at hframes hstates
  obtain ⟨run, hget, hlive, -⟩ := h {} _ _ ⟨rfl, rfl, rfl⟩ hrun sent (by simp [houtbox]) _ hframes.2
  rw [hget] at hstates
  cases hstate : run.state with
  | expired =>
    rw [hstate] at hlive
    cases hlive
  | _ => simp [hstate] at hstates

end ConveneWire.Run
