import ConveneWire.Peer.Changes

/-! # The routines of a participant keep to their contract

An execution promises to all others that each of its actions is a `Change`. Most
routines are `quiet`: they neither claim the start nor invoke an adapter, so what
an execution has claimed is framed around them. -/

namespace ConveneWire.Peer

open Concurrent (Process Contract)
open Transition (Preserved)

/-- One action of the `n`-th execution. -/
structure Change (n : Nat) (s t : Participant) : Prop where
  files : FilesStep s.runs.files t.runs.files
  view : ViewStep s.runs.files s.view t.view
  sent : t.sent = s.sent ∨ ∃ event ∈ s.view.events, t.sent = s.sent ++ [event]
  settlements : t.settlements = s.settlements ∨
    ∃ settlement, s.view.settlement = some settlement ∧ t.settlements = s.settlements ++ [settlement]
  begun : t.begun = s.begun ∨ t.begun = s.begun ++ [n] ∧ n ∉ s.invoked ∧
    s.runs.files.started = none ∧ t.runs.files.started.isSome
  invoked : t.invoked = s.invoked ∨ t.invoked = s.invoked ++ [n] ∧ n ∈ s.begun ∧ n ∉ s.invoked

theorem Change.refl (n : Nat) (s : Participant) : Change n s s :=
  ⟨.same, .same, .inl rfl, .inl rfl, .inl rfl, .inl rfl⟩

def execution (n : Nat) : Contract Participant where
  rely := fun s t => ∃ m, m ≠ n ∧ Change m s t
  guar := Change n
  fails := fun _ => True

/-- The contract of what neither claims nor invokes. -/
def quiet (n : Nat) : Contract Participant :=
  { execution n with guar := fun s t => Change n s t ∧ t.begun = s.begun ∧ t.invoked = s.invoked }

/-- Facts about the journal that no execution can spoil. -/
def Stable (P : Participant → Prop) : Prop := ∀ ⦃n s t⦄, Change n s t → P s → P t

theorem Stable.rely {P : Participant → Prop} (h : Stable P) (n : Nat) :
    Preserved (quiet n).rely P := by
  rintro s t ⟨m, -, hchange⟩ hs
  exact h hchange hs

theorem Stable.true : Stable fun _ => True := fun _ _ _ _ _ => trivial

theorem Stable.and {P P' : Participant → Prop} (h : Stable P) (h' : Stable P') :
    Stable fun s => P s ∧ P' s :=
  fun _ _ _ hchange hs => ⟨h hchange hs.1, h' hchange hs.2⟩

/-- The outcome is on file. -/
def Knows (outcome : RunOutcome) (s : Participant) : Prop := s.runs.files.result = some outcome

/-- The Host may have been told of these events. -/
def Holds (events : List PeerRunEvent) (s : Participant) : Prop := ∀ event ∈ events, event ∈ s.view.events

def Retains (settlement : PeerSettlement) (s : Participant) : Prop :=
  s.view.settlement = some settlement

/-- A state of the journal that was read or written earlier. -/
def Seen (state : TransportState) (s : Participant) : Prop :=
  Holds state.events s ∧ ∀ settlement, state.settlement = some settlement → Retains settlement s

/-- The outcome of a record, if it has one, is on file. -/
def Recorded (record : RunRecord) (s : Participant) : Prop :=
  ∀ outcome, record.outcome = some outcome → Knows outcome s

theorem Stable.knows (outcome : RunOutcome) : Stable (Knows outcome) :=
  fun _ _ _ hchange hs => hchange.files.result_kept hs

theorem Stable.holds (events : List PeerRunEvent) : Stable (Holds events) :=
  fun _ _ _ hchange hs event hevent => hchange.view.events_kept (hs event hevent)

theorem Stable.retains (settlement : PeerSettlement) : Stable (Retains settlement) :=
  fun _ _ _ hchange hs => hchange.view.settlement_kept hs

theorem Stable.seen (state : TransportState) : Stable (Seen state) :=
  fun _ _ _ hchange hs => ⟨Stable.holds _ hchange hs.1,
    fun settlement hsettlement => Stable.retains _ hchange (hs.2 settlement hsettlement)⟩

theorem Stable.recorded (record : RunRecord) : Stable (Recorded record) :=
  fun _ _ _ hchange hs outcome houtcome => Stable.knows _ hchange (hs outcome houtcome)

variable {p : Partition} {v : Verifier} {runId : String} {n : Nat} {P : Participant → Prop}

/-! ## Actions -/

variable {outcome : RunOutcome} {α : Type} {Q : α → Participant → Prop} {q : Routine α}
  {emission : Emission} {value : EventValue}

/-- An action that changes nothing but what it is said to. -/
theorem quiet_step {f : Participant → Answer → Except String α × Participant} (hP : Stable P)
    (hQ : ∀ a, Stable (Q a)) (hchange : ∀ s a, P s → Change n s (f s a).2)
    (hown : ∀ s a, P s → (f s a).2.begun = s.begun ∧ (f s a).2.invoked = s.invoked)
    (hok : ∀ s a x, P s → (f s a).1 = .ok x → Q x (f s a).2) :
    (quiet n).Triple P (Process.step f) fun x s => P s ∧ Q x s := by
  refine .step_free (fun _ => trivial) ?_ ?_ ?_
  · exact fun s a hs => ⟨hchange s a hs, hown s a hs⟩
  · exact fun s a x hs hx => ⟨hP (hchange s a hs) hs, hok s a x hs hx⟩
  · exact fun x => (hP.and (hQ x)).rely n

theorem quiet_ask (f : Answer → α) (hP : Stable P) :
    (quiet n).Triple P (Process.ask f : Routine α) fun _ => P :=
  .ask (hP.rely n) (fun s _ => ⟨.refl n s, rfl, rfl⟩) fun _ _ hs => hs

theorem quiet_fail {message : String} : (quiet n).Triple P (Process.fail message : Routine α) Q :=
  .fail fun _ _ => trivial

theorem quiet_attempt (hP : Stable P) (h : (quiet n).Triple P q fun _ => P) :
    (quiet n).Triple P q.attempt fun _ => P := by
  have hframed : ((quiet n).onFail P).Triple P q fun _ => P := by
    intro s hs
    have hkeeps : ((quiet n).onFail P).Keeps (fun _ t => P t ∧ P t) q s :=
      Contract.Keeps.frame (c := quiet n) (d := (quiet n).onFail P) (F := P)
        (fun _ _ hrely => hrely)
        (fun s t hs hguar => ⟨hguar, hP hguar.1 hs⟩) (hP.rely n) (fun _ hs _ => hs) hs (h s hs)
    exact hkeeps.mono fun _ _ hq => hq.1
  refine hframed.attempt.weaken fun r s hr => ?_
  cases r with
  | ok a => exact hr
  | error e => exact hr

theorem onRuns_spec {α : Type} {f : Io → RunJournal → Except String α × RunJournal}
    {R : α → RunFiles → Prop} (hP : Stable P) (hR : ∀ {a b x}, FilesStep a b → R x a → R x b)
    (hf : ∀ io j, FilesStep j.files (f io j).2.files ∧
      ∀ x, (f io j).1 = .ok x → R x (f io j).2.files) :
    (quiet n).Triple P (onRuns f) fun x s => P s ∧ R x s.runs.files := by
  refine quiet_step hP ?_ ?_ ?_ ?_
  · exact fun x _ _ _ hchange hx => hR hchange.files hx
  · exact fun s a _ => ⟨(hf a.io s.runs).1, .same, .inl rfl, .inl rfl, .inl rfl, .inl rfl⟩
  · exact fun _ _ _ => ⟨rfl, rfl⟩
  · exact fun s a x _ hx => (hf a.io s.runs).2 x hx

/-- A call of the run journal that returns a record. -/
theorem onRuns_record {f : Io → RunJournal → Except String RunRecord × RunJournal} (hP : Stable P)
    (hf : ∀ io j, FilesStep j.files (f io j).2.files ∧
      ∀ record, (f io j).1 = .ok record → record.Shows (f io j).2.files) :
    (quiet n).Triple P (onRuns f) fun record s => P s ∧ Recorded record s := by
  refine onRuns_spec (R := fun (record : RunRecord) files => ∀ outcome,
    record.outcome = some outcome → files.result = some outcome) hP ?_ ?_
  · exact fun hstep hx outcome houtcome => hstep.result_kept (hx outcome houtcome)
  · refine fun io j => ⟨(hf io j).1, fun record hrecord outcome houtcome => ?_⟩
    rw [← ((hf io j).2 record hrecord).outcome]
    exact houtcome

theorem onTransport_spec
    {f : Answer → RunRecord → Capability → TransportState → Except String TransportState}
    (hP : Stable P) (hf : ∀ {a record capability state next s}, P s → record.Shows s.runs.files →
      f a record capability state = .ok next → ViewStep s.runs.files state.view next.view) :
    (quiet n).Triple P (onTransport p v runId f) fun state s => P s ∧ Seen state s := by
  have hcall : ∀ s a, P s → ∃ runs transport transportObserved, runs.files = s.runs.files ∧
      (s.callTransport p v runId a.io (f a)).2 = { s with runs, transport, transportObserved } ∧
      ViewStep s.runs.files s.view (s.callTransport p v runId a.io (f a)).2.view ∧
      ∀ {state}, (s.callTransport p v runId a.io (f a)).1 = .ok state →
        (s.callTransport p v runId a.io (f a)).2.view = state.view := by
    intro s a hs
    obtain ⟨⟨runs, transport, observed, hfiles, heq⟩, hview, hok⟩ :=
      Participant.callTransport_spec (fun hshows hnext => hf (a := a) hs hshows hnext) rfl
    exact ⟨runs, transport, observed, hfiles, heq, hview, hok⟩
  refine quiet_step hP (Stable.seen ·) ?_ ?_ ?_
  · intro s a hs
    obtain ⟨runs, transport, observed, hfiles, heq, hview, -⟩ := hcall s a hs
    refine ⟨?_, hview, ?_, ?_, ?_, ?_⟩
    · rw [heq]
      simp only [hfiles]
      exact .same
    all_goals
      rw [heq]
      exact .inl rfl
  · intro s a hs
    obtain ⟨runs, transport, observed, -, heq, -⟩ := hcall s a hs
    rw [heq]
    exact ⟨rfl, rfl⟩
  · intro s a state hs hstate
    obtain ⟨-, -, -, -, -, -, hok⟩ := hcall s a hs
    have hview := hok hstate
    refine ⟨fun event hevent => ?_, fun settlement hsettlement => ?_⟩
    · rw [hview]
      exact hevent
    · rw [Retains, hview]
      exact hsettlement

/-! ## Publication -/

theorem transport_spec (hP : Stable P) :
    (quiet n).Triple P (transport p v runId) fun state s => P s ∧ Seen state s :=
  onTransport_spec hP fun _ _ h => by
    cases h
    exact .same

/-- An execution journals nothing final by itself. -/
theorem append_spec (hP : Stable P) (hvalue : value.type.final = false) :
    (quiet n).Triple P (append p v runId value) fun _ => P := by
  refine (transport_spec hP).bind fun state => ?_
  refine ((onTransport_spec hP fun _ _ h => ?_).strengthen fun _ hs => hs.1).bind fun _ => ?_
  · exact appendEvent_step (.inl hvalue) h
  · exact .pure fun _ hs => hs.1

theorem publish_spec (hP : Stable P) {event : PeerRunEvent} :
    (quiet n).Triple (fun s => P s ∧ Holds [event] s) (publish p v runId event) fun _ => P := by
  have hsend : (quiet n).Triple (fun s => P s ∧ Holds [event] s) (send event) fun _ => P := by
    refine (quiet_step (Q := fun _ _ => True) (hP.and (.holds [event])) (fun _ => .true) ?_ ?_
      ?_).weaken fun _ _ hs => hs.1.1
    · intro s a hs
      exact ⟨.same, .same, .inr ⟨event, hs.2 event (List.mem_singleton_self _), rfl⟩, .inl rfl,
        .inl rfl, .inl rfl⟩
    · exact fun _ _ _ => ⟨rfl, rfl⟩
    · exact fun _ _ _ _ _ => trivial
  refine hsend.bind fun _ => (quiet_ask _ hP).bind fun answer => ?_
  cases answer with
  | failed => exact quiet_fail
  | denied => exact quiet_fail
  | receipt receipt =>
    refine (onTransport_spec hP fun _ _ h => acknowledgeEvent_step h).bind fun _ => ?_
    exact .pure fun _ hs => hs.1

theorem flush_spec (hP : Stable P) : (quiet n).Triple P (flush p v runId) fun _ => P := by
  refine (transport_spec hP).bind fun state => ?_
  have hloop : (quiet n).Triple (fun s => P s ∧ Holds state.events s)
      (Process.forEach (state.events.drop state.acknowledged) (publish p v runId))
      fun _ s => P s ∧ Holds state.events s := by
    refine .forEach fun event hevent => ?_
    refine (publish_spec (hP.and (.holds state.events))).strengthen fun s hs => ⟨hs, ?_⟩
    intro event' hevent'
    rw [List.mem_singleton.mp hevent']
    exact hs.2 event (List.mem_of_mem_drop hevent)
  exact hloop.conseq (fun _ hs => ⟨hs.1, hs.2.1⟩) fun _ _ hs => hs.1

/-! ## Recovery -/

theorem appendTerminal_spec :
    (quiet n).Triple (Knows outcome) (appendTerminal p v runId outcome) fun _ => Knows outcome := by
  unfold appendTerminal
  split
  · exact .same
  rename_i terminal hterminal
  refine (onTransport_spec (.knows outcome) fun hs _ h => ?_).bind fun _ => ?_
  · exact appendEvent_step (.inr ⟨outcome, hs, hterminal⟩) h
  · exact .pure fun _ hs => hs.1

theorem flushUnlessDenied_spec (hP : Stable P) :
    (quiet n).Triple P (flushUnlessDenied p v runId) fun _ => P := by
  refine (quiet_attempt hP (flush_spec hP)).bind fun result => ?_
  cases result with
  | ok _ => exact .same
  | error message =>
    simp only
    split
    · exact .same
    · exact quiet_fail

theorem retainSettlement_spec (hP : Stable P) :
    (quiet n).Triple P (retainSettlement p v runId outcome)
      fun result s => ∀ settlement, result = some settlement → Retains settlement s := by
  unfold retainSettlement
  split
  · exact .pure fun _ _ _ h => by cases h
  · refine (onTransport_spec hP fun _ hshows h => prepareSettlement_step hshows h).bind
      fun state => ?_
    exact .pure fun _ hs => hs.2.2

theorem settle_spec {settlement : PeerSettlement} :
    (quiet n).Triple (Retains settlement) (settle p v runId settlement) fun _ _ => True := by
  have hP := Stable.retains settlement
  refine (quiet_step (Q := fun _ _ => True) hP (fun _ => .true) ?_ ?_ ?_).bind fun _ => ?_
  · exact fun s _ hs => ⟨.same, .same, .inl rfl, .inr ⟨settlement, hs, rfl⟩, .inl rfl, .inl rfl⟩
  · exact fun _ _ _ => ⟨rfl, rfl⟩
  · exact fun _ _ _ _ _ => trivial
  refine (quiet_ask _ (hP.and .true)).bind fun answer => ?_
  cases answer with
  | error message => exact quiet_fail
  | ok receipt =>
    refine (onTransport_spec (hP.and .true) fun _ _ h => acknowledgeSettlement_step h).bind
      fun _ => ?_
    exact .skip

theorem recover_spec {record : RunRecord} :
    (quiet n).Triple (Recorded record) (recover p v runId record) fun _ _ => True := by
  unfold recover
  split
  · exact quiet_fail
  rename_i outcome houtcome
  refine (transport_spec (.recorded record)).bind fun state => ?_
  unfold recoverFrom
  split
  · exact .skip
  split
  · rename_i settlement hsettlement
    exact settle_spec.strengthen fun _ hs => hs.2.2 settlement hsettlement
  refine (appendTerminal_spec.strengthen fun _ hs => hs.1 outcome houtcome).bind fun _ => ?_
  refine (flushUnlessDenied_spec (.knows outcome)).bind fun _ => ?_
  refine (retainSettlement_spec (.knows outcome)).bind fun result => ?_
  cases result with
  | none => exact .skip
  | some settlement => exact settle_spec.strengthen fun _ hs => hs settlement rfl

theorem finishRun_spec (hP : Stable P) :
    (quiet n).Triple P (finishRun p runId outcome) fun record s => P s ∧ Recorded record s :=
  onRuns_record hP fun _ _ => RunJournal.finish_spec

theorem finishAndRecover_spec (hP : Stable P) :
    (quiet n).Triple P (finishAndRecover p v runId outcome) fun _ _ => True :=
  (finishRun_spec hP).bind fun _ => recover_spec.strengthen fun _ hs => hs.2

theorem loadRun_spec (hP : Stable P) :
    (quiet n).Triple P (loadRun p runId) fun record s => P s ∧ Recorded record s := by
  refine onRuns_record hP fun io j => ?_
  split
  · rw [RunJournal.load_files]
    exact ⟨.same, fun record h => RunJournal.load_shows (Prod.ext h rfl)⟩
  · exact ⟨.same, fun _ h => by cases h⟩

theorem conclude_spec :
    (quiet n).Triple (fun _ => True) (conclude p v runId emission) fun record => Recorded record := by
  refine (loadRun_spec .true).bind fun record => ?_
  refine (quiet_ask _ (Stable.true.and (.recorded record))).bind fun ended => ?_
  split
  · exact quiet_fail
  simp only
  split
  · exact (finishRun_spec (Stable.true.and (.recorded record))).weaken fun _ _ hs => hs.2
  · refine (transport_spec (Stable.true.and (.recorded record))).bind fun state => ?_
    refine (finishRun_spec .true).conseq (fun _ _ => trivial) fun _ _ hs => hs.2

theorem recoverPeerRun_spec :
    (quiet n).Triple (fun _ => True) (recoverPeerRun p v runId) fun _ _ => True := by
  refine (loadRun_spec .true).bind fun record => ?_
  have hP := Stable.true.and (.recorded record)
  refine (quiet_ask _ hP).bind fun active => (quiet_ask _ hP).bind fun settlementOpen => ?_
  split
  · exact .skip
  split
  · exact finishAndRecover_spec hP
  split
  · exact recover_spec.strengthen fun _ hs => hs.2
  · exact .skip

/-! ## The Runtime -/

theorem AdapterEvent.values_final {event : AdapterEvent}
    (h : event.status = none ∨ event.status = some .working) (hvalue : value ∈ event.values) :
    value.type.final = false := by
  unfold AdapterEvent.values at hvalue
  simp only [List.mem_append] at hvalue
  rcases hvalue with (hvalue | hvalue) | hvalue
  · rcases h with h | h
    · rw [h] at hvalue
      cases hvalue
    · rw [h] at hvalue
      rw [List.mem_singleton.mp hvalue]
      rfl
  · split at hvalue
    · rw [List.mem_singleton.mp hvalue]
      rfl
    · cases hvalue
  · split at hvalue
    · rename_i type members _
      rw [List.mem_singleton.mp hvalue]
      cases type <;> rfl
    · cases hvalue

theorem appendSession_spec (hP : Stable P) {session : Option String} :
    (quiet n).Triple P (appendSession p v runId session) fun _ => P := by
  cases session with
  | none => exact .same
  | some members => exact append_spec hP rfl

theorem appendAll_spec (hP : Stable P) {values : List EventValue}
    (hvalues : ∀ value ∈ values, value.type.final = false) :
    (quiet n).Triple P (appendAll p v runId values) fun _ => P := by
  refine .bind (.forEach fun value hvalue => append_spec hP (hvalues value hvalue)) fun _ => ?_
  exact flush_spec hP

theorem emit_spec (hP : Stable P) : (quiet n).Triple P (emit p v runId emission) fun _ => P := by
  refine (quiet_ask _ hP).bind fun event => ?_
  split
  · exact .same
  have hjournal : (event.status = none ∨ event.status = some .working) →
      (quiet n).Triple P (if event.values = [] then pure emission
        else do
          let _ ← (appendAll p v runId event.values).attempt
          pure { emission with reply := event.reply.getD emission.reply } : Routine Emission)
        fun _ => P := by
    intro hstatus
    split
    · exact .same
    · refine (quiet_attempt hP (appendAll_spec hP fun _ => AdapterEvent.values_final hstatus)).bind
        fun _ => ?_
      exact .same
  split
  · exact .same
  · rename_i hstatus
    exact hjournal (.inr hstatus)
  · rename_i hstatus
    exact hjournal (.inl hstatus)
  · refine (quiet_attempt hP (appendSession_spec hP)).bind fun _ => ?_
    exact .same

/-! ## Claims -/

/-- The execution has not claimed the start; it has, and has not used it. -/
def Fresh (n : Nat) (s : Participant) : Prop := n ∉ s.begun ∧ n ∉ s.invoked

def Claimed (n : Nat) (s : Participant) : Prop := n ∈ s.begun ∧ n ∉ s.invoked

/-- Nobody else claims or invokes in the name of this execution. -/
theorem Change.others {m : Nat} {s t : Participant} (h : Change m s t) (hne : m ≠ n) :
    (n ∈ t.begun ↔ n ∈ s.begun) ∧ (n ∈ t.invoked ↔ n ∈ s.invoked) := by
  constructor
  · rcases h.begun with hb | ⟨hb, -⟩ <;> rw [hb]
    simp [hne.symm]
  · rcases h.invoked with hi | ⟨hi, -⟩ <;> rw [hi]
    simp [hne.symm]

theorem fresh_stable : Preserved (execution n).rely (Fresh n) := by
  rintro s t ⟨m, hne, hchange⟩ hs
  obtain ⟨hbegun, hinvoked⟩ := hchange.others hne
  exact ⟨fun h => hs.1 (hbegun.mp h), fun h => hs.2 (hinvoked.mp h)⟩

theorem claimed_stable : Preserved (execution n).rely (Claimed n) := by
  rintro s t ⟨m, hne, hchange⟩ hs
  obtain ⟨hbegun, hinvoked⟩ := hchange.others hne
  exact ⟨hbegun.mpr hs.1, fun h => hs.2 (hinvoked.mp h)⟩

/-- A quiet routine leaves the claims of its execution as they are. -/
theorem lift_fresh (h : (quiet n).Triple P q Q) :
    (execution n).Triple (fun s => P s ∧ Fresh n s) q fun x s => Q x s ∧ Fresh n s := by
  refine Contract.Triple.frame (c := quiet n) (fun _ _ hrely => hrely) ?_ fresh_stable
    (fun _ _ _ => trivial) h
  rintro s t hs ⟨hchange, hbegun, hinvoked⟩
  refine ⟨hchange, ?_⟩
  rw [Fresh, hbegun, hinvoked]
  exact hs

theorem lift (h : (quiet n).Triple P q Q) : (execution n).Triple P q Q := by
  have hframe := Contract.Triple.frame (c := quiet n) (d := execution n) (F := fun _ => True)
    (fun _ _ hrely => hrely) (fun _ _ _ hguar => ⟨hguar.1, trivial⟩) (fun _ _ _ _ => trivial)
    (fun _ _ _ => trivial) h
  exact hframe.conseq (fun _ hs => ⟨hs, trivial⟩) fun _ _ hq => hq.1

theorem beginRun_spec :
    ((execution n).onFail (Fresh n)).Triple (Fresh n) (beginRun p runId n) fun _ => Claimed n := by
  refine .step ?_ ?_ (fun _ => claimed_stable) ?_ fresh_stable
  · intro s a hs
    obtain ⟨hstep, hok⟩ := @RunJournal.begin_spec p runId s.runs a.io
    split
    · rename_i record runs hbegin
      rw [hbegin] at hstep hok
      obtain ⟨hnone, hsome⟩ := hok record rfl
      exact ⟨hstep, .same, .inl rfl, .inl rfl, .inr ⟨rfl, hs.2, hnone, hsome⟩, .inl rfl⟩
    · rename_i e runs hbegin
      rw [hbegin] at hstep
      exact ⟨hstep, .same, .inl rfl, .inl rfl, .inl rfl, .inl rfl⟩
  · intro s a record hs h
    split at h
    · exact ⟨List.mem_append_right _ (List.mem_singleton_self _), hs.2⟩
    · cases h
  · intro s a e hs h
    split at h
    · cases h
    · exact hs

theorem executeManaged_spec :
    (execution n).Triple (Fresh n) (executeManaged p v runId n) fun _ _ => True := by
  have hask : ∀ {α : Type} (f : Answer → α) {F : Participant → Prop},
      Preserved (execution n).rely F →
      (execution n).Triple F (Process.ask f : Routine α) fun _ => F :=
    fun f _ hF => .ask hF (fun s _ => .refl n s) fun _ _ hs => hs
  refine (hask _ fresh_stable).bind fun ready => ?_
  split
  · refine (Contract.Triple.attempt beginRun_spec).bind fun result => ?_
    cases result with
    | error e => exact .skip
    | ok record =>
      refine Contract.Triple.bind (hask _ claimed_stable) fun live => ?_
      split
      · have hinvoke : (execution n).Triple (Claimed n) (invokeAdapter n) fun _ _ => True := by
          refine .act (fun _ => trivial) fun s _ hs => ?_
          exact ⟨.same, .same, .inl rfl, .inl rfl, .inl rfl, .inr ⟨rfl, hs.1, hs.2⟩⟩
        refine hinvoke.bind fun _ => lift ?_
        refine (quiet_ask _ .true).bind fun reports => ?_
        exact .iterate (J := fun _ _ => True) (fun _ => emit_spec .true) reports .none
      · exact .skip
  · exact .skip

theorem announce_spec : (quiet n).Triple (fun _ => True) (announce p v runId) fun _ _ => True := by
  refine (transport_spec .true).bind fun state => ?_
  split
  · exact (append_spec .true rfl).strengthen fun _ _ => trivial
  · exact .skip

theorem start_spec : (execution n).Triple (Fresh n) (start p v runId n) fun _ _ => True := by
  have hannounce := (lift_fresh (@announce_spec p v runId n)).strengthen
    fun s (hs : Fresh n s) => ⟨trivial, hs⟩
  refine hannounce.bind fun _ => ?_
  refine (lift_fresh (quiet_attempt .true (flush_spec .true))).bind fun result => ?_
  cases result with
  | error message =>
    simp only
    split
    · exact (lift (finishAndRecover_spec .true)).strengthen fun _ _ => trivial
    · exact .fail fun _ _ => trivial
  | ok _ =>
    refine (executeManaged_spec.strengthen fun _ hs => hs.2).bind fun emission => lift ?_
    exact conclude_spec.bind fun record => recover_spec

/-- Every action of an execution is a change in its own name. -/
theorem execute_spec {delivery : RunDelivery} :
    (execution n).Triple (Fresh n) (execute p v runId n delivery) fun _ _ => True := by
  have hreceive := lift_fresh (onRuns_record (n := n) .true
    fun io j => @RunJournal.receiveDelivery_spec p runId j io delivery)
  refine (hreceive.strengthen fun s hs => ⟨trivial, hs⟩).bind fun record => ?_
  split
  · exact (lift recover_spec).strengthen fun _ hs => hs.1.2
  split
  · exact (lift (finishAndRecover_spec .true)).strengthen fun _ _ => trivial
  refine (lift_fresh (quiet_ask _ (Stable.true.and (.recorded record)))).bind fun verified => ?_
  split
  · exact start_spec.strengthen fun _ hs => hs.2
  · exact .fail fun _ _ => trivial

end ConveneWire.Peer
