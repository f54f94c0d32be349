import ConveneWire.Governed.Routines

/-! # Executions of a governed Bridge

The coordinator, the runner, the handler and recovery as executions. The one that is
told to invoke finds the start on file, was told nothing before, and starts at most
one adapter. -/

namespace ConveneWire.Governed

open Bridge (RunRequest Record AdapterEvent)
open Admission
open Concurrent (Process Contract)
open Concurrent.Contract (Attempted)

variable {config : Config} {n : Nat} {P : Device → Prop} {run : String} {request : RunRequest}
  {α : Type} {s t : Device}

/-! ## Own history -/

/-- Nothing in the history is of this process. -/
def Fresh (n : Nat) (s : Device) : Prop :=
  ∀ run, (n, run) ∉ s.invoked ∧ (n, run) ∉ s.executed

/-- The process was told to invoke the Run and has started no adapter. -/
def Told (n : Nat) (run : String) (s : Device) : Prop :=
  (n, run) ∈ s.invoked ∧ ∀ other, (n, other) ∉ s.executed

/-- The part of the history that is of this process. -/
def SameOwn (n : Nat) (s t : Device) : Prop :=
  ∀ run, ((n, run) ∈ t.invoked ↔ (n, run) ∈ s.invoked) ∧
    ((n, run) ∈ t.executed ↔ (n, run) ∈ s.executed)

theorem Act.sameOwn {m : Nat} (h : Act config m s t) (hm : m ≠ n) : SameOwn n s t := by
  intro run
  refine ⟨?_, ?_⟩
  · rcases h.invoked with heq | ⟨other, heq, -⟩ <;> rw [heq]
    simp [Ne.symm hm]
  · rcases h.executed with heq | ⟨other, heq, -⟩ <;> rw [heq]
    simp [Ne.symm hm]

theorem Quiet.sameOwn (h : Quiet config s t) : SameOwn n s t := by
  intro run
  rw [h.invoked, h.executed]
  exact ⟨Iff.rfl, Iff.rfl⟩

/-- Facts about the own history only. -/
def Own (n : Nat) (F : Device → Prop) : Prop := ∀ ⦃s t⦄, SameOwn n s t → F s → F t

theorem Own.fresh : Own n (Fresh n) := fun _ _ h hs run =>
  ⟨fun hmem => (hs run).1 ((h run).1.mp hmem), fun hmem => (hs run).2 ((h run).2.mp hmem)⟩

theorem Own.told (run : String) : Own n (Told n run) := fun _ _ h hs =>
  ⟨(h run).1.mpr hs.1, fun other hmem => hs.2 other ((h other).2.mp hmem)⟩

theorem Own.true : Own n fun _ => True := fun _ _ _ _ => trivial

variable {record : Record} {ticket : GovernedAdmissionTicket} {view : RuntimeAdmissionView}
  {x : Execution} {p p : Routine α} {Q : α → Device → Prop} {manifest : RuntimeAdmissionSpec}
  {outcome : RuntimeOutcome} {f : α → Routine Unit} {event : AdapterEvent} {message : String}

/-- A quiet routine within an execution: the own history is framed around it. -/
theorem lift {F : Device → Prop} (hF : Own n F) (h : (quiet config n).Triple (In config P) p Q) :
    (execution config n).Triple (In config fun s => P s ∧ F s) p fun a s => Q a s ∧ F s := by
  have hframe := Contract.Triple.frame (c := quiet config n) (d := execution config n)
    (F := In config F) (fun _ _ hrely => hrely) ?_ ?_ (fun _ _ _ => trivial) h
  · refine hframe.conseq (fun s hs => ⟨⟨hs.1, hs.2.1⟩, hs.1, hs.2.2⟩) fun _ _ hs => ⟨hs.1, hs.2.2⟩
  · rintro s t ⟨hs, hf⟩ hguar
    have hquiet := hguar hs
    exact ⟨fun _ => hquiet.act, hquiet.valid, hF hquiet.sameOwn hf⟩
  · rintro s t hrely ⟨hs, hf⟩
    obtain ⟨m, hm, hact⟩ := hrely hs
    exact ⟨hact.valid, hF (hact.sameOwn hm) hf⟩

theorem lift_any (h : (quiet config n).Triple (In config P) p Q) :
    (execution config n).Triple (In config P) p Q :=
  (lift .true h).conseq (fun _ hs => ⟨hs.1, hs.2, trivial⟩) fun _ _ hs => hs.1

/-- An execution of worker `n` from a device with `P`. -/
abbrev Executes (config : Config) (n : Nat) (P : Device → Prop) (p : Routine Unit) : Prop :=
  (execution config n).Triple (In config P) p fun _ => In config fun _ => True

/-! ## The coordinator -/

theorem specOf_runId (manifest : RuntimeAdmissionSpec) (facts : LocalFacts) :
    (specOf manifest facts).runId = manifest.runId := rfl

theorem admits_specOf (h : config.manifest request = some manifest)
    (facts : LocalFacts) : Admits config request (specOf manifest facts) :=
  ⟨manifest, h, rfl⟩

/-- The ticket is for the request. -/
structure Fits (config : Config) (request : RunRequest) (ticket : GovernedAdmissionTicket) :
    Prop where
  requested : ticket.request = request
  manifest : config.manifest request = some ticket.manifest
  spec : ticket.admission.spec = specOf ticket.manifest ticket.facts

theorem Fits.runId (h : Fits config request ticket) :
    ticket.admission.spec.runId = request.runId := by
  rw [h.spec, specOf_runId]
  exact config.manifest_run h.manifest

theorem recheckLocal_spec (hP : Stable P) : Leaves config n P (recheckLocal manifest) := by
  refine (quiet_ask hP).bind fun preparation => ?_
  split
  · exact quiet_fail
  · split
    · exact quiet_pure
    · exact quiet_fail

theorem prepare_spec (hP : Stable P) :
    Yields config n (fun s => P s ∧ Held request s) (prepare config request)
      fun ticket _ => Fits config request ticket := by
  have hstable := hP.and (.held request)
  unfold prepare
  split
  · exact quiet_fail
  rename_i manifest hmanifest
  refine (recheckLocal_spec hstable).bind fun facts => ?_
  have hclaim : Leaves config n (fun s => P s ∧ Held request s)
      (fenceClaim config (specOf manifest facts)) :=
    fenceClaim_spec hP ((specOf_runId manifest facts).trans (config.manifest_run hmanifest))
      (admits_specOf hmanifest facts)
  refine hclaim.bind fun view => ?_
  split
  · exact quiet_fail
  rename_i hview
  have hspec : view.spec = specOf manifest facts :=
    Decidable.not_not.mp (not_or.mp hview).1
  exact .pure fun s hs => ⟨hs.1, hs.2, ⟨rfl, hmanifest, hspec⟩⟩

theorem authorize_spec (hP : Stable P) {expected : RuntimeAdmissionSpec} :
    Leaves config n P (authorize config ticket expected) := by
  unfold authorize
  split
  · exact quiet_fail
  refine (recheckLocal_spec hP).bind fun facts => ?_
  split
  · exact quiet_fail
  refine (quiet_ask hP).bind fun authority => ?_
  split
  · exact quiet_fail
  · exact quiet_pure

theorem classify_spec (hP : Stable P) : Yields config n P (classify config ticket message)
      fun outcome _ => ∀ view, outcome ≠ .decided view true := by
  refine (quiet_attempt_any hP (fenceGet_spec hP)).bind fun observed => ?_
  split
  · exact .pure fun s hs => ⟨hs.1, hs.2, fun _ h => by cases h⟩
  · split
    · exact .pure fun s hs => ⟨hs.1, hs.2, fun _ h => by cases h⟩
    · exact .pure fun s hs => ⟨hs.1, hs.2, fun _ h => by cases h⟩

/-- What a decision to invoke comes with. -/
def Decided (config : Config) (n : Nat) (ticket : GovernedAdmissionTicket) (outcome : StartOutcome)
    (s : Device) : Prop :=
  ∀ view, outcome = .decided view true →
    view.spec = ticket.admission.spec ∧ ShowsStart config view s ∧
      Told n ticket.admission.spec.runId s

theorem decided_true {view view' : RuntimeAdmissionView} {invoke : Bool}
    (h : decided ticket view invoke = .decided view' true) :
    view' = view ∧ invoke = true ∧ view.spec = ticket.admission.spec := by
  unfold decided at h
  split at h
  · cases h
  rename_i hsame
  split at h
  · cases h
  · cases h
    exact ⟨rfl, rfl, Decidable.not_not.mp (not_or.mp hsame).1⟩

/-- The commit of a start adds one to the history if the decision is to invoke. -/
theorem startCommitted_act (hs : s.Valid config) {expected : String} {seen : RuntimeAdmissionSpec}
    {now : Instant} {io : Bridge.Io} : Act config n s
      { s with
        fence := (s.fence.startCommitted config.codec run expected seen now io).2
        invoked :=
          match (s.fence.startCommitted config.codec run expected seen now io).1 with
          | .ok (_, true) => s.invoked ++ [(n, run)]
          | _ => s.invoked } := by
  rcases @RuntimeFenceStore.startCommitted_cases config.codec s.fence run expected now seen io with
    ⟨hsame, hnot⟩ | ⟨files, hfiles, hopen, hdigest, heq⟩
  · refine ⟨hs.withProcesses rfl rfl hsame hs.processes,
      withProcesses_grows rfl hsame (.of_eq rfl) rfl, .inl ?_, .inl rfl⟩
    dsimp only
    split
    · rename_i view hview
      exact absurd hview (hnot view)
    · rfl
  · have hchange : RuntimeFenceStore.Change config.codec s.fence
        (s.fence.startCommitted config.codec run expected seen now io).2 :=
      heq ▸ .started hfiles hopen
    have hclaim : ∀ {record}, (s.fence.startCommitted config.codec run expected seen now io).2 ≠
        s.fence.withClaim record := by
      intro record hclaim
      have hlength := congrArg (fun store => store.runs.length) (heq.symm.trans hclaim)
      simp [RuntimeFenceStore.withStart, RuntimeFenceStore.withClaim, Table.update] at hlength
    refine ⟨hs.withFence hchange (fun h _ => absurd h hclaim) rfl rfl rfl rfl,
      withFence_grows hchange rfl rfl rfl rfl, ?_, .inl rfl⟩
    dsimp only
    split
    · refine .inr ⟨run, rfl, ?_, ?_⟩
      · rintro ⟨found, start, hfound, hstart⟩
        obtain rfl := Option.mem_unique hfiles hfound
        rw [hopen] at hstart
        cases hstart
      · rw [heq, RuntimeFenceStore.withStart]
        exact ⟨_, _, RuntimeFenceStore.lookup_rewritten_self (by exact fun _ => rfl) hfiles, rfl⟩
    · exact .inl rfl

/-- The commit of a start by a process that was told nothing yet. -/
theorem startCommitted_spec (hP : Stable P) {expected : String} {seen : RuntimeAdmissionSpec} :
    ((execution config n).onFail (In config P)).Triple (In config fun s => P s ∧ Fresh n s)
      (startCommitted config n run expected seen) fun result => In config fun s =>
        P s ∧ (result.2 = true → ShowsStart config result.1 s ∧ Told n run s) := by
  have hact : ∀ (s : Device) (a : Answer), s.Valid config → Act config n s (if a.readable then
        (told (s.fence.startCommitted config.codec run expected seen a.now a.io).1,
          { s with
            fence := (s.fence.startCommitted config.codec run expected seen a.now a.io).2
            invoked :=
              match (s.fence.startCommitted config.codec run expected seen a.now a.io).1 with
              | .ok (_, true) => s.invoked ++ [(n, run)]
              | _ => s.invoked : Device })
      else (.error AdmissionError.io.text, s)).2 := by
    intro s a hs
    split
    · exact startCommitted_act hs
    · exact ⟨hs, .refl s, .inl rfl, .inl rfl⟩
  refine .step (fun s a hs _ => hact s a hs.1) ?_ ?_ ?_ hP.rely
  · intro s a result hs hresult
    have hafter := hact s a hs.1
    refine ⟨hafter.valid, hP hafter.grows hs.2.1, fun hinvoke => ?_⟩
    obtain ⟨view, invoke⟩ := result
    dsimp only at hinvoke
    subst hinvoke
    dsimp only at hresult ⊢
    split at hresult
    · have hok := told_eq_ok.mp hresult
      have hget := RuntimeFenceStore.startCommitted_view hok
      rename_i hreadable
      rw [if_pos hreadable]
      refine ⟨showsStart_of_get hget, ?_, fun other => (hs.2.2 other).2⟩
      dsimp only
      rw [hok]
      exact List.mem_append_right _ (List.mem_singleton_self _)
    · cases hresult
  · rintro result s t hrely ⟨hs, hp, hinvoke⟩
    obtain ⟨m, hm, hact⟩ := hrely hs
    exact ⟨hact.valid, hP hact.grows hp, fun h =>
      ⟨Stable.showsStart _ hact.grows (hinvoke h).1, Own.told run (hact.sameOwn hm) (hinvoke h).2⟩⟩
  · exact fun s a e hs _ => ⟨(hact s a hs.1).valid, hP (hact s a hs.1).grows hs.2.1⟩

theorem start_spec (hP : Stable P) :
    (execution config n).Triple (In config fun s => P s ∧ Fresh n s) (start config n ticket)
      fun outcome => In config fun s => P s ∧ Decided config n ticket outcome s := by
  have hundecided : ∀ {outcome}, (∀ view, outcome ≠ .decided view true) → ∀ s,
      In config P s → In config (fun s => P s ∧ Decided config n ticket outcome s) s :=
    fun h _ hs => ⟨hs.1, hs.2, fun view heq => absurd heq (h view)⟩
  have hclassify : ∀ message, (execution config n).Triple (In config P)
      (classify config ticket message) fun outcome => In config fun s =>
        P s ∧ Decided config n ticket outcome s := fun message =>
    (lift_any (classify_spec hP)).weaken fun outcome s hs =>
      hundecided hs.2.2 s ⟨hs.1, hs.2.1⟩
  have hdrop : ∀ {s}, In config (fun s => P s ∧ Fresh n s) s → In config P s :=
    fun hs => ⟨hs.1, hs.2.1⟩
  unfold start
  dsimp only
  split
  · exact .pure fun s hs => hundecided (fun _ h => by cases h) s (hdrop hs)
  have hobserved := lift .fresh (quiet_attempt hP (@startObserved_spec config n P
    ticket.admission.spec.runId hP ticket.admission.admissionDigest))
  refine hobserved.bind fun observed => ?_
  cases observed with
  | error message => exact (hclassify message).strengthen fun s hs => hs.1
  | ok view =>
    dsimp only [Attempted]
    split
    · refine .pure fun s hs => hundecided (fun view' h => ?_) s ⟨hs.1.1, hs.1.2.1⟩
      obtain ⟨-, hfalse, -⟩ := decided_true h
      cases hfalse
    have hauthorize := lift .fresh (quiet_attempt_any hP
      (@authorize_spec config n P ticket hP view.spec))
    refine (hauthorize.strengthen fun s hs => ⟨hs.1.1, hs.1.2.1, hs.2⟩).bind fun authorized => ?_
    cases authorized with
    | error message => exact .pure fun s hs => hundecided (fun _ h => by cases h) s hs.1
    | ok _ =>
      have hcommit := Contract.Triple.attempt (@startCommitted_spec config n P
        ticket.admission.spec.runId hP ticket.admission.admissionDigest view.spec)
      refine (hcommit.strengthen fun s hs => ⟨hs.1.1, hs.1.2, hs.2⟩).bind fun committed => ?_
      cases committed with
      | error message => exact hclassify message
      | ok result =>
        obtain ⟨current, invoke⟩ := result
        refine .pure fun s hs => ⟨hs.1, hs.2.1, fun view' heq => ?_⟩
        obtain ⟨rfl, rfl, hspec⟩ := decided_true heq
        exact ⟨hspec, hs.2.2 rfl⟩

theorem stop_spec (hP : Stable P) : Leaves config n P (stop config ticket view outcome) := by
  unfold stop
  split
  · exact quiet_fail
  split
  · exact quiet_fail
  refine (fenceStop_spec hP).bind fun closed => ?_
  split
  · exact quiet_fail
  · exact quiet_pure

/-! ## The runner -/

theorem onEvent_spec (hP : Stable P) (hstarted : ∀ s, P s → HasStarted s.fence request.runId) :
    Leaves config n P (onEvent config request x event) := by
  unfold onEvent
  split
  · exact quiet_pure
  split
  · exact quiet_pure
  refine (onSlot_plain hP (fun s hs _ => hstarted s hs) emit_plain).bind fun (_, result) => ?_
  cases result with
  | ok _ => exact quiet_pure
  | error _ => exact quiet_pure

theorem reports_spec (hP : Stable P) (hstarted : ∀ s, P s → HasStarted s.fence request.runId) :
    Leaves config n P (reports config request x) := by
  refine (quiet_ask hP).bind fun count => ?_
  exact .iterate (J := fun _ => In config P)
    (fun _ => (quiet_ask hP).bind fun _ => onEvent_spec hP hstarted) count x

theorem runProcess_spec (hP : Stable P) (hstarted : ∀ s, P s → HasStarted s.fence request.runId)
    {lease : Nat} {launch : Launch} :
    Leaves config n P (runProcess config request lease launch x) := by
  unfold runProcess
  split
  · exact reports_spec hP hstarted
  · exact reports_spec hP hstarted
  · exact (quiet_attempt_any hP (abandon_spec hP)).bind fun _ => reports_spec hP hstarted
  · refine (quiet_attempt_any hP (started_spec hP)).bind fun result => ?_
    split
    · exact (quiet_attempt_any hP (finished_spec hP)).bind fun _ => reports_spec hP hstarted
    · exact (reports_spec hP hstarted).bind fun _ =>
        (quiet_attempt_any hP (finished_spec hP)).bind fun _ => reports_spec hP hstarted

/-- The one adapter of the process that was told to invoke. -/
theorem executeAdapter_spec (hP : Stable P) {identity : GovernedProcessIdentity}
    (hrun : identity.runId = request.runId)
    (hidentity : ∀ s, P s → StartedAs config s.fence identity) :
    (execution config n).Triple (In config fun s => P s ∧ Told n request.runId s)
      (executeAdapter config n request identity x) fun _ => In config P := by
  have hstarted : ∀ s, P s → HasStarted s.fence request.runId :=
    fun s hs => hrun ▸ (hidentity s hs).hasStarted
  have hexecute : (execution config n).Triple (In config fun s => P s ∧ Told n request.runId s)
      (Process.step fun s _ =>
        (.ok (), { s with executed := s.executed ++ [(n, request.runId)] }) : Routine Unit)
      fun _ => In config P := by
    have hact : ∀ s : Device, s.Valid config → Told n request.runId s → Act config n s
        { s with executed := s.executed ++ [(n, request.runId)] } := fun s hs htold =>
      ⟨hs.withProcesses rfl rfl rfl hs.processes, withProcesses_grows rfl rfl (.of_eq rfl) rfl,
        .inl rfl, .inr ⟨_, rfl, htold⟩⟩
    refine .step_free (fun _ => trivial) (fun s _ hs _ => hact s hs.1 hs.2.2) ?_ fun _ => hP.rely
    intro s _ _ hs _
    have hafter := hact s hs.1 hs.2.2
    exact ⟨hafter.valid, hP hafter.grows hs.2.1⟩
  refine hexecute.bind fun _ => lift_any ?_
  refine (reports_spec hP hstarted).bind fun x => (quiet_ask hP).bind fun launch => ?_
  split
  · exact quiet_pure
  have hprepare : Leaves config n P (prepareProcess config identity) :=
    quiet_pre (fun s _ hs => ⟨hs, hidentity s hs⟩) (prepareProcess_spec hP)
  refine (quiet_attempt_any hP hprepare).bind fun result => ?_
  split
  · exact reports_spec hP hstarted
  · exact runProcess_spec hP hstarted

theorem terminalEvent_spec (hP : Stable P) : Leaves config n P (terminalEvent outcome event) := by
  unfold terminalEvent
  split
  · exact (quiet_ask hP).bind fun _ => quiet_pure
  · exact quiet_pure

theorem conclude_spec (hP : Stable P)
    (hstarted : ∀ s, P s → HasStarted s.fence ticket.request.runId) {executed : Bool} :
    Leaves config n P (conclude config ticket view executed x) := by
  unfold conclude
  split
  · exact (stop_spec hP).bind fun _ => quiet_fail
  split
  · exact (stop_spec hP).bind fun _ => quiet_fail
  refine (terminalEvent_spec hP).bind fun event => (stop_spec hP).bind fun _ => ?_
  refine (onSlot_plain hP (fun s hs _ => hstarted s hs) emit_plain).bind fun (_, result) => ?_
  cases result with
  | ok _ => exact quiet_pure
  | error _ => exact quiet_fail

theorem fencedIdentity_eq {identity : GovernedProcessIdentity}
    (h : GovernedProcessStore.fencedIdentity view = some identity) :
    view.state = .starting ∧ ∃ startDigest, view.startDigest = some startDigest ∧
      identity = ⟨view.spec.runId, view.admissionDigest, startDigest⟩ := by
  unfold GovernedProcessStore.fencedIdentity at h
  split at h
  · rename_i startDigest hstate hstart
    cases h
    exact ⟨hstate, startDigest, hstart, rfl⟩
  · cases h

theorem runRuntime_spec (hfits : Fits config request ticket)
    (hspec : view.spec = ticket.admission.spec) :
    (execution config n).Triple
      (In config fun s => ShowsStart config view s ∧ Told n request.runId s)
      (runRuntime config n ticket view record) fun _ => In config (ShowsStart config view) := by
  have hP : Stable (ShowsStart config view) := Stable.showsStart view
  unfold runRuntime
  split
  · exact .fail fun _ _ => trivial
  rename_i identity hidentity
  obtain ⟨-, startDigest, hstart, rfl⟩ := fencedIdentity_eq hidentity
  have hrun : view.spec.runId = request.runId := by rw [hspec]; exact hfits.runId
  split
  · exact .fail fun _ _ => trivial
  have hask := lift (Own.told request.runId) (@quiet_ask config n _ _ Answer.runnable hP)
  refine (hask.weaken fun _ s hs => (⟨hs.1.1, hs.1.2, hs.2⟩ :
    In config (fun s => ShowsStart config view s ∧ Told n request.runId s) s)).bind
    fun runnable => ?_
  split
  · refine ((lift_any ((stop_spec hP).bind fun _ => quiet_fail)).strengthen
      fun s hs => ⟨hs.1, hs.2.1⟩)
  have hexecute := @executeAdapter_spec config n _ request (.begin record) hP
    ⟨view.spec.runId, view.admissionDigest, startDigest⟩ hrun
    fun s hs => hs startDigest hstart
  rw [hfits.requested]
  refine hexecute.bind fun x => lift_any ((quiet_ask hP).bind fun executed => ?_)
  refine conclude_spec hP fun s hs => ?_
  rw [hfits.requested, ← hrun]
  exact (hs startDigest hstart).hasStarted

section

variable (hfits : Fits config record.request ticket)
include hfits

theorem executeAdmitted_spec (hspec : view.spec = ticket.admission.spec) :
    Executes config n (fun s => ShowsStart config view s ∧ Told n record.request.runId s)
      (executeAdmitted config n ticket view record) := by
  have hany : ∀ {p : Routine Unit}, Leaves config n (fun _ => True) p →
      Executes config n (fun s => ShowsStart config view s ∧ Told n record.request.runId s) p :=
    fun h => (lift_any h).strengthen fun s hs => ⟨hs.1, trivial⟩
  unfold executeAdmitted
  dsimp only
  split
  · exact hany (onSlot_silent .true failBeforeRuntime_plain)
  split
  · exact hany (onSlot_silent .true failBeforeRuntime_plain)
  have hrun : ((execution config n).onFail (In config fun _ => True)).Triple
      (In config fun s => ShowsStart config view s ∧ Told n record.request.runId s)
      (runRuntime config n ticket view record) fun _ => In config fun _ => True := by
    have hframe := Contract.Triple.frame (c := execution config n)
      (d := (execution config n).onFail (In config fun _ => True)) (F := In config fun _ => True)
      (fun _ _ hrely => hrely) (fun s t hs hguar => ⟨hguar, (hguar hs.1).valid, trivial⟩)
      Stable.true.rely (fun _ hs _ => hs)
      (@runRuntime_spec config n record.request record ticket view hfits hspec)
    exact hframe.conseq (fun s hs => ⟨hs, hs.1, trivial⟩) fun _ _ hs => hs.2
  refine hrun.attempt.bind fun result => ?_
  cases result with
  | ok _ => exact lift_any (onSlot_silent .true clearTerminalCancellationFence_plain)
  | error message =>
    refine lift_any ((onSlot_silent .true load_plain).bind fun latest => ?_)
    split
    · exact quiet_fail
    · exact onSlot_silent .true emitUnknown_plain

/-! ## The handler -/

theorem afterStart_spec {outcome : StartOutcome} :
    Executes config n (Decided config n ticket outcome)
      (afterStart config n ticket record outcome) := by
  have hdrop : ∀ s, In config (Decided config n ticket outcome) s → In config (fun _ => True) s :=
    fun _ hs => ⟨hs.1, trivial⟩
  unfold afterStart
  split
  · exact .fail fun _ _ => trivial
  · refine (lift_any ((onSlot_silent .true isExplicitCancel_plain).bind
      fun explicit => ?_)).strengthen hdrop
    split
    · exact onSlot_silent .true cancelAfterAcceptance_plain
    split
    · exact quiet_fail
    · exact onSlot_silent .true failBeforeRuntime_plain
  · refine (lift_any ((onSlot_silent .true get_plain).bind fun latest => ?_)).strengthen hdrop
    split
    · exact quiet_fail
    split
    · exact onSlot_silent .true replay_plain
    · exact quiet_fail
  · rename_i view
    refine .assume (R := view.spec = ticket.admission.spec) (fun s hs => (hs.2 view rfl).1)
      fun hspec => (executeAdmitted_spec hfits hspec).strengthen fun s hs => ?_
    obtain ⟨-, hshows, htold⟩ := hs.2 view rfl
    exact ⟨hs.1, hshows, hfits.runId ▸ htold⟩

theorem startRun_spec : Executes config n (Fresh n) (startRun config n ticket record) := by
  refine ((lift .fresh (quiet_ask .true)).conseq (fun s hs => ⟨hs.1, trivial, hs.2⟩)
    fun _ s hs => (⟨hs.1.1, trivial, hs.2⟩ :
      In config (fun s => True ∧ Fresh n s) s)).bind fun ready => ?_
  split
  · exact .fail fun _ _ => trivial
  · exact (start_spec .true).bind fun outcome =>
      (afterStart_spec hfits).strengthen fun s hs => ⟨hs.1, hs.2.2⟩

end

/-- A quiet routine before the start. -/
theorem before {Q : α → Device → Prop} (hp : Yields config n P p Q)
    (hf : ∀ a, Executes config n (fun s => (P s ∧ Q a s) ∧ Fresh n s) (f a)) :
    Executes config n (fun s => P s ∧ Fresh n s) (p >>= f) :=
  (lift .fresh hp).bind fun a => (hf a).strengthen fun _ hs => ⟨hs.1.1, hs.1.2, hs.2⟩

theorem before_any (hp : Leaves config n P p)
    (hf : ∀ a, Executes config n (fun s => P s ∧ Fresh n s) (f a)) :
    Executes config n (fun s => P s ∧ Fresh n s) (p >>= f) :=
  (lift .fresh hp).bind fun a => (hf a).strengthen fun _ hs => ⟨hs.1.1, hs.1.2, hs.2⟩

/-- A quiet routine at the end. -/
theorem atLast {p : Routine Unit} (hp : Leaves config n P p) :
    Executes config n (fun s => P s ∧ Fresh n s) p :=
  (lift_any hp).conseq (fun _ hs => ⟨hs.1, hs.2.1⟩) fun _ _ hs => ⟨hs.1, trivial⟩

theorem enterGate_spec (hfits : Fits config record.request ticket) :
    Executes config n (fun s => True ∧ Fresh n s) (enterGate config n ticket record) := by
  have hstart : Executes config n (fun s => True ∧ Fresh n s) (startRun config n ticket record) :=
    (startRun_spec hfits).strengthen fun _ hs => ⟨hs.1, hs.2.2⟩
  unfold enterGate
  split
  · exact hstart
  refine before_any (quiet_ask .true) fun acquired => ?_
  split
  · exact atLast (onSlot_silent .true handleQueueExit_plain)
  refine before_any (onSlot_silent .true isCanceled_plain) fun canceled => ?_
  split
  · exact atLast (onSlot_silent .true cancelAfterAcceptance_plain)
  · exact hstart

theorem acknowledge_spec (hfits : Fits config request ticket) :
    Executes config n (fun s => (True ∧ Held request s) ∧ Fresh n s)
      (acknowledge config n ticket request.runId) := by
  have htransition : Yields config n (fun s => True ∧ Held request s)
    (onSlot request.runId (Bridge.Inbox.transitionLocalState .preparing .accepted))
      fun r _ => r.request = request :=
    onSlot_rewrite .true (transition_decent nofun)
  refine before htransition fun record => ?_
  refine .assume (R := record.request = request) (fun s hs => hs.2.1.2) fun hrecord => ?_
  have hfits : Fits config record.request ticket := hrecord ▸ hfits
  refine .strengthen (P := In config fun s => True ∧ Fresh n s) ?_
    fun s hs => ⟨hs.1, trivial, hs.2.2⟩
  refine before_any (onSlot_silent .true isCanceled_plain) fun canceled => ?_
  split
  · exact atLast (onSlot_silent .true cancelUnadmitted_plain)
  · exact before_any (onSlot_silent .true send_plain) fun _ => enterGate_spec hfits

theorem prepareFailed_spec :
    Leaves config n (fun _ => True) (prepareFailed config record run message) := by
  refine (onSlot_silent .true isExplicitCancel_plain).bind fun explicit => ?_
  split
  · exact onSlot_silent .true cancelUnadmitted_plain
  split
  · exact quiet_fail
  · exact (onSlot_silent .true (transition_plain (by nofun))).bind fun _ =>
      onSlot_silent .true failBeforeAcceptance_plain

theorem prepareRun_spec (hrecord : record.request = request) :
    Executes config n (fun s => (True ∧ Held request s) ∧ Fresh n s)
      (prepareRun config n record request.runId) := by
  have hprepare := quiet_attempt (n := n) (Stable.true.and (.held request))
    (@prepare_spec config n _ request .true)
  rw [← hrecord] at hprepare ⊢
  refine (lift .fresh hprepare).bind fun result => ?_
  cases result with
  | error message =>
    exact (lift_any prepareFailed_spec).strengthen fun s hs => ⟨hs.1.1, trivial⟩
  | ok ticket =>
    refine .assume (R := Fits config record.request ticket) (fun s hs => hs.1.2.2) fun hfits => ?_
    exact (acknowledge_spec hfits).strengthen fun s hs => ⟨hs.1.1, hs.1.2.1, hs.2⟩

theorem admitRecord_spec {duplicate : Bool} (hrecord : record.request = request) :
    Executes config n (fun s => (True ∧ Held request s) ∧ Fresh n s)
      (admitRecord config n record duplicate request.runId) := by
  unfold admitRecord
  split
  · exact atLast (onSlot_silent (Stable.true.and (.held _)) acknowledgeTerminal_plain)
  split
  · exact .fail fun _ _ => trivial
  split
  · have htransition : Yields config n (fun s => True ∧ Held request s)
      (onSlot request.runId (Bridge.Inbox.transitionLocalState .accepted .preparing))
        fun r _ => r.request = request :=
      onSlot_rewrite .true (transition_decent nofun)
    refine before htransition fun next => ?_
    refine .assume (R := next.request = request) (fun s hs => hs.2.1.2) fun hnext => ?_
    exact (prepareRun_spec hnext).strengthen fun s hs => ⟨hs.1, hs.2.1.1, hs.2.2⟩
  split
  · exact prepareRun_spec hrecord
  · exact .fail fun _ _ => trivial

theorem handle_spec : Executes config n (Fresh n) (handle config n request) := by
  unfold handle
  split
  · exact .fail fun _ _ => trivial
  rename_i hsupported
  obtain ⟨hgoverned, -⟩ := not_or.mp hsupported
  have haccept : (quiet config n).Triple (In config fun _ => True)
      (onSlot request.runId (Bridge.Inbox.accept config.inbox request)) fun accepted =>
        In config fun s => True ∧ Holds accepted.1.request (s.slots request.runId) :=
    (onSlot_spec .true (fun _ _ hf => False.elim hf)
      (accept_holds rfl (Decidable.not_not.mp hgoverned))).conseq (fun s hs => ⟨trivial, hs⟩)
        fun _ _ hs => ⟨hs.2.1, trivial, hs.1⟩
  refine .strengthen (P := In config fun s => True ∧ Fresh n s) ?_ fun s hs => ⟨hs.1, trivial, hs.2⟩
  refine before haccept fun accepted => ?_
  obtain ⟨record, duplicate⟩ := accepted
  -- the record of a Run bears its name
  refine .assume (R := record.request.runId = request.runId) (fun s hs => ?_) fun hrun => ?_
  · obtain ⟨r, hr, hsame⟩ := hs.2.1.2
    have hgoverned := hs.1.records hr
    exact hsame ▸ hgoverned.request
  refine .strengthen (P := In config fun s => (True ∧ Held record.request s) ∧ Fresh n s) ?_
    fun s hs => ⟨hs.1, ⟨trivial, ?_⟩, hs.2.2⟩
  · rw [← hrun]
    refine before_any (onSlot_silent (Stable.true.and (.held _)) hasCancellation_plain)
      fun canceled => ?_
    split
    · exact atLast (onSlot_silent (Stable.true.and (.held _)) cancelUnadmitted_plain)
    · exact admitRecord_spec rfl
  · rw [Held, hrun]
    exact hs.2.1.2

/-! ## Recovery -/

theorem listRecords_spec (hP : Stable P) :
    Yields config n P listRecords
      fun records _ => ∀ record ∈ records, record.request.governed = true := by
  refine quiet_step hP ?_ (fun _ _ _ _ h => h) ?_
  · intro s a hs _
    split
    · exact .refl hs
    · exact .refl hs
    · exact .refl hs
  · intro s a records hs _ hrecords record hrecord
    split at hrecords
    · cases hrecords
      obtain ⟨run, -, hr⟩ := List.mem_filterMap.mp hrecord
      exact (hs.records hr).governed
    · cases hrecords
    · cases hrecords

theorem closeStarting_spec : Leaves config n (fun _ => True) (closeStarting config n view) := by
  unfold closeStarting
  split
  · refine (fenceAndWait_spec .true).bind fun _ => (fenceStop_spec .true).bind fun closed => ?_
    split
    · exact quiet_fail
    · exact quiet_pure
  · exact quiet_pure

theorem closeAll_spec (views : List RuntimeAdmissionView) :
    Leaves config n (fun _ => True) (closeAll config n views) := by
  induction views with
  | nil => exact quiet_pure
  | cons view rest ih => exact closeStarting_spec.bind fun _ => ih.bind fun _ => quiet_pure

theorem recover_spec : Leaves config n (fun _ => True) (recover config n) := by
  refine (fenceAll_spec .true).bind fun _ => (quiet_post (listRecords_spec .true)).bind
    fun records => (fenceList_spec .true).bind fun views => ?_
  split
  · exact quiet_fail
  refine (closeAll_spec views).bind fun closed => ?_
  split
  · exact quiet_fail
  · exact quiet_forEach fun _ _ => onSlot_silent .true recoverRecord_plain

theorem recoverAll_spec : Leaves config n (fun _ => True) (recoverAll config n) := by
  refine recover_spec.bind fun _ => (listRecords_spec .true).bind fun records => ?_
  refine quiet_value fun hgoverned => ?_
  -- every record of this Bridge is a governed one
  have hnone : (records.filter fun record => !record.request.governed) = [] :=
    List.filter_eq_nil_iff.mpr fun record hrecord => by simp [hgoverned record hrecord]
  rw [hnone]
  exact quiet_pure

end ConveneWire.Governed
