import ConveneWire.Governed.Valid

/-! # The routines of a governed Bridge keep to their contract

An execution promises to all others that each of its actions keeps the stores in
agreement and adds to the history only what is its own. Most routines are `quiet`:
they are never told to invoke and start no adapter. -/

namespace ConveneWire.Governed

open Bridge (RunSlot RunRequest Record)
open Admission
open Concurrent (Process Contract)
open Concurrent.Contract (Attempted)
open Transition (Preserved)
open RuntimeFenceStore
open GovernedProcessStore (LeasesKept Tends prepareProcess_prepares started_onLease abandon_onLease)

/-! ## The contracts -/

/-- One action of the `n`-th process. -/
structure Act (config : Config) (n : Nat) (s t : Device) : Prop where
  valid : t.Valid config
  grows : Grows s t
  invoked : t.invoked = s.invoked ∨ ∃ run, t.invoked = s.invoked ++ [(n, run)] ∧
    ¬ HasStarted s.fence run ∧ HasStarted t.fence run
  executed : t.executed = s.executed ∨ ∃ run, t.executed = s.executed ++ [(n, run)] ∧
    (n, run) ∈ s.invoked ∧ ∀ other, (n, other) ∉ s.executed

/-- An action that neither is told to invoke nor starts an adapter. -/
structure Quiet (config : Config) (s t : Device) : Prop where
  valid : t.Valid config
  grows : Grows s t
  invoked : t.invoked = s.invoked
  executed : t.executed = s.executed

def execution (config : Config) (n : Nat) : Contract Device where
  rely := fun s t => s.Valid config → ∃ m, m ≠ n ∧ Act config m s t
  guar := fun s t => s.Valid config → Act config n s t
  fails := fun _ => True

def quiet (config : Config) (n : Nat) : Contract Device :=
  { execution config n with guar := fun s t => s.Valid config → Quiet config s t }

/-- Facts that no action can spoil. -/
def Stable (P : Device → Prop) : Prop := ∀ ⦃s t⦄, Grows s t → P s → P t

/-- The stores agree, and `P`. -/
def In (config : Config) (P : Device → Prop) (s : Device) : Prop := s.Valid config ∧ P s

variable {config : Config} {n : Nat} {P : Device → Prop} {run : String} {request : RunRequest}
  {α β : Type} {s t : Device}

theorem Grows.refl (s : Device) : Grows s s where
  slots := fun _ => .refl _
  fence := fun hfiles => ⟨_, hfiles, rfl, fun _ h => h⟩
  leases := .of_eq rfl
  fenced := fun _ h => h

theorem Quiet.refl (h : s.Valid config) : Quiet config s s := ⟨h, .refl s, rfl, rfl⟩

theorem Quiet.act (h : Quiet config s t) : Act config n s t :=
  ⟨h.valid, h.grows, .inl h.invoked, .inl h.executed⟩

theorem Stable.true : Stable fun _ => True := fun _ _ _ _ => trivial

variable {identity : GovernedProcessIdentity} {lease : Nat}
  {observation : GovernedProcessObservation} {outcome : RuntimeOutcome} {P' : Device → Prop}
  {p : Routine α} {Q : α → Device → Prop} {f : Device → Answer → Except String α × Device}

theorem Stable.and (h : Stable P) (h' : Stable P') : Stable fun s => P s ∧ P' s :=
  fun _ _ hgrows hs => ⟨h hgrows hs.1, h' hgrows hs.2⟩

theorem Stable.rely (h : Stable P) : Preserved (execution config n).rely (In config P) := by
  rintro s t hst ⟨hvalid, hs⟩
  obtain ⟨m, -, hact⟩ := hst hvalid
  exact ⟨hact.valid, h hact.grows hs⟩

/-- The record of the Run is one of this request. -/
def Held (request : RunRequest) (s : Device) : Prop := Holds request (s.slots request.runId)

theorem Stable.held (request : RunRequest) : Stable (Held request) :=
  fun _ _ hgrows hs => holds_kept (hgrows.slots _) hs

theorem Stable.startedAs (identity : GovernedProcessIdentity) :
    Stable fun s => StartedAs config s.fence identity :=
  fun _ _ hgrows hs => hs.kept hgrows.fence

/-! ## Rules -/

/-- A quiet routine after which `P` still holds. -/
abbrev Leaves (config : Config) (n : Nat) (P : Device → Prop) (p : Routine α) : Prop :=
  (quiet config n).Triple (In config P) p fun _ => In config P

/-- And which returns a value with `Q`. -/
abbrev Yields (config : Config) (n : Nat) (P : Device → Prop) (p : Routine α)
    (Q : α → Device → Prop) : Prop :=
  (quiet config n).Triple (In config P) p fun x => In config fun s => P s ∧ Q x s

theorem quiet_step (hP : Stable P) (hact : ∀ s a, s.Valid config → P s → Quiet config s (f s a).2)
    (hQ : ∀ a, Stable (Q a))
    (hok : ∀ s a x, s.Valid config → P s → (f s a).1 = .ok x → Q x (f s a).2) :
    Yields config n P (Process.step f) Q := by
  refine .step_free (fun _ => trivial) ?_ ?_ ?_
  · exact fun s a hs _ => hact s a hs.1 hs.2
  · intro s a x hs hx
    have hquiet := hact s a hs.1 hs.2
    exact ⟨hquiet.valid, hP hquiet.grows hs.2, hok s a x hs.1 hs.2 hx⟩
  · exact fun x => (hP.and (hQ x)).rely

theorem quiet_ask {f : Answer → α} (hP : Stable P) :
    Leaves config n P (Process.ask f : Routine α) :=
  .ask hP.rely (fun _ hs _ => .refl hs.1) fun _ _ hs => hs

theorem quiet_fail {message : String} :
    (quiet config n).Triple (In config P) (Process.fail message : Routine α) Q :=
  .fail fun _ _ => trivial

theorem quiet_pure {a : α} : Leaves config n P (pure a : Routine α) :=
  .same

/-- A caller that catches failures still knows what no action can spoil. -/
theorem quiet_attempt (hP : Stable P) (h : (quiet config n).Triple (In config P) p Q) :
    (quiet config n).Triple (In config P) p.attempt (Attempted Q (In config P)) := by
  have hframed : ((quiet config n).onFail (In config P)).Triple (In config P) p Q := by
    intro s hs
    have hkeeps := Contract.Keeps.frame (c := quiet config n)
      (d := (quiet config n).onFail (In config P)) (F := In config P) (fun _ _ hrely => hrely)
      (fun s t hs hguar => ⟨hguar, (hguar hs.1).valid, hP (hguar hs.1).grows hs.2⟩) hP.rely
      (fun _ hs _ => hs) hs (h s hs)
    exact hkeeps.mono fun _ _ hq => hq.1
  exact hframed.attempt

/-- The same where the outcome does not matter. -/
theorem quiet_attempt_any (hP : Stable P) (h : Leaves config n P p) :
    Leaves config n P p.attempt := by
  refine (quiet_attempt hP h).weaken fun r s hr => ?_
  cases r with
  | ok a => exact hr
  | error e => exact hr

theorem quiet_forEach {xs : List β} {f : β → Routine PUnit}
    (h : ∀ x ∈ xs, Leaves config n P (f x)) : Leaves config n P (Process.forEach xs f) :=
  .forEach h

/-- A fact about values alone, or one that holds wherever `P` does. -/
theorem quiet_pre (hP : ∀ s, s.Valid config → P' s → P s)
    (h : (quiet config n).Triple (In config P) p Q) : (quiet config n).Triple (In config P') p Q :=
  h.strengthen fun s hs => ⟨hs.1, hP s hs.1 hs.2⟩

theorem quiet_post (h : (quiet config n).Triple P' p fun a => In config fun s => P s ∧ Q a s) :
    (quiet config n).Triple P' p fun _ => In config P :=
  h.weaken fun _ _ hs => ⟨hs.1, hs.2.1⟩

theorem quiet_act (hP : Stable P) (hact : ∀ s a, s.Valid config → P s → Quiet config s (f s a).2) :
    Leaves config n P (Process.step f) :=
  quiet_post (quiet_step hP hact (fun _ => .true) fun _ _ _ _ _ _ => trivial)

/-- Takes a fact about values out of the precondition. -/
theorem quiet_value {R : Prop} (h : R → (quiet config n).Triple (In config P) p Q) :
    (quiet config n).Triple (In config fun s => P s ∧ R) p Q :=
  .assume (fun _ hs => hs.2.2) fun hR => quiet_pre (fun _ _ hs => hs.1) (h hR)

/-! ## Actions on one store -/

variable {expectedAdmission expectedStart : String} {p : Bridge.Routine α}
  {f : GovernedProcessStore → Answer → Except AdmissionError α × GovernedProcessStore}
  {Q : α → Device → Prop} {store : RuntimeFenceStore} {view : RuntimeAdmissionView} {absent : Bool}
  {io : Bridge.Io} {now : Instant}

/-- A routine of the inbox, in the slot of its Run. -/
theorem onSlot_spec {W : Prop} {A : RunSlot → Prop} {B : α → RunSlot → Prop} (hP : Stable P)
    (hW : ∀ s, P s → W → HasStarted s.fence run) (h : (keeping run W).Triple A p B) :
    (quiet config n).Triple (fun s => A (s.slots run) ∧ In config P s) (onSlot run p) fun a s =>
      B a (s.slots run) ∧ In config P s := by
  refine .zoom (fun _ _ => withSlot_self) ?_ ?_ (fun _ _ _ => trivial) h
  · rintro s t hs hrely
    have ht := hP.rely hrely hs
    obtain ⟨m, -, hact⟩ := hrely hs.1
    exact ⟨ht, .single (hact.grows.slots run)⟩
  · intro s x hs hstep
    have hgrows := withSlot_grows hstep.true
    have hvalid := hs.1.withSlot hstep (hW s hs.2)
    exact ⟨fun _ => ⟨hvalid, hgrows, rfl, rfl⟩, hvalid, hP hgrows hs.2⟩

theorem onSlot_plain {W : Prop} (hP : Stable P) (hW : ∀ s, P s → W → HasStarted s.fence run)
    (h : Plain run W p) : Leaves config n P (onSlot run p) :=
  (onSlot_spec hP hW h).conseq (fun _ hs => ⟨trivial, hs⟩) fun _ _ hs => hs.2

/-- Most routines make no reports. -/
theorem onSlot_silent (hP : Stable P) (h : Plain run False p) : Leaves config n P (onSlot run p) :=
  onSlot_plain hP (fun _ _ hf => hf.elim) h

/-- A rewrite of the record of this request. -/
theorem onSlot_rewrite {decision : Record → Except String (Option Record)} (hP : Stable P)
    (h : Decent False decision) :
    Yields config n (fun s => P s ∧ Held request s)
      (onSlot request.runId (Bridge.Inbox.rewrite decision)) fun r _ => r.request = request :=
  (onSlot_spec (hP.and (.held request)) (fun _ _ hf => hf.elim) (rewrite_holds h)).conseq
    (fun _ hs => ⟨hs.2.2, hs⟩) fun _ _ hs => ⟨hs.2.1, hs.2.2, hs.1.1⟩

theorem told_eq_ok {r : Except AdmissionError α} {a : α} : told r = .ok a ↔ r = .ok a := by
  cases r with
  | ok b => exact ⟨fun h => by cases h; rfl, fun h => by cases h; rfl⟩
  | error e => exact ⟨nofun, nofun⟩

/-- A section of the fence. -/
theorem onFence_spec {f : RuntimeFenceStore → Answer → Except AdmissionError α × RuntimeFenceStore}
    (hP : Stable P) (hchange : ∀ store a, RuntimeFenceStore.Change config.codec store (f store a).2)
    (hclaim : ∀ s a record, s.Valid config → P s → (f s.fence a).2 = s.fence.withClaim record →
      s.fence.lookup record.spec.runId = none →
      ∃ request, Holds request (s.slots record.spec.runId) ∧ Admits config request record.spec)
    (hQ : ∀ a, Stable (Q a)) (hok : ∀ s a x, s.Valid config → P s → (f s.fence a).1 = .ok x →
      Q x { s with fence := (f s.fence a).2 }) : Yields config n P (onFence f) Q := by
  refine quiet_step hP ?_ hQ ?_
  · intro s a hs hp
    split
    · exact ⟨hs.withFence (hchange _ _) (hclaim s a _ hs hp) rfl rfl rfl rfl,
        withFence_grows (hchange _ _) rfl rfl rfl rfl, rfl, rfl⟩
    · exact .refl hs
  · intro s a x hs hp hx
    split at hx
    · rename_i hreadable
      rw [if_pos hreadable]
      exact hok s a x hs hp (told_eq_ok.mp hx)
    · cases hx

/-- A section of the fence that only reads. -/
theorem onFence_read {f : RuntimeFenceStore → Except AdmissionError α} (hP : Stable P)
    (hQ : ∀ a, Stable (Q a)) (hok : ∀ s x, s.Valid config → P s → f s.fence = .ok x → Q x s) :
    Yields config n P (onFence fun store _ => (f store, store)) Q := by
  refine onFence_spec hP (fun _ _ => .same) ?_ hQ fun s _ x hs hp hx => hok s x hs hp hx
  intro s a record hs hp heq _
  -- a claim would make the list of files longer
  have hlength := congrArg (fun store => store.runs.length) heq
  simp [withClaim] at hlength

/-- A section of the process store. -/
theorem onProcesses_spec (hP : Stable P) (hsound : ∀ s a, s.Valid config → P s →
      (f s.processes a).2.Sound (StartedAs config s.fence))
    (hleases : ∀ store a, LeasesKept store (f store a).2) (hQ : ∀ a, Stable (Q a))
    (hok : ∀ s a x, s.Valid config → P s → (f s.processes a).1 = .ok x →
      Q x { s with processes := (f s.processes a).2 }) : Yields config n P (onProcesses f) Q := by
  refine quiet_step hP ?_ hQ ?_
  · intro s a hs hp
    split
    · exact ⟨hs.withProcesses rfl rfl rfl (hsound s a hs hp),
        withProcesses_grows rfl rfl (hleases _ _) rfl, rfl, rfl⟩
    · exact .refl hs
  · intro s a x hs hp hx
    split at hx
    · rename_i hreadable
      rw [if_pos hreadable]
      exact hok s a x hs hp (told_eq_ok.mp hx)
    · cases hx

/-- A section that tends the store, whatever it returns. -/
theorem onProcesses_tends (hP : Stable P) (h : ∀ store a, Tends store (f store a).2) :
    Leaves config n P (onProcesses f) :=
  quiet_post (onProcesses_spec hP (fun s a hs _ => (h s.processes a).1 _ hs.processes)
    (fun store a => .of_eq (h store a).2) (fun _ => .true) fun _ _ _ _ _ _ => trivial)

/-! ## The Runtime fence -/

/-- The view is of a start on file, where it shows one. -/
def ShowsStart (config : Config) (view : RuntimeAdmissionView) (s : Device) : Prop :=
  ∀ startDigest, view.startDigest = some startDigest →
    StartedAs config s.fence ⟨view.spec.runId, view.admissionDigest, startDigest⟩

theorem Stable.showsStart (view : RuntimeAdmissionView) : Stable (ShowsStart config view) :=
  fun _ _ hgrows hs startDigest hstart => (hs startDigest hstart).kept hgrows.fence

theorem showsStart_of_get (h : s.fence.get config.codec run = .ok view) :
    ShowsStart config view s := by
  intro startDigest hstart
  obtain ⟨files, hfiles, hreads⟩ := get_ok h
  have hrun : view.spec.runId = run :=
    hreads.runId.trans (lookup_run hfiles)
  have hadmission := hreads.admissionDigest
  cases hreads with
  | claimed => cases hstart
  | starting _ hstarting =>
    cases hstart
    exact ⟨files, _, hrun ▸ hfiles, hstarting, hadmission, rfl⟩
  | stopped _ hstarting =>
    cases hstart
    exact ⟨files, _, hrun ▸ hfiles, hstarting, hadmission, rfl⟩

theorem fenceGet_spec (hP : Stable P) : Leaves config n P (fenceGet config run) :=
  quiet_post (onFence_read hP (fun _ => .true) fun _ _ _ _ _ => trivial)

theorem fenceList_spec (hP : Stable P) : Leaves config n P (fenceList config) :=
  quiet_post (onFence_read hP (fun _ => .true) fun _ _ _ _ _ => trivial)

theorem startObserved_spec (hP : Stable P) {expected : String} :
    Yields config n P
      (onFence fun store _ => (store.startObserved config.codec run expected, store))
        (ShowsStart config) :=
  onFence_read hP (fun view => .showsStart view) fun _ _ _ _ h =>
    showsStart_of_get (startObserved_view h)

/-- A new claim is for the request of the record of its Run. -/
theorem fenceClaim_spec (hP : Stable P) {spec : RuntimeAdmissionSpec}
    (hrun : spec.runId = request.runId) (hadmits : Admits config request spec) :
    Leaves config n (fun s => P s ∧ Held request s) (fenceClaim config spec) := by
  refine quiet_post (onFence_spec (hP.and (.held request)) ?_ ?_ (fun _ => .true)
    fun _ _ _ _ _ _ => trivial)
  · intro store a
    rcases @claim_cases config.codec store a.now a.io spec with heq | ⟨hnew, heq⟩
    · rw [heq]
      exact .same
    · rw [heq]
      exact .claimed hnew
  intro s a record hs hp heq hnone
  rcases @claim_cases config.codec s.fence a.now a.io spec with hsame | ⟨-, hnew⟩
  · have hlength := congrArg (fun store => store.runs.length) (hsame.symm.trans heq)
    simp [withClaim] at hlength
  have hruns := congrArg runs (hnew.symm.trans heq)
  obtain rfl : (⟨s.fence.owner, spec, a.now⟩ : RuntimeAdmissionRecord) = record := by
    simpa [withClaim] using hruns
  exact ⟨request, hrun ▸ hp.2, hadmits⟩

theorem stop_change : RuntimeFenceStore.Change config.codec store
      (store.stop config.codec run expectedAdmission expectedStart outcome now io).2 := by
  rcases @stop_cases config.codec store run now io expectedAdmission expectedStart
    outcome with heq | ⟨files, start, hfiles, hstart, hopen, -, -, heq⟩ <;> rw [heq]
  · exact .same
  · exact .stopped hfiles hstart hopen

theorem stop_not_claim {record : RuntimeAdmissionRecord} :
    (store.stop config.codec run expectedAdmission expectedStart outcome now io).2 ≠
      store.withClaim record := by
  intro hclaim
  have hlength := congrArg (fun store => store.runs.length) hclaim
  rcases @stop_cases config.codec store run now io expectedAdmission expectedStart
    outcome with heq | ⟨files, start, -, -, -, -, -, heq⟩ <;> rw [heq] at hlength <;>
    simp [withClaim, withStop, Table.update] at hlength

theorem fenceStop_spec (hP : Stable P) :
    Leaves config n P (fenceStop config run expectedAdmission expectedStart outcome) :=
  quiet_post (onFence_spec hP (fun _ _ => stop_change)
    (fun _ _ _ _ _ hclaim _ => absurd hclaim stop_not_claim) (fun _ => .true)
    fun _ _ _ _ _ _ => trivial)

/-! ## The process store -/

theorem prepareProcess_spec (hP : Stable P) :
    (quiet config n).Triple (In config fun s => P s ∧ StartedAs config s.fence identity)
      (prepareProcess config identity) fun _ => In config P :=
  (quiet_post (onProcesses_spec (hP.and (.startedAs identity))
    (fun _ _ hs hp => prepareProcess_prepares.sound hs.processes hp.2)
    (fun _ _ => prepareProcess_prepares.leasesKept) (fun _ => .true)
    fun _ _ _ _ _ _ => trivial)).weaken fun _ _ hs => ⟨hs.1, hs.2.1⟩

theorem started_spec (hP : Stable P) : Leaves config n P (started config lease observation) :=
  quiet_post (onProcesses_spec hP
    (fun _ _ hs _ => started_onLease.sound hs.processes fun _ _ hlease h =>
      ⟨h.sound hs.processes hlease, h.leases_eq⟩)
    (fun _ _ => started_onLease.leasesKept fun _ _ h => h.leases_eq) (fun _ => .true)
    fun _ _ _ _ _ _ => trivial)

theorem abandon_spec (hP : Stable P) : Leaves config n P (abandon config lease) :=
  quiet_post (onProcesses_spec hP
    (fun _ _ hs _ => abandon_onLease.sound hs.processes fun _ _ _ h =>
      ⟨h.tends.1 _ hs.processes, h.leases_eq⟩)
    (fun _ _ => abandon_onLease.leasesKept fun _ _ h => h.leases_eq) (fun _ => .true)
    fun _ _ _ _ _ _ => trivial)

/-- The lease at this place has this identity. -/
def Leased (lease : Nat) (identity : GovernedProcessIdentity) (s : Device) : Prop :=
  ∃ held, s.processes.leases[lease]? = some held ∧ held.identity = identity

theorem Stable.leased (lease : Nat) (identity : GovernedProcessIdentity) :
    Stable (Leased lease identity) := by
  rintro s t hgrows ⟨held, hheld, hidentity⟩
  obtain ⟨held', hheld', hsame⟩ := hgrows.leases lease held hheld
  exact ⟨held', hheld', hsame.trans hidentity⟩

theorem heldLease_spec (hP : Stable P) :
    Yields config n P (heldLease lease) fun held s => Leased lease held.identity s := by
  refine onProcesses_spec hP (fun _ _ hs _ => hs.processes) (fun _ _ => .of_eq rfl)
    (fun _ => .leased _ _) ?_
  intro s a held hs _ hheld
  unfold openLease at hheld
  split at hheld
  · cases hheld
  rename_i hfound
  split at hheld
  · cases hheld
  · cases hheld
    exact ⟨_, hfound, rfl⟩

theorem waitProcessLock_spec (hP : Stable P) {terminate : Bool} :
    Leaves config n P (waitProcessLock run terminate) :=
  onProcesses_tends hP fun store _ => .refl store

theorem finishLease_spec (hP : Stable P) {held : Lease} :
    Leaves config n P (finishLease config held observation) := by
  refine (onProcesses_tends hP fun _ _ => GovernedProcessStore.finishObserved_closing.tends).bind
    fun waits => ?_
  split
  · exact (waitProcessLock_spec hP).bind fun _ =>
      onProcesses_tends hP fun _ _ => GovernedProcessStore.finishClosed_closing.tends
  · exact quiet_pure

theorem finished_spec (hP : Stable P) : Leaves config n P (finished config lease observation) := by
  refine (heldLease_spec hP).bind fun held => ?_
  have hstable := hP.and (.leased lease held.identity)
  refine (quiet_attempt_any hstable (finishLease_spec hstable)).bind fun result => ?_
  refine (quiet_act hstable ?_).weaken fun _ _ hs => ⟨hs.1, hs.2.1⟩
  rintro s a hs ⟨-, found, hfound, hidentity⟩
  refine ⟨hs.withProcesses rfl rfl rfl ?_, withProcesses_grows rfl rfl ?_ rfl, rfl, rfl⟩
  · exact hs.processes.withLease (List.mem_of_getElem? hfound) hidentity.symm
  · exact .withLease rfl hfound hidentity.symm

/-- What holds whatever is noted as fenced. -/
@[elab_as_elim]
theorem noteFenced_induct {motive : Device → Prop}
    (h : ∀ noted, motive { s with fenced := s.fenced ++ noted }) :
    motive (noteFenced n identity absent s) := by
  unfold noteFenced
  split
  · exact h _
  · simpa using h []

theorem noteFenced_quiet (h : Quiet config s t) : Quiet config s (noteFenced n identity absent t) :=
  noteFenced_induct fun _ => ⟨h.valid.withProcesses rfl rfl rfl h.valid.processes,
    ⟨h.grows.slots, h.grows.fence, h.grows.leases,
      fun entry hentry => List.mem_append_left _ (h.grows.fenced entry hentry)⟩, h.invoked, h.executed⟩

section

variable (hP : Stable P)
include hP

theorem fenceObserved_spec : Leaves config n P (fenceObserved config n identity) := by
  refine quiet_act hP ?_
  intro s a hs _
  split
  · exact noteFenced_quiet (.refl hs)
  · exact .refl hs

theorem fenceClosed_spec {seen : GovernedProcessView} :
    Leaves config n P (fenceClosed config n identity seen) := by
  refine quiet_act hP ?_
  intro s a hs _
  split
  · obtain ⟨hsound, hleases⟩ := (@GovernedProcessStore.fenceClosed_closing config.processCodec
      s.processes a.process identity a.now seen).tends
    exact noteFenced_quiet ⟨hs.withProcesses rfl rfl rfl (hsound _ hs.processes),
      withProcesses_grows rfl rfl (.of_eq hleases) rfl, rfl, rfl⟩
  · exact .refl hs

theorem fenceIdentity_spec : Leaves config n P (fenceIdentity config n identity) := by
  refine (fenceObserved_spec hP).bind fun seen => ?_
  split
  · exact quiet_pure
  · exact (waitProcessLock_spec hP).bind fun _ => fenceClosed_spec hP

theorem fenceAndWait_spec : Leaves config n P (fenceAndWait config n view) := by
  unfold fenceAndWait
  split
  · exact quiet_fail
  · exact fenceIdentity_spec hP

theorem fenceAll_spec : Leaves config n P (fenceAll config n) :=
  (onProcesses_tends hP fun store _ => .refl store).bind fun _ =>
    quiet_forEach fun _ _ => fenceIdentity_spec hP

end

end ConveneWire.Governed
