import ConveneWire.Governed.Executions
import ConveneWire.Governed.Runs
import ConveneWire.Admission.Readable

/-! # A governed Runtime is invoked at most once

Deliveries, cancellations and recoveries run side by side on one Bridge, in any order
and number, and any of them may be cut short by a crash. The fence tells one of them
to invoke, and the start is on file by then. Recovery is told nothing and stops an
admission only where its very process was found absent. -/

namespace ConveneWire.Governed

open Bridge (RunRequest)
open Admission
open Concurrent (Process Pool Contract)
open Transition (Preserved)

variable {config : Config} {n : Nat} {s t : Device}

/-! ## The invariant -/

theorem Device.Valid.restart (h : s.Valid config) {inFence inProcesses : Bool} :
    (s.restart inFence inProcesses).Valid config :=
  { h with
    processes := ⟨h.processes.distinct, h.processes.known, h.processes.locked,
      fun _ hlease => (nomatch hlease)⟩ }

/-- With `n` processes started so far. -/
structure Once (n : Nat) (s : Device) : Prop where
  known : ∀ entry ∈ s.invoked, entry.1 < n
  started : ∀ entry ∈ s.invoked, HasStarted s.fence entry.2
  distinct : (s.invoked.map Prod.snd).Nodup
  invoked : ∀ entry ∈ s.executed, entry ∈ s.invoked
  once : s.executed.Nodup

theorem Once.empty (owner : Owner) (processOwner : ProcessOwner) :
    Once 0 (.empty owner processOwner) where
  known := fun _ h => by cases h
  started := fun _ h => by cases h
  distinct := .nil
  invoked := fun _ h => by cases h
  once := .nil

theorem Once.fresh (h : Once n s) : Fresh n s := by
  intro run
  have hinvoked : (n, run) ∉ s.invoked := fun hmem => Nat.lt_irrefl n (h.known _ hmem)
  exact ⟨hinvoked, fun hmem => hinvoked (h.invoked _ hmem)⟩

/-- An action of one of the `n` processes. -/
theorem Once.kept {m : Nat} (h : Once n s) (hm : m < n) (hact : Act config m s t) : Once n t := by
  have hstarted : ∀ entry ∈ s.invoked, HasStarted t.fence entry.2 :=
    fun entry hentry => (h.started entry hentry).kept hact.grows.fence
  have hinvoked : (∀ entry ∈ t.invoked, entry.1 < n) ∧
      (∀ entry ∈ t.invoked, HasStarted t.fence entry.2) ∧ (t.invoked.map Prod.snd).Nodup ∧
      ∀ entry ∈ s.invoked, entry ∈ t.invoked := by
    rcases hact.invoked with heq | ⟨run, heq, hnot, hnow⟩ <;> rw [heq]
    · exact ⟨h.known, hstarted, h.distinct, fun _ hentry => hentry⟩
    refine ⟨?_, ?_, ?_, fun _ hentry => List.mem_append_left _ hentry⟩
    · intro entry hentry
      rcases List.mem_append.mp hentry with hold | hnew
      · exact h.known entry hold
      · obtain rfl := List.mem_singleton.mp hnew
        exact hm
    · intro entry hentry
      rcases List.mem_append.mp hentry with hold | hnew
      · exact hstarted entry hold
      · obtain rfl := List.mem_singleton.mp hnew
        exact hnow
    · -- a Run that was told before has its start on file
      rw [List.map_append, List.map_singleton]
      refine h.distinct.append (List.nodup_singleton _) ?_
      intro other hother hrun
      obtain rfl := List.mem_singleton.mp hrun
      obtain ⟨entry, hentry, rfl⟩ := List.mem_map.mp hother
      exact hnot (h.started entry hentry)
  obtain ⟨hknown, hstarted, hdistinct, hkept⟩ := hinvoked
  refine ⟨hknown, hstarted, hdistinct, ?_, ?_⟩
  · rcases hact.executed with heq | ⟨run, heq, htold, -⟩ <;> rw [heq]
    · exact fun entry hentry => hkept entry (h.invoked entry hentry)
    · intro entry hentry
      rcases List.mem_append.mp hentry with hold | hnew
      · exact hkept entry (h.invoked entry hold)
      · obtain rfl := List.mem_singleton.mp hnew
        exact hkept _ htold
  · rcases hact.executed with heq | ⟨run, heq, -, hnone⟩ <;> rw [heq]
    · exact h.once
    · refine h.once.append (List.nodup_singleton _) ?_
      intro entry hentry hlast
      obtain rfl := List.mem_singleton.mp hlast
      exact hnone run hentry

theorem setContext_plain {run : String} {W : Prop} {canceled : Bool} :
    Plain run W (setContext canceled) :=
  .step fun _ _ => ⟨fun r hr => ⟨r, hr, rfl, rfl⟩, fun r hr => .inl (Option.ne_none_iff_exists'.mpr ⟨r, hr⟩),
    fun r hr hw => .inr ⟨r, hr, hw⟩⟩

theorem Spawned.spec {p : Routine Unit} (h : Spawned config n p) :
    Executes config n (Fresh n) p := by
  have hany : ∀ {p : Routine Unit}, Leaves config n (fun _ => True) p →
      Executes config n (Fresh n) p :=
    fun hp => (lift_any hp).strengthen fun _ hs => ⟨hs.1, trivial⟩
  cases h with
  | handle request => exact handle_spec
  | context run canceled => exact hany (onSlot_silent .true setContext_plain)
  | stage requested => exact hany (onSlot_silent .true stageCancellation_plain)
  | replay requested => exact hany (onSlot_silent .true replayCanceledRun_plain)
  | recover => exact hany recoverAll_spec

theorem executions_fit :
    Pool.Fits (Spawned config) Crashed (execution config) fun n s => s.Valid config ∧ Once n s where
  spawned := by
    intro n p s hp h
    have hrely : Preserved (execution config n).rely (In config (Fresh n)) := by
      rintro s t hst ⟨hs, hfresh⟩
      obtain ⟨m, hm, hact⟩ := hst hs
      exact ⟨hact.valid, Own.fresh (hact.sameOwn hm) hfresh⟩
    have hruns := hp.spec.runs hrely ⟨h.1, h.2.fresh⟩
    exact fun t ht => (hruns t ht).mono fun _ _ _ => trivial
  grown := fun h => ⟨h.1, fun entry hentry => Nat.lt_succ_of_lt (h.2.known entry hentry),
    h.2.started, h.2.distinct, h.2.invoked, h.2.once⟩
  kept := fun hm hact h => ⟨(hact h.1).valid, h.2.kept hm (hact h.1)⟩
  allowed := fun hne hact hs => ⟨_, hne, hact hs⟩
  crashed := by
    rintro n s _ ⟨inFence, inProcesses, rfl⟩ ⟨hs, h⟩
    exact ⟨hs.restart, h.known, h.started, h.distinct, h.invoked, h.once⟩

theorem Device.Reachable.safe {pool : Pool Device Answer} (h : Device.Reachable config pool) :
    Pool.Safe (execution config) (fun n s => s.Valid config ∧ Once n s) pool := by
  obtain ⟨owner, processOwner, hrun⟩ := h
  exact executions_fit.preserved.run hrun (Pool.Safe.start ⟨.empty owner processOwner, .empty _ _⟩)

/-! ## Recovery -/

/-- One action of the recovery by the `n`-th process: it invokes nothing, and the fence
changes only by the stop of an admission whose process, known by the digests of the
claim and the start on file, this recovery has found absent. -/
structure Recovers (config : Config) (n : Nat) (s t : Device) : Prop where
  invoked : t.invoked = s.invoked
  executed : t.executed = s.executed
  fence : t.fence = s.fence ∨ ∃ record files start, t.fence = s.fence.withStop record ∧
    s.fence.lookup record.runId = some files ∧ files.starting = some start ∧
    (n, ⟨record.runId, config.codec.admissionDigest files.claimed,
      config.codec.startDigest start⟩) ∈ s.fenced

/-- The others may do anything, but what was found absent stays on record. -/
def recovering (config : Config) (n : Nat) : Contract Device where
  rely := fun s t => ∀ entry ∈ s.fenced, entry ∈ t.fenced
  guar := Recovers config n
  fails := fun _ => True

variable {α β : Type} {run : String}

/-- The routine is part of a recovery, and where it returns `Q` holds. -/
abbrev Recovering (config : Config) (n : Nat) (p : Routine α)
    (Q : α → Device → Prop := fun _ _ => True) : Prop :=
  (recovering config n).Triple (fun _ => True) p Q

theorem Recovers.same (hfence : t.fence = s.fence) (hinvoked : t.invoked = s.invoked)
    (hexecuted : t.executed = s.executed) : Recovers config n s t :=
  ⟨hinvoked, hexecuted, .inl hfence⟩

/-- An action that leaves the fence and the history of invocations alone. -/
theorem recovering_step {f : Device → Answer → Except String α × Device}
    (h : ∀ s a, (f s a).2.fence = s.fence ∧ (f s a).2.invoked = s.invoked ∧
      (f s a).2.executed = s.executed) : Recovering config n (Process.step f) :=
  .act (fun _ => trivial) fun s a _ => .same (h s a).1 (h s a).2.1 (h s a).2.2

theorem recovering_onSlot {p : Bridge.Routine α} : Recovering config n (onSlot run p) := by
  intro s _
  induction p generalizing s with
  | done r =>
    cases r with
    | ok a => exact trivial
    | error e => exact trivial
  | act effect next ih => exact fun a => ⟨.same rfl rfl rfl, fun t _ => ih _ _ t⟩

theorem recovering_onProcesses
    {f : GovernedProcessStore → Answer → Except AdmissionError α × GovernedProcessStore} :
    Recovering config n (onProcesses f) := by
  refine recovering_step fun s a => ?_
  split
  · exact ⟨rfl, rfl, rfl⟩
  · exact ⟨rfl, rfl, rfl⟩

theorem recovering_listRecords : Recovering config n listRecords := by
  refine recovering_step fun s a => ?_
  split
  · exact ⟨rfl, rfl, rfl⟩
  · exact ⟨rfl, rfl, rfl⟩
  · exact ⟨rfl, rfl, rfl⟩

theorem recovering_fenceList : Recovering config n (fenceList config) := by
  refine recovering_step fun s a => ?_
  split
  · exact ⟨rfl, rfl, rfl⟩
  · exact ⟨rfl, rfl, rfl⟩

variable {identity : GovernedProcessIdentity}

theorem mem_noteFenced : (n, identity) ∈ (noteFenced n identity true s).fenced :=
  List.mem_append_right _ (List.mem_singleton_self _)

/-- This recovery has found the process absent. -/
def Fenced (n : Nat) (identity : GovernedProcessIdentity) (s : Device) : Prop :=
  (n, identity) ∈ s.fenced

theorem fenced_rely : Preserved (recovering config n).rely (Fenced n identity) :=
  fun _ _ hst hs => hst _ hs

theorem recovering_fenceObserved :
    Recovering config n (fenceObserved config n identity) fun seen s =>
      seen = none → Fenced n identity s := by
  refine .step_free (fun _ => trivial) ?_ ?_ fun seen s t hst hs hseen => fenced_rely hst (hs hseen)
  · intro s a _
    split
    · dsimp only
      exact noteFenced_induct fun _ => .same rfl rfl rfl
    · exact .same rfl rfl rfl
  rintro s a seen - hseen rfl
  split at hseen
  · rename_i hreadable
    have hnone := told_eq_ok.mp hseen
    rw [if_pos hreadable]
    dsimp only
    rw [hnone]
    exact mem_noteFenced
  · cases hseen

theorem recovering_fenceClosed {seen : GovernedProcessView} :
    Recovering config n (fenceClosed config n identity seen) fun _ s => Fenced n identity s := by
  refine .step_free (fun _ => trivial) ?_ ?_ fun _ => fenced_rely
  · intro s a _
    split
    · dsimp only
      exact noteFenced_induct fun _ => .same rfl rfl rfl
    · exact .same rfl rfl rfl
  rintro s a ⟨⟩ - hok
  split at hok
  · rename_i hreadable
    have hclosed := told_eq_ok.mp hok
    rw [if_pos hreadable]
    dsimp only
    rw [hclosed]
    exact mem_noteFenced
  · cases hok

theorem recovering_fenceIdentity :
    Recovering config n (fenceIdentity config n identity) fun _ s => Fenced n identity s := by
  refine recovering_fenceObserved.bind fun seen => ?_
  cases seen with
  | none => exact .pure fun _ hs => hs rfl
  | some view =>
    exact (recovering_onProcesses.strengthen fun _ _ => trivial).bind fun _ =>
      recovering_fenceClosed

theorem recovering_fenceAll : Recovering config n (fenceAll config n) :=
  recovering_onProcesses.bind fun _ => .forEach fun _ _ =>
    recovering_fenceIdentity.weaken fun _ _ _ => trivial

/-- A stop under the digests of a process that was found absent. -/
theorem recovering_fenceStop {outcome : RuntimeOutcome} :
    (recovering config n).Triple (Fenced n identity)
      (fenceStop config identity.runId identity.admissionDigest identity.startDigest outcome)
      fun _ _ => True := by
  refine .act (fun _ => trivial) fun s a hs => ?_
  split
  · refine ⟨rfl, rfl, ?_⟩
    rcases @RuntimeFenceStore.stop_cases config.codec s.fence identity.runId a.now a.io
      identity.admissionDigest identity.startDigest outcome with
      hsame | ⟨files, start, hfiles, hstart, -, hadmission, hdigest, heq⟩
    · exact .inl hsame
    refine .inr ⟨_, files, start, heq, hfiles, hstart, ?_⟩
    dsimp only
    rw [hadmission, hdigest]
    exact hs
  · exact .same rfl rfl rfl

theorem recovering_closeStarting {view : RuntimeAdmissionView} :
    Recovering config n (closeStarting config n view) := by
  unfold closeStarting
  split
  · rename_i startDigest hstate hstart
    have hidentity : GovernedProcessStore.fencedIdentity view =
        some ⟨view.spec.runId, view.admissionDigest, startDigest⟩ := by
      simp [GovernedProcessStore.fencedIdentity, hstate, hstart]
    have hfence : Recovering config n (fenceAndWait config n view)
        fun _ s => Fenced n ⟨view.spec.runId, view.admissionDigest, startDigest⟩ s := by
      unfold fenceAndWait
      rw [hidentity]
      exact recovering_fenceIdentity
    refine hfence.bind fun _ => recovering_fenceStop.bind fun closed => ?_
    split
    · exact .fail fun _ _ => trivial
    · exact .skip
  · exact .skip

theorem recovering_closeAll (views : List RuntimeAdmissionView) :
    Recovering config n (closeAll config n views) := by
  induction views with
  | nil => exact .skip
  | cons view rest ih =>
    exact recovering_closeStarting.bind fun _ => ih.bind fun _ => .skip

theorem recovering_recover : Recovering config n (recover config n) := by
  refine recovering_fenceAll.bind fun _ => recovering_listRecords.bind fun records =>
    recovering_fenceList.bind fun views => ?_
  split
  · exact .fail fun _ _ => trivial
  refine (recovering_closeAll views).bind fun closed => ?_
  split
  · exact .fail fun _ _ => trivial
  · exact .forEach fun _ _ => recovering_onSlot

theorem recovering_recoverAll : Recovering config n (recoverAll config n) :=
  recovering_recover.bind fun _ => recovering_listRecords.bind fun _ =>
    .forEach fun _ _ => recovering_onSlot

/-! ## Whole runs -/

theorem executed_distinct (h : Once n s) : (s.executed.map Prod.snd).Nodup := by
  refine List.Nodup.map_on ?_ h.once
  intro x hx y hy hxy
  exact List.inj_on_of_nodup_map h.distinct (h.invoked x hx) (h.invoked y hy) hxy

/-- No step of a run takes back what a recovery has found absent. -/
theorem step_keeps_fenced {pool pool' : Pool Device Answer} (h : Device.Reachable config pool)
    (hstep : Device.Step config pool pool') :
    (recovering config n).rely pool.shared pool'.shared := by
  have hsafe := h.safe
  cases hstep with
  | spawn => exact fun _ hentry => hentry
  | act m hm a => exact ((hsafe.running hm).guar a hsafe.shared.1).grows.fenced
  | crash hcrash =>
    obtain ⟨inFence, inProcesses, rfl⟩ := hcrash
    exact fun _ hentry => hentry

/-- At every point of every run, each Run was told to invoke at most once and had its
adapter started at most once, by the process that was told, with its start on file.
Recovery, from any state of the stores and whatever the others do besides, invokes
nothing and stops only what it has fenced. -/
theorem invokes_at_most_once {pool : Pool Device Answer} (hreach : Device.Reachable config pool) :
    (pool.shared.invoked.map Prod.snd).Nodup ∧ (pool.shared.executed.map Prod.snd).Nodup ∧
    (∀ entry ∈ pool.shared.executed, entry ∈ pool.shared.invoked) ∧
    (∀ entry ∈ pool.shared.invoked, HasStarted pool.shared.fence entry.2) ∧
    (∀ n pool', Device.Step config pool pool' →
      (recovering config n).rely pool.shared pool'.shared) ∧
    ∀ n s, (recovering config n).Runs (fun _ _ => True) (recoverAll config n) s := by
  have h := hreach.safe.shared.2
  refine ⟨h.distinct, executed_distinct h, h.invoked, h.started, ?_, ?_⟩
  · exact fun n pool' hstep => step_keeps_fenced hreach hstep
  · exact fun n s => recovering_recoverAll.runs (fun _ _ _ _ => trivial) trivial

/-! A Bridge for one Run, and answers that let it start. -/

def sampleCommit : String := String.ofList (List.replicate 40 '0')

def sampleManifest : RuntimeAdmissionSpec where
  runId := "run_00000001"
  taskId := "task"
  agentId := "agent_00000001"
  deviceId := "device_00000001"
  planId := "plan"
  planRevision := 1
  planDigest := sampleDigest
  approvalOperationId := "op_00000001"
  planControlRevision := 1
  nodeKey := "node"
  dispatchGeneration := 1
  roomId := "room"
  taskRevision := 1
  definitionRevision := 1
  criteriaRevision := 1
  manifestDigest := sampleDigest
  grantId := "grant"
  grantRevision := 1
  grantDigest := sampleDigest
  repositoryId := "repository"
  bindingId := "binding"
  leaseId := "lease"
  workspaceRef := "workspace"
  workspaceGeneration := "generation"
  runtimeProfileId := "profile_00000001"
  runtimeProfileRevision := 1
  runtimeProfileDigest := sampleDigest
  preparedOperationId := "op_00000002"
  preparedIntentDigest := sampleDigest
  preparedIdentityDigest := sampleDigest
  baseCommit := sampleCommit
  preparedCommit := sampleCommit
  preparedTree := sampleCommit
  outputBaseCommit := ""
  workspaceIssuedAt := ⟨"", some 0⟩
  workspaceExpiresAt := ⟨"", some 100⟩
  grantExpiresAt := ⟨"", some 100⟩
  deadline := ⟨"", some 100⟩

theorem sampleDigest_hex : isSha256Digest sampleDigest = true := by decide +kernel

def sampleConfig : Config where
  inbox := ⟨fun request => request.idempotencyKey, fun text => text, false, false, false⟩
  codec := sampleCodec
  processCodec := sampleProcessCodec
  allowsAgent := fun _ => true
  manifest := fun request => if request.runId = "run_00000001" then some sampleManifest else none
  manifest_run := by
    intro request spec h
    split at h
    · rename_i hrun
      cases h
      exact hrun.symm
    · cases h
  admissionDigest_hex := fun _ => sampleDigest_hex
  startDigest_hex := fun _ => sampleDigest_hex

def sampleRequest : RunRequest where
  runId := "run_00000001"
  traceId := "trace_00000001"
  targetAgentId := "agent_00000001"
  idempotencyKey := "key"
  governed := true
  desktopAdoption := false
  ownerPrivateOutput := false
  pinnedArtifactContent := false
  supplementalEvidence := none
  body := ""

def sampleAnswer : Answer where
  inbox :=
    { io := .ok, delivery := .sent, preparation := .ready, gateAcquired := true
      beforeStart := true, runtime := ⟨true, true, false, true⟩, reports := 0
      event := .output "" false, executed := true }
  now := 1
  readable := true
  io := .ok
  process := cooperative
  preparation := .ok (localFacts sampleManifest)
  authority := .ok ()
  runnable := true
  launch := .left
  captured := true

theorem sample_admissible : Admissible sampleConfig sampleOwner sampleRequest sampleManifest
    (localFacts sampleManifest) sampleAnswer where
  governed := rfl
  allowed := rfl
  run := by decide +kernel
  trace := by decide +kernel
  ungated := rfl
  unasked := rfl
  decoded := rfl
  valid := by decide +kernel
  exact := by decide +kernel
  device := rfl
  current := by decide +kernel
  time := by decide +kernel
  size := Nat.zero_le _
  written := rfl
  sent := rfl
  readable := rfl
  io := rfl
  preparation := rfl
  authority := rfl

/-- The start is on file, and the adapter was not called yet. -/
def sampleStarted : Device :=
  let claim := claimOf sampleOwner sampleManifest (localFacts sampleManifest) sampleAnswer
  solo sampleOwner (.device sampleOwner) "run_00000001"
    (plainSlot (.ofRequest "key" sampleRequest) [.accepted false])
    (fenceWith sampleOwner claim (some (startOf sampleConfig sampleRequest claim sampleAnswer)))
    [(0, "run_00000001")]

theorem sampleStarted_reachable : ∃ p, Device.Reachable sampleConfig ⟨sampleStarted, [p]⟩ :=
  ⟨_, sampleOwner, .device sampleOwner, .head (.spawn (.handle sampleRequest))
    sample_admissible.starts⟩

theorem sampleStarted_invoked_once : sampleStarted.invoked = [(0, "run_00000001")] ∧
    HasStarted sampleStarted.fence "run_00000001" := by
  obtain ⟨p, hreach⟩ := sampleStarted_reachable
  exact ⟨rfl, (invokes_at_most_once hreach).2.2.2.1 _ (List.mem_singleton_self _)⟩

/-- At every point of every run, crashes included, the three stores agree, and no claim
or start that was on file earlier has changed or gone. -/
theorem stores_agree {pool pool' : Pool Device Answer} (hreach : Device.Reachable config pool)
    (hrun : Relation.ReflTransGen (Device.Step config) pool pool') :
    pool'.shared.Valid config ∧ ∀ run files, pool.shared.fence.lookup run = some files →
      ∃ files', pool'.shared.fence.lookup run = some files' ∧
        RuntimeFenceStore.Kept files files' := by
  refine ⟨(executions_fit.preserved.run hrun hreach.safe).shared.1, fun run files hfiles => ?_⟩
  induction hrun with
  | refl => exact ⟨files, hfiles, rfl, fun _ h => h⟩
  | tail hrun hstep ih =>
    have hsafe := executions_fit.preserved.run hrun hreach.safe
    cases hstep with
    | spawn => exact ih
    | act m hm a =>
      obtain ⟨between, hbetween, hclaimed, hstart⟩ := ih
      obtain ⟨files', hfiles', hclaimed', hstart'⟩ :=
        ((hsafe.running hm).guar a hsafe.shared.1).grows.fence hbetween
      exact ⟨files', hfiles', hclaimed'.trans hclaimed, fun s h => hstart' s (hstart s h)⟩
    | crash hcrash =>
      obtain ⟨inFence, inProcesses, rfl⟩ := hcrash
      exact ih

theorem stores_agree_crashed : (sampleStarted.restart true false).Valid sampleConfig := by
  obtain ⟨p, hreach⟩ := sampleStarted_reachable
  exact (stores_agree hreach (.single (.crash ⟨_, _, rfl⟩))).1

end ConveneWire.Governed
