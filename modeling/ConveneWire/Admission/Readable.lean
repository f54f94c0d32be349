import ConveneWire.Admission.ProcessReads

/-! # The local fences stay readable

Both stores refuse to list anything as soon as one record fails its reader, and the
Bridge stays offline then. The readers want the times of a Run in order; the writers
take them from the clock, and most of them do not look at the ones before. So a
clock that steps back can leave a record behind that nobody can read again, even in
a call that succeeds. As long as every reading fits what is on record for its Run,
all records can be read, and listing and fencing them goes on to succeed. -/

namespace ConveneWire.Admission

open Bridge (Io)
open Contracts.ExecutionRuntime (maxSafeJSONInteger)
open Relation (ReflTransGen)
open RuntimeFenceStore

structure LocalFences where
  fence : RuntimeFenceStore
  processes : GovernedProcessStore
  deriving DecidableEq, Repr

def LocalFences.empty (owner : Owner) (processOwner : ProcessOwner) : LocalFences :=
  ⟨⟨owner, [], 0⟩, ⟨processOwner, [], 0, []⟩⟩

/-- One call with its clock reading and what the file system answers. -/
inductive Call where
  | claim (spec : RuntimeAdmissionSpec) (now : Instant) (io : Io)
  | start (run expected : String) (authority : Except AdmissionError Unit) (clock : Instant)
      (io : Io)
  | stop (run expectedAdmission expectedStart : String) (outcome : RuntimeOutcome) (now : Instant)
      (io : Io)
  | recoverUnknown (now : Instant) (io : String → Io)
  | prepareProcess (identity : GovernedProcessIdentity) (now : Instant) (answer : ProcessAnswer)
  | started (lease : Nat) (observation : GovernedProcessObservation) (now : Instant) (io : Io)
  | finished (lease : Nat) (observation : GovernedProcessObservation) (now : Instant)
      (answer : ProcessAnswer)
  | abandon (lease : Nat) (now : Instant) (answer : ProcessAnswer)
  | fenceAndWait (view : RuntimeAdmissionView) (now : Instant) (answer : ProcessAnswer)

namespace LocalFences

variable (codec : Codec) (processCodec : ProcessCodec)

section

variable (s : LocalFences)

def onFence {α : Type} (outcome : Except AdmissionError α × RuntimeFenceStore) : Except
    AdmissionError Unit × LocalFences :=
  (outcome.1.map fun _ => (), { s with fence := outcome.2 })

def onProcesses {α : Type} (outcome : Except AdmissionError α × GovernedProcessStore) : Except
    AdmissionError Unit × LocalFences :=
  (outcome.1.map fun _ => (), { s with processes := outcome.2 })

def perform : Call → Except AdmissionError Unit × LocalFences
  | .claim spec now io => s.onFence (s.fence.claim codec spec now io)
  | .start run expected authority clock io =>
    s.onFence (s.fence.start codec run expected authority clock io)
  | .stop run expectedAdmission expectedStart outcome now io =>
    s.onFence (s.fence.stop codec run expectedAdmission expectedStart outcome now io)
  | .recoverUnknown now io => s.onFence (s.fence.recoverUnknown codec now io)
  | .prepareProcess identity now answer =>
    s.onProcesses (s.processes.prepareProcess processCodec identity now answer)
  | .started lease observation now io =>
    s.onProcesses (s.processes.started processCodec lease observation now io)
  | .finished lease observation now answer =>
    s.onProcesses (s.processes.finished processCodec lease observation now answer)
  | .abandon lease now answer => s.onProcesses (s.processes.abandon processCodec lease now answer)
  | .fenceAndWait view now answer =>
    s.onProcesses (s.processes.fenceAndWait processCodec view now answer)

/-- The reading fits what is on record for the Run of a lease. -/
def timelyLease (lease : Nat) (now : Instant) : Bool :=
  s.processes.leases[lease]?.all fun lease => timely now (s.processes.last lease.identity.runId)

/-- The reading of a call has a year of four digits and, where the Run is not over, is
not before the last time on record for it. New claims and observations carry no
integer beyond the exact ones. `Stop` and `RecoverUnknown` compare times themselves. -/
def timelyCall : Call → Bool
  | .claim spec now _ =>
    (s.fence.lookup spec.runId).isSome || (spec.exactIntegers && validProfileTime now)
  | .start run _ _ clock _ => timely clock (s.fence.last run)
  | .stop _ _ _ _ now _ => validProfileTime now
  | .recoverUnknown now _ => validProfileTime now
  | .prepareProcess identity now _ =>
    (s.processes.lookup identity.runId).isSome || validProfileTime now
  | .started lease observation now _ =>
    decide (observation.pid ≤ maxSafeJSONInteger) && s.timelyLease lease now
  | .finished lease _ now _ => s.timelyLease lease now
  | .abandon lease now _ => s.timelyLease lease now
  | .fenceAndWait view now _ => timely now (s.processes.last view.spec.runId)

end

/-- One call whose reading is timely, whether it succeeds or not. -/
def TimelyStep (s t : LocalFences) : Prop :=
  ∃ call, s.timelyCall call = true ∧ t = (s.perform codec processCodec call).2

/-- Every record can be read, and no call leaves a temporary file behind. -/
structure Readable (s : LocalFences) : Prop where
  fence : s.fence.Readable codec
  processes : s.processes.Readable processCodec
  tidy : s.fence.pending = 0 ∧ s.processes.pending = 0

variable {codec processCodec} {s t : LocalFences} {now : Instant} {lease : Nat} {α : Type}

theorem empty_readable (owner : Owner) (processOwner : ProcessOwner) :
    (empty owner processOwner).Readable codec processCodec where
  fence := ⟨.nil, fun _ h => (nomatch h), Nat.zero_le _⟩
  processes := ⟨.nil, fun _ h => (nomatch h), fun _ h => (nomatch h), Nat.zero_le _⟩
  tidy := ⟨rfl, rfl⟩

theorem Readable.onFence (h : s.Readable codec processCodec)
    {outcome : Except AdmissionError α × RuntimeFenceStore} (hnext : Keeps codec s.fence outcome.2)
    : (s.onFence outcome).2.Readable codec processCodec :=
  ⟨hnext.readable, h.processes, hnext.pending.trans h.tidy.1, h.tidy.2⟩

theorem Readable.onProcesses (h : s.Readable codec processCodec)
    {outcome : Except AdmissionError α × GovernedProcessStore}
    (hnext : outcome.2.Readable processCodec) (htidy : outcome.2.pending = s.processes.pending) :
    (s.onProcesses outcome).2.Readable codec processCodec :=
  ⟨h.fence, hnext, h.tidy.1, htidy.trans h.tidy.2⟩

theorem timelyLease_iff :
    s.timelyLease lease now = true ↔ ∀ l, s.processes.leases[lease]? = some l →
      timely now (s.processes.last l.identity.runId) = true := by
  rw [timelyLease, Option.all_eq_true]

theorem closes_readable (h : s.Readable codec processCodec)
    {outcome : Except AdmissionError Unit × GovernedProcessStore}
    (hnext : GovernedProcessStore.OnLease (fun held =>
      GovernedProcessStore.Closing processCodec held.identity.runId now s.processes) lease
      s.processes outcome.2) (htime : s.timelyLease lease now = true) :
    (s.onProcesses outcome).2.Readable codec processCodec := by
  refine h.onProcesses (hnext.readable h.processes fun held _ hheld hclosing =>
    ⟨?_, hclosing.leases_eq⟩) (hnext.pending_eq fun _ _ hclosing => hclosing.pending_eq)
  exact hclosing.readable h.processes (timelyLease_iff.mp htime held hheld)

/-- Step lemma: a timely call keeps every record readable. -/
theorem perform_readable (h : s.Readable codec processCodec) {call : Call}
    (htime : s.timelyCall call = true) :
    (s.perform codec processCodec call).2.Readable codec processCodec := by
  cases call with
  | claim spec now io =>
    refine h.onFence (claim_keeps h.fence io fun hnew => ?_)
    simpa [timelyCall, hnew] using htime
  | start run expected authority clock io =>
    exact h.onFence (start_keeps h.fence io htime)
  | stop run expectedAdmission expectedStart outcome now io =>
    exact h.onFence (stop_keeps h.fence io htime)
  | recoverUnknown now io =>
    exact h.onFence (recoverUnknown_keeps h.fence htime)
  | prepareProcess identity now answer =>
    have hnext := @GovernedProcessStore.prepareProcess_prepares processCodec s.processes answer
      identity now
    refine h.onProcesses (hnext.readable h.processes fun hnew => ?_) hnext.pending_eq
    simpa [timelyCall, hnew] using htime
  | started lease observation now io =>
    obtain ⟨hexact, hlease⟩ := Bool.and_eq_true_iff.mp htime
    have hnext := @GovernedProcessStore.started_onLease processCodec s.processes lease now
      observation io
    refine h.onProcesses (hnext.readable h.processes fun held _ hheld h' => ⟨?_, h'.leases_eq⟩)
      (hnext.pending_eq fun _ _ h' => h'.pending_eq)
    exact h'.readable h.processes (List.mem_of_getElem? hheld) (of_decide_eq_true hexact)
      (timelyLease_iff.mp hlease held hheld)
  | finished lease observation now answer =>
    exact closes_readable h GovernedProcessStore.finished_onLease htime
  | abandon lease now answer =>
    exact closes_readable h GovernedProcessStore.abandon_onLease htime
  | fenceAndWait view now answer =>
    have hnext := @GovernedProcessStore.fenceAndWait_closing processCodec s.processes answer now view
    exact h.onProcesses (hnext.readable h.processes htime) hnext.pending_eq

theorem run_readable (h : s.Readable codec processCodec)
    (hrun : ReflTransGen (TimelyStep codec processCodec) s t) : t.Readable codec processCodec := by
  refine Transition.Preserved.run (I := Readable codec processCodec) ?_ hrun h
  rintro s _ ⟨call, htime, rfl⟩ hs
  exact perform_readable hs htime

end LocalFences

/-- After any timely calls on fresh stores every record is read back, both stores list
what they hold, and fencing everything succeeds with an operating system that
cooperates. -/
theorem timely_calls_stay_readable (codec : Codec) (processCodec : ProcessCodec) (owner : Owner)
    (processOwner : ProcessOwner) {s : LocalFences}
    (h : ReflTransGen (LocalFences.TimelyStep codec processCodec)
      (LocalFences.empty owner processOwner) s) :
    (∀ files ∈ s.fence.runs, ∃ view, s.fence.get codec files.run = .ok view) ∧
      (∀ files ∈ s.processes.runs, ∃ view, s.processes.get processCodec files.run = .ok view) ∧
      (∃ views, s.fence.list codec = .ok views) ∧
      (∃ views, s.processes.list processCodec = .ok views) ∧
      ∀ now answers, (∀ run, timely (now run) (s.processes.last run) = true) →
        (∀ run, (answers run).Cooperates) →
        (s.processes.fenceAll processCodec now answers).1 = .ok () := by
  have hs := LocalFences.run_readable (LocalFences.empty_readable owner processOwner) h
  refine ⟨fun files hfiles => hs.fence.get hfiles, fun files hfiles => hs.processes.get hfiles,
    hs.fence.list (hs.tidy.1.trans_le (Nat.zero_le _)),
    hs.processes.list (hs.tidy.2.trans_le (Nat.zero_le _)), fun now answers htime hanswers => ?_⟩
  exact GovernedProcessStore.fenceAll_ok hs.processes (hs.tidy.2.trans_le (Nat.zero_le _)) htime
    hanswers

/-! ## A process observed before it was prepared -/

def sampleDigest : String := String.ofList (List.replicate 64 '0')

def sampleCodec : Codec where
  size _ := 0
  admissionDigest _ := sampleDigest
  startDigest _ := sampleDigest

def sampleProcessCodec : ProcessCodec where
  preparedDigest _ := sampleDigest
  activeDigest _ := sampleDigest
  lockDigest _ := sampleDigest

def sampleOwner : Owner := ⟨"https://central", "team_00000001", "device_00000001", "member_00000001"⟩

def sampleIdentity : GovernedProcessIdentity := ⟨"run_00000001", sampleDigest, sampleDigest⟩

def sampleObservation : GovernedProcessObservation := ⟨42, "process-group:42"⟩

def cooperative : ProcessAnswer := ⟨.ok, true, .ok, true, true⟩

/-- Fresh stores after a process was prepared at `prepared` and observed at `observed`. -/
def prepareAndObserve (prepared observed : Instant) : Except AdmissionError Unit × LocalFences :=
  let s := (LocalFences.empty sampleOwner (.device sampleOwner)).perform sampleCodec
    sampleProcessCodec (.prepareProcess sampleIdentity prepared cooperative)
  s.2.perform sampleCodec sampleProcessCodec (.started 0 sampleObservation observed .ok)

theorem timely_calls_stay_readable_observed :
    (prepareAndObserve 1 2).2.processes.runs.length = 1 ∧
      ∃ views, (prepareAndObserve 1 2).2.processes.list sampleProcessCodec = .ok views := by
  refine ⟨by decide +kernel, ?_⟩
  have hprepared : (LocalFences.empty sampleOwner (.device sampleOwner)).timelyCall
      (.prepareProcess sampleIdentity 1 cooperative) = true := by decide +kernel
  have hobserved : LocalFences.timelyCall (LocalFences.perform sampleCodec sampleProcessCodec
      (LocalFences.empty sampleOwner (.device sampleOwner))
      (.prepareProcess sampleIdentity 1 cooperative)).2
      (.started 0 sampleObservation 2 .ok) = true := by decide +kernel
  exact (timely_calls_stay_readable sampleCodec sampleProcessCodec sampleOwner
    (.device sampleOwner) (.tail (.tail .refl ⟨_, hprepared, rfl⟩) ⟨_, hobserved, rfl⟩)).2.2.2.1

/-- The clock goes back by a nanosecond between the preparation and the observation:
both calls succeed, and from then on the store lists and fences nothing. -/
theorem observed_before_prepared_unreadable :
    (prepareAndObserve 2 1).1 = .ok () ∧
      (prepareAndObserve 2 1).2.processes.get sampleProcessCodec "run_00000001" = .error .changed ∧
      (prepareAndObserve 2 1).2.processes.list sampleProcessCodec = .error .changed ∧
      ((prepareAndObserve 2 1).2.processes.fenceAll sampleProcessCodec (fun _ => 3)
        fun _ => cooperative).1 = .error .changed := by
  decide +kernel

end ConveneWire.Admission
