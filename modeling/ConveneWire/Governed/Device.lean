import ConveneWire.Bridge.Handler
import ConveneWire.Admission.ProcessStore
import ConveneWire.Lib.Zoom

/-! # A Bridge that runs governed Runtimes

Three durable stores take part in a governed Run: the inbox, the Runtime fence and the
process store. They have a mutex each and are written one after another, so one locked
section of one of them is an action of the model. -/

namespace ConveneWire.Governed

open Bridge (RunSlot RunRequest Record Io)
open Admission
open Concurrent (Process)

/-! ## Admission specifications -/

/-- The fields of a specification that only the local preparation can tell. -/
structure LocalFacts where
  runtimeProfileRevision : Int
  preparedOperationId : String
  preparedIntentDigest : String
  preparedIdentityDigest : String
  preparedCommit : String
  preparedTree : String
  outputBaseCommit : String
  deriving DecidableEq, Repr

/-- `NewRuntimeAdmissionSpec`: `manifest` holds what the delivery says. -/
def specOf (manifest : RuntimeAdmissionSpec) (facts : LocalFacts) : RuntimeAdmissionSpec :=
  { manifest with
    runtimeProfileRevision := facts.runtimeProfileRevision
    preparedOperationId := facts.preparedOperationId
    preparedIntentDigest := facts.preparedIntentDigest
    preparedIdentityDigest := facts.preparedIdentityDigest
    preparedCommit := facts.preparedCommit
    preparedTree := facts.preparedTree
    outputBaseCommit := facts.outputBaseCommit }

def localFacts (spec : RuntimeAdmissionSpec) : LocalFacts where
  runtimeProfileRevision := spec.runtimeProfileRevision
  preparedOperationId := spec.preparedOperationId
  preparedIntentDigest := spec.preparedIntentDigest
  preparedIdentityDigest := spec.preparedIdentityDigest
  preparedCommit := spec.preparedCommit
  preparedTree := spec.preparedTree
  outputBaseCommit := spec.outputBaseCommit

/-- What is fixed when the Bridge starts. `manifest` stands for
`DecodeGovernedManifest`, which compares the Run of the delivery with the one of its
manifest; digests are SHA-256 texts. -/
structure Config where
  inbox : Bridge.Config
  codec : Codec
  processCodec : ProcessCodec
  allowsAgent : String → Bool
  manifest : RunRequest → Option RuntimeAdmissionSpec
  manifest_run : ∀ {request spec}, manifest request = some spec → spec.runId = request.runId
  admissionDigest_hex : ∀ record, isSha256Digest (codec.admissionDigest record) = true
  startDigest_hex : ∀ record, isSha256Digest (codec.startDigest record) = true

/-- `ValidateRuntimeAdmissionRequest`. -/
def Config.validRequest (config : Config) (request : RunRequest) (view : RuntimeAdmissionView) :
    Bool :=
  match config.manifest request with
  | none => false
  | some manifest =>
    validRuntimeAdmissionSpec view.spec && isSha256Digest view.admissionDigest &&
      decide (view.spec = specOf manifest (localFacts view.spec))

/-! ## Answers of the environment -/

/-- How far the adapter gets with its process: it prepares none, it leaves the
prepared one, it fails to launch it, or the process is observed. -/
inductive Launch where
  | skipped | left | failed
  | observed (observation : GovernedProcessObservation)
  deriving DecidableEq, Repr

structure Answer where
  inbox : Bridge.Answer
  now : Instant
  /-- The files of the fence and the process store can be read. -/
  readable : Bool
  io : Io
  process : ProcessAnswer
  /-- `recheckLocal`: its error or the facts of the prepared workspace. -/
  preparation : Except String LocalFacts
  authority : Except String Unit
  runnable : Bool
  launch : Launch
  captured : Bool

/-! ## The state -/

/-- What the Bridge holds. The last three fields are history: which process was told
to invoke which Run, which process started an adapter for which Run, and which
process identities were found absent by whom. -/
structure Device where
  slots : String → RunSlot
  known : List String
  fence : RuntimeFenceStore
  processes : GovernedProcessStore
  invoked : List (Nat × String)
  executed : List (Nat × String)
  fenced : List (Nat × GovernedProcessIdentity)

namespace Device

def empty (owner : Owner) (processOwner : ProcessOwner) : Device :=
  ⟨fun _ => .empty, [], ⟨owner, [], 0⟩, ⟨processOwner, [], 0, []⟩, [], [], []⟩

def withSlot (s : Device) (run : String) (slot : RunSlot) : Device :=
  { s with
    slots := Function.update s.slots run slot
    known := if run ∈ s.known then s.known else s.known ++ [run] }

/-- `Inbox.List`, in the order in which the Runs came; the source goes by file name. -/
def records (s : Device) : List Record := s.known.filterMap fun run => (s.slots run).record

end Device

abbrev Routine := Process Device Answer

/-! ## Actions -/

def onSlot {α : Type} (run : String) (p : Bridge.Routine α) : Routine α :=
  p.zoom (fun s => s.slots run) (fun s slot => s.withSlot run slot) Answer.inbox

def told {α : Type} : Except AdmissionError α → Except String α
  | .ok a => .ok a
  | .error e => .error e.text

/-- A locked section of the Runtime fence. -/
def onFence {α : Type}
    (f : RuntimeFenceStore → Answer → Except AdmissionError α × RuntimeFenceStore) : Routine α :=
  .step fun s answer =>
    if answer.readable then
      (told (f s.fence answer).1, { s with fence := (f s.fence answer).2 })
    else (.error AdmissionError.io.text, s)

/-- A locked section of the process store. -/
def onProcesses {α : Type}
    (f : GovernedProcessStore → Answer → Except AdmissionError α × GovernedProcessStore) :
    Routine α :=
  .step fun s answer =>
    if answer.readable then
      (told (f s.processes answer).1, { s with processes := (f s.processes answer).2 })
    else (.error AdmissionError.io.text, s)

def failWith {α : Type} (e : AdmissionError) : Routine α := Process.fail e.text

section

variable (config : Config)

def fenceGet (run : String) : Routine RuntimeAdmissionView :=
  onFence fun store _ => (store.get config.codec run, store)

def fenceList : Routine (List RuntimeAdmissionView) :=
  onFence fun store _ => (store.list config.codec, store)

def fenceClaim (spec : RuntimeAdmissionSpec) : Routine RuntimeAdmissionView :=
  onFence fun store answer => store.claim config.codec spec answer.now answer.io

def fenceStop (run expectedAdmission expectedStart : String) (outcome : RuntimeOutcome) :
    Routine RuntimeAdmissionView :=
  onFence fun store answer =>
    store.stop config.codec run expectedAdmission expectedStart outcome answer.now answer.io

/-- The last section of the fence's `Start`. The `n`-th process is told to invoke if
the start record is its own. -/
def startCommitted (n : Nat) (run expected : String) (seen : RuntimeAdmissionSpec) :
    Routine (RuntimeAdmissionView × Bool) :=
  .step fun s answer =>
    if answer.readable then
      let outcome := s.fence.startCommitted config.codec run expected seen answer.now answer.io
      (told outcome.1,
        { s with
          fence := outcome.2
          invoked :=
            match outcome.1 with
            | .ok (_, true) => s.invoked ++ [(n, run)]
            | _ => s.invoked })
    else (.error AdmissionError.io.text, s)

def prepareProcess (identity : GovernedProcessIdentity) : Routine Nat :=
  onProcesses fun store answer =>
    store.prepareProcess config.processCodec identity answer.now answer.process

def started (lease : Nat) (observation : GovernedProcessObservation) : Routine Unit :=
  onProcesses fun store answer =>
    store.started config.processCodec lease observation answer.now answer.io

def abandon (lease : Nat) : Routine Unit :=
  onProcesses fun store answer =>
    store.abandon config.processCodec lease answer.now answer.process

/-- The lease that `Finished` is called on. -/
def openLease (lease : Nat) (store : GovernedProcessStore) : Except AdmissionError Lease :=
  match store.leases[lease]? with
  | none => .error .changed
  | some held => if held.closed then .error .changed else .ok held

def heldLease (lease : Nat) : Routine Lease :=
  onProcesses fun store _ => (openLease lease store, store)

def waitProcessLock (run : String) (terminate : Bool) : Routine Unit :=
  onProcesses fun store answer => (store.waitProcessLock run terminate answer.process, store)

def finishLease (held : Lease) (observation : GovernedProcessObservation) : Routine Unit := do
  let waits ← onProcesses fun store answer =>
    store.finishObserved config.processCodec held observation answer.now answer.process
  if waits then
    waitProcessLock held.identity.runId true
    onProcesses fun store answer =>
      store.finishClosed config.processCodec held observation answer.now answer.process
  else pure ()

def finished (lease : Nat) (observation : GovernedProcessObservation) : Routine Unit := do
  let held ← heldLease lease
  let result ← (finishLease config held observation).attempt
  let ended : Lease := { held with lockFile := false, closed := result.isOk }
  Process.step fun s _ => (result, { s with processes := s.processes.withLease lease ended })

/-- An identity found absent by the `n`-th process. -/
def noteFenced (n : Nat) (identity : GovernedProcessIdentity) (absent : Bool) (s : Device) :
    Device :=
  if absent then { s with fenced := s.fenced ++ [(n, identity)] } else s

/-- The first section of `FenceAndWait`. -/
def fenceObserved (n : Nat) (identity : GovernedProcessIdentity) :
    Routine (Option GovernedProcessView) :=
  .step fun s answer =>
    if answer.readable then
      let result := s.processes.fenceObserved config.processCodec identity
      (told result, noteFenced n identity (match result with | .ok none => true | _ => false) s)
    else (.error AdmissionError.io.text, s)

/-- Its last section. -/
def fenceClosed (n : Nat) (identity : GovernedProcessIdentity) (seen : GovernedProcessView) :
    Routine Unit :=
  .step fun s answer =>
    if answer.readable then
      let outcome :=
        s.processes.fenceClosed config.processCodec identity seen answer.now answer.process
      (told outcome.1,
        noteFenced n identity outcome.1.isOk { s with processes := outcome.2 })
    else (.error AdmissionError.io.text, s)

def fenceIdentity (n : Nat) (identity : GovernedProcessIdentity) : Routine Unit := do
  match ← fenceObserved config n identity with
  | none => pure ()
  | some seen =>
    waitProcessLock identity.runId seen.active.isSome
    fenceClosed config n identity seen

def fenceAndWait (n : Nat) (view : RuntimeAdmissionView) : Routine Unit :=
  match GovernedProcessStore.fencedIdentity view with
  | none => failWith .invalid
  | some identity => fenceIdentity config n identity

def fenceAll (n : Nat) : Routine Unit := do
  let views ← onProcesses fun store _ => (store.list config.processCodec, store)
  let live := views.filter fun view => view.terminal.isNone
  Process.forEach (live.map fun view => view.prepared.identity) (fenceIdentity config n)

/-- `Inbox.List`. -/
def listRecords : Routine (List Record) :=
  .step fun s answer =>
    match answer.inbox.io with
    | .ok => (.ok s.records, s)
    | .failsBefore | .failsAfter => (.error "inbox file could not be read", s)

end

end ConveneWire.Governed
