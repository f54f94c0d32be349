import ConveneWire.Admission.RuntimeFence

/-! # The governed process store of the Bridge

`bridge/internal/admission/process_store.go` keeps the process of a governed Runtime
on record from before it exists until its absence is proved: a prepared file, an
active file once the process is observed, and a finished or abandoned one. Beside
them stands the lock file that the process inherits. -/

namespace ConveneWire.Admission

open Bridge (Io isContractRunID)
open Contracts.ExecutionRuntime (maxSafeJSONInteger)

/-! ## Records -/

structure GovernedProcessIdentity where
  runId : String
  admissionDigest : String
  startDigest : String
  deriving DecidableEq, Repr

def validGovernedProcessIdentity (identity : GovernedProcessIdentity) : Bool :=
  isContractRunID identity.runId && isSha256Digest identity.admissionDigest &&
    isSha256Digest identity.startDigest

structure GovernedProcessObservation where
  pid : Int
  platformIdentity : String
  deriving DecidableEq, Repr

/-- `validGovernedProcessObservation` of `process_store_unix.go`. -/
def validGovernedProcessObservation (observation : GovernedProcessObservation) : Bool :=
  decide (1 < observation.pid) &&
    observation.platformIdentity == "process-group:" ++ toString observation.pid

structure NodeProcessOwner where
  nodeId : String
  publicKey : String
  localUserId : String
  deriving DecidableEq, Repr

/-- A store belongs to a Device owner or to a Node; the version of a prepared record
says to which. -/
inductive ProcessOwner where
  | device (owner : Owner)
  | node (owner : NodeProcessOwner)
  deriving DecidableEq, Repr

structure GovernedProcessPreparedRecord where
  owner : ProcessOwner
  identity : GovernedProcessIdentity
  lockDigest : String
  preparedAt : Instant
  deriving DecidableEq, Repr

structure GovernedProcessActiveRecord where
  runId : String
  preparedDigest : String
  observation : GovernedProcessObservation
  startedAt : Instant
  deriving DecidableEq, Repr

structure GovernedProcessTerminalRecord where
  runId : String
  preparedDigest : String
  activeDigest : String
  closedAt : Instant
  deriving DecidableEq, Repr

inductive TerminalStage where
  | finished | abandoned
  deriving DecidableEq, Repr

structure GovernedProcessView where
  prepared : GovernedProcessPreparedRecord
  preparedDigest : String
  active : Option GovernedProcessActiveRecord
  activeDigest : String
  terminal : Option (TerminalStage × GovernedProcessTerminalRecord)
  deriving DecidableEq, Repr

/-- `runtimeRecordDigest` of the records, and `governedProcessLockDigest`. -/
structure ProcessCodec where
  preparedDigest : GovernedProcessPreparedRecord → String
  activeDigest : GovernedProcessActiveRecord → String
  lockDigest : GovernedProcessIdentity → String

/-! ## The files of a Run -/

structure ProcessFiles where
  prepared : GovernedProcessPreparedRecord
  active : Option GovernedProcessActiveRecord
  finished : Option GovernedProcessTerminalRecord
  abandoned : Option GovernedProcessTerminalRecord
  lock : Bool
  deriving DecidableEq, Repr

namespace ProcessFiles

def run (files : ProcessFiles) : String := files.prepared.identity.runId

def count (files : ProcessFiles) : Nat :=
  1 + files.active.toList.length + files.finished.toList.length + files.abandoned.toList.length +
    files.lock.toNat

variable (codec : ProcessCodec) (owner : ProcessOwner)

variable (files : ProcessFiles)

def preparedReads : Bool :=
  files.prepared.owner == owner && validGovernedProcessIdentity files.prepared.identity &&
    files.prepared.lockDigest == codec.lockDigest files.prepared.identity &&
    validProfileTime files.prepared.preparedAt

/-- The pid is the one integer that the canonical reader could refuse. -/
def activeReads (active : GovernedProcessActiveRecord) : Bool :=
  decide (active.observation.pid ≤ maxSafeJSONInteger) && active.runId == files.run &&
    active.preparedDigest == codec.preparedDigest files.prepared &&
    validGovernedProcessObservation active.observation && validProfileTime active.startedAt &&
    decide (files.prepared.preparedAt ≤ active.startedAt)

/-- What both terminal stages ask of their record. -/
def terminalReads (terminal : GovernedProcessTerminalRecord) : Bool :=
  terminal.runId == files.run && terminal.preparedDigest == codec.preparedDigest files.prepared &&
    validProfileTime terminal.closedAt && decide (files.prepared.preparedAt ≤ terminal.closedAt)

def finishedReads (active : GovernedProcessActiveRecord) (terminal : GovernedProcessTerminalRecord)
    : Bool :=
  files.terminalReads codec terminal && terminal.activeDigest == codec.activeDigest active &&
    decide (active.startedAt ≤ terminal.closedAt)

def abandonedReads (terminal : GovernedProcessTerminalRecord) : Bool :=
  files.terminalReads codec terminal && terminal.activeDigest == ""

def viewWith (active : Option GovernedProcessActiveRecord)
    (terminal : Option (TerminalStage × GovernedProcessTerminalRecord)) : GovernedProcessView where
  prepared := files.prepared
  preparedDigest := codec.preparedDigest files.prepared
  active := active
  activeDigest := (active.map codec.activeDigest).getD ""
  terminal := terminal

/-- `GovernedProcessStore.get` once the prepared record is there. -/
def view : Except AdmissionError GovernedProcessView :=
  if ¬ files.preparedReads codec owner then .error .changed
  else if ¬ files.active.all (files.activeReads codec) then .error .changed
  else
    match files.active, files.finished, files.abandoned with
    | active, none, none => .ok (files.viewWith codec active none)
    | some active, some terminal, none =>
      if files.finishedReads codec active terminal then
        .ok (files.viewWith codec (some active) (some (.finished, terminal)))
      else .error .changed
    | none, none, some terminal =>
      if files.abandonedReads codec terminal then
        .ok (files.viewWith codec none (some (.abandoned, terminal)))
      else .error .changed
    | _, _, _ => .error .changed

end ProcessFiles

/-! ## The store -/

/-- `governedProcessLease`, known by its position among the leases of the process. -/
structure Lease where
  identity : GovernedProcessIdentity
  preparedDigest : String
  /-- The lock file is still open here; the child inherits it. -/
  lockFile : Bool
  closed : Bool
  deriving DecidableEq, Repr

structure GovernedProcessStore where
  owner : ProcessOwner
  runs : List ProcessFiles
  pending : Nat
  leases : List Lease
  deriving DecidableEq, Repr

/-- What the file system and the operating system answer during one call: how the
record is written, whether the lock file could be created, how the record is written
that closes a failed preparation, whether the lock file could be removed, and whether
the lock becomes free in time. -/
structure ProcessAnswer where
  write : Io
  lockCreated : Bool
  closing : Io
  lockRemoved : Bool
  released : Bool
  deriving DecidableEq, Repr

namespace GovernedProcessStore

variable (codec : ProcessCodec)

section

variable (store : GovernedProcessStore)

def lookup (run : String) : Option ProcessFiles :=
  Table.lookup ProcessFiles.run run store.runs

def get (run : String) : Except AdmissionError GovernedProcessView :=
  if ¬ isContractRunID run then .error .invalid
  else
    match store.lookup run with
    | none => .error .notExist
    | some files => files.view codec store.owner

def entries : Nat :=
  (store.runs.map ProcessFiles.count).sum + store.pending

/-- `list`. The source goes through a map, in any order; this is one of them. -/
def list : Except AdmissionError (List GovernedProcessView) :=
  if maxRuntimeAdmissions * 5 + 16 < store.entries then .error .changed
  else store.runs.mapM (ProcessFiles.view codec store.owner)

def withPrepared (record : GovernedProcessPreparedRecord) (lock : Bool) : GovernedProcessStore :=
  { store with runs := store.runs ++ [⟨record, none, none, none, lock⟩] }

def edit (run : String) (f : ProcessFiles → ProcessFiles) : GovernedProcessStore :=
  { store with runs := Table.update (fun files => files.run = run) f store.runs }

def withActive (record : GovernedProcessActiveRecord) : GovernedProcessStore :=
  store.edit record.runId fun files => { files with active := some record }

def withFinished (record : GovernedProcessTerminalRecord) : GovernedProcessStore :=
  store.edit record.runId fun files => { files with finished := some record }

def withAbandoned (record : GovernedProcessTerminalRecord) : GovernedProcessStore :=
  store.edit record.runId fun files => { files with abandoned := some record }

def withoutLock (run : String) : GovernedProcessStore :=
  store.edit run fun files => { files with lock := false }

def withLease (n : Nat) (lease : Lease) : GovernedProcessStore :=
  { store with leases := store.leases.set n lease }

def hasLock (run : String) : Bool :=
  (store.lookup run).any ProcessFiles.lock

/-! ## Closing -/

/-- `removeLockLocked`. -/
def removeLock (run : String) (answer : ProcessAnswer) : Except AdmissionError Unit ×
    GovernedProcessStore :=
  if ¬ store.hasLock run then (.ok (), store)
  else if answer.lockRemoved then (.ok (), store.withoutLock run)
  else (.error .io, store)

end

/-- A terminal record is written, which gives `next`, and then the lock goes. -/
def closed (store next : GovernedProcessStore) (run : String) (answer : ProcessAnswer) :
    Except AdmissionError Unit × GovernedProcessStore :=
  match put answer.write store next (.ok ()) with
  | (.error e, next) => (.error e, next)
  | (.ok (), next) => next.removeLock run answer

section

variable (store : GovernedProcessStore)

/-- The store after `abandonPreparedLocked`. -/
def abandoned (run preparedDigest : String) (now : Instant) : GovernedProcessStore :=
  store.withAbandoned ⟨run, preparedDigest, "", now⟩

/-- `abandonPreparedLocked` and `removeLockLocked`. -/
def closePrepared (run preparedDigest : String) (now : Instant) (answer : ProcessAnswer) : Except
    AdmissionError Unit × GovernedProcessStore :=
  store.closed (store.abandoned run preparedDigest now) run answer

/-- `finishActiveLocked`. -/
def finishActive (view : GovernedProcessView) (now : Instant) (answer : ProcessAnswer) : Except
    AdmissionError Unit × GovernedProcessStore :=
  let run := view.prepared.identity.runId
  store.closed (store.withFinished ⟨run, view.preparedDigest, view.activeDigest, now⟩) run answer

/-! ## PrepareProcess -/

def preparing (identity : GovernedProcessIdentity) (now : Instant) : Except AdmissionError
    GovernedProcessPreparedRecord :=
  if ¬ validGovernedProcessIdentity identity then .error .invalid
  else
    match store.get codec identity.runId with
    | .ok _ => .error .conflict
    | .error .notExist =>
      match store.list codec with
      | .error e => .error e
      | .ok views =>
        if maxRuntimeAdmissions ≤ views.length then .error .conflict
        else .ok ⟨store.owner, identity, codec.lockDigest identity, now⟩
    | .error e => .error e

/-- `PrepareProcess`: the position of the new lease. A lock file that cannot be created
closes the preparation at once, as far as that can be written. -/
def prepareProcess (identity : GovernedProcessIdentity) (now : Instant) (answer : ProcessAnswer) :
    Except AdmissionError Nat × GovernedProcessStore :=
  match store.preparing codec identity now with
  | .error e => (.error e, store)
  | .ok record =>
    match answer.write with
    | .failsBefore => (.error .io, store)
    | .failsAfter => (.error .io, store.withPrepared record false)
    | .ok =>
      let preparedDigest := codec.preparedDigest record
      if answer.lockCreated then
        let next := store.withPrepared record true
        (.ok store.leases.length,
          { next with leases := store.leases ++ [⟨identity, preparedDigest, true, false⟩] })
      else
        let next := store.withPrepared record false
        put answer.closing next (next.abandoned identity.runId preparedDigest now) (.error .io)

end

/-! ## The lease -/

/-- The lease is the one on record. -/
def owns (lease : Lease) (view : GovernedProcessView) : Bool :=
  view.prepared.identity == lease.identity && view.preparedDigest == lease.preparedDigest

section

variable (store : GovernedProcessStore)

/-- `startLease` up to its write. -/
def startingLease (lease : Lease) (observation : GovernedProcessObservation) (now : Instant) :
    Except AdmissionError GovernedProcessActiveRecord :=
  if ¬ validGovernedProcessObservation observation then .error .invalid
  else
    match store.get codec lease.identity.runId with
    | .error e => .error e
    | .ok view =>
      if ¬ owns lease view ∨ view.active ≠ none ∨ view.terminal ≠ none then .error .changed
      else .ok ⟨lease.identity.runId, lease.preparedDigest, observation, now⟩

/-- `startLease`: the record is written and not read again. -/
def startLease (lease : Lease) (observation : GovernedProcessObservation) (now : Instant) (io : Io)
    : Except AdmissionError Unit × GovernedProcessStore :=
  match store.startingLease codec lease observation now with
  | .error e => (.error e, store)
  | .ok record => put io store (store.withActive record) (.ok ())

/-- `Started`: whatever becomes of the record, the lock file is closed here. -/
def started (n : Nat) (observation : GovernedProcessObservation) (now : Instant) (io : Io) : Except
    AdmissionError Unit × GovernedProcessStore :=
  match store.leases[n]? with
  | none => (.error .changed, store)
  | some lease =>
    if lease.closed then (.error .changed, store)
    else
      match store.startLease codec lease observation now io with
      | (result, next) => (result, next.withLease n { lease with lockFile := false })

/-- `waitGovernedProcessLock`: a lock file must be there only for a process to end. -/
def waitProcessLock (run : String) (terminate : Bool) (answer : ProcessAnswer) : Except
    AdmissionError Unit :=
  if ¬ store.hasLock run then if terminate then .error .notExist else .ok ()
  else if answer.released then .ok () else .error .io

variable (lease : Lease)

section

variable (observation : GovernedProcessObservation)

/-- The first section of `finishLease`: whether the process must be waited for. -/
def finishObserved (now : Instant) (answer : ProcessAnswer) : Except AdmissionError Bool ×
    GovernedProcessStore :=
  match store.get codec lease.identity.runId with
  | .error e => (.error e, store)
  | .ok view =>
    if ¬ owns lease view then (.error .changed, store)
    else if view.terminal ≠ none then (.ok false, store)
    else
      match view.active with
      | none =>
        match store.closePrepared lease.identity.runId view.preparedDigest now answer with
        | (result, next) => (result.map fun _ => false, next)
      | some active =>
        if active.observation ≠ observation then (.error .conflict, store) else (.ok true, store)

/-- The last section of `finishLease`. -/
def finishClosed (now : Instant) (answer : ProcessAnswer) : Except AdmissionError Unit ×
    GovernedProcessStore :=
  match store.get codec lease.identity.runId with
  | .error e => (.error e, store)
  | .ok view =>
    if ¬ owns lease view ∨ view.active.map GovernedProcessActiveRecord.observation ≠
        some observation then (.error .changed, store)
    else if view.terminal ≠ none then (.ok (), store)
    else store.finishActive view now answer

/-- `finishLease` when no other call comes between its sections. -/
def finishLease (now : Instant) (answer : ProcessAnswer) : Except AdmissionError Unit ×
    GovernedProcessStore :=
  match store.finishObserved codec lease observation now answer with
  | (.error e, next) => (.error e, next)
  | (.ok false, next) => (.ok (), next)
  | (.ok true, next) =>
    match next.waitProcessLock lease.identity.runId true answer with
    | .error e => (.error e, next)
    | .ok () => next.finishClosed codec lease observation now answer

end

def abandonLease (now : Instant) (answer : ProcessAnswer) : Except AdmissionError Unit ×
    GovernedProcessStore :=
  match store.get codec lease.identity.runId with
  | .error e => (.error e, store)
  | .ok view =>
    if ¬ owns lease view ∨ view.active ≠ none then (.error .changed, store)
    else if view.terminal ≠ none then store.removeLock lease.identity.runId answer
    else store.closePrepared lease.identity.runId view.preparedDigest now answer

end

/-- What `Finished` and `Abandon` leave of the lease. -/
def closeLease (n : Nat) (lease : Lease)
    (outcome : Except AdmissionError Unit × GovernedProcessStore) :
    Except AdmissionError Unit × GovernedProcessStore :=
  (outcome.1, outcome.2.withLease n { lease with lockFile := false, closed := outcome.1.isOk })

def finished (store : GovernedProcessStore) (n : Nat) (observation : GovernedProcessObservation)
    (now : Instant) (answer : ProcessAnswer) : Except AdmissionError Unit × GovernedProcessStore :=
  match store.leases[n]? with
  | none => (.error .changed, store)
  | some lease =>
    if lease.closed then (.error .changed, store)
    else closeLease n lease (store.finishLease codec lease observation now answer)

def abandon (store : GovernedProcessStore) (n : Nat) (now : Instant) (answer : ProcessAnswer) :
    Except AdmissionError Unit × GovernedProcessStore :=
  match store.leases[n]? with
  | none => (.ok (), store)
  | some lease =>
    if lease.closed then (.ok (), store)
    else closeLease n lease (store.abandonLease codec lease now answer)

/-! ## Fencing -/

/-- The identity that `FenceAndWait` looks for, if the view is of a started admission. -/
def fencedIdentity (view : RuntimeAdmissionView) : Option GovernedProcessIdentity :=
  match view.state, view.startDigest with
  | .starting, some startDigest => some ⟨view.spec.runId, view.admissionDigest, startDigest⟩
  | _, _ => none

section

variable (store : GovernedProcessStore)

section

variable (identity : GovernedProcessIdentity)

/-- The first section of `FenceAndWait`: what is left to fence. -/
def fenceObserved : Except AdmissionError (Option GovernedProcessView) :=
  if ¬ validGovernedProcessIdentity identity then .error .invalid
  else
    match store.get codec identity.runId with
    | .error e => .error e
    | .ok view =>
      if view.prepared.identity ≠ identity then .error .conflict
      else if view.terminal ≠ none then .ok none
      else .ok (some view)

/-- The last section of `FenceAndWait`, after the process of `seen` was waited for. -/
def fenceClosed (seen : GovernedProcessView) (now : Instant) (answer : ProcessAnswer) : Except
    AdmissionError Unit × GovernedProcessStore :=
  match store.get codec identity.runId with
  | .error e => (.error e, store)
  | .ok current =>
    if current.prepared.identity ≠ identity ∨
        current.active.map GovernedProcessActiveRecord.observation ≠
          seen.active.map GovernedProcessActiveRecord.observation then (.error .changed, store)
    else
      match current.active with
      | none =>
        if current.terminal ≠ none then (.error .changed, store)
        else store.closePrepared identity.runId current.preparedDigest now answer
      | some _ =>
        if current.terminal ≠ none then (.ok (), store)
        else store.finishActive current now answer

/-- `FenceAndWait` when no other call comes between its sections. -/
def fenceIdentity (now : Instant) (answer : ProcessAnswer) : Except AdmissionError Unit ×
    GovernedProcessStore :=
  match store.fenceObserved codec identity with
  | .error e => (.error e, store)
  | .ok none => (.ok (), store)
  | .ok (some seen) =>
    match store.waitProcessLock identity.runId seen.active.isSome answer with
    | .error e => (.error e, store)
    | .ok () => store.fenceClosed codec identity seen now answer

end

def fenceAndWait (view : RuntimeAdmissionView) (now : Instant) (answer : ProcessAnswer) : Except
    AdmissionError Unit × GovernedProcessStore :=
  match fencedIdentity view with
  | none => (.error .invalid, store)
  | some identity => store.fenceIdentity codec identity now answer

end

/-- The loop of `FenceAll`; `governedProcessAdmissionView` hands each identity on. -/
def fenceIdentities (now : String → Instant) (answers : String → ProcessAnswer) :
    List GovernedProcessIdentity → GovernedProcessStore →
      Except AdmissionError Unit × GovernedProcessStore
  | [], store => (.ok (), store)
  | identity :: rest, store =>
    match store.fenceIdentity codec identity (now identity.runId) (answers identity.runId) with
    | (.error e, next) => (.error e, next)
    | (.ok (), next) => fenceIdentities now answers rest next

def fenceAll (store : GovernedProcessStore) (now : String → Instant)
    (answers : String → ProcessAnswer) : Except AdmissionError Unit × GovernedProcessStore :=
  match store.list codec with
  | .error e => (.error e, store)
  | .ok views =>
    let live := views.filter fun view => view.terminal.isNone
    fenceIdentities codec now answers (live.map fun view => view.prepared.identity) store

end GovernedProcessStore

end ConveneWire.Admission
