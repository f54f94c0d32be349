import ConveneWire.Governed.Handler

/-! # Recovery of governed Runtimes

`governed_recovery.go`: before ordinary recovery, all recorded processes are fenced, the
inbox is joined with the fence, every possible start is closed as unknown, and only
then an inconsistent inventory is reported. -/

namespace ConveneWire.Governed

open Bridge (Record Inbox.hasCancellation Inbox.appendEvent)
open Bridge.RuntimeExecutor (cancelTombstonedRecord clearTerminalCancellationFence
  validateRecoveryRecord privateOutputError)
open Run (RuntimeEvent)
open Admission
open Concurrent (Process)

/-- `ErrGovernedRecoveryInconsistent`. -/
def inconsistent : String := "governed Runtime recovery inventory is inconsistent"

/-! ## The inventory -/

/-- `validateGovernedRecoveryView`; the times of a view are parsed already. -/
def validRecoveryView (view : RuntimeAdmissionView) : Bool :=
  match view.state, view.startDigest, view.authorityCheckedAt, view.outcome, view.stoppedAt with
  | .claimed, none, none, none, none => true
  | .starting, some _, some authorizedAt, none, none => decide (view.claimedAt ≤ authorizedAt)
  | .stopped, some _, some authorizedAt, some _, some stoppedAt =>
    decide (view.claimedAt ≤ authorizedAt) && decide (authorizedAt ≤ stoppedAt)
  | _, _, _, _, _ => false

def viewOf (views : List RuntimeAdmissionView) (run : String) : Option RuntimeAdmissionView :=
  views.find? fun view => view.spec.runId == run

/-- The views are taken in under their Runs, each Run once. -/
def validInventory (views : List RuntimeAdmissionView) : Bool :=
  decide (views.map fun view => view.spec.runId).Nodup && views.all validRecoveryView

/-- `validateGovernedRecoveryState`. -/
def validRecoveryState (record : Record) (view : Option RuntimeAdmissionView) : Bool :=
  match view with
  | none => record.state != .working
  | some view =>
    match view.state with
    | .claimed => record.state != .working
    | .starting | .stopped => record.state != .preparing

def governed (records : List Record) : List Record :=
  records.filter fun record => record.request.governed

def validRecord (record : Record) : Bool :=
  match validateRecoveryRecord record with
  | .ok () => true
  | .error _ => false

section

variable (config : Config)

/-- No record and no view speaks against the others. -/
def consistent (records : List Record) (views : List RuntimeAdmissionView) : Bool :=
  ((governed records).all fun record =>
    validRecord record &&
      ((viewOf views record.runId).all fun view => config.validRequest record.request view) &&
      validRecoveryState record (viewOf views record.runId)) &&
  views.all fun view => (governed records).any fun record =>
    validRecord record && record.runId == view.spec.runId

/-! ## Closing possible starts -/

/-- One starting admission: only its exact process, found absent, lets it be stopped. -/
def closeStarting (n : Nat) (view : RuntimeAdmissionView) : Routine RuntimeAdmissionView :=
  match view.state, view.startDigest with
  | .starting, some startDigest => do
    fenceAndWait config n view
    let closed ← fenceStop config view.spec.runId view.admissionDigest startDigest .outcomeUnknown
    if closed.spec ≠ view.spec ∨ closed.admissionDigest ≠ view.admissionDigest ∨
        closed.state ≠ .stopped ∨ closed.startDigest ≠ some startDigest ∨
        closed.outcome ≠ some .outcomeUnknown then
      Process.fail inconsistent
    else pure closed
  | _, _ => pure view

def closeAll (n : Nat) : List RuntimeAdmissionView → Routine (List RuntimeAdmissionView)
  | [] => pure []
  | view :: rest => do
    let closed ← closeStarting config n view
    let views ← closeAll n rest
    pure (closed :: views)

/-! ## Closing records -/

/-- `recoverUnknown`: `emitUnknown` into a buffer, then the record is sent as it is. -/
def recoverUnknown (record : Record) : Bridge.Routine Unit := do
  let error := if record.request.ownerPrivateOutput then privateOutputError
    else ⟨"GOVERNED_RUNTIME_RESTARTED", "Runtime outcome could not be determined.", false, none⟩
  let message : RuntimeEvent := .failedStatus (record.lastSequence + 1) .outcomeUnknown error
  let _ ← Inbox.appendEvent .outcomeUnknown message
  clearTerminalCancellationFence record.request
  acknowledgeTerminal config

/-- A record that is over: it is sent again, and its tombstone goes. -/
def recoverTerminal (record : Record) : Bridge.Routine Unit := do
  acknowledgeTerminal config
  clearTerminalCancellationFence record.request

/-- The last loop of `Recover`, for one record. -/
def recoverRecord (views : List RuntimeAdmissionView) (record : Record) : Bridge.Routine Unit := do
  let canceled ← Inbox.hasCancellation record.request
  if canceled ∧ ¬ record.state.isTerminal then cancelTombstonedRecord config.inbox record.request
  else if record.state.isTerminal then recoverTerminal config record
  else if record.state = .preparing then pure ()
  else
    match viewOf views record.runId with
    | none => pure ()
    | some view =>
      match view.state with
      | .claimed => pure ()
      | .starting => Process.fail inconsistent
      | .stopped => recoverUnknown config record

/-- `Recover` by the `n`-th process. -/
def recover (n : Nat) : Routine Unit := do
  fenceAll config n
  let records ← listRecords
  let views ← fenceList config
  if ¬ validInventory views then Process.fail inconsistent
  else
    let closed ← closeAll config n views
    if ¬ consistent config records views then Process.fail inconsistent
    else
      Process.forEach (governed records) fun record =>
        onSlot record.runId (recoverRecord config closed record)

/-- `RecoverAll`: ordinary recovery leaves governed records alone. -/
def recoverAll (n : Nat) : Routine Unit := do
  recover config n
  let records ← listRecords
  Process.forEach (records.filter fun record => !record.request.governed) fun record =>
    onSlot record.runId (Bridge.RuntimeExecutor.recover config.inbox)

end

end ConveneWire.Governed
