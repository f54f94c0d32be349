import ConveneWire.Governed.Recovery
import ConveneWire.Admission.FenceReads
import ConveneWire.Lib.Pool

/-! # Runs of a governed Bridge

Deliveries, cancellations and recoveries run side by side on one Bridge, in any order
and number, and any of them may be cut short by a crash. On an empty Bridge an
admissible delivery gets to its start. -/

namespace ConveneWire.Governed

open Bridge (RunSlot RunRequest CancelRequest Record isContractRunID isContractTraceID)
open Bridge.RuntimeExecutor (stageCancellation replayCanceledRun)
open Admission
open Concurrent (Pool)
open Relation (ReflTransGen)
open AdmissionFiles (claimedView startingView)
open Concurrent.Process (step zoom_step run_step run_bind_ok run_attempt_ok zoom_bind ask)

/-! ## Runs of the Bridge -/

/-- The worker's context of a Run: new with each worker, canceled by a cancel request. -/
def setContext (canceled : Bool) : Bridge.Routine Unit :=
  .step fun s _ => (.ok (), { s with explicitCancel := canceled })

/-- What may be started on a Bridge, here as the `n`-th process. -/
inductive Spawned (config : Config) (n : Nat) : Routine Unit → Prop
  | handle (request : RunRequest) : Spawned config n (handle config n request)
  | context (run : String) (canceled : Bool) : Spawned config n (onSlot run (setContext canceled))
  | stage (requested : CancelRequest) :
      Spawned config n (onSlot requested.runId (stageCancellation requested))
  | replay (requested : CancelRequest) :
      Spawned config n (onSlot requested.runId (replayCanceledRun config.inbox requested))
  | recover : Spawned config n (recoverAll config n)

/-- A crash takes the leases and contexts of the process, and may leave the temporary
file of a write that it cut short. -/
def Device.restart (s : Device) (inFence inProcesses : Bool) : Device :=
  { s with
    slots := fun run => { s.slots run with explicitCancel := false }
    fence := { s.fence with pending := s.fence.pending + inFence.toNat }
    processes :=
      { s.processes with pending := s.processes.pending + inProcesses.toNat, leases := [] } }

def Crashed (s t : Device) : Prop := ∃ inFence inProcesses, t = s.restart inFence inProcesses

abbrev Device.Step (config : Config) : Pool Device Answer → Pool Device Answer → Prop :=
  Pool.Step (Spawned config) Crashed

/-- What some interleaving leads to from empty stores. -/
def Device.Reachable (config : Config) (pool : Pool Device Answer) : Prop :=
  ∃ owner processOwner, ReflTransGen (Device.Step config) ⟨.empty owner processOwner, []⟩ pool

/-! ## A delivery on an empty Bridge -/

/-- Nothing speaks against the Run, and everything that is asked succeeds. -/
structure Admissible (config : Config) (owner : Owner) (request : RunRequest)
    (manifest : RuntimeAdmissionSpec) (facts : LocalFacts) (a : Answer) : Prop where
  governed : request.governed = true
  allowed : config.allowsAgent request.targetAgentId = true
  run : isContractRunID request.runId = true
  trace : isContractTraceID request.traceId = true
  ungated : config.inbox.hasGate = false
  unasked : config.inbox.hasBeforeStart = false
  decoded : config.manifest request = some manifest
  valid : validRuntimeAdmissionSpec (specOf manifest facts) = true
  exact : (specOf manifest facts).exactIntegers = true
  device : manifest.deviceId = owner.deviceId
  current : runtimeAdmissionCurrent (specOf manifest facts) a.now = true
  time : validProfileTime a.now = true
  size : config.codec.size ⟨owner, specOf manifest facts, a.now⟩ ≤ maxProfileRecord
  written : a.inbox.io = .ok
  sent : a.inbox.delivery = .sent
  readable : a.readable = true
  io : a.io = .ok
  preparation : a.preparation = .ok facts
  authority : a.authority = .ok ()

section

variable {config : Config} {owner : Owner} {processOwner : ProcessOwner} {request : RunRequest}
  {manifest : RuntimeAdmissionSpec} {facts : LocalFacts} {a : Answer} {α β : Type}

/-- The claim of the Run and its start. -/
def claimOf (owner : Owner) (manifest : RuntimeAdmissionSpec) (facts : LocalFacts) (a : Answer) :
    RuntimeAdmissionRecord :=
  ⟨owner, specOf manifest facts, a.now⟩

def startOf (config : Config) (request : RunRequest) (claim : RuntimeAdmissionRecord) (a : Answer) :
    RuntimeStartRecord :=
  ⟨request.runId, config.codec.admissionDigest claim, a.now⟩

def fenceWith (owner : Owner) (claim : RuntimeAdmissionRecord) (start : Option RuntimeStartRecord) :
    RuntimeFenceStore :=
  ⟨owner, [⟨claim, start, none⟩], 0⟩

/-- A Bridge that knows this Run only. -/
def solo (owner : Owner) (processOwner : ProcessOwner) (run : String) (slot : RunSlot)
    (fence : RuntimeFenceStore) (invoked : List (Nat × String)) : Device :=
  { (Device.empty owner processOwner).withSlot run slot with fence := fence, invoked := invoked }

namespace Admissible

/-- The claim that is to be on file. -/
abbrev entry (_ : Admissible config owner request manifest facts a) : RuntimeAdmissionRecord :=
  claimOf owner manifest facts a

variable (h : Admissible config owner request manifest facts a)

include h

variable {start : Option RuntimeStartRecord}

theorem claimReads : AdmissionFiles.claimReads owner ⟨h.entry, start, none⟩ = true := by
  simp [AdmissionFiles.claimReads, claimOf, h.exact, h.valid, h.time]

theorem runId : (specOf manifest facts).runId = request.runId := by
  change manifest.runId = request.runId
  exact config.manifest_run h.decoded

theorem lookup :
    (fenceWith owner h.entry start).lookup request.runId = some ⟨h.entry, start, none⟩ := by
  simp [RuntimeFenceStore.lookup, Table.lookup, fenceWith, AdmissionFiles.run, claimOf, h.runId]

theorem get_claimed :
    (fenceWith owner h.entry none).get config.codec request.runId =
      .ok (claimedView config.codec ⟨h.entry, none, none⟩) :=
  RuntimeFenceStore.get_of_lookup h.lookup (.claimed h.claimReads rfl rfl)

theorem get_started :
    let claim := h.entry
    let start := startOf config request claim a
    (fenceWith owner claim (some start)).get config.codec request.runId =
      .ok (startingView config.codec ⟨claim, some start, none⟩ start) := by
  refine RuntimeFenceStore.get_of_lookup h.lookup (.starting h.claimReads rfl rfl ?_)
  exact AdmissionFiles.startReads_new h.runId rfl h.time (Int.le_refl _)

theorem claim :
    (⟨owner, [], 0⟩ : RuntimeFenceStore).claim config.codec (specOf manifest facts) a.now .ok =
      (.ok (claimedView config.codec ⟨h.entry, none, none⟩), fenceWith owner h.entry none) := by
  have hget : (⟨owner, [], 0⟩ : RuntimeFenceStore).get config.codec (specOf manifest facts).runId =
      .error .notExist := by
    simp [RuntimeFenceStore.get, RuntimeFenceStore.lookup, Table.lookup, h.runId, h.run]
  have hlist : (⟨owner, [], 0⟩ : RuntimeFenceStore).list config.codec = .ok [] := by
    simp [RuntimeFenceStore.list, RuntimeFenceStore.entries, pure, Except.pure]
  have hnow : a.now ≠ 0 := by
    have hcurrent := h.current
    simp only [runtimeAdmissionCurrent, Bool.and_eq_true, bne_iff_ne] at hcurrent
    exact hcurrent.1.1.1.1
  have hdevice : (specOf manifest facts).deviceId = owner.deviceId := h.device
  have hclaiming : (⟨owner, [], 0⟩ : RuntimeFenceStore).claiming config.codec
      (specOf manifest facts) a.now = .ok (.inr h.entry) := by
    simp [RuntimeFenceStore.claiming, h.valid, hnow, hdevice, hget, hlist, h.current,
      maxRuntimeAdmissions, Nat.not_lt.mpr h.size, claimOf]
  have hwritten : (⟨owner, [], 0⟩ : RuntimeFenceStore).withClaim h.entry =
      fenceWith owner h.entry none := rfl
  unfold RuntimeFenceStore.claim
  simp only [hclaiming, hwritten, put, h.runId, h.get_claimed]

theorem startObserved :
    (fenceWith owner h.entry none).startObserved config.codec request.runId
        (config.codec.admissionDigest h.entry) =
      .ok (claimedView config.codec ⟨h.entry, none, none⟩) := by
  simp [RuntimeFenceStore.startObserved, h.run, config.admissionDigest_hex, h.get_claimed,
    claimedView]

theorem startCommitted :
    let claim := h.entry
    let start := startOf config request claim a
    (fenceWith owner claim none).startCommitted config.codec request.runId
        (config.codec.admissionDigest claim) (specOf manifest facts) a.now .ok =
      (.ok (startingView config.codec ⟨claim, some start, none⟩ start, true),
        fenceWith owner claim (some start)) := by
  intro claim start
  have hstarting : (fenceWith owner claim none).starting config.codec request.runId
      (config.codec.admissionDigest claim) (specOf manifest facts) a.now = .ok (.inr start) := by
    have hspec : claim.spec = specOf manifest facts := rfl
    have hrecord : start = ⟨request.runId, config.codec.admissionDigest claim, a.now⟩ := rfl
    unfold RuntimeFenceStore.starting
    rw [h.get_claimed]
    simp [claimedView, claim, hrecord, hspec, h.current]
  have hwritten : (fenceWith owner claim none).withStart start = fenceWith owner claim (some start) := by
    have hrun : claim.spec.runId = start.runId := h.runId
    simp [RuntimeFenceStore.withStart, fenceWith, Table.update, AdmissionFiles.run, hrun]
  have hget := h.get_started
  unfold RuntimeFenceStore.startCommitted
  simp only [hstarting, hwritten, put]
  simp only [claim, start, hget, Except.map]

end Admissible

/-! ### Step by step -/

theorem withSlot_withSlot {s : Device} {run : String} {slot slot' : RunSlot} :
    (s.withSlot run slot).withSlot run slot' = s.withSlot run slot' := by
  have hknown : run ∈ if run ∈ s.known then s.known else s.known ++ [run] := by
    split
    · assumption
    · exact List.mem_append_right _ (List.mem_singleton_self _)
  unfold Device.withSlot
  dsimp only
  rw [Function.update_idem, if_pos hknown]

/-- An action on the inbox of the one Run. -/
theorem run_solo {run : String} {f : RunSlot → Bridge.Answer → Except String α × RunSlot}
    {slot : RunSlot} {fence : RuntimeFenceStore} {invoked : List (Nat × String)} :
    (onSlot run (step f)).run a (solo owner processOwner run slot fence invoked) =
      ((f slot a.inbox).1, solo owner processOwner run (f slot a.inbox).2 fence invoked) := by
  have hslot : (solo owner processOwner run slot fence invoked).slots run = slot :=
    Function.update_self ..
  have hwith : ∀ slot', (solo owner processOwner run slot fence invoked).withSlot run slot' =
      solo owner processOwner run slot' fence invoked := fun slot' => by
    have h := @withSlot_withSlot (Device.empty owner processOwner) run slot slot'
    exact congrArg (fun s : Device => { s with fence := fence, invoked := invoked }) h
  rw [onSlot, zoom_step, run_step, hslot, hwith]

/-- The only process of the Bridge gets from `p` to `q`. -/
abbrev Gets (config : Config) (s : Device) (p : Routine Unit) (t : Device) (q : Routine Unit) :
    Prop :=
  ReflTransGen (Device.Step config) ⟨s, [p]⟩ ⟨t, [q]⟩

theorem Gets.head {s t u : Device} {p q : Routine Unit} {r : Routine α} {f : α → Routine Unit}
    {x : α} (hp : p = r >>= f) (hrun : r.run a s = (.ok x, t)) (hrest : Gets config t (f x) u q) :
    Gets config s p u q := by
  have hn : [p][0]? = some (r >>= f) := congrArg some hp
  exact (Pool.run_before hn hrun).trans hrest

/-- The ticket of the Run. -/
def ticketOf (config : Config) (owner : Owner) (request : RunRequest)
    (manifest : RuntimeAdmissionSpec) (facts : LocalFacts) (a : Answer) : GovernedAdmissionTicket :=
  ⟨request, manifest, facts,
    claimedView config.codec ⟨claimOf owner manifest facts a, none, none⟩⟩

/-- The view of the Run that was started. -/
def startedView (config : Config) (owner : Owner) (request : RunRequest)
    (manifest : RuntimeAdmissionSpec) (facts : LocalFacts) (a : Answer) : RuntimeAdmissionView :=
  let claim := claimOf owner manifest facts a
  let start := startOf config request claim a
  startingView config.codec ⟨claim, some start, none⟩ start

abbrev Admissible.ticket (_ : Admissible config owner request manifest facts a) :=
  ticketOf config owner request manifest facts a

abbrev Admissible.view (_ : Admissible config owner request manifest facts a) :=
  startedView config owner request manifest facts a

section

variable {s : Device} (h : Admissible config owner request manifest facts a)

include h

theorem Admissible.recheckLocal : (recheckLocal manifest).run a s = (.ok facts, s) := by
  refine (run_bind_ok (run_step _ a s)).trans ?_
  simp [h.preparation, h.valid]
  rfl

theorem Admissible.prepare (hfence : s.fence = ⟨owner, [], 0⟩) :
    (prepare config request).run a s = (.ok h.ticket,
      { s with fence := fenceWith owner h.entry none }) := by
  unfold Governed.prepare
  rw [h.decoded]
  refine (run_bind_ok h.recheckLocal).trans ?_
  have hclaim : (fenceClaim config (specOf manifest facts)).run a s =
      (.ok (claimedView config.codec ⟨h.entry, none, none⟩),
        { s with fence := fenceWith owner h.entry none }) := by
    rw [fenceClaim, onFence, run_step]
    simp [h.readable, hfence, h.io, h.claim, told]
  refine (run_bind_ok hclaim).trans ?_
  rw [if_neg]
  · rfl
  · simp [claimedView, claimOf, config.admissionDigest_hex]

theorem Admissible.authorize :
    (authorize config h.ticket (specOf manifest facts)).run a s = (.ok (), s) := by
  unfold Governed.authorize
  rw [if_neg]
  · refine (run_bind_ok h.recheckLocal).trans ?_
    rw [if_neg]
    · refine (run_bind_ok (run_step _ a s)).trans ?_
      simp [h.authority]
      rfl
    · simp [ticketOf]
  · simp [ticketOf, h.decoded, claimedView, claimOf]

theorem Admissible.start
    (hfence : s.fence = fenceWith owner h.entry none)
    (hinvoked : s.invoked = []) :
    (start config 0 h.ticket).run a s =
      (.ok (.decided h.view true),
        { s with
          fence := fenceWith owner h.entry
            (some (startOf config request h.entry a))
          invoked := [(0, request.runId)] }) := by
  have hspec : h.ticket.admission.spec = specOf manifest facts := rfl
  have hdigest : h.ticket.admission.admissionDigest = config.codec.admissionDigest h.entry := rfl
  unfold Governed.start
  dsimp only
  rw [hspec, hdigest, h.runId, if_neg]
  · have hobserved : (onFence fun store _ => (store.startObserved config.codec request.runId
        (config.codec.admissionDigest h.entry), store)).run a s =
        (.ok (claimedView config.codec ⟨h.entry, none, none⟩),
          s) := by
      rw [onFence, run_step]
      simp [h.readable, hfence, h.startObserved, told]
      rw [← hfence]
    refine (run_bind_ok (run_attempt_ok hobserved)).trans ?_
    refine (run_bind_ok (run_attempt_ok h.authorize)).trans ?_
    have hcommitted : (Governed.startCommitted config 0 request.runId
        (config.codec.admissionDigest h.entry)
        (specOf manifest facts)).run a s =
        (.ok (h.view, true),
          { s with
            fence := fenceWith owner h.entry
              (some (startOf config request h.entry a))
            invoked := [(0, request.runId)] }) := by
      have hcommit := h.startCommitted
      rw [Governed.startCommitted, run_step]
      simp [h.readable, hfence, h.io, hcommit, told, hinvoked, startedView]
    refine (run_bind_ok (run_attempt_ok hcommitted)).trans ?_
    have hdecided : decided h.ticket h.view true = .decided h.view true := by
      simp [decided, startedView, ticketOf, startingView, claimedView]
    dsimp only
    rw [hdecided]
    rfl
  · have hmanifest : h.ticket.manifest.runId = request.runId := h.runId
    simp [h.valid, hmanifest, config.admissionDigest_hex]

end

/-! ### The whole delivery -/

/-- A slot without a cancellation. -/
def plainSlot (record : Record) (sent : List Bridge.Frame) : RunSlot :=
  ⟨some record, none, false, sent, [], [], []⟩

/-- The Bridge while the delivery is not told to invoke. -/
abbrev Admissible.waiting (_ : Admissible config owner request manifest facts a)
    (processOwner : ProcessOwner) (record : Record) (sent : List Bridge.Frame)
    (fence : RuntimeFenceStore) : Device :=
  solo owner processOwner request.runId (plainSlot record sent) fence []

section

variable {record : Record} {sent : List Bridge.Frame} {fence : RuntimeFenceStore}
  (h : Admissible config owner request manifest facts a)

include h

theorem Admissible.accept :
    (onSlot request.runId (Bridge.Inbox.accept config.inbox request)).run a
        (.empty owner processOwner) =
      (.ok (.ofRequest (config.inbox.payloadHash request) request, false),
        h.waiting processOwner (.ofRequest (config.inbox.payloadHash request) request) []
          ⟨owner, [], 0⟩) := by
  rw [onSlot, Bridge.Inbox.accept, zoom_step, run_step]
  simp [h.run, h.trace, Device.empty, RunSlot.empty, Bridge.acceptance, Bridge.written, h.written]
  rfl

theorem Admissible.hasCancellation :
    (onSlot request.runId (Bridge.Inbox.hasCancellation request)).run a
      (h.waiting processOwner record sent fence) =
      (.ok false, h.waiting processOwner record sent fence) := by
  rw [Bridge.Inbox.hasCancellation, run_solo]
  simp [waiting, h.run, plainSlot, Bridge.loaded, h.written, Bridge.cancellationFound]

theorem Admissible.transition {expected next : Bridge.State} (hstate : record.state = expected) :
    (onSlot request.runId (Bridge.Inbox.transitionLocalState expected next)).run a
        (h.waiting processOwner record sent fence) = (.ok (record.withState next),
        h.waiting processOwner (record.withState next) sent fence) := by
  rw [Bridge.Inbox.transitionLocalState, Bridge.Inbox.rewrite, run_solo]
  simp [waiting, plainSlot, Bridge.Record.transition, hstate, Bridge.written, h.written,
    RunSlot.withRecord]

theorem Admissible.isCanceled :
    (onSlot request.runId (Bridge.Handler.isCanceled request)).run a
        (h.waiting processOwner record sent fence) =
      (.ok false, h.waiting processOwner record sent fence) := by
  have hexplicit : (onSlot request.runId Bridge.Handler.isExplicitCancel).run a
      (h.waiting processOwner record sent fence) =
      (.ok false, h.waiting processOwner record sent fence) := by
    rw [Bridge.Handler.isExplicitCancel, run_solo]
    rfl
  rw [onSlot, Bridge.Handler.isCanceled, zoom_bind]
  refine (run_bind_ok h.hasCancellation).trans ?_
  rw [zoom_bind]
  exact (run_bind_ok hexplicit).trans rfl

theorem Admissible.send :
    (onSlot request.runId (Bridge.send (.accepted false))).run a
        (h.waiting processOwner record sent fence) =
      (.ok (), h.waiting processOwner record (sent ++ [.accepted false]) fence) := by
  rw [Bridge.send, run_solo]
  simp [waiting, h.sent, plainSlot, RunSlot.withSent]

/-- On empty stores the delivery gets to its claim and is acknowledged. -/
theorem Admissible.claims :
    let record := Record.ofRequest (config.inbox.payloadHash request) request
    Gets config (.empty owner processOwner) (handle config 0 request)
      (h.waiting processOwner record [.accepted false] (fenceWith owner h.entry none))
      (startRun config 0 h.ticket record) := by
  intro record
  have hhandle : handle config 0 request = (do
      let accepted ← onSlot request.runId (Bridge.Inbox.accept config.inbox request)
      let canceled ← onSlot request.runId (Bridge.Inbox.hasCancellation accepted.1.request)
      if canceled then
        onSlot request.runId (Bridge.Handler.cancelBeforeAdmission config.inbox accepted.1)
      else admitRecord config 0 accepted.1 accepted.2 request.runId) := by
    simp [handle, h.governed, h.allowed]
  have hgate : ∀ ticket record', enterGate config 0 ticket record' = startRun config 0 ticket record' :=
    fun _ _ => by simp [enterGate, h.ungated]
  refine .head hhandle h.accept (.head rfl h.hasCancellation ?_)
  refine .head rfl (h.transition rfl) (.head rfl (run_attempt_ok (h.prepare rfl)) ?_)
  refine .head rfl (h.transition rfl) (.head rfl h.isCanceled (.head rfl h.send ?_))
  rw [hgate]
  exact .refl

/-- From there it gets to its start, and no process is on record yet. -/
theorem Admissible.starts :
    let record := Record.ofRequest (config.inbox.payloadHash request) request
    let claim := h.entry
    Gets config (.empty owner processOwner) (handle config 0 request)
      (solo owner processOwner request.runId (plainSlot record [.accepted false])
        (fenceWith owner claim (some (startOf config request claim a))) [(0, request.runId)])
      (executeAdmitted config 0 h.ticket
        h.view record) := by
  intro record claim
  refine h.claims.trans ?_
  have hready : ∀ s : Device, (ask fun a : Answer => a.inbox.beforeStart : Routine Bool).run
      a s = (.ok a.inbox.beforeStart, s) := fun _ => rfl
  refine Gets.head rfl (hready _) ?_
  rw [if_neg (by simp [h.unasked])]
  exact .head rfl (h.start rfl rfl) .refl

end

end

end ConveneWire.Governed
