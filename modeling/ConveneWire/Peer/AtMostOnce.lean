import ConveneWire.Peer.Routines

/-! # A Peer Run begins at most once

Deliveries, single calls of the journal, executions and the background recovery
of one Run in any number and any order, with a restart of the participant between
any two of their actions. -/

namespace ConveneWire.Peer

open Concurrent (Pool Contract)
open Relation (ReflTransGen)

/-- What may be started on behalf of the Run, here as the `n`-th process. -/
inductive Started (p : Partition) (v : Verifier) (runId : String) (n : Nat) : Routine Unit → Prop
  | receive (raw : String) (settlement : Option Capability) (fresh : Bool) :
      Started p v runId n do
        let _ ← onRuns fun io => RunJournal.receive p runId raw settlement fresh io
  | receiveDelivery (delivery : RunDelivery) : Started p v runId n do
        let _ ← onRuns fun io => RunJournal.receiveDelivery p runId delivery io
  | begin : Started p v runId n do
        let _ ← beginRun p runId n
  | finish (outcome : RunOutcome) : Started p v runId n do
        let _ ← finishRun p runId outcome
  | execute (delivery : RunDelivery) : Started p v runId n (execute p v runId n delivery)
  | recover : Started p v runId n (recoverPeerRun p v runId)

def Restarted (s t : Participant) : Prop := t = s.restart

abbrev Participant.Step (p : Partition) (v : Verifier) (runId : String) :
    Pool Participant Answer → Pool Participant Answer → Prop :=
  Pool.Step (Started p v runId) Restarted

/-- A state of the Run that some interleaving from an empty journal leads to. -/
def Participant.Reachable (p : Partition) (v : Verifier) (runId : String)
    (pool : Pool Participant Answer) : Prop :=
  ReflTransGen (Participant.Step p v runId) ⟨.empty, []⟩ pool

open Participant (Step Reachable)

variable {p : Partition} {v : Verifier} {runId : String} {n : Nat}

/-! ## The invariant -/

/-- With `n` processes started so far. -/
structure Once (n : Nat) (s : Participant) : Prop where
  known : ∀ m ∈ s.begun, m < n
  once : s.begun.length ≤ 1
  onFile : s.begun ≠ [] → s.runs.files.started.isSome
  claimed : ∀ m ∈ s.invoked, m ∈ s.begun
  distinct : s.invoked.Nodup
  valid : ∀ finished, s.runs.files.outcome = some finished →
    validRunOutcome finished.outcome s.runs.files.started.isSome = true

theorem Once.empty : Once 0 .empty where
  known := fun _ hm => by cases hm
  once := Nat.zero_le 1
  onFile := fun h => absurd rfl h
  claimed := fun _ hm => by cases hm
  distinct := List.nodup_nil
  valid := fun _ h => by cases h

theorem FilesStep.started_isSome {a b : RunFiles} (h : FilesStep a b) (ha : a.started.isSome) :
    b.started.isSome := by
  obtain ⟨started, hstarted⟩ := Option.isSome_iff_exists.mp ha
  rw [h.started_kept hstarted]
  rfl

theorem FilesStep.valid_kept {a b : RunFiles} (h : FilesStep a b)
    (ha : ∀ finished, a.outcome = some finished →
      validRunOutcome finished.outcome a.started.isSome = true) :
    ∀ finished, b.outcome = some finished →
      validRunOutcome finished.outcome b.started.isSome = true := by
  intro finished hfinished
  cases h with
  | same | received => exact ha finished hfinished
  | started started hnone hopen =>
    rw [hopen] at hfinished
    cases hfinished
  | finished finished' hopen hvalid =>
    cases hfinished
    exact hvalid

theorem Once.kept {m : Nat} {s t : Participant} (hm : m < n) (hchange : Change m s t)
    (h : Once n s) : Once n t := by
  have hbegun : ∀ k ∈ s.begun, k ∈ t.begun := by
    intro k hk
    rcases hchange.begun with hb | ⟨hb, -⟩ <;> rw [hb]
    · exact hk
    · exact List.mem_append_left _ hk
  have hvalid := hchange.files.valid_kept h.valid
  have hclaimed : ∀ k ∈ t.invoked, k ∈ t.begun := by
    intro k hk
    rcases hchange.invoked with hi | ⟨hi, hown, -⟩ <;> rw [hi] at hk
    · exact hbegun k (h.claimed k hk)
    · rcases List.mem_append.mp hk with hk | hk
      · exact hbegun k (h.claimed k hk)
      · obtain rfl := List.mem_singleton.mp hk
        exact hbegun k hown
  have hdistinct : t.invoked.Nodup := by
    rcases hchange.invoked with hi | ⟨hi, -, hnew⟩ <;> rw [hi]
    · exact h.distinct
    · refine List.nodup_append.mpr ⟨h.distinct, by simp, ?_⟩
      intro k hk l hl heq
      obtain rfl := List.mem_singleton.mp hl
      exact hnew (heq ▸ hk)
  rcases hchange.begun with hb | ⟨hb, -, hnone, hsome⟩
  · refine ⟨?_, ?_, ?_, hclaimed, hdistinct, hvalid⟩ <;> rw [hb]
    · exact h.known
    · exact h.once
    · exact fun hne => hchange.files.started_isSome (h.onFile hne)
  -- nobody has begun while there is no start on file
  have hnil : s.begun = [] := by
    refine Decidable.not_not.mp fun hne => ?_
    have hstarted := h.onFile hne
    rw [hnone] at hstarted
    cases hstarted
  rw [hnil, List.nil_append] at hb
  refine ⟨?_, ?_, fun _ => hsome, hclaimed, hdistinct, hvalid⟩ <;> rw [hb]
  · intro k hk
    obtain rfl := List.mem_singleton.mp hk
    exact hm
  · exact Nat.le_refl 1

theorem Once.fresh {s : Participant} (h : Once n s) : Fresh n s :=
  ⟨fun hn => Nat.lt_irrefl n (h.known n hn),
    fun hn => Nat.lt_irrefl n (h.known n (h.claimed n hn))⟩

theorem Started.spec {q : Routine Unit} (h : Started p v runId n q) :
    (execution n).Triple (Fresh n) q fun _ _ => True := by
  cases h with
  | receive raw settlement fresh =>
    have hcall := lift (onRuns_record (n := n) .true
      fun io j => @RunJournal.receive_spec p runId j io raw settlement fresh)
    refine (hcall.strengthen fun _ _ => trivial).bind fun _ => ?_
    exact .skip
  | receiveDelivery delivery =>
    have hcall := lift (onRuns_record (n := n) .true
      fun io j => @RunJournal.receiveDelivery_spec p runId j io delivery)
    refine (hcall.strengthen fun _ _ => trivial).bind fun _ => ?_
    exact .skip
  | begin =>
    have hcall := Contract.Triple.frame (c := (execution n).onFail (Fresh n)) (d := execution n)
      (F := fun _ => True) (fun _ _ hrely => hrely) (fun _ _ _ hguar => ⟨hguar, trivial⟩)
      (fun _ _ _ _ => trivial) (fun _ _ _ => trivial) (@beginRun_spec p runId n)
    refine (hcall.strengthen fun _ hs => ⟨hs, trivial⟩).bind fun _ => ?_
    exact .skip
  | finish outcome =>
    refine ((lift (finishRun_spec .true)).strengthen fun _ _ => trivial).bind fun _ => ?_
    exact .skip
  | execute delivery => exact execute_spec
  | recover => exact (lift recoverPeerRun_spec).strengthen fun _ _ => trivial

theorem executions_fit : Pool.Fits (Started p v runId) Restarted execution Once where
  spawned := fun hstarted h => hstarted.spec.runs fresh_stable h.fresh
  grown := fun h => { h with known := fun m hm => Nat.lt_succ_of_lt (h.known m hm) }
  kept := fun hm hchange h => h.kept hm hchange
  allowed := fun hne hchange => ⟨_, hne, hchange⟩
  crashed := by
    rintro n s _ rfl h
    exact ⟨h.known, h.once, h.onFile, h.claimed, h.distinct, h.valid⟩

variable {pool pool' : Pool Participant Answer} {outcome : RunOutcome} {started : Bool}

theorem Participant.Reachable.safe (h : Reachable p v runId pool) : Pool.Safe execution Once pool :=
  executions_fit.preserved.run h (Pool.Safe.start .empty)

/-! ## Whole runs -/

/-- What no execution can spoil and no restart forgets. -/
theorem step_stable {P : Participant → Prop} (hP : Stable P) (hrestart : ∀ s, P s → P s.restart)
    (hsafe : Pool.Safe execution Once pool) (h : Step p v runId pool pool')
    (hpool : P pool.shared) : P pool'.shared := by
  cases h with
  | spawn => exact hpool
  | act n hn i => exact hP ((hsafe.running hn).guar i) hpool
  | crash h =>
    cases h
    exact hrestart _ hpool

/-- Whatever is in a file of `a` stands unchanged in `b`. -/
structure RunFiles.Kept (a b : RunFiles) : Prop where
  received : ∀ received, a.received = some received → b.received = some received
  started : ∀ started, a.started = some started → b.started = some started
  outcome : ∀ finished, a.outcome = some finished → b.outcome = some finished

theorem step_files (hsafe : Pool.Safe execution Once pool) (h : Step p v runId pool pool') :
    FilesStep pool.shared.runs.files pool'.shared.runs.files := by
  cases h with
  | spawn => exact .same
  | act n hn i => exact ((hsafe.running hn).guar i).files
  | crash h =>
    cases h
    exact .same

theorem run_files (hsafe : Pool.Safe execution Once pool)
    (h : ReflTransGen (Step p v runId) pool pool') :
    pool.shared.runs.files.Kept pool'.shared.runs.files := by
  induction h with
  | refl => exact ⟨fun _ h => h, fun _ h => h, fun _ h => h⟩
  | tail hrun hstep ih =>
    have hfiles := step_files (executions_fit.preserved.run hrun hsafe) hstep
    exact ⟨fun _ h => hfiles.received_kept (ih.received _ h),
      fun _ h => hfiles.started_kept (ih.started _ h),
      fun _ h => hfiles.outcome_kept (ih.outcome _ h)⟩

/-- The outcomes of a Run that has begun. -/
def OutcomeState.afterStart : OutcomeState → Bool
  | .completed | .failed | .outcomeUnknown | .inputRequired => true
  | .canceled | .expired | .deliveryDenied => false

theorem validRunOutcome_afterStart (h : validRunOutcome outcome started = true)
    (hstate : outcome.state.afterStart = true) : started = true := by
  unfold validRunOutcome at h
  cases hs : outcome.state <;> simp_all [OutcomeState.afterStart]

theorem validRunOutcome_denied (h : validRunOutcome outcome started = true)
    (hstate : outcome.state = .deliveryDenied) : started = false := by
  unfold validRunOutcome at h
  simp_all

/-- At every point of every interleaving, `Begin` has succeeded at most once, the adapter
was invoked at most once and only by the execution that began; what the files hold stays as
it is; a denied delivery never began and every other outcome but cancellation and expiry did. -/
theorem begins_at_most_once {pool : Pool Participant Answer} (hreach : Reachable p v runId pool) :
    pool.shared.begun.length ≤ 1 ∧
    (∀ n ∈ pool.shared.invoked, n ∈ pool.shared.begun) ∧ pool.shared.invoked.Nodup ∧
    (pool.shared.begun ≠ [] → pool.shared.runs.files.started.isSome) ∧
    (∀ {pool'}, ReflTransGen (Step p v runId) pool pool' →
      pool.shared.runs.files.Kept pool'.shared.runs.files) ∧
    (∀ finished, pool.shared.runs.files.outcome = some finished →
      (finished.outcome.state = .deliveryDenied →
        pool.shared.runs.files.started = none ∧ pool.shared.begun = [] ∧ pool.shared.invoked = []) ∧
      (finished.outcome.state.afterStart = true → pool.shared.runs.files.started.isSome)) := by
  have hsafe := hreach.safe
  have h := hsafe.shared
  refine ⟨h.once, h.claimed, h.distinct, h.onFile, fun hrun => run_files hsafe hrun, ?_⟩
  intro finished hfinished
  have hvalid := h.valid finished hfinished
  refine ⟨fun hdenied => ?_, fun hstate => validRunOutcome_afterStart hvalid hstate⟩
  have hnone := validRunOutcome_denied hvalid hdenied
  have hbegun : pool.shared.begun = [] := by
    refine Decidable.not_not.mp fun hne => ?_
    rw [h.onFile hne] at hnone
    cases hnone
  refine ⟨by simpa using hnone, hbegun, ?_⟩
  refine List.eq_nil_iff_forall_not_mem.mpr fun n hn => ?_
  have hmem := h.claimed n hn
  rw [hbegun] at hmem
  cases hmem

/-! A partition that accepts everything, and answers under which a Run completes. -/

def plainDigest : String := String.ofList (List.replicate 64 'a')

def plainPartition : Partition where
  request := fun _ => .ok ⟨"run", plainDigest⟩
  receiptDigest := fun _ => some plainDigest

def plainVerifier : Verifier where
  nameSpace := plainDigest
  bindingDigest := fun _ => plainDigest
  eventDigest := fun _ => plainDigest
  decodes := fun _ => true
  eventProof := fun _ => true
  settlementProof := fun _ => true

def plainDelivery : RunDelivery := ⟨"request", ⟨"peersettle_aaaaaaaa", "token", 0, 1⟩⟩

def plainProof : PeerProof where
  purpose := "run.event"
  signerNodeId := "node_aaaaaaaa"
  signerPublicKey := String.ofList (List.replicate 43 'A')
  audienceNodeId := "node_bbbbbbbb"
  operationId := "op_aaaaaaaa"
  nonce := String.ofList (List.replicate 43 'A')
  subjectDigest := plainDigest
  issuedAt := "2024-01-01T00:00:00.000Z"
  expiresAt := "2024-01-01T00:01:00.000Z"
  signature := String.ofList (List.replicate 86 'A')

/-- The Host accepts everything. -/
def plainAnswer (event : AdapterEvent) : Answer where
  io := ⟨true, true, .done, 0⟩
  operationId := "op_aaaaaaaa"
  publish := fun event =>
    .receipt ⟨plainDigest, "peersettle_aaaaaaaa", event.sequence, plainDigest, plainProof⟩
  settle := fun settlement => .ok ⟨settlement, plainProof⟩
  requestVerified := true
  ready := true
  live := true
  reports := 1
  event := event
  ended := ⟨true, false, false⟩
  membershipActive := true
  settlementOpen := true

/-- The only report of the Runtime: it has completed. -/
def completedEvent : AdapterEvent :=
  ⟨false, some .completed, false, "\"status\":\"completed\"", none, true, none, "", none⟩

def completedRun : Pool Participant Answer :=
  let run := (execute plainPartition plainVerifier "run" 0 plainDelivery).run
    (plainAnswer completedEvent) .empty
  ⟨run.2, [.done run.1]⟩

theorem completedRun_reachable : Reachable plainPartition plainVerifier "run" completedRun := by
  have hfirst : [execute plainPartition plainVerifier "run" 0 plainDelivery][0]? =
      some (execute plainPartition plainVerifier "run" 0 plainDelivery) := rfl
  exact .head (.spawn (.execute plainDelivery))
    (Pool.run_alone .empty hfirst (plainAnswer completedEvent))

def deliveredEvent : PeerRunEvent := ⟨1, .status .delivered, false, plainMembers "delivered"⟩

def completedSettlement : PeerSettlement :=
  ⟨"peersettle_aaaaaaaa", "op_aaaaaaaa", plainDigest, 1, .completed, plainDigest⟩

theorem completedRun_shared :
    completedRun.shared.begun = [0] ∧ completedRun.shared.invoked = [0] ∧
    completedRun.shared.runs.files.outcome.map (·.outcome.state) = some .completed ∧
    deliveredEvent ∈ completedRun.shared.sent ∧
    completedSettlement ∈ completedRun.shared.settlements := by
  decide +kernel

theorem begins_at_most_once_completedRun :
    completedRun.shared.begun = [0] ∧ completedRun.shared.invoked = [0] ∧
    completedRun.shared.runs.files.outcome.map (·.outcome.state) = some .completed ∧
    completedRun.shared.runs.files.started.isSome := by
  obtain ⟨-, -, -, hstarted, -⟩ := begins_at_most_once completedRun_reachable
  obtain ⟨hbegun, hinvoked, houtcome, -⟩ := completedRun_shared
  exact ⟨hbegun, hinvoked, houtcome, hstarted (by rw [hbegun]; decide)⟩

end ConveneWire.Peer
