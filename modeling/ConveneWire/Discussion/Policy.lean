import Mathlib.Algebra.Order.Ring.Nat
import ConveneWire.Lib.Program
import ConveneWire.Discussion.Types

/-! # Budget and policy

`budget-ledger.ts`, `discussion-policy-engine.ts`, and the `resolvePolicy` of
the orchestrator. A policy override is a partial record; a number that is not an
integer fails the same range checks as one out of range. -/

namespace ConveneWire.Discussion

open Run (Time)
open Transactional (require require_ok bind_ok bind_eq_ok require_eq_ok)

def maximumParticipants : Nat := 5

def defaultDiscussionPolicy : DiscussionPolicy where
  initialLeaseTurns := 4
  automaticMaxTurns := 12
  hardMaxTurns := 50
  maxDurationSeconds := 1200
  waveTimeoutSeconds := 300
  plateauWindow := 2
  minimumCompletionConfidence := 4 / 5
  finalizationReserveTurns := 1
  requireReviewer := false
  allowAutomaticFinish := true
  participantSelectionMode := .questionFocused
  focusedParticipantLimit := 3
  waveCompletionMode := .allSettled
  quorumMinimumCompleted := 2
  quorumSoftDeadlineSeconds := 60

/-- `Partial<DiscussionPolicy>`. -/
structure PolicyOverrides where
  initialLeaseTurns : Option Int := none
  automaticMaxTurns : Option Int := none
  hardMaxTurns : Option Int := none
  maxDurationSeconds : Option Int := none
  waveTimeoutSeconds : Option Int := none
  plateauWindow : Option Int := none
  minimumCompletionConfidence : Option Rat := none
  finalizationReserveTurns : Option Int := none
  requireReviewer : Option Bool := none
  allowAutomaticFinish : Option Bool := none
  participantSelectionMode : Option ParticipantSelectionMode := none
  focusedParticipantLimit : Option Int := none
  waveCompletionMode : Option WaveCompletionMode := none
  quorumMinimumCompleted : Option Int := none
  quorumSoftDeadlineSeconds : Option Int := none
  deriving DecidableEq, Repr

/-- `requiredInteger(overrides.field ?? default, label, minimum, maximum)`. -/
def requiredInteger (value : Option Int) (default : Nat) (label : String)
    (minimum maximum : Nat) : Except String Nat :=
  let value := value.getD default
  if minimum ≤ value ∧ value ≤ maximum then .ok value.toNat
  else .error s!"{label} must be between {minimum} and {maximum}"

theorem requiredInteger_ok {value : Option Int} {default minimum maximum n : Nat} {label : String}
    (h : requiredInteger value default label minimum maximum = .ok n) :
    minimum ≤ n ∧ n ≤ maximum := by
  unfold requiredInteger at h
  simp only at h
  split at h
  · cases h
    omega
  · cases h

structure QuorumFields where
  minimumCompleted : Nat
  softDeadlineSeconds : Nat

/-- The quorum fields count only under `read_only_quorum`; otherwise they are reset. -/
def resolveQuorum (overrides : PolicyOverrides) (waveTimeoutSeconds : Nat) :
    Except String QuorumFields :=
  match overrides.waveCompletionMode.getD defaultDiscussionPolicy.waveCompletionMode with
  | .allSettled => .ok ⟨defaultDiscussionPolicy.quorumMinimumCompleted,
      defaultDiscussionPolicy.quorumSoftDeadlineSeconds⟩
  | .readOnlyQuorum => do
    let minimumCompleted ← requiredInteger overrides.quorumMinimumCompleted
      defaultDiscussionPolicy.quorumMinimumCompleted "quorumMinimumCompleted" 2 maximumParticipants
    let softDeadlineSeconds ← requiredInteger overrides.quorumSoftDeadlineSeconds
      defaultDiscussionPolicy.quorumSoftDeadlineSeconds "quorumSoftDeadlineSeconds" 1 7199
    require (softDeadlineSeconds < waveTimeoutSeconds)
      "Quorum soft deadline must precede the Wave timeout"
    pure ⟨minimumCompleted, softDeadlineSeconds⟩

def resolvePolicy (overrides : PolicyOverrides) : Except String DiscussionPolicy := do
  let base := defaultDiscussionPolicy
  let initialLeaseTurns ← requiredInteger overrides.initialLeaseTurns
    base.initialLeaseTurns "initialLeaseTurns" 1 12
  let automaticMaxTurns ← requiredInteger overrides.automaticMaxTurns
    base.automaticMaxTurns "automaticMaxTurns" 1 30
  let hardMaxTurns ← requiredInteger overrides.hardMaxTurns
    base.hardMaxTurns "hardMaxTurns" 2 50
  let maxDurationSeconds ← requiredInteger overrides.maxDurationSeconds
    base.maxDurationSeconds "maxDurationSeconds" 30 7200
  let waveTimeoutSeconds ← requiredInteger overrides.waveTimeoutSeconds
    base.waveTimeoutSeconds "waveTimeoutSeconds" 30 7200
  let plateauWindow ← requiredInteger overrides.plateauWindow
    base.plateauWindow "plateauWindow" 1 6
  let finalizationReserveTurns ← requiredInteger overrides.finalizationReserveTurns
    base.finalizationReserveTurns "finalizationReserveTurns" 1 3
  let focusedParticipantLimit ← requiredInteger overrides.focusedParticipantLimit
    base.focusedParticipantLimit "focusedParticipantLimit" 2 maximumParticipants
  let quorum ← resolveQuorum overrides waveTimeoutSeconds
  require (initialLeaseTurns ≤ automaticMaxTurns ∧ automaticMaxTurns < hardMaxTurns ∧
    finalizationReserveTurns < hardMaxTurns) "Discussion turn budget boundaries are inconsistent"
  let minimumCompletionConfidence :=
    overrides.minimumCompletionConfidence.getD base.minimumCompletionConfidence
  require (1 / 2 ≤ minimumCompletionConfidence ∧ minimumCompletionConfidence ≤ 1)
    "minimumCompletionConfidence must be between 0.5 and 1"
  pure {
    initialLeaseTurns, automaticMaxTurns, hardMaxTurns, maxDurationSeconds, waveTimeoutSeconds
    plateauWindow, minimumCompletionConfidence, finalizationReserveTurns, focusedParticipantLimit
    requireReviewer := overrides.requireReviewer.getD base.requireReviewer
    allowAutomaticFinish := overrides.allowAutomaticFinish.getD base.allowAutomaticFinish
    participantSelectionMode :=
      overrides.participantSelectionMode.getD base.participantSelectionMode
    waveCompletionMode := overrides.waveCompletionMode.getD base.waveCompletionMode
    quorumMinimumCompleted := quorum.minimumCompleted
    quorumSoftDeadlineSeconds := quorum.softDeadlineSeconds }

/-- The turn boundaries every accepted policy has. -/
structure DiscussionPolicy.Bounded (policy : DiscussionPolicy) : Prop where
  initialLease_pos : 1 ≤ policy.initialLeaseTurns
  initialLease_le : policy.initialLeaseTurns ≤ 12
  initialLease_le_automatic : policy.initialLeaseTurns ≤ policy.automaticMaxTurns
  automatic_lt_hard : policy.automaticMaxTurns < policy.hardMaxTurns
  reserve_pos : 1 ≤ policy.finalizationReserveTurns
  reserve_lt_hard : policy.finalizationReserveTurns < policy.hardMaxTurns

variable {budget previous budget : BudgetSnapshot} {policy policy : DiscussionPolicy}
  {requestedTurns requestedTurns : Option Int} {source : LeaseSource}

theorem resolvePolicy_bounded {overrides : PolicyOverrides}
    (h : resolvePolicy overrides = .ok policy) : policy.Bounded := by
  simp only [resolvePolicy, bind_eq_ok, require_eq_ok] at h
  obtain ⟨_, hinitial, _, -, _, -, _, -, _, -, _, -, _, hreserve, _, -, _, -, _,
    ⟨hlease, hauto, hres⟩, _, -, h⟩ := h
  cases h
  exact ⟨(requiredInteger_ok hinitial).1, (requiredInteger_ok hinitial).2, hlease, hauto,
    (requiredInteger_ok hreserve).1, hres⟩

/-! ## The budget ledger -/

/-- `Math.max(0, hardMaxTurns - finalizationReserveTurns)`. -/
def DiscussionPolicy.regularTurnLimit (policy : DiscussionPolicy) : Nat :=
  policy.hardMaxTurns - policy.finalizationReserveTurns

theorem DiscussionPolicy.Bounded.regular_pos (h : policy.Bounded) : 0 < policy.regularTurnLimit :=
  Nat.sub_pos_of_lt h.reserve_lt_hard

theorem DiscussionPolicy.Bounded.regular_lt_hard (h : policy.Bounded) :
    policy.regularTurnLimit < policy.hardMaxTurns := by
  have hreserve := h.reserve_pos
  have hhard := h.reserve_lt_hard
  unfold DiscussionPolicy.regularTurnLimit
  omega

/-- `Math.max(0, Math.floor((now - startedAt) / 1000))` of two millisecond timestamps. -/
def elapsedSeconds (startedAt now : Time) : Nat := (now - startedAt) / 1000

def recordTurnUsage (previous : BudgetSnapshot) (agentRuns : Nat)
    (discussionStartedAt now : Time) : Except String BudgetSnapshot :=
  if 1 ≤ agentRuns ∧ agentRuns ≤ 5 then
    .ok { previous with
      turnsUsed := previous.turnsUsed + 1
      agentRunsUsed := previous.agentRunsUsed + agentRuns
      durationSeconds := elapsedSeconds discussionStartedAt now }
  else .error "Discussion Wave Agent Run count must be between 1 and 5"

theorem recordTurnUsage_ok {agentRuns : Nat} {startedAt now : Time}
    (h : recordTurnUsage previous agentRuns startedAt now = .ok budget) : budget = { previous with
      turnsUsed := previous.turnsUsed + 1
      agentRunsUsed := previous.agentRunsUsed + agentRuns
      durationSeconds := elapsedSeconds startedAt now } := by
  unfold recordTurnUsage at h
  split at h
  · cases h
    rfl
  · cases h

structure BudgetStatus where
  hardBoundaryReached : Bool
  leaseBoundaryReached : Bool
  automaticRenewalAvailable : Bool
  softBoundaryReached : Bool
  regularTurnLimit : Nat
  deriving DecidableEq, Repr

def inspectBudget (budget : BudgetSnapshot) (policy : DiscussionPolicy) : BudgetStatus :=
  let leaseBoundaryReached : Bool := budget.leaseEndTurn ≤ budget.turnsUsed
  { hardBoundaryReached := policy.regularTurnLimit ≤ budget.turnsUsed ∨
      policy.maxDurationSeconds ≤ budget.durationSeconds
    leaseBoundaryReached
    automaticRenewalAvailable :=
      leaseBoundaryReached ∧ budget.leaseEndTurn < policy.automaticMaxTurns
    softBoundaryReached := leaseBoundaryReached ∧ policy.automaticMaxTurns ≤ budget.leaseEndTurn
    regularTurnLimit := policy.regularTurnLimit }

theorem turnsUsed_lt_regular (h : (inspectBudget budget policy).hardBoundaryReached = false) :
    budget.turnsUsed < policy.regularTurnLimit := by
  simp only [inspectBudget, decide_eq_false_iff_not, not_or, not_le] at h
  exact h.1

theorem leaseReached_iff :
    (inspectBudget budget policy).leaseBoundaryReached = true ↔
      budget.leaseEndTurn ≤ budget.turnsUsed := by
  simp [inspectBudget]

theorem automaticRenewal_iff :
    (inspectBudget budget policy).automaticRenewalAvailable = true ↔
      budget.leaseEndTurn ≤ budget.turnsUsed ∧ budget.leaseEndTurn < policy.automaticMaxTurns := by
  simp [inspectBudget]

/-- The furthest turn a lease from `source` may reach. -/
def DiscussionPolicy.leaseBoundary (policy : DiscussionPolicy) : LeaseSource → Nat
  | .automatic => min policy.automaticMaxTurns policy.regularTurnLimit
  | .initial | .user => policy.regularTurnLimit

def grantDiscussionLease (previous : BudgetSnapshot) (policy : DiscussionPolicy)
    (requestedTurns : Option Int) (source : LeaseSource) : Except String BudgetSnapshot := do
  require ((inspectBudget previous policy).hardBoundaryReached = false)
    "Discussion hard budget cannot be extended"
  let increment := requestedTurns.getD policy.initialLeaseTurns
  require (1 ≤ increment ∧ increment ≤ 20)
    "Discussion lease extension must be between 1 and 20 turns"
  let leaseEndTurn := min (max previous.leaseEndTurn previous.turnsUsed + increment.toNat)
    (policy.leaseBoundary source)
  require (previous.leaseEndTurn < leaseEndTurn)
    "Discussion lease cannot advance beyond its current boundary"
  pure { previous with leaseEndTurn, extensions := previous.extensions + 1 }

theorem grantDiscussionLease_ok
    (h : grantDiscussionLease previous policy requestedTurns source = .ok budget) :
    previous.leaseEndTurn < budget.leaseEndTurn ∧
      budget = { previous with
        leaseEndTurn := budget.leaseEndTurn, extensions := previous.extensions + 1 } := by
  unfold grantDiscussionLease at h
  obtain ⟨_, -, h⟩ := bind_ok h
  obtain ⟨_, -, h⟩ := bind_ok h
  obtain ⟨_, hadvance, h⟩ := bind_ok h
  cases h
  exact ⟨require_ok hadvance, rfl⟩

/-- Below the hard boundary a valid request succeeds exactly when its source may go past the
current lease. -/
theorem grantDiscussionLease_succeeds
    (hhard : (inspectBudget previous policy).hardBoundaryReached = false)
    (hincrement : 1 ≤ requestedTurns.getD policy.initialLeaseTurns ∧
      requestedTurns.getD policy.initialLeaseTurns ≤ 20)
    (hboundary : previous.leaseEndTurn < policy.leaseBoundary source) :
    ∃ budget, grantDiscussionLease previous policy requestedTurns source = .ok budget ∧
      previous.leaseEndTurn < budget.leaseEndTurn := by
  have hadvance : previous.leaseEndTurn < min (max previous.leaseEndTurn previous.turnsUsed +
        (requestedTurns.getD policy.initialLeaseTurns).toNat) (policy.leaseBoundary source) := by
    refine lt_min ?_ hboundary
    have hle := le_max_left previous.leaseEndTurn previous.turnsUsed
    omega
  refine ⟨{ previous with leaseEndTurn := _, extensions := previous.extensions + 1 }, ?_, hadvance⟩
  simp only [grantDiscussionLease, require, hhard, hincrement, hadvance, and_self, if_true]
  rfl

/-! ## Deciding what comes next -/

inductive DiscussionUserIntent where
  | finish | stopAfterTurn | pause | cancel
  deriving DecidableEq, Repr

def RequestedAction.intent : RequestedAction → DiscussionUserIntent
  | .finish => .finish
  | .stopAfterTurn => .stopAfterTurn
  | .pause => .pause

structure PolicyDecision where
  action : DiscussionAction
  state : DiscussionState
  reason : Option DiscussionStateReason
  outputMode : DiscussionOutputMode
  grantAutomaticLease : Bool
  deriving DecidableEq, Repr

namespace PolicyDecision

def waitHuman (state : DiscussionState) (reason : DiscussionStateReason) : PolicyDecision :=
  ⟨.waitHuman, state, some reason, .none, false⟩

def finalize (reason : DiscussionStateReason) (outputMode : DiscussionOutputMode) :
    PolicyDecision :=
  ⟨.finalize, .finalizing, some reason, outputMode, false⟩

def proceed (grantAutomaticLease : Bool) : PolicyDecision :=
  ⟨.continue, .active, none, .none, grantAutomaticLease⟩

end PolicyDecision

structure DecisionInput where
  progress : ProgressSnapshot
  budget : BudgetSnapshot
  policy : DiscussionPolicy
  requestedOutputMode : DiscussionOutputMode
  userIntent : Option DiscussionUserIntent := none
  runtimeInputRequired : Bool := false
  runtimeFailed : Bool := false
  deriving DecidableEq, Repr

def DecisionInput.reviewSatisfied (input : DecisionInput) : Bool :=
  ¬ input.policy.requireReviewer ∨ input.progress.reviewerApproved

def decideDiscussion (input : DecisionInput) : PolicyDecision :=
  let budget := inspectBudget input.budget input.policy
  if input.userIntent = some .cancel then
    ⟨.cancel, .canceled, some .userCanceled, .none, false⟩
  else if budget.hardBoundaryReached then
    .finalize .hardBudgetExhausted
      (if input.progress.openQuestions ≠ [] then .unresolvedIssues else input.requestedOutputMode)
  else if input.runtimeInputRequired then .waitHuman .waitingHuman .inputRequired
  else if input.userIntent = some .pause then ⟨.pause, .paused, some .userPaused, .none, false⟩
  else if input.userIntent = some .finish ∨ input.userIntent = some .stopAfterTurn then
    .finalize .userRequestedFinish input.requestedOutputMode
  else if input.runtimeFailed then .waitHuman .waitingHuman .runtimeFailure
  else if input.policy.allowAutomaticFinish ∧ input.progress.goalSatisfied ∧
      input.reviewSatisfied then
    .finalize .goalSatisfied input.requestedOutputMode
  else if input.policy.plateauWindow ≤ input.progress.plateauCount then
    if (input.progress.openQuestions.any fun question => question.importance = .high) ∨
        ¬ input.reviewSatisfied then
      .waitHuman .waitingHuman .discussionPlateau
    else .finalize .discussionPlateau input.requestedOutputMode
  else if budget.leaseBoundaryReached then
    if budget.automaticRenewalAvailable ∧ input.progress.lastTurnAddedInformation then
      .proceed true
    else .waitHuman .awaitingExtension .softBudgetExhausted
  else .proceed false

/-- Everything a decision can be, with what holds of the budget when it is to go on. -/
inductive Verdict (input : DecisionInput) : PolicyDecision → Prop
  | canceled (intent : input.userIntent = some .cancel) :
      Verdict input ⟨.cancel, .canceled, some .userCanceled, .none, false⟩
  | finalized (reason : DiscussionStateReason) (outputMode : DiscussionOutputMode) :
      Verdict input (.finalize reason outputMode)
  | held (action : DiscussionAction) (state : DiscussionState) (reason : DiscussionStateReason)
      (action_held : action = .waitHuman ∨ action = .pause) (state_held : state.isResumable) :
      Verdict input ⟨action, state, some reason, .none, false⟩
  | proceeded (hard : (inspectBudget input.budget input.policy).hardBoundaryReached = false)
      (lease : input.budget.turnsUsed < input.budget.leaseEndTurn) :
      Verdict input (.proceed false)
  | renewed (hard : (inspectBudget input.budget input.policy).hardBoundaryReached = false)
      (renewal : (inspectBudget input.budget input.policy).automaticRenewalAvailable = true) :
      Verdict input (.proceed true)

theorem decideDiscussion_verdict (input : DecisionInput) :
    Verdict input (decideDiscussion input) := by
  unfold decideDiscussion
  simp only
  split
  · rename_i hcancel
    exact .canceled hcancel
  split
  · exact .finalized _ _
  rename_i hhard
  rw [Bool.not_eq_true] at hhard
  split
  · exact .held _ _ _ (.inl rfl) rfl
  split
  · exact .held _ _ _ (.inr rfl) rfl
  split
  · exact .finalized _ _
  split
  · exact .held _ _ _ (.inl rfl) rfl
  split
  · exact .finalized _ _
  split
  · split
    · exact .held _ _ _ (.inl rfl) rfl
    · exact .finalized _ _
  split
  · split
    · rename_i hrenewal
      exact .renewed hhard hrenewal.1
    · exact .held _ _ _ (.inl rfl) rfl
  · rename_i hlease
    rw [leaseReached_iff, not_le] at hlease
    exact .proceeded hhard hlease

/-- An automatic lease is only requested where it can be granted. -/
theorem automatic_lease_granted (hpolicy : policy.Bounded)
    (hhard : (inspectBudget budget policy).hardBoundaryReached = false)
    (hrenewal : (inspectBudget budget policy).automaticRenewalAvailable = true) :
    ∃ granted, grantDiscussionLease budget policy none .automatic = .ok granted ∧
      budget.leaseEndTurn < granted.leaseEndTurn := by
  obtain ⟨hreached, hautomatic⟩ := automaticRenewal_iff.mp hrenewal
  have hregular := turnsUsed_lt_regular hhard
  have hpos := hpolicy.initialLease_pos
  have hle := hpolicy.initialLease_le
  refine grantDiscussionLease_succeeds hhard ?_ (lt_min hautomatic (by omega))
  simp only [Option.getD_none]
  omega

/-- A requester at the lease boundary, below the hard one, gets a lease of any valid size. -/
theorem user_lease_granted (hincrement : 1 ≤ requestedTurns.getD policy.initialLeaseTurns ∧
      requestedTurns.getD policy.initialLeaseTurns ≤ 20)
    (hhard : (inspectBudget budget policy).hardBoundaryReached = false)
    (hlease : (inspectBudget budget policy).leaseBoundaryReached = true) :
    ∃ granted, grantDiscussionLease budget policy requestedTurns .user = .ok granted ∧
      budget.leaseEndTurn < granted.leaseEndTurn := by
  have hregular := turnsUsed_lt_regular hhard
  have hreached := leaseReached_iff.mp hlease
  exact grantDiscussionLease_succeeds hhard hincrement (show _ < policy.regularTurnLimit by omega)

end ConveneWire.Discussion
