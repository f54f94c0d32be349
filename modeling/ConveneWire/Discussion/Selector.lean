import Mathlib.Data.List.Infix
import ConveneWire.Lib.Program
import ConveneWire.Discussion.Progress

/-! # `discussion-participant-selector.ts`

Who speaks in the next Wave. The selector never invents a participant: what it
returns is a nonempty list of distinct candidates, and the snapshot it stores
with the Wave names exactly them. -/

namespace ConveneWire.Discussion

open Run (AgentId)
open Transactional (require require_ok bind_ok)

inductive TaskRole where
  | primary | contributor | reviewer
  deriving DecidableEq, Repr

def TaskRole.text : TaskRole → String
  | .primary => "primary"
  | .contributor => "contributor"
  | .reviewer => "reviewer"

structure ParticipantCandidate where
  participant : DiscussionParticipant
  agentRole : String
  taskRole : Option TaskRole
  reportedQuestionIds : List String
  deriving DecidableEq, Repr

structure ParticipantSelection where
  participants : List DiscussionParticipant
  snapshot : DiscussionWaveSelection
  deriving DecidableEq, Repr

variable (P : Platform)

/-! ## The stored snapshot -/

def createDiscussionWaveSelection (selection : UnsignedWaveSelection) : DiscussionWaveSelection :=
  { selection with selectionDigest := P.selectionDigest selection }

/-- The reasons an explanation may give under each strategy. -/
def SelectionStrategy.allowedReasons : SelectionStrategy → List SelectionReason
  | .finalizer => [.finalizerReviewer, .finalizerPrimary, .finalizerOrdinal]
  | .allEligible => [.allMemberPolicy, .noFocusQuestions, .noDeterministicMatch]
  | .questionFocused => [.questionReporter, .roleMatch, .requiredReviewer]

def uniqueStrings (values : List String) : Bool :=
  (values.all fun value => ¬ P.isBlank value) ∧ values.Nodup

def validExplanation (selection : DiscussionWaveSelection)
    (entry : SelectionExplanation × AgentId) : Bool :=
  let (explanation, agentId) := entry
  explanation.agentId = agentId ∧ explanation.reasons ≠ [] ∧ explanation.reasons.Nodup ∧
    (explanation.reasons.all fun reason => reason ∈ selection.strategy.allowedReasons) ∧
    (selection.strategy = .questionFocused ∨ explanation.reasons.length = 1) ∧
    uniqueStrings P explanation.reportedQuestionIds ∧
    (explanation.reportedQuestionIds.all fun id => id ∈ selection.focusQuestionIds) ∧
    uniqueStrings P explanation.matchedRoleTerms ∧
    (.questionReporter ∈ explanation.reasons ↔ explanation.reportedQuestionIds ≠ []) ∧
    (.roleMatch ∈ explanation.reasons ↔ explanation.matchedRoleTerms ≠ []) ∧
    (.requiredReviewer ∈ explanation.reasons → .reviewer ∈ selection.requiredRoles)

def validExplanations (selection : DiscussionWaveSelection) : Bool :=
  selection.explanations.length = selection.selectedAgentIds.length ∧
    (selection.explanations.zip selection.selectedAgentIds).all (validExplanation P selection)

/-- `/^[a-f0-9]{64}$/u`. -/
def isHexDigest (value : String) : Bool :=
  value.length = 64 ∧ value.toList.all fun c => c.isDigit ∨ 'a' ≤ c ∧ c ≤ 'f'

def validWaveSelection (selection : DiscussionWaveSelection) : Bool :=
  validExplanations P selection ∧
    2 ≤ selection.focusedParticipantLimit ∧ selection.focusedParticipantLimit ≤ 5 ∧
    isHexDigest selection.selectionDigest ∧
    selection.selectionDigest = P.selectionDigest selection.toUnsignedWaveSelection ∧
    uniqueStrings P selection.focusQuestionIds ∧
    selection.focusQuestionIds = selection.focusQuestionIds.insertionSort P.Precedes ∧
    selection.eligibleAgentIds.Nodup ∧ selection.selectedAgentIds.Nodup ∧
    selection.selectedAgentIds ≠ [] ∧
    (selection.selectedAgentIds.all fun agentId => agentId ∈ selection.eligibleAgentIds) ∧
    (selection.requiredRoles.all fun role => role = .reviewer) ∧ selection.requiredRoles.Nodup ∧
    (selection.strategy = .allEligible →
      selection.selectedAgentIds = selection.eligibleAgentIds) ∧
    (selection.strategy = .questionFocused → selection.focusQuestionIds ≠ [] ∧
      selection.selectedAgentIds.length ≤ selection.focusedParticipantLimit) ∧
    (selection.strategy = .finalizer → selection.selectedAgentIds.length = 1)

def assertDiscussionWaveSelection (selection : DiscussionWaveSelection)
    (turnAgentIds : Option (List AgentId)) : Except String Unit :=
  require (validWaveSelection P selection ∧
    turnAgentIds.all fun ids => selection.selectedAgentIds = ids)
    "Discussion Wave selection snapshot is invalid"

theorem validWaveSelection_selected {selection : DiscussionWaveSelection}
    (h : validWaveSelection P selection) :
    selection.selectedAgentIds.Nodup ∧ selection.selectedAgentIds ≠ [] := by
  simp only [validWaveSelection, decide_eq_true_eq] at h
  obtain ⟨-, -, -, -, -, -, -, -, hnodup, hne, -⟩ := h
  exact ⟨hnodup, hne⟩

/-! ## Scoring -/

def genericRoleTerms : List String :=
  ["agent", "assistant", "contributor", "developer", "engineer", "participant", "primary"]

def roleTerms (candidate : ParticipantCandidate) : List String :=
  let terms := P.words (P.normalized
    (candidate.agentRole ++ " " ++ (candidate.taskRole.map TaskRole.text).getD ""))
  distinct (terms.filter fun term => term ∉ genericRoleTerms ∧
    (3 ≤ term.length ∨ term.toList.any fun c => 0x7f < c.toNat))

def OpenQuestion.FocusLe (left right : OpenQuestion) : Prop :=
  match P.localeCompare left.id right.id with
  | .lt => True
  | .eq => P.Precedes left.question right.question
  | .gt => False

instance : DecidableRel (OpenQuestion.FocusLe P) := fun left right => by
  unfold OpenQuestion.FocusLe
  split <;> infer_instance

def highestPriorityQuestions (questions : List OpenQuestion) : List OpenQuestion :=
  let highest := questions.foldl (fun rank question => max rank question.importance.rank) 0
  (questions.filter fun question => question.importance.rank = highest).insertionSort
    (OpenQuestion.FocusLe P)

/-- `questionText.includes(term)`. -/
def includesText (text term : String) : Bool := term.toList <:+: text.toList

structure ScoredCandidate where
  candidate : ParticipantCandidate
  score : Nat

def ScoredCandidate.Before (left right : ScoredCandidate) : Prop :=
  right.score < left.score ∨ left.score = right.score ∧
    left.candidate.participant.ordinal ≤ right.candidate.participant.ordinal

instance : DecidableRel ScoredCandidate.Before := fun _ _ => inferInstanceAs (Decidable (_ ∨ _))

def ParticipantCandidate.OrdinalLe (left right : ParticipantCandidate) : Prop :=
  left.participant.ordinal ≤ right.participant.ordinal

open ParticipantCandidate (OrdinalLe participant)

instance : DecidableRel OrdinalLe := fun left right =>
  inferInstanceAs (Decidable (left.participant.ordinal ≤ right.participant.ordinal))

def requiredReviewer (discussion : DiscussionRecord) (candidates : List ParticipantCandidate) :
    Option ParticipantCandidate :=
  if discussion.mode ≠ .review ∧ ¬ discussion.policy.requireReviewer then none
  else candidates.find? fun candidate => candidate.participant.role = .reviewer

def scoreCandidates (questions : List OpenQuestion) (candidates : List ParticipantCandidate) :
    List ScoredCandidate :=
  let questionText := P.normalized ("\n".intercalate (questions.map OpenQuestion.question))
  let scored := candidates.map fun candidate =>
    let reports := candidate.reportedQuestionIds.countP fun id =>
      questions.any fun question => question.id = id
    let matched := (roleTerms P candidate).countP (includesText questionText)
    ScoredCandidate.mk candidate (reports * 100 + matched * 10)
  (scored.filter fun entry => 0 < entry.score).insertionSort ScoredCandidate.Before

/-- The best `limit` candidates, with the required reviewer put in last place if it is missing. -/
def focusedCandidates (limit : Nat) (scored : List ScoredCandidate)
    (reviewer : Option ParticipantCandidate) : List ParticipantCandidate :=
  let selected := (scored.take limit).map ScoredCandidate.candidate
  let selected := match reviewer with
    | none => selected
    | some reviewer =>
      if selected.any fun candidate =>
          candidate.participant.agentId = reviewer.participant.agentId then selected
      else (if selected.length = limit then selected.dropLast else selected) ++ [reviewer]
  selected.insertionSort OrdinalLe

/-! ## Selecting -/

structure SnapshotInput where
  strategy : SelectionStrategy
  explanations : List SelectionExplanation
  questions : List OpenQuestion
  candidates : List ParticipantCandidate
  selected : List ParticipantCandidate
  reviewerRequired : Bool
  focusedParticipantLimit : Nat

def SnapshotInput.snapshot (input : SnapshotInput) : Except String ParticipantSelection := do
  let value := createDiscussionWaveSelection P {
    explanations := input.explanations
    strategy := input.strategy
    focusQuestionIds := input.questions.map OpenQuestion.id
    eligibleAgentIds := input.candidates.map fun candidate => candidate.participant.agentId
    selectedAgentIds := input.selected.map fun candidate => candidate.participant.agentId
    requiredRoles := if input.reviewerRequired then [.reviewer] else []
    focusedParticipantLimit := input.focusedParticipantLimit }
  assertDiscussionWaveSelection P value none
  pure ⟨input.selected.map participant, value⟩

def explain (reason : SelectionReason) (candidate : ParticipantCandidate) : SelectionExplanation :=
  ⟨candidate.participant.agentId, [reason], [], []⟩

def explainFocused (questions : List OpenQuestion) (reviewer : Option ParticipantCandidate)
    (candidate : ParticipantCandidate) : SelectionExplanation :=
  let questionText := P.normalized ("\n".intercalate (questions.map OpenQuestion.question))
  let reportedQuestionIds := ((distinct candidate.reportedQuestionIds).filter fun id =>
    questions.any fun question => question.id = id).insertionSort P.Precedes
  let matchedRoleTerms := ((roleTerms P candidate).filter
    (includesText questionText)).insertionSort P.Precedes
  { agentId := candidate.participant.agentId
    reasons := (if reportedQuestionIds ≠ [] then [.questionReporter] else []) ++
      (if matchedRoleTerms ≠ [] then [.roleMatch] else []) ++
      (if reviewer = some candidate then [.requiredReviewer] else [])
    reportedQuestionIds, matchedRoleTerms }

/-- The finalizer: the reviewer, else the Task's primary, else the first by ordinal. -/
def finalizer (first : ParticipantCandidate) (candidates : List ParticipantCandidate) :
    ParticipantCandidate × SelectionReason :=
  match candidates.find? fun candidate => candidate.participant.role = .reviewer with
  | some reviewer => (reviewer, .finalizerReviewer)
  | none => match candidates.find? fun candidate => candidate.taskRole = some .primary with
    | some primary => (primary, .finalizerPrimary)
    | none => (first, .finalizerOrdinal)

/-- How a contribution Wave is filled: everyone, or the candidates that match the questions. -/
def contributionInput (discussion : DiscussionRecord) (candidates : List ParticipantCandidate)
    (reviewer : Option ParticipantCandidate) : SnapshotInput :=
  let questions := highestPriorityQuestions P discussion.progress.openQuestions
  let everyone (reason : SelectionReason) : SnapshotInput :=
    ⟨.allEligible, candidates.map (explain reason), questions, candidates, candidates,
      reviewer.isSome, discussion.policy.focusedParticipantLimit⟩
  if discussion.policy.participantSelectionMode = .allEligible then everyone .allMemberPolicy
  else if questions = [] then everyone .noFocusQuestions
  else match scoreCandidates P questions candidates with
    | [] => everyone .noDeterministicMatch
    | scored =>
      let selected := focusedCandidates discussion.policy.focusedParticipantLimit scored reviewer
      ⟨.questionFocused, selected.map (explainFocused P questions reviewer), questions, candidates,
        selected, reviewer.isSome, discussion.policy.focusedParticipantLimit⟩

def selectDiscussionParticipants (discussion : DiscussionRecord)
    (candidates : List ParticipantCandidate) (finalization : Bool) :
    Except String ParticipantSelection :=
  let candidates := candidates.insertionSort OrdinalLe
  match candidates with
  | [] => .error "Discussion Wave has no eligible participant"
  | first :: _ =>
    let reviewer := requiredReviewer discussion candidates
    if finalization then
      let (selected, reason) := finalizer first candidates
      SnapshotInput.snapshot P ⟨.finalizer, [explain reason selected],
        highestPriorityQuestions P discussion.progress.openQuestions, candidates, [selected],
        reviewer.isSome, discussion.policy.focusedParticipantLimit⟩
    else if (discussion.mode = .review ∨ discussion.policy.requireReviewer) ∧ reviewer = none then
      .error "Discussion Wave requires an eligible reviewer"
    else (contributionInput P discussion candidates reviewer).snapshot P

/-! ## What a selection is -/

variable {discussion : DiscussionRecord} {selection : ParticipantSelection}
  {candidates : List ParticipantCandidate} {input : SnapshotInput}

theorem SnapshotInput.snapshot_ok (h : input.snapshot P = .ok selection) :
    selection.participants = input.selected.map participant ∧
      selection.snapshot.selectedAgentIds = selection.participants.map
        DiscussionParticipant.agentId ∧ selection.snapshot.strategy = input.strategy ∧
      validWaveSelection P selection.snapshot := by
  unfold SnapshotInput.snapshot at h
  obtain ⟨_, hassert, h⟩ := bind_ok h
  cases h
  exact ⟨rfl, by simp [createDiscussionWaveSelection], rfl, (require_ok hassert).1⟩

theorem mem_scoreCandidates {questions : List OpenQuestion} {entry : ScoredCandidate}
    (h : entry ∈ scoreCandidates P questions candidates) : entry.candidate ∈ candidates := by
  simp only [scoreCandidates, List.mem_insertionSort, List.mem_filter, List.mem_map] at h
  obtain ⟨⟨candidate, hmem, rfl⟩, -⟩ := h
  exact hmem

variable {reviewer : Option ParticipantCandidate} {candidate : ParticipantCandidate}
  {finalization : Bool}

theorem mem_focusedCandidates {limit : Nat} {scored : List ScoredCandidate}
    (h : candidate ∈ focusedCandidates limit scored reviewer) :
    (∃ entry ∈ scored, entry.candidate = candidate) ∨ reviewer = some candidate := by
  have htaken : ∀ {c}, c ∈ (scored.take limit).map ScoredCandidate.candidate →
      ∃ entry ∈ scored, entry.candidate = c := by
    intro c hc
    obtain ⟨entry, hentry, heq⟩ := List.mem_map.mp hc
    exact ⟨entry, List.mem_of_mem_take hentry, heq⟩
  simp only [focusedCandidates, List.mem_insertionSort] at h
  split at h
  · exact .inl (htaken h)
  split at h
  · exact .inl (htaken h)
  rcases List.mem_append.mp h with h | h
  · left
    split at h
    · exact htaken (List.mem_of_mem_dropLast h)
    · exact htaken h
  · exact .inr (by rw [List.mem_singleton.mp h])

theorem requiredReviewer_mem {reviewer : ParticipantCandidate}
    (h : requiredReviewer discussion candidates = some reviewer) : reviewer ∈ candidates := by
  unfold requiredReviewer at h
  split at h
  · cases h
  · exact List.mem_of_find?_eq_some h

theorem finalizer_mem {first : ParticipantCandidate} (hfirst : first ∈ candidates) :
    (finalizer first candidates).1 ∈ candidates := by
  unfold finalizer
  split
  · rename_i hreviewer
    exact List.mem_of_find?_eq_some hreviewer
  split
  · rename_i hprimary
    exact List.mem_of_find?_eq_some hprimary
  · exact hfirst

theorem contributionInput_selected {discussion : DiscussionRecord}
    {candidates : List ParticipantCandidate}
    (h : candidate ∈ (contributionInput P discussion candidates
      (requiredReviewer discussion candidates)).selected) : candidate ∈ candidates := by
  unfold contributionInput at h
  simp only at h
  split at h
  · exact h
  split at h
  · exact h
  split at h
  · exact h
  · rcases mem_focusedCandidates h with ⟨entry, hentry, rfl⟩ | hreviewer
    · exact mem_scoreCandidates P hentry
    · exact requiredReviewer_mem hreviewer

theorem contributionInput_strategy :
    (contributionInput P discussion candidates reviewer).strategy ≠ .finalizer := by
  unfold contributionInput
  simp only
  split
  · simp
  · split
    · simp
    · split <;> simp

/-- A selection is a nonempty list of distinct candidates under the strategy of its kind. -/
structure ParticipantSelection.Selects (selection : ParticipantSelection)
    (candidates : List ParticipantCandidate) (finalization : Bool) : Prop where
  subset : ∀ participant ∈ selection.participants,
    ∃ candidate ∈ candidates, candidate.participant = participant
  agents : selection.snapshot.selectedAgentIds =
    selection.participants.map DiscussionParticipant.agentId
  nodup : (selection.participants.map DiscussionParticipant.agentId).Nodup
  nonempty : selection.participants ≠ []
  strategy : selection.snapshot.strategy = .finalizer ↔ finalization = true

theorem selects_of_snapshot (h : input.snapshot P = .ok selection)
    (hsubset : ∀ candidate ∈ input.selected, candidate ∈ candidates)
    (hstrategy : input.strategy = .finalizer ↔ finalization = true) :
    selection.Selects candidates finalization := by
  obtain ⟨hparticipants, hagents, hstrat, hvalid⟩ := SnapshotInput.snapshot_ok P h
  obtain ⟨hnodup, hne⟩ := validWaveSelection_selected P hvalid
  rw [hagents] at hnodup hne
  refine ⟨fun participant hp => ?_, hagents, hnodup, fun hnil => hne (by simp [hnil]), by
    rw [hstrat, hstrategy]⟩
  rw [hparticipants] at hp
  obtain ⟨candidate, hcandidate, rfl⟩ := List.mem_map.mp hp
  exact ⟨candidate, hsubset candidate hcandidate, rfl⟩

theorem selectDiscussionParticipants_selects
    (h : selectDiscussionParticipants P discussion candidates finalization = .ok selection) :
    selection.Selects candidates finalization := by
  have hsorted : ∀ candidate ∈ candidates.insertionSort OrdinalLe,
      candidate ∈ candidates := fun _ hc => (List.mem_insertionSort _).mp hc
  unfold selectDiscussionParticipants at h
  simp only at h
  split at h
  · cases h
  rename_i first rest hcons
  split at h
  · rename_i hfinal
    refine selects_of_snapshot P h (fun candidate hc => ?_) (by simp [hfinal])
    rw [List.mem_singleton.mp hc]
    exact hsorted _ (finalizer_mem (by rw [hcons]; exact List.mem_cons_self ..))
  · rename_i hfinal
    split at h
    · cases h
    · exact selects_of_snapshot P h
        (fun candidate hc => hsorted _ (contributionInput_selected P hc))
        (by simp [hfinal, contributionInput_strategy])

end ConveneWire.Discussion
