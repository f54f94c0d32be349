import ConveneWire.Discussion.Guarantees

/-! # Progress over a sequence of Waves

Each Wave is evaluated on the snapshot the one before left. What is followed here
through all of them: the open questions, the evidence, the plateau count and the
approval of the reviewers. -/

namespace ConveneWire.Discussion

open Transactional (bind_ok)

/-- A Wave, with the snapshots before and after its evaluation. -/
structure WaveStep where
  before : ProgressSnapshot
  successfulResults : List SuccessfulWaveResult
  policy : DiscussionPolicy
  previousReplies : List String
  after : ProgressSnapshot

namespace WaveStep

variable (P : Platform) (step : WaveStep)

def Evaluated : Prop :=
  ∃ evaluation, evaluateWaveProgress P step.before step.successfulResults step.policy
    step.previousReplies = .ok evaluation ∧ evaluation.snapshot = step.after

def sortedResults : List SuccessfulWaveResult :=
  step.successfulResults.insertionSort SuccessfulWaveResult.OrdinalLe

def members : List WaveMemberProgress :=
  step.sortedResults.map fun result =>
    ⟨result.participantOrdinal, result.assessment.bind (parseAgentAssessment P),
      hashDiscussionReply P result.reply⟩

/-- What the reviewers of the Wave said about the result. -/
def reviewerOpinions : List Bool :=
  (step.sortedResults.zip (step.members P)).filterMap fun (result, member) =>
    if result.speakerIsReviewer then member.assessment.bind AgentAssessment.reviewerApproved
    else none

def resolvedIds : List String := (step.members P).flatMap WaveMemberProgress.resolvedIds

/-- The references a member claimed and the server could verify. -/
def verifiedClaims : List String :=
  (step.sortedResults.zip (step.members P)).flatMap fun (result, member) =>
    result.verifiedEvidenceRefs.filter fun reference => reference ∈ member.evidenceRefs

def addsNovelReply : Bool :=
  (((step.members P).zip step.sortedResults).foldl (Novelty.next P)
    ⟨step.before.replyHashes, lastOf 10 step.previousReplies, false⟩).addedNovelReply

/-- A novel reply, a question resolved for good, new verified evidence, or a change of
the disagreement that remains. -/
def MakesProgress : Prop :=
  step.addsNovelReply P = true ∨
    (∃ question ∈ step.before.openQuestions, question.id ∈ step.resolvedIds P ∧
      ∀ known ∈ step.after.openQuestions, known.id ≠ question.id) ∨
    (∃ reference ∈ step.after.verifiedEvidenceRefs,
      reference ∉ step.before.verifiedEvidenceRefs) ∨
    step.after.disagreementRemaining ≠ step.before.disagreementRemaining

/-- No reviewer spoke, and nothing a reviewer had approved has changed. -/
structure Unreviewed : Prop where
  silent : step.reviewerOpinions P = []
  goalSatisfied : step.after.goalSatisfied = step.before.goalSatisfied
  confidence : step.after.confidence = step.before.confidence
  openQuestions : step.after.openQuestions = step.before.openQuestions
  verifiedEvidence : ∀ reference, reference ∈ step.after.verifiedEvidenceRefs ↔
    reference ∈ step.before.verifiedEvidenceRefs
  disagreement : step.after.disagreementRemaining = step.before.disagreementRemaining
  novel : step.addsNovelReply P = false

end WaveStep

/-- Waves evaluated one after another from the empty snapshot. -/
inductive History (P : Platform) : List WaveStep → ProgressSnapshot → Prop
  | empty : History P [] emptyProgressSnapshot
  | wave {steps : List WaveStep} {step : WaveStep} (h : History P steps step.before)
      (evaluated : step.Evaluated P) : History P (steps ++ [step]) step.after

variable {P : Platform} {step : WaveStep} {steps : List WaveStep} {snapshot : ProgressSnapshot}

/-! ## One Wave -/

/-- A set grows exactly when a new value is added to it. -/
theorem distinct_grows {α : Type} [DecidableEq α] {values more : List α} :
    0 < (distinct (distinct values ++ more)).length - (distinct values).length ↔
      ∃ value ∈ more, value ∉ values := by
  have hsubset : distinct values ⊆ distinct (distinct values ++ more) := fun value h =>
    mem_distinct.mpr (List.mem_append_left _ h)
  have hsubperm := List.subperm_of_subset (nodup_distinct values) hsubset
  refine ⟨fun hlt => ?_, ?_⟩
  · by_contra! hall
    have hback : distinct (distinct values ++ more) ⊆ distinct values := by
      intro value h
      simp only [mem_distinct, List.mem_append] at h ⊢
      exact h.elim id (hall value)
    have hle := (List.subperm_of_subset (nodup_distinct _) hback).length_le
    omega
  · rintro ⟨value, hmore, hnew⟩
    by_contra hle
    have hperm := hsubperm.perm_of_length_le (by omega)
    refine hnew (mem_distinct.mp (hperm.mem_iff.mpr (mem_distinct.mpr ?_)))
    exact List.mem_append_right _ hmore

/-- What an evaluation makes of a Wave. -/
structure WaveStep.Outcome (P : Platform) (step : WaveStep) : Prop where
  openQuestions : step.after.openQuestions =
    (mergedQuestions P step.before.openQuestions (step.members P)).insertionSort
      (OpenQuestion.Precedes P)
  evidence : ∀ {reference}, reference ∈ step.after.evidenceRefs ↔
    reference ∈ step.before.evidenceRefs ∨ ∃ member ∈ step.members P, reference ∈ member.evidenceRefs
  verified : ∀ {reference}, reference ∈ step.after.verifiedEvidenceRefs ↔
    reference ∈ step.before.verifiedEvidenceRefs ∨ reference ∈ step.verifiedClaims P
  goal : step.after.goalSatisfied = true → claimsCompletion step.policy (step.members P) = true ∧
    ∀ question ∈ step.after.openQuestions, question.importance ≠ .high
  progress : step.after.lastTurnAddedInformation = true ↔ step.addsNovelReply P = true ∨
    (step.before.openQuestions.filter fun question => question.id ∈ step.resolvedIds P ∧
      ¬ (mergedQuestions P step.before.openQuestions (step.members P)).any
        fun known => known.id = question.id) ≠ [] ∨
    0 < (distinct (distinct step.before.verifiedEvidenceRefs ++ step.verifiedClaims P)).length -
      (distinct step.before.verifiedEvidenceRefs).length ∨
    step.after.disagreementRemaining ≠ step.before.disagreementRemaining
  plateau : step.after.plateauCount =
    if step.after.lastTurnAddedInformation then 0 else step.before.plateauCount + 1
  approved : step.after.reviewerApproved = if step.reviewerOpinions P ≠ [] then
      (step.reviewerOpinions P).all id
    else if step.after.lastTurnAddedInformation = true ∨
        step.after.openQuestions ≠ step.before.openQuestions ∨
        step.after.goalSatisfied ≠ step.before.goalSatisfied ∨
        step.after.confidence ≠ step.before.confidence then false
    else step.before.reviewerApproved

namespace WaveStep

theorem Evaluated.outcome (h : step.Evaluated P) : step.Outcome P := by
  obtain ⟨evaluation, hok, hafter⟩ := h
  obtain ⟨sorted, hsorted, hok⟩ := bind_ok hok
  unfold sortSuccessfulResults at hsorted
  simp only at hsorted
  split at hsorted
  · cases hsorted
  cases hsorted
  cases hok
  constructor
  · rw [← hafter]
    rfl
  · intro reference
    rw [← hafter, List.mem_insertionSort, mem_distinct, List.mem_append, List.mem_flatMap]
    rfl
  · intro reference
    rw [← hafter, List.mem_insertionSort, mem_distinct, List.mem_append, mem_distinct]
    rfl
  · rw [← hafter]
    simp only [decide_eq_true_eq, List.any_eq_true, not_exists, not_and]
    exact fun h => h.2
  · rw [← hafter]
    exact decide_eq_true_iff
  · rw [← hafter]
  · rw [← hafter]
    simp only [decide_eq_true_eq]
    rfl

theorem Outcome.progress_iff (h : step.Outcome P) :
    step.after.lastTurnAddedInformation = true ↔ step.MakesProgress P := by
  rw [h.progress, distinct_grows, MakesProgress]
  refine or_congr_right (or_congr ?_ (or_congr_left (exists_congr fun reference => ?_)))
  · simp [h.openQuestions, List.mem_insertionSort]
  · rw [h.verified]
    tauto

theorem Outcome.approval (h : step.Outcome P) (happroved : step.after.reviewerApproved = true) :
    step.reviewerOpinions P ≠ [] ∧ (∀ opinion ∈ step.reviewerOpinions P, opinion = true) ∨
      step.before.reviewerApproved = true ∧ step.Unreviewed P := by
  rw [h.approved] at happroved
  split at happroved
  · rename_i hspoken
    exact .inl ⟨hspoken, by simpa using happroved⟩
  rename_i hsilent
  split at happroved
  · cases happroved
  rename_i hsame
  simp only [h.progress_iff, MakesProgress, not_or, not_not, not_exists, not_and] at hsame
  obtain ⟨⟨hnovel, -, hnew, hdisagreement⟩, hquestions, hsatisfied, hconfidence⟩ := hsame
  exact .inr ⟨happroved, by simpa using hsilent, hsatisfied, hconfidence, hquestions,
    fun reference => ⟨hnew reference, fun h' => h.verified.mpr (.inl h')⟩, hdisagreement,
    by simpa using hnovel⟩

end WaveStep

/-! ## Approval -/

/-- An approval that stands was given by every reviewer who spoke in some Wave, and
nothing has changed since. -/
theorem reviewer_approval_current (h : History P steps snapshot)
    (happroved : snapshot.reviewerApproved = true) :
    ∃ earlier step later, steps = earlier ++ step :: later ∧ step.reviewerOpinions P ≠ [] ∧
      (∀ opinion ∈ step.reviewerOpinions P, opinion = true) ∧
      ∀ after ∈ later, after.Unreviewed P := by
  induction h with
  | empty => cases happroved
  | @wave steps step h evaluated ih =>
    rcases evaluated.outcome.approval happroved with ⟨hspoken, hall⟩ | ⟨hbefore, hsame⟩
    · exact ⟨steps, step, [], rfl, hspoken, hall, by simp⟩
    · obtain ⟨earlier, approving, later, rfl, hspoken, hall, hlater⟩ := ih hbefore
      refine ⟨earlier, approving, later ++ [step], by simp, hspoken, hall, ?_⟩
      simpa [or_imp, forall_and] using ⟨hlater, hsame⟩

/-- A Wave in which the only member is a reviewer and approves. -/
def sampleReview : WaveStep where
  before := emptyProgressSnapshot
  successfulResults := [⟨0, "done", some { reviewerApproved := some true }, true, []⟩]
  policy := defaultDiscussionPolicy
  previousReplies := []
  after := { emptyProgressSnapshot with
    version := 1, reviewerApproved := true, replyHashes := [plainPlatform.sha256 "done"] }

theorem history_sampleReview : History plainPlatform [sampleReview] sampleReview.after :=
  @History.wave _ [] sampleReview .empty ⟨_, rfl, rfl⟩

theorem reviewer_approval_current_sample :
    sampleReview.after.reviewerApproved = true ∧
      ∃ earlier step later, [sampleReview] = earlier ++ step :: later ∧
        step.reviewerOpinions plainPlatform ≠ [] :=
  ⟨rfl, (reviewer_approval_current history_sampleReview rfl).imp fun _ => .imp fun _ => .imp
    fun _ h => ⟨h.1, h.2.1⟩⟩

/-! ## Questions -/

/-- Questions by id, as the `Map` holds them: what was open is still open, and is no less
important. -/
structure Continues (before after : List OpenQuestion) : Prop where
  nodup : (after.map OpenQuestion.id).Nodup
  kept : ∀ question ∈ before, ∃ known ∈ after, known.id = question.id ∧
    question.importance.rank ≤ known.importance.rank

section Questions

variable {before questions : List OpenQuestion} {question : OpenQuestion}

theorem Continues.refl (h : (questions.map OpenQuestion.id).Nodup) : Continues questions questions :=
  ⟨h, fun question hquestion => ⟨question, hquestion, rfl, le_rfl⟩⟩

/-- A merged question has the id of both and the higher importance. -/
theorem mergeOpenQuestion_spec {current : Option OpenQuestion}
    (hcurrent : ∀ known ∈ current, known.id = question.id) :
    (mergeOpenQuestion P current question).id = question.id ∧ ∀ known ∈ current,
        known.importance.rank ≤ (mergeOpenQuestion P current question).importance.rank := by
  cases current with
  | none => simp [mergeOpenQuestion]
  | some known =>
    simp only [mergeOpenQuestion]
    grind

theorem Continues.merge (h : Continues before questions) :
    Continues before (setQuestion questions
      (mergeOpenQuestion P (questions.find? fun known => known.id = question.id) question)) := by
  obtain ⟨hid, hrank⟩ := @mergeOpenQuestion_spec P question
    (questions.find? fun known => known.id = question.id)
    fun known hknown => by simpa using List.find?_some hknown
  generalize hmerged : mergeOpenQuestion P _ question = merged at hid hrank
  unfold setQuestion
  split
  · have hmap : (questions.map fun known => if known.id = merged.id then merged else known).map
        OpenQuestion.id = questions.map OpenQuestion.id := by
      rw [List.map_map]
      exact List.map_congr_left fun known _ => by grind
    refine ⟨hmap ▸ h.nodup, fun old hold => ?_⟩
    obtain ⟨known, hknown, hsame, hle⟩ := h.kept old hold
    refine ⟨_, List.mem_map_of_mem hknown, ?_⟩
    split
    · rename_i heq
      -- ids are unique, so the question found is this one
      have hfound : questions.find? (fun known => known.id = question.id) = some known := by
        rw [← hid, ← heq]
        exact Table.lookup_of_mem h.nodup hknown
      exact ⟨heq ▸ hsame, hle.trans (hrank known hfound)⟩
    · exact ⟨hsame, hle⟩
  · rename_i hnew
    refine ⟨?_, fun old hold => ?_⟩
    · rw [List.map_append, List.nodup_append]
      simpa using ⟨h.nodup, by simpa using hnew⟩
    · obtain ⟨known, hknown, hrest⟩ := h.kept old hold
      exact ⟨known, List.mem_append_left _ hknown, hrest⟩

/-- Distinct ids are entered as they come. -/
theorem foldl_setQuestion (kept : List OpenQuestion)
    (h : ((kept ++ questions).map OpenQuestion.id).Nodup) :
    questions.foldl setQuestion kept = kept ++ questions := by
  induction questions generalizing kept with
  | nil => simp
  | cons question rest ih =>
    have hnew : setQuestion kept question = kept ++ [question] := by
      refine if_neg ?_
      simp only [List.map_append, List.map_cons, List.nodup_append] at h
      simpa using fun known hknown => h.2.2 _ (List.mem_map_of_mem hknown) _ (by simp)
    rw [List.foldl_cons, hnew, ih (kept ++ [question]) (by simpa using h), List.append_assoc]
    rfl

theorem mergedQuestions_continues (h : (before.map OpenQuestion.id).Nodup)
    (members : List WaveMemberProgress) :
    Continues (before.filter fun question =>
      question.id ∉ members.flatMap WaveMemberProgress.resolvedIds)
      (mergedQuestions P before members) := by
  unfold mergedQuestions
  simp only
  have hkept := h.sublist (List.Sublist.map OpenQuestion.id (List.filter_sublist
    (p := fun question => question.id ∉ members.flatMap WaveMemberProgress.resolvedIds)))
  rw [foldl_setQuestion [] hkept]
  generalize before.filter _ = kept at hkept ⊢
  suffices ∀ questions, Continues kept questions →
      Continues kept ((members.flatMap WaveMemberProgress.questions).foldl _ questions) from
    this _ (.refl hkept)
  generalize members.flatMap WaveMemberProgress.questions = asked
  induction asked with
  | nil => exact fun questions hquestions => hquestions
  | cons question rest ih => exact fun questions hquestions => ih _ hquestions.merge

end Questions

/-- What holds after any number of Waves. -/
structure ProgressSnapshot.Consistent (snapshot : ProgressSnapshot) : Prop where
  nodup : (snapshot.openQuestions.map OpenQuestion.id).Nodup
  verified : snapshot.verifiedEvidenceRefs ⊆ snapshot.evidenceRefs

theorem WaveStep.Outcome.questions (h : step.Outcome P) (hbefore : step.before.Consistent) :
    Continues (step.before.openQuestions.filter fun question => question.id ∉ step.resolvedIds P)
      step.after.openQuestions := by
  obtain ⟨hnodup, hkept⟩ := mergedQuestions_continues (P := P) hbefore.nodup (step.members P)
  have hperm := List.perm_insertionSort (OpenQuestion.Precedes P)
    (mergedQuestions P step.before.openQuestions (step.members P))
  rw [h.openQuestions]
  refine ⟨(hperm.map _).nodup_iff.mpr hnodup, fun question hquestion => ?_⟩
  obtain ⟨known, hknown, hrest⟩ := hkept question hquestion
  exact ⟨known, hperm.mem_iff.mpr hknown, hrest⟩

theorem WaveStep.Outcome.consistent (h : step.Outcome P) (hbefore : step.before.Consistent) :
    step.after.Consistent := by
  refine ⟨(h.questions hbefore).nodup, fun reference hreference => h.evidence.mpr ?_⟩
  rcases h.verified.mp hreference with hold | hclaimed
  · exact .inl (hbefore.verified hold)
  · obtain ⟨⟨result, member⟩, hmember, hclaim⟩ := List.mem_flatMap.mp hclaimed
    exact .inr ⟨member, (List.of_mem_zip hmember).2, by simpa using (List.mem_filter.mp hclaim).2⟩

theorem History.consistent (h : History P steps snapshot) : snapshot.Consistent := by
  induction h with
  | empty => exact ⟨List.nodup_nil, fun _ h => h⟩
  | wave h evaluated ih => exact evaluated.outcome.consistent ih

/-- Every Wave of a history was evaluated on a consistent snapshot. -/
theorem History.mem (h : History P steps snapshot) (hstep : step ∈ steps) :
    step.Outcome P ∧ step.before.Consistent := by
  induction h with
  | empty => cases hstep
  | wave h evaluated ih =>
    rcases List.mem_append.mp hstep with hstep | hlast
    · exact ih hstep
    · obtain rfl := List.mem_singleton.mp hlast
      exact ⟨evaluated.outcome, h.consistent⟩

/-- The last `count` Waves made no progress, and the one before them did. -/
def Stalled (P : Platform) (steps : List WaveStep) (count : Nat) : Prop :=
  ∃ earlier later, steps = earlier ++ later ∧ later.length = count ∧
    (∀ step ∈ later, ¬ step.MakesProgress P) ∧
    ∀ step, earlier.getLast? = some step → step.MakesProgress P

theorem History.plateau (h : History P steps snapshot) : Stalled P steps snapshot.plateauCount := by
  induction h with
  | empty => exact ⟨[], [], rfl, rfl, by simp, by simp⟩
  | @wave steps step h evaluated ih =>
    have hcount := evaluated.outcome.plateau
    by_cases hprogress : step.after.lastTurnAddedInformation = true
    · rw [if_pos hprogress] at hcount
      refine ⟨steps ++ [step], [], by simp, hcount.symm, by simp, fun last hlast => ?_⟩
      obtain rfl : step = last := by simpa using hlast
      exact evaluated.outcome.progress_iff.mp hprogress
    · rw [if_neg hprogress] at hcount
      obtain ⟨earlier, later, rfl, hlength, hnone, hlast⟩ := ih
      refine ⟨earlier, later ++ [step], by simp, by simp [hcount, hlength], ?_, hlast⟩
      rw [evaluated.outcome.progress_iff] at hprogress
      simpa [or_imp, forall_and] using ⟨hnone, hprogress⟩

theorem decideDiscussion_goal {input : DecisionInput}
    (h : (decideDiscussion input).reason = some .goalSatisfied) :
    input.progress.goalSatisfied = true := by
  by_contra hgoal
  revert h
  unfold decideDiscussion
  simp only [hgoal, false_and, and_false, if_false]
  split_ifs <;> simp [PolicyDecision.finalize, PolicyDecision.waitHuman, PolicyDecision.proceed]

theorem claimsCompletion_mem {policy : DiscussionPolicy} {members : List WaveMemberProgress}
    {member : WaveMemberProgress} {assessment : AgentAssessment}
    (h : claimsCompletion policy members = true) (hmember : member ∈ members)
    (hsome : member.assessment = some assessment)
    (hstated : assessment.goalSatisfied ≠ none ∨ assessment.confidence ≠ none) :
    assessment.goalSatisfied = some true ∧ ∃ confidence,
      assessment.confidence = some confidence ∧ policy.minimumCompletionConfidence ≤ confidence := by
  unfold claimsCompletion at h
  simp only [decide_eq_true_eq] at h
  have hin : assessment ∈ (members.filterMap WaveMemberProgress.assessment).filter fun assessment =>
      assessment.goalSatisfied.isSome ∨ assessment.confidence.isSome := by
    simp only [List.mem_filter, List.mem_filterMap, decide_eq_true_eq, Option.isSome_iff_ne_none]
    exact ⟨⟨member, hmember, hsome⟩, hstated⟩
  simpa [Option.any_eq_true] using List.all_eq_true.mp h.2 assessment hin

end ConveneWire.Discussion
