import Mathlib.Algebra.Order.Ring.Unbundled.Rat
import Mathlib.Data.List.Sort
import ConveneWire.Discussion.Types

/-! # `progress-evaluator.ts`

One settled Wave applied to the progress snapshot. Collation, case folding,
character classes and hashing come from the JavaScript platform and stay
parameters; everything decided from them is defined here. -/

namespace ConveneWire.Discussion

open Run (MessageId)

/-- What the orchestrator takes from the platform. -/
structure Platform where
  /-- `left.localeCompare(right, "en-US")`. -/
  localeCompare : String → String → Ordering
  /-- `value.trim()`. -/
  trim : String → String
  /-- `value.length`, in UTF-16 code units. -/
  utf16Length : String → Nat
  /-- `value.normalize("NFKC").toLocaleLowerCase("en-US")`. -/
  normalized : String → String
  /-- `value.match(/[\p{L}\p{N}]+/gu) ?? []`. -/
  words : String → List String
  /-- `value.replace(/[\p{P}\p{S}\s]+/gu, " ")`. -/
  foldPunctuation : String → String
  /-- `Array.from(value.replace(/[^\p{L}\p{N}]+/gu, ""))`. -/
  lexicalCharacters : String → List Char
  /-- `createHash("sha256").update(value).digest("hex")`. -/
  sha256 : String → String
  /-- The same digest over the canonical JSON of a selection or a seal. -/
  selectionDigest : UnsignedWaveSelection → String
  sealDigest : UnsignedWaveSeal → String
  /-- The fields of a reply's assessment JSON that have the type their name promises; `none` if
  the value is no object. -/
  readAssessment : String → Option AgentAssessment
  /-- `msg_wave_` and `msg_fallback_` followed by the rest of another identifier. -/
  waveResultMessageId : WaveId → MessageId
  fallbackMessageId : DiscussionId → MessageId

variable (P : Platform)

/-- The order `sort` uses with `localeCompare`. -/
def Platform.Precedes (left right : String) : Prop := P.localeCompare left right ≠ .gt

instance : DecidableRel P.Precedes := fun left right =>
  inferInstanceAs (Decidable (P.localeCompare left right ≠ .gt))

def Platform.isBlank (value : String) : Bool := P.trim value = ""

/-! ## Assessments -/

/-- `stringList`: at most 100 nonblank strings of at most 240 code points. -/
def stringList (value : List String) : Option (List String) :=
  if value.length ≤ 100 ∧ value.all fun item => ¬ P.isBlank item ∧ item.length ≤ 240 then
    some value
  else none

def validQuestion (question : OpenQuestion) : Bool :=
  ¬ P.isBlank question.id ∧ question.id.length ≤ 160 ∧ ¬ P.isBlank question.question ∧
    question.question.length ≤ 2000

/-- A field that fails its check is dropped; an assessment without fields is none. -/
def parseAgentAssessment (raw : AgentAssessment) : Option AgentAssessment :=
  let parsed : AgentAssessment := { raw with
    confidence := raw.confidence.filter fun value => 0 ≤ value ∧ value ≤ 1
    resolvedQuestionIds := raw.resolvedQuestionIds.bind (stringList P)
    newEvidenceRefs := raw.newEvidenceRefs.bind (stringList P)
    openQuestions := raw.openQuestions.filter fun questions =>
      questions.length ≤ 50 ∧ questions.all (validQuestion P) }
  if parsed = {} then none else some parsed

def hashDiscussionReply (reply : String) : String :=
  P.sha256 (P.trim (P.foldPunctuation (P.normalized reply)))

/-! ## Lexical similarity -/

/-- The distinct values, in order of first occurrence, as a JavaScript `Set` holds them. -/
def distinct {α : Type} [DecidableEq α] (values : List α) : List α :=
  values.foldl (fun kept value => if value ∈ kept then kept else kept ++ [value]) []

section

variable {α : Type} [DecidableEq α]

theorem foldl_distinct (values kept : List α) (hkept : kept.Nodup) :
    let found := values.foldl (fun kept value => if value ∈ kept then kept else kept ++ [value]) kept
    found.Nodup ∧ ∀ value, value ∈ found ↔ value ∈ kept ∨ value ∈ values := by
  induction values generalizing kept with
  | nil => simpa using hkept
  | cons next rest ih =>
    simp only [List.foldl_cons]
    split
    · rename_i hnext
      obtain ⟨hnodup, hmem⟩ := ih kept hkept
      refine ⟨hnodup, fun value => ?_⟩
      rw [hmem]
      grind
    rename_i hnext
    have hnodup : (kept ++ [next]).Nodup := by
      rw [List.nodup_append]
      simpa using ⟨hkept, fun a ha heq => hnext (heq ▸ ha)⟩
    obtain ⟨hnodup, hmem⟩ := ih _ hnodup
    refine ⟨hnodup, fun value => ?_⟩
    rw [hmem]
    grind

theorem nodup_distinct (values : List α) : (distinct values).Nodup :=
  (foldl_distinct values [] List.nodup_nil).1

theorem mem_distinct {values : List α} {value : α} : value ∈ distinct values ↔ value ∈ values :=
  ((foldl_distinct values [] List.nodup_nil).2 value).trans (by simp)

end

def characterBigrams (characters : List Char) : List (Char × Char) :=
  distinct (characters.zip characters.tail)

def discussionReplySimilarity (left right : String) : Rat :=
  let leftCharacters := P.lexicalCharacters (P.normalized left)
  let rightCharacters := P.lexicalCharacters (P.normalized right)
  let shortestLength := min leftCharacters.length rightCharacters.length
  let longestLength := max leftCharacters.length rightCharacters.length
  if shortestLength < 20 ∨ (shortestLength : Rat) / longestLength < 4 / 5 then 0
  else
    let leftBigrams := characterBigrams leftCharacters
    let rightBigrams := characterBigrams rightCharacters
    let intersection := leftBigrams.countP fun bigram => bigram ∈ rightBigrams
    (2 * intersection : Rat) / (leftBigrams.length + rightBigrams.length : Nat)

/-! ## Evaluating a Wave -/

structure SuccessfulWaveResult where
  participantOrdinal : Nat
  reply : String
  assessment : Option AgentAssessment
  speakerIsReviewer : Bool
  verifiedEvidenceRefs : List String
  deriving DecidableEq, Repr

structure WaveMemberProgress where
  participantOrdinal : Nat
  assessment : Option AgentAssessment
  replyHash : String
  deriving DecidableEq, Repr

structure WaveProgressEvaluation where
  snapshot : ProgressSnapshot
  members : List WaveMemberProgress
  resolvedImportantQuestions : Nat
  newEvidence : Nat
  deriving DecidableEq, Repr

def SuccessfulWaveResult.OrdinalLe (left right : SuccessfulWaveResult) : Prop :=
  left.participantOrdinal ≤ right.participantOrdinal

instance : DecidableRel SuccessfulWaveResult.OrdinalLe := fun left right =>
  inferInstanceAs (Decidable (left.participantOrdinal ≤ right.participantOrdinal))

/-- The first value of a sorted list that occurs again. -/
def firstRepeated : List Nat → Option Nat
  | first :: second :: rest =>
    if first = second then some first else firstRepeated (second :: rest)
  | [_] | [] => none

def sortSuccessfulResults (results : List SuccessfulWaveResult) :
    Except String (List SuccessfulWaveResult) :=
  let sorted := results.insertionSort SuccessfulWaveResult.OrdinalLe
  match firstRepeated (sorted.map SuccessfulWaveResult.participantOrdinal) with
  | some ordinal => .error s!"Duplicate Wave participant ordinal: {ordinal}"
  | none => .ok sorted

def mergeOpenQuestion (current : Option OpenQuestion) (candidate : OpenQuestion) : OpenQuestion :=
  match current with
  | none => candidate
  | some current =>
    if current.importance.rank < candidate.importance.rank then candidate
    else if candidate.importance.rank < current.importance.rank then current
    else if P.localeCompare candidate.question current.question = .lt then candidate
    else current

/-- `Map.set` on the questions by id: in place when the id is there, at the end otherwise. -/
def setQuestion (questions : List OpenQuestion) (question : OpenQuestion) : List OpenQuestion :=
  if questions.any fun known => known.id = question.id then
    questions.map fun known => if known.id = question.id then question else known
  else questions ++ [question]

def OpenQuestion.Precedes (left right : OpenQuestion) : Prop := P.Precedes left.id right.id

instance : DecidableRel (OpenQuestion.Precedes P) := fun left right =>
  inferInstanceAs (Decidable (P.Precedes left.id right.id))

section

variable (member : WaveMemberProgress)

def WaveMemberProgress.resolvedIds : List String :=
  (member.assessment.bind AgentAssessment.resolvedQuestionIds).getD []

def WaveMemberProgress.questions : List OpenQuestion :=
  (member.assessment.bind AgentAssessment.openQuestions).getD []

def WaveMemberProgress.evidenceRefs : List String :=
  (member.assessment.bind AgentAssessment.newEvidenceRefs).getD []

end

/-- `openById`: what stays open, with the members' questions merged in. -/
def mergedQuestions (previous : List OpenQuestion) (members : List WaveMemberProgress) :
    List OpenQuestion :=
  let resolved := members.flatMap WaveMemberProgress.resolvedIds
  let kept := (previous.filter fun question => question.id ∉ resolved).foldl setQuestion []
  (members.flatMap WaveMemberProgress.questions).foldl
    (fun questions question => setQuestion questions
      (mergeOpenQuestion P (questions.find? fun known => known.id = question.id) question)) kept

/-- The highest disagreement reported, the first of equals. -/
def reportedDisagreement (members : List WaveMemberProgress) : Option Disagreement :=
  (members.filterMap fun member => member.assessment.bind AgentAssessment.disagreementRemaining).foldl
    (fun highest current => match highest with
      | none => some current
      | some highest => some (if highest.rank < current.rank then current else highest)) none

def reportedConfidence (members : List WaveMemberProgress) : Option Rat :=
  (members.filterMap fun member => member.assessment.bind AgentAssessment.confidence).foldl
    (fun lowest current => match lowest with
      | none => some current
      | some lowest => some (min lowest current)) none

/-- Some member spoke about completion, and all that did claim it with enough confidence. -/
def claimsCompletion (policy : DiscussionPolicy) (members : List WaveMemberProgress) : Bool :=
  let assessments := (members.filterMap WaveMemberProgress.assessment).filter fun assessment =>
    assessment.goalSatisfied.isSome ∨ assessment.confidence.isSome
  assessments ≠ [] ∧ assessments.all fun assessment => assessment.goalSatisfied = some true ∧
    assessment.confidence.any fun value => policy.minimumCompletionConfidence ≤ value

/-- The loop over replies: the hashes known so far, the replies still compared with, and
whether a novel reply was added. -/
structure Novelty where
  replyHashes : List String
  comparisonReplies : List String
  addedNovelReply : Bool

def Novelty.next (novelty : Novelty) (entry : WaveMemberProgress × SuccessfulWaveResult) :
    Novelty :=
  let (member, result) := entry
  let isExactNovel := member.replyHash ∉ novelty.replyHashes
  let isLexicalNearDuplicate := novelty.comparisonReplies.any fun previousReply =>
    4 / 5 ≤ discussionReplySimilarity P result.reply previousReply
  let claimsNothingNew :=
    member.assessment.bind AgentAssessment.newInformationAdded = some false
  { replyHashes := if isExactNovel then novelty.replyHashes ++ [member.replyHash]
      else novelty.replyHashes
    comparisonReplies := novelty.comparisonReplies ++ [result.reply]
    addedNovelReply := novelty.addedNovelReply ||
      (isExactNovel ∧ ¬ isLexicalNearDuplicate ∧ ¬ claimsNothingNew) }

/-- `list.slice(-n)`. -/
def lastOf {α : Type} (n : Nat) (values : List α) : List α := values.drop (values.length - n)

def evaluateWaveProgress (previous : ProgressSnapshot) (successfulResults : List SuccessfulWaveResult)
    (policy : DiscussionPolicy) (previousReplies : List String) :
    Except String WaveProgressEvaluation := do
  let sortedResults ← sortSuccessfulResults successfulResults
  let members := sortedResults.map fun result : SuccessfulWaveResult =>
    { participantOrdinal := result.participantOrdinal
      assessment := result.assessment.bind (parseAgentAssessment P)
      replyHash := hashDiscussionReply P result.reply : WaveMemberProgress }
  let openById := mergedQuestions P previous.openQuestions members
  let openQuestions := openById.insertionSort (OpenQuestion.Precedes P)
  let resolvedIds := members.flatMap WaveMemberProgress.resolvedIds
  let resolvedQuestions := previous.openQuestions.filter fun question =>
    question.id ∈ resolvedIds ∧ ¬ openById.any fun known => known.id = question.id
  let evidenceRefs := (distinct (previous.evidenceRefs ++
    members.flatMap WaveMemberProgress.evidenceRefs)).insertionSort P.Precedes
  let verifiedBefore := distinct previous.verifiedEvidenceRefs
  let verifiedEvidence := distinct (verifiedBefore ++ (sortedResults.zip members).flatMap
    fun (result, member) => result.verifiedEvidenceRefs.filter fun reference =>
      reference ∈ member.evidenceRefs)
  let disagreementRemaining := (reportedDisagreement members).or previous.disagreementRemaining
  let confidence := (reportedConfidence members).or previous.confidence
  let reviewerOpinions := (sortedResults.zip members).filterMap fun (result, member) =>
    if result.speakerIsReviewer then member.assessment.bind AgentAssessment.reviewerApproved
    else none
  let goalSatisfied : Bool := sortedResults ≠ [] ∧ claimsCompletion policy members ∧
    ¬ openQuestions.any fun question => question.importance = .high
  let novelty := (members.zip sortedResults).foldl (Novelty.next P)
    ⟨previous.replyHashes, lastOf 10 previousReplies, false⟩
  let newEvidence := verifiedEvidence.length - verifiedBefore.length
  let madeProgress : Bool := novelty.addedNovelReply ∨ resolvedQuestions ≠ [] ∨ 0 < newEvidence ∨
    disagreementRemaining ≠ previous.disagreementRemaining
  let reviewProjectionChanged : Bool := madeProgress ∨ openQuestions ≠ previous.openQuestions ∨
    goalSatisfied ≠ previous.goalSatisfied ∨ confidence ≠ previous.confidence
  let reviewerApproved : Bool := if reviewerOpinions ≠ [] then reviewerOpinions.all id
    else if reviewProjectionChanged then false else previous.reviewerApproved
  pure {
    snapshot := {
      version := previous.version + 1
      goalSatisfied, confidence, openQuestions, evidenceRefs
      verifiedEvidenceRefs := verifiedEvidence.insertionSort P.Precedes
      disagreementRemaining, reviewerApproved
      plateauCount := if madeProgress then 0 else previous.plateauCount + 1
      replyHashes := lastOf 50 novelty.replyHashes
      lastTurnAddedInformation := madeProgress }
    members
    resolvedImportantQuestions := resolvedQuestions.countP fun question => question.importance ≠ .low
    newEvidence }

end ConveneWire.Discussion
