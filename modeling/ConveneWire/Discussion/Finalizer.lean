import ConveneWire.Discussion.Guarantees

/-! # Who speaks last

A finalization Turn can only succeed for an Agent whose output the Room may see.
`planFinalization` leaves the others out. A settlement does not: it takes the
reviewer, else the Task's primary, else the first participant, whatever its
output is. -/

namespace ConveneWire.Discussion

open Transactional
open Run (Time MessageId AgentId)

/-- `capabilities.ownerPrivateOutput !== true`. -/
def Env.publishes (env : Env) (agentId : AgentId) : Bool :=
  ¬ (env.getAgent agentId).any Agent.ownerPrivateOutput

/-- The role of a participant in the Task of its Discussion. -/
def Env.taskRole (env : Env) (discussion : DiscussionRecord) (participant : DiscussionParticipant) :
    Option TaskRole :=
  (env.getTask discussion.taskId).bind fun task => (task.assignments.find? fun assignment =>
    assignment.1 = participant.agentId).map Prod.snd

def rankOf (role : ParticipantRole) (taskRole : Option TaskRole) : Nat :=
  if role = .reviewer then 0 else if taskRole = some .primary then 1 else 2

/-- Lower ranks are preferred, and earlier participants within a rank. -/
def Env.rank (env : Env) (discussion : DiscussionRecord) (participant : DiscussionParticipant) :
    Nat :=
  rankOf participant.role (env.taskRole discussion participant)

/-- Some Agent that publishes stands before all that do not. -/
def PublicFirst {α : Type} (rank : α → Nat) (publishes : α → Prop) (members : List α) : Prop :=
  ∃ before member after, members = before ++ member :: after ∧ publishes member ∧
    (∀ other ∈ before, ¬ publishes other → rank member < rank other) ∧
    ∀ other ∈ after, ¬ publishes other → rank member ≤ rank other

/-! ## The choice -/

/-- The first of the lowest rank publishes just if none that does not is ahead of all that do. -/
theorem publishes_iff_publicFirst {α : Type} {rank : α → Nat} {publishes : α → Prop}
    {before after : List α} {chosen : α} (hbefore : ∀ other ∈ before, rank chosen < rank other)
    (hafter : ∀ other ∈ after, rank chosen ≤ rank other) :
    publishes chosen ↔ PublicFirst rank publishes (before ++ chosen :: after) := by
  refine ⟨fun h => ⟨before, chosen, after, rfl, h, fun other hother _ => hbefore other hother,
    fun other hother _ => hafter other hother⟩, ?_⟩
  rintro ⟨before', member, after', heq, hmember, hbefore', hafter'⟩
  by_contra hchosen
  -- the public one is either before or after the chosen one
  rcases List.append_eq_append_iff.mp heq with ⟨rest, rfl, hrest⟩ | ⟨rest, rfl, hrest⟩
  · cases rest with
    | nil =>
      obtain ⟨rfl, -⟩ := List.cons.inj hrest
      exact hchosen hmember
    | cons first rest =>
      obtain ⟨rfl, rfl⟩ := List.cons.inj hrest
      have hlt := hbefore' chosen (by simp) hchosen
      have hle := hafter member (by simp)
      omega
  · cases rest with
    | nil =>
      obtain ⟨rfl, -⟩ := List.cons.inj hrest
      exact hchosen hmember
    | cons first rest =>
      obtain ⟨rfl, rfl⟩ := List.cons.inj hrest
      have hlt := hbefore member (by simp)
      have hle := hafter' chosen (by simp) hchosen
      omega

def ParticipantCandidate.rank (candidate : ParticipantCandidate) : Nat :=
  rankOf candidate.participant.role candidate.taskRole

open ParticipantCandidate (rank OrdinalLe participant)

variable {taskRole : Option TaskRole} {role : ParticipantRole}

theorem rankOf_pos (h : role ≠ .reviewer) : 1 ≤ rankOf role taskRole := by
  rw [rankOf, if_neg h]
  split <;> decide

theorem rankOf_other
    (h : role ≠ .reviewer) (h' : taskRole ≠ some .primary) : rankOf role taskRole = 2 := by
  rw [rankOf, if_neg h, if_neg h']

theorem finalizer_least {first : ParticipantCandidate} {rest : List ParticipantCandidate} :
    ∃ before after, first :: rest = before ++ (finalizer first (first :: rest)).1 :: after ∧
      (∀ other ∈ before, (finalizer first (first :: rest)).1.rank < other.rank) ∧
      ∀ other ∈ after, (finalizer first (first :: rest)).1.rank ≤ other.rank := by
  generalize hall : first :: rest = candidates
  unfold finalizer
  split
  · rename_i reviewer hreviewer
    obtain ⟨hrole, before, after, rfl, hbefore⟩ := List.find?_eq_some_iff_append.mp hreviewer
    have hrank : reviewer.rank = 0 := if_pos (by simpa using hrole)
    refine ⟨before, after, rfl, fun other hother => ?_, fun other _ => ?_⟩
    · exact hrank ▸ rankOf_pos (by simpa using hbefore other hother)
    · exact hrank ▸ Nat.zero_le _
  rename_i hnone
  have hothers : ∀ other ∈ candidates, other.participant.role ≠ .reviewer := by
    simpa using hnone
  split
  · rename_i primary hprimary
    obtain ⟨hrole, before, after, rfl, hbefore⟩ := List.find?_eq_some_iff_append.mp hprimary
    have hrank : primary.rank = 1 := by
      rw [rank, rankOf, if_neg (hothers primary (by simp)),
        if_pos (by simpa using hrole)]
    refine ⟨before, after, rfl, fun other hother => ?_, fun other hother => ?_⟩
    · rw [hrank, rank, rankOf_other (hothers other (by simp [hother]))
        (by simpa using hbefore other hother)]
      omega
    · exact hrank ▸ rankOf_pos (hothers other (by simp [hother]))
  · rename_i hplain
    have hrank : ∀ other ∈ candidates, other.rank = 2 := fun other hother =>
      rankOf_other (hothers other hother) (by simpa using List.find?_eq_none.mp hplain other hother)
    refine ⟨[], rest, hall.symm, nofun, fun other hother => ?_⟩
    rw [hrank first (by simp [← hall]), hrank other (by simp [← hall, hother])]

section

variable {P : Platform} {env : Env} {s : Store} {discussion : DiscussionRecord}
  {participants : List DiscussionParticipant} {selection : ParticipantSelection}

theorem selectDiscussionParticipants_finalizer {candidates : List ParticipantCandidate}
    (h : selectDiscussionParticipants P discussion candidates true = .ok selection) :
    ∃ before chosen after, candidates.insertionSort OrdinalLe =
        before ++ chosen :: after ∧ selection.participants = [chosen.participant] ∧
      (∀ other ∈ before, chosen.rank < other.rank) ∧ ∀ other ∈ after, chosen.rank ≤ other.rank := by
  unfold selectDiscussionParticipants at h
  generalize candidates.insertionSort OrdinalLe = sorted at h ⊢
  cases sorted with
  | nil => cases h
  | cons first rest =>
    obtain ⟨hselected, -⟩ := SnapshotInput.snapshot_ok P h
    obtain ⟨before, after, hall, hbefore, hafter⟩ := @finalizer_least first rest
    exact ⟨before, _, after, hall, hselected, hbefore, hafter⟩

theorem getAgent_of_eligible {participant : DiscussionParticipant}
    (h : participant ∈ eligibleParticipants env discussion participants) :
    ∃ agent, env.getAgent participant.agentId = some agent := by
  unfold eligibleParticipants at h
  split at h
  · split at h
    · obtain ⟨agent, hagent, -⟩ := (Option.any_eq_true _ _).mp (List.mem_filter.mp h).2
      exact ⟨agent, hagent⟩
    · cases h
  · cases h

/-- A finalization is spoken by the first participant of the lowest rank. -/
theorem selectParticipants_finalizer
    (h : selectParticipants P env s discussion participants true = .ok selection) :
    ∃ before chosen after, (eligibleParticipants env discussion participants).insertionSort
        DiscussionParticipant.OrdinalLe = before ++ chosen :: after ∧
      selection.participants = [chosen] ∧
      (∀ other ∈ before, env.rank discussion chosen < env.rank discussion other) ∧
      ∀ other ∈ after, env.rank discussion chosen ≤ env.rank discussion other := by
  obtain ⟨before, chosen, after, hsorted, hselected, hbefore, hafter⟩ :=
    selectDiscussionParticipants_finalizer h
  have hrank : ∀ candidate ∈ before ++ chosen :: after,
      candidate.rank = env.rank discussion candidate.participant := by
    intro candidate hcandidate
    rw [← hsorted, List.mem_insertionSort, List.mem_filterMap] at hcandidate
    obtain ⟨participant, -, hagent⟩ := hcandidate
    obtain ⟨agent, -, rfl⟩ := Option.map_eq_some_iff.mp hagent
    rfl
  refine ⟨before.map (·.participant), chosen.participant, after.map (·.participant), ?_, hselected,
    ?_, ?_⟩
  · have hmap := congrArg (List.map participant) hsorted
    rw [List.map_insertionSort OrdinalLe DiscussionParticipant.OrdinalLe _ _
        (fun _ _ _ _ => Iff.rfl), List.map_filterMap, List.filterMap_congr (g := some), List.filterMap_some] at hmap
    · rw [hmap, List.map_append, List.map_cons]
    intro participant hparticipant
    obtain ⟨agent, hagent⟩ := getAgent_of_eligible hparticipant
    rw [hagent]
    rfl
  · refine List.forall_mem_map.mpr fun candidate hcandidate => ?_
    rw [← hrank chosen (by simp), ← hrank candidate (by simp [hcandidate])]
    exact hbefore candidate hcandidate
  · refine List.forall_mem_map.mpr fun candidate hcandidate => ?_
    rw [← hrank chosen (by simp), ← hrank candidate (by simp [hcandidate])]
    exact hafter candidate hcandidate

/-! ## The two ways to plan a finalization -/

/-- Every Turn of `w'` is one of `w`, or its speaker publishes. -/
def Publishing (env : Env) (w w' : System) : Prop :=
  ∀ turn ∈ w'.store.turns, turn ∈ w.store.turns ∨ env.publishes turn.speakerAgentId

theorem Publishing.of_turns {w w' : System} (h : w'.store.turns = w.store.turns) :
    Publishing env w w' :=
  fun _ hturn => .inl (h ▸ hturn)

theorem Publishing.of_run {w w' : System} (h : Relation.ReflTransGen (Publishing env) w w') :
    Publishing env w w' := by
  induction h with
  | refl => exact .of_turns rfl
  | tail _ hlast ih => exact fun turn hturn => (hlast turn hturn).elim (ih turn) .inr

theorem mem_buildWavePlan {inputMessageId : MessageId} {kind : TurnKind} {now : Time}
    {plan : WavePlan} {turn : DiscussionTurn}
    (h : buildWavePlan P env discussion selection inputMessageId kind now = .ok plan)
    (hturn : turn ∈ plan.turns) :
    ∃ participant ∈ selection.participants, turn.speakerAgentId = participant.agentId := by
  rw [buildWavePlan_ok h] at hturn
  obtain ⟨member, hmember, rfl⟩ := List.mem_map.mp hturn
  exact ⟨member.1, (List.mem_zipIdx hmember).2.2 ▸ List.getElem_mem _, rfl⟩

theorem emits_planFinalization_publishing {w : System} {decision : PolicyDecision}
    {events : List DiscussionBudgetEvent} :
    Steps (Publishing env) w
      (planFinalization P (fun _ _ => pure []) env discussion decision events) := by
  have hcore : ∀ {w : System} {core : Run.Database}, keyedRuns core = keyedRuns w.store.core →
      Publishing env w { w with store := { w.store with core } } := fun _ => .of_turns rfl
  unfold planFinalization
  refine emits_query ?_
  dsimp only
  split
  · refine .bind (emits_appendFallbackConclusion hcore) fun _ t _ _ => ?_
    refine .returning (emits_transact (R := fun _ _ => True) fun u s' h => ⟨.single (.of_turns ?_), trivial⟩)
    unfold Store.recordDecisionAndUpdate at h
    obtain ⟨updated, hupdate, h⟩ := bind_ok h
    cases h
    obtain ⟨_, -, hupdates⟩ := Store.updateDiscussion_ok hupdate fun _ => rfl
    exact hupdates.tables.2.1
  · refine .returning (Q := fun _ _ => True) ?_
    unfold persistWavePlan
    refine emits_query (emits_except fun selection hselect => ?_)
    refine .bind (emits_uniqueWaveAnchor hcore) fun anchor t _ _ => ?_
    refine emits_except fun plan hplan => emits_transact fun u s' h => ⟨.single ?_, trivial⟩
    simp only [Store.recordDecisionAndPlanWave, Store.insertPlan, bind_eq_ok] at h
    obtain ⟨_, -, _, -, updated, hupdate, _, ⟨_, -, _, -, hinsert⟩, h⟩ := h
    cases hinsert
    cases h
    obtain ⟨_, -, hupdates⟩ := Store.updateDiscussion_ok hupdate fun _ => rfl
    intro turn hturn
    rcases List.mem_append.mp hturn with hold | hnew
    · exact .inl (hupdates.tables.2.1 ▸ hold)
    obtain ⟨participant, hparticipant, hspeaker⟩ := mem_buildWavePlan hplan hnew
    have hshared := (selectParticipants_ok hselect).1 participant hparticipant
    rw [hspeaker]
    exact .inr (List.mem_filter.mp hshared).2

end

/-! ## A finalization that cannot succeed -/

/-- The first of the sample Agents keeps its output to its owner. -/
def privateEnv (now call : Nat) : Env :=
  { sampleEnv now call with
    getAgent := fun agentId => if agentId ∈ [1, 2, 3] then
      some { quorumAgent with ownerPrivateOutput := decide (agentId = 1) } else none }

/-- All three are asked, the requester wants to finish, and the deadline passes. -/
def samplePrivate : System :=
  let created := (exec plainPlatform 5 (privateEnv 0 1)
    (.create { sampleRequest with policy := {} }) (System.initial emptyCore)).state
  let finishing := (exec plainPlatform 5 (privateEnv 1000 2)
    (.control sampleId { action := .finish }) created).state
  (exec plainPlatform 5 (privateEnv 1000000000 3) .expireDueWaves finishing).state

end ConveneWire.Discussion
