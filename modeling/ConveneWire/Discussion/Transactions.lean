import ConveneWire.Discussion.Aggregate

/-! # What the transactions do to each Discussion

One lemma per transaction of the repository: the rows of the Discussion it names
after it, and that the rows of every other Discussion are as before. -/

namespace ConveneWire.Discussion

open Transactional
open Run (Time MessageId RunId)
open Aggregate (ext)
open Table (lookup_key lookup update)

/-- The members of a plan belong to its Wave and to its Discussion. -/
def WavePlan.Linked (plan : WavePlan) : Prop :=
  ∀ turn ∈ plan.turns, turn.discussionId = plan.wave.discussionId ∧ turn.waveId = plan.wave.waveId

namespace Store

variable {s s' s'' : Store} {g : DiscussionWave → DiscussionWave}

/-! ## Identifiers -/

def turnIds (s : Store) : List TurnId := s.turns.map DiscussionTurn.turnId

def waveIds (s : Store) : List WaveId := s.waves.map DiscussionWave.waveId

def discussionIds (s : Store) : List DiscussionId :=
  s.discussions.map DiscussionRecord.discussionId

/-- Identifiers name one row each, and a Turn belongs to the Discussion of its Wave. -/
structure WellFormed (s : Store) : Prop where
  turnIds : s.turnIds.Nodup
  waveIds : s.waveIds.Nodup
  discussionIds : s.discussionIds.Nodup
  linked : ∀ turn ∈ s.turns, ∃ wave ∈ s.waves,
    wave.waveId = turn.waveId ∧ wave.discussionId = turn.discussionId

/-- Rows of Turns and Waves are added, never taken away. -/
structure Grows (s s' : Store) : Prop where
  turnIds : ∃ new, s'.turnIds = s.turnIds ++ new
  wellFormed : s.WellFormed → s'.WellFormed

theorem Grows.trans (h : Grows s s') (h' : Grows s' s'') : Grows s s'' := by
  obtain ⟨new, hnew⟩ := h.turnIds
  obtain ⟨more, hmore⟩ := h'.turnIds
  exact ⟨⟨new ++ more, by rw [hmore, hnew, List.append_assoc]⟩, h'.wellFormed ∘ h.wellFormed⟩

theorem grows_of_eq (hturns : s'.turns = s.turns) (hwaves : s'.waves = s.waves)
    (hdiscussions : s.discussionIds.Nodup → s'.discussionIds.Nodup) : Grows s s' := by
  refine ⟨⟨[], by simp [turnIds, hturns]⟩, fun h => ⟨?_, ?_, hdiscussions h.discussionIds, ?_⟩⟩
  · simpa [turnIds, hturns] using h.turnIds
  · simpa [waveIds, hwaves] using h.waveIds
  · rw [hturns, hwaves]
    exact h.linked

/-- Moving rows keeps their identifiers. -/
theorem grows_of_map {f : DiscussionTurn → DiscussionTurn}
    (hturns : s'.turns = s.turns.map f) (hwaves : s'.waves = s.waves.map g)
    (hdiscussions : s'.discussions = s.discussions)
    (hf : ∀ turn, (f turn).turnId = turn.turnId ∧ (f turn).waveId = turn.waveId ∧
      (f turn).discussionId = turn.discussionId)
    (hg : ∀ wave, (g wave).waveId = wave.waveId ∧ (g wave).discussionId = wave.discussionId) :
    Grows s s' := by
  have hturnIds : s'.turnIds = s.turnIds := by
    simp only [turnIds, hturns, List.map_map]
    exact List.map_congr_left fun turn _ => (hf turn).1
  have hwaveIds : s'.waveIds = s.waveIds := by
    simp only [waveIds, hwaves, List.map_map]
    exact List.map_congr_left fun wave _ => (hg wave).1
  refine ⟨⟨[], by simp [hturnIds]⟩, fun h => ⟨hturnIds ▸ h.turnIds, hwaveIds ▸ h.waveIds,
    by simpa [discussionIds, hdiscussions] using h.discussionIds, ?_⟩⟩
  intro turn' hturn'
  rw [hturns] at hturn'
  obtain ⟨turn, hturn, rfl⟩ := List.mem_map.mp hturn'
  obtain ⟨wave, hwave, hid, hdiscussion⟩ := h.linked turn hturn
  refine ⟨g wave, hwaves ▸ List.mem_map_of_mem hwave, ?_, ?_⟩
  · rw [(hg wave).1, (hf turn).2.1, hid]
  · rw [(hg wave).2, (hf turn).2.2, hdiscussion]

variable {P : Platform} {discussionId : DiscussionId} {expectedVersion : Nat} {input : CloseInput}
  {now : Time} {plan : WavePlan} {record : DiscussionRecord} {turn : DiscussionTurn} {u : Unit}
  {wave : DiscussionWave} {events : List DiscussionBudgetEvent}
  {f : DiscussionRecord → DiscussionRecord} {p : DiscussionTurn → Prop} {outcome : TurnOutcome}

/-- The Wave of a stored Turn belongs to the Turn's Discussion. -/
theorem WellFormed.wave_discussion (h : s.WellFormed) (hturn : turn ∈ s.turns)
    (hwave : s.getWave turn.waveId = some wave) : wave.discussionId = turn.discussionId := by
  obtain ⟨linked, hlinked, hid, hdiscussion⟩ := h.linked turn hturn
  have hmem := List.mem_of_find?_eq_some hwave
  have hkey : wave.waveId = turn.waveId := lookup_key hwave
  rw [← List.inj_on_of_nodup_map h.waveIds hlinked hmem (hid.trans hkey.symm), hdiscussion]

theorem WellFormed.get_of_mem (h : s.WellFormed) (hrecord : record ∈ s.discussions) :
    s.get record.discussionId = some record := by
  cases hget : s.get record.discussionId with
  | none =>
    simp only [get, lookup, List.find?_eq_none, decide_eq_true_eq] at hget
    exact absurd rfl (hget record hrecord)
  | some found =>
    rw [List.inj_on_of_nodup_map h.discussionIds (List.mem_of_find?_eq_some hget) hrecord
      (lookup_key hget)]

/-! ## Turns -/

/-- An update of rows that touches only unsettled Turns and the state of no Wave. -/
theorem rows_update [DecidablePred p] {q : DiscussionWave → Prop} [DecidablePred q]
    {f : DiscussionTurn → DiscussionTurn}
    (hf : ∀ turn, (f turn).turnId = turn.turnId ∧ (f turn).waveId = turn.waveId ∧
      (f turn).discussionId = turn.discussionId)
    (hg : ∀ wave, (g wave).waveId = wave.waveId ∧ (g wave).discussionId = wave.discussionId ∧
      (g wave).state = wave.state)
    (hturns : ∀ turn, p turn → TurnMoves turn (f turn))
    (hwaves : ∀ wave, q wave → WaveMoves wave (g wave)) :
    let s' : Store := { s with turns := update p f s.turns, waves := update q g s.waves }
    Grows s s' ∧ ∀ (excused : Prop) discussionId,
      Aggregate.Step excused (s.aggregate discussionId) (s'.aggregate discussionId) := by
  refine ⟨grows_of_map (f := fun turn => if p turn then f turn else turn)
    (g := fun wave => if q wave then g wave else wave) rfl rfl rfl (fun turn => ?_) (fun wave => ?_),
    fun excused discussionId => ?_⟩
  · split
    · exact hf turn
    · exact ⟨rfl, rfl, rfl⟩
  · split
    · exact ⟨(hg wave).1, (hg wave).2.1⟩
    · exact ⟨rfl, rfl⟩
  have hrows : ({ s with turns := update p f s.turns, waves := update q g s.waves } :
      Store).aggregate discussionId = { s.aggregate discussionId with
        turns := update p f (s.aggregate discussionId).turns
        waves := update q g (s.aggregate discussionId).waves } :=
    ext rfl (Table.select_update fun wave => (hg wave).2.1)
      (Table.select_update fun turn => (hf turn).2.2) rfl
  rw [hrows]
  refine .rows (fun turn _ => ?_) (fun wave _ => ?_) (.inl fun wave _ => ?_)
  · split
    · exact hturns turn ‹_›
    · exact .refl turn
  · split
    · exact hwaves wave ‹_›
    · exact .refl wave
  · split
    · exact (hg wave).2.2
    · rfl

theorem unsettled_moves {turn' : DiscussionTurn} (h : turn.state.isTerminal = false)
    (hsame : turn'.turnId = turn.turnId ∧ turn'.discussionId = turn.discussionId ∧
      turn'.ordinal = turn.ordinal ∧ turn'.waveId = turn.waveId ∧
      turn'.speakerAgentId = turn.speakerAgentId) : TurnMoves turn turn' :=
  ⟨hsame.1, hsame.2.1, hsame.2.2.1, hsame.2.2.2.1, hsame.2.2.2.2, fun hterminal => by
    rw [h] at hterminal
    cases hterminal⟩

theorem unbound_unsettled (h : turn.isUnbound) : turn.state.isTerminal = false := by
  simp only [DiscussionTurn.isUnbound, decide_eq_true_eq] at h
  rw [h.2]
  rfl

/-- What an update of the Turn table leaves as it was. -/
structure OnlyTurns (s s' : Store) : Prop where
  core : s'.core = s.core
  discussions : s'.discussions = s.discussions
  waves : s'.waves = s.waves
  grows : Grows s s'
  steps : ∀ (excused : Prop) discussionId,
    Aggregate.Step excused (s.aggregate discussionId) (s'.aggregate discussionId)

theorem onlyTurns_update {p : DiscussionTurn → Prop} [DecidablePred p]
    {f : DiscussionTurn → DiscussionTurn}
    (hids : ∀ turn, (f turn).turnId = turn.turnId ∧ (f turn).waveId = turn.waveId ∧
      (f turn).discussionId = turn.discussionId)
    (hmoves : ∀ turn, p turn → TurnMoves turn (f turn)) :
    OnlyTurns s { s with turns := update p f s.turns } := by
  have hrows := rows_update (s := s) (g := id) (q := fun _ => False) hids (fun _ => ⟨rfl, rfl, rfl⟩)
    hmoves nofun
  rw [Table.update_eq_self fun _ _ => id] at hrows
  exact ⟨rfl, rfl, rfl, hrows.1, hrows.2⟩

variable {turnId : TurnId} {waveId : WaveId}

theorem onlyTurns_settleTurn : OnlyTurns s (s.settleTurn turnId outcome now) :=
  onlyTurns_update (fun _ => ⟨rfl, rfl, rfl⟩) fun turn h =>
    unsettled_moves (by simpa using h.2) ⟨rfl, rfl, rfl, rfl, rfl⟩

theorem onlyTurns_awaitDisclosure : OnlyTurns s (s.awaitDisclosure turnId now) :=
  onlyTurns_update (fun _ => ⟨rfl, rfl, rfl⟩) fun turn h =>
    unsettled_moves (by simp at h; exact h.2.1) ⟨rfl, rfl, rfl, rfl, rfl⟩

theorem onlyTurns_bindTurnRun {runId : RunId} {state : TurnState}
    (h : bindTurnRun turnId runId state now s = .ok (u, s')) : OnlyTurns s s' := by
  unfold bindTurnRun at h
  obtain ⟨_, -, h⟩ := bind_ok h
  cases h
  exact onlyTurns_update (fun _ => ⟨rfl, rfl, rfl⟩) fun turn h =>
    unsettled_moves (unbound_unsettled h.2) ⟨rfl, rfl, rfl, rfl, rfl⟩

/-! ## Waves -/

theorem step_reanchorPlannedWave {inputMessageId : MessageId}
    (h : reanchorPlannedWave waveId inputMessageId now s = .ok (u, s')) :
    s'.core = s.core ∧ Grows s s' ∧ ∀ (excused : Prop) discussionId,
      Aggregate.Step excused (s.aggregate discussionId) (s'.aggregate discussionId) := by
  unfold reanchorPlannedWave at h
  split at h
  · cases h
  obtain ⟨_, -, h⟩ := bind_ok h
  cases h
  refine ⟨rfl, rows_update (fun _ => ⟨rfl, rfl, rfl⟩) (fun _ => ⟨rfl, rfl, rfl⟩)
    (fun turn hplanned => unsettled_moves (unbound_unsettled hplanned.2) ⟨rfl, rfl, rfl, rfl, rfl⟩)
    fun wave hwave => ?_⟩
  exact ⟨rfl, rfl, rfl, rfl, fun hclosed => absurd hwave.2.2 hclosed⟩

/-- How a Wave row is closed. -/
def closing (input : CloseInput) (wave : DiscussionWave) : DiscussionWave :=
  if wave.waveId = input.waveId ∧ wave.discussionId = input.discussionId ∧ wave.state = .opened then
    wave.close input.state input.closedAt else wave

theorem map_closing {waves : List DiscussionWave} : waves.map (closing input) =
    update (fun wave => wave.waveId = input.waveId ∧ wave.discussionId = input.discussionId ∧
      wave.state = .opened) (DiscussionWave.close input.state input.closedAt) waves :=
  rfl

theorem closing_moves (input : CloseInput) (wave : DiscussionWave) :
    WaveMoves wave (closing input wave) := by
  unfold closing
  split
  · rename_i h
    exact ⟨rfl, rfl, rfl, rfl, fun hclosed => absurd h.2.2 hclosed⟩
  · exact .refl wave

/-- What `closeReadyWaveRow` found and wrote. -/
structure Closes (s : Store) (input : CloseInput) (wave : DiscussionWave) (s' : Store) : Prop where
  found : s.getWave input.waveId = some wave
  discussion : wave.discussionId = input.discussionId
  opened : wave.state = .opened
  writes : s' = { s with waves := s.waves.map (closing input) }

theorem closeReadyWaveRow_some (h : s.closeReadyWaveRow input = some s') :
    ∃ wave, Closes s input wave s' := by
  unfold closeReadyWaveRow at h
  split at h
  · cases h
  rename_i wave hwave
  simp only at h
  split at h
  · rename_i hguard
    exact ⟨wave, hwave, hguard.1, hguard.2.1, (Option.some.inj h).symm⟩
  · cases h

section

variable (h : Closes s input wave s')
include h

theorem Closes.member : wave ∈ (s.aggregate input.discussionId).waves :=
  List.mem_filter.mpr ⟨List.mem_of_find?_eq_some h.found, by simp [h.discussion]⟩

theorem Closes.closed (hstate : input.state ≠ .opened) : (closing input wave).state ≠ .opened := by
  have hid : wave.waveId = input.waveId := lookup_key h.found
  simpa [closing, hid, h.discussion, h.opened, DiscussionWave.close] using hstate

theorem Closes.grows : Grows s s' := by
  rw [h.writes]
  exact grows_of_map (f := id) (g := closing input) (List.map_id _).symm rfl rfl
    (fun _ => ⟨rfl, rfl, rfl⟩) fun other =>
      ⟨(closing_moves input other).waveId, (closing_moves input other).discussionId⟩

theorem Closes.aggregate_self :
    s'.aggregate input.discussionId = { s.aggregate input.discussionId with
      waves := (s.aggregate input.discussionId).waves.map (closing input) } := by
  rw [h.writes, map_closing, map_closing]
  exact ext rfl (Table.select_update fun _ => rfl) rfl rfl

end

variable {other : DiscussionId} {guard : DiscussionRecord → Bool} {message : String}

theorem Closes.aggregate_ne (h : Closes s input wave s') (hne : other ≠ input.discussionId) :
    s'.aggregate other = s.aggregate other := by
  rw [h.writes, map_closing]
  exact ext rfl (Table.select_update_ne (fun _ => rfl) fun row hrow hp => hne (hrow ▸ hp.2.1)) rfl
    rfl

/-! ## The row of a Discussion -/

/-- A transaction on one Discussion: its rows afterwards, and what it leaves alone. -/
structure Writes (s : Store) (discussionId : DiscussionId) (after : Aggregate) (s' : Store) : Prop where
  core : s'.core = s.core
  self : s'.aggregate discussionId = after
  others : ∀ other, other ≠ discussionId → s'.aggregate other = s.aggregate other
  grows : Grows s s'

/-- Its rows changed by `f`. -/
abbrev Changes (s : Store) (discussionId : DiscussionId) (f : Aggregate → Aggregate) (s' : Store) :
    Prop :=
  Writes s discussionId (f (s.aggregate discussionId)) s'

theorem Writes.trans {between after last : Aggregate} (h : Writes s discussionId between s')
    (h' : Writes s' discussionId last s'')
    (hlast : s'.aggregate discussionId = between → last = after) :
    Writes s discussionId after s'' :=
  ⟨h'.core.trans h.core, h'.self.trans (hlast h.self),
    fun other hne => (h'.others other hne).trans (h.others other hne), h.grows.trans h'.grows⟩

theorem Closes.toWrites (h : Closes s input wave s') :
    Changes s input.discussionId (fun a => { a with waves := a.waves.map (closing input) }) s' :=
  ⟨by rw [h.writes], h.aggregate_self, fun _ => h.aggregate_ne, h.grows⟩

/-- What `updateDiscussion` found and wrote. -/
structure Updates (s : Store) (discussionId : DiscussionId) (record : DiscussionRecord)
    (f : DiscussionRecord → DiscussionRecord) (s' : Store) : Prop where
  found : s.get discussionId = some record
  self : s'.get discussionId = some (f record)
  others : ∀ other, other ≠ discussionId → s'.get other = s.get other
  ids : s'.discussionIds = s.discussionIds
  writes : s' = { s with discussions := s'.discussions }

theorem updateDiscussion_ok (h : s.updateDiscussion discussionId guard f message = .ok s')
    (hkey : ∀ row, (f row).discussionId = row.discussionId) :
    ∃ record, guard record ∧ Updates s discussionId record f s' := by
  unfold updateDiscussion at h
  obtain ⟨_, hrequire, h⟩ := bind_ok h
  have hany := require_ok hrequire
  cases hget : s.get discussionId with
  | none => simp [hget] at hany
  | some record =>
    have hguard : guard record = true := by simpa [hget] using hany
    have hid : record.discussionId = discussionId := lookup_key hget
    cases h
    refine ⟨record, hguard, hget, ?_, fun other hne => ?_, ?_, rfl⟩
    · have hlookup : lookup DiscussionRecord.discussionId discussionId (update
          (fun row => row.discussionId = discussionId ∧ guard row) f s.discussions) = _ :=
        Table.lookup_update hkey
      rw [show lookup DiscussionRecord.discussionId discussionId s.discussions = some record
        from hget] at hlookup
      simp only [Option.map_some, hid, hguard, and_self, if_true] at hlookup
      exact hlookup
    · exact Table.lookup_update_ne hkey fun row hrow hp => hne (hrow ▸ hp.1)
    · simp only [discussionIds, update, List.map_map]
      refine List.map_congr_left fun row _ => ?_
      simp only [Function.comp]
      split
      · exact hkey row
      · rfl

variable {discussionId : DiscussionId} {update : AggregateUpdate} {next : Option WavePlan}
  {input : ApplyInput} {P : Platform}

theorem writes_insertEvents (hown : ∀ event ∈ events, event.discussionId = discussionId) :
    Changes s discussionId (fun a => { a with budgetEvents := a.budgetEvents ++ events })
      (s.insertBudgetEvents events) where
  core := rfl
  self := ext rfl rfl rfl (Table.select_append_all hown)
  others _ hne := ext rfl rfl rfl (Table.select_append_none fun event hevent heq =>
    hne (heq ▸ hown event hevent))
  grows := grows_of_eq rfl rfl id

theorem writes_insertDecision {decision : DiscussionDecision} :
    Writes s discussionId (s.aggregate discussionId) (s.insertDecision decision) :=
  ⟨rfl, rfl, fun _ _ => rfl, grows_of_eq rfl rfl id⟩

section

variable (h : Updates s discussionId record f s')
include h

theorem Updates.aggregate_self :
    s'.aggregate discussionId = { s.aggregate discussionId with record := some (f record) } := by
  rw [h.writes]
  exact ext h.self rfl rfl rfl

theorem Updates.aggregate_ne (hne : other ≠ discussionId) :
    s'.aggregate other = s.aggregate other := by
  have hget := h.others other hne
  rw [h.writes]
  exact ext hget rfl rfl rfl

theorem Updates.tables : s'.core = s.core ∧ s'.turns = s.turns ∧ s'.waves = s.waves := by
  rw [h.writes]
  exact ⟨rfl, rfl, rfl⟩

theorem Updates.toWrites :
    Writes s discussionId { s.aggregate discussionId with record := some (f record) } s' :=
  ⟨h.tables.1, h.aggregate_self, fun _ => h.aggregate_ne,
    grows_of_eq h.tables.2.1 h.tables.2.2 fun hnodup => h.ids ▸ hnodup⟩

end

theorem recordDecisionAndUpdate_ok {terminalAt : Option Time}
    (hown : ∀ event ∈ update.budgetEvents, event.discussionId = update.decision.discussionId)
    (h : recordDecisionAndUpdate update terminalAt s = .ok (u, s')) :
    ∃ record, s.get update.decision.discussionId = some record ∧
      record.version = update.expectedVersion ∧
      Changes s update.decision.discussionId (fun a => { a with
        record := some { update.apply record with terminalAt }
        budgetEvents := a.budgetEvents ++ update.budgetEvents }) s' := by
  unfold recordDecisionAndUpdate at h
  obtain ⟨updated, hupdate, h⟩ := bind_ok h
  cases h
  obtain ⟨record, hguard, hupdates⟩ := updateDiscussion_ok hupdate fun _ => rfl
  have hwrites := writes_insertDecision.trans hupdates.toWrites fun _ => rfl
  exact ⟨record, hupdates.found, by simpa using hguard,
    hwrites.trans (writes_insertEvents hown) fun h => by rw [h]; rfl⟩

/-- A transaction that writes the row alone. -/
theorem updateRow_ok (h : (do
      let updated ← s.updateDiscussion discussionId guard f message
      pure ((), updated)) = Except.ok (u, s'))
    (hkey : ∀ row, (f row).discussionId = row.discussionId) :
    ∃ record, s.get discussionId = some record ∧
      Writes s discussionId { s.aggregate discussionId with record := some (f record) } s' := by
  obtain ⟨updated, hupdate, h⟩ := bind_ok h
  cases h
  obtain ⟨record, -, hupdates⟩ := updateDiscussion_ok hupdate hkey
  exact ⟨record, hupdates.found, hupdates.toWrites⟩

/-! ## Plans -/

theorem insertPlan_grows (hmembers : plan.Linked) (h : s.insertPlan plan = .ok s') :
    s' = { s with waves := s.waves ++ [plan.wave], turns := s.turns ++ plan.turns } ∧
      Grows s s' := by
  unfold insertPlan at h
  obtain ⟨_, hwave, h⟩ := bind_ok h
  obtain ⟨_, hrequire, h⟩ := bind_ok h
  obtain ⟨hnew, hnodup⟩ := require_ok hrequire
  cases h
  refine ⟨rfl, ⟨plan.turns.map DiscussionTurn.turnId, by simp [turnIds]⟩,
    fun hold => ⟨?_, ?_, hold.discussionIds, ?_⟩⟩
  · simp only [turnIds, List.map_append]
    refine List.nodup_append.mpr ⟨hold.turnIds, hnodup, ?_⟩
    rintro turnId hmem other hother rfl
    obtain ⟨turn, hturn, rfl⟩ := List.mem_map.mp hmem
    obtain ⟨planned, hplanned, heq⟩ := List.mem_map.mp hother
    have hnone := List.all_eq_true.mp hnew planned hplanned
    simp only [decide_eq_true_eq, getTurn, lookup, List.find?_eq_none] at hnone
    exact hnone turn hturn (by simp [heq])
  · have hnone := require_ok hwave
    simp only [getWave, lookup, List.find?_eq_none] at hnone
    simp only [waveIds, List.map_append, List.map_cons, List.map_nil]
    refine List.nodup_append.mpr ⟨hold.waveIds, by simp, ?_⟩
    rintro waveId hmem other hother rfl
    obtain ⟨wave, hwave, rfl⟩ := List.mem_map.mp hmem
    exact hnone wave hwave (by simpa using List.mem_singleton.mp hother)
  · intro turn hturn
    rcases List.mem_append.mp hturn with hturn | hturn
    · obtain ⟨wave, hwave, hlink⟩ := hold.linked turn hturn
      exact ⟨wave, List.mem_append_left _ hwave, hlink⟩
    · obtain ⟨hdiscussion, hid⟩ := hmembers turn hturn
      exact ⟨plan.wave, by simp, hid.symm, hdiscussion.symm⟩

theorem insertPlan_ok (hwave : plan.wave.discussionId = discussionId)
    (hmembers : plan.Linked) (h : s.insertPlan plan = .ok s') :
    Changes s discussionId (fun a => { a with
      waves := a.waves ++ [plan.wave], turns := a.turns ++ plan.turns }) s' := by
  subst hwave
  obtain ⟨rfl, hgrows⟩ := insertPlan_grows hmembers h
  refine ⟨rfl, ?_, fun other hne => ?_, hgrows⟩
  · exact ext rfl (Table.select_append_self rfl)
      (Table.select_append_all fun turn hturn => (hmembers turn hturn).1) rfl
  · exact ext rfl (Table.select_append_ne hne.symm) (Table.select_append_none
      fun turn hturn heq => hne (heq ▸ (hmembers turn hturn).1)) rfl

theorem validateWavePlan_members (h : s.validateWavePlan P plan = .ok u) : plan.Linked := by
  simp only [validateWavePlan, bind_eq_ok, require_eq_ok] at h
  obtain ⟨_, -, _, -, _, -, _, -, _, -, _, -, hmembers, -⟩ := h
  intro turn hturn
  have hmember := List.all_eq_true.mp hmembers turn hturn
  simp only [DiscussionTurn.isPlannedMember, decide_eq_true_eq] at hmember
  exact ⟨hmember.1, hmember.2.1⟩

theorem recordDecisionAndPlanWave_ok
    (hown : ∀ event ∈ update.budgetEvents, event.discussionId = update.decision.discussionId)
    (h : recordDecisionAndPlanWave P update plan s = .ok (u, s')) :
    ∃ record, s.get update.decision.discussionId = some record ∧
      record.version = update.expectedVersion ∧
      Changes s update.decision.discussionId (fun a => ⟨some ((update.apply record).moveTo plan),
        a.waves ++ [plan.wave], a.turns ++ plan.turns,
        a.budgetEvents ++ update.budgetEvents⟩) s' := by
  unfold recordDecisionAndPlanWave at h
  obtain ⟨_, hvalid, h⟩ := bind_ok h
  obtain ⟨_, htarget, h⟩ := bind_ok h
  obtain ⟨updated, hupdate, h⟩ := bind_ok h
  obtain ⟨planned, hplan, h⟩ := bind_ok h
  cases h
  have hplanned := insertPlan_ok (require_ok htarget).symm (validateWavePlan_members hvalid) hplan
  obtain ⟨record, hguard, hupdates⟩ := updateDiscussion_ok hupdate fun _ => rfl
  have hwrites := (writes_insertDecision.trans hupdates.toWrites fun _ => rfl).trans hplanned
    fun h => by rw [h]
  simp only [decide_eq_true_eq] at hguard
  exact ⟨record, hupdates.found, hguard.1,
    hwrites.trans (writes_insertEvents hown) fun h => by rw [h]; rfl⟩

/-! ## Closing a Wave with its Discussion -/

/-- What `closeReadyWaveAndApply` closes. -/
def ApplyInput.close (input : ApplyInput) : CloseInput :=
  ⟨input.waveId, input.update.decision.discussionId, input.closeState, input.closedAt,
    input.expectedWaveVersion, input.quorumSeal.isSome⟩

/-- The row it writes. -/
def ApplyInput.row (input : ApplyInput) (record : DiscussionRecord) : DiscussionRecord :=
  let row := { input.update.apply record with terminalAt := input.terminalAt }
  match input.nextWave with
  | none => row
  | some plan => row.moveTo plan

theorem checkNextWave_ok {u : Unit} (h : s.checkNextWave P discussionId next = .ok u) :
    ∀ plan, next = some plan → plan.wave.discussionId = discussionId ∧ plan.Linked := by
  rintro plan rfl
  unfold checkNextWave at h
  obtain ⟨_, hvalid, h⟩ := bind_ok h
  exact ⟨require_ok h, validateWavePlan_members hvalid⟩

/-- Inserting the next Wave, if there is one. -/
theorem insertNextWave_ok {discussionId : DiscussionId}
    (hown : ∀ plan, next = some plan → plan.wave.discussionId = discussionId ∧ plan.Linked)
    (h : s.insertNextWave next = .ok s') :
    Changes s discussionId (fun a => { a with
      waves := a.waves ++ WavePlan.waves next
      turns := a.turns ++ WavePlan.members next }) s' := by
  cases next with
  | none =>
    cases h
    refine ⟨rfl, ?_, fun _ _ => rfl, grows_of_eq rfl rfl id⟩
    simp [WavePlan.waves, WavePlan.members]
  | some plan =>
    obtain ⟨hwave, hmembers⟩ := hown plan rfl
    simpa [WavePlan.waves, WavePlan.members] using insertPlan_ok hwave hmembers h

theorem insertOptionalSeal_ok {candidate : Option DiscussionWaveSeal}
    (h : s.insertOptionalSeal candidate = .ok s') : s' = { s with seals := s'.seals } := by
  cases candidate with
  | none =>
    cases h
    rfl
  | some candidate =>
    unfold insertOptionalSeal insertWaveSeal at h
    obtain ⟨_, -, h⟩ := bind_ok h
    cases h
    rfl

theorem applyClosed_ok (hown : ∀ event ∈ input.update.budgetEvents,
      event.discussionId = input.update.decision.discussionId)
    (hnext : ∀ plan, input.nextWave = some plan →
      plan.wave.discussionId = input.update.decision.discussionId ∧ plan.Linked)
    (h : applyClosed input s = .ok s') :
    ∃ record, s.get input.update.decision.discussionId = some record ∧
      record.version = input.update.expectedVersion ∧
      Changes s input.update.decision.discussionId (fun a => ⟨some (input.row record),
        a.waves ++ WavePlan.waves input.nextWave, a.turns ++ WavePlan.members input.nextWave,
        a.budgetEvents ++ input.update.budgetEvents⟩) s' := by
  unfold applyClosed at h
  obtain ⟨sealed, hseal, h⟩ := bind_ok h
  obtain ⟨updated, hupdate, h⟩ := bind_ok h
  obtain ⟨planned, hplan, h⟩ := bind_ok h
  cases h
  have hsealed := insertOptionalSeal_ok hseal
  rw [hsealed] at hupdate
  obtain ⟨record, hguard, hupdates⟩ := updateDiscussion_ok hupdate fun row => by
    cases input.nextWave <;> rfl
  have hwrites := insertNextWave_ok hnext hplan
  have hsealed : Writes s input.update.decision.discussionId
      (s.aggregate input.update.decision.discussionId)
      ({ s with seals := sealed.seals }.insertDecision input.update.decision) :=
    ⟨rfl, rfl, fun _ _ => rfl, grows_of_eq rfl rfl id⟩
  have hwrites := (hsealed.trans hupdates.toWrites fun _ => rfl).trans hwrites fun h => by rw [h]
  exact ⟨record, hupdates.found, by simpa using hguard,
    hwrites.trans (writes_insertEvents hown) fun h => by rw [h]; rfl⟩

/-- `closeReadyWaveAndApply` either does nothing or closes the current Wave and moves on. -/
theorem closeReadyWaveAndApply_ok {applied : Bool} (hown : ∀ event ∈ input.update.budgetEvents,
      event.discussionId = input.update.decision.discussionId)
    (h : closeReadyWaveAndApply P input s = .ok (applied, s')) :
    (applied = false ∧ s' = s) ∨ ∃ record wave, applied = true ∧
      s.get input.update.decision.discussionId = some record ∧
      record.version = input.update.expectedVersion ∧
      s.getWave input.waveId = some wave ∧ wave.state = .opened ∧
      record.currentWave = wave.ordinal ∧
      wave ∈ (s.aggregate input.update.decision.discussionId).waves ∧
      (input.closeState ≠ .opened → (closing input.close wave).state ≠ .opened) ∧
      Changes s input.update.decision.discussionId (fun a => ⟨some (input.row record),
        a.waves.map (closing input.close) ++ WavePlan.waves input.nextWave,
        a.turns ++ WavePlan.members input.nextWave,
        a.budgetEvents ++ input.update.budgetEvents⟩) s' := by
  unfold closeReadyWaveAndApply at h
  obtain ⟨_, hcheck, h⟩ := bind_ok h
  obtain ⟨_, -, h⟩ := bind_ok h
  split at h
  · rename_i hawaits
    split at h
    · cases h
      exact .inl ⟨rfl, rfl⟩
    rename_i closed hclosed
    obtain ⟨result, hresult, h⟩ := bind_ok h
    cases h
    obtain ⟨wave, hcloses⟩ := closeReadyWaveRow_some hclosed
    obtain ⟨record, hrecord, hversion, hwrites⟩ :=
      applyClosed_ok hown (checkNextWave_ok hcheck) hresult
    have hget : closed.get input.update.decision.discussionId =
        s.get input.update.decision.discussionId := by rw [hcloses.writes]; rfl
    rw [hget] at hrecord
    have hcurrent : record.currentWave = wave.ordinal := by
      have hfound : s.getWave input.waveId = some wave := hcloses.found
      simp only [awaitsApply, hrecord, hfound, Option.any_some, decide_eq_true_eq] at hawaits
      exact hawaits.2.2.1
    exact .inr ⟨record, wave, rfl, hrecord, hversion, hcloses.found, hcloses.opened, hcurrent,
      hcloses.member, hcloses.closed, hcloses.toWrites.trans hwrites fun h => by rw [h]; rfl⟩
  · cases h
    exact .inl ⟨rfl, rfl⟩

/-- What `closeWave` does: nothing, or the Wave's row is closed. -/
theorem closeWave_ok {state : WaveState} {closed : Bool}
    (h : closeWave waveId expectedVersion state now s = .ok (closed, s')) :
    s' = s ∨ ∃ input wave, input.waveId = waveId ∧ Closes s input wave s' := by
  unfold closeWave at h
  split at h
  · cases h
  rename_i current hcurrent
  split at h
  · cases h
    exact .inl rfl
  rename_i closed hclosed
  cases h
  obtain ⟨wave, hcloses⟩ := closeReadyWaveRow_some hclosed
  exact .inr ⟨_, wave, rfl, hcloses⟩

theorem closeFinalizationAndFinish_ok {input : FinishInput}
    (h : closeFinalizationAndFinish input s = .ok (u, s')) :
    ∃ record close, s.get input.discussionId = some record ∧ record.state = .finalizing ∧
      Changes s input.discussionId (fun a => { a with
        record := some { record with
          state := input.state, requestedAction := none, version := record.version + 1
          updatedAt := input.now, terminalAt := some input.now }
        waves := a.waves.map (closing close) }) s' := by
  unfold closeFinalizationAndFinish at h
  split at h
  · cases h
  rename_i closed hclosed
  obtain ⟨updated, hupdate, h⟩ := bind_ok h
  cases h
  obtain ⟨wave, hcloses⟩ := closeReadyWaveRow_some hclosed
  obtain ⟨record, hguard, hupdates⟩ := updateDiscussion_ok hupdate fun _ => rfl
  have hget : closed.get input.discussionId = s.get input.discussionId := by
    rw [hcloses.writes]
    rfl
  have hrecord := hupdates.found
  rw [hget] at hrecord
  simp only [decide_eq_true_eq] at hguard
  exact ⟨record, _, hrecord, hguard.2, hcloses.toWrites.trans hupdates.toWrites fun h => by rw [h]⟩

theorem create_ok {discussion : DiscussionRecord} {participants : List DiscussionParticipant}
    {event : DiscussionBudgetEvent} (hevent : event.discussionId = discussion.discussionId)
    (h : create discussion participants event s = .ok (u, s')) :
    s.get discussion.discussionId = none ∧
      Changes s discussion.discussionId (fun a => { a with
        record := some discussion, budgetEvents := a.budgetEvents ++ [event] }) s' := by
  unfold create at h
  obtain ⟨_, hrequire, h⟩ := bind_ok h
  have hnone := require_ok hrequire
  cases h
  refine ⟨hnone, rfl, ?_, fun other hne => ?_, grows_of_eq rfl rfl fun hnodup => ?_⟩
  · exact ext (Table.lookup_append_self rfl hnone) rfl rfl (Table.select_append_self hevent)
  · exact ext (Table.lookup_append_ne hne.symm) rfl rfl
      (Table.select_append_ne (by rw [hevent]; exact hne.symm))
  simp only [get, lookup, List.find?_eq_none, decide_eq_true_eq] at hnone
  simp only [discussionIds, List.map_append, List.map_cons, List.map_nil]
  refine List.nodup_append.mpr ⟨hnodup, by simp, ?_⟩
  rintro discussionId hmem other hother rfl
  obtain ⟨row, hrow, rfl⟩ := List.mem_map.mp hmem
  exact hnone row hrow (List.mem_singleton.mp hother)

end Store

end ConveneWire.Discussion
