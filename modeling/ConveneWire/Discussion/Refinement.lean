import ConveneWire.Discussion.Plans

/-! # The orchestrator moves every Discussion by its steps

`Moves` says what one write of the orchestrator can be: a step of every
Discussion, no Turn lost, and a Run only for a Turn of an unfinished Discussion,
unless an entry of the run is unlawful. Every function of the orchestrator is
then shown to commit such writes only. -/

namespace ConveneWire.Discussion

open Transactional
open Run (Time MessageId RunRecord)
open Relation (ReflTransGen)
open Store

/-! ## Lawful entries -/

/-- The outcome of the Turn's Run is final and is taken over by the next settlement. -/
def DiscussionTurn.isSettleable (s : Store) (turn : DiscussionTurn) : Bool :=
  turn.runId.any fun runId => ((s.core.getRun runId).any fun run => run.state.isTerminal) ∧
    ¬ isOwnerPrivateOutput s.core runId ∧ s.findTurnByRun runId = some turn

/-- The Turn completed, or its Run did. -/
def DiscussionTurn.isCompletable (s : Store) (turn : DiscussionTurn) : Bool :=
  turn.state = .completed ∨
    turn.runId.any fun runId => (s.core.getRun runId).any fun run => run.state = .completed

/-- A finished Discussion whose open Wave a quorum could still seal: the soft deadline is past,
enough members completed and another one is still running. -/
structure Reopens (env : Env) (s : Store) (discussion : DiscussionRecord) (wave : DiscussionWave) :
    Prop where
  finished : discussion.state.isTerminal
  quorum : discussion.policy.waveCompletionMode = .readOnlyQuorum
  opened : wave.state = .opened
  contribution : wave.phase ≠ .finalization
  due : quorumSoftDeadline discussion wave ≤ ((env.part 2).part 1).now
  completed : discussion.policy.quorumMinimumCompleted ≤
    (s.listTurnsForWave wave.waveId).countP (DiscussionTurn.isCompletable s)
  running : ∃ turn ∈ s.listTurnsForWave wave.waveId,
    turn.state.isTerminal = false ∧ turn.isSettleable s = false

/-- Entries that write to a finished Discussion again are unlawful. -/
def Entry.Lawful : Entry → Prop
  | .settling env runId s => ∀ turn ∈ s.findTurnByRun runId, ∀ discussion ∈ s.get turn.discussionId,
      ∀ wave ∈ s.getWave turn.waveId, ¬ Reopens env s discussion wave
  | .dispatching turn s => turn.runId = none → findByOrchestrationKey s.core turn.turnId = none →
      ∀ discussion ∈ s.get turn.discussionId, discussion.state.isTerminal = false

def Excused (w : System) : Prop := ∃ entry ∈ w.entries, ¬ entry.Lawful

/-! ## Moves -/

structure Moves (w w' : System) : Prop where
  entries : w.entries <+: w'.entries
  aggregates : ∀ discussionId, Aggregate.Step (Excused w') (w.store.aggregate discussionId)
    (w'.store.aggregate discussionId)
  grows : w.store.Grows w'.store
  runs : keyedRuns w'.store.core = keyedRuns w.store.core ∨
    ∃ turn ∈ w.store.turns, ∃ runId discussion,
      keyedRuns w'.store.core = keyedRuns w.store.core ++ [(runId, turnKey turn.turnId)] ∧
        w.store.get turn.discussionId = some discussion ∧
        (discussion.state.isTerminal = false ∨ Excused w')

variable {w w' : System}

theorem Excused.mono (h : Excused w) (hentries : w.entries <+: w'.entries) : Excused w' := by
  obtain ⟨entry, hentry, hunlawful⟩ := h
  exact ⟨entry, hentries.subset hentry, hunlawful⟩

variable {discussion : DiscussionRecord} {discussionId : DiscussionId} {env : Env} {now : Time}
  {reconcile : Reconcile} {wave : DiscussionWave} {core : Run.Database}
  {turns : List DiscussionTurn} {s' : Store} {participants : List DiscussionParticipant} {s : Store}
  {turn : DiscussionTurn} {record : DiscussionRecord}

/-- A transaction on one Discussion moves the system if it is a step of that Discussion. -/
theorem moves_of_writes {after : Aggregate} (h : w.store.Writes discussionId after s')
    (hstep : Aggregate.Step (Excused w) (w.store.aggregate discussionId) after) :
    Moves w { w with store := s' } := by
  refine ⟨List.prefix_rfl, fun other => ?_, h.grows, .inl (congrArg keyedRuns h.core)⟩
  by_cases hother : other = discussionId
  · rw [hother]
    rw [h.self]
    exact hstep
  · rw [h.others other hother]
    exact .refl _

theorem moves_of_onlyTurns (h : w.store.OnlyTurns s') : Moves w { w with store := s' } :=
  ⟨List.prefix_rfl, h.steps _, h.grows, .inl (congrArg keyedRuns h.core)⟩

theorem moves_core (h : keyedRuns core = keyedRuns w.store.core) :
    Moves w { w with store := { w.store with core } } :=
  ⟨List.prefix_rfl, fun _ => .refl _, grows_of_eq rfl rfl id, .inl h⟩

theorem moves_enter {entry : Entry} : Moves w { w with entries := w.entries ++ [entry] } :=
  ⟨List.prefix_append _ _, fun _ => .refl _, grows_of_eq rfl rfl id, .inl rfl⟩

/-! ## What whole runs keep -/

/-- The invariant of the system. -/
structure System.Valid (w : System) : Prop where
  aggregates : ∀ discussionId, (w.store.aggregate discussionId).Valid
  wellFormed : w.store.WellFormed

theorem System.Valid.move (hv : w.Valid) (h : Moves w w') : w'.Valid :=
  ⟨fun discussionId => (h.aggregates discussionId).valid (hv.aggregates discussionId),
    h.grows.wellFormed hv.wellFormed⟩

theorem System.Valid.run (hv : w.Valid) (h : ReflTransGen Moves w w') : w'.Valid := by
  have hkept : Transition.Preserved Moves System.Valid := fun _ _ hmove hs => hs.move hmove
  exact hkept.run h hv

theorem System.Valid.sound (hv : w.Valid)
    (h : w.store.get discussionId = some record) : (w.store.aggregate discussionId).Sound record :=
  (hv.aggregates discussionId).sound record h

/-- A row of a Discussion is as it was or has a later version. -/
theorem Aggregate.Step.row_later {excused : Prop} {a a' : Aggregate}
    (h : Aggregate.Step excused a a') (hrecord : a.record = some record) :
    ∃ record', a'.record = some record' ∧ (record' = record ∨ record.version < record'.version) := by
  have hlater : ∀ {r r' : DiscussionRecord}, a.record = some r → RowMoves r r' →
      r' = record ∨ record.version < r'.version := by
    intro r r' hfound hrow
    have hsame : r = record := Option.mem_unique hfound hrecord
    exact .inr (by rw [hrow.version, hsame]; omega)
  cases h with
  | created absent => rw [absent] at hrecord; cases hrecord
  | rows => exact ⟨record, hrecord, .inl rfl⟩
  | amended found _ row => exact ⟨_, rfl, hlater found row⟩
  | planned found _ _ row => exact ⟨_, rfl, hlater found row⟩
  | advanced found _ row => exact ⟨_, rfl, hlater found row⟩
  | finished found _ row => exact ⟨_, rfl, hlater found row⟩

theorem record_run (h : ReflTransGen Moves w w')
    (hrecord : w.store.get discussionId = some record) :
    ∃ record', w'.store.get discussionId = some record' ∧
      (record' = record ∨ record.version < record'.version) := by
  induction h with
  | refl => exact ⟨record, hrecord, .inl rfl⟩
  | tail _ hmove ih =>
    obtain ⟨between, hbetween, hlater⟩ := ih
    obtain ⟨after, hafter, hlater'⟩ := (hmove.aggregates discussionId).row_later hbetween
    refine ⟨after, hafter, ?_⟩
    rcases hlater with rfl | hlater <;> rcases hlater' with rfl | hlater'
    · exact .inl rfl
    · exact .inr hlater'
    · exact .inr hlater
    · exact .inr (hlater.trans hlater')

/-- What is known of a Discussion's row from an earlier reading: it is that row, while its version
is that version. -/
def Knows (s : Store) (record : DiscussionRecord) : Prop :=
  ∀ current, s.get record.discussionId = some current → current.version = record.version →
    current = record

theorem knows_of_get (h : s.get record.discussionId = some record) : Knows s record := by
  intro current hcurrent _
  exact Option.mem_unique hcurrent h

theorem knows_run (h : ReflTransGen Moves w w')
    (hrecord : w.store.get record.discussionId = some record) : Knows w'.store record := by
  intro current hcurrent hversion
  obtain ⟨record', hrecord', hlater⟩ := record_run h hrecord
  obtain rfl : record' = current := Option.mem_unique hrecord' hcurrent
  rcases hlater with rfl | hlater
  · rfl
  · omega

/-- The Turn has a row in the tables. -/
def Stored (s : Store) (turn : DiscussionTurn) : Prop :=
  ∃ row ∈ s.turns, row.turnId = turn.turnId ∧ row.discussionId = turn.discussionId ∧
    row.waveId = turn.waveId

theorem stored_of_mem (h : turn ∈ s.turns) : Stored s turn :=
  ⟨turn, h, rfl, rfl, rfl⟩

theorem Aggregate.Step.turn_kept {excused : Prop} {a a' : Aggregate} (h : Aggregate.Step excused a a')
    (hturn : turn ∈ a.turns) : ∃ turn' ∈ a'.turns, TurnMoves turn turn' := by
  cases h with
  | rows turns => exact ⟨_, List.mem_map_of_mem hturn, turns turn hturn⟩
  | created | amended | finished => exact ⟨turn, hturn, .refl turn⟩
  | planned | advanced => exact ⟨turn, List.mem_append_left _ hturn, .refl turn⟩

theorem Stored.run (hstored : Stored w.store turn)
    (h : ReflTransGen Moves w w') : Stored w'.store turn := by
  induction h with
  | refl => exact hstored
  | tail _ hmove ih =>
    obtain ⟨row, hrow, hid, hdiscussion, hwave⟩ := ih
    have hselected : row ∈ Table.select DiscussionTurn.discussionId row.discussionId _ :=
      List.mem_filter.mpr ⟨hrow, by simp⟩
    obtain ⟨row', hrow', hmoves⟩ := (hmove.aggregates row.discussionId).turn_kept hselected
    exact ⟨row', (List.mem_filter.mp hrow').1, hmoves.turnId.trans hid,
      hmoves.discussionId.trans hdiscussion, hmoves.waveId.trans hwave⟩

/-! ## Rules for the statements of a call -/

section Rules

variable {α β : Type} {M : System → System → Prop} {Q : β → System → Prop}

variable {k : α → Program System β} {R : Unit → System → Prop}

theorem emits_query {f : Store → α} (h : Emits M w (k (f w.store)) Q) :
    Emits M w (System.query f >>= k) Q :=
  .read_bind h

theorem emits_transact {t : Transaction Store α} {R : α → System → Prop}
    (h : ∀ a s', t w.store = .ok (a, s') →
      ReflTransGen M w { w with store := s' } ∧ R a { w with store := s' }) :
    Emits M w (System.transact t) R := by
  unfold System.transact Program.zoom Program.transact
  cases ht : t w.store with
  | error e => refine ⟨?_, ?_, ?_⟩ <;> simp [ht, ReflTransGen.refl]
  | ok result =>
    obtain ⟨a, s'⟩ := result
    obtain ⟨hmoves, hpost⟩ := h a s' ht
    refine ⟨?_, ?_, ?_⟩ <;> simp [ht, hmoves, hpost]

theorem emits_modify {f : Store → Store} (h : ReflTransGen M w { w with store := f w.store }) :
    Emits M w (System.modify f) fun _ t => t = { w with store := f w.store } :=
  emits_transact fun u s' heq => by
    cases heq
    exact ⟨h, rfl⟩

theorem emits_except {x : Except String α} (h : ∀ a, x = .ok a → Emits M w (k a) Q) :
    Emits M w (System.ofExcept x >>= k) Q := by
  cases x with
  | error e => exact .bind (P := fun _ _ => False) .fail fun _ _ _ hfalse => hfalse.elim
  | ok a => exact h a rfl

theorem emits_option {message : String} {x : Option α} {k : α → Program System β}
    (h : ∀ a, x = some a → Emits M w (k a) Q) : Emits M w (System.ofOption message x >>= k) Q := by
  cases x with
  | none => exact .bind (P := fun _ _ => False) .fail fun _ _ _ hfalse => hfalse.elim
  | some a => exact h a rfl

theorem emits_require {discussionId : DiscussionId} {k : DiscussionRecord → Program System β}
    (h : ∀ discussion, w.store.get discussionId = some discussion →
      discussion.discussionId = discussionId → Emits M w (k discussion) Q) :
    Emits M w (requireDiscussion discussionId >>= k) Q := by
  have hread : Emits M w (System.ofOption s!"Discussion not found: {discussionId}"
      (w.store.get discussionId) >>= k) Q :=
    emits_option fun discussion hget => h discussion hget (Table.lookup_key hget)
  exact ⟨hread.commits, hread.state, hread.returns⟩

theorem emits_when {condition : Bool} {m : Program System Unit}
    (hskip : R () w) (h : Emits M w m R) : Emits M w (System.when condition m) R := by
  unfold System.when
  split
  · exact h
  · exact .pure hskip

theorem emits_enter {entry : Store → Entry}
    (h : R () { w with entries := w.entries ++ [entry w.store] }) :
    Emits Moves w (System.enter entry) R :=
  .transact fun a w' heq => by
    cases heq
    exact ⟨.single moves_enter, h⟩

/-- A loop whose every turn is sound from wherever the earlier ones lead. -/
theorem emits_collect {f : Env → α → Program System β} {xs : List α} (env : Env)
    (h : ∀ env x, x ∈ xs → ∀ t, ReflTransGen M w t → Steps M t (f env x)) :
    Steps M w (Env.collect f env xs) := by
  induction xs generalizing w env with
  | nil => exact .pure trivial
  | cons x rest ih =>
    refine .andThen (h _ x (List.mem_cons_self ..) w .refl) fun y t ht => ?_
    refine .andThen (ih _ fun env z hz u hu =>
      h env z (List.mem_cons_of_mem _ hz) u (ht.trans hu)) fun ys u _ => ?_
    exact .pure trivial

end Rules

/-! ## Messages -/

/-- Only the Run tables changed. -/
def CoreOnly (w w' : System) : Prop :=
  ∃ core, w' = { w with store := { w.store with core } }

theorem CoreOnly.refl (w : System) : CoreOnly w w := ⟨w.store.core, rfl⟩

theorem CoreOnly.trans {w'' : System} (h : CoreOnly w w') (h' : CoreOnly w' w'') :
    CoreOnly w w'' := by
  obtain ⟨core, rfl⟩ := h
  obtain ⟨core', rfl⟩ := h'
  exact ⟨core', rfl⟩

theorem keyedRuns_of_runs {core' : Run.Database} (h : core'.runs = core.runs) :
    keyedRuns core' = keyedRuns core := by
  unfold keyedRuns
  rw [h]

section

variable {M : System → System → Prop}
  (hcore : ∀ {w : System} {core : Run.Database}, keyedRuns core = keyedRuns w.store.core →
    M w { w with store := { w.store with core } })
include hcore

theorem emits_appendMessage {message : NewMessage} :
    Emits M w (System.transact (appendMessage env message)) fun _ w' => CoreOnly w w' := by
  refine emits_transact fun u s' h => ?_
  unfold appendMessage at h
  split at h
  · cases h
  rename_i sequence core htake
  obtain ⟨_, -, h⟩ := bind_ok h
  obtain ⟨_, -, h⟩ := bind_ok h
  cases h
  refine ⟨.single (hcore ?_), ⟨_, rfl⟩⟩
  refine keyedRuns_of_runs ?_
  unfold Run.Database.takeMessageSequence at htake
  split at htake
  · cases htake
  · cases htake
    rfl

theorem emits_uniqueWaveAnchor {candidate : MessageId} :
    Emits M w (uniqueWaveAnchor env discussion participants candidate now)
      fun _ w' => CoreOnly w w' := by
  unfold uniqueWaveAnchor
  refine emits_query ?_
  split
  · split
    · exact .fail
    · exact .bind (emits_appendMessage hcore) fun _ _ _ hsame => .pure hsame
  · exact .pure (.refl w)

theorem emits_ensureWaveResultAnchor {P : Platform} :
    Emits M w (ensureWaveResultAnchor P env discussion wave turns now)
      fun _ w' => CoreOnly w w' := by
  unfold ensureWaveResultAnchor
  refine emits_query ?_
  split
  · exact .bind (emits_appendMessage hcore) fun _ _ _ hsame => .pure hsame
  · exact .pure (.refl w)

theorem emits_appendFallbackConclusion {P : Platform} {parentMessageId : MessageId} :
    Emits M w (appendFallbackConclusion P env discussion parentMessageId)
      fun _ w' => CoreOnly w w' := by
  unfold appendFallbackConclusion
  refine emits_query ?_
  split
  · exact emits_appendMessage hcore
  · exact .pure (.refl w)

end

/-! ## Runs of planned Turns -/

variable {P : Platform} {quorumSeal : Option DiscussionWaveSeal} {inputMessageId : MessageId}

theorem moves_createRun {run : RunRecord} {u : Unit}
    (hkey : run.orchestrationKey = some (turnKey turn.turnId)) (hstored : Stored w.store turn)
    (hget : w.store.get turn.discussionId = some discussion)
    (hallowed : discussion.state.isTerminal = false ∨ Excused w)
    (h : createRun env run w.store = .ok (u, s')) : Moves w { w with store := s' } := by
  unfold createRun at h
  obtain ⟨_, -, h⟩ := bind_ok h
  obtain ⟨_, -, h⟩ := bind_ok h
  cases h
  obtain ⟨row, hrow, hid, hdiscussion, -⟩ := hstored
  refine ⟨List.prefix_rfl, fun _ => .refl _, grows_of_eq rfl rfl id, .inr ⟨row, hrow, run.runId,
    discussion, ?_, hdiscussion ▸ hget, hallowed⟩⟩
  simp [keyedRuns, hkey, hid]

theorem emits_startTurn (hstored : Stored w.store turn)
    (hget : w.store.get turn.discussionId = some discussion)
    (hallowed : discussion.state.isTerminal = false ∨ Excused w) :
    Steps Moves w (startTurn env w.store discussion turn) := by
  unfold startTurn
  refine emits_option fun message _ => ?_
  refine emits_option fun wave _ => ?_
  refine emits_except fun _ _ => ?_
  refine .andThen (emits_transact fun u s' h => ⟨.single ?_, trivial⟩) fun _ t _ => ?_
  · exact moves_createRun rfl hstored hget hallowed h
  · refine .returning (emits_transact (R := fun _ _ => True) fun u s' h => ⟨.single ?_, trivial⟩)
    exact moves_of_onlyTurns (onlyTurns_bindTurnRun h)

theorem emits_reanchor {waveId : WaveId} :
    Steps Moves w (System.transact (reanchorPlannedWave waveId inputMessageId now)) := by
  refine emits_transact fun u s' h => ⟨.single ?_, trivial⟩
  obtain ⟨hcore, hgrows, hsteps⟩ := step_reanchorPlannedWave h
  exact ⟨List.prefix_rfl, hsteps _, hgrows, .inl (congrArg keyedRuns hcore)⟩

/-- `ensureRun` starts a Run for a finished Discussion only on an unlawful entry. -/
theorem emits_ensureRun (depth : Nat) (hstored : Stored w.store turn) :
    Steps Moves w (ensureRun P depth env turn) := by
  induction depth generalizing w env turn with
  | zero => exact .fail
  | succ depth ih =>
    rw [ensureRun]
    refine .bind (emits_enter (R := fun _ w' => w' =
      { w with entries := w.entries ++ [Entry.dispatching turn w.store] }) rfl) ?_
    rintro _ entered _ rfl
    refine emits_query ?_
    cases hrun : turn.runId with
    | some runId => exact .pure trivial
    | none =>
      simp only [id_eq]
      cases hbyKey : findByOrchestrationKey w.store.core turn.turnId with
      | some byKey =>
        refine .returning (emits_transact (R := fun _ _ => True) fun u s' h => ⟨.single ?_, trivial⟩)
        exact moves_of_onlyTurns (onlyTurns_bindTurnRun h)
      | none =>
        refine emits_require fun discussion hget _ => ?_
        cases findTriggered w.store.core turn.inputMessageId turn.speakerAgentId with
        | none =>
          refine emits_startTurn hstored hget ?_
          by_cases hterminal : discussion.state.isTerminal
          · refine .inr ⟨.dispatching turn w.store, by simp, fun hlawful => ?_⟩
            have hopen := hlawful hrun hbyKey discussion hget
            rw [hopen] at hterminal
            cases hterminal
          · exact .inl (by simpa using hterminal)
        | some collision =>
          simp only
          split
          · exact .fail
          refine .andThen emits_reanchor fun _ t _ => ?_
          refine emits_query ?_
          cases hturn : t.store.getTurn turn.turnId with
          | none => exact .pure trivial
          | some reanchored => exact ih (stored_of_mem (List.mem_of_find?_eq_some hturn))

theorem emits_preparePlannedWaveAnchor {waveId : WaveId} :
    Steps Moves w (preparePlannedWaveAnchor P env waveId) := by
  unfold preparePlannedWaveAnchor
  refine emits_query ?_
  split
  · exact .pure trivial
  simp only
  split
  · refine emits_require fun discussion _ _ => ?_
    refine .bind (emits_uniqueWaveAnchor moves_core) fun _ _ _ _ => ?_
    exact emits_reanchor
  · exact .pure trivial

/-! ## Advancing a settled Wave -/

/-- What is assumed of `reconcileDiscussion` where it is called from below. -/
def Reconcile.Sound (reconcile : Reconcile) : Prop :=
  ∀ env discussionId w, w.Valid → Steps Moves w (reconcile env discussionId)

section Settled

variable {envE envG envN : Env} {used : BudgetSnapshot} {recorded : DiscussionBudgetEvent}
  {decision : PolicyDecision} {granted : BudgetCharge} {progress : ProgressSnapshot}
  {next : NextWave} (hv : w.Valid) (hget : w.store.get discussion.discussionId = some discussion)
  (hcontinues : BudgetCharge.Continues ⟨used, [recorded]⟩ w.store discussion discussion.budget)
  (hused : used.turnsUsed = discussion.budget.turnsUsed + 1)
  (hlease : used.leaseEndTurn = discussion.budget.leaseEndTurn)
  (hadvice : Advice discussion.policy used (eligibleParticipantsForNextWave envE w.store discussion
    participants wave.ordinal) decision)
  (hgranted : chargeAutomaticLease envG w.store discussion decision ⟨used, [recorded]⟩ =
    .ok granted)
  (hnext : planNextWave P envN w.store discussion (eligibleParticipantsForNextWave envE w.store
    discussion participants wave.ordinal) decision progress inputMessageId now granted = .ok next)
include hv hget hcontinues hused hlease hadvice hgranted hnext

/-- What follows a settled Wave, from the row as it was to the row written with the next Wave. -/
theorem settledApply_ok (env : Env) (allTurns : List DiscussionTurn)
    (quorumSeal : Option DiscussionWaveSeal) :
    let row := (settledApply env discussion wave allTurns quorumSeal decision progress next
      now).row discussion
    next.charge.Continues w.store discussion discussion.budget ∧
      (discussion.currentWave = wave.ordinal → RowMoves discussion row ∧
        Plans (w.store.aggregate discussion.discussionId).turns discussion row next.plan ∧
        row.budget.turnsUsed = discussion.budget.turnsUsed + 1 ∧
        row.budget = next.charge.budget) := by
  obtain ⟨hgrant, hturns, hadvanced, hle⟩ := chargeAutomaticLease_ok hcontinues hgranted
  have hfree := fun hcurrent : discussion.currentWave = wave.ordinal =>
    @eligible_free discussion w.store participants wave.ordinal discussion envE (hv.sound hget)
      hcurrent.le
  generalize eligibleParticipantsForNextWave envE w.store discussion participants wave.ordinal =
    eligible at hadvice hnext hfree
  have hterminalAt : decision.state.isTerminal →
      (if decision.state.isTerminal then some now else none).isSome := by
    intro hterminal
    simp [hterminal]
  unfold planNextWave at hnext
  simp only at hnext
  cases hadvice with
  | proceed grant some_eligible regular lease =>
    rw [if_pos (show (PolicyDecision.proceed grant).action = .continue from rfl)] at hnext
    obtain ⟨selection, hselect, hnext⟩ := bind_ok hnext
    obtain ⟨plan, hplan, hnext⟩ := bind_ok hnext
    cases hnext
    refine ⟨hgrant, fun hcurrent => ?_⟩
    obtain ⟨hfollows, -, hphase, hmaximum⟩ := buildWavePlan_follows hselect hplan (hfree hcurrent)
    refine ⟨⟨rfl, rfl, hterminalAt, hgrant.lease⟩, ?_, hturns.trans hused, rfl⟩
    refine .contribution hfollows hfollows.waveOrdinal hmaximum (fun h => ?_) rfl ?_ ?_
    · cases hphase.mp h
    · exact hturns.trans_lt regular
    · cases grant with
      | false => exact .inl (hturns.trans_lt ((lease rfl).trans_le hle))
      | true => exact .inr (hlease ▸ hadvanced rfl)
  | finalize reason outputMode some_eligible =>
    rw [if_neg (by simp [PolicyDecision.finalize]), if_pos ⟨rfl, some_eligible⟩] at hnext
    obtain ⟨selection, hselect, hnext⟩ := bind_ok hnext
    obtain ⟨plan, hplan, hnext⟩ := bind_ok hnext
    cases hnext
    refine ⟨chargeFinalization_continues hgrant, fun hcurrent => ?_⟩
    obtain ⟨hfollows, -, hphase, hmaximum⟩ := buildWavePlan_follows hselect hplan (hfree hcurrent)
    exact ⟨⟨rfl, rfl, hterminalAt, hgrant.lease⟩,
      .finalization hfollows hfollows.waveOrdinal hmaximum (hphase.mpr rfl) rfl, hturns.trans hused,
      rfl⟩
  | stop action no_finalizer state grant =>
    rw [if_neg action, if_neg (fun h => h.2 (no_finalizer h.1))] at hnext
    cases hnext
    exact ⟨hgrant, fun _ => ⟨⟨rfl, rfl, hterminalAt, hgrant.lease⟩, .nothing rfl rfl state,
      hturns.trans hused, rfl⟩⟩

/-- The transaction at the end of `advanceSettledWave`. -/
theorem moves_settledApply {allTurns : List DiscussionTurn} {applied : Bool}
    (hwave : w.store.getWave wave.waveId = some wave) (hphase : wave.phase ≠ .finalization)
    (hallowed : discussion.state.isTerminal = false ∨ Excused w)
    (h : closeReadyWaveAndApply P (settledApply env discussion wave allTurns quorumSeal
      decision progress next now) { w.store with core } = .ok (applied, s')) :
    ReflTransGen Moves { w with store := { w.store with core } } { w with store := s' } := by
  obtain ⟨hcharge, hplanned⟩ := settledApply_ok hv hget hcontinues hused hlease hadvice hgranted
    hnext env allTurns quorumSeal
  rcases closeReadyWaveAndApply_ok hcharge.own h with ⟨-, rfl⟩ | happlied
  · exact .refl
  obtain ⟨record, row, -, hrecord, -, hrow, hopened, hcurrent, hmember, hcloses, hwrites⟩ := happlied
  obtain rfl : discussion = record := Option.mem_unique hget hrecord
  obtain rfl : wave = row := Option.mem_unique hwave hrow
  obtain ⟨hrowMoves, hplans, hturns, hbudget⟩ := hplanned hcurrent
  refine .single (moves_of_writes hwrites (.advanced hget hallowed hrowMoves hmember hopened hphase
    (fun other _ => closing_moves _ other) (hcloses ?_) hplans hturns ?_))
  · unfold settledApply
    simp only
    split
    · simp
    · exact waveCloseState_ne_opened allTurns
  · rw [hbudget]
    exact hcharge.charges

end Settled

theorem emits_advanceSettledWave (hreconcile : reconcile.Sound)
    {projectionTurns allTurns : List DiscussionTurn}
    (hv : w.Valid) (hget : w.store.get discussion.discussionId = some discussion)
    (hwave : w.store.getWave wave.waveId = some wave) (hphase : wave.phase ≠ .finalization)
    (hallowed : discussion.state.isTerminal = false ∨ Excused w) :
    Steps Moves w (advanceSettledWave P reconcile env discussion wave projectionTurns allTurns
      quorumSeal) := by
  unfold advanceSettledWave
  refine emits_query ?_
  refine emits_except fun evaluation _ => ?_
  refine .bind (emits_ensureWaveResultAnchor moves_core) fun anchor t ht hanchor => ?_
  refine emits_except fun used hused => ?_
  refine .bind (P := fun _ u => CoreOnly t u) (emits_when (.refl t)
    (emits_appendFallbackConclusion moves_core)) fun _ u hu hfallback => ?_
  refine emits_except fun granted hgranted => ?_
  refine emits_except fun next hnext => ?_
  obtain ⟨core, rfl⟩ := hanchor.trans hfallback
  refine .andThen (emits_transact fun applied s' h => ⟨?_, trivial⟩) fun applied v hv' => ?_
  · obtain ⟨hcontinues, hturns, hlease⟩ := continues_recordTurnUsage hused
    exact moves_settledApply hv hget hcontinues hturns hlease (adjustDecision_advice rfl rfl)
      hgranted hnext hwave hphase hallowed h
  split
  · exact .returning (hreconcile _ _ _ (hv.run (ht.trans (hu.trans hv'))))
  · exact .pure trivial

/-! ## Closing the last Wave -/

theorem emits_closeAndFinish {input : FinishInput} (hterminal : input.state.isTerminal) :
    Steps Moves w (System.transact (closeFinalizationAndFinish input)) := by
  refine emits_transact fun u s' h => ⟨.single ?_, trivial⟩
  obtain ⟨record, close, hrecord, hfinalizing, hwrites⟩ := closeFinalizationAndFinish_ok h
  exact moves_of_writes hwrites (.finished hrecord hfinalizing ⟨rfl, rfl, fun _ => rfl, le_rfl⟩
    hterminal rfl ⟨rfl, rfl⟩ fun other _ => closing_moves close other)

theorem emits_closeFinalization {succeeded : Bool} :
    Steps Moves w (closeFinalization env discussion wave turns succeeded now) := by
  have hterminal : (if discussion.stateReason = some .hardBudgetExhausted then
      DiscussionState.terminated else .completed).isTerminal := by
    split <;> rfl
  unfold closeFinalization
  simp only
  split
  · rename_i propose _
    refine .atomic (.andThen (emits_closeAndFinish hterminal) fun _ t _ => ?_)
    cases propose discussion wave with
    | error e => exact .fail
    | ok u => exact .pure trivial
  · exact emits_closeAndFinish hterminal

theorem emits_finishFinalization :
    Steps Moves w (finishFinalization P env discussion wave turns) := by
  unfold finishFinalization
  refine .andThen (emits_when trivial
    (emits_appendFallbackConclusion moves_core).steps) fun _ t _ => ?_
  exact .returning emits_closeFinalization

/-- Closing the Wave of a finished Discussion. -/
theorem emits_closeWave {version : Nat} {state : WaveState}
    (hwave : w.store.getWave wave.waveId = some wave)
    (hget : w.store.get wave.discussionId = some discussion)
    (hterminal : discussion.state.isTerminal) :
    Steps Moves w (System.transact (closeWave wave.waveId version state now)) := by
  refine emits_transact fun closed s' h => ⟨?_, trivial⟩
  rcases closeWave_ok h with rfl | ⟨input, row, hid, hcloses⟩
  · exact .refl
  have hrow : row = wave := Option.mem_unique hcloses.found (hid ▸ hwave)
  have hown : input.discussionId = wave.discussionId := by rw [← hcloses.discussion, hrow]
  refine .single (moves_of_writes hcloses.toWrites ?_)
  have hstep : Aggregate.Step (Excused w) (w.store.aggregate input.discussionId)
      { w.store.aggregate input.discussionId with
        turns := (w.store.aggregate input.discussionId).turns.map id
        waves := (w.store.aggregate input.discussionId).waves.map (closing input) } :=
    .rows (fun turn _ => .refl turn) (fun other _ => closing_moves input other)
      (.inr ⟨discussion, by rw [hown]; exact hget, hterminal⟩)
  simpa using hstep

theorem emits_advanceReadyWave (hreconcile : reconcile.Sound) (hv : w.Valid)
    (hget : w.store.get discussion.discussionId = some discussion)
    (hwave : w.store.getWave wave.waveId = some wave)
    (hown : wave.discussionId = discussion.discussionId) :
    Steps Moves w (advanceReadyWave P reconcile env discussion wave turns) := by
  unfold advanceReadyWave
  split
  · rename_i hterminal
    exact .returning (emits_closeWave hwave (hown ▸ hget) hterminal)
  rename_i hterminal
  split
  · exact emits_finishFinalization
  · rename_i hphase
    exact emits_advanceSettledWave hreconcile hv hget hwave hphase (.inl (by simpa using hterminal))

/-! ## Reconciling -/

theorem mem_listTurns :
    turn ∈ s.listTurns discussionId ↔ turn ∈ s.turns ∧ turn.discussionId = discussionId := by
  simp [listTurns, Table.select]

theorem emits_advanceAffectedWave (hreconcile : reconcile.Sound)
    (hv : w.Valid) (hstored : Stored w.store turn) :
    Steps Moves w (advanceAffectedWave P reconcile turn.discussionId env turn.waveId) := by
  unfold advanceAffectedWave
  refine emits_query ?_
  simp only [id_eq]
  cases hwave : w.store.getWave turn.waveId with
  | none => exact .pure trivial
  | some wave =>
    simp only
    split
    · refine emits_require fun discussion hget hid => ?_
      obtain ⟨row, hrow, -, hdiscussion, hlink⟩ := hstored
      have hown : wave.discussionId = discussion.discussionId := by
        rw [hv.wellFormed.wave_discussion hrow (hlink ▸ hwave), hdiscussion, hid]
      have hkey : wave.waveId = turn.waveId := Table.lookup_key hwave
      refine .returning (emits_advanceReadyWave hreconcile hv (hid ▸ hget) (hkey ▸ hwave) hown)
    · exact .pure trivial

theorem reconcileDiscussion_sound (depth : Nat) : (reconcileDiscussion P depth).Sound := by
  induction depth with
  | zero => exact fun _ _ _ _ => .fail
  | succ depth ih =>
    intro env discussionId w hv
    rw [reconcileDiscussion]
    refine emits_require fun discussion hget _ => ?_
    refine emits_query ?_
    refine emits_except fun _ _ => ?_
    refine .andThen (emits_collect _ fun env turn _ t _ => ?_) fun _ settled hsettled => ?_
    · exact (emits_modify (.single (moves_of_onlyTurns onlyTurns_settleTurn))).mono
        fun _ _ _ _ => trivial
    refine emits_query ?_
    refine .andThen (emits_collect _ fun env waveId _ t _ => emits_preparePlannedWaveAnchor)
      fun _ prepared hprepared => ?_
    refine emits_query ?_
    refine .andThen (emits_collect _ fun env turn hturn t ht => ?_) fun _ started hstarted => ?_
    · have hrow := (mem_listTurns.mp (List.mem_filter.mp hturn).1).1
      exact emits_ensureRun depth ((stored_of_mem hrow).run ht)
    refine .returning (emits_collect _ fun env waveId hwaveId t ht => ?_)
    have hrun := hsettled.trans (hprepared.trans (hstarted.trans ht))
    obtain ⟨turn, hturn, rfl⟩ := List.mem_map.mp (mem_distinct.mp hwaveId)
    obtain ⟨hrow, hdiscussion⟩ := mem_listTurns.mp (List.mem_filter.mp hturn).1
    rw [← hdiscussion]
    exact emits_advanceAffectedWave ih (hv.run hrun) ((stored_of_mem hrow).run hrun)

end ConveneWire.Discussion
