import ConveneWire.Integration.Coordinator
import ConveneWire.Lib.Serial

/-! # Integration is exact

What every action of `Execute` keeps while others move the branch: the branch was moved
at most once and never left at the expected commit, a receipt of success was seen, and
a receipt of failure is about a branch that this operation did not move. The last one
needs that nobody moves the branch between an `update-ref` that was stopped after it
took effect and the look at the branch that follows it. -/

namespace ConveneWire.Integration

open Concurrent (Process Contract Serial)
open Relation (ReflTransGen)
open Transition (Preserved)

variable (admission : Admission) (valid : RepositoryOperationReceipt → Bool)

abbrev Admission.expected : String := admission.action.target.expectedCommit
abbrev Admission.candidate : String := admission.action.candidateCommit

/-- Others move the branch, but not back to the expected commit. -/
def Moves (s t : Repository) : Prop :=
  ∃ commit, commit ≠ some admission.expected ∧ t = { s with branch := commit }

/-- The receipt says that the operation did not take effect. -/
def ReceiptState.negative (state : ReceiptState) : Prop := state = .failed ∨ state = .canceled

/-- The receipt is one of this operation that says how it ended. -/
def Shaped (receipt : RepositoryOperationReceipt) : Prop :=
  valid receipt = true ∧ ∃ state errorCode now, state ≠ .prepared ∧
    (state = .succeeded ↔ errorCode = none) ∧ receipt = terminalReceipt admission state errorCode now

/-- What holds between any two actions. `careful` says that nobody moves the branch while
a move by this operation is not yet looked at. -/
structure Sound (careful : Prop) (s : Repository) : Prop where
  shaped : ∀ receipt, s.receipt = some receipt → Shaped admission valid receipt
  updates : s.updates = [] ∨ s.updates = [(admission.expected, admission.candidate)] ∧
    s.intent.isSome ∧ s.branch ≠ some admission.expected
  succeeded : ∀ receipt, s.receipt = some receipt → receipt.state = .succeeded →
    admission.candidate ∈ s.seen
  unmoved : careful → ∀ receipt, s.receipt = some receipt → receipt.state.negative → s.updates = []
  lost : s.lost = true → careful → s.branch = some admission.candidate

/-- A receipt on file stays as it is. -/
def Kept (s t : Repository) : Prop := ∀ receipt, s.receipt = some receipt → t.receipt = some receipt

/-- What the others may do, and what an action of `Execute` does. -/
def contract (careful : Prop) : Contract Repository where
  rely s t := (careful → s.lost = false) ∧ Moves admission s t
  guar s t := Sound admission valid careful s → Sound admission valid careful t ∧ Kept s t
  fails _ := True

variable {admission} {valid} {careful : Prop} {s t : Repository}
  {system system' : Serial Repository Answer} {P : Repository → Prop}

theorem Sound.moves (h : Sound admission valid careful s) (hst : (contract admission valid careful).rely s t) :
    Sound admission valid careful t := by
  obtain ⟨hcareful, commit, hcommit, rfl⟩ := hst
  refine ⟨h.shaped, h.updates.imp id fun ⟨hmoved, hintent, _⟩ => ⟨hmoved, hintent, hcommit⟩, h.succeeded,
    h.unmoved, fun hlost hc => ?_⟩
  exact absurd (hlost.symm.trans (hcareful hc)) (by decide)

/-- A property that does not look at the branch. -/
def Stable (admission : Admission) (P : Repository → Prop) : Prop :=
  ∀ s t, Moves admission s t → P s → P t

/-- The property, in a state that is sound. -/
def In (admission : Admission) (valid : RepositoryOperationReceipt → Bool) (careful : Prop)
    (P : Repository → Prop) (s : Repository) : Prop :=
  Sound admission valid careful s ∧ P s

/-- From `P` the routine leads to `Q` of what it returns. -/
abbrev Leads (admission : Admission) (valid : RepositoryOperationReceipt → Bool) (careful : Prop)
    (P : Repository → Prop) (p : Routine α) (Q : α → Repository → Prop) : Prop :=
  (contract admission valid careful).Triple (In admission valid careful P) p fun x =>
    In admission valid careful (Q x)

theorem Stable.preserved (h : Stable admission P) :
    Preserved (contract admission valid careful).rely (In admission valid careful P) :=
  fun _ _ hst hs => ⟨hs.1.moves hst, h _ _ hst.2 hs.2⟩

section

variable {α : Type} {P : Repository → Prop} {Q : α → Repository → Prop}

/-- One action. -/
theorem step_spec {f : Repository → Answer → Except String α × Repository}
    (hQ : ∀ x, Stable admission (Q x)) (h : ∀ s a, In admission valid careful P s →
      Sound admission valid careful (f s a).2 ∧ Kept s (f s a).2 ∧
        ∀ x, (f s a).1 = .ok x → Q x (f s a).2) :
    Leads admission valid careful P (Process.step f) Q := by
  refine .step_free (fun _ => trivial) (fun s a hs _ => ?_) (fun s a x hs hx => ?_)
    fun x => (hQ x).preserved
  · exact ⟨(h s a hs).1, (h s a hs).2.1⟩
  · exact ⟨(h s a hs).1, (h s a hs).2.2 x hx⟩

theorem ask_spec (hP : Stable admission P) (f : Answer → α) :
    Leads admission valid careful P (Process.ask f) fun _ => P :=
  step_spec (fun _ => hP) fun _ _ hs => ⟨hs.1, fun _ h => h, fun _ _ => hs.2⟩

end

/-! ## Git -/

/-- No receipt is on file, and the branch was not moved by this operation. -/
structure Untouched (s : Repository) : Prop where
  receipt : s.receipt = none
  updates : s.updates = []

/-- And the intent is on file. -/
abbrev Ready (s : Repository) : Prop := Untouched s ∧ s.intent.isSome

/-- Looking at the branch changes only what is noted about it. -/
theorem Sound.look (h : Sound admission valid careful s) (seen : List String) :
    Sound admission valid careful { s with seen := s.seen ++ seen, lost := false } :=
  ⟨h.shaped, h.updates, fun r hr hstate => List.mem_append_left _ (h.succeeded r hr hstate), h.unmoved,
    fun hlost => by cases hlost⟩

/-- What the look after `update-ref` may report. -/
def Reports (admission : Admission) (careful : Prop) (result : Except IntegrationError Unit)
    (s : Repository) : Prop :=
  s.receipt = none ∧
  match result with
  | .ok () => admission.candidate ∈ s.seen
  | .error e => careful → (integrationFailure e).1.negative → s.updates = []

theorem stable_reports (result : Except IntegrationError Unit) :
    Stable admission (Reports admission careful result) := by
  rintro s _ ⟨commit, -, rfl⟩ h
  exact h

/-- A look at the branch. What it notes is what it returns. -/
theorem integrationTarget_spec {Q : Option String → Repository → Prop}
    (hQ : ∀ current, Stable admission (Q current))
    (hnone : ∀ s, In admission valid careful P s → Q none { s with lost := false })
    (hsome : ∀ s, In admission valid careful P s →
      Q s.branch { s with seen := s.seen ++ s.branch.toList, lost := false }) :
    Leads admission valid careful P integrationTarget Q := by
  refine step_spec hQ fun s a hs => ?_
  by_cases hread : a.inspects = true
  · simp only [hread, if_true]
    refine ⟨hs.1.look _, fun _ h => h, fun current hcurrent => ?_⟩
    cases hcurrent
    exact hsome s hs
  · simp only [if_neg hread]
    refine ⟨by simpa using hs.1.look [], fun _ h => h, fun current hcurrent => ?_⟩
    cases hcurrent
    exact hnone s hs

/-- What is known after `update-ref`: a failure left the branch alone, or it is noted. -/
def Updated (updateErr : Option GitError) (s : Repository) : Prop :=
  s.receipt = none ∧ (updateErr ≠ none → s.lost = true ∨ s.updates = [])

theorem stable_updated (updateErr : Option GitError) : Stable admission (Updated updateErr) := by
  rintro s _ ⟨commit, -, rfl⟩ h
  exact h

theorem updateRef_spec (hne : admission.candidate ≠ admission.expected) :
    Leads admission valid careful Ready
      (updateRef admission.expected admission.candidate) Updated := by
  refine step_spec stable_updated ?_
  rintro s a ⟨hsound, ⟨hreceipt, hupdates⟩, hintent⟩
  -- the branch after the update, whether or not Git could still say so
  have hmoved : ∀ lost : Bool, Sound admission valid careful
      { s with
        branch := some admission.candidate
        updates := s.updates ++ [(admission.expected, admission.candidate)]
        lost := lost } := fun lost =>
    ⟨fun r hr => by simp [hreceipt] at hr,
      .inr ⟨by rw [hupdates]; rfl, hintent, fun h => hne (Option.some.inj h)⟩,
      fun r hr => by simp [hreceipt] at hr, fun _ r hr => by simp [hreceipt] at hr, fun _ _ => rfl⟩
  have hleft : ∀ e : GitError, Updated (some e) s := fun e => ⟨hreceipt, fun _ => .inr hupdates⟩
  cases hupdate : a.update with
  | refused e =>
    dsimp only
    exact ⟨hsound, fun _ h => h, fun x hx => by cases hx; exact hleft e⟩
  | stopped e =>
    dsimp only
    split
    · exact ⟨hmoved true, fun _ h => h,
        fun x hx => by cases hx; exact ⟨hreceipt, fun _ => .inl rfl⟩⟩
    · exact ⟨hsound, fun _ h => h, fun x hx => by cases hx; exact hleft e⟩
  | done =>
    dsimp only
    split
    · exact ⟨hmoved s.lost, fun _ h => h,
        fun x hx => by cases hx; exact ⟨hreceipt, fun h => absurd rfl h⟩⟩
    · exact ⟨hsound, fun _ h => h, fun x hx => by cases hx; exact hleft _⟩

/-- What the look at the branch after `update-ref` says. -/
structure Looked (admission : Admission) (careful : Prop) (updateErr : Option GitError)
    (current : Option String) (s : Repository) : Prop where
  receipt : s.receipt = none
  seen : current = some admission.candidate → admission.candidate ∈ s.seen
  unmoved : updateErr ≠ none → current ≠ none → current ≠ some admission.candidate →
    careful ∨ current = some admission.expected → s.updates = []

theorem stable_looked (updateErr : Option GitError) (current : Option String) :
    Stable admission (Looked admission careful updateErr current) := by
  rintro s _ ⟨commit, -, rfl⟩ h
  exact ⟨h.receipt, h.seen, h.unmoved⟩

theorem afterUpdate_spec (updateErr : Option GitError) :
    Leads admission valid careful (Updated updateErr) (afterUpdate admission updateErr)
      (Reports admission careful) := by
  have hlook : Leads admission valid careful (Updated updateErr) integrationTarget
      (Looked admission careful updateErr) := by
    refine integrationTarget_spec (stable_looked updateErr) ?_ ?_
    · rintro s ⟨-, hreceipt, -⟩
      exact ⟨hreceipt, fun h => (by cases h), fun _ h => absurd rfl h⟩
    rintro s ⟨hsound, hreceipt, hupdated⟩
    refine ⟨hreceipt, fun h => by simp [h], fun herr _ hne hother => ?_⟩
    rcases hupdated herr with hlost | hupdates
    · rcases hother with hcareful | hexpected
      · exact absurd (hsound.lost hlost hcareful) hne
      · exact hsound.updates.resolve_right fun h => h.2.2 hexpected
    · exact hupdates
  refine .bind hlook fun current => ?_
  cases updateErr with
  | none =>
    dsimp only
    split
    · rename_i hcurrent
      exact .pure fun s hs => ⟨hs.1, hs.2.receipt, hs.2.seen hcurrent⟩
    · exact .pure fun s hs => ⟨hs.1, hs.2.receipt, fun _ h => by
        rcases h with h | h <;> cases h⟩
  | some e =>
    cases current with
    | none =>
      exact .pure fun s hs => ⟨hs.1, hs.2.receipt, fun _ h => by rcases h with h | h <;> cases h⟩
    | some commit =>
      dsimp only
      split
      · rename_i hcandidate
        exact .pure fun s hs => ⟨hs.1, hs.2.receipt, hs.2.seen (congrArg some hcandidate)⟩
      rename_i hcandidate
      have hne : some commit ≠ some admission.candidate := fun h => hcandidate (Option.some.inj h)
      split
      · rename_i hexpected
        exact .pure fun s hs => ⟨hs.1, hs.2.receipt, fun _ _ =>
          hs.2.unmoved (by simp) (by simp) hne (.inr (congrArg some hexpected))⟩
      · exact .pure fun s hs => ⟨hs.1, hs.2.receipt, fun hcareful _ =>
          hs.2.unmoved (by simp) (by simp) hne (.inl hcareful)⟩

/-! ## The whole effect -/

theorem stable_ready : Stable admission Ready := by
  rintro s _ ⟨commit, -, rfl⟩ h
  exact ⟨⟨h.1.receipt, h.1.updates⟩, h.2⟩

/-- An error before the update. -/
theorem untouched_reports (e : IntegrationError) :
    Leads admission valid careful Ready
      (pure (.error e) : Routine (Except IntegrationError Unit)) (Reports admission careful) :=
  .pure fun _ hs => ⟨hs.1, hs.2.1.receipt, fun _ _ => hs.2.1.updates⟩

theorem updateExactTarget_spec (hne : admission.candidate ≠ admission.expected) :
    Leads admission valid careful Ready
      (updateExactTarget admission) (Reports admission careful) := by
  refine .bind (ask_spec stable_ready _) fun checkedOut => ?_
  match checkedOut with
  | .error e => exact untouched_reports _
  | .ok true => exact untouched_reports _
  | .ok false =>
    refine .bind (ask_spec stable_ready _) fun context => ?_
    cases context with
    | some e => exact untouched_reports _
    | none => exact .bind (updateRef_spec hne) afterUpdate_spec

theorem importCandidate_spec :
    Leads admission valid careful Ready
      (importCandidate admission) (Reports admission careful) := by
  refine .bind (ask_spec stable_ready _) fun imported => ?_
  cases imported with
  | some e => exact untouched_reports _
  | none =>
    dsimp only
    split
    · exact untouched_reports _
    rename_i hne
    refine .bind (ask_spec stable_ready _) fun ancestor => ?_
    match ancestor with
    | .error e => exact untouched_reports _
    | .ok false => exact untouched_reports _
    | .ok true => exact updateExactTarget_spec hne

theorem integrateExactTarget_spec :
    Leads admission valid careful Ready
      (integrateExactTarget admission) (Reports admission careful) := by
  refine .bind (ask_spec stable_ready _) fun checked => ?_
  cases checked with
  | some e => exact untouched_reports _
  | none =>
    have hlook : Leads admission valid careful Ready integrationTarget fun _ => Ready :=
      integrationTarget_spec (fun _ => stable_ready)
        (fun _ hs => ⟨⟨hs.2.1.receipt, hs.2.1.updates⟩, hs.2.2⟩)
        fun _ hs => ⟨⟨hs.2.1.receipt, hs.2.1.updates⟩, hs.2.2⟩
    refine .bind hlook fun current => ?_
    split
    · exact untouched_reports _
    refine .bind (ask_spec stable_ready _) fun checkedOut => ?_
    match checkedOut with
    | .error e => exact untouched_reports _
    | .ok true => exact untouched_reports _
    | .ok false => exact importCandidate_spec

/-! ## Receipts -/

/-- The receipt may be written in this state. -/
def MayRecord (admission : Admission) (careful : Prop) (state : ReceiptState) (s : Repository) :
    Prop :=
  (state = .succeeded → admission.candidate ∈ s.seen) ∧
    (careful → state.negative → s.updates = [])

theorem stable_true : Stable admission fun _ => True := fun _ _ _ _ => trivial

theorem retain_spec : Leads admission valid careful (fun _ => True) retain fun _ _ => True := by
  refine step_spec (fun _ => stable_true) fun s a hs => ?_
  split
  · exact ⟨hs.1, fun _ h => h, fun _ _ => trivial⟩
  · exact ⟨hs.1, fun _ h => h, fun _ _ => trivial⟩

theorem putReceipt_spec {receipt : RepositoryOperationReceipt}
    (hshaped : valid receipt = true → Shaped admission valid receipt) :
    Leads admission valid careful (MayRecord admission careful receipt.state)
      (putReceipt valid receipt) fun _ _ => True := by
  refine step_spec (fun _ => stable_true) ?_
  rintro s a ⟨hsound, hseen, hunmoved⟩
  have hwritten : valid receipt = true → s.receipt = none →
      Sound admission valid careful { s with receipt := some receipt } ∧
      Kept s { s with receipt := some receipt } := fun hvalid hnone =>
    ⟨⟨fun r hr => (by cases hr; exact hshaped hvalid), hsound.updates, fun r hr hstate => by cases hr; exact hseen hstate,
      fun hcareful r hr hstate => by cases hr; exact hunmoved hcareful hstate, hsound.lost⟩,
      fun r hr => by rw [hnone] at hr; cases hr⟩
  split
  · rename_i hvalid
    unfold ensureFile
    split
    · split <;> exact ⟨hsound, fun _ h => h, fun _ _ => trivial⟩
    rename_i hnone
    obtain ⟨hafter, hkept⟩ := hwritten hvalid hnone
    split
    · exact ⟨hafter, hkept, fun _ _ => trivial⟩
    · exact ⟨hsound, fun _ h => h, fun _ _ => trivial⟩
    · exact ⟨hafter, hkept, fun _ _ => trivial⟩
  · exact ⟨hsound, fun _ h => h, fun _ _ => trivial⟩

theorem retainTerminal_spec {state : ReceiptState} {errorCode : Option String}
    {now : ConveneWire.Admission.Instant} (hstate : state ≠ .prepared)
    (hcode : state = .succeeded ↔ errorCode = none) :
    Leads admission valid careful (MayRecord admission careful state)
      (retainTerminal admission valid state errorCode now) fun _ _ => True :=
  .bind (putReceipt_spec fun hvalid => ⟨hvalid, state, errorCode, now, hstate, hcode, rfl⟩)
    fun _ => retain_spec

/-! ## Execute -/

/-- No error is reported as a success. -/
theorem integrationFailure_state (e : IntegrationError) :
    (integrationFailure e).1 ≠ .prepared ∧ (integrationFailure e).1 ≠ .succeeded := by
  cases e with
  | git e => cases e <;> exact ⟨by decide, by decide⟩
  | targetMoved | targetCheckedOut | nonFastForward | outcomeUnknown =>
    exact ⟨by decide, by decide⟩

theorem executeCAS_spec (now : ConveneWire.Admission.Instant) :
    Leads admission valid careful Ready (executeCAS admission valid now) fun _ _ => True := by
  refine .bind (ask_spec stable_ready _) fun granted => ?_
  split
  · exact (retainTerminal_spec (by decide) (by simp)).strengthen fun s hs =>
      ⟨hs.1, fun h => (by cases h), fun _ _ => hs.2.1.updates⟩
  refine .bind integrateExactTarget_spec fun result => ?_
  refine .bind (ask_spec (stable_reports result) _) fun later => ?_
  cases result with
  | ok _ =>
    exact (retainTerminal_spec (by decide) (by simp)).strengthen fun s hs =>
      ⟨hs.1, fun _ => hs.2.2, fun _ h => by rcases h with h | h <;> cases h⟩
  | error e =>
    obtain ⟨hprepared, hsucceeded⟩ := integrationFailure_state e
    exact (retainTerminal_spec hprepared (by simp [hsucceeded])).strengthen fun s hs =>
      ⟨hs.1, fun h => absurd h hsucceeded, hs.2.2⟩

/-- What a look at the branch says to a call that finds an intent. -/
structure Recovered (admission : Admission) (current : Option String) (s : Repository) : Prop where
  receipt : s.receipt = none
  intent : s.intent.isSome
  seen : current = some admission.candidate → admission.candidate ∈ s.seen
  unmoved : current = some admission.expected → s.updates = []

theorem stable_recovered (current : Option String) :
    Stable admission (Recovered admission current) := by
  rintro s _ ⟨commit, -, rfl⟩ h
  exact ⟨h.receipt, h.intent, h.seen, h.unmoved⟩

theorem recoverOrExecute_spec (source : Bool) (now : ConveneWire.Admission.Instant) :
    Leads admission valid careful (fun s => s.receipt = none ∧ s.intent.isSome)
      (recoverOrExecute admission valid source now) fun _ _ => True := by
  have hunknown : ∀ {P : Repository → Prop} {code : String}, Leads admission valid careful P
        (retainTerminal admission valid .outcomeUnknown (some code) now) fun _ _ => True := fun {_ _} =>
    (retainTerminal_spec (by decide) (by simp)).strengthen fun s hs =>
      ⟨hs.1, fun h => (by cases h), fun _ h => by rcases h with h | h <;> cases h⟩
  unfold recoverOrExecute
  split
  · exact hunknown
  have hlook : Leads admission valid careful (fun s => s.receipt = none ∧ s.intent.isSome)
      integrationTarget (Recovered admission) := by
    refine integrationTarget_spec stable_recovered ?_ ?_
    · rintro s ⟨-, hreceipt, hintent⟩
      exact ⟨hreceipt, hintent, fun h => (by cases h), fun h => (by cases h)⟩
    · rintro s ⟨hsound, hreceipt, hintent⟩
      exact ⟨hreceipt, hintent, fun h => (by simp [h]),
        fun h => hsound.updates.resolve_right fun hmoved => hmoved.2.2 h⟩
  refine .bind hlook fun current => ?_
  cases current with
  | none => exact hunknown
  | some commit =>
    dsimp only
    split
    · rename_i hcandidate
      exact (retainTerminal_spec (by decide) (by simp)).strengthen fun s hs =>
        ⟨hs.1, fun _ => hs.2.seen (congrArg some hcandidate),
          fun _ h => by rcases h with h | h <;> cases h⟩
    · split
      · exact hunknown
      rename_i hexpected
      have hexpected : some commit = some admission.expected :=
        congrArg some (not_not.mp hexpected)
      exact (executeCAS_spec now).strengthen fun s hs =>
        ⟨hs.1, ⟨hs.2.receipt, hs.2.unmoved hexpected⟩, hs.2.intent⟩

/-- Without an intent on file nothing was moved. -/
theorem Sound.unmoved_of_no_intent (h : Sound admission valid careful s) (hintent : s.intent = none) :
    s.updates = [] :=
  h.updates.resolve_right fun hmoved => by simp [hintent] at hmoved

theorem putIntent_spec :
    Leads admission valid careful Untouched (putIntent admission) fun _ => Ready := by
  refine step_spec (fun _ => stable_ready) ?_
  rintro s a ⟨hsound, hreceipt, hupdates⟩
  have hwritten : Sound admission valid careful { s with intent := some admission } :=
    ⟨hsound.shaped, .inl hupdates, hsound.succeeded, hsound.unmoved, hsound.lost⟩
  unfold ensureFile
  split
  · rename_i stored hstored
    split
    · exact ⟨hsound, fun _ h => h, fun _ _ => ⟨⟨hreceipt, hupdates⟩, by simp [hstored]⟩⟩
    · exact ⟨hsound, fun _ h => h, fun _ h => by cases h⟩
  · split
    · exact ⟨hwritten, fun _ h => h, fun _ _ => ⟨⟨hreceipt, hupdates⟩, rfl⟩⟩
    · exact ⟨hsound, fun _ h => h, fun _ h => by cases h⟩
    · exact ⟨hwritten, fun _ h => h, fun _ h => by cases h⟩

theorem stable_intent (intent : Option Admission) :
    Stable admission fun s => s.receipt = none ∧ s.intent = intent := by
  rintro s _ ⟨commit, -, rfl⟩ h
  exact h

theorem executeOpen_spec (intent : Option Admission) :
    Leads admission valid careful (fun s => s.receipt = none ∧ s.intent = intent)
      (executeOpen admission valid intent) fun _ _ => True := by
  unfold executeOpen
  split
  · exact .fail fun _ _ => trivial
  refine .bind (ask_spec (stable_intent intent) _) fun (now, source, granted) => ?_
  dsimp only
  split
  · exact .fail fun _ _ => trivial
  cases intent with
  | some stored =>
    exact (recoverOrExecute_spec source now).strengthen fun s hs =>
      ⟨hs.1, hs.2.1, by simp [hs.2.2]⟩
  | none =>
    simp only [Option.isSome_none, Bool.false_eq_true, if_false]
    split
    · exact (retainTerminal_spec (by decide) (by simp)).strengthen fun s hs =>
        ⟨hs.1, fun h => (by cases h), fun _ _ => hs.1.unmoved_of_no_intent hs.2.2⟩
    · refine .bind (putIntent_spec.strengthen fun s hs => ?_) fun _ => executeCAS_spec now
      exact ⟨hs.1, hs.2.1, hs.1.unmoved_of_no_intent hs.2.2⟩

theorem execute_spec :
    Leads admission valid careful (fun _ => True) (execute admission valid) fun _ _ => True := by
  refine .bind (ask_spec stable_true _) fun retrieved => ?_
  split
  · exact .fail fun _ _ => trivial
  have hread : Leads admission valid careful (fun _ => True) readReceipt
      fun receipt s => receipt = none → s.receipt = none := by
    refine step_spec (fun _ => ?_) fun s a hs => ?_
    · rintro s _ ⟨commit, -, rfl⟩ h
      exact h
    · split
      · exact ⟨hs.1, fun _ h => h, fun x hx => by cases hx; exact id⟩
      · exact ⟨hs.1, fun _ h => h, fun x hx => by cases hx⟩
  refine .bind hread fun receipt => ?_
  cases receipt with
  | some receipt => exact retain_spec.strengthen fun s hs => ⟨hs.1, trivial⟩
  | none =>
    have hintent : Leads admission valid careful (fun s => s.receipt = none) readIntent
        fun intent s => s.receipt = none ∧ s.intent = intent := by
      refine step_spec stable_intent fun s a hs => ?_
      split
      · exact ⟨hs.1, fun _ h => h, fun x hx => by cases hx; exact ⟨hs.2, rfl⟩⟩
      · exact ⟨hs.1, fun _ h => h, fun x hx => by cases hx⟩
    refine .bind (hintent.strengthen fun s hs => ⟨hs.1, hs.2 rfl⟩) fun intent => ?_
    exact executeOpen_spec intent

/-! ## Runs -/

/-- Calls of `Execute` for the operation, one at a time, each of them stopped anywhere;
others move the branch, and under `careful` not while a move is not yet looked at. -/
abbrev Step (admission : Admission) (valid : RepositoryOperationReceipt → Bool) (careful : Prop) :
    Serial Repository Answer → Serial Repository Answer → Prop :=
  Serial.Step (· = execute admission valid) (fun s t => t = { s with lost := false })
    fun s t => (careful → s.lost = false) ∧ Moves admission s t

/-- Nothing of the operation is on file. -/
def Repository.fresh (branch : Option String) : Repository := ⟨branch, none, none, [], [], false⟩

theorem sound_fresh (branch : Option String) : Sound admission valid careful (.fresh branch) :=
  ⟨fun _ h => (by cases h), .inl rfl, fun _ h => (by cases h), fun _ _ h => (by cases h),
    fun h => by cases h⟩

theorem execute_fits :
    Serial.Fits (· = execute admission valid) (fun s t => t = { s with lost := false })
      (fun s t => (careful → s.lost = false) ∧ Moves admission s t) (contract admission valid careful)
      (Sound admission valid careful) where
  started := by
    rintro _ s rfl hs
    exact (execute_spec.weaken fun _ _ _ => trivial).runs stable_true.preserved ⟨hs, trivial⟩
  kept hguar hs := (hguar hs).1
  crashed := by
    rintro s _ rfl hs
    simpa using hs.look []
  allowed h := h
  undisturbed h hs := hs.moves h

theorem Step.safe (hrun : ReflTransGen (Step admission valid careful) system system')
    (h : Serial.Safe (contract admission valid careful) (Sound admission valid careful) system) :
    Serial.Safe (contract admission valid careful) (Sound admission valid careful) system' :=
  execute_fits.preserved.run hrun h

/-- A receipt on file stays as it is along a run. -/
theorem Step.kept
    (h : Serial.Safe (contract admission valid careful) (Sound admission valid careful) system)
    (hrun : ReflTransGen (Step admission valid careful) system system') :
    Kept system.shared system'.shared := by
  induction hrun with
  | refl => exact fun _ h => h
  | tail hbefore hstep ih =>
    have hsafe := Step.safe hbefore h
    intro receipt hreceipt
    have hhere := ih receipt hreceipt
    cases hstep with
    | start | finish => exact hhere
    | act i => exact (((hsafe.running rfl).guar i) hsafe.shared).2 receipt hhere
    | crash hcrash => subst hcrash; exact hhere
    | other hother =>
      obtain ⟨-, commit, -, rfl⟩ := hother
      exact hhere

theorem safe_fresh (branch : Option String) :
    Serial.Safe (contract admission valid careful) (Sound admission valid careful)
      (⟨.fresh branch, none⟩ : Serial Repository Answer) :=
  ⟨sound_fresh branch, fun h => by cases h⟩

/-- Over every run of calls, crashes and moves by others, the operation moves the branch
at most once and only from the expected commit to the candidate, a receipt of success was
seen on the branch, and a receipt never changes. Where nobody moves the branch between an
update that was stopped after it took effect and the look that follows it, a receipt of
failure or cancellation says that the operation never moved the branch. -/
theorem integration_exact {branch : Option String} {system : Serial Repository Answer}
    (hrun : ReflTransGen (Step admission valid False) ⟨.fresh branch, none⟩ system) :
    (system.shared.updates = [] ∨
      system.shared.updates = [(admission.expected, admission.candidate)]) ∧
    (∀ receipt, system.shared.receipt = some receipt → receipt.state = .succeeded →
      admission.candidate ∈ system.shared.seen) ∧
    (∀ later, ReflTransGen (Step admission valid False) system later →
      Kept system.shared later.shared) ∧
    (ReflTransGen (Step admission valid True) ⟨.fresh branch, none⟩ system →
      ∀ receipt, system.shared.receipt = some receipt → receipt.state.negative →
        system.shared.updates = []) := by
  have hsafe := Step.safe hrun (safe_fresh branch)
  refine ⟨hsafe.shared.updates.imp id And.left, hsafe.shared.succeeded,
    fun later hlater => Step.kept hsafe hlater, fun hcareful => ?_⟩
  exact (Step.safe hcareful (safe_fresh branch)).shared.unmoved trivial

/-! A sample operation on a branch at its expected commit. -/

def sampleAction : Grants.IntegrateAction where
  candidateCommit := "c"
  candidateTree := "t"
  inputDigest := "i"
  target := ⟨"repo_00000001", "refs/heads/m", "e"⟩
  integrationApprovalOperationId := "op_00000001"
  verificationIds := ["verification_00000001"]

def sampleAdmission : Admission where
  operation :=
    { operationId := "op_00000002"
      plan := ⟨"plan_00000001", 1, "d", "op_00000003", "room_00000001", "task_00000001"⟩
      execution := none
      repositoryId := "repo_00000001"
      bindingId := "repobind_00000001"
      deviceId := "device_00000001"
      grant := ⟨"grant_00000001", 1, "d", ⟨"t", some 10⟩⟩
      expectedGeneration := "g"
      deadline := ⟨"t", some 9⟩
      action := .integrate sampleAction
      requestDigest := "r" }
  action := sampleAction
  isIntegrate := rfl
  checkpoint := ⟨"checkpoint_00000001", "repo_00000001", "repobind_00000001", "g", "c", "t", "i"⟩
  approvalDigest := "a"
  admittedAt := ⟨"t", some 1⟩

/-- Everything succeeds. -/
def sampleAnswer : Answer where
  retrieved := true
  reads := true
  now := 2
  source := true
  granted := true
  io := .ok
  accepted := true
  checked := none
  inspects := true
  checkedOut := .ok false
  imported := none
  ancestor := .ok true
  context := none
  update := .done

def sampleReceipt (state : ReceiptState) (code : Option String) : RepositoryOperationReceipt :=
  terminalReceipt sampleAdmission state code 2

theorem sample_integrated :
    ∃ system, ReflTransGen (Step sampleAdmission (fun _ => true) True) ⟨.fresh (some "e"), none⟩
        system ∧
      system.shared.receipt = some (sampleReceipt .succeeded none) ∧ "c" ∈ system.shared.seen := by
  have hrun : ∀ careful, ReflTransGen (Step sampleAdmission (fun _ => true) careful)
      ⟨.fresh (some "e"), none⟩
      ⟨((execute sampleAdmission fun _ => true).run sampleAnswer (.fresh (some "e"))).2, none⟩ :=
    fun _ => .head (.start rfl) (Serial.run_alone _ _ _)
  exact ⟨_, hrun True, rfl, (integration_exact (hrun False)).2.1 _ rfl rfl⟩

/-- `update-ref` is stopped after it took effect, somebody builds on the candidate before
the look that follows, and the receipt says that the branch had moved before. -/
theorem moved_but_reported_failed :
    ∃ system, ReflTransGen (Step sampleAdmission (fun _ => true) False) ⟨.fresh (some "e"), none⟩
        system ∧
      system.shared.receipt = some (sampleReceipt .failed (some "INTEGRATION_TARGET_MOVED")) ∧
      system.shared.updates = [("e", "c")] := by
  let stopped : Answer := { sampleAnswer with update := .stopped .canceled }
  -- fourteen actions up to and including `update-ref`
  let reached := (execute sampleAdmission fun _ => true).advance (.fresh (some "e"))
    (List.replicate 14 stopped)
  have hreached : ReflTransGen (Step sampleAdmission (fun _ => true) False)
      ⟨.fresh (some "e"), none⟩ ⟨reached.1, some reached.2⟩ :=
    .head (.start rfl) (Serial.run_advance _ _ _)
  have hmoved : Step sampleAdmission (fun _ => true) False ⟨reached.1, some reached.2⟩
      ⟨{ reached.1 with branch := some "x" }, some reached.2⟩ :=
    .other ⟨False.elim, some "x", by decide, rfl⟩
  exact ⟨_, (hreached.tail hmoved).trans (Serial.run_alone _ _ stopped), rfl, rfl⟩

end ConveneWire.Integration
