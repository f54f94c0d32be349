import ConveneWire.Grants.Reads

/-! # Revocation is final

Records and revocations are only ever added. A grant is revoked by its own revocation,
by that of the work policy it was derived from, or by that of its binding, and each of
the three is read again by every check and by every replay of an issue. -/

namespace ConveneWire.Grants

open Relation (ReflTransGen)
open Transactional (ensure_eq_ok ensure_eq_error bind_eq_ok bind_eq_error)

/-! ## What a call leaves on file -/

variable {id : String}

namespace Files

variable {α β : Type} {key : α → String} {rows rows' rows'' : List (Files α β)}

theorem find_key {files : Files α β} (h : find key id rows = some files) :
    key files.record = id := by
  have hkey := List.find?_some h
  simpa using hkey

/-- Every record stays, and so does its revocation. -/
def Grows (key : α → String) (rows rows' : List (Files α β)) : Prop :=
  ∀ id files, find key id rows = some files →
    ∃ revoked, find key id rows' = some ⟨files.record, revoked⟩ ∧
      (files.revoked.isSome → revoked.isSome)

theorem Grows.refl (rows : List (Files α β)) : Grows key rows rows := fun _ files h =>
  ⟨files.revoked, h, id⟩

theorem Grows.trans (h : Grows key rows rows') (h' : Grows key rows' rows'') :
    Grows key rows rows'' := fun id files hfiles => by
  obtain ⟨revoked, hfiles', hrevoked⟩ := h id files hfiles
  obtain ⟨revoked', hfiles'', hrevoked'⟩ := h' id _ hfiles'
  exact ⟨revoked', hfiles'', hrevoked' ∘ hrevoked⟩

theorem grows_add (record : α) : Grows key rows (add rows record) := fun _ files h =>
  ⟨files.revoked, Table.lookup_append_of_some h, id⟩

/-- What a revocation does to the files of an id. -/
theorem find_revoke {id' : String} {receipt : β} : find key id' (revoke key rows id receipt) =
      (find key id' rows).map fun files =>
        if key files.record = id then { files with revoked := some receipt } else files :=
  Table.lookup_update fun _ => rfl

theorem grows_revoke {receipt : β} : Grows key rows (revoke key rows id receipt) := by
  intro id' files hfiles
  rw [find_revoke, hfiles, Option.map_some]
  split
  · exact ⟨some receipt, rfl, fun _ => rfl⟩
  · exact ⟨files.revoked, rfl, fun h => h⟩

end Files

namespace BindingStore

variable {config : Config} {a : Answer} {s t u next : BindingStore} {id : String} {io : Bridge.Io}
  {α : Type} {after : Except RepositoryError α}

structure Grows (s t : BindingStore) : Prop where
  bindings : Files.Grows BindingRecord.bindingId s.bindings t.bindings
  grants : Files.Grows TaskGrantRecord.id s.grants t.grants
  policies : Files.Grows WorkPolicyRecord.id s.policies t.policies

theorem Grows.refl (s : BindingStore) : Grows s s := ⟨.refl _, .refl _, .refl _⟩

theorem Grows.trans (h : Grows s t) (h' : Grows t u) : Grows s u :=
  ⟨h.bindings.trans h'.bindings, h.grants.trans h'.grants, h.policies.trans h'.policies⟩

theorem grows_written (h : Grows s next) : Grows s (written io s next after).2 := by
  cases io with
  | ok | failsAfter => exact h
  | failsBefore => exact .refl s

/-! ## Runs of the store -/

inductive Call where
  | bind (input : BindRepository)
  | revoke (binding : String) (expectedRevision : Int)
  | createWorkPolicy (spec : WorkPolicySpec)
  | revokeWorkPolicy (id : String) (revision : Int) (expectedDigest : String)
  | issueTaskGrant (spec : TaskGrantSpec)
  | deriveWorkTaskGrant (spec : TaskGrantSpec) (parent : WorkGrantParent)
  | revokeTaskGrant (id : String) (expectedRevision : Int) (expectedDigest : String)
  | checkTaskGrant (manifest : GovernedExecutionManifest) (operation : OperationKind)
  | checkIntegrationGrant (operation : RepositoryOperationRequest)

/-- The store after a call; the checks only read. -/
def Call.exec (config : Config) (a : Answer) (s : BindingStore) : Call → BindingStore
  | .bind input => (s.bind config a input).2
  | .revoke binding revision => (s.revoke config a binding revision).2
  | .createWorkPolicy spec => (s.createWorkPolicy config a spec).2
  | .revokeWorkPolicy id revision digest => (s.revokeWorkPolicy config a id revision digest).2
  | .issueTaskGrant spec => (s.issueTaskGrant config a spec).2
  | .deriveWorkTaskGrant spec parent => (s.deriveWorkTaskGrant config a spec parent).2
  | .revokeTaskGrant id revision digest => (s.revokeTaskGrant config a id revision digest).2
  | .checkTaskGrant _ _ | .checkIntegrationGrant _ => s

/-- A call, or a process that stops and leaves temporary files behind. -/
inductive Step (config : Config) : BindingStore → BindingStore → Prop where
  | call (s : BindingStore) (a : Answer) (call : Call) : Step config s (call.exec config a s)
  | residue (s : BindingStore) (bindings grants policies : Nat) :
      Step config s { s with
        pendingBindings := s.pendingBindings + bindings
        pendingGrants := s.pendingGrants + grants
        pendingPolicies := s.pendingPolicies + policies }

theorem grows_issue {spec : TaskGrantSpec} {parent : Option WorkGrantParent} :
    Grows s (s.issue config a spec parent).2 := by
  unfold issue
  split
  · exact .refl s
  · exact .refl s
  · exact grows_written { Grows.refl s with grants := Files.grows_add _ }

theorem grows_exec (call : Call) : Grows s (call.exec config a s) := by
  cases call with
  | bind input =>
    simp only [Call.exec, bind]
    split
    · exact .refl s
    · exact .refl s
    · exact grows_written { Grows.refl s with bindings := Files.grows_add _ }
  | revoke binding revision =>
    simp only [Call.exec, revoke]
    split
    · exact .refl s
    · exact .refl s
    · exact grows_written { Grows.refl s with bindings := Files.grows_revoke }
  | createWorkPolicy spec =>
    simp only [Call.exec, createWorkPolicy]
    split
    · exact .refl s
    · exact .refl s
    · exact grows_written { Grows.refl s with policies := Files.grows_add _ }
  | revokeWorkPolicy id revision digest =>
    simp only [Call.exec, revokeWorkPolicy]
    split
    · exact .refl s
    · exact .refl s
    · exact grows_written { Grows.refl s with policies := Files.grows_revoke }
  | issueTaskGrant spec => exact grows_issue
  | deriveWorkTaskGrant spec parent =>
    simp only [Call.exec, deriveWorkTaskGrant]
    split
    · exact .refl s
    · exact grows_issue
  | revokeTaskGrant id revision digest =>
    simp only [Call.exec, revokeTaskGrant]
    split
    · exact .refl s
    · exact .refl s
    · exact grows_written { Grows.refl s with grants := Files.grows_revoke }
  | checkTaskGrant | checkIntegrationGrant => exact .refl s

theorem Step.grows (h : Step config s t) : Grows s t := by
  cases h with
  | call a call => exact grows_exec call
  | residue bindings grants policies => exact ⟨.refl _, .refl _, .refl _⟩

theorem grows_run (h : ReflTransGen (Step config) s t) : Grows s t :=
  Transition.run_relates Grows.refl (fun h hstep => h.trans hstep.grows) h

/-! ## Revoked grants -/

/-- A revocation of the grant, of the policy it was derived from or of its binding is on file. -/
inductive Revoked (s : BindingStore) (record : TaskGrantRecord) : Prop where
  | grant {files : Files TaskGrantRecord TaskGrantRevocation}
      (hfiles : s.grant? record.id = some files) (hrevoked : files.revoked.isSome)
  | policy {parent : WorkGrantParent} {files : Files WorkPolicyRecord WorkPolicyRevocation}
      (hparent : record.workPolicy = some parent) (hfiles : s.policy? parent.policyId = some files)
      (hrevoked : files.revoked.isSome)
  | binding {files : Files BindingRecord BindingRevocation}
      (hfiles : s.binding? record.spec.bindingId = some files) (hrevoked : files.revoked.isSome)

variable {record : TaskGrantRecord} {parent : WorkGrantParent} {summary : GrantSummary}

theorem Revoked.grows (h : Revoked s record) (hgrows : Grows s t) : Revoked t record := by
  cases h with
  | grant hfiles hrevoked =>
    obtain ⟨revoked, hfiles', hkept⟩ := hgrows.grants _ _ hfiles
    exact .grant hfiles' (hkept hrevoked)
  | policy hparent hfiles hrevoked =>
    obtain ⟨revoked, hfiles', hkept⟩ := hgrows.policies _ _ hfiles
    exact .policy hparent hfiles' (hkept hrevoked)
  | binding hfiles hrevoked =>
    obtain ⟨revoked, hfiles', hkept⟩ := hgrows.bindings _ _ hfiles
    exact .binding hfiles' (hkept hrevoked)

theorem earlier_eq_none {own parent : Option Admission.Instant} (h : earlier own parent = none) :
    own = none ∧ parent = none := by
  cases own <;> cases parent <;> simp only [earlier] at h <;> first | exact ⟨rfl, rfl⟩ | skip
  · cases h
  · cases h
  · split at h <;> cases h

theorem withRevocation_eq_none {revokedAt : Option Admission.Instant}
    (h : (withRevocation summary revokedAt).revokedAt = none) : revokedAt = none := by
  cases revokedAt with
  | none => rfl
  | some at' => cases h

theorem parentRevocation_ne_notExist : s.parentRevocation config a record ≠ .error .notExist := by
  unfold parentRevocation
  split
  · exact fun h => by cases h
  split
  · exact fun h => by cases h
  · simp only [ne_eq, bind_eq_error, ensure_eq_error, reduceCtorEq, and_false, false_or]
    rintro ⟨-, -, h⟩
    cases h

theorem getTaskGrant_ne_notExist {files : Files TaskGrantRecord TaskGrantRevocation}
    (hfiles : s.grant? id = some files) : s.getTaskGrant config a id ≠ .error .notExist := by
  intro h
  simp only [getTaskGrant, bind_eq_error, ensure_eq_error, reduceCtorEq, and_false, false_or] at h
  obtain ⟨-, -, hread | ⟨record, -, -, -, h⟩⟩ := h
  · simp only [hfiles, Option.map_some] at hread
    exact readBindingJSON_ne_notExist hread
  cases hsummary : taskGrantSummary config record with
  | none => rw [hsummary] at h; cases h
  | some summary =>
    simp only [hsummary, bind_eq_error, ensure_eq_error, reduceCtorEq, and_false, false_or] at h
    obtain hread | ⟨_, -, -, -, hparent | ⟨_, -, h⟩⟩ := h
    · exact readRevocation_ne_notExist hread
    · exact parentRevocation_ne_notExist hparent
    · cases h

theorem deriveDecision_grantId {spec derived : TaskGrantSpec}
    (h : s.deriveDecision config a spec parent = .ok derived) :
    derived.grantId = config.workTaskGrantID parent := by
  simp only [deriveDecision, bind_eq_ok, ensure_eq_ok] at h
  obtain ⟨-, -, checked, -, view, -, -, -, -, -, previous, -, -, -, base, -, -, -, h⟩ := h
  cases h
  rfl

theorem taskGrantSummary_revokedAt
    (h : taskGrantSummary config record = some summary) : summary.revokedAt = none := by
  unfold taskGrantSummary at h
  split at h
  · cases h
  split at h
  · cases h
    rfl
  · cases h

variable {view : TaskGrantView} {revision : Int} {digest : String}

/-- Where the reader says that a grant is not revoked, neither it nor its policy is. -/
theorem getTaskGrant_unrevoked (h : s.getTaskGrant config a id = .ok (record, view))
    (hview : view.summary.revokedAt = none) :
    s.grant? id = some ⟨record, none⟩ ∧ ∀ {parent}, record.workPolicy = some parent →
        ∃ policy, s.policy? parent.policyId = some ⟨policy, none⟩ := by
  obtain ⟨revoked, summary, parentRevoked, hfiles, -, hparent, rfl⟩ := getTaskGrant_ok h
  obtain ⟨hown, hpolicy⟩ := earlier_eq_none (withRevocation_eq_none hview)
  obtain rfl := Option.map_eq_none_iff.mp hown
  refine ⟨hfiles, fun hderived => ?_⟩
  obtain ⟨policy, revoked', hfiles', -, hrevoked⟩ := parentRevocation_ok hderived hparent
  obtain rfl := Option.map_eq_none_iff.mp (hrevoked.symm.trans hpolicy)
  exact ⟨policy, hfiles'⟩

/-- What every check and every replay asks for is not there any more. -/
theorem Revoked.not_current (h : Revoked s record)
    (hget : s.getTaskGrant config a id = .ok (record, view)) (hview : view.summary.revokedAt = none)
    (hbinding : s.checkGrantBinding config a record.spec = .ok ()) : False := by
  obtain ⟨hgrant, hpolicy⟩ := getTaskGrant_unrevoked hget hview
  cases h with
  | grant hfiles hrevoked =>
    have hid : record.id = id := Files.find_key hgrant
    obtain rfl := Option.mem_unique hgrant (hid ▸ hfiles)
    cases hrevoked
  | policy hparent hfiles hrevoked =>
    obtain ⟨policy, hfiles'⟩ := hpolicy hparent
    obtain rfl := Option.mem_unique hfiles' hfiles
    cases hrevoked
  | binding hfiles hrevoked =>
    obtain ⟨found, hfiles'⟩ := checkGrantBinding_ok hbinding
    obtain rfl := Option.mem_unique hfiles' hfiles
    cases hrevoked

section

variable {revoked : Option TaskGrantRevocation} (hfiles : s.grant? id = some ⟨record, revoked⟩)
  (h : Revoked s record)
include hfiles h

/-- The reader finds the record on file, so a revoked one is what a command is checked against. -/
theorem Revoked.refuses {found : TaskGrantRecord} {view : TaskGrantView}
    (hget : s.getTaskGrant config a id = .ok (found, view)) (hview : view.summary.revokedAt = none)
    (hbinding : s.checkGrantBinding config a found.spec = .ok ()) : False := by
  obtain ⟨revoked', -, -, hfiles', -, -, -⟩ := getTaskGrant_ok hget
  obtain ⟨rfl, -⟩ := Files.mk.inj (Option.mem_unique hfiles' hfiles)
  exact h.not_current hget hview hbinding

theorem Revoked.checkTaskGrant {manifest : GovernedExecutionManifest} {operation : OperationKind}
    (hid : manifest.grant.grantId = id) : s.checkTaskGrant config a manifest operation ≠ .ok () := by
  intro hcheck
  obtain ⟨found, view, hget, hview, -, hbinding⟩ := checkTaskGrant_ok hcheck
  exact h.refuses hfiles (hid ▸ hget) hview hbinding

theorem Revoked.checkIntegrationGrant {operation : RepositoryOperationRequest}
    (hid : operation.grant.grantId = id) : s.checkIntegrationGrant config a operation ≠ .ok () := by
  intro hcheck
  obtain ⟨found, view, hget, hview, hbinding⟩ := checkIntegrationGrant_ok hcheck
  exact h.refuses hfiles (hid ▸ hget) hview hbinding

theorem Revoked.issueDecision {spec : TaskGrantSpec} {parent : Option WorkGrantParent}
    (hid : spec.grantId = id) : ∃ e, s.issueDecision config a spec parent = .error e := by
  cases hdecision : s.issueDecision config a spec parent with
  | error e => exact ⟨e, rfl⟩
  | ok decision =>
    simp only [BindingStore.issueDecision, bind_eq_ok, ensure_eq_ok] at hdecision
    obtain ⟨-, -, -, -, normalized, hnormalized, previous, hprevious, -, hrevoked, -, hsame, -, -,
      ⟨⟩, hbinding, -⟩ := hdecision
    have hnormalizedId : normalized.grantId = id := (normalizeTaskGrant_grantId hnormalized).trans hid
    rw [hnormalizedId] at hprevious
    cases previous with
    | none =>
      -- the record is on file, so the reader cannot miss it
      exact absurd (missingIsNone_none hprevious) (getTaskGrant_ne_notExist hfiles)
    | some previous =>
      obtain ⟨found, view⟩ := previous
      simp only [Option.all_some, Bool.and_eq_true, beq_iff_eq, Option.isNone_iff_eq_none] at hrevoked hsame
      exact (h.refuses hfiles (missingIsNone_some hprevious) hrevoked (hsame.1 ▸ hbinding)).elim

/-- A replay of the issue is refused, and nothing is written. -/
theorem Revoked.issue {spec : TaskGrantSpec} {parent : Option WorkGrantParent}
    (hid : spec.grantId = id) : ∃ e, s.issue config a spec parent = (.error e, s) := by
  obtain ⟨e, he⟩ := @Revoked.issueDecision config a s id record revoked hfiles h spec parent hid
  exact ⟨e, by rw [BindingStore.issue, he]⟩

theorem Revoked.deriveWorkTaskGrant {spec : TaskGrantSpec}
    (hid : config.workTaskGrantID parent = id) :
    ∃ e, s.deriveWorkTaskGrant config a spec parent = (.error e, s) := by
  unfold BindingStore.deriveWorkTaskGrant
  cases hdecision : s.deriveDecision config a spec parent with
  | error e => exact ⟨e, rfl⟩
  | ok derived => exact h.issue hfiles ((deriveDecision_grantId hdecision).trans hid)

end

/-! ## Revocations that succeed -/

theorem written_ok {value : α} (h : (written io s next after).1 = .ok value) :
    (written io s next after).2 = next := by
  cases io with
  | ok | failsAfter => rfl
  | failsBefore => cases h

theorem find_revoke_isSome {β : Type} {key : α → String} {rows : List (Files α β)} {receipt : β}
    {files : Files α β} (h : Files.find key id rows = some files) :
    Files.find key id (Files.revoke key rows id receipt) = some ⟨files.record, some receipt⟩ := by
  rw [Files.find_revoke, h, Option.map_some, if_pos (Files.find_key h)]

theorem revoke_ok {binding : String} {view : BindingView}
    (h : (s.revoke config a binding revision).1 = .ok view) :
    ∃ record receipt,
      (s.revoke config a binding revision).2.binding? binding = some ⟨record, some receipt⟩ := by
  unfold revoke at h ⊢
  cases hdecision : s.revokeDecision config a binding revision with
  | error e => rw [hdecision] at h; cases h
  | ok decision =>
    rw [hdecision] at h
    simp only [revokeDecision, bind_eq_ok, ensure_eq_ok] at hdecision
    obtain ⟨-, -, -, -, ⟨record, found⟩, hget, hdecision⟩ := hdecision
    obtain ⟨revoked, hfiles, rfl⟩ := get_ok hget
    split at hdecision
    · rename_i hrevoked
      simp only [bind_eq_ok, ensure_eq_ok] at hdecision
      obtain ⟨-, -, hdecision⟩ := hdecision
      cases hdecision
      obtain ⟨receipt, rfl⟩ := Option.isSome_iff_exists.mp (by simpa [bindingView] using hrevoked)
      exact ⟨record, receipt, hfiles⟩
    · simp only [bind_eq_ok, ensure_eq_ok] at hdecision
      obtain ⟨-, -, -, -, hdecision⟩ := hdecision
      cases hdecision
      dsimp only at h ⊢
      rw [written_ok h]
      exact ⟨record, _, find_revoke_isSome hfiles⟩

theorem revokeWorkPolicy_ok {view : WorkPolicyView}
    (h : (s.revokeWorkPolicy config a id revision digest).1 = .ok view) : ∃ record receipt,
      (s.revokeWorkPolicy config a id revision digest).2.policy? id = some ⟨record, some receipt⟩ := by
  unfold revokeWorkPolicy at h ⊢
  cases hdecision : s.revokePolicyDecision config a id revision digest with
  | error e => rw [hdecision] at h; cases h
  | ok decision =>
    rw [hdecision] at h
    simp only [revokePolicyDecision, bind_eq_ok, ensure_eq_ok] at hdecision
    obtain ⟨-, -, ⟨record, found⟩, hget, -, -, hdecision⟩ := hdecision
    obtain ⟨revoked, _, hfiles, rfl⟩ := getWorkPolicy_ok hget
    split at hdecision
    · rename_i hrevoked
      simp only [bind_eq_ok, ensure_eq_ok] at hdecision
      obtain ⟨-, -, hdecision⟩ := hdecision
      cases hdecision
      obtain ⟨receipt, rfl⟩ := Option.isSome_iff_exists.mp (by simpa [policyView] using hrevoked)
      exact ⟨record, receipt, hfiles⟩
    · simp only [bind_eq_ok, ensure_eq_ok] at hdecision
      obtain ⟨-, -, hdecision⟩ := hdecision
      cases hdecision
      dsimp only at h ⊢
      rw [written_ok h]
      exact ⟨record, _, find_revoke_isSome hfiles⟩

/-- A grant that the reader shows as revoked is revoked, by itself or by its policy. -/
theorem getTaskGrant_revoked (h : s.getTaskGrant config a id = .ok (record, view))
    (hview : view.summary.revokedAt.isSome) : Revoked s record := by
  obtain ⟨revoked, summary, parentRevoked, hfiles, hsummary, hparent, rfl⟩ := getTaskGrant_ok h
  have hid : record.id = id := Files.find_key hfiles
  cases revoked with
  | some receipt => exact .grant (hid.symm ▸ hfiles) rfl
  | none =>
    cases hderived : record.workPolicy with
    | none =>
      rw [parentRevocation, hderived] at hparent
      cases hparent
      exact absurd hview (by simp [withRevocation, earlier, taskGrantSummary_revokedAt hsummary])
    | some parent =>
      obtain ⟨policy, revoked, hpolicy, -, rfl⟩ := parentRevocation_ok hderived hparent
      cases revoked with
      | some receipt => exact .policy hderived hpolicy rfl
      | none =>
        exact absurd hview (by simp [withRevocation, earlier, taskGrantSummary_revokedAt hsummary])

theorem revokeTaskGrant_ok (h : (s.revokeTaskGrant config a id revision digest).1 = .ok view) :
    ∃ record revoked,
      (s.revokeTaskGrant config a id revision digest).2.grant? id = some ⟨record, revoked⟩ ∧
      Revoked (s.revokeTaskGrant config a id revision digest).2 record := by
  unfold revokeTaskGrant at h ⊢
  cases hdecision : s.revokeGrantDecision config a id revision digest with
  | error e => rw [hdecision] at h; cases h
  | ok decision =>
    rw [hdecision] at h
    simp only [revokeGrantDecision, bind_eq_ok, ensure_eq_ok] at hdecision
    obtain ⟨-, -, -, -, ⟨record, found⟩, hget, -, -, hdecision⟩ := hdecision
    obtain ⟨revoked, -, -, hfiles, -, -, -⟩ := getTaskGrant_ok hget
    split at hdecision
    · rename_i hrevoked
      simp only [bind_eq_ok, ensure_eq_ok] at hdecision
      obtain ⟨-, -, hdecision⟩ := hdecision
      cases hdecision
      exact ⟨record, revoked, hfiles, getTaskGrant_revoked hget hrevoked⟩
    · simp only [bind_eq_ok, ensure_eq_ok] at hdecision
      obtain ⟨-, -, -, -, hdecision⟩ := hdecision
      cases hdecision
      dsimp only at h ⊢
      rw [written_ok h]
      obtain rfl : record.id = id := Files.find_key hfiles
      exact ⟨record, _, find_revoke_isSome hfiles, .grant (find_revoke_isSome hfiles) rfl⟩

/-- A call that revokes the grant, its policy or its binding, and returns the revoked view. -/
inductive Revocation (config : Config) (a : Answer) (s : BindingStore) (record : TaskGrantRecord) :
    BindingStore → Prop where
  | grant {revision : Int} {digest : String} {view : TaskGrantView}
      (h : (s.revokeTaskGrant config a record.id revision digest).1 = .ok view) :
      Revocation config a s record (s.revokeTaskGrant config a record.id revision digest).2
  | policy {parent : WorkGrantParent} {revision : Int} {digest : String} {view : WorkPolicyView}
      (hparent : record.workPolicy = some parent)
      (h : (s.revokeWorkPolicy config a parent.policyId revision digest).1 = .ok view) :
      Revocation config a s record (s.revokeWorkPolicy config a parent.policyId revision digest).2
  | binding {revision : Int} {view : BindingView}
      (h : (s.revoke config a record.spec.bindingId revision).1 = .ok view) :
      Revocation config a s record (s.revoke config a record.spec.bindingId revision).2

theorem Revocation.revoked {revoked : Option TaskGrantRevocation}
    (h : Revocation config a s record t) (hgrows : Grows t u)
    (hfiles : u.grant? record.id = some ⟨record, revoked⟩) : Revoked u record := by
  cases h with
  | grant h =>
    obtain ⟨found, revoked', hfound, hrevoked⟩ := revokeTaskGrant_ok h
    obtain ⟨revoked'', hfound', -⟩ := hgrows.grants _ _ hfound
    obtain ⟨rfl, -⟩ := Files.mk.inj (Option.mem_unique hfound' hfiles)
    exact hrevoked.grows hgrows
  | policy hparent h =>
    obtain ⟨policy, receipt, hpolicy⟩ := revokeWorkPolicy_ok h
    exact (Revoked.policy hparent hpolicy rfl).grows hgrows
  | binding h =>
    obtain ⟨found, receipt, hbinding⟩ := revoke_ok h
    exact (Revoked.binding hbinding rfl).grows hgrows

/-- A revocation that a call has reported, or that is on file however its call ended, is
final: whatever is called after it, no check of the grant succeeds, and no replay of its
issue or derivation writes anything. -/
theorem revocation_is_final {revoked : Option TaskGrantRevocation}
    (hrevoked : Revocation config a s record t ∨ Revoked t record)
    (hrun : ReflTransGen (Step config) t u) (hfiles : u.grant? record.id = some ⟨record, revoked⟩)
    (later : Answer) :
    (∀ manifest operation, manifest.grant.grantId = record.id →
      u.checkTaskGrant config later manifest operation ≠ .ok ()) ∧
    (∀ operation, operation.grant.grantId = record.id →
      u.checkIntegrationGrant config later operation ≠ .ok ()) ∧ (∀ spec, spec.grantId = record.id →
      ∃ e, u.issueTaskGrant config later spec = (.error e, u)) ∧
    ∀ spec parent, config.workTaskGrantID parent = record.id →
      ∃ e, u.deriveWorkTaskGrant config later spec parent = (.error e, u) := by
  have hgrows := grows_run hrun
  have h : Revoked u record := by
    rcases hrevoked with hcall | hon
    · exact hcall.revoked hgrows hfiles
    · exact hon.grows hgrows
  exact ⟨fun _ _ hid => h.checkTaskGrant hfiles hid, fun _ hid => h.checkIntegrationGrant hfiles hid,
    fun _ hid => h.issue hfiles hid, fun _ _ hid => h.deriveWorkTaskGrant hfiles hid⟩

end BindingStore

/-! A store with a binding, a work policy and a grant derived from it. -/

def sampleUnicode : Unicode where
  isControl ch := decide (ch.toNat < 32)
  isFormat _ := false
  isSpace ch := ch == ' '
  toLower text := String.ofList (text.toList.map Char.toLower)
  toUpper text := String.ofList (text.toList.map Char.toUpper)

def sampleHex : String := "0000000000000000000000000000000000000000000000000000000000000000"

def sampleCommit : String := "0000000000000000000000000000000000000000"

def sampleConfig : Config where
  unicode := sampleUnicode
  timeText _ := "time"
  grantSpecSize _ := 0
  grantRecordSize _ := 0
  grantDigest _ := some sampleHex
  grantSchema _ _ := true
  grantReads _ := true
  policySpecSize _ := 0
  policyDigest _ := some sampleHex
  policyReads _ := true
  workTaskGrantID _ := "grant_00000001"
  bindingSize _ := 0
  bindingDigest _ := sampleHex
  bindingReads _ := true
  sourceDigest _ := sampleHex
  validBindingPaths _ := true
  manifestSchema _ := true
  manifestDigest manifest := some manifest.manifestDigest
  inputDigest manifest := some manifest.inputDigest
  operationSchema _ := true
  operationDigest operation := some operation.requestDigest

def sampleScope : ScopePolicy := ⟨.isolatedWrite, ["a"], ["a/b"], false⟩

def sampleProfile : ProfilePin := ⟨"profile_00000001", 1, sampleHex⟩

def samplePolicy : WorkPolicySpec where
  policyId := "workpolicy_00000001"
  displayAlias := "w"
  bindingId := "repobind_00000001"
  bindingRevision := 1
  sourceFingerprint := sampleHex
  repositoryId := "repo_00000001"
  sourceRef := "refs/heads/m"
  agentId := "agent_00000001"
  roomIds := ["room_00000001"]
  initiatorMemberIds := ["member_00000001"]
  operations := [.capture, .prepare]
  runtimeProfile := sampleProfile
  verificationProfiles := []
  scopePolicy := sampleScope
  maxTaskDurationSeconds := 60
  maxRunAttempts := 1
  maxConcurrency := 1
  expiresAt := ⟨"time", some 10⟩

def sampleGrant : TaskGrantSpec where
  grantId := "grant_00000001"
  bindingId := "repobind_00000001"
  bindingRevision := 1
  sourceFingerprint := sampleHex
  repositoryId := "repo_00000001"
  baseCommit := sampleCommit
  planId := "plan_00000001"
  planRevision := 1
  planDigest := sampleHex
  nodeKey := "n"
  roomId := "room_00000001"
  taskId := "task_00000001"
  definitionRevision := 1
  criteriaRevision := 1
  agentId := "agent_00000001"
  expiresAt := ⟨"time", some 10⟩
  operations := [.capture, .prepare]
  runtimeProfile := sampleProfile
  verificationProfiles := []
  scopePolicy := sampleScope
  integrationTargets := []

def sampleOwner : BindingOwner := ⟨"https://c", "team_00000001", "device_00000001", "member_00000001"⟩

def sampleSource : Source := ⟨"/r", "/r/.git", "/r/.git", "sha1", "i", "g", "c"⟩

def sampleAnswer : Answer where
  now := 1
  owned := true
  stillOwned := true
  fails _ := false
  io := .ok
  synced := true
  executable := true
  roots := .ok ["/r"]
  inspect := .ok sampleSource
  apart := true
  branch := some sampleCommit

def sampleParent : WorkGrantParent where
  authorizationId := "op_00000001"
  policyId := "workpolicy_00000001"
  policyDigest := sampleHex
  revision := 1
  initiatorMemberId := "member_00000001"
  maxRunAttempts := 1
  maxConcurrency := 1

def sampleRecord : TaskGrantRecord := ⟨sampleOwner, sampleGrant, 1, some sampleParent⟩

def sampleStore : BindingStore :=
  { BindingStore.empty sampleOwner with
    bindings :=
      [⟨⟨"repobind_00000001", "repo_00000001", "w", sampleOwner, ["/r"], sampleSource, 1⟩, none⟩]
    policies := [⟨⟨sampleOwner, samplePolicy, 1⟩, none⟩]
    grants := [⟨sampleRecord, none⟩] }

def sampleManifest : GovernedExecutionManifest where
  deadline := ⟨"time", some 5⟩
  grant := ⟨"grant_00000001", 1, sampleHex, ⟨"time", some 10⟩⟩
  inputDigest := sampleHex
  manifestDigest := sampleHex
  repository := ⟨sampleCommit, "repobind_00000001", "grant_00000001", 1, "repo_00000001", sampleHex,
    "profile_00000001"⟩
  scope := ⟨"agent_00000001", "op_00000001", 1, 1, "device_00000001", 1, "n", 1, sampleHex,
    "plan_00000001", 1, "room_00000001", "run_00000001", "task_00000001", 1⟩
  scopePolicy := sampleScope
  verificationProfiles := []
  body := ""

theorem sampleManifest_accepted :
    sampleStore.checkTaskGrant sampleConfig sampleAnswer sampleManifest .capture = .ok () := by
  decide +kernel

/-- The grant was good until its policy was revoked. -/
theorem sampleGrant_never_revived :
    sampleStore.checkTaskGrant sampleConfig sampleAnswer sampleManifest .capture = .ok () ∧
    ∀ later, (sampleStore.revokeWorkPolicy sampleConfig sampleAnswer "workpolicy_00000001" 1
      sampleHex).2.checkTaskGrant sampleConfig later sampleManifest .capture ≠ .ok () := by
  refine ⟨sampleManifest_accepted, fun later => ?_⟩
  have hview : (sampleStore.revokeWorkPolicy sampleConfig sampleAnswer "workpolicy_00000001" 1
      sampleHex).1 = .ok (BindingStore.policyView ⟨sampleOwner, samplePolicy, 1⟩ sampleHex
        (some ⟨"workpolicy_00000001", sampleHex, 2, 1⟩)) := by
    decide +kernel
  have hrevoked : BindingStore.Revocation sampleConfig sampleAnswer sampleStore sampleRecord _ :=
    .policy rfl hview
  have hfiles : (sampleStore.revokeWorkPolicy sampleConfig sampleAnswer "workpolicy_00000001" 1
      sampleHex).2.grant? sampleRecord.id = some ⟨sampleRecord, none⟩ := by
    decide +kernel
  exact (BindingStore.revocation_is_final (.inl hrevoked) .refl hfiles later).1 sampleManifest .capture
    rfl

end ConveneWire.Grants
