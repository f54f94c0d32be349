import ConveneWire.Grants.Store

/-! # What the store's readers find

Each reader returns the record on file and the revocation on file, or an error. What a
check accepts is therefore a statement about the files. -/

namespace ConveneWire.Grants

open Transactional (ensure_eq_ok bind_eq_ok)
open Admission (Instant Timestamp)

section

variable {α : Type} {a : Answer} {file : FileName} {content : Option α}
  {x : Except RepositoryError α} {value : α} {reads : α → Bool}

theorem readBindingJSON_ok (h : readBindingJSON a file reads content = .ok value) :
    content = some value := by
  unfold readBindingJSON at h
  split at h
  · cases h
  cases content with
  | none => cases h
  | some stored =>
    simp only at h
    split at h
    · cases h
      rfl
    · cases h

theorem readRevocation_ok {found : Option α} (h : readRevocation a file content = .ok found) :
    found = content := by
  unfold readRevocation at h
  split at h
  · cases h
  · cases h
    rfl

theorem readBindingJSON_ne_notExist :
    readBindingJSON a file reads (some value) ≠ .error .notExist := by
  unfold readBindingJSON
  split
  · exact fun h => by cases h
  · dsimp only
    split <;> exact fun h => by cases h

theorem readRevocation_ne_notExist : readRevocation a file content ≠ .error .notExist := by
  unfold readRevocation
  split <;> exact fun h => by cases h

theorem missingIsNone_none (h : missingIsNone x = .ok none) : x = .error .notExist := by
  unfold missingIsNone at h
  split at h <;> first | rfl | cases h

theorem missingIsNone_some (h : missingIsNone x = .ok (some value)) : x = .ok value := by
  unfold missingIsNone at h
  split at h
  · cases h
    rfl
  · cases h
  · cases h

/-- The record is the one on file, and so is its revocation. -/
theorem Files.of_read {β : Type} {found : Option (Files α β)} {record : α} {revoked : Option β}
    (hrecord : found.map Files.record = some record) (hrevoked : revoked = found.bind Files.revoked) :
    found = some ⟨record, revoked⟩ := by
  cases found with
  | none => cases hrecord
  | some files =>
    cases hrecord
    cases hrevoked
    rfl

end

namespace BindingStore

variable {config : Config} {a : Answer} {s : BindingStore} {id : String} {view : TaskGrantView}

theorem get_ok {record : BindingRecord} {view : BindingView}
    (h : s.get config a id = .ok (record, view)) :
    ∃ revoked, s.binding? id = some ⟨record, revoked⟩ ∧ view = bindingView config record revoked := by
  simp only [get, bind_eq_ok, ensure_eq_ok] at h
  obtain ⟨-, -, stored, hstored, -, -, revoked, hrevoked, -, -, h⟩ := h
  cases h
  exact ⟨revoked, Files.of_read (readBindingJSON_ok hstored) (readRevocation_ok hrevoked), rfl⟩

theorem getWorkPolicy_ok {record : WorkPolicyRecord} {view : WorkPolicyView}
    (h : s.getWorkPolicy config a id = .ok (record, view)) :
    ∃ revoked digest, s.policy? id = some ⟨record, revoked⟩ ∧
      view = policyView record digest revoked := by
  simp only [getWorkPolicy, bind_eq_ok, ensure_eq_ok] at h
  obtain ⟨-, -, stored, hstored, -, -, h⟩ := h
  cases hdigest : config.policyDigest stored with
  | none => simp only [hdigest] at h; cases h
  | some digest =>
    simp only [hdigest, bind_eq_ok, ensure_eq_ok] at h
    obtain ⟨revoked, hrevoked, -, -, h⟩ := h
    cases h
    exact ⟨revoked, digest, Files.of_read (readBindingJSON_ok hstored) (readRevocation_ok hrevoked),
      rfl⟩

theorem getTaskGrant_ok {record : TaskGrantRecord}
    (h : s.getTaskGrant config a id = .ok (record, view)) :
    ∃ revoked summary parent, s.grant? id = some ⟨record, revoked⟩ ∧
      taskGrantSummary config record = some summary ∧
      s.parentRevocation config a record = .ok parent ∧ view = ⟨record.spec, withRevocation summary
        (earlier (revoked.map TaskGrantRevocation.revokedAt) parent), record.workPolicy⟩ := by
  simp only [getTaskGrant, bind_eq_ok, ensure_eq_ok] at h
  obtain ⟨-, -, stored, hstored, -, -, h⟩ := h
  cases hsummary : taskGrantSummary config stored with
  | none => simp only [hsummary] at h; cases h
  | some summary =>
    simp only [hsummary, bind_eq_ok, ensure_eq_ok] at h
    obtain ⟨revoked, hrevoked, -, -, parent, hparent, h⟩ := h
    cases h
    exact ⟨revoked, summary, parent,
      Files.of_read (readBindingJSON_ok hstored) (readRevocation_ok hrevoked), hsummary, hparent, rfl⟩

variable {record : TaskGrantRecord}

/-- A derived grant that reads is within the policy on file. -/
theorem parentRevocation_ok {parent : WorkGrantParent} {revokedAt : Option Instant}
    (hparent : record.workPolicy = some parent)
    (h : s.parentRevocation config a record = .ok revokedAt) :
    ∃ policy revoked, s.policy? parent.policyId = some ⟨policy, revoked⟩ ∧
      workGrantWithinPolicy config record.spec parent policy.spec record.issuedAt = true ∧
      revokedAt = revoked.map WorkPolicyRevocation.revokedAt := by
  rw [parentRevocation, hparent] at h
  dsimp only at h
  cases hpolicy : s.getWorkPolicy config a parent.policyId with
  | error e => rw [hpolicy] at h; cases h
  | ok found =>
    obtain ⟨policy, view⟩ := found
    rw [hpolicy] at h
    simp only [bind_eq_ok, ensure_eq_ok] at h
    obtain ⟨-, ⟨-, -, hwithin, -, -⟩, h⟩ := h
    cases h
    obtain ⟨revoked, digest, hfiles, rfl⟩ := getWorkPolicy_ok hpolicy
    exact ⟨policy, revoked, hfiles, hwithin, rfl⟩

theorem currentBinding_ok {matching : BindingView → Bool} {denied : RepositoryError}
    {record : BindingRecord} (h : s.currentBinding config a id matching denied = .ok record) :
    s.binding? id = some ⟨record, none⟩ := by
  simp only [currentBinding, bind_eq_ok, ensure_eq_ok] at h
  obtain ⟨⟨found, view⟩, hget, -, hrevoked, -, -, -, -, h⟩ := h
  cases h
  obtain ⟨revoked, hfiles, rfl⟩ := get_ok hget
  cases revoked with
  | none => exact hfiles
  | some receipt => cases hrevoked

theorem checkGrantBinding_ok {spec : TaskGrantSpec}
    (h : s.checkGrantBinding config a spec = .ok ()) :
    ∃ record, s.binding? spec.bindingId = some ⟨record, none⟩ := by
  simp only [checkGrantBinding, bind_eq_ok] at h
  obtain ⟨record, hbinding, -⟩ := h
  exact ⟨record, currentBinding_ok hbinding⟩

/-- What an accepted command says about its grant. -/
theorem currentGrant_ok {deadline : Timestamp}
    (h : s.currentGrant config a id deadline = .ok (record, view)) :
    s.getTaskGrant config a id = .ok (record, view) ∧ view.summary.revokedAt = none := by
  simp only [currentGrant, bind_eq_ok, ensure_eq_ok] at h
  obtain ⟨⟨record', view'⟩, hget, -, hrevoked, -, -, h⟩ := h
  cases h
  exact ⟨hget, by simpa using hrevoked⟩

theorem checkTaskGrant_ok {manifest : GovernedExecutionManifest} {operation : OperationKind}
    (h : s.checkTaskGrant config a manifest operation = .ok ()) :
    ∃ record view, s.getTaskGrant config a manifest.grant.grantId = .ok (record, view) ∧
      view.summary.revokedAt = none ∧
      scopeWithinGrant config.unicode manifest.scopePolicy record.spec.scopePolicy = true ∧
      s.checkGrantBinding config a record.spec = .ok () := by
  simp only [checkTaskGrant, bind_eq_ok, ensure_eq_ok] at h
  obtain ⟨-, -, -, -, -, -, -, -, ⟨record, view⟩, hgrant, -, -, -, -, -, hscope, -, -, hbinding⟩ := h
  obtain ⟨hget, hrevoked⟩ := currentGrant_ok hgrant
  exact ⟨record, view, hget, hrevoked, hscope, hbinding⟩

theorem checkIntegrationGrant_ok {operation : RepositoryOperationRequest}
    (h : s.checkIntegrationGrant config a operation = .ok ()) :
    ∃ record view, s.getTaskGrant config a operation.grant.grantId = .ok (record, view) ∧
      view.summary.revokedAt = none ∧ s.checkGrantBinding config a record.spec = .ok () := by
  simp only [checkIntegrationGrant, bind_eq_ok, ensure_eq_ok] at h
  obtain ⟨-, -, -, -, -, -, h⟩ := h
  split at h
  · simp only [bind_eq_ok, ensure_eq_ok] at h
    obtain ⟨⟨record, view⟩, hgrant, -, -, -, -, hbinding⟩ := h
    obtain ⟨hget, hrevoked⟩ := currentGrant_ok hgrant
    exact ⟨record, view, hget, hrevoked, hbinding⟩
  · cases h

theorem normalizeTaskGrant_grantId {spec normalized : TaskGrantSpec} {owner : BindingOwner}
    {now : Instant} (h : normalizeTaskGrant config spec owner now = .ok normalized) :
    normalized.grantId = spec.grantId := by
  simp only [normalizeTaskGrant, bind_eq_ok, ensure_eq_ok] at h
  obtain ⟨-, -, -, -, -, -, -, -, policy, -, -, -, -, -, -, -, h⟩ := h
  cases h
  rfl

end BindingStore

end ConveneWire.Grants
