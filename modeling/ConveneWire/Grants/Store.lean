import ConveneWire.Admission.RuntimeFence
import ConveneWire.Grants.Scope

/-! # The owner's consent on file

`bridge/internal/repository/bindings.go`, `grants.go` and `work_policies.go` keep three
kinds of records: bindings of repositories, standing work policies, and Task grants,
some of them derived from a work policy. A record and its revocation are two files,
each written once under an exclusive name. The mutex of the store makes every call one
action: it reads files, asks Git, and writes at most one file. -/

namespace ConveneWire.Grants

open Bridge (Io matchesContractID isContractAgentID)
open Admission (Instant Timestamp validProfileTime isSha256Digest isObjectID isOperationID
  isProfileID)
open Transactional (ensure)

/-! ## Records -/

abbrev BindingOwner := Admission.Owner

structure Source where
  root : String
  gitDirectory : String
  commonDirectory : String
  objectFormat : String
  rootIdentity : String
  gitIdentity : String
  commonIdentity : String
  deriving DecidableEq, Repr

/-- `AllowedRoots` of the command is what the record holds in canonical form. -/
structure BindRepository where
  bindingId : String
  repositoryId : String
  displayAlias : String
  allowedRoots : Nat
  deriving DecidableEq, Repr

structure BindingRecord where
  bindingId : String
  repositoryId : String
  displayAlias : String
  owner : BindingOwner
  allowedRoots : List String
  source : Source
  registeredAt : Instant
  deriving DecidableEq, Repr

structure BindingRevocation where
  bindingId : String
  bindingDigest : String
  revision : Int
  revokedAt : Instant
  deriving DecidableEq, Repr

structure BindingView where
  bindingId : String
  repositoryId : String
  displayAlias : String
  revision : Int
  sourceFingerprint : String
  registeredAt : Instant
  revokedAt : Option Instant
  deriving DecidableEq, Repr

/-- `KindElement`. -/
inductive OperationKind where
  | capture | integrate | observe | prepare | publish | verify
  deriving DecidableEq, Repr

def OperationKind.text : OperationKind → String
  | .capture => "capture"
  | .integrate => "integrate"
  | .observe => "observe"
  | .prepare => "prepare"
  | .publish => "publish"
  | .verify => "verify"

structure ProfilePin where
  profileId : String
  revision : Int
  digest : String
  deriving DecidableEq, Repr

structure IntegrationTarget where
  repositoryId : String
  targetRef : String
  expectedCommit : String
  deriving DecidableEq, Repr

structure TaskGrantSpec where
  grantId : String
  bindingId : String
  bindingRevision : Int
  sourceFingerprint : String
  repositoryId : String
  baseCommit : String
  planId : String
  planRevision : Int
  planDigest : String
  nodeKey : String
  roomId : String
  taskId : String
  definitionRevision : Int
  criteriaRevision : Int
  agentId : String
  expiresAt : Timestamp
  operations : List OperationKind
  runtimeProfile : ProfilePin
  verificationProfiles : List ProfilePin
  scopePolicy : ScopePolicy
  integrationTargets : List IntegrationTarget
  deriving DecidableEq, Repr

structure WorkGrantParent where
  authorizationId : String
  policyId : String
  policyDigest : String
  revision : Int
  initiatorMemberId : String
  maxRunAttempts : Int
  maxConcurrency : Int
  deriving DecidableEq, Repr

structure TaskGrantRecord where
  owner : BindingOwner
  spec : TaskGrantSpec
  issuedAt : Instant
  workPolicy : Option WorkGrantParent
  deriving DecidableEq, Repr

structure TaskGrantRevocation where
  grantId : String
  digest : String
  revision : Int
  revokedAt : Instant
  deriving DecidableEq, Repr

structure GrantRef where
  grantId : String
  revision : Int
  digest : String
  expiresAt : Timestamp
  deriving DecidableEq, Repr

/-- The part of `ExecutionGrantSummary` that is not copied from the specification. -/
structure GrantSummary where
  grant : GrantRef
  issuedAt : Instant
  revokedAt : Option Instant
  deriving DecidableEq, Repr

structure TaskGrantView where
  spec : TaskGrantSpec
  summary : GrantSummary
  workPolicy : Option WorkGrantParent
  deriving DecidableEq, Repr

structure WorkPolicySpec where
  policyId : String
  displayAlias : String
  bindingId : String
  bindingRevision : Int
  sourceFingerprint : String
  repositoryId : String
  sourceRef : String
  agentId : String
  roomIds : List String
  initiatorMemberIds : List String
  operations : List OperationKind
  runtimeProfile : ProfilePin
  verificationProfiles : List ProfilePin
  scopePolicy : ScopePolicy
  maxTaskDurationSeconds : Int
  maxRunAttempts : Int
  maxConcurrency : Int
  expiresAt : Timestamp
  deriving DecidableEq, Repr

structure WorkPolicyRecord where
  owner : BindingOwner
  spec : WorkPolicySpec
  issuedAt : Instant
  deriving DecidableEq, Repr

structure WorkPolicyRevocation where
  policyId : String
  digest : String
  revision : Int
  revokedAt : Instant
  deriving DecidableEq, Repr

structure WorkPolicyView where
  spec : WorkPolicySpec
  revision : Int
  digest : String
  issuedAt : Instant
  revokedAt : Option Instant
  deriving DecidableEq, Repr

/-! ## What Central sends -/

structure ExecutionScope where
  agentId : String
  approvalOperationId : String
  criteriaRevision : Int
  definitionRevision : Int
  deviceId : String
  dispatchGeneration : Int
  nodeKey : String
  planControlRevision : Int
  planDigest : String
  planId : String
  planRevision : Int
  roomId : String
  runId : String
  taskId : String
  taskRevision : Int
  deriving DecidableEq, Repr

structure ManifestRepository where
  baseCommit : String
  bindingId : String
  grantId : String
  grantRevision : Int
  repositoryId : String
  runtimeProfileDigest : String
  runtimeProfileId : String
  deriving DecidableEq, Repr

/-- `body` is the rest of the manifest, its inputs, outputs and workspace. -/
structure GovernedExecutionManifest where
  deadline : Timestamp
  grant : GrantRef
  inputDigest : String
  manifestDigest : String
  repository : ManifestRepository
  scope : ExecutionScope
  scopePolicy : ScopePolicy
  verificationProfiles : List ProfilePin
  body : String
  deriving DecidableEq, Repr

structure OperationPlan where
  planId : String
  revision : Int
  digest : String
  approvalOperationId : String
  roomId : String
  rootTaskId : String
  deriving DecidableEq, Repr

structure IntegrateAction where
  candidateCommit : String
  candidateTree : String
  inputDigest : String
  target : IntegrationTarget
  integrationApprovalOperationId : String
  verificationIds : List String
  deriving DecidableEq, Repr

/-- The actions that are not about integration have no part here. -/
inductive OperationAction where
  | integrate (action : IntegrateAction)
  | other (kind : OperationKind)
  deriving DecidableEq, Repr

structure RepositoryOperationRequest where
  operationId : String
  plan : OperationPlan
  execution : Option ExecutionScope
  repositoryId : String
  bindingId : String
  deviceId : String
  grant : GrantRef
  expectedGeneration : String
  deadline : Timestamp
  action : OperationAction
  requestDigest : String
  deriving DecidableEq, Repr

/-! ## Digests, schemas and the platform -/

/-- The shared contract and the platform, as far as the store asks them. A digest is
missing where the value has no canonical form; `reads` says that a file reads back as
the record it was written from. -/
structure Config where
  unicode : Unicode
  timeText : Instant → String
  grantSpecSize : TaskGrantSpec → Nat
  grantRecordSize : TaskGrantRecord → Nat
  grantDigest : TaskGrantRecord → Option String
  grantSchema : TaskGrantRecord → String → Bool
  grantReads : TaskGrantRecord → Bool
  policySpecSize : WorkPolicySpec → Nat
  policyDigest : WorkPolicyRecord → Option String
  policyReads : WorkPolicyRecord → Bool
  workTaskGrantID : WorkGrantParent → String
  bindingSize : BindingRecord → Nat
  bindingDigest : BindingRecord → String
  bindingReads : BindingRecord → Bool
  sourceDigest : Source → String
  validBindingPaths : BindingRecord → Bool
  manifestSchema : GovernedExecutionManifest → Bool
  manifestDigest : GovernedExecutionManifest → Option String
  inputDigest : GovernedExecutionManifest → Option String
  operationSchema : RepositoryOperationRequest → Bool
  operationDigest : RepositoryOperationRequest → Option String

inductive FileName where
  | binding (id : String) | bindingRevoked (id : String)
  | grant (id : String) | grantRevoked (id : String)
  | policy (id : String) | policyRevoked (id : String)
  deriving DecidableEq, Repr

/-- What the world answers to one call: the clock, the two checks of the directory pins,
the reads that fail, the write, the directory synced, and what Git and the file system
say about the repository. `branch` is the commit of the one line that `for-each-ref`
prints for the source ref. -/
structure Answer where
  now : Instant
  owned : Bool
  stillOwned : Bool
  fails : FileName → Bool
  io : Io
  synced : Bool
  executable : Bool
  roots : Except RepositoryError (List String)
  inspect : Except RepositoryError Source
  apart : Bool
  branch : Option String

/-! ## The store -/

/-- A record and its revocation, if there is one. -/
structure Files (α β : Type) where
  record : α
  revoked : Option β
  deriving DecidableEq, Repr

namespace Files

variable {α β : Type}

def find (key : α → String) (id : String) (rows : List (Files α β)) : Option (Files α β) :=
  Table.lookup (fun files => key files.record) id rows

def add (rows : List (Files α β)) (record : α) : List (Files α β) := rows ++ [⟨record, none⟩]

def revoke (key : α → String) (rows : List (Files α β)) (id : String) (receipt : β) :
    List (Files α β) :=
  Table.update (fun files => key files.record = id)
    (fun files => { files with revoked := some receipt }) rows

/-- The files of a directory. -/
def count (rows : List (Files α β)) : Nat :=
  (rows.map fun files => 1 + files.revoked.toList.length).sum

end Files

def TaskGrantRecord.id (record : TaskGrantRecord) : String := record.spec.grantId
def WorkPolicyRecord.id (record : WorkPolicyRecord) : String := record.spec.policyId

/-- A file is named by the id in its record. `pending` counts what a stopped process left
in each directory. -/
structure BindingStore where
  owner : BindingOwner
  bindings : List (Files BindingRecord BindingRevocation)
  grants : List (Files TaskGrantRecord TaskGrantRevocation)
  policies : List (Files WorkPolicyRecord WorkPolicyRevocation)
  pendingBindings : Nat
  pendingGrants : Nat
  pendingPolicies : Nat
  deriving DecidableEq, Repr

namespace BindingStore

def empty (owner : BindingOwner) : BindingStore := ⟨owner, [], [], [], 0, 0, 0⟩

variable (s : BindingStore)

def binding? (id : String) : Option (Files BindingRecord BindingRevocation) :=
  Files.find BindingRecord.bindingId id s.bindings

def grant? (id : String) : Option (Files TaskGrantRecord TaskGrantRevocation) :=
  Files.find TaskGrantRecord.id id s.grants

def policy? (id : String) : Option (Files WorkPolicyRecord WorkPolicyRevocation) :=
  Files.find WorkPolicyRecord.id id s.policies

def withBinding (record : BindingRecord) : BindingStore :=
  { s with bindings := Files.add s.bindings record }

def withGrant (record : TaskGrantRecord) : BindingStore :=
  { s with grants := Files.add s.grants record }

def withPolicy (record : WorkPolicyRecord) : BindingStore :=
  { s with policies := Files.add s.policies record }

def withBindingRevoked (receipt : BindingRevocation) : BindingStore :=
  { s with bindings := Files.revoke BindingRecord.bindingId s.bindings receipt.bindingId receipt }

def withGrantRevoked (receipt : TaskGrantRevocation) : BindingStore :=
  { s with grants := Files.revoke TaskGrantRecord.id s.grants receipt.grantId receipt }

def withPolicyRevoked (receipt : WorkPolicyRevocation) : BindingStore :=
  { s with policies := Files.revoke WorkPolicyRecord.id s.policies receipt.policyId receipt }

end BindingStore

def readBindingJSON {α : Type} (a : Answer) (file : FileName) (reads : α → Bool) (content : Option α) :
    Except RepositoryError α :=
  if a.fails file then .error .io
  else
    match content with
    | none => .error .notExist
    | some value => if reads value then .ok value else .error .changed

/-- A revocation file that may be missing; its fields are short and always read back. -/
def readRevocation {α : Type} (a : Answer) (file : FileName) (content : Option α) :
    Except RepositoryError (Option α) :=
  if a.fails file then .error .io else .ok content

/-- `SyncParent`, or a write that is exclusive because no file had the name. -/
def written {α : Type} (io : Io) (s next : BindingStore) (after : Except RepositoryError α) :
    Except RepositoryError α × BindingStore :=
  match io with
  | .ok => (after, next)
  | .failsBefore => (.error .io, s)
  | .failsAfter => (.error .io, next)

def missingIsNone {α : Type} : Except RepositoryError α → Except RepositoryError (Option α)
  | .ok value => .ok (some value)
  | .error .notExist => .ok none
  | .error e => .error e

/-! ## Names and texts -/

def isGrantID : String → Bool := matchesContractID "grant_"
def isTaskID : String → Bool := matchesContractID "task_"
def isRoomID : String → Bool := matchesContractID "room_"
def isBindingID : String → Bool := matchesContractID "repobind_"
def isRepositoryID : String → Bool := matchesContractID "repo_"
def isWorkPolicyID : String → Bool := matchesContractID "workpolicy_"
def isMemberID : String → Bool := matchesContractID "member_"

def validGrantRevision (value : Int) : Bool := decide (0 < value) && decide (value ≤ 9007199254740991)

def containsText (value text : String) : Bool := decide (text.toList <:+: value.toList)

def validGrantTarget (ref : String) : Bool :=
  hasHead ref "refs/heads/" && !ref.toList.any (" ~^:?*[\\".toList.contains ·) &&
    !containsText ref ".." && !containsText ref "@\x7b" &&
    (parts ref).all fun part =>
      part != "" && !hasHead part "." && !hasTail part "." && !hasTail part ".lock" &&
        !part.toList.any fun r => decide (r.toNat < 32) || r.toNat == 127

def validBindingAlias (u : Unicode) (displayAlias : String) : Bool :=
  !(["", ".", ".."].contains displayAlias) && trimmed u displayAlias && decide (displayAlias.length ≤ 80) &&
    !displayAlias.toList.any ("/\\".toList.contains ·) && !displayAlias.toList.any u.isControl

/-- `bindingTime`, and what `time.Parse` makes of it. -/
def bindingTime (config : Config) (t : Instant) : Timestamp :=
  ⟨config.timeText t, if validProfileTime t then some t else none⟩

def noneAdjacent : List String → Bool
  | first :: second :: rest => first != second && noneAdjacent (second :: rest)
  | _ => true

def nanosecondsPerSecond : Int := 1000000000

/-! ## Bindings -/

namespace BindingStore

variable (config : Config) (a : Answer)

def validBinding (s : BindingStore) (record : BindingRecord) : Bool :=
  record.owner == s.owner && isRepositoryID record.repositoryId &&
    validBindingAlias config.unicode record.displayAlias && validProfileTime record.registeredAt &&
    !record.allowedRoots.isEmpty && decide (record.allowedRoots.length ≤ 16) &&
    config.validBindingPaths record &&
    ["sha1", "sha256"].contains record.source.objectFormat && record.source.rootIdentity != "" &&
    record.source.gitIdentity != "" && record.source.commonIdentity != ""

def bindingView (record : BindingRecord) (revoked : Option BindingRevocation) : BindingView where
  bindingId := record.bindingId
  repositoryId := record.repositoryId
  displayAlias := record.displayAlias
  revision := if revoked.isSome then 2 else 1
  sourceFingerprint := config.sourceDigest record.source
  registeredAt := record.registeredAt
  revokedAt := revoked.map BindingRevocation.revokedAt

def validBindingRevocation (record : BindingRecord) (receipt : BindingRevocation) : Bool :=
  receipt.bindingId == record.bindingId && receipt.revision == 2 &&
    receipt.bindingDigest == config.bindingDigest record && validProfileTime receipt.revokedAt &&
    decide (record.registeredAt ≤ receipt.revokedAt)

variable (s : BindingStore)

def get (id : String) : Except RepositoryError (BindingRecord × BindingView) := do
  ensure (isBindingID id) .invalid
  let record ← readBindingJSON a (.binding id) config.bindingReads
    ((s.binding? id).map Files.record)
  ensure (record.bindingId = id ∧ s.validBinding config record) .changed
  let revoked ← readRevocation a (.bindingRevoked id)
    ((s.binding? id).bind Files.revoked)
  ensure (revoked.all (validBindingRevocation config record)) .changed
  return (record, bindingView config record revoked)

def list : Except RepositoryError (List BindingView) := do
  ensure (Files.count s.bindings + s.pendingBindings ≤ 1024) .limit
  let views ← s.bindings.mapM fun files => do
    let (_, view) ← s.get config a files.record.bindingId
    return view
  ensure (views.length ≤ 256) .limit
  return views

/-- `Bind` up to its write. -/
def bindDecision (input : BindRepository) : Except RepositoryError (BindingView ⊕ BindingRecord)
    := do
  ensure a.owned .changed
  ensure (isBindingID input.bindingId ∧ isRepositoryID input.repositoryId ∧
    validBindingAlias config.unicode input.displayAlias ∧ input.allowedRoots ≠ 0 ∧
    input.allowedRoots ≤ 16 ∧ a.executable ∧ a.now ≠ 0 ∧ validProfileTime a.now) .invalid
  let existing ← missingIsNone (s.get config a input.bindingId)
  ensure (existing.all fun (_, view) => view.revokedAt.isNone) .bindingRevoked
  let roots ← a.roots
  let sorted := sortStrings roots
  ensure (noneAdjacent sorted) .invalid
  let source ← a.inspect
  ensure a.apart .invalid
  match existing with
  | some (record, view) =>
    ensure (record = ⟨input.bindingId, input.repositoryId, input.displayAlias, s.owner, sorted, source,
      record.registeredAt⟩) .conflict
    ensure a.synced .io
    return .inl view
  | none =>
    let views ← s.list config a
    ensure (views.length < 256) .limit
    let record : BindingRecord :=
      ⟨input.bindingId, input.repositoryId, input.displayAlias, s.owner, sorted, source, a.now⟩
    ensure (config.bindingSize record ≤ 64 * 1024) .limit
    ensure a.stillOwned .changed
    return .inr record

def bind (input : BindRepository) : Except RepositoryError BindingView × BindingStore :=
  match s.bindDecision config a input with
  | .error e => (.error e, s)
  | .ok (.inl view) => (.ok view, s)
  | .ok (.inr record) =>
    written a.io s (s.withBinding record)
      (((s.withBinding record).get config a record.bindingId).map Prod.snd)

/-- `Revoke` up to its write. -/
def revokeDecision (binding : String) (expectedRevision : Int) : Except RepositoryError (BindingView
    ⊕ BindingRevocation) := do
  ensure a.owned .changed
  ensure (isBindingID binding ∧ expectedRevision = 1 ∧ a.now ≠ 0 ∧ validProfileTime a.now) .conflict
  let (record, view) ← s.get config a binding
  if view.revokedAt.isSome then
    ensure a.synced .io
    return .inl view
  else
    ensure (record.registeredAt ≤ a.now) .invalid
    ensure a.stillOwned .changed
    return .inr ⟨binding, config.bindingDigest record, 2, a.now⟩

def revoke (binding : String) (expectedRevision : Int) : Except RepositoryError BindingView ×
    BindingStore :=
  match s.revokeDecision config a binding expectedRevision with
  | .error e => (.error e, s)
  | .ok (.inl view) => (.ok view, s)
  | .ok (.inr receipt) =>
    written a.io s (s.withBindingRevoked receipt)
      (((s.withBindingRevoked receipt).get config a binding).map Prod.snd)

/-- The binding of a grant or of a policy as both read it, and what Git says now. -/
def currentBinding (id : String) (matching : BindingView → Bool) (denied : RepositoryError) : Except
    RepositoryError BindingRecord := do
  let (record, view) ← s.get config a id
  ensure view.revokedAt.isNone .bindingRevoked
  ensure (matching view) denied
  ensure a.executable .incomplete
  return record

def checkGrantBinding (spec : TaskGrantSpec) : Except RepositoryError Unit := do
  let record ← s.currentBinding config a spec.bindingId
    (fun view => spec.bindingRevision == view.revision &&
      spec.sourceFingerprint == view.sourceFingerprint && spec.repositoryId == view.repositoryId)
    .grantDenied
  ensure ((record.source.objectFormat = "sha1" → spec.baseCommit.length = 40) ∧
    (record.source.objectFormat = "sha256" → spec.baseCommit.length = 64)) .grantDenied
  let current ← a.inspect
  ensure (current = record.source) .changed
  ensure a.stillOwned .changed

def workPolicySource (spec : WorkPolicySpec) : Except RepositoryError String := do
  let record ← s.currentBinding config a spec.bindingId
    (fun view => view.revision == spec.bindingRevision && view.repositoryId == spec.repositoryId &&
      view.sourceFingerprint == spec.sourceFingerprint)
    .workPolicyDenied
  let current ← a.inspect
  ensure (current = record.source) .changed
  match a.branch with
  | none => throw .changed
  | some commit =>
    ensure (isObjectID commit) .changed
    ensure a.stillOwned .changed
    return commit

end BindingStore

/-! ## Work policies -/

def normalizePolicyIDs (pattern : String → Bool) (limit : Nat) (ids : List String) :
    Option (List String) :=
  let sorted := sortStrings ids
  if ids.isEmpty || decide (limit < ids.length) || !sorted.all pattern || !noneAdjacent sorted then none
  else some sorted

def sortOperations (operations : List OperationKind) : List OperationKind :=
  operations.insertionSort fun x y => x.text ≤ y.text

def sortProfiles (profiles : List ProfilePin) : List ProfilePin :=
  profiles.insertionSort fun x y => x.profileId ≤ y.profileId

def sortTargets (targets : List IntegrationTarget) : List IntegrationTarget :=
  targets.insertionSort fun x y => x.targetRef ≤ y.targetRef

def validProfilePin (pin : ProfilePin) : Bool :=
  isProfileID pin.profileId && pin.revision == 1 && isSha256Digest pin.digest

def validPolicyNames (config : Config) (spec : WorkPolicySpec) : Bool :=
  isWorkPolicyID spec.policyId && isBindingID spec.bindingId && spec.bindingRevision == 1 &&
    isSha256Digest spec.sourceFingerprint && isRepositoryID spec.repositoryId &&
    validGrantTarget spec.sourceRef && isContractAgentID spec.agentId &&
    validBindingAlias config.unicode spec.displayAlias && spec.expiresAt.instant.any validProfileTime

def validPolicyLimits (spec : WorkPolicySpec) : Bool :=
  decide (60 ≤ spec.maxTaskDurationSeconds) && decide (spec.maxTaskDurationSeconds ≤ 86400) &&
    decide (1 ≤ spec.maxRunAttempts) && decide (spec.maxRunAttempts ≤ 100) &&
    decide (1 ≤ spec.maxConcurrency) && decide (spec.maxConcurrency ≤ 16)

def validPolicyOperations (operations : List OperationKind) : Bool :=
  decide (operations.length ≤ 3) && operations.contains .prepare && operations.contains .capture &&
    operations.all (fun op => op == .prepare || op == .capture || op == .verify) &&
    noneAdjacent ((sortOperations operations).map OperationKind.text)

def validPolicyProfiles (operations : List OperationKind) (profiles : List ProfilePin) : Bool :=
  decide (profiles.length ≤ 16) &&
    profiles.all (fun pin => validProfilePin pin && operations.contains .verify) &&
    noneAdjacent ((sortProfiles profiles).map ProfilePin.profileId)

/-- Every failure of `normalizeWorkPolicy` is `ErrInvalid`. -/
def normalizeWorkPolicy (config : Config) (spec : WorkPolicySpec) :
    Except RepositoryError WorkPolicySpec :=
  match spec.expiresAt.instant, normalizePolicyIDs isRoomID 64 spec.roomIds,
    normalizePolicyIDs isMemberID 64 spec.initiatorMemberIds,
    freezeScopePolicy config.unicode spec.scopePolicy with
  | some expiry, some rooms, some members, .ok policy =>
    let normalized := { spec with
      expiresAt := bindingTime config expiry
      roomIds := rooms
      initiatorMemberIds := members
      operations := sortOperations spec.operations
      verificationProfiles := sortProfiles spec.verificationProfiles
      scopePolicy := policy }
    if config.policySpecSize spec ≤ 64 * 1024 ∧ validPolicyNames config normalized ∧
        validPolicyLimits spec ∧ validProfilePin spec.runtimeProfile ∧
        validPolicyOperations spec.operations ∧
        validPolicyProfiles spec.operations spec.verificationProfiles ∧
        policy.access = .isolatedWrite then
      .ok normalized
    else .error .invalid
  | _, _, _, _ => .error .invalid

def ninetyDays : Int := 90 * 24 * 3600 * nanosecondsPerSecond

def workGrantWithinPolicy (config : Config) (spec : TaskGrantSpec) (parent : WorkGrantParent)
    (policy : WorkPolicySpec) (now : Instant) : Bool :=
  match spec.expiresAt.instant with
  | none => false
  | some expires =>
    isOperationID parent.authorizationId && now != 0 && decide (now < expires) &&
      decide (expires ≤ policy.expiresAt.parsed) &&
      decide (expires - now ≤ policy.maxTaskDurationSeconds * nanosecondsPerSecond) &&
      spec.bindingId == policy.bindingId && spec.bindingRevision == policy.bindingRevision &&
      spec.sourceFingerprint == policy.sourceFingerprint &&
      spec.repositoryId == policy.repositoryId && spec.agentId == policy.agentId &&
      policy.roomIds.contains spec.roomId &&
      policy.initiatorMemberIds.contains parent.initiatorMemberId &&
      spec.runtimeProfile == policy.runtimeProfile &&
      decide (1 ≤ parent.maxRunAttempts) && decide (parent.maxRunAttempts ≤ policy.maxRunAttempts) &&
      decide (1 ≤ parent.maxConcurrency) && decide (parent.maxConcurrency ≤ policy.maxConcurrency) &&
      spec.integrationTargets.isEmpty &&
      scopeWithinGrant config.unicode spec.scopePolicy policy.scopePolicy &&
      spec.verificationProfiles == policy.verificationProfiles &&
      spec.operations.all policy.operations.contains && spec.operations.contains .prepare &&
      spec.operations.contains .capture &&
      (spec.verificationProfiles.isEmpty || spec.operations.contains .verify)

namespace BindingStore

variable (config : Config) (a : Answer)

def validPolicy (s : BindingStore) (record : WorkPolicyRecord) : Bool :=
  decide (normalizeWorkPolicy config record.spec = .ok record.spec) && record.owner == s.owner &&
    validProfileTime record.issuedAt && decide (record.issuedAt < record.spec.expiresAt.parsed) &&
    decide (record.spec.expiresAt.parsed - record.issuedAt ≤ ninetyDays)

def policyView (record : WorkPolicyRecord) (digest : String)
    (revoked : Option WorkPolicyRevocation) : WorkPolicyView where
  spec := record.spec
  revision := if revoked.isSome then 2 else 1
  digest := digest
  issuedAt := record.issuedAt
  revokedAt := revoked.map WorkPolicyRevocation.revokedAt

def validPolicyRevocation (record : WorkPolicyRecord) (digest : String)
    (receipt : WorkPolicyRevocation) : Bool :=
  receipt.policyId == record.spec.policyId && receipt.digest == digest && receipt.revision == 2 &&
    validProfileTime receipt.revokedAt && decide (record.issuedAt ≤ receipt.revokedAt)

section

variable (s : BindingStore)

def getWorkPolicy (id : String) : Except RepositoryError (WorkPolicyRecord × WorkPolicyView) := do
  ensure (isWorkPolicyID id) .invalid
  let record ← readBindingJSON a (.policy id) config.policyReads
    ((s.policy? id).map Files.record)
  ensure (record.spec.policyId = id ∧ s.validPolicy config record) .changed
  match config.policyDigest record with
  | none => throw .changed
  | some digest =>
    let revoked ← readRevocation a (.policyRevoked id) ((s.policy? id).bind Files.revoked)
    ensure (revoked.all (validPolicyRevocation record digest)) .changed
    return (record, policyView record digest revoked)

def listWorkPolicies : Except RepositoryError (List WorkPolicyView) := do
  ensure (Files.count s.policies + s.pendingPolicies ≤ 256) .limit
  let views ← s.policies.mapM fun files => do
    let (_, view) ← s.getWorkPolicy config a files.record.id
    return view
  ensure (views.length ≤ 64) .limit
  return views

/-- `CreateWorkPolicy` up to its write. -/
def createDecision (spec : WorkPolicySpec) : Except RepositoryError (WorkPolicyView ⊕
    WorkPolicyRecord) := do
  ensure a.owned .changed
  let normalized ← normalizeWorkPolicy config spec
  ensure (a.now ≠ 0 ∧ validProfileTime a.now) .invalid
  ensure (a.now < normalized.expiresAt.parsed ∧
    normalized.expiresAt.parsed - a.now ≤ ninetyDays) .grantExpired
  let previous ← missingIsNone (s.getWorkPolicy config a spec.policyId)
  ensure (previous.all fun (_, view) => view.revokedAt.isNone) .grantRevoked
  ensure (previous.all fun (record, _) =>
    record.spec == normalized && decide (record.issuedAt ≤ a.now)) .conflict
  let _ ← s.workPolicySource config a normalized
  match previous with
  | some (_, view) =>
    ensure a.synced .io
    return .inl view
  | none =>
    let views ← s.listWorkPolicies config a
    ensure (views.length < 64) .limit
    ensure a.stillOwned .changed
    return .inr ⟨s.owner, normalized, a.now⟩

def createWorkPolicy (spec : WorkPolicySpec) : Except RepositoryError WorkPolicyView × BindingStore
    :=
  match s.createDecision config a spec with
  | .error e => (.error e, s)
  | .ok (.inl view) => (.ok view, s)
  | .ok (.inr record) =>
    written a.io s (s.withPolicy record)
      (((s.withPolicy record).getWorkPolicy config a spec.policyId).map Prod.snd)

/-- `RevokeWorkPolicy` up to its write. -/
def revokePolicyDecision (id : String) (revision : Int) (expectedDigest : String) : Except
    RepositoryError (WorkPolicyView ⊕ WorkPolicyRevocation) := do
  ensure a.owned .changed
  let (record, view) ← s.getWorkPolicy config a id
  ensure (revision = 1 ∧ expectedDigest = view.digest) .conflict
  if view.revokedAt.isSome then
    ensure a.synced .io
    return .inl view
  else
    ensure (a.now ≠ 0 ∧ validProfileTime a.now ∧ record.issuedAt ≤ a.now) .invalid
    return .inr ⟨id, expectedDigest, 2, a.now⟩

def revokeWorkPolicy (id : String) (revision : Int) (expectedDigest : String) : Except
    RepositoryError WorkPolicyView × BindingStore :=
  match s.revokePolicyDecision config a id revision expectedDigest with
  | .error e => (.error e, s)
  | .ok (.inl view) => (.ok view, s)
  | .ok (.inr receipt) =>
    written a.io s (s.withPolicyRevoked receipt)
      (((s.withPolicyRevoked receipt).getWorkPolicy config a id).map Prod.snd)

end

def selects (view : WorkPolicyView) (agent room initiator : String) : Bool :=
  view.revokedAt.isNone && a.now != 0 && decide (view.issuedAt ≤ a.now) &&
    decide (a.now < view.spec.expiresAt.parsed) && view.spec.agentId == agent &&
    view.spec.roomIds.contains room && view.spec.initiatorMemberIds.contains initiator

def selectWorkPolicy (s : BindingStore) (agent room initiator : String) :
    Except RepositoryError WorkPolicyView := do
  let views ← s.listWorkPolicies config a
  match views.filter fun view => selects a view agent room initiator with
  | [] => throw .workPolicyDenied
  | [view] => return view
  | _ => throw .workPolicyAmbiguous

end BindingStore

/-! ## Task grants -/

/-- `taskGrantSummary`; the schema is asked about the summary with this digest. -/
def taskGrantSummary (config : Config) (record : TaskGrantRecord) : Option GrantSummary :=
  match config.grantDigest record with
  | none => none
  | some digest =>
    if config.grantSchema record digest then
      some ⟨⟨record.spec.grantId, 1, digest, record.spec.expiresAt⟩, record.issuedAt, none⟩
    else none

def validGrantNames (spec : TaskGrantSpec) : Bool :=
  isGrantID spec.grantId && spec.bindingRevision == 1 && isSha256Digest spec.sourceFingerprint &&
    isTaskID spec.taskId && isRoomID spec.roomId && isSha256Digest spec.planDigest &&
    isObjectID spec.baseCommit && validGrantRevision spec.planRevision &&
    validGrantRevision spec.definitionRevision && validGrantRevision spec.criteriaRevision

def normalizeTaskGrant (config : Config) (spec : TaskGrantSpec) (owner : BindingOwner)
    (issuedAt : Instant) : Except RepositoryError TaskGrantSpec := do
  ensure (config.grantSpecSize spec ≤ 64 * 1024) .invalid
  ensure (validGrantNames spec) .invalid
  ensure (config.grantRecordSize ⟨owner, spec, issuedAt, none⟩ ≤ 64 * 1024) .limit
  ensure (taskGrantSummary config ⟨owner, spec, issuedAt, none⟩).isSome .invalid
  let policy ← freezeScopePolicy config.unicode spec.scopePolicy
  let profiles := sortProfiles spec.verificationProfiles
  ensure (noneAdjacent (profiles.map ProfilePin.profileId)) .invalid
  let targets := sortTargets spec.integrationTargets
  ensure (targets.all fun target =>
    target.repositoryId == spec.repositoryId && validGrantTarget target.targetRef) .invalid
  ensure (noneAdjacent (targets.map IntegrationTarget.targetRef)) .invalid
  return { spec with
    scopePolicy := policy
    operations := sortOperations spec.operations
    verificationProfiles := profiles
    integrationTargets := targets }

namespace BindingStore

variable (config : Config) (a : Answer)

def validGrant (s : BindingStore) (record : TaskGrantRecord) : Bool :=
  record.owner == s.owner && validProfileTime record.issuedAt &&
    decide (normalizeTaskGrant config record.spec record.owner record.issuedAt = .ok record.spec) &&
    record.spec.expiresAt.instant.any fun expires => decide (record.issuedAt < expires)

def validGrantRevocation (record : TaskGrantRecord) (digest : String)
    (receipt : TaskGrantRevocation) : Bool :=
  receipt.grantId == record.spec.grantId && receipt.revision == 2 && receipt.digest == digest &&
    validProfileTime receipt.revokedAt && decide (record.issuedAt ≤ receipt.revokedAt)

/-- The earlier of the two revocations. -/
def earlier : Option Instant → Option Instant → Option Instant
  | own, none => own
  | none, some parent => some parent
  | some own, some parent => if parent < own then some parent else some own

def withRevocation (summary : GrantSummary) (revokedAt : Option Instant) : GrantSummary :=
  if revokedAt.isSome then
    { summary with grant := { summary.grant with revision := 2 }, revokedAt := revokedAt }
  else summary

section

variable (s : BindingStore)

/-- When the policy that a grant was derived from was revoked. Whatever is wrong with the
policy is `ErrChanged`. -/
def parentRevocation (record : TaskGrantRecord) : Except RepositoryError (Option Instant) :=
  match record.workPolicy with
  | none => .ok none
  | some parent =>
    match s.getWorkPolicy config a parent.policyId with
    | .error _ => .error .changed
    | .ok (policy, view) => do
      ensure (view.digest = parent.policyDigest ∧ parent.revision = 1 ∧
        workGrantWithinPolicy config record.spec parent policy.spec record.issuedAt ∧
        policy.issuedAt ≤ record.issuedAt ∧
        config.workTaskGrantID parent = record.spec.grantId) .changed
      return view.revokedAt

def getTaskGrant (id : String) : Except RepositoryError (TaskGrantRecord × TaskGrantView) := do
  ensure (isGrantID id) .invalid
  let record ← readBindingJSON a (.grant id) config.grantReads
    ((s.grant? id).map Files.record)
  ensure (record.spec.grantId = id ∧ s.validGrant config record) .changed
  match taskGrantSummary config record with
  | none => throw .changed
  | some summary =>
    let revoked ← readRevocation a (.grantRevoked id) ((s.grant? id).bind Files.revoked)
    ensure (revoked.all (validGrantRevocation record summary.grant.digest)) .changed
    let parent ← s.parentRevocation config a record
    let revokedAt := earlier (revoked.map TaskGrantRevocation.revokedAt) parent
    return (record, ⟨record.spec, withRevocation summary revokedAt, record.workPolicy⟩)

def listTaskGrants : Except RepositoryError (List TaskGrantView) := do
  ensure (Files.count s.grants + s.pendingGrants ≤ 1024) .limit
  let views ← s.grants.mapM fun files => do
    let (_, view) ← s.getTaskGrant config a files.record.id
    return view
  ensure (views.length ≤ 256) .limit
  return views

variable (spec : TaskGrantSpec)

/-- `issueTaskGrantLocked` up to its write. -/
def issueDecision (parent : Option WorkGrantParent) : Except RepositoryError (TaskGrantView ⊕
    TaskGrantRecord) := do
  ensure a.owned .changed
  ensure (a.now ≠ 0 ∧ validProfileTime a.now) .invalid
  let normalized ← normalizeTaskGrant config spec s.owner a.now
  let previous ← missingIsNone (s.getTaskGrant config a normalized.grantId)
  ensure (previous.all fun (_, view) => view.summary.revokedAt.isNone) .grantRevoked
  ensure (previous.all fun (record, _) =>
    record.spec == normalized && record.workPolicy == parent) .conflict
  ensure (a.now < normalized.expiresAt.parsed ∧
    previous.all fun (record, _) => decide (record.issuedAt ≤ a.now)) .grantExpired
  s.checkGrantBinding config a normalized
  match previous with
  | some (_, view) =>
    ensure a.synced .io
    return .inl view
  | none =>
    let views ← s.listTaskGrants config a
    ensure (views.length < 256) .limit
    ensure a.stillOwned .changed
    return .inr ⟨s.owner, normalized, a.now, parent⟩

/-- `issueTaskGrantLocked`. -/
def issue (parent : Option WorkGrantParent) : Except RepositoryError TaskGrantView × BindingStore :=
  match s.issueDecision config a spec parent with
  | .error e => (.error e, s)
  | .ok (.inl view) => (.ok view, s)
  | .ok (.inr record) =>
    written a.io s (s.withGrant record)
      (((s.withGrant record).getTaskGrant config a record.spec.grantId).map Prod.snd)

def issueTaskGrant : Except RepositoryError TaskGrantView × BindingStore :=
  s.issue config a spec none

end

/-- The id under which the specification of a derived grant is checked first. -/
def validationGrantID : String := "grant_work_validation"

section

variable (s : BindingStore)

/-- `DeriveWorkTaskGrant` up to the issue: the specification to issue. -/
def deriveDecision (spec : TaskGrantSpec) (parent : WorkGrantParent) : Except RepositoryError
    TaskGrantSpec := do
  ensure a.owned .changed
  let checked ← normalizeTaskGrant config { spec with grantId := validationGrantID } s.owner a.now
  let requested := { checked with grantId := spec.grantId }
  let view ← s.selectWorkPolicy config a requested.agentId requested.roomId parent.initiatorMemberId
  ensure (view.spec.policyId = parent.policyId ∧ view.digest = parent.policyDigest ∧
    parent.revision = 1 ∧ workGrantWithinPolicy config requested parent view.spec a.now)
    .workPolicyDenied
  ensure (spec.grantId = "" ∨ spec.grantId = config.workTaskGrantID parent) .conflict
  let derived := { requested with grantId := config.workTaskGrantID parent }
  let previous ← missingIsNone (s.getTaskGrant config a derived.grantId)
  ensure (previous.all fun (_, view) => view.summary.revokedAt.isNone) .grantRevoked
  let base ← s.workPolicySource config a view.spec
  ensure (previous.isSome ∨ derived.baseCommit = base) .changed
  return derived

def deriveWorkTaskGrant (spec : TaskGrantSpec) (parent : WorkGrantParent) : Except RepositoryError
    TaskGrantView × BindingStore :=
  match s.deriveDecision config a spec parent with
  | .error e => (.error e, s)
  | .ok derived => s.issue config a derived (some parent)

/-- `RevokeTaskGrant` up to its write. -/
def revokeGrantDecision (id : String) (expectedRevision : Int) (expectedDigest : String) : Except
    RepositoryError (TaskGrantView ⊕ TaskGrantRevocation) := do
  ensure a.owned .changed
  ensure (expectedRevision = 1 ∧ isSha256Digest expectedDigest) .conflict
  let (record, view) ← s.getTaskGrant config a id
  ensure (view.summary.grant.digest = expectedDigest) .conflict
  if view.summary.revokedAt.isSome then
    ensure a.synced .io
    return .inl view
  else
    ensure (a.now ≠ 0 ∧ validProfileTime a.now ∧ record.issuedAt ≤ a.now) .invalid
    ensure a.stillOwned .changed
    return .inr ⟨id, expectedDigest, 2, a.now⟩

def revokeTaskGrant (id : String) (expectedRevision : Int) (expectedDigest : String) : Except
    RepositoryError TaskGrantView × BindingStore :=
  match s.revokeGrantDecision config a id expectedRevision expectedDigest with
  | .error e => (.error e, s)
  | .ok (.inl view) => (.ok view, s)
  | .ok (.inr receipt) =>
    written a.io s (s.withGrantRevoked receipt)
      (((s.withGrantRevoked receipt).getTaskGrant config a id).map Prod.snd)

/-! ## Checks -/

/-- The grant of a command, if it is not revoked and the times fit. -/
def currentGrant (id : String) (deadline : Timestamp) : Except RepositoryError (TaskGrantRecord ×
    TaskGrantView) := do
  let (record, view) ← s.getTaskGrant config a id
  ensure view.summary.revokedAt.isNone .grantRevoked
  ensure (record.issuedAt ≤ a.now ∧ a.now < record.spec.expiresAt.parsed ∧
    a.now < deadline.parsed ∧ deadline.parsed ≤ record.spec.expiresAt.parsed) .grantExpired
  return (record, view)

def manifestMatches (spec : TaskGrantSpec) (grant : GrantRef) (manifest : GovernedExecutionManifest)
    : Bool :=
  let repo := manifest.repository
  let scope := manifest.scope
  manifest.grant == grant && repo.grantId == spec.grantId && repo.grantRevision == 1 &&
    repo.bindingId == spec.bindingId && repo.repositoryId == spec.repositoryId &&
    repo.baseCommit == spec.baseCommit && repo.runtimeProfileId == spec.runtimeProfile.profileId &&
    repo.runtimeProfileDigest == spec.runtimeProfile.digest && scope.deviceId == s.owner.deviceId &&
    scope.agentId == spec.agentId && scope.roomId == spec.roomId && scope.taskId == spec.taskId &&
    scope.definitionRevision == spec.definitionRevision &&
    scope.criteriaRevision == spec.criteriaRevision && scope.planId == spec.planId &&
    scope.planRevision == spec.planRevision && scope.planDigest == spec.planDigest &&
    scope.nodeKey == spec.nodeKey

end

/-- Every verification profile of the manifest is pinned by the grant, and none twice. -/
def profilesPinned (pinned profiles : List ProfilePin) : Bool :=
  decide (profiles.map ProfilePin.profileId).Nodup && profiles.all pinned.contains

variable (s : BindingStore)

def checkTaskGrant (manifest : GovernedExecutionManifest) (operation : OperationKind) : Except
    RepositoryError Unit := do
  ensure a.owned .changed
  ensure (config.manifestSchema manifest) .invalid
  ensure (config.manifestDigest manifest = some manifest.manifestDigest) .invalid
  ensure (config.inputDigest manifest = some manifest.inputDigest) .invalid
  let (record, view) ← s.currentGrant config a manifest.grant.grantId manifest.deadline
  ensure (operation = .prepare ∨ operation = .capture ∨ operation = .verify) .grantDenied
  ensure (record.spec.operations.contains operation ∧
    s.manifestMatches record.spec view.summary.grant manifest) .grantDenied
  ensure (scopeWithinGrant config.unicode manifest.scopePolicy record.spec.scopePolicy) .grantDenied
  ensure (profilesPinned record.spec.verificationProfiles manifest.verificationProfiles) .grantDenied
  s.checkGrantBinding config a record.spec

def operationMatches (spec : TaskGrantSpec) (grant : GrantRef)
    (operation : RepositoryOperationRequest) (scope : ExecutionScope) (target : IntegrationTarget) :
    Bool :=
  let plan := operation.plan
  spec.operations == [.integrate] && spec.integrationTargets == [target] &&
    operation.grant == grant && operation.bindingId == spec.bindingId &&
    operation.repositoryId == spec.repositoryId && operation.deviceId == s.owner.deviceId &&
    plan.planId == spec.planId && plan.revision == spec.planRevision &&
    plan.digest == spec.planDigest && plan.roomId == spec.roomId && scope.planId == spec.planId &&
    scope.planRevision == spec.planRevision && scope.planDigest == spec.planDigest &&
    scope.nodeKey == spec.nodeKey && scope.roomId == spec.roomId && scope.taskId == spec.taskId &&
    scope.definitionRevision == spec.definitionRevision &&
    scope.criteriaRevision == spec.criteriaRevision && scope.agentId == spec.agentId &&
    scope.deviceId == s.owner.deviceId && target.repositoryId == spec.repositoryId &&
    target.repositoryId == operation.repositoryId

def checkIntegrationGrant (operation : RepositoryOperationRequest) : Except RepositoryError Unit
    := do
  ensure a.owned .changed
  ensure (config.operationSchema operation) .invalid
  ensure (config.operationDigest operation = some operation.requestDigest) .invalid
  match operation.execution, operation.action with
  | some scope, .integrate action =>
    let (record, view) ← s.currentGrant config a operation.grant.grantId operation.deadline
    ensure (a.now ≠ 0) .grantExpired
    ensure (s.operationMatches record.spec view.summary.grant operation scope action.target)
      .grantDenied
    s.checkGrantBinding config a record.spec
  | _, _ => throw .invalid

end BindingStore

end ConveneWire.Grants
