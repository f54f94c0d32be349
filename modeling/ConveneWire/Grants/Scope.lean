import Mathlib.Data.List.Infix
import Mathlib.Data.List.Sort
import Mathlib.Data.String.Basic

/-! # The path scope of a consent

`bridge/internal/repository/scope.go` and `scopeWithinGrant` of `grants.go`. A scope
policy lists path prefixes that output may touch and prefixes that it may not. The
owner's work policy, a Task grant and a manifest each have one, and each is compared
with the one above it by its prefixes alone. -/

namespace ConveneWire.Grants

/-- The errors of the package, a missing file and a file operation that failed. -/
inductive RepositoryError where
  | invalid | limit | changed | conflict | incomplete | scope | specialOutput
  | bindingRevoked | grantRevoked | grantExpired | grantDenied | workPolicyDenied
  | workPolicyAmbiguous | notExist | io
  deriving DecidableEq, Repr

/-! ## Paths -/

/-- What the Go library says about Unicode. -/
structure Unicode where
  isControl : Char → Bool
  isFormat : Char → Bool
  isSpace : Char → Bool
  toLower : String → String
  toUpper : String → String

def hasHead (value head : String) : Bool := head.toList.isPrefixOf value.toList

def hasTail (value tail : String) : Bool := tail.toList.isSuffixOf value.toList

/-- `strings.Split(path, "/")`. -/
def parts (path : String) : List String := (path.toList.splitOn '/').map String.ofList

/-- `strings.TrimSpace` changes nothing. -/
def trimmed (u : Unicode) (part : String) : Bool :=
  !(part.toList.head?.any u.isSpace) && !(part.toList.getLast?.any u.isSpace)

/-- The device names of Windows, with any extension. -/
def reservedName (u : Unicode) (part : String) : Bool :=
  let name := String.ofList ((u.toUpper part).toList.takeWhile (· != '.'))
  ["CON", "PRN", "AUX", "NUL"].contains name ||
    (name.utf8ByteSize == 4 && (hasHead name "COM" || hasHead name "LPT") &&
      (name.toList.drop 3).any Char.isDigit)

def portablePart (u : Unicode) (part : String) : Bool :=
  let low := u.toLower part
  !(["", ".", ".."].contains part) && low != ".git" && !hasHead low "git~" &&
    !hasHead low ".git~" && !hasTail part "." && !hasTail part " " && !reservedName u part

def portablePath (u : Unicode) (path : String) : Bool :=
  path != "" && decide (path.utf8ByteSize ≤ 4096) &&
    !path.toList.any ("\\:*?\"<>|".toList.contains ·) &&
    !path.toList.any (fun r => u.isControl r || u.isFormat r) &&
    (parts path).all (portablePart u)

def prefixContains (head path : String) : Bool :=
  head == "." || path == head || hasHead path (head ++ "/")

/-! ## Policies -/

inductive Access where
  | readOnly | isolatedWrite
  | other (value : String)
  deriving DecidableEq, Repr

structure ScopePolicy where
  access : Access
  allowedPaths : List String
  forbiddenPaths : List String
  requirePreventivePathEnforcement : Bool
  deriving DecidableEq, Repr

def allowedOutput (policy : ScopePolicy) (path : String) : Bool :=
  policy.access == .isolatedWrite && !policy.forbiddenPaths.any (prefixContains · path) &&
    policy.allowedPaths.any (prefixContains · path)

/-- `sort.Strings`; the order of the bytes is that of the characters. -/
def sortStrings (values : List String) : List String := values.insertionSort (· ≤ ·)

def validScopePath (u : Unicode) (path : String) : Bool :=
  (path == "." || portablePath u path) && (parts path).all (trimmed u)

/-- One round of the loop of `freezeScopePolicy`. -/
def freezePaths (u : Unicode) (paths : List String) : Except RepositoryError (List String) :=
  if 64 < paths.length then .error .limit
  else if paths.Nodup ∧ paths.all (validScopePath u) then .ok (sortStrings paths)
  else .error .invalid

def freezeScopePolicy (u : Unicode) (policy : ScopePolicy) : Except RepositoryError ScopePolicy := do
  if policy.access ≠ .readOnly ∧ policy.access ≠ .isolatedWrite then
    throw .invalid
  let allowed ← freezePaths u policy.allowedPaths
  let forbidden ← freezePaths u policy.forbiddenPaths
  let frozen := { policy with allowedPaths := allowed, forbiddenPaths := forbidden }
  if policy.access = .readOnly ∧ allowed ≠ [] then
    throw .invalid
  if policy.access = .isolatedWrite ∧ ¬ allowed.any (allowedOutput frozen) then
    throw .invalid
  return frozen

/-- The body of the two loops of `scopeWithinGrant`, for a denied path of the grant. -/
def deniedWithin (request : ScopePolicy) (allowed denied : String) : Bool :=
  if prefixContains denied allowed then
    request.forbiddenPaths.any (prefixContains · allowed)
  else if prefixContains allowed denied then
    request.forbiddenPaths.any (prefixContains · denied)
  else true

def scopeWithinGrant (u : Unicode) (request grant : ScopePolicy) : Bool :=
  match freezeScopePolicy u request, freezeScopePolicy u grant with
  | .ok request, .ok grant =>
    if grant.requirePreventivePathEnforcement && !request.requirePreventivePathEnforcement then false
    else if request.access == .readOnly then true
    else if grant.access != .isolatedWrite then false
    else request.allowedPaths.all fun allowed =>
      grant.allowedPaths.any (prefixContains · allowed) &&
        grant.forbiddenPaths.all (deniedWithin request allowed)
  | _, _ => false

end ConveneWire.Grants
