import ConveneWire.Bridge.Inbox
import ConveneWire.Lib.DurableFs

/-! # The inbox on the file system

`inbox.go` step by step: every call is the sequence of file operations it makes,
for all Runs at once. The mutex of the inbox makes it one call at a time; a crash
may come between any two operations. The inbox directory itself is taken to be
on the disk. -/

namespace ConveneWire.Bridge

open Run (RuntimeEvent)
open DurableFs
open Concurrent.Process (fail)

/-! ## Files -/

/-- `cancellationTombstoneDirectory`. -/
inductive Subdirectory where
  | cancellationTombstones
  deriving DecidableEq, Repr

/-- A name with the extension `.json`, or one that `CreateTemp` made from `.run-*`. -/
inductive FileName where
  | json (runId : String)
  | temporary (n : Nat)
  deriving DecidableEq, Repr

abbrev FilePath := DurableFs.Path Subdirectory FileName

/-- The files of the inbox, with contents in `B`. -/
abbrev Files (B : Type) := DurableFs.Volume Subdirectory FileName B

abbrev Disk (B : Type) := DurableFs.Tracked Subdirectory FileName B

/-- A call of the inbox. -/
abbrev FileCall (B : Type) := DurableFs.Operations Subdirectory FileName B

def recordPath (runId : String) : FilePath := ⟨none, .json runId⟩

def cancellationTombstonePath (runId : String) : FilePath :=
  ⟨some .cancellationTombstones, .json runId⟩

/-- `json.MarshalIndent` with a final newline, and `json.Unmarshal`. -/
structure Codec (B α : Type) where
  encode : α → B
  decode : B → Option α
  decode_encode : ∀ a, decode (encode a) = some a

/-- The encodings of the two kinds of files. A file without content is no JSON text. -/
structure Json (B : Type) where
  blank : B
  record : Codec B Record
  tombstone : Codec B CancellationTombstone
  record_blank : record.decode blank = none
  tombstone_blank : tombstone.decode blank = none

namespace InboxFiles

open Operations

variable {B : Type} (json : Json B)

/-! ## Writing -/

/-- `writeNew`: the file is created under its final name. -/
def writeNew (path : FilePath) (source : B) : FileCall B Unit := do
  announce path (some source)
  let file ← create (fun _ => path) json.blank
  write file source
  sync file
  syncDirectory path.directory
  settle path (some source)

/-- The name `CreateTemp` finds, one that nobody uses. -/
def temporaryPath (path : FilePath) (file : Nat) : FilePath := ⟨path.directory, .temporary file⟩

/-- `replace`: the file is written under a temporary name and then renamed. -/
def replace (path : FilePath) (source : B) : FileCall B Unit := do
  announce path (some source)
  let file ← create (temporaryPath path) json.blank
  write file source
  sync file
  rename (temporaryPath path file) path file
  syncDirectory path.directory
  remove (temporaryPath path file)
  settle path (some source)

/-! ## Calls -/

/-- The content of a file; `none` stands for a file that does not exist. -/
def decoded {α : Type} (codec : Codec B α) (message : String) : Option B → Except String (Option α)
  | none => .ok none
  | some source =>
    match codec.decode source with
    | none => .error message
    | some value => .ok (some value)

def ofExcept {α : Type} : Except String α → FileCall B α
  | .ok a => pure a
  | .error message => fail message

/-- Reads and decodes a file. -/
def loadFile {α : Type} (codec : Codec B α) (message : String) (path : FilePath) :
    FileCall B (Option α) := do
  let source ← read path
  ofExcept (decoded codec message source)

def load (path : FilePath) : FileCall B (Option Record) :=
  loadFile json.record "decode inbox record" path

def loadCancellationTombstone (path : FilePath) : FileCall B (Option CancellationTombstone) :=
  loadFile json.tombstone "decode cancellation tombstone" path

def get (runId : String) : FileCall B (Option Record) := load json (recordPath runId)

/-- A record that was not there before is written. -/
def storeAccepted (runId : String) : Record × Bool → FileCall B (Record × Bool)
  | (record, true) => pure (record, true)
  | (record, false) => do
    writeNew json (recordPath runId) (json.record.encode record)
    pure (record, false)

def accept (config : Config) (request : RunRequest) : FileCall B (Record × Bool) :=
  if ¬ isContractRunID request.runId then fail "invalid Run ID"
  else if ¬ isContractTraceID request.traceId then fail "invalid Run trace ID"
  else do
    let existing ← load json (recordPath request.runId)
    let result ← ofExcept (acceptance config request existing)
    storeAccepted json request.runId result

/-- The calls that load a record and replace it. -/
def rewrite (runId : String) (decision : Record → Except String (Option Record)) :
    FileCall B Record := do
  let existing ← load json (recordPath runId)
  match existing with
  | none => fail "inbox record does not exist"
  | some record =>
    let next ← ofExcept (decision record)
    match next with
    | none => pure record
    | some next => do
      replace json (recordPath runId) (json.record.encode next)
      pure next

def transitionLocalState (runId : String) (expected next : State) : FileCall B Record :=
  rewrite json runId (Record.transition expected next)

def appendEvent (runId : String) (state : State) (event : RuntimeEvent) : FileCall B Record :=
  rewrite json runId (Record.appending state event)

def appendSupplementalEvidence (runId : String) (evidence : SupplementalEvidence) :
    FileCall B Record :=
  rewrite json runId (Record.appendingEvidence evidence)

/-- `Inbox.RecordCancellation`. `MkdirAll` is not followed by a sync of the inbox directory. -/
def recordCancellation (requested : CancelRequest) : FileCall B CancellationTombstone :=
  let path := cancellationTombstonePath requested.runId
  if ¬ requested.isContract then fail "invalid Run cancellation identity"
  else do
    let record ← load json (recordPath requested.runId)
    if ¬ requested.concerns record then fail "Run cancellation identity mismatch"
    else do
      mkdir .cancellationTombstones
      let existing ← loadCancellationTombstone json path
      match existing with
      | some existing =>
        if existing ≠ requested.tombstone then fail "Run cancellation tombstone mismatch"
        else pure existing
      | none => do
        writeNew json path (json.tombstone.encode requested.tombstone)
        pure requested.tombstone

def hasCancellation (request : RunRequest) : FileCall B Bool :=
  if ¬ isContractRunID request.runId then fail "invalid Run ID"
  else do
    let tombstone ← loadCancellationTombstone json (cancellationTombstonePath request.runId)
    ofExcept (cancellationFound request tombstone)

def clearCancellation (runId : String) : FileCall B Unit :=
  let path := cancellationTombstonePath runId
  if ¬ isContractRunID runId then fail "invalid Run ID"
  else do
    let source ← read path
    match source with
    | none => pure ()
    | some _ => do
      announce path none
      remove path
      syncDirectory path.directory
      settle path none

/-- One entry of the inbox directory, as `Inbox.List` reads it. -/
def listed (files : Files B) : FileName → Except String (List Record)
  | .temporary _ => .ok []
  | .json runId => do
    match ← decoded json.record "decode inbox record" (files.read (recordPath runId)) with
    | none => .error "inspect inbox record"
    | some record =>
      if ¬ isContractRunID record.runId ∨ runId ≠ record.runId then
        .error "inbox filename does not match Run identity"
      else .ok [record]

def list (files : Files B) : Except String (List Record) := do
  let records ← (files.entries none).keys.mapM (listed json files)
  pure records.flatten

end InboxFiles

end ConveneWire.Bridge
