import ConveneWire.Bridge.Connection
import ConveneWire.Bridge.InboxFiles

/-! # The inbox after a crash

Every file of the inbox is watched. `writeNew` leaves a file without its content
under its final name until it is synced; `replace` never does. Between two calls
nothing is half done, so after a crash the inbox is readable and has what the
completed calls have written, unless the crash met a new file before its sync, or
the directory of tombstones before the inbox directory was synced. -/

namespace ConveneWire.Bridge

open Relation (ReflTransGen)
open Run (RuntimeEvent)
open DurableFs
open Tracked (Settled Invariant Draft Landing Landed)

variable {α : Type}

namespace InboxFiles

open Operations

variable {B : Type} (json : Json B)

/-- The files with the extension `.json`. -/
def Watched (path : FilePath) : Prop := ∃ runId, path.name = .json runId

/-- What belongs into a file: a record or a tombstone of the Run that the name says. -/
def Good (path : FilePath) (content : Option B) : Prop :=
  ∀ runId source, path.name = .json runId → content = some source →
    match path.directory with
    | none => ∃ record, json.record.decode source = some record ∧ record.runId = runId ∧
        isContractRunID runId = true
    | some .cancellationTombstones => ∃ tombstone, json.tombstone.decode source = some tombstone

/-- Nothing is half done, and every file has what belongs into it. -/
abbrev Whole (t : Disk B) : Prop := Settled Watched (Good json) t

/-- A call that keeps the invariant of the disk at each of its operations. -/
abbrev Does {α : Type} (F P : Disk B → Prop) (p : FileCall B α) (Q : α → Disk B → Prop) : Prop :=
  (journaled Watched (Good json) F).Triple P p Q

variable {json} {F : Disk B → Prop} {P : Disk B → Prop} {path p : FilePath} {source : B}
  {file : Nat}

theorem not_watched_temporary (path : FilePath) (file : Nat) :
    ¬ Watched (temporaryPath path file) := by
  rintro ⟨runId, h⟩
  cases h

/-! ## The two ways to write a file -/

theorem announce_spec {content : Option B} (hgood : Good json path content)
    (hP : ∀ t, P t → Whole json t) (hkeep : ∀ t, P t → P (t.announce path content)) :
    Does json F P (announce path content) fun _ t => P t ∧ t.writing = some (path, content) := by
  refine update_spec fun t ht => ?_
  exact ⟨((hP t ht).announce fun _ => hgood).invariant, hkeep t ht, rfl⟩

theorem write_spec : Does json F (Draft Watched (Good json) path p source file)
      (write file source) fun _ t => Draft Watched (Good json) path p source file t ∧
        (t.volume.files file).bytes = source := by
  refine update_spec fun t ht => ?_
  have hdraft := ht.setFile ⟨source, false⟩ fun h => by cases h
  exact ⟨hdraft.invariant, hdraft, by simp [Tracked.onVolume, Volume.write, Volume.setFile]⟩

theorem sync_spec : Does json F (fun t => Draft Watched (Good json) path p source file t ∧
        (t.volume.files file).bytes = source)
      (sync file) fun _ t => Draft Watched (Good json) path p source file t ∧
        t.volume.files file = ⟨source, true⟩ := by
  refine update_spec fun t ht => ?_
  have hdraft := ht.1.setFile ⟨source, true⟩ fun _ => rfl
  have hsync : t.onVolume (·.sync file) = t.onVolume (·.setFile file ⟨source, true⟩) := by
    simp only [Tracked.onVolume, Volume.sync, ht.2]
  rw [hsync]
  exact ⟨hdraft.invariant, hdraft, by simp [Tracked.onVolume, Volume.setFile]⟩

variable {request : RunRequest} {runId message : String} {content : Option B} {t : Disk B}
  {codec : Codec B α} {source : B}

theorem syncDirectory_spec :
    Does json F (Landing Watched (Good json) path content)
      (syncDirectory path.directory) fun _ => Landed Watched (Good json) path content :=
  update_spec fun _ ht => ⟨ht.syncDirectory.invariant, ht.syncDirectory⟩

theorem settle_spec :
    Does json F (Landed Watched (Good json) path content)
      (settle path content) fun _ t => Whole json t ∧ t.saved path = content :=
  update_spec fun _ ht => ⟨ht.settle.invariant, ht.settle, Tracked.saved_settle⟩

/-- Creating the draft, under the final name only if nothing is saved there. -/
theorem create_spec {p : Nat → FilePath}
    (hP : ∀ t, P t → Whole json t ∧ t.writing = some (path, some source) ∧
      ∀ i, Watched (p i) → p i = path ∧ t.saved (p i) = none)
    (hF : ∀ t, P t → ¬ (t.volume.hasDirectory (p t.volume.next).directory ∧
      t.volume.find (p t.volume.next) = none) → F t) :
    Does json F P (create p json.blank) fun file =>
      Draft Watched (Good json) path (p file) source file := by
  have hdraft : ∀ t, P t → t.volume.hasDirectory (p t.volume.next).directory = true →
      Draft Watched (Good json) path (p t.volume.next) source t.volume.next
        (t.onVolume (·.create (p t.volume.next) json.blank)) := by
    intro t ht hdir
    obtain ⟨hsettled, hwriting, hfresh⟩ := hP t ht
    exact hsettled.create hwriting hdir (hfresh _)
  refine step_spec (fun t ht => ?_) (fun t file ht hfile => ?_) fun t e ht herr => ?_
  · dsimp only
    split
    · rename_i hfree
      exact (hdraft t ht hfree.1).invariant
    · exact (hP t ht).1.invariant
  · dsimp only at hfile ⊢
    split at hfile
    · rename_i hfree
      obtain rfl := Except.ok.inj hfile
      rw [if_pos hfree]
      exact hdraft t ht hfree.1
    · cases hfile
  · dsimp only at herr ⊢
    split at herr
    · cases herr
    · rename_i hfree
      rw [if_neg hfree]
      exact hF t ht hfree

/-- A new file where there was none. -/
theorem writeNew_spec (hwatched : Watched path) (hgood : Good json path (some source)) :
    Does json F (fun t => Whole json t ∧ t.saved path = none ∧
        t.volume.hasDirectory path.directory = true) (writeNew json path source)
      fun _ t => Whole json t ∧ t.saved path = some source := by
  refine (announce_spec hgood (fun t ht => ht.1) fun t ht => ⟨ht.1.announce fun _ => hgood, ht.2⟩).bind
    fun _ => ?_
  refine (create_spec (fun t ht => ⟨ht.1.1, ht.2, fun _ _ => ⟨rfl, ht.1.2.1⟩⟩)
    fun t ht hfree => ?_).bind fun file => ?_
  · -- nothing is saved under the name, so it is free
    have hnone := (ht.1.1.intact path hwatched).view_none ht.1.2.1 (.inl rfl)
    exact absurd ⟨ht.1.2.2, hnone⟩ hfree
  refine write_spec.bind fun _ => sync_spec.bind fun _ => ?_
  refine (syncDirectory_spec.strengthen fun t ht => ?_).bind fun _ => settle_spec
  exact ht.1.land ht.2 hwatched

/-- A file in the place of the one that is there. -/
theorem replace_spec (hwatched : Watched path) (hgood : Good json path (some source))
    (hF : ∀ t, Whole json t → F t) :
    Does json F (Whole json) (replace json path source)
      fun _ t => Whole json t ∧ t.saved path = some source := by
  refine (announce_spec hgood (fun t ht => ht) fun t ht => ht.announce fun _ => hgood).bind
    fun _ => ?_
  refine (create_spec (fun t ht => ⟨ht.1, ht.2, fun i hi => ?_⟩) fun t ht _ => hF t ht.1).bind
    fun file => ?_
  · exact absurd hi (not_watched_temporary path i)
  have htemporary := not_watched_temporary path file
  refine write_spec.bind fun _ => sync_spec.bind fun _ => ?_
  refine .bind (R := fun _ => Landing Watched (Good json) path (some source))
    (update_spec fun t ht => ?_) fun _ => syncDirectory_spec.bind fun _ => ?_
  · -- the temporary file is in the directory of the path
    have hdir : t.volume.hasDirectory path.directory = true :=
      ht.1.base.consistent.housed (temporaryPath path file) file (.inl ht.1.find)
    have hlanding := ht.1.rename ht.2 htemporary hwatched hdir
    exact ⟨hlanding.invariant, hlanding⟩
  · refine .bind (update_spec fun t ht => ?_) fun _ => settle_spec
    have hremoved := ht.remove htemporary hwatched
    exact ⟨hremoved.invariant, hremoved⟩

/-- A file goes. -/
theorem remove_spec (hwatched : Watched path) (hgood : Good json path none) :
    Does json F (Whole json)
      (do
        announce path none
        remove path
        syncDirectory path.directory
        settle path none)
      fun _ t => Whole json t ∧ t.saved path = none := by
  refine (announce_spec hgood (fun t ht => ht) fun t ht => ht.announce fun _ => hgood).bind
    fun _ => ?_
  refine .bind (R := fun _ => Landing Watched (Good json) path none)
    (update_spec fun t ht => ?_) fun _ => syncDirectory_spec.bind fun _ => settle_spec
  have hlanding := ht.1.remove ht.2 hwatched
  exact ⟨hlanding.invariant, hlanding⟩

/-! ## The calls -/

theorem watched_recordPath (runId : String) : Watched (recordPath runId) := ⟨runId, rfl⟩

theorem watched_cancellationTombstonePath (runId : String) :
    Watched (cancellationTombstonePath runId) := ⟨runId, rfl⟩

theorem ofExcept_spec {x : Except String α} (hF : ∀ t e, P t → x = .error e → F t) :
    Does json F P (ofExcept x) fun a t => P t ∧ x = .ok a := by
  cases x with
  | ok a => exact .pure fun t ht => ⟨ht, rfl⟩
  | error e => exact .fail fun t ht => hF t e ht rfl

theorem read_spec (hP : ∀ t, P t → Whole json t) (hwatched : Watched path) :
    Does json F P (read path) fun source t => P t ∧ t.saved path = source := by
  refine (observe_spec hP).weaken fun source t ht => ⟨ht.1, ?_⟩
  rw [ht.2, ((hP t ht.1).intact path hwatched).read]

/-- What the ledger has for the record of a Run. -/
def savedRecord (json : Json B) (t : Disk B) (runId : String) : Option Record :=
  (t.saved (recordPath runId)).bind json.record.decode

def savedTombstone (json : Json B) (t : Disk B) (runId : String) : Option CancellationTombstone :=
  (t.saved (cancellationTombstonePath runId)).bind json.tombstone.decode

/-- A saved file decodes. -/
theorem decoded_saved
    (h : ∀ source, content = some source → ∃ value, codec.decode source = some value)
    (message : String) : decoded codec message content = .ok (content.bind codec.decode) := by
  cases content with
  | none => rfl
  | some source =>
    obtain ⟨value, hvalue⟩ := h source rfl
    simp [decoded, hvalue]

theorem saved_record (h : Whole json t) (runId : String)
    (hsource : t.saved (recordPath runId) = some source) :
    ∃ record, json.record.decode source = some record ∧ record.runId = runId ∧
      isContractRunID runId = true :=
  h.good (recordPath runId) (some source) (watched_recordPath runId) (.inl hsource.symm) runId source
    rfl rfl

theorem saved_tombstone (h : Whole json t) (runId : String)
    (hsource : t.saved (cancellationTombstonePath runId) = some source) :
    ∃ tombstone, json.tombstone.decode source = some tombstone :=
  h.good (cancellationTombstonePath runId) (some source) (watched_cancellationTombstonePath runId)
    (.inl hsource.symm) runId source rfl rfl

/-- Loading a file whose saved content decodes. -/
theorem loadFile_spec (hP : ∀ t, P t → Whole json t) (hwatched : Watched path)
    (hdecode : ∀ t source, P t → t.saved path = some source →
      ∃ value, codec.decode source = some value) :
    Does json F P (loadFile codec message path) fun value t =>
      P t ∧ (t.saved path).bind codec.decode = value := by
  refine (read_spec hP hwatched).bind fun source => ?_
  have hdecoded : ∀ t, P t ∧ t.saved path = source →
      decoded codec message source = .ok (source.bind codec.decode) := fun t ht =>
    decoded_saved (fun s hs => hdecode t s ht.1 (ht.2.trans hs)) message
  refine (ofExcept_spec fun t e ht herr => ?_).weaken fun value t ht => ?_
  · rw [hdecoded t ht] at herr
    cases herr
  · refine ⟨ht.1.1, ?_⟩
    rw [ht.1.2]
    exact Except.ok.inj ((hdecoded t ht.1).symm.trans ht.2)

theorem load_spec (hP : ∀ t, P t → Whole json t) (runId : String) :
    Does json F P (load json (recordPath runId)) fun record t =>
      P t ∧ savedRecord json t runId = record :=
  loadFile_spec hP (watched_recordPath runId) fun t _ ht hsource => by
    obtain ⟨record, hrecord, -⟩ := saved_record (hP t ht) runId hsource
    exact ⟨record, hrecord⟩

theorem loadCancellationTombstone_spec (hP : ∀ t, P t → Whole json t) (runId : String) :
    Does json F P
      (loadCancellationTombstone json (cancellationTombstonePath runId)) fun tombstone t =>
      P t ∧ savedTombstone json t runId = tombstone :=
  loadFile_spec hP (watched_cancellationTombstonePath runId) fun t _ ht hsource =>
    saved_tombstone (hP t ht) runId hsource

theorem good_none (path : FilePath) : Good json path none := fun _ _ _ h => by cases h

variable {record : Record}

theorem good_record (hrun : record.runId = runId) (hcontract : isContractRunID runId = true) :
    Good json (recordPath runId) (some (json.record.encode record)) := by
  intro r source hname hsource
  cases hname
  cases hsource
  exact ⟨record, json.record.decode_encode record, hrun, hcontract⟩

theorem good_tombstone (runId : String) (tombstone : CancellationTombstone) :
    Good json (cancellationTombstonePath runId) (some (json.tombstone.encode tombstone)) := by
  intro r source hname hsource
  cases hname
  cases hsource
  exact ⟨tombstone, json.tombstone.decode_encode tombstone⟩

theorem savedRecord_none (h : Whole json t)
    (hnone : savedRecord json t runId = none) : t.saved (recordPath runId) = none := by
  cases hsaved : t.saved (recordPath runId) with
  | none => rfl
  | some source =>
    obtain ⟨record, hrecord, -⟩ := saved_record h runId hsaved
    rw [savedRecord, hsaved, Option.bind_some, hrecord] at hnone
    cases hnone

theorem savedTombstone_none (h : Whole json t) (hnone : savedTombstone json t runId = none) :
    t.saved (cancellationTombstonePath runId) = none := by
  cases hsaved : t.saved (cancellationTombstonePath runId) with
  | none => rfl
  | some source =>
    obtain ⟨tombstone, htombstone⟩ := saved_tombstone h runId hsaved
    rw [savedTombstone, hsaved, Option.bind_some, htombstone] at hnone
    cases hnone

theorem savedRecord_encode (h : t.saved (recordPath runId) = some (json.record.encode record)) :
    savedRecord json t runId = some record := by
  rw [savedRecord, h, Option.bind_some, json.record.decode_encode]

/-- A request that `Accept` has no reason to refuse. -/
structure Acceptable (config : Config) (request : RunRequest) (existing : Option Record) : Prop where
  runId : isContractRunID request.runId = true
  traceId : isContractTraceID request.traceId = true
  same : ∀ record, existing = some record → record.idempotencyKey = request.idempotencyKey ∧
    record.payloadHash = config.payloadHash request

variable {config : Config}

theorem Acceptable.not_error {existing : Option Record} (h : Acceptable config request existing) :
    acceptance config request existing ≠ .error message := by
  cases existing with
  | none => exact fun herr => by cases herr
  | some existing =>
    obtain ⟨hkey, hhash⟩ := h.same existing rfl
    simp [acceptance, hkey, hhash]

theorem storeAccepted_spec (config : Config) {result : Record × Bool}
    (hrun : isContractRunID request.runId = true) :
    Does json F (fun t => Whole json t ∧
        acceptance config request (savedRecord json t request.runId) = .ok result)
      (storeAccepted json request.runId result) fun result t =>
        Whole json t ∧ savedRecord json t request.runId = some result.1 := by
  obtain ⟨record, duplicate⟩ := result
  cases duplicate with
  | true =>
    refine .pure fun t ht => ⟨ht.1, ?_⟩
    obtain ⟨-, hsaved⟩ | ⟨hfalse, -⟩ := acceptance_ok ht.2
    · exact hsaved
    · cases hfalse
  | false =>
    refine .assume (R := record.runId = request.runId) (fun t ht => ?_) fun hsame => ?_
    · obtain ⟨htrue, -⟩ | ⟨-, -, rfl⟩ := acceptance_ok ht.2
      · cases htrue
      · rfl
    refine ((writeNew_spec (watched_recordPath _) (good_record hsame hrun)).strengthen
      fun t ht => ?_).bind fun _ => .pure fun t ht => ⟨ht.1, savedRecord_encode ht.2⟩
    obtain ⟨htrue, -⟩ | ⟨-, hnone, -⟩ := acceptance_ok ht.2
    · cases htrue
    · exact ⟨ht.1, savedRecord_none ht.1 hnone, rfl⟩

/-- `Accept` returns the record that is saved when it returns; it fails only for a request it
has a reason to refuse. -/
theorem accept_spec (hP : ∀ t, P t → Whole json t)
    (hF : ∀ t, P t → ¬ Acceptable config request (savedRecord json t request.runId) → F t) :
    Does json F P (accept json config request) fun result t =>
      Whole json t ∧ savedRecord json t request.runId = some result.1 := by
  unfold accept
  split
  · rename_i hrun
    exact .fail fun t ht => hF t ht fun h => hrun h.runId
  rename_i hrun
  rw [Decidable.not_not] at hrun
  split
  · rename_i htrace
    exact .fail fun t ht => hF t ht fun h => htrace h.traceId
  refine (load_spec hP request.runId).bind fun existing => ?_
  refine (ofExcept_spec fun t e ht herr => hF t ht.1 fun h => ?_).bind fun result => ?_
  · rw [ht.2] at h
    exact h.not_error herr
  · refine (storeAccepted_spec config hrun).strengthen fun t ht => ⟨hP t ht.1.1, ?_⟩
    rw [ht.1.2]
    exact ht.2

/-- A rewrite keeps the Run of a record. -/
theorem rewrite_spec {decision : Record → Except String (Option Record)}
    (hdecision : ∀ record next, decision record = .ok (some next) → next.runId = record.runId)
    (hF : ∀ t, Whole json t → F t) :
    Does json F (Whole json) (rewrite json runId decision) fun record t =>
        Whole json t ∧ savedRecord json t runId = some record := by
  refine (load_spec (fun t ht => ht) runId).bind fun existing => ?_
  cases existing with
  | none => exact .fail fun t ht => hF t ht.1
  | some record =>
    refine (ofExcept_spec fun t e ht _ => hF t ht.1).bind fun next => ?_
    cases next with
    | none => exact .pure fun t ht => ht.1
    | some next =>
      refine .assume (R := next.runId = runId ∧ isContractRunID runId = true)
        (fun t ht => ?_) fun hnext => ?_
      · obtain ⟨⟨hsettled, hsaved⟩, hok⟩ := ht
        obtain ⟨source, hsource, hdecode⟩ := Option.bind_eq_some_iff.mp hsaved
        obtain ⟨record', hrecord', hrun, hcontract⟩ := saved_record hsettled runId hsource
        obtain rfl := Option.mem_unique hrecord' hdecode
        exact ⟨(hdecision _ next hok).trans hrun, hcontract⟩
      · refine ((replace_spec (watched_recordPath runId) (good_record hnext.1 hnext.2) hF).strengthen
          fun t ht => ht.1.1).bind fun _ => .pure fun t ht => ⟨ht.1, savedRecord_encode ht.2⟩

theorem recordCancellation_spec {requested : CancelRequest} (hF : ∀ t, Whole json t → F t) :
    Does json F (Whole json) (recordCancellation json requested) fun tombstone t => Whole json t ∧
          savedTombstone json t requested.runId = some tombstone := by
  unfold recordCancellation
  dsimp only
  split
  · exact .fail hF
  refine (load_spec (fun t ht => ht) requested.runId).bind fun record => ?_
  split
  · exact .fail fun t ht => hF t ht.1
  refine .bind (R := fun _ t => Whole json t ∧
    t.volume.hasDirectory (some .cancellationTombstones) = true) (update_spec fun t ht => ?_)
    fun _ => ?_
  · have hsettled := ht.1.mkdir Subdirectory.cancellationTombstones
    refine ⟨hsettled.invariant, hsettled, ?_⟩
    simp [Tracked.onVolume, Volume.mkdir, Volume.hasDirectory]
  refine (loadCancellationTombstone_spec (fun t ht => ht.1) requested.runId).bind fun existing => ?_
  cases existing with
  | some existing =>
    dsimp only
    split
    · exact .fail fun t ht => hF t ht.1.1
    · exact .pure fun t ht => ⟨ht.1.1, ht.2⟩
  | none =>
    refine ((writeNew_spec (watched_cancellationTombstonePath _) (good_tombstone _ _)).strengthen
      fun t ht => ⟨ht.1.1, savedTombstone_none ht.1.1 ht.2, ht.1.2⟩).bind fun _ => ?_
    refine .pure fun t ht => ⟨ht.1, ?_⟩
    rw [savedTombstone, ht.2, Option.bind_some, json.tombstone.decode_encode]

theorem clearCancellation_spec (hF : ∀ t, Whole json t → F t) :
    Does json F (Whole json) (clearCancellation runId) fun _ t =>
        Whole json t ∧ t.saved (cancellationTombstonePath runId) = none := by
  unfold clearCancellation
  dsimp only
  split
  · exact .fail hF
  refine (read_spec (fun t ht => ht) (watched_cancellationTombstonePath runId)).bind
    fun source => ?_
  cases source with
  | none => exact .same
  | some source =>
    exact (remove_spec (watched_cancellationTombstonePath runId) (good_none _)).strengthen
      fun t ht => ht.1

/-- `HasCancellation` fails only for the request of another Run or Agent. -/
theorem hasCancellation_spec {request : RunRequest} (hP : ∀ t, P t → Whole json t)
    (hF : ∀ t, P t → (isContractRunID request.runId = true →
      ∃ message, cancellationFound request (savedTombstone json t request.runId) = .error message) →
      F t) :
    Does json F P (hasCancellation json request) fun found t =>
      P t ∧ cancellationFound request (savedTombstone json t request.runId) = .ok found := by
  unfold hasCancellation
  split
  · rename_i hrun
    exact .fail fun t ht => hF t ht fun h => absurd h hrun
  refine (loadCancellationTombstone_spec hP request.runId).bind fun tombstone => ?_
  refine (ofExcept_spec fun t e ht herr => hF t ht.1 fun _ => ⟨e, ?_⟩).weaken fun found t ht => ?_
  · rw [ht.2, herr]
  · exact ⟨ht.1.1, by rw [ht.1.2]; exact ht.2⟩

variable {record' : Record}

theorem transition_runId {expected next : State}
    (h : record.transition expected next = .ok (some record')) : record'.runId = record.runId := by
  cases (Record.transition_ok h).2
  rfl

theorem appending_runId {state : State} {event : RuntimeEvent}
    (h : record.appending state event = .ok (some record')) : record'.runId = record.runId := by
  rcases Record.appending_ok h with ⟨hnone, -⟩ | ⟨hsome, -⟩
  · cases hnone
  · cases hsome
    rfl

theorem appendingEvidence_runId {evidence : SupplementalEvidence}
    (h : record.appendingEvidence evidence = .ok (some record')) :
    record'.runId = record.runId := by
  rw [Record.appendingEvidence_ok h]
  rfl

end InboxFiles

/-! ## The inbox over its lifetime -/

/-- The calls that write. -/
inductive InboxCall where
  | accept (config : Config) (request : RunRequest)
  | appendEvent (runId : String) (state : State) (event : RuntimeEvent)
  | appendSupplementalEvidence (runId : String) (evidence : SupplementalEvidence)
  | transitionLocalState (runId : String) (expected next : State)
  | recordCancellation (requested : CancelRequest)
  | clearCancellation (runId : String)

def InboxCall.exec {B : Type} (json : Json B) : InboxCall → FileCall B Unit
  | .accept config request => do
    let _ ← InboxFiles.accept json config request
  | .appendEvent runId state event => do
    let _ ← InboxFiles.appendEvent json runId state event
  | .appendSupplementalEvidence runId evidence => do
    let _ ← InboxFiles.appendSupplementalEvidence json runId evidence
  | .transitionLocalState runId expected next => do
    let _ ← InboxFiles.transitionLocalState json runId expected next
  | .recordCancellation requested => do
    let _ ← InboxFiles.recordCancellation json requested
  | .clearCancellation runId => InboxFiles.clearCancellation runId

/-- The disk, the call that holds the mutex, and the files as they were at each crash. -/
structure InboxMachine (B : Type) where
  disk : Disk B
  running : Option (FileCall B Unit)
  crashes : List (Files B)

namespace InboxMachine

open InboxFiles Operations

variable {B : Type} [DecidableEq B] {json : Json B}

/-- An empty inbox directory. -/
def initial (json : Json B) : InboxMachine B where
  disk := ⟨⟨fun _ => ∅, fun _ => ∅, fun _ => ⟨json.blank, false⟩, 0, fun _ => false, fun _ => false⟩,
    fun _ => none, none⟩
  running := none
  crashes := []

inductive Step (json : Json B) : InboxMachine B → InboxMachine B → Prop
  | call {disk crashes} (call : InboxCall) :
      Step json ⟨disk, none, crashes⟩ ⟨disk, some (call.exec json), crashes⟩
  | act {disk effect next crashes} :
      Step json ⟨disk, some (.act effect next), crashes⟩
        ⟨effect disk (), some (next disk ()), crashes⟩
  | returned {disk result crashes} :
      Step json ⟨disk, some (.done result), crashes⟩ ⟨disk, none, crashes⟩
  | crash {disk running crashes files} (h : Volume.Crash disk.volume files) :
      Step json ⟨disk, running, crashes⟩ ⟨disk.restart files, none, crashes ++ [disk.volume]⟩

def Reachable (json : Json B) (m : InboxMachine B) : Prop := ReflTransGen (Step json) (initial json) m

/-- No new file waits for its sync, and the directory of tombstones, if there is one, is on the
disk. -/
structure Sheltered (files : Files B) : Prop where
  rooted : files.Rooted
  synced : ∀ path, Watched path → files.Synced path

/-- Between its operations a call keeps the invariant; between calls nothing is half done. -/
structure Safe (json : Json B) (m : InboxMachine B) : Prop where
  invariant : Invariant Watched (Good json) m.disk
  idle : m.running = none → Whole json m.disk
  running : ∀ p, m.running = some p →
    (journaled Watched (Good json) (Whole json)).Keeps
      (fun _ => Whole json) p m.disk

omit [DecidableEq B] in
theorem exec_spec (call : InboxCall) :
    (journaled Watched (Good json) (Whole json)).Triple
      (Whole json) (call.exec json) fun _ => Whole json := by
  cases call with
  | accept config request =>
    exact (InboxFiles.accept_spec (fun _ ht => ht) fun _ ht _ => ht).bind fun _ => .pure fun _ ht => ht.1
  | appendEvent runId state event =>
    exact (InboxFiles.rewrite_spec (fun _ _ => appending_runId) fun _ ht => ht).bind fun _ =>
      .pure fun _ ht => ht.1
  | appendSupplementalEvidence runId evidence =>
    exact (InboxFiles.rewrite_spec (fun _ _ => appendingEvidence_runId) fun _ ht => ht).bind fun _ =>
      .pure fun _ ht => ht.1
  | transitionLocalState runId expected next =>
    exact (InboxFiles.rewrite_spec (fun _ _ => transition_runId) fun _ ht => ht).bind fun _ =>
      .pure fun _ ht => ht.1
  | recordCancellation requested =>
    exact (InboxFiles.recordCancellation_spec fun _ ht => ht).bind fun _ => .pure fun _ ht => ht.1
  | clearCancellation runId =>
    exact (InboxFiles.clearCancellation_spec fun _ ht => ht).weaken fun _ _ ht => ht.1

variable {disk : Disk B} {crashes : List (Files B)}

omit [DecidableEq B] in
theorem Safe.settled (h : Whole json disk) : Safe json ⟨disk, none, crashes⟩ :=
  ⟨h.invariant, fun _ => h, fun _ hp => by cases hp⟩

omit [DecidableEq B] in
theorem Safe.initial : Safe json (InboxMachine.initial json) := by
  have hview : ∀ (path : FilePath) x, (InboxMachine.initial json).disk.volume.View path x →
      x = none := by
    rintro path x (hx | hx)
    · exact hx.symm.trans (AList.lookup_empty _)
    · exact hx.symm.trans (AList.lookup_empty _)
  refine .settled ⟨⟨fun p i hi => ?_, fun p i hi => ?_⟩, fun p o _ ho => ?_, fun p _ => ?_⟩
  · cases hview p _ hi
  · cases hview p _ hi
  · rcases ho with rfl | ho
    · exact good_none p
    · cases ho
  · refine ⟨fun i hi => ?_, fun x hx => ?_⟩
    · cases hview p _ hi
    · rw [hview p x hx]
      rfl

theorem safe_step : Transition.Preserved (Step json) fun m =>
    (∀ files ∈ m.crashes, Sheltered files) → Safe json m := by
  intro m m' hstep h hcrashes
  cases hstep with
  | call call =>
    have hsettled := (h hcrashes).idle rfl
    refine ⟨hsettled.invariant, fun hnone => (by cases hnone), fun p hp => ?_⟩
    cases hp
    exact exec_spec call _ hsettled
  | act =>
    have hkeeps := (h hcrashes).running _ rfl
    refine ⟨(hkeeps ()).1, fun hnone => (by cases hnone), fun p hp => ?_⟩
    cases hp
    exact (hkeeps ()).2 _ .refl
  | @returned disk result crashes =>
    have hkeeps := (h hcrashes).running _ rfl
    cases result with
    | ok => exact .settled hkeeps
    | error => exact .settled hkeeps
  | @crash disk running crashes files hcrash =>
    have hold := h fun v hv => hcrashes v (List.mem_append_left _ hv)
    have hshelter := hcrashes disk.volume (List.mem_append_right _ List.mem_cons_self)
    exact .settled (hold.invariant.restart hcrash hshelter.rooted hshelter.synced)

theorem Reachable.settled {m : InboxMachine B} (h : Reachable json m)
    (hcrashes : ∀ files ∈ m.crashes, Sheltered files) (hidle : m.running = none) :
    Whole json m.disk :=
  (safe_step.run h (fun _ => Safe.initial) hcrashes).idle hidle

/-! ### Reading the inbox -/

omit [DecidableEq B] in
/-- The records that `List` finds under a name. -/
def savedUnder (json : Json B) (disk : Disk B) : FileName → List Record
  | .temporary _ => []
  | .json runId => (savedRecord json disk runId).toList

omit [DecidableEq B] in
theorem listed_eq (h : Whole json disk) {name : FileName}
    (hname : name ∈ (disk.volume.entries none).keys) :
    listed json disk.volume name = .ok (savedUnder json disk name) := by
  cases name with
  | temporary n => rfl
  | json runId =>
    have hread := (h.intact (recordPath runId) (watched_recordPath runId)).read
    have hexists : (disk.volume.read (recordPath runId)).isSome = true := by
      unfold Volume.read Volume.find
      rw [Option.isSome_map]
      exact AList.lookup_isSome.mpr (AList.mem_keys.mpr hname)
    obtain ⟨source, hsource⟩ := Option.isSome_iff_exists.mp hexists
    obtain ⟨record, hdecode, hrun, hcontract⟩ := saved_record h runId (hread.symm.trans hsource)
    have hsaved : savedRecord json disk runId = some record := by
      rw [savedRecord, ← hread, hsource, Option.bind_some, hdecode]
    rw [savedUnder, hsaved]
    simp [listed, hsource, decoded, hdecode, hrun, hcontract, bind, Except.bind]

theorem mapM_ok {α β : Type} {f : α → Except String β} {g : α → β} {xs : List α}
    (h : ∀ x ∈ xs, f x = .ok (g x)) : xs.mapM f = .ok (xs.map g) := by
  induction xs with
  | nil => rfl
  | cons x rest ih =>
    rw [List.mapM_cons, h x List.mem_cons_self, ih fun y hy => h y (List.mem_cons_of_mem x hy)]
    rfl

omit [DecidableEq B] in
/-- `List` finds exactly the saved records. -/
theorem list_eq (h : Whole json disk) :
    ∃ records, list json disk.volume = .ok records ∧
      ∀ record, record ∈ records ↔ savedRecord json disk record.runId = some record := by
  refine ⟨((disk.volume.entries none).keys.map (savedUnder json disk)).flatten, ?_, fun record => ?_⟩
  · rw [list, mapM_ok fun name hname => listed_eq h hname]
    rfl
  rw [← List.flatMap_def, List.mem_flatMap]
  constructor
  · rintro ⟨name, -, hrecord⟩
    cases name with
    | temporary n => cases hrecord
    | json runId =>
      have hsaved : savedRecord json disk runId = some record := by
        simpa [savedUnder] using hrecord
      obtain ⟨source, hsource, hdecode⟩ := Option.bind_eq_some_iff.mp hsaved
      obtain ⟨record', hrecord', hrun, -⟩ := saved_record h runId hsource
      obtain rfl := Option.mem_unique hrecord' hdecode
      rwa [hrun]
  · intro hsaved
    refine ⟨.json record.runId, ?_, by simp [savedUnder, hsaved]⟩
    obtain ⟨source, hsource, -⟩ := Option.bind_eq_some_iff.mp hsaved
    have hread := (h.intact _ (watched_recordPath record.runId)).read
    rw [hsource] at hread
    obtain ⟨file, hfile, -⟩ := Option.map_eq_some_iff.mp hread
    have hlookup : (disk.volume.entries none).lookup (.json record.runId) = some file := hfile
    exact AList.mem_keys.mp (AList.lookup_isSome.mp (by rw [hlookup]; rfl))

omit [DecidableEq B] in
/-- What a call returns when it runs alone and has no reason to fail. -/
theorem ok_of_triple {p : FileCall B α} {P : Disk B → Prop} {Q : α → Disk B → Prop}
    (h : (journaled Watched (Good json) fun _ => False).Triple P p Q) (hdisk : P disk) :
    ∃ a, (p.run () disk).1 = .ok a ∧ Q a (p.run () disk).2 := by
  have hrun := (h disk hdisk).run ()
  cases hresult : (p.run () disk).1 with
  | ok a =>
    rw [hresult] at hrun
    exact ⟨a, rfl, hrun⟩
  | error e =>
    rw [hresult] at hrun
    exact hrun.elim

/-- **The inbox after crashes.** Whenever no call is running, and every crash so far found no new
file without its sync and the directory of tombstones on the disk: each file has the content of
the last call that completed (or of the call a crash has cut off after it took effect), `List`
and `Get` return the saved records, and `Accept` and `HasCancellation` succeed for every request
that fits what is saved. -/
theorem inbox_crash_consistent {m : InboxMachine B} (hreach : Reachable json m)
    (hcrashes : ∀ files ∈ m.crashes, Sheltered files) (hidle : m.running = none) :
    (∀ path, Watched path → m.disk.volume.read path = m.disk.saved path) ∧
      (∃ records, list json m.disk.volume = .ok records ∧
        ∀ record, record ∈ records ↔ savedRecord json m.disk record.runId = some record) ∧
      (∀ runId, ((InboxFiles.get json runId).run () m.disk).1 =
        .ok (savedRecord json m.disk runId)) ∧
      (∀ config request, Acceptable config request (savedRecord json m.disk request.runId) →
        ∃ result, ((accept json config request).run () m.disk).1 = .ok result) ∧
      ∀ request, isContractRunID request.runId = true →
        (∀ tombstone, savedTombstone json m.disk request.runId = some tombstone →
          tombstone.runId = request.runId ∧ tombstone.traceId = request.traceId ∧
            tombstone.agentId = request.targetAgentId) →
        ((hasCancellation json request).run () m.disk).1 =
          .ok (savedTombstone json m.disk request.runId).isSome := by
  have hsettled := hreach.settled hcrashes hidle
  refine ⟨fun path hpath => (hsettled.intact path hpath).read, list_eq hsettled, fun runId => ?_,
    fun config request hrequest => ?_, fun request hrun hsame => ?_⟩
  · obtain ⟨record, hrecord, hdisk, hsaved⟩ := ok_of_triple (P := fun t => t = m.disk)
      (InboxFiles.load_spec (fun t ht => ht ▸ hsettled) runId) rfl
    rw [hdisk] at hsaved
    rw [hsaved]
    exact hrecord
  · obtain ⟨result, hresult, -⟩ := ok_of_triple (P := fun t => t = m.disk)
      (InboxFiles.accept_spec (fun t ht => ht ▸ hsettled) fun t ht hnot => hnot (ht ▸ hrequest)) rfl
    exact ⟨result, hresult⟩
  · -- the saved tombstone, if any, is the one of the request
    have hfound : cancellationFound request (savedTombstone json m.disk request.runId) =
        .ok (savedTombstone json m.disk request.runId).isSome := by
      cases htombstone : savedTombstone json m.disk request.runId with
      | none => rfl
      | some tombstone =>
        obtain ⟨hid, htrace, hagent⟩ := hsame tombstone htombstone
        simp [cancellationFound, hid, htrace, hagent]
    have hnever : ∀ t, t = m.disk → (isContractRunID request.runId = true → ∃ message,
        cancellationFound request (savedTombstone json t request.runId) = .error message) →
        False := by
      rintro t rfl herr
      obtain ⟨message, hmessage⟩ := herr hrun
      rw [hfound] at hmessage
      cases hmessage
    obtain ⟨found, hresult, hdisk, hsaved⟩ := ok_of_triple (P := fun t => t = m.disk)
      (InboxFiles.hasCancellation_spec (fun t ht => ht ▸ hsettled) hnever) rfl
    rw [hdisk, hfound] at hsaved
    rw [hresult, hsaved]

/-! ### Runs of the inbox -/

omit [DecidableEq B] in
/-- A crash of the process alone: everything reaches the disk. -/
def flushed (files : Files B) : Files B :=
  { files with
    durable := files.entries
    files := fun i => ⟨(files.files i).bytes, true⟩
    durablePresent := files.present }

omit [DecidableEq B] in
theorem crash_flushed {files : Files B} (h : files.Consistent) :
    Volume.Crash files (flushed files) where
  present := fun _ => .inl rfl
  kept := fun _ _ => .inl rfl
  gone := fun path hdir => by
    cases hfind : files.find path with
    | none => exact hfind
    | some i =>
      have hhoused : (flushed files).hasDirectory path.directory = true :=
        h.housed path i (.inl hfind)
      rw [hdir] at hhoused
      cases hhoused
  bytes := fun _ _ => rfl
  synced := fun _ => rfl
  durable := fun _ => rfl
  durablePresent := rfl
  next := rfl

/-- A call that runs to its end. -/
theorem completes (p : FileCall B Unit) :
    ReflTransGen (Step json) ⟨disk, some p, crashes⟩ ⟨(p.run () disk).2, none, crashes⟩ := by
  induction p generalizing disk with
  | done result => exact .single .returned
  | act effect next ih => exact .head .act (ih disk ())

/-- A call that runs for some of its operations. -/
theorem advances (n : Nat) (p : FileCall B Unit) :
    ReflTransGen (Step json) ⟨disk, some p, crashes⟩
      ⟨(p.advance disk (List.replicate n ())).1, some (p.advance disk (List.replicate n ())).2,
        crashes⟩ := by
  induction n generalizing disk p with
  | zero => exact .refl
  | succ n ih =>
    cases p with
    | done result => exact .refl
    | act effect next => exact .head .act (ih _)

/-- Contents that are values, with an empty file as the one other content. -/
def plainJson : Json (Option (Record ⊕ CancellationTombstone)) where
  blank := none
  record := ⟨fun record => some (.inl record), fun content => content.bind Sum.getLeft?,
    fun _ => rfl⟩
  tombstone := ⟨fun tombstone => some (.inr tombstone), fun content => content.bind Sum.getRight?,
    fun _ => rfl⟩
  record_blank := rfl
  tombstone_blank := rfl

/-- The disk once a first Run has been accepted. -/
def acceptedDisk : Disk (Option (Record ⊕ CancellationTombstone)) :=
  (((InboxCall.accept Machine.steadyConfig Machine.lateRequest).exec plainJson).run ()
    (initial plainJson).disk).2

/-- The inbox restarts after a crash that follows the acceptance. -/
def restarted : InboxMachine (Option (Record ⊕ CancellationTombstone)) :=
  ⟨acceptedDisk.restart (flushed acceptedDisk.volume), none, [acceptedDisk.volume]⟩

theorem accepted_reachable : Reachable plainJson ⟨acceptedDisk, none, []⟩ :=
  .head (.call (.accept Machine.steadyConfig Machine.lateRequest)) (completes _)

theorem accepted_settled : Settled Watched (Good plainJson) acceptedDisk :=
  accepted_reachable.settled (fun _ h => absurd h List.not_mem_nil) rfl

theorem restarted_reachable : Reachable plainJson restarted :=
  accepted_reachable.tail (.crash (crash_flushed accepted_settled.consistent))

theorem inbox_crash_consistent_restarted :
    ((InboxFiles.get plainJson "run_delivered").run () restarted.disk).1 =
        .ok (savedRecord plainJson restarted.disk "run_delivered") ∧
      savedRecord plainJson restarted.disk "run_delivered" =
        some (Record.ofRequest "key" Machine.lateRequest) := by
  have hsheltered : ∀ files ∈ restarted.crashes, Sheltered files := by
    intro files hfiles
    obtain rfl := List.mem_singleton.mp hfiles
    exact ⟨fun s hs => (by cases hs), fun path hpath => (accepted_settled.intact path hpath).synced⟩
  obtain ⟨-, -, hget, -⟩ := inbox_crash_consistent restarted_reachable hsheltered rfl
  exact ⟨hget "run_delivered", by decide⟩

/-- The process of `Accept` stops right after it has created the file. -/
def createdDisk (json : Json B) : Disk B :=
  (((InboxCall.accept Machine.steadyConfig Machine.lateRequest).exec json).advance
    (initial json).disk (List.replicate 3 ())).1

theorem created_reachable (json : Json B) :
    ∃ running, Reachable json ⟨createdDisk json, running, []⟩ :=
  ⟨_, .head (.call (.accept Machine.steadyConfig Machine.lateRequest)) (advances 3 _)⟩

theorem created_consistent (json : Json B) : Volume.Consistent (createdDisk json).volume := by
  obtain ⟨running, hreach⟩ := created_reachable json
  exact (safe_step.run hreach (fun _ => Safe.initial) fun _ h =>
    absurd h List.not_mem_nil).invariant.consistent

omit [DecidableEq B] in
/-- Whatever the encoding, one file without content makes `List` fail. -/
theorem created_unreadable (json : Json B) :
    list json (flushed (createdDisk json).volume) = .error "decode inbox record" := by
  have hread : (flushed (createdDisk json).volume).read (recordPath "run_delivered") =
      some json.blank := rfl
  have hkeys : ((flushed (createdDisk json).volume).entries none).keys = [.json "run_delivered"] :=
    rfl
  rw [list, hkeys, List.mapM_cons, listed, hread, decoded]
  simp only [json.record_blank]
  rfl

/-- A crash inside `writeNew` leaves an inbox that cannot be listed. -/
theorem inbox_unreadable_after_crash :
    ¬ ∀ m, Reachable plainJson m → m.running = none →
      ∃ records, list plainJson m.disk.volume = .ok records := by
  intro h
  obtain ⟨running, hreach⟩ := created_reachable plainJson
  obtain ⟨records, hrecords⟩ := h _ (hreach.tail (.crash (crash_flushed
    (created_consistent plainJson)))) rfl
  exact absurd ((created_unreadable plainJson).symm.trans hrecords) (by simp)

end InboxMachine

end ConveneWire.Bridge
