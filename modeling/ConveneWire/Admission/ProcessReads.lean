import ConveneWire.Admission.FenceReads
import ConveneWire.Admission.ProcessStore

/-! # What the process store can read back

As for the Runtime fence, and one thing more: a process that was observed keeps its
lock file until it is over, since without the file it can no longer be fenced. -/

namespace ConveneWire.Admission

open Bridge (Io isContractRunID)
open Contracts.ExecutionRuntime (maxSafeJSONInteger)
open Transactional (mapM_eq_ok exists_mapM_ok exists_of_mem_mapM map_eq_of_mapM)

theorem runId_of_validIdentity {identity : GovernedProcessIdentity}
    (h : validGovernedProcessIdentity identity = true) : isContractRunID identity.runId = true := by
  simp only [validGovernedProcessIdentity, Bool.and_assoc, Bool.and_eq_true] at h
  exact h.1

namespace ProcessFiles

/-- The files of a Run pass, and the view shows this much of them. -/
inductive Reads (codec : ProcessCodec) (owner : ProcessOwner) (files : ProcessFiles) :
    GovernedProcessView → Prop
  | live (hprepared : files.preparedReads codec owner = true)
      (hactive : files.active.all (files.activeReads codec) = true)
      (hfinished : files.finished = none) (habandoned : files.abandoned = none) :
      Reads codec owner files (files.viewWith codec files.active none)
  | finished {active : GovernedProcessActiveRecord} {terminal : GovernedProcessTerminalRecord}
      (hprepared : files.preparedReads codec owner = true)
      (hactive : files.active = some active) (hreads : files.activeReads codec active = true)
      (hfinished : files.finished = some terminal) (habandoned : files.abandoned = none)
      (hterminal : files.finishedReads codec active terminal = true) :
      Reads codec owner files (files.viewWith codec (some active) (some (.finished, terminal)))
  | abandoned {terminal : GovernedProcessTerminalRecord}
      (hprepared : files.preparedReads codec owner = true) (hactive : files.active = none)
      (hfinished : files.finished = none) (habandoned : files.abandoned = some terminal)
      (hterminal : files.abandonedReads codec terminal = true) :
      Reads codec owner files (files.viewWith codec none (some (.abandoned, terminal)))

/-- No terminal record was written. -/
def Live (files : ProcessFiles) : Prop := files.finished = none ∧ files.abandoned = none

/-- The last time on record of a process that is not over. -/
def last (files : ProcessFiles) : Option Instant :=
  if files.finished.isSome || files.abandoned.isSome then none
  else some ((files.active.map GovernedProcessActiveRecord.startedAt).getD files.prepared.preparedAt)

variable {codec : ProcessCodec} {owner : ProcessOwner} {files : ProcessFiles}
  {view : GovernedProcessView}

theorem view_eq_ok : files.view codec owner = .ok view ↔ files.Reads codec owner view := by
  refine ⟨fun h => ?_, fun h => ?_⟩
  · unfold ProcessFiles.view at h
    split at h
    · cases h
    rename_i hprepared
    have hprepared := Decidable.not_not.mp hprepared
    split at h
    · cases h
    rename_i hactive
    have hactive := Decidable.not_not.mp hactive
    split at h
    · rename_i hfinished habandoned
      cases h
      exact .live hprepared hactive hfinished habandoned
    · rename_i active terminal hsome hfinished habandoned
      split at h
      · rename_i hterminal
        cases h
        have hreads : files.activeReads codec active = true := by simpa [hsome] using hactive
        exact .finished hprepared hsome hreads hfinished habandoned hterminal
      · cases h
    · rename_i terminal hnone hfinished habandoned
      split at h
      · rename_i hterminal
        cases h
        exact .abandoned hprepared hnone hfinished habandoned hterminal
      · cases h
    · cases h
  · cases h with
    | live hprepared hactive hfinished habandoned =>
      simp [ProcessFiles.view, hprepared, hactive, hfinished, habandoned]
    | finished hprepared hactive hreads hfinished habandoned hterminal =>
      simp [ProcessFiles.view, hprepared, hactive, hreads, hfinished, habandoned, hterminal]
    | abandoned hprepared hactive hfinished habandoned hterminal =>
      simp [ProcessFiles.view, hprepared, hactive, hfinished, habandoned, hterminal]

namespace Reads

section

variable (h : files.Reads codec owner view)
include h

theorem prepared : view.prepared = files.prepared := by
  cases h <;> rfl

theorem preparedDigest : view.preparedDigest = codec.preparedDigest files.prepared := by
  cases h <;> rfl

theorem active : view.active = files.active := by
  cases h with
  | live => rfl
  | finished _ hactive => exact hactive.symm
  | abandoned _ hactive => exact hactive.symm

theorem activeDigest : view.activeDigest = (files.active.map codec.activeDigest).getD "" := by
  rw [← h.active]
  cases h <;> rfl

theorem preparedReads : files.preparedReads codec owner = true := by
  cases h <;> assumption

theorem contractRun : isContractRunID files.run = true := by
  have hprepared := h.preparedReads
  simp only [ProcessFiles.preparedReads, Bool.and_eq_true] at hprepared
  exact runId_of_validIdentity hprepared.1.1.2

theorem activeReads : files.active.all (files.activeReads codec) = true := by
  cases h with
  | live _ hactive => exact hactive
  | finished _ hactive hreads => simpa [hactive] using hreads
  | abandoned _ hactive => simp [hactive]

theorem live_iff : view.terminal = none ↔ files.Live := by
  cases h with
  | live _ _ hfinished habandoned => exact ⟨fun _ => ⟨hfinished, habandoned⟩, fun _ => rfl⟩
  | finished _ _ _ hfinished =>
    refine ⟨(nomatch ·), fun h => ?_⟩
    rw [h.1] at hfinished
    cases hfinished
  | abandoned _ _ _ habandoned =>
    refine ⟨(nomatch ·), fun h => ?_⟩
    rw [h.2] at habandoned
    cases habandoned

end

end Reads

theorem last_of_live (h : files.Live) : files.last =
    some ((files.active.map GovernedProcessActiveRecord.startedAt).getD
      files.prepared.preparedAt) := by
  simp [last, h.1, h.2]

/-- A record of a later time than the last one is later than the preparation. -/
theorem timely_live (h : files.Live) (hactive : files.active.all (files.activeReads codec) = true)
    {now : Instant} (htime : timely now files.last = true) :
    validProfileTime now = true ∧ files.prepared.preparedAt ≤ now ∧
      ∀ active, files.active = some active → active.startedAt ≤ now := by
  obtain ⟨hnow, hle⟩ := timely_some (last_of_live h ▸ htime)
  cases hfiles : files.active with
  | none =>
    rw [hfiles] at hle
    exact ⟨hnow, hle, fun _ h => by cases h⟩
  | some active =>
    rw [hfiles] at hle hactive
    have hstarted : active.startedAt ≤ now := hle
    have hprepared : files.prepared.preparedAt ≤ active.startedAt := by
      have hreads : files.activeReads codec active = true := hactive
      simp only [ProcessFiles.activeReads, Bool.and_eq_true, decide_eq_true_eq] at hreads
      exact hreads.2
    refine ⟨hnow, hprepared.trans hstarted, ?_⟩
    rintro _ ⟨⟩
    exact hstarted

end ProcessFiles

open ProcessFiles (preparedReads activeReads view_eq_ok count terminalReads timely_live)

/-- The file system and the operating system do their part: writes succeed, and a
lock is free once its process was told to go. -/
structure ProcessAnswer.Cooperates (answer : ProcessAnswer) : Prop where
  write : answer.write = .ok
  removed : answer.lockRemoved = true
  released : answer.released = true

namespace GovernedProcessStore

variable {codec : ProcessCodec} {store : GovernedProcessStore} {run : String}
  {view : GovernedProcessView}

/-- The last time on record of a Run whose process is not over. -/
def last (store : GovernedProcessStore) (run : String) : Option Instant :=
  (store.lookup run).bind ProcessFiles.last

theorem get_ok (h : store.get codec run = .ok view) :
    ∃ files, store.lookup run = some files ∧ files.Reads codec store.owner view := by
  unfold get at h
  split at h
  · cases h
  split at h
  · cases h
  · rename_i files hfiles
    exact ⟨files, hfiles, view_eq_ok.mp h⟩

variable {answer : ProcessAnswer} {files : ProcessFiles} {identity : GovernedProcessIdentity}
  {lease : Lease} {n : Nat} {next : GovernedProcessStore} {now : Instant}
  {observation : GovernedProcessObservation} {record : GovernedProcessPreparedRecord}
  {seen : GovernedProcessView} {f : ProcessFiles → ProcessFiles}

theorem lookup_run (h : store.lookup run = some files) : files.run = run :=
  Table.lookup_key h

theorem get_of_lookup (h : store.lookup run = some files)
    (hreads : files.Reads codec store.owner view) : store.get codec run = .ok view := by
  have hrun : isContractRunID run = true := lookup_run h ▸ hreads.contractRun
  simp [get, h, hrun, view_eq_ok.mpr hreads]

theorem get_error_notExist (h : store.get codec run = .error .notExist) :
    store.lookup run = none := by
  unfold get at h
  split at h
  · cases h
  split at h
  · assumption
  unfold ProcessFiles.view at h
  split at h
  · cases h
  split at h
  · cases h
  · split at h <;> (try split at h) <;> cases h

theorem entries_le : store.entries ≤ store.runs.length * 5 + store.pending := by
  have hsum : (store.runs.map count).sum ≤ store.runs.length * 5 := by
    refine (List.sum_le_card_nsmul _ 5 ?_).trans (by simp)
    intro n hn
    obtain ⟨files, -, rfl⟩ := List.mem_map.mp hn
    rcases files with ⟨prepared, active, finished, abandoned, lock⟩
    cases active <;> cases finished <;> cases abandoned <;> cases lock <;>
      simp [count]
  exact Nat.add_le_add_right hsum _

theorem list_ok {views : List GovernedProcessView} (h : store.list codec = .ok views) :
    store.runs.mapM (ProcessFiles.view codec store.owner) = .ok views := by
  unfold list at h
  split at h
  · cases h
  · exact h

theorem lookup_edit (hf : ∀ files, (f files).run = files.run) {other : String} :
    (store.edit run f).lookup other =
      (store.lookup other).map fun files => if files.run = run then f files else files :=
  Table.lookup_update hf

theorem lookup_edit_self (hf : ∀ files, (f files).run = files.run)
    (hfiles : store.lookup run = some files) : (store.edit run f).lookup run = some (f files) := by
  rw [lookup_edit hf, hfiles, Option.map_some, if_pos (lookup_run hfiles)]

structure Listable (codec : ProcessCodec) (store : GovernedProcessStore) : Prop where
  reads : ∀ files ∈ store.runs, ∃ view, files.Reads codec store.owner view
  entries : store.entries ≤ maxRuntimeAdmissions * 5 + 16

theorem Listable.list (h : store.Listable codec) : ∃ views, store.list codec = .ok views := by
  rw [GovernedProcessStore.list, if_neg (Nat.not_lt.mpr h.entries)]
  exact exists_mapM_ok fun files hfiles =>
    (h.reads files hfiles).imp fun _ hview => view_eq_ok.mpr hview

/-- Every file of the store passes its reader, there are no more than a listing takes,
and a process that is not over has its lock. -/
structure Readable (codec : ProcessCodec) (store : GovernedProcessStore) : Prop where
  distinct : (store.runs.map ProcessFiles.run).Nodup
  reads : ∀ files ∈ store.runs, (∃ view, files.Reads codec store.owner view) ∧
    (files.active ≠ none → files.Live → files.lock = true)
  leased : ∀ lease ∈ store.leases, ∃ files, store.lookup lease.identity.runId = some files ∧
    (files.Live → files.lock = true)
  bounded : store.runs.length ≤ maxRuntimeAdmissions

section

variable (h : store.Readable codec)
include h

theorem Readable.of_lookup (hfiles : store.lookup run = some files) :
    (∃ view, files.Reads codec store.owner view) ∧
      (files.active ≠ none → files.Live → files.lock = true) :=
  h.reads files (Table.mem_of_lookup hfiles)

theorem Readable.get (hfiles : files ∈ store.runs) :
    ∃ view, store.get codec files.run = .ok view := by
  obtain ⟨view, hview⟩ := (h.reads files hfiles).1
  exact ⟨view, get_of_lookup (Table.lookup_of_mem h.distinct hfiles) hview⟩

/-- The temporary files that stopped processes left behind do not fill a listing. -/
theorem Readable.list (htidy : store.pending ≤ 16) : ∃ views, store.list codec = .ok views := by
  have hle := store.entries_le
  have hbounded := h.bounded
  exact Listable.list ⟨fun files hfiles => (h.reads files hfiles).1, by omega⟩

/-! ## Writing -/

/-- The files of one Run rewritten. -/
theorem Readable.edit (hf : ∀ files, (f files).run = files.run)
    (hreads : ∀ files, store.lookup run = some files →
      (∃ view, (f files).Reads codec store.owner view) ∧ ((f files).Live → (f files).lock = true)) :
    (store.edit run f).Readable codec where
  distinct := by
    rw [GovernedProcessStore.edit, Table.map_key_update hf]
    exact h.distinct
  reads := Table.forall_update h.distinct h.reads fun files hfiles =>
    (hreads files hfiles).imp_right fun hlock _ => hlock
  leased := by
    intro lease hlease
    obtain ⟨files, hfiles, hlive⟩ := h.leased lease hlease
    rw [lookup_edit hf, hfiles, Option.map_some]
    by_cases hrun : files.run = run
    · rw [if_pos hrun]
      have hrun : lease.identity.runId = run := (lookup_run hfiles).symm.trans hrun
      exact ⟨_, rfl, (hreads files (hrun ▸ hfiles)).2⟩
    · rw [if_neg hrun]
      exact ⟨_, rfl, hlive⟩
  bounded := by
    rw [GovernedProcessStore.edit, Table.update, List.length_map]
    exact h.bounded

/-- As above, from how the files of the Run read before. -/
theorem Readable.rewrite (hfiles : store.lookup run = some files)
    (hf : ∀ files, (f files).run = files.run) (hreads : ∀ view, files.Reads codec store.owner view →
      ∃ view, (f files).Reads codec store.owner view)
    (hlock : (f files).Live → (f files).lock = true) : (store.edit run f).Readable codec := by
  refine h.edit hf fun files' hfiles' => ?_
  obtain rfl := Option.mem_unique hfiles hfiles'
  obtain ⟨⟨view, hview⟩, -⟩ := h.of_lookup hfiles
  exact ⟨hreads view hview, hlock⟩

theorem Readable.withLease {lease lease' : Lease}
    (hlease : store.leases[n]? = some lease) (hidentity : lease'.identity = lease.identity) :
    (store.withLease n lease').Readable codec where
  distinct := h.distinct
  reads := h.reads
  leased := by
    intro other hother
    rcases List.mem_or_eq_of_mem_set hother with hother | rfl
    · exact h.leased other hother
    · rw [hidentity]
      exact h.leased lease (List.mem_of_getElem? hlease)
  bounded := h.bounded

theorem Readable.withPrepared {record : GovernedProcessPreparedRecord} {lock : Bool}
    (hnew : store.lookup record.identity.runId = none)
    (hroom : store.runs.length < maxRuntimeAdmissions) (hprepared : preparedReads codec store.owner
      ⟨record, none, none, none, lock⟩ = true) :
    (store.withPrepared record lock).Readable codec where
  distinct := Table.nodup_append h.distinct hnew
  reads := by
    intro files hfiles
    rcases List.mem_append.mp hfiles with hfiles | hfiles
    · exact h.reads files hfiles
    · obtain rfl := List.mem_singleton.mp hfiles
      exact ⟨⟨_, .live hprepared rfl rfl rfl⟩, fun hactive => absurd rfl hactive⟩
  leased := by
    intro lease hlease
    obtain ⟨files, hfiles, hlive⟩ := h.leased lease hlease
    exact ⟨files, Table.lookup_append_of_some hfiles, hlive⟩
  bounded := by
    simp only [GovernedProcessStore.withPrepared, List.length_append, List.length_singleton]
    omega

theorem Readable.withoutLock (hover : ∀ files, store.lookup run = some files → ¬ files.Live) :
    (store.withoutLock run).Readable codec := by
  refine h.edit (fun _ => rfl) fun files hfiles => ⟨?_, fun hlive => absurd hlive (hover files hfiles)⟩
  obtain ⟨⟨view, hview⟩, -⟩ := h.of_lookup hfiles
  have hview := view_eq_ok.mpr hview
  exact ⟨view, view_eq_ok.mp hview⟩

theorem Readable.withAbandoned (hfiles : store.lookup run = some files)
    (hactive : files.active = none) (hlive : files.Live) (hnow : validProfileTime now = true)
    (hle : files.prepared.preparedAt ≤ now) :
    (store.withAbandoned ⟨run, codec.preparedDigest files.prepared, "", now⟩).Readable codec := by
  refine h.rewrite hfiles (fun _ => rfl) (fun view hview =>
    ⟨_, .abandoned hview.preparedReads hactive hlive.1 rfl ?_⟩) fun hnext => nomatch hnext.2
  have hrun : files.prepared.identity.runId = run := lookup_run hfiles
  simp [ProcessFiles.abandonedReads, terminalReads, ProcessFiles.run, hrun, hnow, hle]

theorem Readable.withFinished (hfiles : store.lookup run = some files)
    {active : GovernedProcessActiveRecord} (hactive : files.active = some active)
    (hlive : files.Live) (hnow : validProfileTime now = true)
    (hprepared : files.prepared.preparedAt ≤ now) (hstarted : active.startedAt ≤ now) :
    (store.withFinished ⟨run, codec.preparedDigest files.prepared, codec.activeDigest active,
      now⟩).Readable codec := by
  refine h.rewrite hfiles (fun _ => rfl) (fun view hview =>
    ⟨_, .finished hview.preparedReads hactive ?_ rfl hlive.2 ?_⟩) fun hnext => nomatch hnext.1
  · have hreads : files.activeReads codec active = true := by
      simpa [hactive] using hview.activeReads
    exact hreads
  have hrun : files.prepared.identity.runId = run := lookup_run hfiles
  simp [ProcessFiles.finishedReads, terminalReads, ProcessFiles.run, hrun, hnow,
    hprepared, hstarted]

theorem Readable.withActive (hfiles : store.lookup run = some files)
    (hlive : files.Live) (hlock : files.lock = true)
    (hvalid : validGovernedProcessObservation observation = true)
    (hexact : observation.pid ≤ maxSafeJSONInteger) (hnow : validProfileTime now = true)
    (hle : files.prepared.preparedAt ≤ now) :
    (store.withActive
      ⟨run, codec.preparedDigest files.prepared, observation, now⟩).Readable codec := by
  refine h.rewrite hfiles (fun _ => rfl) (fun view hview =>
    ⟨_, .live hview.preparedReads ?_ hlive.1 hlive.2⟩) fun _ => hlock
  have hrun : files.prepared.identity.runId = run := lookup_run hfiles
  simp [activeReads, ProcessFiles.run, hrun, hvalid, hexact, hnow, hle]

end

/-! ## The operations -/

/-- The terminal record of the process of `run` is written at `now`. -/
inductive Ends (codec : ProcessCodec) (run : String) (now : Instant)
    (store : GovernedProcessStore) : GovernedProcessStore → Prop
  | abandoned {files : ProcessFiles} (hfiles : store.lookup run = some files)
      (hactive : files.active = none) (hlive : files.Live) :
      Ends codec run now store (store.abandoned run (codec.preparedDigest files.prepared) now)
  | finished {files : ProcessFiles} {active : GovernedProcessActiveRecord}
      (hfiles : store.lookup run = some files) (hactive : files.active = some active)
      (hlive : files.Live) :
      Ends codec run now store (store.withFinished ⟨run, codec.preparedDigest files.prepared,
        codec.activeDigest active, now⟩)

section

variable (h : Ends codec run now store next)
include h

theorem Ends.edits :
    ∃ f : ProcessFiles → ProcessFiles, (∀ files, (f files).prepared = files.prepared) ∧
      (∀ files, ¬ (f files).Live) ∧ next = store.edit run f := by
  cases h with
  | abandoned =>
    refine ⟨_, ?_, ?_, by rfl⟩
    · exact fun _ => rfl
    · exact fun _ hlive => nomatch hlive.2
  | finished =>
    refine ⟨_, ?_, ?_, by rfl⟩
    · exact fun _ => rfl
    · exact fun _ hlive => nomatch hlive.1

theorem Ends.over (hfiles : next.lookup run = some files) : ¬ files.Live := by
  obtain ⟨f, hf, hover, rfl⟩ := h.edits
  rw [lookup_edit fun files => by rw [ProcessFiles.run, hf]; rfl] at hfiles
  obtain ⟨old, hold, rfl⟩ := Option.map_eq_some_iff.mp hfiles
  rw [if_pos (lookup_run hold)]
  exact hover old

theorem Ends.readable (hstore : store.Readable codec) (htime : timely now (store.last run) = true) :
    next.Readable codec := by
  cases h with
  | abandoned hfiles hactive hlive =>
    obtain ⟨⟨view, hview⟩, -⟩ := hstore.of_lookup hfiles
    rw [last, hfiles] at htime
    obtain ⟨hnow, hle, -⟩ := timely_live hlive hview.activeReads htime
    exact hstore.withAbandoned hfiles hactive hlive hnow hle
  | finished hfiles hactive hlive =>
    obtain ⟨⟨view, hview⟩, -⟩ := hstore.of_lookup hfiles
    rw [last, hfiles] at htime
    obtain ⟨hnow, hprepared, hstarted⟩ :=
      timely_live hlive hview.activeReads htime
    exact hstore.withFinished hfiles hactive hlive hnow hprepared (hstarted _ hactive)

end

/-- All that the closing of a process can do: its terminal record is written, and then
its lock removed. -/
inductive Closing (codec : ProcessCodec) (run : String) (now : Instant)
    (store : GovernedProcessStore) : GovernedProcessStore → Prop
  | same : Closing codec run now store store
  | ended {next : GovernedProcessStore} (h : Ends codec run now store next) :
      Closing codec run now store next
  | released {next : GovernedProcessStore} (h : Ends codec run now store next) :
      Closing codec run now store (next.withoutLock run)
  | unlocked (hover : ∀ files, store.lookup run = some files → ¬ files.Live) :
      Closing codec run now store (store.withoutLock run)

section

variable (h : Closing codec run now store next)
include h

theorem Closing.readable (hstore : store.Readable codec)
    (htime : timely now (store.last run) = true) : next.Readable codec := by
  cases h with
  | same => exact hstore
  | ended h => exact h.readable hstore htime
  | released h => exact (h.readable hstore htime).withoutLock fun _ => h.over
  | unlocked hover => exact hstore.withoutLock hover

/-- Whatever no edit of this Run's files changes is as it was. -/
theorem Closing.keeps {α : Type}
    (g : GovernedProcessStore → α) (hg : ∀ (store : GovernedProcessStore)
      (f : ProcessFiles → ProcessFiles), (∀ files, (f files).prepared = files.prepared) →
      g (store.edit run f) = g store) : g next = g store := by
  have hends : ∀ {next}, Ends codec run now store next → g next = g store := by
    intro next h
    obtain ⟨f, hf, -, rfl⟩ := h.edits
    exact hg store f hf
  cases h with
  | same => rfl
  | ended h => exact hends h
  | released h => exact (hg _ _ (by exact fun _ => rfl)).trans (hends h)
  | unlocked => exact hg _ _ (by exact fun _ => rfl)

theorem Closing.leases_eq : next.leases = store.leases :=
  h.keeps leases fun _ _ _ => rfl

theorem Closing.pending_eq : next.pending = store.pending :=
  h.keeps pending fun _ _ _ => rfl

end

theorem removeLock_closing (hover : ∀ files, store.lookup run = some files → ¬ files.Live) :
    Closing codec run now store (store.removeLock run answer).2 := by
  unfold removeLock
  split
  · exact .same
  split
  · exact .unlocked hover
  · exact .same

theorem closed_closing (h : Ends codec run now store next) :
    Closing codec run now store (store.closed next run answer).2 := by
  unfold closed
  cases answer.write with
  | ok =>
    dsimp only [put, removeLock]
    split
    · exact .ended h
    split
    · exact .released h
    · exact .ended h
  | failsBefore => exact .same
  | failsAfter => exact .ended h

theorem closePrepared_closing (hfiles : store.lookup run = some files)
    (hreads : files.Reads codec store.owner view) (hactive : view.active = none)
    (hterminal : view.terminal = none) :
    Closing codec run now store (store.closePrepared run view.preparedDigest now answer).2 := by
  rw [hreads.preparedDigest]
  exact closed_closing (.abandoned hfiles (hreads.active.symm.trans hactive)
    (hreads.live_iff.mp hterminal))

theorem finishActive_closing (hfiles : store.lookup run = some files)
    (hreads : files.Reads codec store.owner view) (hactive : view.active ≠ none)
    (hterminal : view.terminal = none) :
    Closing codec run now store (store.finishActive view now answer).2 := by
  obtain ⟨active, hactive⟩ := Option.ne_none_iff_exists'.mp hactive
  have hrun : view.prepared.identity.runId = run := by
    rw [hreads.prepared]
    exact lookup_run hfiles
  have hactive : files.active = some active := hreads.active.symm.trans hactive
  have hdigest : view.activeDigest = codec.activeDigest active := by
    rw [hreads.activeDigest, hactive]
    rfl
  rw [finishActive, hrun, hdigest, hreads.preparedDigest]
  exact closed_closing (.finished hfiles hactive (hreads.live_iff.mp hterminal))

theorem finishObserved_closing : Closing codec lease.identity.runId now store
    (store.finishObserved codec lease observation now answer).2 := by
  unfold finishObserved
  split
  · exact .same
  rename_i view hview
  obtain ⟨files, hfiles, hreads⟩ := get_ok hview
  split
  · exact .same
  split
  · exact .same
  rename_i hterminal
  split
  · rename_i hactive
    exact closePrepared_closing hfiles hreads hactive (Decidable.not_not.mp hterminal)
  · split
    · exact .same
    · exact .same

theorem finishObserved_waits
    (h : store.finishObserved codec lease observation now answer = (.ok true, next)) :
    store = next := by
  unfold finishObserved at h
  split at h
  · cases h
  split at h
  · cases h
  split at h
  · cases h
  split at h
  · dsimp only at h
    cases hresult : (store.closePrepared lease.identity.runId _ now answer).1 with
    | error e => rw [hresult] at h; cases h
    | ok u => rw [hresult] at h; cases h
  · split at h
    · cases h
    · cases h
      rfl

theorem finishClosed_closing : Closing codec lease.identity.runId now store
    (store.finishClosed codec lease observation now answer).2 := by
  unfold finishClosed
  split
  · exact .same
  rename_i view hview
  obtain ⟨files, hfiles, hreads⟩ := get_ok hview
  split
  · exact .same
  rename_i hmatch
  obtain ⟨-, hobservation⟩ := not_or.mp hmatch
  split
  · exact .same
  rename_i hterminal
  have hactive : view.active ≠ none := by
    intro hnone
    rw [hnone] at hobservation
    exact hobservation (fun h => nomatch h)
  exact finishActive_closing hfiles hreads hactive (Decidable.not_not.mp hterminal)

theorem finishLease_closing : Closing codec lease.identity.runId now store
    (store.finishLease codec lease observation now answer).2 := by
  have hfirst := @finishObserved_closing codec store answer lease now observation
  unfold finishLease
  cases houtcome : store.finishObserved codec lease observation now answer with
  | mk result next =>
    rw [houtcome] at hfirst
    cases result with
    | error e => exact hfirst
    | ok waits =>
      cases waits with
      | false => exact hfirst
      | true =>
        -- a process that must be waited for has not been touched yet
        obtain rfl : store = next := finishObserved_waits houtcome
        dsimp only
        split
        · exact hfirst
        · exact finishClosed_closing

theorem abandonLease_closing : Closing codec lease.identity.runId now store
    (store.abandonLease codec lease now answer).2 := by
  unfold abandonLease
  split
  · exact .same
  rename_i view hview
  obtain ⟨files, hfiles, hreads⟩ := get_ok hview
  split
  · exact .same
  rename_i hmatch
  obtain ⟨-, hactive⟩ := not_or.mp hmatch
  split
  · rename_i hterminal
    refine removeLock_closing fun files' hfiles' => ?_
    obtain rfl := Option.mem_unique hfiles hfiles'
    exact fun hlive => hterminal (hreads.live_iff.mpr hlive)
  · rename_i hterminal
    exact closePrepared_closing hfiles hreads (Decidable.not_not.mp hactive)
      (Decidable.not_not.mp hterminal)

theorem fenceClosed_closing : Closing codec identity.runId now store
    (store.fenceClosed codec identity seen now answer).2 := by
  unfold fenceClosed
  split
  · exact .same
  rename_i current hcurrent
  obtain ⟨files, hfiles, hreads⟩ := get_ok hcurrent
  split
  · exact .same
  split
  · rename_i hactive
    split
    · exact .same
    · rename_i hterminal
      exact closePrepared_closing hfiles hreads hactive (Decidable.not_not.mp hterminal)
  · rename_i active hactive
    split
    · exact .same
    · rename_i hterminal
      have hsome : current.active ≠ none := hactive ▸ Option.some_ne_none active
      exact finishActive_closing hfiles hreads hsome (Decidable.not_not.mp hterminal)

theorem fenceIdentity_closing : Closing codec identity.runId now store
    (store.fenceIdentity codec identity now answer).2 := by
  unfold fenceIdentity
  split
  · exact .same
  · exact .same
  split
  · exact .same
  · exact fenceClosed_closing

theorem fenceAndWait_closing {admission : RuntimeAdmissionView} :
    Closing codec admission.spec.runId now store
      (store.fenceAndWait codec admission now answer).2 := by
  unfold fenceAndWait
  split
  · exact .same
  rename_i identity hidentity
  have hrun : identity.runId = admission.spec.runId := by
    unfold fencedIdentity at hidentity
    split at hidentity
    · cases hidentity
      rfl
    · cases hidentity
  exact hrun ▸ fenceIdentity_closing

/-! ## Preparing -/

/-- The record that `PrepareProcess` writes. -/
def preparation (codec : ProcessCodec) (store : GovernedProcessStore)
    (identity : GovernedProcessIdentity) (now : Instant) : GovernedProcessPreparedRecord :=
  ⟨store.owner, identity, codec.lockDigest identity, now⟩

/-- There is nothing of this Run yet, and room for it. -/
structure Admits (store : GovernedProcessStore) (identity : GovernedProcessIdentity) : Prop where
  valid : validGovernedProcessIdentity identity = true
  new : store.lookup identity.runId = none
  room : store.runs.length < maxRuntimeAdmissions

theorem preparing_record (h : store.preparing codec identity now = .ok record) :
    record = preparation codec store identity now ∧ store.Admits identity := by
  unfold preparing at h
  split at h
  · cases h
  rename_i hvalid
  split at h
  · cases h
  · rename_i hget
    split at h
    · cases h
    rename_i views hviews
    split at h
    · cases h
    rename_i hroom
    cases h
    refine ⟨rfl, Decidable.not_not.mp hvalid, get_error_notExist hget, ?_⟩
    rw [(mapM_eq_ok.mp (list_ok hviews)).length_eq]
    exact Nat.not_le.mp hroom
  · cases h

/-- All that `PrepareProcess` can do. -/
inductive Prepares (codec : ProcessCodec) (identity : GovernedProcessIdentity) (now : Instant)
    (store : GovernedProcessStore) : GovernedProcessStore → Prop
  | same : Prepares codec identity now store store
  | prepared (h : store.Admits identity) : Prepares codec identity now store
      (store.withPrepared (preparation codec store identity now) false)
  | leased (h : store.Admits identity) : Prepares codec identity now store
      { store.withPrepared (preparation codec store identity now) true with
        leases := store.leases ++
          [⟨identity, codec.preparedDigest (preparation codec store identity now), true, false⟩] }
  | closed (h : store.Admits identity) : Prepares codec identity now store
      ((store.withPrepared (preparation codec store identity now) false).abandoned identity.runId
        (codec.preparedDigest (preparation codec store identity now)) now)

theorem prepareProcess_prepares :
    Prepares codec identity now store (store.prepareProcess codec identity now answer).2 := by
  unfold prepareProcess
  split
  · exact .same
  rename_i record hrecord
  obtain ⟨rfl, hadmits⟩ := preparing_record hrecord
  split
  · exact .same
  · exact .prepared hadmits
  split
  · exact .leased hadmits
  dsimp only
  rcases put_state answer.closing (store.withPrepared _ false) _ _ with heq | heq <;> rw [heq]
  · exact .prepared hadmits
  · exact .closed hadmits

theorem Prepares.pending_eq (h : Prepares codec identity now store next) :
    next.pending = store.pending := by
  cases h <;> rfl

theorem lookup_withPrepared (hnew : store.lookup record.identity.runId = none) (lock : Bool) :
    (store.withPrepared record lock).lookup record.identity.runId =
      some ⟨record, none, none, none, lock⟩ :=
  Table.lookup_append_self rfl hnew

/-- The lease that comes with a preparation is of the process just prepared. -/
theorem leased_withPrepared (h : store.Admits identity)
    (hleases : ∀ lease ∈ store.leases, ∃ files, store.lookup lease.identity.runId = some files ∧
      (files.Live → files.lock = true)) {preparedDigest : String} :
    ∀ lease ∈ store.leases ++ [⟨identity, preparedDigest, true, false⟩],
      ∃ files, (store.withPrepared (preparation codec store identity now) true).lookup
        lease.identity.runId = some files ∧ (files.Live → files.lock = true) := by
  intro lease hlease
  rcases List.mem_append.mp hlease with hlease | hlease
  · obtain ⟨files, hfiles, hlive⟩ := hleases lease hlease
    exact ⟨files, Table.lookup_append_of_some hfiles, hlive⟩
  obtain rfl := List.mem_singleton.mp hlease
  have hfound : (store.withPrepared (preparation codec store identity now) true).lookup
      identity.runId = some _ := lookup_withPrepared h.new true
  exact ⟨_, hfound, fun _ => rfl⟩

theorem Prepares.readable (h : Prepares codec identity now store next)
    (hstore : store.Readable codec)
    (htime : store.lookup identity.runId = none → validProfileTime now = true) :
    next.Readable codec := by
  have hnext : store.Admits identity → ∀ lock,
      (store.withPrepared (preparation codec store identity now) lock).Readable codec :=
    fun hadmits lock => hstore.withPrepared hadmits.new hadmits.room (by
      simp [preparedReads, preparation, hadmits.valid, htime hadmits.new])
  cases h with
  | same => exact hstore
  | prepared h => exact hnext h false
  | leased h => exact { hnext h true with leased := leased_withPrepared h hstore.leased }
  | closed h =>
    exact (hnext h false).withAbandoned (lookup_withPrepared h.new false) rfl ⟨rfl, rfl⟩
      (htime h.new) (Int.le_refl now)

/-! ## The lease -/

theorem owns_iff : owns lease view = true ↔
    view.prepared.identity = lease.identity ∧ view.preparedDigest = lease.preparedDigest := by
  rw [owns, Bool.and_eq_true, beq_iff_eq, beq_iff_eq]

theorem startingLease_record {record : GovernedProcessActiveRecord}
    (h : store.startingLease codec lease observation now = .ok record) :
    ∃ files, store.lookup lease.identity.runId = some files ∧ files.Live ∧
      validGovernedProcessObservation observation = true ∧
      record = ⟨lease.identity.runId, codec.preparedDigest files.prepared, observation, now⟩ := by
  unfold startingLease at h
  split at h
  · cases h
  rename_i hvalid
  split at h
  · cases h
  rename_i view hview
  split at h
  · cases h
  rename_i hmatch
  obtain ⟨howns, -, hterminal⟩ : _ ∧ _ ∧ _ := by
    simpa only [not_or, Decidable.not_not] using hmatch
  cases h
  obtain ⟨files, hfiles, hreads⟩ := get_ok hview
  refine ⟨files, hfiles, hreads.live_iff.mp hterminal, Decidable.not_not.mp hvalid, ?_⟩
  rw [← (owns_iff.mp howns).2, hreads.preparedDigest]

/-- All that `startLease` can do. -/
inductive Starts (codec : ProcessCodec) (observation : GovernedProcessObservation) (now : Instant)
    (store : GovernedProcessStore) (lease : Lease) : GovernedProcessStore → Prop
  | same : Starts codec observation now store lease store
  | active {files : ProcessFiles} (hfiles : store.lookup lease.identity.runId = some files)
      (hlive : files.Live) (hvalid : validGovernedProcessObservation observation = true) :
      Starts codec observation now store lease (store.withActive
        ⟨lease.identity.runId, codec.preparedDigest files.prepared, observation, now⟩)

/-- The lease `n` is replaced by one of the same process, after `P` was done for it. -/
inductive OnLease (P : Lease → GovernedProcessStore → Prop) (n : Nat)
    (store : GovernedProcessStore) : GovernedProcessStore → Prop
  | same : OnLease P n store store
  | changed {lease lease' : Lease} {next : GovernedProcessStore}
      (hlease : store.leases[n]? = some lease) (hidentity : lease'.identity = lease.identity)
      (h : P lease next) : OnLease P n store (next.withLease n lease')

theorem started_onLease {io : Io} : OnLease (Starts codec observation now store) n store
    (store.started codec n observation now io).2 := by
  unfold started
  split
  · exact .same
  rename_i lease hlease
  split
  · exact .same
  refine .changed hlease (by rfl) ?_
  unfold startLease
  split
  · exact .same
  rename_i record hrecord
  obtain ⟨files, hfiles, hlive, hvalid, rfl⟩ := startingLease_record hrecord
  rcases put_state io store _ _ with heq | heq <;> rw [heq]
  · exact .same
  · exact .active hfiles hlive hvalid

theorem finished_onLease :
    OnLease (fun lease => Closing codec lease.identity.runId now store) n store
      (store.finished codec n observation now answer).2 := by
  unfold finished
  split
  · exact .same
  rename_i hlease
  split
  · exact .same
  · exact .changed hlease (by rfl) finishLease_closing

theorem abandon_onLease :
    OnLease (fun lease => Closing codec lease.identity.runId now store) n store
      (store.abandon codec n now answer).2 := by
  unfold abandon
  split
  · exact .same
  rename_i hlease
  split
  · exact .same
  · exact .changed hlease (by rfl) abandonLease_closing

variable {P : Lease → GovernedProcessStore → Prop} {answers : String → ProcessAnswer}

theorem OnLease.pending_eq (h : OnLease P n store next)
    (hP : ∀ lease next, P lease next → next.pending = store.pending) :
    next.pending = store.pending := by
  cases h with
  | same => rfl
  | @changed lease _ next _ _ h => exact hP lease next h

theorem OnLease.readable (h : OnLease P n store next) (hstore : store.Readable codec)
    (hP : ∀ lease next, store.leases[n]? = some lease → P lease next →
      next.Readable codec ∧ next.leases = store.leases) : next.Readable codec := by
  cases h with
  | same => exact hstore
  | changed hlease hidentity h =>
    obtain ⟨hnext, hleases⟩ := hP _ _ hlease h
    rw [← hleases] at hlease
    exact hnext.withLease hlease hidentity

section

variable (h : Starts codec observation now store lease next)
include h

theorem Starts.leases_eq : next.leases = store.leases := by
  cases h <;> rfl

theorem Starts.pending_eq : next.pending = store.pending := by
  cases h <;> rfl

theorem Starts.readable (hstore : store.Readable codec) (hlease : lease ∈ store.leases)
    (hexact : observation.pid ≤ maxSafeJSONInteger)
    (htime : timely now (store.last lease.identity.runId) = true) : next.Readable codec := by
  cases h with
  | same => exact hstore
  | active hfiles hlive hvalid =>
    obtain ⟨⟨view, hview⟩, -⟩ := hstore.of_lookup hfiles
    rw [last, hfiles] at htime
    obtain ⟨hnow, hle, -⟩ := timely_live hlive hview.activeReads htime
    obtain ⟨files', hfiles', hlock⟩ := hstore.leased lease hlease
    obtain rfl := Option.mem_unique hfiles hfiles'
    exact hstore.withActive hfiles hlive (hlock hlive) hvalid hexact hnow hle

end

/-! ## Fencing everything -/

theorem removeLock_ok (hanswer : answer.Cooperates) : (store.removeLock run answer).1 = .ok () := by
  unfold removeLock
  split
  · rfl
  · rw [if_pos hanswer.removed]

theorem closed_ok (hanswer : answer.Cooperates) : (store.closed next run answer).1 = .ok () := by
  rw [closed, hanswer.write]
  exact removeLock_ok hanswer

theorem fenceObserved_eq (h : store.Readable codec)
    (hfiles : store.lookup identity.runId = some files)
    (hidentity : files.prepared.identity = identity) :
    ∃ view, files.Reads codec store.owner view ∧ store.fenceObserved codec identity =
      .ok (if view.terminal ≠ none then none else some view) := by
  obtain ⟨⟨view, hreads⟩, -⟩ := h.of_lookup hfiles
  have hvalid : validGovernedProcessIdentity identity = true := by
    have hprepared := hreads.preparedReads
    simp only [preparedReads, Bool.and_eq_true] at hprepared
    exact hidentity ▸ hprepared.1.1.2
  have hmatch : view.prepared.identity = identity := hreads.prepared.symm ▸ hidentity
  refine ⟨view, hreads, ?_⟩
  rw [fenceObserved, if_neg (not_not.mpr hvalid), get_of_lookup hfiles hreads]
  dsimp only
  rw [if_neg (not_not.mpr hmatch)]
  split <;> rfl

theorem waitProcessLock_ok (h : store.Readable codec) (hfiles : store.lookup run = some files)
    (hreads : files.Reads codec store.owner view) (hterminal : view.terminal = none)
    (hanswer : answer.Cooperates) :
    store.waitProcessLock run view.active.isSome answer = .ok () := by
  unfold waitProcessLock hasLock
  rw [hfiles, Option.any_some, hanswer.released]
  cases hactive : view.active with
  | none => cases files.lock <;> rfl
  | some active =>
    have hsome : files.active ≠ none := by
      rw [← hreads.active, hactive]
      exact Option.some_ne_none active
    rw [(h.of_lookup hfiles).2 hsome (hreads.live_iff.mp hterminal)]
    rfl

/-- What is fenced is closed as it was seen. -/
theorem fenceClosed_eq (hfiles : store.lookup identity.runId = some files)
    (hreads : files.Reads codec store.owner view) (hidentity : files.prepared.identity = identity)
    (hterminal : view.terminal = none) :
    store.fenceClosed codec identity view now answer =
      store.closed (if view.active = none
        then store.abandoned identity.runId view.preparedDigest now
        else store.withFinished ⟨identity.runId, view.preparedDigest, view.activeDigest, now⟩)
        identity.runId answer := by
  have hmatch : view.prepared.identity = identity := hreads.prepared.symm ▸ hidentity
  rw [fenceClosed, get_of_lookup hfiles hreads]
  dsimp only
  rw [if_neg (by simp [hmatch])]
  split
  · rename_i hactive
    rw [if_neg (not_not.mpr hterminal), if_pos hactive, closePrepared]
  · rename_i hactive
    rw [if_neg (not_not.mpr hterminal), finishActive, hmatch, hactive]
    rfl

theorem fenceIdentity_ok (h : store.Readable codec)
    (hfiles : store.lookup identity.runId = some files)
    (hidentity : files.prepared.identity = identity) (hanswer : answer.Cooperates) :
    (store.fenceIdentity codec identity now answer).1 = .ok () := by
  obtain ⟨view, hreads, hobserved⟩ := fenceObserved_eq h hfiles hidentity
  rw [fenceIdentity, hobserved]
  by_cases hterminal : view.terminal = none
  · rw [if_neg (not_not.mpr hterminal)]
    dsimp only
    rw [waitProcessLock_ok h hfiles hreads hterminal hanswer]
    rw [fenceClosed_eq hfiles hreads hidentity hterminal]
    exact closed_ok hanswer
  · rw [if_pos hterminal]

/-- The files of other Runs are as they were. -/
def Frames (run : String) (store next : GovernedProcessStore) : Prop :=
  ∀ other, other ≠ run → next.lookup other = store.lookup other

theorem Closing.frames (h : Closing codec run now store next) : Frames run store next := by
  intro other hne
  refine h.keeps (fun store => store.lookup other) fun store f hf => ?_
  refine Table.lookup_update_ne (fun files => by rw [ProcessFiles.run, hf]; rfl) fun files hfiles => ?_
  rw [hfiles]
  exact hne

theorem fenceIdentities_ok {now : String → Instant}
    (hanswers : ∀ run, (answers run).Cooperates) {identities : List GovernedProcessIdentity}
    (hdistinct : (identities.map GovernedProcessIdentity.runId).Nodup) (h : store.Readable codec)
    (hcurrent : ∀ identity ∈ identities, ∃ files, store.lookup identity.runId = some files ∧
      files.prepared.identity = identity ∧ timely (now identity.runId) files.last = true) :
    (fenceIdentities codec now answers identities store).1 = .ok () := by
  induction identities generalizing store with
  | nil => rfl
  | cons identity rest ih =>
    rw [List.map_cons, List.nodup_cons] at hdistinct
    obtain ⟨files, hfiles, hidentity, htime⟩ := hcurrent identity List.mem_cons_self
    have htime : timely (now identity.runId) (store.last identity.runId) = true := by
      rw [last, hfiles]
      exact htime
    have hok := @fenceIdentity_ok codec store (answers identity.runId) files identity
      (now identity.runId) h hfiles hidentity (hanswers identity.runId)
    have hclosing := @fenceIdentity_closing codec store (answers identity.runId) identity
      (now identity.runId)
    rw [fenceIdentities, ← Prod.mk.eta (p := store.fenceIdentity codec identity _ _), hok]
    refine ih hdistinct.2 (hclosing.readable h htime) fun other hother => ?_
    obtain ⟨files, hfiles, hmatch⟩ := hcurrent other (List.mem_cons_of_mem _ hother)
    have hne : other.runId ≠ identity.runId := fun heq =>
      hdistinct.1 (List.mem_map.mpr ⟨other, hother, heq⟩)
    exact ⟨files, (hclosing.frames _ hne).trans hfiles, hmatch⟩

theorem fenceAll_ok (h : store.Readable codec) (htidy : store.pending ≤ 16) {now : String → Instant}
    (htime : ∀ run, timely (now run) (store.last run) = true)
    (hanswers : ∀ run, (answers run).Cooperates) :
    (store.fenceAll codec now answers).1 = .ok () := by
  obtain ⟨views, hviews⟩ := h.list htidy
  have hread := list_ok hviews
  rw [fenceAll, hviews]
  refine fenceIdentities_ok hanswers ?_ h fun identity hidentity => ?_
  · have hruns : views.map (fun view => view.prepared.identity.runId) =
        store.runs.map ProcessFiles.run :=
      map_eq_of_mapM (fun files view hview => by
        rw [(view_eq_ok.mp hview).prepared, ProcessFiles.run]) hread
    have hall : (views.map fun view => view.prepared.identity.runId).Nodup := hruns ▸ h.distinct
    rw [List.map_map]
    exact hall.sublist (List.filter_sublist.map _)
  · obtain ⟨view, hview, rfl⟩ := List.mem_map.mp hidentity
    obtain ⟨files, hfiles, hfound⟩ :=
      exists_of_mem_mapM hread (List.mem_of_mem_filter hview)
    have hprepared := (view_eq_ok.mp hfound).prepared
    have hlookup := Table.lookup_of_mem h.distinct hfiles
    have hlast := htime files.run
    rw [last, show store.lookup files.run = some files from hlookup] at hlast
    rw [hprepared]
    exact ⟨files, hlookup, rfl, hlast⟩

end GovernedProcessStore

end ConveneWire.Admission
