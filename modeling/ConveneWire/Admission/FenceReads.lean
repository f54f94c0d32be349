import Mathlib.Algebra.Order.BigOperators.Group.List
import ConveneWire.Admission.RuntimeFence

/-! # What the Runtime fence can read back

Every read of the store goes through `view`, and a listing needs it for every Run.
A store is readable if all its files pass; the operations keep it so when the time
of a new record is one that its reader will take. -/

namespace ConveneWire.Admission

open Bridge (Io isContractRunID)
open Transactional (mapM_eq_ok exists_mapM_ok exists_of_mem_mapM map_eq_of_mapM)

theorem put_state {σ α : Type} (io : Io) (s next : σ) (after : Except AdmissionError α) :
    (put io s next after).2 = s ∨ (put io s next after).2 = next := by
  cases io with
  | ok => exact .inr rfl
  | failsBefore => exact .inl rfl
  | failsAfter => exact .inr rfl

theorem put_ok {σ α : Type} {io : Io} {s next : σ} {after : Except AdmissionError α} {a : α}
    (h : (put io s next after).1 = .ok a) : io = .ok ∧ after = .ok a := by
  cases io with
  | ok => exact ⟨rfl, h⟩
  | failsBefore => cases h
  | failsAfter => cases h

/-- A reading that a record may carry after one of the time `last`; without a `last`
nothing is written. -/
def timely (now : Instant) (last : Option Instant) : Bool :=
  last.all fun t => validProfileTime now && decide (t ≤ now)

variable {now : Instant} {startDigest : String}

theorem timely_some {t : Instant} (h : timely now (some t) = true) :
    validProfileTime now = true ∧ t ≤ now := by
  simpa [timely] using h

theorem runId_of_validSpec {spec : RuntimeAdmissionSpec}
    (h : validRuntimeAdmissionSpec spec = true) : isContractRunID spec.runId = true := by
  simp only [validRuntimeAdmissionSpec, Bool.and_assoc, Bool.and_eq_true] at h
  exact h.1

namespace AdmissionFiles

/-- The files of a Run pass, and the view shows this much of them. -/
inductive Reads (codec : Codec) (owner : Owner) (files : AdmissionFiles) :
    RuntimeAdmissionView → Prop
  | claimed (hclaim : files.claimReads owner = true) (hstarting : files.starting = none)
      (hstopped : files.stopped = none) : Reads codec owner files (files.claimedView codec)
  | starting {start : RuntimeStartRecord} (hclaim : files.claimReads owner = true)
      (hstarting : files.starting = some start) (hstopped : files.stopped = none)
      (hstart : files.startReads codec start = true) :
      Reads codec owner files (files.startingView codec start)
  | stopped {start : RuntimeStartRecord} {stop : RuntimeStopRecord}
      (hclaim : files.claimReads owner = true) (hstarting : files.starting = some start)
      (hstopped : files.stopped = some stop) (hstart : files.startReads codec start = true)
      (hstop : files.stopReads codec start stop = true) :
      Reads codec owner files (files.stoppedView codec start stop)

/-- The last time on record of an admission that is not over. -/
def last (files : AdmissionFiles) : Option Instant :=
  match files.starting, files.stopped with
  | none, none => some files.claimed.claimedAt
  | some start, none => some start.authorityCheckedAt
  | _, some _ => none

variable {codec : Codec} {owner : Owner} {files : AdmissionFiles} {view : RuntimeAdmissionView}

theorem view_eq_ok : files.view codec owner = .ok view ↔ files.Reads codec owner view := by
  refine ⟨fun h => ?_, fun h => ?_⟩
  · unfold AdmissionFiles.view at h
    split at h
    · cases h
    rename_i hclaim
    have hclaim : files.claimReads owner = true := Decidable.not_not.mp hclaim
    split at h
    · rename_i hstarting hstopped
      cases h
      exact .claimed hclaim hstarting hstopped
    · cases h
    · rename_i start hstarting hstopped
      split at h
      · rename_i hstart
        cases h
        exact .starting hclaim hstarting hstopped hstart
      · cases h
    · rename_i start stop hstarting hstopped
      split at h
      · rename_i hreads
        cases h
        obtain ⟨hstart, hstop⟩ := Bool.and_eq_true_iff.mp hreads
        exact .stopped hclaim hstarting hstopped hstart hstop
      · cases h
  · cases h with
    | claimed hclaim hstarting hstopped =>
      simp [AdmissionFiles.view, hclaim, hstarting, hstopped]
    | starting hclaim hstarting hstopped hstart =>
      simp [AdmissionFiles.view, hclaim, hstarting, hstopped, hstart]
    | stopped hclaim hstarting hstopped hstart hstop =>
      simp [AdmissionFiles.view, hclaim, hstarting, hstopped, hstart, hstop]

namespace Reads

section

variable (h : files.Reads codec owner view)
include h

theorem spec : view.spec = files.claimed.spec := by
  cases h <;> rfl

theorem runId : view.spec.runId = files.run := by
  rw [h.spec, AdmissionFiles.run]

theorem admissionDigest : view.admissionDigest = codec.admissionDigest files.claimed := by
  cases h <;> rfl

theorem claimReads : files.claimReads owner = true := by
  cases h <;> assumption

theorem contractRun : isContractRunID files.run = true := by
  have hclaim := h.claimReads
  simp only [AdmissionFiles.claimReads, Bool.and_eq_true] at hclaim
  exact runId_of_validSpec hclaim.1.2

theorem of_claimed (hstate : view.state = .claimed) :
    files.starting = none ∧ files.stopped = none := by
  cases h with
  | claimed _ hstarting hstopped => exact ⟨hstarting, hstopped⟩
  | starting => cases hstate
  | stopped => cases hstate

theorem of_starting (hstate : view.state = .starting) :
    ∃ start, files.starting = some start ∧ files.stopped = none ∧
      files.startReads codec start = true ∧ view.startDigest = some (codec.startDigest start) ∧
      view.authorityCheckedAt = some start.authorityCheckedAt := by
  cases h with
  | claimed => cases hstate
  | starting _ hstarting hstopped hstart => exact ⟨_, hstarting, hstopped, hstart, rfl, rfl⟩
  | stopped => cases hstate

end

end Reads

theorem claimReads_new {spec : RuntimeAdmissionSpec}
    (hvalid : validRuntimeAdmissionSpec spec = true) (hexact : spec.exactIntegers = true)
    (htime : validProfileTime now = true) :
    claimReads owner ⟨⟨owner, spec, now⟩, none, none⟩ = true := by
  simp [claimReads, hvalid, hexact, htime]

theorem startReads_new {run expected : String} (hrun : files.run = run)
    (hexpected : codec.admissionDigest files.claimed = expected)
    (htime : validProfileTime now = true) (hle : files.claimed.claimedAt ≤ now) :
    files.startReads codec ⟨run, expected, now⟩ = true := by
  simp [startReads, hrun, hexpected, htime, hle]

theorem stopReads_new {run expected : String} {start : RuntimeStartRecord}
    {outcome : RuntimeOutcome} (hrun : files.run = run)
    (hexpected : codec.admissionDigest files.claimed = expected)
    (hstart : codec.startDigest start = startDigest) (htime : validProfileTime now = true)
    (hle : start.authorityCheckedAt ≤ now) :
    files.stopReads codec start ⟨run, expected, startDigest, outcome, now⟩ = true := by
  simp [stopReads, hrun, hexpected, hstart, htime, hle]

end AdmissionFiles

open AdmissionFiles (claimReads view_eq_ok count stopReads_new)

namespace RuntimeFenceStore

variable {codec : Codec} {store : RuntimeFenceStore} {run : String} {view : RuntimeAdmissionView}

/-- The last time on record of a Run whose admission is not over. -/
def last (store : RuntimeFenceStore) (run : String) : Option Instant :=
  (store.lookup run).bind AdmissionFiles.last

theorem get_ok (h : store.get codec run = .ok view) :
    ∃ files, store.lookup run = some files ∧ files.Reads codec store.owner view := by
  unfold get at h
  split at h
  · cases h
  split at h
  · cases h
  · rename_i files hfiles
    exact ⟨files, hfiles, view_eq_ok.mp h⟩

variable {expected : String} {files : AdmissionFiles} {now : Instant} {outcome : RuntimeOutcome}
  {seen spec : RuntimeAdmissionSpec} {io : String → Io} {views : List RuntimeAdmissionView}
  {expectedAdmission expectedStart : String} {record : RuntimeStopRecord}

theorem lookup_run (h : store.lookup run = some files) : files.run = run :=
  Table.lookup_key h

theorem get_of_lookup (h : store.lookup run = some files)
    (hreads : files.Reads codec store.owner view) : store.get codec run = .ok view := by
  have hrun : isContractRunID run = true := lookup_run h ▸ hreads.contractRun
  simp [get, h, hrun, view_eq_ok.mpr hreads]

theorem entries_le : store.entries ≤ store.runs.length * 3 + store.pending := by
  have hsum : (store.runs.map count).sum ≤ store.runs.length * 3 := by
    refine (List.sum_le_card_nsmul _ 3 ?_).trans (by simp)
    intro n hn
    obtain ⟨files, -, rfl⟩ := List.mem_map.mp hn
    rcases files with ⟨claimed, starting, stopped⟩
    cases starting <;> cases stopped <;> simp [count]
  exact Nat.add_le_add_right hsum _

theorem list_ok (h : store.list codec = .ok views) :
    ∃ read, store.runs.mapM (AdmissionFiles.view codec store.owner) = .ok read ∧
      views.Perm read := by
  unfold list at h
  split at h
  · cases h
  split at h
  · cases h
  rename_i read hread
  split at h
  · cases h
  · cases h
    exact ⟨read, hread, List.mergeSort_perm ..⟩

theorem claiming_record {record : RuntimeAdmissionRecord}
    (h : store.claiming codec spec now = .ok (.inr record)) :
    record = ⟨store.owner, spec, now⟩ ∧ validRuntimeAdmissionSpec spec = true ∧
      store.lookup spec.runId = none ∧ store.runs.length < maxRuntimeAdmissions := by
  unfold claiming at h
  split at h
  · cases h
  rename_i hvalid
  obtain ⟨hvalid, -⟩ := not_or.mp hvalid
  split at h
  · cases h
  split at h
  · split at h
    · cases h
    · cases h
  · rename_i hget
    split at h
    · cases h
    split at h
    · cases h
    rename_i views hviews
    split at h
    · cases h
    rename_i hroom
    split at h
    · cases h
    cases h
    refine ⟨rfl, Decidable.not_not.mp hvalid, ?_, ?_⟩
    · unfold RuntimeFenceStore.get at hget
      split at hget
      · cases hget
      split at hget
      · assumption
      rename_i files hfiles
      unfold AdmissionFiles.view at hget
      split at hget
      · cases hget
      · split at hget <;> (try split at hget) <;> cases hget
    · obtain ⟨read, hread, hperm⟩ := list_ok hviews
      have hlength := not_or.mp hroom |>.1
      rw [hperm.length_eq, ← (mapM_eq_ok.mp hread).length_eq] at hlength
      exact Nat.not_le.mp hlength
  · cases h

theorem starting_record {record : RuntimeStartRecord}
    (h : store.starting codec run expected seen now = .ok (.inr record)) :
    ∃ files, store.lookup run = some files ∧ files.claimReads store.owner = true ∧
      files.starting = none ∧ files.stopped = none ∧
      codec.admissionDigest files.claimed = expected ∧ files.claimed.spec = seen ∧
      record = ⟨run, expected, now⟩ := by
  unfold starting at h
  split at h
  · cases h
  rename_i current hcurrent
  obtain ⟨files, hfiles, hreads⟩ := get_ok hcurrent
  split at h
  · cases h
  rename_i hmatch
  obtain ⟨hdigest, hseen⟩ := not_or.mp hmatch
  split at h
  · cases h
  rename_i hstate
  split at h
  · cases h
  cases h
  obtain ⟨hstarting, hstopped⟩ := hreads.of_claimed (Decidable.not_not.mp hstate)
  refine ⟨files, hfiles, hreads.claimReads, hstarting, hstopped, ?_, ?_, rfl⟩
  · rw [← hreads.admissionDigest]
    exact Decidable.not_not.mp hdigest
  · rw [← hreads.spec]
    exact Decidable.not_not.mp hseen

theorem stopping_record
    (h : store.stopping codec run expectedAdmission expectedStart outcome now = .ok (.inr record)) :
    ∃ view started, store.get codec run = .ok view ∧ view.admissionDigest = expectedAdmission ∧
      view.startDigest = some expectedStart ∧ view.state = .starting ∧
      view.authorityCheckedAt = some started ∧ started ≤ now ∧
      record = ⟨run, expectedAdmission, expectedStart, outcome, now⟩ := by
  unfold stopping at h
  split at h
  · cases h
  split at h
  · cases h
  rename_i view hview
  split at h
  · cases h
  rename_i hmatch
  obtain ⟨hadmission, hstart⟩ := not_or.mp hmatch
  split at h
  · split at h
    · cases h
    · cases h
  split at h
  · cases h
  rename_i hready
  cases h
  obtain ⟨hstate, hle⟩ := not_or.mp hready
  have hstate : view.state = .starting := Decidable.not_not.mp hstate
  obtain ⟨files, -, hreads⟩ := get_ok hview
  obtain ⟨start, -, -, -, -, hchecked⟩ := hreads.of_starting hstate
  rw [hchecked] at hle
  exact ⟨view, _, hview, Decidable.not_not.mp hadmission, Decidable.not_not.mp hstart, hstate,
    hchecked, Int.not_lt.mp hle, rfl⟩

/-- The directory can be listed. -/
structure Listable (codec : Codec) (store : RuntimeFenceStore) : Prop where
  reads : ∀ files ∈ store.runs, ∃ view, files.Reads codec store.owner view
  bounded : store.runs.length ≤ maxRuntimeAdmissions
  entries : store.entries ≤ maxRuntimeAdmissions * 3 + 16

theorem Listable.list (h : store.Listable codec) : ∃ views, store.list codec = .ok views := by
  obtain ⟨read, hread⟩ : ∃ read, store.runs.mapM (AdmissionFiles.view codec store.owner) = .ok read :=
    exists_mapM_ok fun files hfiles =>
      (h.reads files hfiles).imp fun _ hview => view_eq_ok.mpr hview
  have hlength : ¬ maxRuntimeAdmissions < read.length := by
    rw [← (mapM_eq_ok.mp hread).length_eq]
    exact Nat.not_lt.mpr h.bounded
  rw [RuntimeFenceStore.list, if_neg (Nat.not_lt.mpr h.entries), hread]
  exact ⟨_, if_neg hlength⟩

/-- Every file of the store passes its reader, and there are no more than a listing takes. -/
structure Readable (codec : Codec) (store : RuntimeFenceStore) : Prop where
  distinct : (store.runs.map AdmissionFiles.run).Nodup
  reads : ∀ files ∈ store.runs, ∃ view, files.Reads codec store.owner view
  bounded : store.runs.length ≤ maxRuntimeAdmissions

section

variable (h : store.Readable codec)
include h

theorem Readable.get (hfiles : files ∈ store.runs) :
    ∃ view, store.get codec files.run = .ok view := by
  obtain ⟨view, hview⟩ := h.reads files hfiles
  exact ⟨view, get_of_lookup (Table.lookup_of_mem h.distinct hfiles) hview⟩

/-- The temporary files that stopped processes left behind do not fill a listing. -/
theorem Readable.list (htidy : store.pending ≤ 16) : ∃ views, store.list codec = .ok views := by
  have hle := store.entries_le
  have hbounded := h.bounded
  exact Listable.list ⟨h.reads, hbounded, by omega⟩

/-! ## Writing -/

theorem Readable.withClaim (hnew : store.lookup spec.runId = none)
    (hroom : store.runs.length < maxRuntimeAdmissions)
    (hclaim : claimReads store.owner ⟨⟨store.owner, spec, now⟩, none, none⟩ = true) :
    (store.withClaim ⟨store.owner, spec, now⟩).Readable codec where
  distinct := Table.nodup_append h.distinct hnew
  reads := by
    intro files hfiles
    rcases List.mem_append.mp hfiles with hfiles | hfiles
    · exact h.reads files hfiles
    · obtain rfl := List.mem_singleton.mp hfiles
      exact ⟨_, .claimed hclaim rfl rfl⟩
  bounded := by
    simp only [RuntimeFenceStore.withClaim, List.length_append, List.length_singleton]
    omega

/-- A Run's files rewritten, with the claim as it was. -/
theorem Readable.rewritten {f : AdmissionFiles → AdmissionFiles}
    (hf : ∀ files, (f files).run = files.run) (hreads : ∀ files, store.lookup run = some files →
      ∃ view, (f files).Reads codec store.owner view) :
    Readable codec
      { store with runs := Table.update (fun files => files.run = run) f store.runs } where
  distinct := by
    rw [Table.map_key_update hf]
    exact h.distinct
  reads := Table.forall_update h.distinct h.reads hreads
  bounded := by
    rw [Table.update, List.length_map]
    exact h.bounded

/-- Every record is still read back. Only a process that stops in the middle of a write
leaves a temporary file behind. -/
structure Keeps (codec : Codec) (store next : RuntimeFenceStore) : Prop where
  readable : next.Readable codec
  pending : next.pending = store.pending

theorem Keeps.refl : Keeps codec store store := ⟨h, rfl⟩

theorem Keeps.put {α : Type} {next : RuntimeFenceStore} {io : Io}
    {after : Except AdmissionError α} (hnext : Keeps codec store next) :
    Keeps codec store (put io store next after).2 := by
  rcases put_state io store next after with heq | heq <;> rw [heq]
  · exact .refl h
  · exact hnext

theorem claim_keeps {spec : RuntimeAdmissionSpec} (io : Io)
    (htime : store.lookup spec.runId = none →
      spec.exactIntegers = true ∧ validProfileTime now = true) :
    Keeps codec store (store.claim codec spec now io).2 := by
  unfold claim
  split
  · exact .refl h
  · exact .refl h
  rename_i record hrecord
  obtain ⟨rfl, hvalid, hnew, hroom⟩ := claiming_record hrecord
  obtain ⟨hexact, hnow⟩ := htime hnew
  exact .put h ⟨h.withClaim hnew hroom (AdmissionFiles.claimReads_new hvalid hexact hnow), rfl⟩

theorem startCommitted_keeps (io : Io) (htime : timely now (store.last run) = true) :
    Keeps codec store (store.startCommitted codec run expected seen now io).2 := by
  unfold startCommitted
  split
  · exact .refl h
  · exact .refl h
  rename_i record hrecord
  obtain ⟨files, hfiles, hclaim, hstarting, hstopped, hdigest, -, rfl⟩ := starting_record hrecord
  have hlast : store.last run = some files.claimed.claimedAt := by
    simp [RuntimeFenceStore.last, hfiles, AdmissionFiles.last, hstarting, hstopped]
  obtain ⟨hnow, hle⟩ := timely_some (hlast ▸ htime)
  have hnext : (store.withStart ⟨run, expected, now⟩).Readable codec := by
    refine h.rewritten (fun _ => rfl) fun files' hfiles' => ?_
    obtain rfl : files = files' := Option.mem_unique hfiles hfiles'
    have hrun := lookup_run hfiles
    refine ⟨_, .starting hclaim rfl hstopped ?_⟩
    exact AdmissionFiles.startReads_new hrun hdigest hnow hle
  exact .put h ⟨hnext, rfl⟩

theorem start_keeps {authority : Except AdmissionError Unit}
    {clock : Instant} (io : Io) (htime : timely clock (store.last run) = true) :
    Keeps codec store (store.start codec run expected authority clock io).2 := by
  unfold start
  split
  · exact .refl h
  split
  · exact .refl h
  split
  · exact .refl h
  · exact startCommitted_keeps h io htime

/-- A stop record written for the admission that a view shows as starting. -/
theorem Readable.stopped (hfiles : store.lookup run = some files)
    (hreads : files.Reads codec store.owner view) (hstate : view.state = .starting)
    (hdigest : view.startDigest = some startDigest) {started : Instant}
    (hstarted : view.authorityCheckedAt = some started) (hle : started ≤ now)
    (hnow : validProfileTime now = true) (outcome : RuntimeOutcome) :
    (store.withStop ⟨run, view.admissionDigest, startDigest, outcome, now⟩).Readable codec := by
  obtain ⟨start, hstarting, -, hstart, hview, hchecked⟩ := hreads.of_starting hstate
  obtain rfl : codec.startDigest start = startDigest := Option.mem_unique hview hdigest
  obtain rfl : start.authorityCheckedAt = started := Option.mem_unique hchecked hstarted
  refine h.rewritten (fun _ => rfl) fun files' hfiles' => ?_
  obtain rfl : files = files' := Option.mem_unique hfiles hfiles'
  have hrun := lookup_run hfiles
  refine ⟨_, .stopped hreads.claimReads hstarting rfl hstart ?_⟩
  exact stopReads_new hrun hreads.admissionDigest.symm rfl hnow hle

theorem stop_keeps (io : Io) (hnow : validProfileTime now = true) :
    Keeps codec store (store.stop codec run expectedAdmission expectedStart outcome now io).2 := by
  unfold stop
  split
  · exact .refl h
  · exact .refl h
  rename_i record hrecord
  obtain ⟨view, started, hview, rfl, hdigest, hstate, hstarted, hle, rfl⟩ :=
    stopping_record hrecord
  obtain ⟨files, hfiles, hreads⟩ := get_ok hview
  exact .put h ⟨h.stopped hfiles hreads hstate hdigest hstarted hle hnow outcome, rfl⟩

end

/-! ## Recovery of unknown outcomes -/

/-- The views are what the store shows of Runs that are all distinct. -/
structure Shows (codec : Codec) (views : List RuntimeAdmissionView) (store : RuntimeFenceStore) :
    Prop where
  distinct : (views.map fun view => view.spec.runId).Nodup
  current : ∀ view ∈ views, ∃ files, store.lookup view.spec.runId = some files ∧
    files.Reads codec store.owner view

theorem Shows.tail (h : Shows codec (view :: views) store) : Shows codec views store :=
  ⟨(List.nodup_cons.mp h.distinct).2, fun v hv => h.current v (List.mem_cons_of_mem _ hv)⟩

/-- The stop of the first Run leaves the others as they were shown. -/
theorem Shows.withStop (h : Shows codec (view :: views) store)
    (hrun : record.runId = view.spec.runId) : Shows codec views (store.withStop record) := by
  refine ⟨h.tail.distinct, fun v hv => ?_⟩
  obtain ⟨files, hfiles, hreads⟩ := h.tail.current v hv
  have hne : v.spec.runId ≠ record.runId := by
    intro heq
    exact (List.nodup_cons.mp h.distinct).1 (List.mem_map.mpr ⟨v, hv, heq.trans hrun⟩)
  refine ⟨files, ?_, hreads⟩
  rw [← hfiles]
  refine Table.lookup_update_ne (fun _ => rfl) fun row hrow => ?_
  rw [hrow]
  exact hne

theorem recoverViews_keeps (hnow : validProfileTime now = true)
    (hviews : Shows codec views store) (h : store.Readable codec) :
    Keeps codec store (recoverViews codec now io views store).2 := by
  induction views generalizing store with
  | nil => exact .refl h
  | cons view rest ih =>
    unfold recoverViews
    split
    · rename_i startDigest started hstate hdigest hstarted
      split
      · exact .refl h
      rename_i hle
      obtain ⟨files, hfiles, hreads⟩ := hviews.current view List.mem_cons_self
      have hnext := h.stopped hfiles hreads hstate hdigest hstarted (Int.not_lt.mp hle) hnow
        .outcomeUnknown
      dsimp only
      split
      · rename_i e next hput
        exact congrArg Prod.snd hput ▸ .put h ⟨hnext, rfl⟩
      rename_i closed next hput
      have hok := put_ok (congrArg Prod.fst hput)
      rw [hok.1] at hput
      obtain rfl : store.withStop _ = next := congrArg Prod.snd hput
      obtain ⟨hlast, hpending⟩ := ih (hviews.withStop rfl) hnext
      split
      · rename_i heq
        rw [heq] at hlast hpending
        exact ⟨hlast, hpending⟩
      · rename_i heq
        rw [heq] at hlast hpending
        exact ⟨hlast, hpending⟩
    · exact ih hviews.tail h

theorem shows_of_list (h : store.Readable codec) (hlist : store.list codec = .ok views) :
    Shows codec views store := by
  obtain ⟨read, hread, hperm⟩ := list_ok hlist
  refine ⟨?_, fun view hview => ?_⟩
  · have hruns : read.map (fun view => view.spec.runId) = store.runs.map AdmissionFiles.run :=
      map_eq_of_mapM (fun _ _ hview => (view_eq_ok.mp hview).runId) hread
    rw [(hperm.map _).nodup_iff, hruns]
    exact h.distinct
  · obtain ⟨files, hfiles, hfound⟩ := exists_of_mem_mapM hread (hperm.mem_iff.mp hview)
    have hreads := view_eq_ok.mp hfound
    refine ⟨files, ?_, hreads⟩
    rw [hreads.runId]
    exact Table.lookup_of_mem h.distinct hfiles

theorem recoverUnknown_keeps (h : store.Readable codec) (hnow : validProfileTime now = true) :
    Keeps codec store (store.recoverUnknown codec now io).2 := by
  unfold recoverUnknown
  split
  · exact .refl h
  split
  · exact .refl h
  · rename_i views hviews
    exact recoverViews_keeps hnow (shows_of_list h hviews) h

end RuntimeFenceStore

end ConveneWire.Admission
