import ConveneWire.Governed.AtMostOnce
import ConveneWire.Governed.Settling
import ConveneWire.Admission.Closing

/-! # Recovery after a crash

`RecoverAll` alone on what a crash left, with file operations that succeed, processes
that release their locks and a clock that is not behind the times on record. It
succeeds exactly from the states below; a start that was written before its process
was prepared is not one of them. -/

namespace ConveneWire.Governed

open Bridge (RunSlot Record)
open Admission
open Concurrent (Process Pool)
open RuntimeFenceStore
open GovernedProcessStore (fencedIdentity fenceObserved_eq fenceClosed_closing fenceClosed_over
  Frames waitProcessLock_ok list_ok lookup_run get_ok listable_of_list)
open List (mem_map mem_filter mem_cons_self mem_cons_of_mem mem_cons)

/-! ## What recovery is given and what it needs -/

/-- File operations succeed, locks are released, and the clock is not behind. -/
structure Steady (s : Device) (a : Answer) : Prop where
  inbox : Works a.inbox
  readable : a.readable = true
  io : a.io = .ok
  process : a.process.Cooperates
  now : a.now ≠ 0
  fence : ∀ run, timely a.now (s.fence.last run) = true
  processes : ∀ run, timely a.now (s.processes.last run) = true

/-- The states from which recovery goes through. -/
structure Recoverable (config : Config) (s : Device) : Prop where
  admissions : s.fence.Listable config.codec
  processes : s.processes.Listable config.processCodec
  /-- A start that is not stopped has its process on record. -/
  recorded : ∀ files ∈ s.fence.runs, files.starting ≠ none → files.stopped = none →
    s.processes.lookup files.run ≠ none
  /-- A started Run has left its preparation. -/
  unprepared : ∀ {run r}, (s.slots run).record = some r → r.state = .preparing →
    ¬ HasStarted s.fence run
  /-- A tombstone is for the request of its record. -/
  tombstones : ∀ {run r}, (s.slots run).record = some r → OwnTombstone r.request (s.slots run)

/-- No admission is starting, and every Run that was started is over. -/
structure Converged (s : Device) : Prop where
  closed : ∀ files ∈ s.fence.runs, files.starting ≠ none → files.stopped ≠ none
  ended : ∀ {run r}, (s.slots run).record = some r → HasStarted s.fence run →
    r.state.isTerminal = true

variable {config : Config} {n : Nat} {s t : Device} {α : Type}

/-! ## Sections that succeed -/

variable {identity : GovernedProcessIdentity} {r : Record} {run : String}
  {view : RuntimeAdmissionView} {A : Answer → Prop} {Q : α → Device → Prop}
  {result : Device → Answer → Except AdmissionError α} {next : Device → Answer → Device}
  {absent : Bool}

/-- A section of either store, once it could be read. -/
theorem section_steady (h : ∀ a, Steady s a → ∃ x, result t a = .ok x ∧ Q x (next t a)) :
    Process.Succeeds (Steady s) Q (.step fun s a => if a.readable then (told (result s a), next s a)
      else (.error AdmissionError.io.text, s)) t := by
  refine .step fun a ha => ?_
  obtain ⟨x, hx, hQ⟩ := h a ha
  rw [if_pos ha.readable]
  exact ⟨x, told_eq_ok.mpr hx, hQ⟩

theorem listRecords_steady : listRecords.Succeeds (Steady s) (fun records u => records = t.records ∧
    u = t) t := by
  refine .step fun a ha => ?_
  rw [ha.inbox.1]
  exact ⟨t.records, rfl, rfl, rfl⟩

/-! ## Fencing -/

/-- Processes were fenced since `s`, and nothing else has changed. -/
structure Fencing (config : Config) (s t : Device) : Prop where
  slots : t.slots = s.slots
  known : t.known = s.known
  fence : t.fence = s.fence
  readable : t.processes.Readable config.processCodec
  files : ∀ {run files}, s.processes.lookup run = some files →
    ∃ files', t.processes.lookup run = some files' ∧ files'.prepared = files.prepared ∧
      (files' = files ∨ ¬ files'.Live)

theorem Fencing.noteFenced (h : Fencing config s t) :
    Fencing config s (noteFenced n identity absent t) :=
  noteFenced_induct fun _ => ⟨h.slots, h.known, h.fence, h.readable, h.files⟩

theorem noteFenced_processes : (noteFenced n identity absent t).processes = t.processes :=
  noteFenced_induct fun _ => rfl

/-- One process is fenced: it is over, and the others are as they were. -/
theorem fenceIdentity_steady {files : ProcessFiles} (h : Fencing config s t)
    (hfiles : s.processes.lookup identity.runId = some files)
    (hidentity : files.prepared.identity = identity) :
    (fenceIdentity config n identity).Succeeds (Steady s) (fun _ u => Fencing config s u ∧
      Frames identity.runId t.processes u.processes ∧
      ∃ files', u.processes.lookup identity.runId = some files' ∧ ¬ files'.Live) t := by
  obtain ⟨current, hcurrent, hprepared, hsame⟩ := h.files hfiles
  have hcurrentId : current.prepared.identity = identity := hprepared ▸ hidentity
  obtain ⟨view, hreads, hobserved⟩ :=
    fenceObserved_eq h.readable hcurrent hcurrentId
  have hfirst : (fenceObserved config n identity).Succeeds (Steady s) (fun seen u =>
      seen = (if view.terminal ≠ none then none else some view) ∧ Fencing config s u ∧
        u.processes = t.processes) t := by
    exact section_steady fun _ _ => ⟨_, hobserved, rfl, h.noteFenced, noteFenced_processes⟩
  refine hfirst.bind ?_
  rintro seen u ⟨rfl, hu, huprocesses⟩
  by_cases hterminal : view.terminal = none
  · rw [if_neg (not_not.mpr hterminal)]
    have hlive := hreads.live_iff.mp hterminal
    obtain rfl : current = files := hsame.resolve_right (not_not.mpr hlive)
    have hwait : (waitProcessLock identity.runId view.active.isSome).Succeeds (Steady s)
        (fun _ v => v = u) u := by
      refine section_steady fun a ha => ⟨(), ?_, rfl⟩
      rw [huprocesses]
      exact waitProcessLock_ok h.readable hcurrent hreads hterminal ha.process
    refine hwait.bind ?_
    rintro _ v rfl
    refine section_steady fun a ha => ?_
    have htime : timely a.now (t.processes.last identity.runId) = true := by
      have hlast := ha.processes identity.runId
      rw [GovernedProcessStore.last, hfiles] at hlast
      rw [GovernedProcessStore.last, hcurrent]
      exact hlast
    rw [huprocesses]
    have hclosing := @fenceClosed_closing config.processCodec t.processes
      a.process identity a.now view
    have hreadable := hclosing.readable h.readable htime
    have hframes := hclosing.frames
    obtain ⟨hok, closed, hclosed, hclosedPrepared, hover⟩ := @fenceClosed_over
      config.processCodec t.processes view current identity hcurrent hreads hcurrentId hterminal
      a.now a.process ha.process
    refine ⟨(), hok, Fencing.noteFenced ⟨hu.slots, hu.known, hu.fence, hreadable, ?_⟩, ?_, ?_⟩
    · intro run old hold
      by_cases hrun : run = identity.runId
      · subst hrun
        obtain rfl := Option.mem_unique hfiles hold
        exact ⟨closed, hclosed, hclosedPrepared, .inr hover⟩
      · obtain ⟨files', hfiles', hrest⟩ := h.files hold
        exact ⟨files', (hframes run hrun).trans hfiles', hrest⟩
    · rw [noteFenced_processes]
      exact hframes
    · rw [noteFenced_processes]
      exact ⟨closed, hclosed, hover⟩
  · rw [if_pos hterminal]
    refine .pure ⟨hu, ?_, current, ?_, fun hlive => hterminal (hreads.live_iff.mpr hlive)⟩
    · rw [huprocesses]
      exact fun _ _ => rfl
    · rw [huprocesses]
      exact hcurrent

/-- As many processes as admissions, at most. -/
theorem Device.Valid.processes_bounded (hs : s.Valid config)
    (h : s.fence.runs.length ≤ maxRuntimeAdmissions) :
    s.processes.runs.length ≤ maxRuntimeAdmissions := by
  have hsubset : s.processes.runs.map ProcessFiles.run ⊆ s.fence.runs.map AdmissionFiles.run := by
    intro run hrun
    obtain ⟨files, hfiles, rfl⟩ := mem_map.mp hrun
    obtain ⟨admission, start, hadmission, -⟩ := hs.processes.known files hfiles
    exact mem_map.mpr ⟨admission, Table.mem_of_lookup hadmission, lookup_run hadmission⟩
  have hle := (List.subperm_of_subset hs.processes.distinct hsubset).length_le
  rw [List.length_map, List.length_map] at hle
  exact hle.trans h

theorem fencing_refl (hs : s.Valid config) (h : Recoverable config s) : Fencing config s s where
  slots := rfl
  known := rfl
  fence := rfl
  readable := hs.processes.readable h.processes (hs.processes_bounded h.admissions.bounded)
  files := fun hfiles => ⟨_, hfiles, rfl, .inl rfl⟩

/-- Every process on record is over. -/
def Absent (t : Device) : Prop :=
  ∀ run files, t.processes.lookup run = some files → ¬ files.Live

theorem fenceAll_steady (hs : s.Valid config) (h : Recoverable config s) :
    (fenceAll config n).Succeeds (Steady s) (fun _ t => Fencing config s t ∧ Absent t) s := by
  obtain ⟨views, hviews⟩ := h.processes.list
  have hread := list_ok hviews
  have hlist : (onProcesses fun store _ => (store.list config.processCodec, store)).Succeeds
      (Steady s) (fun found t => found = views ∧ t = s) s :=
    section_steady fun _ _ => ⟨views, hviews, rfl, rfl⟩
  refine hlist.bind ?_
  rintro found t ⟨hfound, ht⟩
  subst found t
  -- what is left of the loop names every process that is not over
  refine (Process.Succeeds.forEach (J := fun rest t => Fencing config s t ∧
    (∀ identity ∈ rest, ∃ files, s.processes.lookup identity.runId = some files ∧
      files.prepared.identity = identity) ∧
    ∀ run files, t.processes.lookup run = some files → files.Live →
      files.prepared.identity ∈ rest) _ ⟨fencing_refl hs h, ?_, ?_⟩ ?_).mono
    fun _ t ht => ⟨ht.1, fun run files hfiles hlive => (nomatch ht.2.2 run files hfiles hlive)⟩
  · intro identity hidentity
    obtain ⟨view, hview, rfl⟩ := mem_map.mp hidentity
    obtain ⟨files, hfiles, hfound⟩ :=
      Transactional.exists_of_mem_mapM hread (List.mem_of_mem_filter hview)
    rw [(ProcessFiles.view_eq_ok.mp hfound).prepared]
    exact ⟨files, Table.lookup_of_mem hs.processes.distinct hfiles, rfl⟩
  · intro run files hfiles hlive
    obtain ⟨view, hview, hfound⟩ :=
      Transactional.exists_mem_of_mapM hread (Table.mem_of_lookup hfiles)
    have hreads := ProcessFiles.view_eq_ok.mp hfound
    refine mem_map.mpr ⟨view, mem_filter.mpr ⟨hview, ?_⟩, by rw [hreads.prepared]⟩
    simp [hreads.live_iff.mpr hlive]
  · rintro identity rest t ⟨ht, hlisted, hlive⟩
    obtain ⟨files, hfiles, hidentity⟩ := hlisted identity mem_cons_self
    refine (fenceIdentity_steady ht hfiles hidentity).mono ?_
    rintro _ u ⟨hu, hframes, closed, hclosed, hover⟩
    refine ⟨hu, fun other hother => hlisted other (mem_cons_of_mem _ hother), ?_⟩
    intro run other hother hotherLive
    by_cases hrun : run = identity.runId
    · subst hrun
      obtain rfl := Option.mem_unique hclosed hother
      exact absurd hotherLive hover
    have hbefore := (hframes run hrun).symm.trans hother
    rcases mem_cons.mp (hlive run other hbefore hotherLive) with heq | hrest
    · have hkey : other.run = run := lookup_run hother
      exact absurd (hkey.symm.trans (congrArg GovernedProcessIdentity.runId heq)) hrun
    · exact hrest

/-! ## Closing possible starts -/

/-- The views in `rest` are still to be closed, all others are. -/
structure Closing (config : Config) (s t : Device) (rest : List RuntimeAdmissionView) : Prop where
  slots : t.slots = s.slots
  known : t.known = s.known
  readable : t.fence.Readable config.codec
  shows : RuntimeFenceStore.Shows config.codec rest t.fence
  kept : ∀ view ∈ rest, t.fence.lookup view.spec.runId = s.fence.lookup view.spec.runId
  started : ∀ run, HasStarted t.fence run ↔ HasStarted s.fence run
  pending : ∀ files ∈ t.fence.runs, files.starting ≠ none → files.stopped = none →
    ∃ view ∈ rest, view.spec.runId = files.run
  /-- The process of an admission in `rest` was fenced. -/
  absent : ∀ view ∈ rest, view.state = .starting → ∃ identity,
    fencedIdentity view = some identity ∧
      t.processes.fenceObserved config.processCodec identity = .ok none

theorem withStop_hasStarted {record : RuntimeStopRecord} {store : RuntimeFenceStore} :
    HasStarted (store.withStop record) run ↔ HasStarted store run := by
  have hlookup : (store.withStop record).lookup run = (store.lookup run).map fun files =>
      if files.run = record.runId then { files with stopped := some record } else files :=
    lookup_rewritten (by exact fun _ => rfl)
  refine ⟨?_, ?_⟩
  · rintro ⟨files, start, hfiles, hstart⟩
    rw [hlookup] at hfiles
    obtain ⟨old, hold, rfl⟩ := Option.map_eq_some_iff.mp hfiles
    refine ⟨old, start, hold, ?_⟩
    split at hstart <;> exact hstart
  · rintro ⟨files, start, hfiles, hstart⟩
    rw [HasStarted, hlookup, hfiles]
    refine ⟨_, start, rfl, ?_⟩
    dsimp only
    split <;> exact hstart

/-- One view is closed, if there is anything to close. -/
theorem closeStarting_steady {rest : List RuntimeAdmissionView}
    (h : Closing config s t (view :: rest)) :
    (closeStarting config n view).Succeeds (Steady s) (fun closed u => Closing config s u rest ∧
      closed.spec = view.spec ∧
      closed.state = if view.state = .starting then .stopped else view.state) t := by
  obtain ⟨files, hfiles, hreads⟩ := h.shows.current view mem_cons_self
  have hrun := lookup_run hfiles
  have hrest : ∀ v ∈ rest, v ∈ view :: rest := fun v hv => mem_cons_of_mem _ hv
  by_cases hstate : view.state = .starting
  · obtain ⟨start, hstarting, hstopped, hstart, hdigest, hchecked⟩ := hreads.of_starting hstate
    obtain ⟨identity, hidentity, habsent⟩ := h.absent view mem_cons_self hstate
    have hfence : (fenceAndWait config n view).Succeeds (Steady s) (fun _ u =>
        u.slots = t.slots ∧ u.known = t.known ∧ u.fence = t.fence ∧ u.processes = t.processes) t := by
      unfold fenceAndWait
      rw [hidentity]
      refine .bind (Q := fun seen u => seen = none ∧ u.slots = t.slots ∧
        u.known = t.known ∧ u.fence = t.fence ∧ u.processes = t.processes) ?_ ?_
      · refine section_steady fun _ _ => ⟨none, habsent, rfl, ?_⟩
        rw [habsent]
        exact ⟨rfl, rfl, rfl, rfl⟩
      · rintro _ u ⟨rfl, hu⟩
        exact .pure hu
    unfold closeStarting
    rw [hdigest, hstate]
    simp only [reduceIte]
    refine hfence.bind ?_
    rintro _ u ⟨huslots, huknown, hufence, huprocesses⟩
    have hstop : (fenceStop config view.spec.runId view.admissionDigest
        (config.codec.startDigest start) .outcomeUnknown).Succeeds (Steady s) (fun closed v =>
          closed.spec = view.spec ∧ closed.admissionDigest = view.admissionDigest ∧
          closed.state = .stopped ∧ closed.startDigest = some (config.codec.startDigest start) ∧
          closed.outcome = some .outcomeUnknown ∧ Closing config s v rest) u := by
      refine section_steady fun a ha => ?_
      have hlast : timely a.now files.last = true := by
        have hlast := ha.fence view.spec.runId
        rw [last, ← h.kept view mem_cons_self, hfiles] at hlast
        exact hlast
      dsimp only
      rw [hufence, ha.io, stop_ok hfiles hreads hstate hdigest hlast ha.now]
      refine ⟨_, rfl, rfl, rfl, rfl, hdigest, rfl, ?_⟩
      have htimes : validProfileTime a.now = true ∧ start.authorityCheckedAt ≤ a.now := by
        refine timely_some ?_
        simpa [AdmissionFiles.last, hstarting, hstopped] using hlast
      refine ⟨huslots.trans h.slots, huknown.trans h.known, ?_, h.shows.withStop rfl, ?_, ?_, ?_, ?_⟩
      · exact h.readable.stopped hfiles hreads hstate hdigest hchecked htimes.2 htimes.1 _
      · intro v hv
        have hne : v.spec.runId ≠ view.spec.runId := fun heq =>
          (List.nodup_cons.mp h.shows.distinct).1 (mem_map.mpr ⟨v, hv, heq⟩)
        rw [← h.kept v (hrest v hv)]
        refine Table.lookup_update_ne (fun _ => rfl) fun row hrow => ?_
        rw [hrow]
        exact hne
      · exact fun run => withStop_hasStarted.trans (h.started run)
      · intro other hother hstarting' hopen
        obtain ⟨row, hrow, rfl⟩ := mem_map.mp hother
        split at hopen
        · cases hopen
        rename_i hne
        rw [if_neg hne] at hstarting' ⊢
        obtain ⟨v, hv, hvrun⟩ := h.pending row hrow hstarting' hopen
        rcases mem_cons.mp hv with rfl | hv
        · exact absurd hvrun.symm hne
        · exact ⟨v, hv, hvrun⟩
      · intro v hv hvstate
        obtain ⟨identity', hidentity', habsent'⟩ := h.absent v (hrest v hv) hvstate
        exact ⟨identity', hidentity', by rw [huprocesses]; exact habsent'⟩
    refine hstop.bind ?_
    rintro closed v ⟨hspec, hadmission, hclosed, hstart, houtcome, hv⟩
    split
    · rename_i hmismatch
      simp [hspec, hadmission, hclosed, hstart, houtcome] at hmismatch
    · exact .pure ⟨hv, hspec, hclosed⟩
  · simp only [if_neg hstate]
    unfold closeStarting
    split
    · exact absurd ‹_› hstate
    refine .pure ⟨⟨h.slots, h.known, h.readable, h.shows.tail, fun v hv => h.kept v (hrest v hv),
      h.started, ?_, fun v hv => h.absent v (hrest v hv)⟩, rfl, rfl⟩
    intro other hother hstarting hstopped
    obtain ⟨v, hv, hvrun⟩ := h.pending other hother hstarting hstopped
    rcases mem_cons.mp hv with rfl | hv
    · -- a view that is not starting is of an admission without start, or with a stop
      have hlookup := Table.lookup_of_mem h.readable.distinct hother
      obtain rfl : files = other :=
        Option.mem_unique hfiles (hvrun ▸ hlookup)
      cases hreads with
      | claimed _ hnone => exact absurd hnone hstarting
      | starting => exact absurd rfl hstate
      | stopped _ _ hsome =>
        rw [hsome] at hstopped
        cases hstopped
    · exact ⟨v, hv, hvrun⟩

/-- What a view has become. -/
def Closes (view closed : RuntimeAdmissionView) : Prop :=
  closed.spec = view.spec ∧
    closed.state = if view.state = .starting then .stopped else view.state

variable {views : List RuntimeAdmissionView}

theorem closeAll_steady (h : Closing config s t views) :
    (closeAll config n views).Succeeds (Steady s) (fun closed u => Closing config s u [] ∧
      List.Forall₂ Closes views closed) t := by
  induction views generalizing t with
  | nil => exact .pure ⟨h, .nil⟩
  | cons view rest ih =>
    refine (closeStarting_steady h).bind ?_
    rintro closed u ⟨hu, hclosed⟩
    refine (ih hu).bind ?_
    rintro tail v ⟨hv, htail⟩
    exact .pure ⟨hv, .cons hclosed htail⟩

/-! ## The inventory -/

theorem mem_records : r ∈ s.records ↔ ∃ run ∈ s.known, (s.slots run).record = some r :=
  List.mem_filterMap

theorem Device.Valid.mem_governed (hs : s.Valid config) (hr : (s.slots run).record = some r) :
    r ∈ governed s.records :=
  mem_filter.mpr ⟨mem_records.mpr ⟨run, hs.listed hr, hr⟩, (hs.records hr).governed⟩

theorem Device.Valid.of_mem_governed (hs : s.Valid config) (h : r ∈ governed s.records) :
    (s.slots r.runId).record = some r ∧ GovernedRecord r.runId r := by
  obtain ⟨run, -, hr⟩ := mem_records.mp (mem_filter.mp h).1
  have hgoverned := hs.records hr
  obtain rfl := hgoverned.runId
  exact ⟨hr, hgoverned⟩

theorem Device.Valid.governed_distinct (hs : s.Valid config) :
    ((governed s.records).map Record.runId).Nodup := by
  refine List.Nodup.sublist (List.filter_sublist.map _) ?_
  refine (List.nodup_map_iff_inj_on ?_).mpr ?_
  · refine hs.known.filterMap ?_
    intro run run' r hr hr'
    rw [← (hs.records hr).runId]
    exact (hs.records hr').runId
  · intro r hr r' hr' hsame
    obtain ⟨run, -, hrun⟩ := mem_records.mp hr
    obtain ⟨run', -, hrun'⟩ := mem_records.mp hr'
    rw [(hs.records hrun).runId, (hs.records hrun').runId] at hsame
    subst hsame
    exact Option.mem_unique hrun hrun'

theorem viewOf_some (h : viewOf views run = some view) : view ∈ views ∧ view.spec.runId = run := by
  have hfound := List.find?_some h
  exact ⟨List.mem_of_find?_eq_some h, beq_iff_eq.mp hfound⟩

theorem viewOf_of_mem (hdistinct : (views.map fun view => view.spec.runId).Nodup)
    (hview : view ∈ views) : viewOf views view.spec.runId = some view := by
  cases hfound : viewOf views view.spec.runId with
  | none =>
    have hnone := List.find?_eq_none.mp hfound view hview
    exact absurd (beq_self_eq_true _) hnone
  | some found =>
    obtain ⟨hmem, hrun⟩ := viewOf_some hfound
    rw [List.inj_on_of_nodup_map hdistinct hmem hview hrun]

theorem viewOf_closes {views closed : List RuntimeAdmissionView}
    (h : List.Forall₂ Closes views closed) :
    viewOf views run = none ∧ viewOf closed run = none ∨ ∃ view c,
      viewOf views run = some view ∧ viewOf closed run = some c ∧ Closes view c := by
  induction h with
  | nil => exact .inl ⟨rfl, rfl⟩
  | @cons view c views closed hfirst _ ih =>
    have hspec : c.spec.runId = view.spec.runId := congrArg RuntimeAdmissionSpec.runId hfirst.1
    unfold viewOf at ih ⊢
    rw [List.find?_cons, List.find?_cons, hspec]
    cases view.spec.runId == run with
    | true => exact .inr ⟨view, c, rfl, rfl, hfirst⟩
    | false => exact ih

theorem viewOf_closed {closed : List RuntimeAdmissionView} (h : List.Forall₂ Closes views closed)
    (hview : viewOf views run = some view) : ∃ c, viewOf closed run = some c ∧ Closes view c := by
  rcases @viewOf_closes run views closed h with ⟨hnone, -⟩ | ⟨_, c, hfound, hc⟩
  · cases hnone.symm.trans hview
  · exact ⟨c, hc.1, Option.mem_unique hfound hview ▸ hc.2⟩

variable {closed : List RuntimeAdmissionView} {store : GovernedProcessStore} {p : Bridge.Routine α}

/-- No view that was closed is starting. -/
theorem closed_not_starting (h : List.Forall₂ Closes views closed)
    (hview : viewOf closed run = some view) : view.state ≠ .starting := by
  rcases @viewOf_closes run views closed h with ⟨-, hnone⟩ | ⟨_, c, -, hc, hcloses⟩
  · cases hnone.symm.trans hview
  rw [← Option.mem_unique hc hview, hcloses.2]
  split
  · nofun
  · assumption

theorem validRecoveryView_of_reads {codec : Codec} {owner : Owner} {files : AdmissionFiles}
    (h : files.Reads codec owner view) : validRecoveryView view = true := by
  cases h with
  | claimed => rfl
  | starting _ _ _ hstart =>
    simp only [AdmissionFiles.startReads, Bool.and_eq_true] at hstart
    exact hstart.2
  | stopped _ _ _ hstart hstop =>
    simp only [AdmissionFiles.startReads, Bool.and_eq_true] at hstart
    simp only [AdmissionFiles.stopReads, Bool.and_eq_true] at hstop
    exact Bool.and_eq_true_iff.mpr ⟨hstart.2, hstop.2⟩

section Inventory

variable {views : List RuntimeAdmissionView}
  (hlists : RuntimeFenceStore.Lists config.codec views s.fence)
include hlists

theorem validInventory_of_lists : validInventory views = true := by
  refine Bool.and_eq_true_iff.mpr ⟨decide_eq_true hlists.distinct, List.all_eq_true.mpr ?_⟩
  intro view hview
  obtain ⟨files, -, hreads⟩ := hlists.current view hview
  exact validRecoveryView_of_reads hreads

/-- The view of a Run that was started. -/
theorem viewOf_hasStarted (hstarted : HasStarted s.fence run) :
    ∃ view, viewOf views run = some view ∧ (view.state = .starting ∨ view.state = .stopped) := by
  obtain ⟨files, start, hfiles, hstart⟩ := hstarted
  obtain ⟨view, hview, hreads⟩ := hlists.complete files (Table.mem_of_lookup hfiles)
  have hrun : view.spec.runId = run := hreads.runId.trans (lookup_run hfiles)
  refine ⟨view, hrun ▸ viewOf_of_mem hlists.distinct hview, ?_⟩
  cases hreads with
  | claimed _ hnone =>
    rw [hstart] at hnone
    cases hnone
  | starting => exact .inl rfl
  | stopped => exact .inr rfl

/-- A view of the Run that shows a start is of one on file. -/
theorem hasStarted_of_viewOf (hview : viewOf views run = some view)
    (hstate : view.state ≠ .claimed) : HasStarted s.fence run := by
  obtain ⟨hmem, rfl⟩ := viewOf_some hview
  obtain ⟨files, hfiles, hreads⟩ := hlists.current view hmem
  cases hreads with
  | claimed => exact absurd rfl hstate
  | starting _ hstarting => exact ⟨files, _, hfiles, hstarting⟩
  | stopped _ hstarting => exact ⟨files, _, hfiles, hstarting⟩

variable (hs : s.Valid config)
include hs

/-- The view is of a claim for the request of the record. -/
theorem validRequest_of_lists (hr : (s.slots r.runId).record = some r) (hview : viewOf views r.runId = some view) :
    config.validRequest r.request view = true := by
  obtain ⟨hmem, hrun⟩ := viewOf_some hview
  obtain ⟨files, hfiles, hreads⟩ := hlists.current view hmem
  obtain ⟨request, ⟨held, hheld, hsame⟩, manifest, hmanifest, hspec⟩ :=
    hs.claims files (Table.mem_of_lookup hfiles)
  have hkey : files.run = r.runId := (lookup_run hfiles).trans hrun
  rw [hkey] at hheld
  obtain rfl := Option.mem_unique hr hheld
  have hvalid : validRuntimeAdmissionSpec files.claimed.spec = true := by
    have hclaim := hreads.claimReads
    simp only [AdmissionFiles.claimReads, Bool.and_eq_true] at hclaim
    exact hclaim.1.2
  unfold Config.validRequest
  rw [hsame, hmanifest]
  simp only [hreads.spec, hvalid, hreads.admissionDigest, config.admissionDigest_hex,
    Bool.true_and, decide_eq_true_eq]
  exact hspec

omit hlists hs in
theorem validRecord_of_valid (h : Bridge.RuntimeExecutor.validateRecoveryRecord r = .ok ()) :
    validRecord r = true := by
  unfold validRecord
  rw [h]

/-- The records and the views of a state that can be recovered fit together. -/
theorem consistent_of_recoverable (h : Recoverable config s) :
    consistent config s.records views = true := by
  refine Bool.and_eq_true_iff.mpr ⟨List.all_eq_true.mpr fun r hr => ?_,
    List.all_eq_true.mpr fun view hview => ?_⟩
  · obtain ⟨hrecord, hgoverned⟩ := hs.of_mem_governed hr
    refine Bool.and_eq_true_iff.mpr ⟨Bool.and_eq_true_iff.mpr ⟨?_, ?_⟩, ?_⟩
    · exact validRecord_of_valid hgoverned.valid
    · cases hview : viewOf views r.runId with
      | none => rfl
      | some view => exact validRequest_of_lists hlists hs hrecord hview
    unfold validRecoveryState
    have hnotWorking : ¬ HasStarted s.fence r.runId → (r.state != .working) = true :=
      fun hnot => bne_iff_ne.mpr fun hworking => hnot (hs.working hrecord hworking)
    cases hview : viewOf views r.runId with
    | none =>
      refine hnotWorking fun hstarted => ?_
      obtain ⟨view, hsome, -⟩ := viewOf_hasStarted hlists hstarted
      rw [hview] at hsome
      cases hsome
    | some view =>
      have hprepared : view.state ≠ .claimed → (r.state != .preparing) = true :=
        fun hstate => bne_iff_ne.mpr fun hpreparing =>
          h.unprepared hrecord hpreparing (hasStarted_of_viewOf hlists hview hstate)
      dsimp only
      cases hstate : view.state with
      | claimed =>
        refine hnotWorking fun hstarted => ?_
        obtain ⟨found, hfound, hopen⟩ := viewOf_hasStarted hlists hstarted
        obtain rfl := Option.mem_unique hview hfound
        rcases hopen with hopen | hopen <;> rw [hstate] at hopen <;> cases hopen
      | starting => exact hprepared (by rw [hstate]; nofun)
      | stopped => exact hprepared (by rw [hstate]; nofun)
  · obtain ⟨files, hfiles, hreads⟩ := hlists.current view hview
    obtain ⟨request, ⟨r, hr, -⟩, -⟩ := hs.claims files (Table.mem_of_lookup hfiles)
    have hgoverned := hs.records hr
    refine List.any_eq_true.mpr ⟨r, hs.mem_governed hr, Bool.and_eq_true_iff.mpr ⟨?_, ?_⟩⟩
    · exact validRecord_of_valid hgoverned.valid
    · rw [hgoverned.runId, hreads.runId]
      exact beq_self_eq_true _

theorem unprepared_of_consistent (h : consistent config s.records views = true) (hr : (s.slots run).record = some r)
    (hpreparing : r.state = .preparing) : ¬ HasStarted s.fence run := by
  intro hstarted
  obtain rfl := (hs.records hr).runId
  obtain ⟨view, hview, hopen⟩ := viewOf_hasStarted hlists hstarted
  have hall := List.all_eq_true.mp (Bool.and_eq_true_iff.mp h).1 r (hs.mem_governed hr)
  have hstate := (Bool.and_eq_true_iff.mp hall).2
  unfold validRecoveryState at hstate
  rw [hview, hpreparing] at hstate
  dsimp only at hstate
  rcases hopen with hopen | hopen <;> rw [hopen] at hstate <;> cases hstate

variable (h : Recoverable config s)
include h

/-- After the fencing, all views are to be closed. -/
theorem Fencing.closing (ht : Fencing config s t) (habsent : Absent t) :
    Closing config s t views where
  slots := ht.slots
  known := ht.known
  readable := ht.fence ▸ h.admissions.readable hs.distinct
  shows := ht.fence ▸ hlists.toShows
  kept := fun _ _ => by rw [ht.fence]
  started := fun _ => by rw [ht.fence]
  pending := by
    intro files hfiles _ _
    rw [ht.fence] at hfiles
    obtain ⟨view, hview, hreads⟩ := hlists.complete files hfiles
    exact ⟨view, hview, hreads.runId⟩
  absent := by
    intro view hview hstate
    obtain ⟨files, hfiles, hreads⟩ := hlists.current view hview
    obtain ⟨start, hstarting, hstopped, -, hdigest, -⟩ := hreads.of_starting hstate
    have hmem := Table.mem_of_lookup hfiles
    have hkey := lookup_run hfiles
    have hidentity : fencedIdentity view =
        some ⟨view.spec.runId, view.admissionDigest, config.codec.startDigest start⟩ := by
      simp [fencedIdentity, hstate, hdigest]
    refine ⟨_, hidentity, ?_⟩
    -- the process on record is the one of this start
    obtain ⟨process, hprocess⟩ := Option.ne_none_iff_exists'.mp
      (h.recorded files hmem (hstarting ▸ Option.some_ne_none start) hstopped)
    obtain ⟨admission, begun, hadmission, hbegun, hadmitted, hstarted⟩ :=
      hs.processes.known process (Table.mem_of_lookup hprocess)
    have hprocessRun : process.prepared.identity.runId = view.spec.runId :=
      (lookup_run hprocess).trans hkey
    rw [hprocessRun] at hadmission
    obtain rfl := Option.mem_unique hfiles hadmission
    obtain rfl := Option.mem_unique hstarting hbegun
    have hsame : process.prepared.identity =
        ⟨view.spec.runId, view.admissionDigest, config.codec.startDigest start⟩ := by
      rw [← hprocessRun, hreads.admissionDigest, ← hadmitted, ← hstarted]
    obtain ⟨current, hcurrent, hprepared, -⟩ := ht.files hprocess
    rw [hkey] at hcurrent
    obtain ⟨found, hfound, hobserved⟩ := @fenceObserved_eq config.processCodec t.processes current
      ⟨view.spec.runId, view.admissionDigest, config.codec.startDigest start⟩ ht.readable hcurrent
      (hprepared ▸ hsame)
    have hover : found.terminal ≠ none := fun hterminal =>
      habsent _ _ hcurrent (hfound.live_iff.mp hterminal)
    rw [hobserved, if_pos hover]

/-! ## The last loop -/

omit hlists hs h in
/-- A routine of the inbox in the slot of its Run: the rest stays. -/
theorem onSlot_steady {Q : α → RunSlot → Prop} (h : p.Succeeds Works Q (t.slots run)) :
    (onSlot run p).Succeeds (Steady s) (fun a u => Q a (u.slots run) ∧ u.fence = t.fence ∧
      ∀ other, other ≠ run → u.slots other = t.slots other) t := by
  refine .zoom (F := fun u : Device => u.fence = t.fence ∧
    ∀ other, other ≠ run → u.slots other = t.slots other) (fun _ _ => withSlot_self) ?_
    (fun a ha => ha.inbox) ⟨rfl, fun _ _ => rfl⟩ h
  rintro u slot ⟨hfence, hothers⟩
  exact ⟨hfence, fun other hother => (withSlot_other hother).trans (hothers other hother)⟩

/-- With all starts closed, every record is closed that has to be. -/
theorem records_steady (hclosed : List.Forall₂ Closes views closed) (hslots : t.slots = s.slots) :
    (Process.forEach (governed s.records) fun record =>
      onSlot record.runId (recoverRecord config closed record)).Succeeds (Steady s) (fun _ u =>
        u.fence = t.fence ∧ ∀ run r, (u.slots run).record = some r →
          r.request.governed = true ∧ (HasStarted s.fence run → r.state.isTerminal = true)) t := by
  -- a Run that was started is over or still to come
  refine (Process.Succeeds.forEach (J := fun rest u => u.fence = t.fence ∧
    (rest.map Record.runId).Nodup ∧
    (∀ record ∈ rest, (s.slots record.runId).record = some record ∧
      Sane record (u.slots record.runId)) ∧
    ∀ run r, (u.slots run).record = some r → r.request.governed = true ∧
      (HasStarted s.fence run → r.state.isTerminal = true ∨ run ∈ rest.map Record.runId))
    _ ⟨rfl, hs.governed_distinct, ?_, ?_⟩ ?_).mono ?_
  · intro record hrecord
    obtain ⟨hr, hgoverned⟩ := hs.of_mem_governed hrecord
    rw [hslots]
    exact ⟨hr, hr, hgoverned.valid, h.tombstones hr⟩
  · intro run r hr
    rw [hslots] at hr
    refine ⟨(hs.records hr).governed, fun _ => .inr ?_⟩
    exact mem_map.mpr ⟨r, hs.mem_governed hr, (hs.records hr).runId⟩
  · rintro record rest u ⟨hfence, hdistinct, hrest, hover⟩
    rw [List.map_cons, List.nodup_cons] at hdistinct
    obtain ⟨hrecord, hsane⟩ := hrest record mem_cons_self
    have hopen : ∀ view, viewOf closed record.runId = some view → view.state ≠ .starting :=
      fun _ hview => closed_not_starting hclosed hview
    refine (onSlot_steady (recoverRecord_sane hsane hopen)).mono ?_
    rintro _ v ⟨⟨r', hsane', hrequest, hterminal⟩, hvfence, hothers⟩
    refine ⟨hvfence.trans hfence, hdistinct.2, ?_, ?_⟩
    · intro other hother
      have hne : other.runId ≠ record.runId := fun heq =>
        hdistinct.1 (mem_map.mpr ⟨other, hother, heq⟩)
      rw [hothers _ hne]
      exact hrest other (mem_cons_of_mem _ hother)
    intro run r hr
    by_cases hrun : run = record.runId
    · subst hrun
      obtain rfl := Option.mem_unique hsane'.record hr
      refine ⟨?_, fun hstarted => .inl ?_⟩
      · rw [hrequest]
        exact (hs.records hrecord).governed
      obtain ⟨view, hview, hstate⟩ := viewOf_hasStarted hlists hstarted
      obtain ⟨found, hfound, hcloses⟩ := viewOf_closed hclosed hview
      refine hterminal (fun hpreparing => h.unprepared hrecord hpreparing hstarted) found hfound ?_
      rw [hcloses.2]
      rcases hstate with hstate | hstate <;> simp [hstate]
    · rw [hothers run hrun] at hr
      obtain ⟨hgoverned, hstarted⟩ := hover run r hr
      refine ⟨hgoverned, fun hs' => (hstarted hs').imp id fun hmem => ?_⟩
      rcases mem_cons.mp hmem with heq | hmem
      · exact absurd heq hrun
      · exact hmem
  · rintro _ u ⟨hfence, -, -, hover⟩
    refine ⟨hfence, fun run r hr => ⟨(hover run r hr).1, fun hstarted => ?_⟩⟩
    exact ((hover run r hr).2 hstarted).resolve_right (by simp)

end Inventory

/-! ## Recovery goes through -/

theorem recoverAll_steady (hs : s.Valid config) (h : Recoverable config s) :
    (recoverAll config n).Succeeds (Steady s) (fun _ t => Converged t) s := by
  obtain ⟨views, hviews⟩ := h.admissions.list
  have hlists := lists_of_list hs.distinct hviews
  have hrecover : (recover config n).Succeeds (Steady s) (fun _ u => Converged u ∧
      ∀ run r, (u.slots run).record = some r → r.request.governed = true) s := by
    refine (fenceAll_steady hs h).bind ?_
    rintro _ t ⟨ht, habsent⟩
    refine listRecords_steady.bind ?_
    rintro records u ⟨rfl, rfl⟩
    have hrecords : u.records = s.records := by rw [Device.records, ht.known, ht.slots]; rfl
    have hlist : (fenceList config).Succeeds (Steady s) (fun found v => found = views ∧ v = u) u := by
      refine section_steady fun _ _ => ⟨views, ?_, rfl, rfl⟩
      rw [ht.fence]
      exact hviews
    refine hlist.bind ?_
    rintro found v ⟨hfound, hv⟩
    subst found v
    rw [if_neg (not_not.mpr (validInventory_of_lists hlists))]
    refine (closeAll_steady (Fencing.closing hlists hs h ht habsent)).bind ?_
    rintro closed v ⟨hv, hclosed⟩
    rw [hrecords, if_neg (not_not.mpr (consistent_of_recoverable hlists hs h))]
    refine (records_steady hlists hs h hclosed hv.slots).mono ?_
    rintro _ w ⟨hfence, hover⟩
    refine ⟨⟨?_, ?_⟩, fun run r hr => (hover run r hr).1⟩
    · intro files hfiles hstarting hstopped
      rw [hfence] at hfiles
      obtain ⟨view, hview, -⟩ := hv.pending files hfiles hstarting hstopped
      cases hview
    · intro run r hr hstarted
      rw [hfence] at hstarted
      exact (hover run r hr).2 ((hv.started run).mp hstarted)
  refine hrecover.bind ?_
  rintro _ u ⟨hconverged, hgoverned⟩
  refine listRecords_steady.bind ?_
  rintro records v ⟨rfl, rfl⟩
  have hnone : (v.records.filter fun record => !record.request.governed) = [] := by
    refine List.filter_eq_nil_iff.mpr fun record hrecord => ?_
    obtain ⟨run, -, hr⟩ := mem_records.mp hrecord
    simp [hgoverned run record hr]
  rw [hnone]
  exact .pure hconverged

/-! ## What a recovery that went through has found -/

/-- As far as `s` is concerned: nothing but processes was closed, and none was added. -/
structure Reduces (s t : Device) : Prop where
  slots : t.slots = s.slots
  known : t.known = s.known
  processes : ∀ {run}, s.processes.lookup run = none → t.processes.lookup run = none

theorem Reduces.noteFenced (h : Reduces s t) : Reduces s (noteFenced n identity absent t) :=
  noteFenced_induct fun _ => ⟨h.slots, h.known, h.processes⟩

theorem noteFenced_fence : (noteFenced n identity absent t).fence = t.fence :=
  noteFenced_induct fun _ => rfl

/-- A section that reports only after it could read its store. -/
theorem section_returns (h : ∀ a x, result t a = .ok x → Q x (next t a)) :
    Process.Returns A Q (.step fun s a => if a.readable then (told (result s a), next s a)
      else (.error AdmissionError.io.text, s)) t := by
  refine .step fun a x _ hx => ?_
  split at hx
  · rename_i hreadable
    rw [if_pos hreadable]
    exact h a x (told_eq_ok.mp hx)
  · cases hx

theorem listRecords_returns :
    listRecords.Returns A (fun records u => records = t.records ∧ u = t) t := by
  refine .step fun a records _ hrecords => ?_
  split at hrecords
  · cases hrecords
    exact ⟨rfl, by simp [*]⟩
  · cases hrecords
  · cases hrecords

/-- What the first section of `FenceAndWait` can say about a Run. -/
theorem fenceObserved_lookup {codec : ProcessCodec}
    {seen : Option GovernedProcessView} (h : store.fenceObserved codec identity = .ok seen) :
    store.lookup identity.runId ≠ none := by
  unfold GovernedProcessStore.fenceObserved at h
  split at h
  · cases h
  split at h
  · cases h
  rename_i view hview
  obtain ⟨files, hfiles, -⟩ := get_ok hview
  rw [hfiles]
  exact Option.some_ne_none files

theorem fenceClosed_none {codec : ProcessCodec}
    {seen : GovernedProcessView} {now : Instant} {answer : ProcessAnswer}
    (h : store.lookup run = none) :
    (store.fenceClosed codec identity seen now answer).2.lookup run = none := by
  by_cases hrun : run = identity.runId
  · subst hrun
    have hget : ∀ view, store.get codec identity.runId ≠ .ok view := by
      intro view hview
      obtain ⟨files, hfiles, -⟩ := get_ok hview
      rw [h] at hfiles
      cases hfiles
    unfold GovernedProcessStore.fenceClosed
    split
    · exact h
    · rename_i view hview
      exact absurd hview (hget view)
  · rw [fenceClosed_closing.frames run hrun]
    exact h

/-- A process that could be fenced was on record. -/
theorem fenceIdentity_returns (h : Reduces s t) :
    (fenceIdentity config n identity).Returns A (fun _ u => Reduces s u ∧ u.fence = t.fence ∧
      s.processes.lookup identity.runId ≠ none) t := by
  have hfirst : (fenceObserved config n identity).Returns A (fun _ u => Reduces s u ∧
      u.fence = t.fence ∧ s.processes.lookup identity.runId ≠ none) t := by
    refine section_returns fun a seen hseen => ?_
    have hlookup := fenceObserved_lookup hseen
    exact ⟨h.noteFenced, noteFenced_fence, fun hnone => hlookup (h.processes hnone)⟩
  refine hfirst.bind ?_
  rintro seen u ⟨hu, hufence, hknown⟩
  cases seen with
  | none => exact .pure ⟨hu, hufence, hknown⟩
  | some view =>
    have hwait : (waitProcessLock identity.runId view.active.isSome).Returns A (fun _ v => v = u) u :=
      section_returns fun _ _ _ => rfl
    refine hwait.bind ?_
    rintro _ v rfl
    refine section_returns fun a x _ => ?_
    refine ⟨Reduces.noteFenced ⟨hu.slots, hu.known, ?_⟩, noteFenced_fence.trans hufence, hknown⟩
    exact fun hnone => fenceClosed_none (hu.processes hnone)

theorem fenceAll_returns :
    (fenceAll config n).Returns A (fun _ t => s.processes.Listable config.processCodec ∧
      Reduces s t ∧ t.fence = s.fence) s := by
  have hlist : (onProcesses fun store _ => (store.list config.processCodec, store)).Returns A
      (fun _ t => s.processes.Listable config.processCodec ∧ t = s) s :=
    section_returns fun _ _ hviews => ⟨listable_of_list hviews, rfl⟩
  refine hlist.bind ?_
  rintro views t ⟨hlistable, ht⟩
  subst t
  refine (Process.Returns.forEach (J := fun _ t => Reduces s t ∧ t.fence = s.fence) _
    ⟨⟨rfl, rfl, id⟩, rfl⟩ ?_).mono fun _ t ht => ⟨hlistable, ht⟩
  rintro identity rest t ⟨ht, hfence⟩
  exact (fenceIdentity_returns ht).mono fun _ u hu => ⟨hu.1, hu.2.1.trans hfence⟩

/-- A start that could be closed had its process on record. -/
theorem closeStarting_returns (h : Reduces s t) :
    (closeStarting config n view).Returns A (fun _ u => Reduces s u ∧
      (view.state = .starting → view.startDigest ≠ none →
        s.processes.lookup view.spec.runId ≠ none)) t := by
  unfold closeStarting
  split
  · rename_i startDigest hstate hdigest
    have hfence : (fenceAndWait config n view).Returns A (fun _ u => Reduces s u ∧
        s.processes.lookup view.spec.runId ≠ none) t := by
      have hidentity : fencedIdentity view =
          some ⟨view.spec.runId, view.admissionDigest, startDigest⟩ := by
        simp [fencedIdentity, hstate, hdigest]
      unfold fenceAndWait
      rw [hidentity]
      exact (fenceIdentity_returns h).mono fun _ u hu => ⟨hu.1, hu.2.2⟩
    refine hfence.bind ?_
    rintro _ u ⟨hu, hknown⟩
    have hstop : (fenceStop config view.spec.runId view.admissionDigest startDigest
        .outcomeUnknown).Returns A (fun _ v => Reduces s v) u :=
      section_returns fun _ _ _ => ⟨hu.slots, hu.known, hu.processes⟩
    refine hstop.bind fun closed v hv => ?_
    split
    · exact .fail
    · exact .pure ⟨hv, fun _ _ => hknown⟩
  · rename_i hopen
    refine .pure ⟨h, fun hstate hdigest => ?_⟩
    obtain ⟨startDigest, hsome⟩ := Option.ne_none_iff_exists'.mp hdigest
    exact absurd hsome (hopen startDigest hstate)

theorem closeAll_returns (h : Reduces s t) :
    (closeAll config n views).Returns A (fun _ u => Reduces s u ∧
      ∀ view ∈ views, view.state = .starting → view.startDigest ≠ none →
        s.processes.lookup view.spec.runId ≠ none) t := by
  induction views generalizing t with
  | nil => exact .pure ⟨h, fun _ hview => (nomatch hview)⟩
  | cons view rest ih =>
    refine (closeStarting_returns h).bind ?_
    rintro _ u ⟨hu, hfirst⟩
    refine (ih hu).bind ?_
    rintro _ v ⟨hv, htail⟩
    refine .pure ⟨hv, fun other hother => ?_⟩
    rcases mem_cons.mp hother with rfl | hother
    · exact hfirst
    · exact htail other hother

theorem onSlot_returns {Q : α → RunSlot → Prop} (h : p.Returns Works Q (t.slots run)) :
    (onSlot run p).Returns (Steady s) (fun a u => Q a (u.slots run) ∧
      ∀ other, other ≠ run → u.slots other = t.slots other) t := by
  refine .zoom (F := fun u : Device => ∀ other, other ≠ run →
    u.slots other = t.slots other) (fun _ _ => withSlot_self) ?_ (fun a ha => ha.inbox)
    (fun _ _ => rfl) h
  exact fun u slot hothers other hother => (withSlot_other hother).trans (hothers other hother)

theorem records_returns (hs : s.Valid config) (hslots : t.slots = s.slots) :
    (Process.forEach (governed s.records) fun record =>
      onSlot record.runId (recoverRecord config closed record)).Returns (Steady s) (fun _ _ =>
        ∀ record ∈ governed s.records, OwnTombstone record.request (s.slots record.runId)) t := by
  refine (Process.Returns.forEach (J := fun rest u => (rest.map Record.runId).Nodup ∧
    (∀ record ∈ rest, u.slots record.runId = s.slots record.runId) ∧
    ∀ record ∈ governed s.records, record ∈ rest ∨
      OwnTombstone record.request (s.slots record.runId))
    _ ⟨hs.governed_distinct, fun _ _ => by rw [hslots], fun _ h => .inl h⟩ ?_).mono ?_
  · rintro record rest u ⟨hdistinct, hsame, hrest⟩
    rw [List.map_cons, List.nodup_cons] at hdistinct
    refine (onSlot_returns recoverRecord_returns).mono ?_
    rintro _ v ⟨htombstone, hothers⟩
    rw [hsame record mem_cons_self] at htombstone
    refine ⟨hdistinct.2, ?_, ?_⟩
    · intro other hother
      have hne : other.runId ≠ record.runId := fun heq =>
        hdistinct.1 (mem_map.mpr ⟨other, hother, heq⟩)
      rw [hothers _ hne]
      exact hsame other (mem_cons_of_mem _ hother)
    · intro other hother
      rcases hrest other hother with hmem | hdone
      · rcases mem_cons.mp hmem with rfl | hmem
        · exact .inr htombstone
        · exact .inl hmem
      · exact .inr hdone
  · rintro _ u ⟨-, -, hall⟩ record hrecord
    exact (hall record hrecord).resolve_left (by simp)

theorem recoverAll_returns (hs : s.Valid config) :
    (recoverAll config n).Returns (Steady s) (fun _ _ => Recoverable config s) s := by
  have hrecover : (recover config n).Returns (Steady s) (fun _ _ => Recoverable config s) s := by
    refine fenceAll_returns.bind ?_
    rintro _ t ⟨hprocesses, ht, htfence⟩
    refine listRecords_returns.bind ?_
    rintro records u ⟨rfl, rfl⟩
    have hrecords : u.records = s.records := by rw [Device.records, ht.known, ht.slots]; rfl
    have hlist : (fenceList config).Returns (Steady s) (fun views v =>
        s.fence.list config.codec = .ok views ∧ v = u) u := by
      refine section_returns fun _ views hviews => ⟨?_, rfl⟩
      rw [← htfence]
      exact hviews
    refine hlist.bind ?_
    rintro views v ⟨hviews, hv⟩
    subst v
    have hlists := lists_of_list hs.distinct hviews
    split
    · exact .fail
    refine (closeAll_returns ht).bind ?_
    rintro closed v ⟨hv, hfenced⟩
    rw [hrecords]
    split
    · exact .fail
    rename_i hconsistent
    have hconsistent := Decidable.not_not.mp hconsistent
    refine (records_returns hs hv.slots).mono fun _ _ htombstones => ?_
    refine ⟨listable_of_list hviews, hprocesses, ?_,
      fun hr hpreparing => unprepared_of_consistent hlists hs hconsistent hr hpreparing, ?_⟩
    · intro files hfiles hstarting hstopped
      obtain ⟨view, hview, hreads⟩ := hlists.complete files hfiles
      rw [← hreads.runId]
      cases hreads with
      | claimed _ hnone => exact absurd hnone hstarting
      | starting => exact hfenced _ hview rfl (Option.some_ne_none _)
      | stopped _ _ hsome =>
        rw [hsome] at hstopped
        cases hstopped
    · intro run r hr
      obtain rfl := (hs.records hr).runId
      exact htombstones r (hs.mem_governed hr)
  refine hrecover.bind fun _ t ht => ?_
  exact Process.Ends.mono (fun _ _ _ _ _ => ht) (Process.Ends.any _ t)

/-! ## The theorem -/

theorem Device.Reachable.crashed {pool : Pool Device Answer} (h : Device.Reachable config pool)
    (hcrash : Crashed pool.shared s) : s.Valid config := by
  obtain ⟨inFence, inProcesses, rfl⟩ := hcrash
  exact h.safe.shared.1.restart

/-- Whatever a crash has left of a run, recovery goes through and converges exactly if
both stores can be listed, every start that is not stopped has its process on record,
no started Run is in preparation and every tombstone is for the request of its record. -/
theorem recovery_converges_iff {pool : Pool Device Answer} (hreach : Device.Reachable config pool)
    (hcrash : Crashed pool.shared s) (hsteady : ∃ a, Steady s a) (n : Nat) :
    (recoverAll config n).Succeeds (Steady s) (fun _ t => Converged t) s ↔
      Recoverable config s := by
  have hs := hreach.crashed hcrash
  refine ⟨fun h => ?_, fun h => recoverAll_steady hs h⟩
  obtain ⟨a, ha⟩ := hsteady
  obtain ⟨x, hx, -⟩ := Process.Ends.run h ha
  exact (recoverAll_returns hs).run ha hx

/-! The sample Run, claimed and started. -/

/-- The Run is claimed and acknowledged, and then the Bridge stops. -/
def sampleClaimed : Device :=
  (solo sampleOwner (.device sampleOwner) "run_00000001"
    (plainSlot (.ofRequest "key" sampleRequest) [.accepted false])
    (fenceWith sampleOwner
      (claimOf sampleOwner sampleManifest (localFacts sampleManifest) sampleAnswer) none)
    []).restart false false

/-- The answers of the sample are not behind the claim and the start, which have the same time. -/
theorem sample_steady {start : Option RuntimeStartRecord} {slot : RunSlot}
    {invoked : List (Nat × String)} (hstart : ∀ record, start = some record →
      record.authorityCheckedAt = sampleAnswer.now) :
    Steady ((solo sampleOwner (.device sampleOwner) "run_00000001" slot (fenceWith sampleOwner
      (claimOf sampleOwner sampleManifest (localFacts sampleManifest) sampleAnswer) start)
      invoked).restart false false) sampleAnswer where
  inbox := ⟨rfl, rfl⟩
  readable := rfl
  io := rfl
  process := ⟨rfl, rfl, rfl⟩
  now := by decide
  fence := by
    intro run
    have htime := sample_admissible.time
    rw [last]
    cases hfound : lookup _ run with
    | none => rfl
    | some files =>
      obtain rfl := List.mem_singleton.mp (Table.mem_of_lookup hfound)
      cases start with
      | none => simpa [timely, AdmissionFiles.last, claimOf] using htime
      | some record =>
        simpa [timely, AdmissionFiles.last, hstart record rfl] using htime
  processes := fun _ => rfl

theorem sampleClaimed_recoverable : Recoverable sampleConfig sampleClaimed where
  admissions :=
    { reads := fun files hfiles => by
        obtain rfl := List.mem_singleton.mp hfiles
        exact ⟨_, .claimed sample_admissible.claimReads rfl rfl⟩
      bounded := by decide
      entries := by decide }
  processes := ⟨fun _ hfiles => (nomatch hfiles), by decide⟩
  recorded := fun files hfiles hstarting => by
    obtain rfl := List.mem_singleton.mp hfiles
    exact absurd rfl hstarting
  unprepared := fun {run r} _ _ => by
    rintro ⟨files, start, hfiles, hstart⟩
    obtain rfl := List.mem_singleton.mp (Table.mem_of_lookup hfiles)
    cases hstart
  tombstones := fun {run r} hr => by
    refine ⟨false, ?_⟩
    by_cases hrun : run = "run_00000001"
    · subst hrun
      rfl
    have hslot : sampleClaimed.slots run = { RunSlot.empty with explicitCancel := false } := by
      change { Function.update (fun _ => RunSlot.empty) "run_00000001" _ run with
        explicitCancel := false } = _
      rw [Function.update_of_ne hrun]
    rw [hslot]
    rfl

theorem sampleClaimed_converges :
    (recoverAll sampleConfig 1).Succeeds (Steady sampleClaimed) (fun _ t => Converged t)
      sampleClaimed := by
  have hreach : Device.Reachable sampleConfig ⟨_, [_]⟩ :=
    ⟨sampleOwner, .device sampleOwner, .head (.spawn (.handle sampleRequest))
      sample_admissible.claims⟩
  exact (recovery_converges_iff hreach ⟨false, false, rfl⟩
    ⟨sampleAnswer, sample_steady fun _ h => by cases h⟩ 1).mpr sampleClaimed_recoverable

/-- The Bridge stops between the start on file and the preparation of the process. Every
recovery from there fails, with any answers that a recovery could hope for. -/
theorem started_unprepared_never_recovers :
    (∃ p, Device.Reachable sampleConfig ⟨sampleStarted, [p]⟩) ∧
    Steady (sampleStarted.restart false false) sampleAnswer ∧
    ∀ n a, Steady (sampleStarted.restart false false) a →
      ((recoverAll sampleConfig n).run a (sampleStarted.restart false false)).1 ≠ .ok () := by
  refine ⟨sampleStarted_reachable, sample_steady ?_, fun n a ha hok => ?_⟩
  · rintro _ ⟨⟩
    rfl
  · obtain ⟨p, hreach⟩ := sampleStarted_reachable
    have hrecoverable := (recoverAll_returns (hreach.crashed ⟨false, false, rfl⟩)).run ha hok
    exact hrecoverable.recorded _ (List.mem_singleton_self _) nofun rfl rfl

end ConveneWire.Governed
