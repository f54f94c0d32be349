import ConveneWire.Admission.Changes

/-! # What a listing shows, and what closing leaves

A listing succeeds exactly if every file can be read and there are not too many. A
process that was fenced is over, and an admission that was stopped shows it. -/

namespace ConveneWire.Admission

open Transactional (mapM_eq_ok exists_mem_of_mapM)

namespace RuntimeFenceStore

variable {codec : Codec} {store : RuntimeFenceStore} {run : String} {view : RuntimeAdmissionView}

/-- The views are those of all admissions. -/
structure Lists (codec : Codec) (views : List RuntimeAdmissionView) (store : RuntimeFenceStore) :
    Prop extends Shows codec views store where
  complete : ∀ files ∈ store.runs, ∃ view ∈ views, files.Reads codec store.owner view

theorem Listable.readable (h : store.Listable codec)
    (hdistinct : (store.runs.map AdmissionFiles.run).Nodup) : store.Readable codec :=
  ⟨hdistinct, h.reads, h.bounded⟩

variable {views : List RuntimeAdmissionView}

theorem listable_of_list (h : store.list codec = .ok views) : store.Listable codec := by
  obtain ⟨read, hread, hperm⟩ := list_ok h
  unfold list at h
  split at h
  · cases h
  rename_i hentries
  rw [hread] at h
  dsimp only at h
  split at h
  · cases h
  rename_i hlength
  refine ⟨fun files hfiles => ?_, ?_, Nat.not_lt.mp hentries⟩
  · obtain ⟨view, -, hview⟩ := exists_mem_of_mapM hread hfiles
    exact ⟨view, AdmissionFiles.view_eq_ok.mp hview⟩
  · rw [(mapM_eq_ok.mp hread).length_eq]
    exact Nat.not_lt.mp hlength

theorem lists_of_list (hdistinct : (store.runs.map AdmissionFiles.run).Nodup)
    (h : store.list codec = .ok views) : Lists codec views store := by
  refine ⟨shows_of_list ((listable_of_list h).readable hdistinct) h, fun files hfiles => ?_⟩
  obtain ⟨read, hread, hperm⟩ := list_ok h
  obtain ⟨view, hmem, hview⟩ := exists_mem_of_mapM hread hfiles
  exact ⟨view, hperm.mem_iff.mpr hmem, AdmissionFiles.view_eq_ok.mp hview⟩

theorem stop_ok {files : AdmissionFiles} (hfiles : store.lookup run = some files)
    (hreads : files.Reads codec store.owner view) (hstate : view.state = .starting)
    {startDigest : String} (hdigest : view.startDigest = some startDigest) {now : Instant}
    (htime : timely now files.last = true) (hnow : now ≠ 0) (outcome : RuntimeOutcome) :
    store.stop codec run view.admissionDigest startDigest outcome now .ok =
      (.ok { view with state := .stopped, outcome := some outcome, stoppedAt := some now },
        store.withStop ⟨run, view.admissionDigest, startDigest, outcome, now⟩) := by
  cases hreads with
  | claimed => cases hstate
  | stopped => cases hstate
  | @starting start hclaim hstarting hstopped hstart =>
    cases hdigest
    have hlast : files.last = some start.authorityCheckedAt := by
      simp [AdmissionFiles.last, hstarting, hstopped]
    obtain ⟨hvalid, hle⟩ := timely_some (hlast ▸ htime)
    have hget := get_of_lookup hfiles (.starting hclaim hstarting hstopped hstart)
    have hrecord : store.stopping codec run (codec.admissionDigest files.claimed)
        (codec.startDigest start) outcome now =
        .ok (.inr ⟨run, codec.admissionDigest files.claimed, codec.startDigest start, outcome, now⟩) := by
      simp [stopping, hnow, hget, AdmissionFiles.startingView, AdmissionFiles.claimedView,
        Int.not_lt.mpr hle]
    have hafter : (store.withStop ⟨run, codec.admissionDigest files.claimed,
        codec.startDigest start, outcome, now⟩).get codec run =
        .ok (files.stoppedView codec start ⟨run, codec.admissionDigest files.claimed,
          codec.startDigest start, outcome, now⟩) := by
      refine get_of_lookup (lookup_rewritten_self (by exact fun _ => rfl) hfiles)
        (.stopped hclaim hstarting rfl hstart ?_)
      have hrun : files.run = run := lookup_run hfiles
      exact AdmissionFiles.stopReads_new hrun rfl rfl hvalid hle
    rw [stop, show (files.startingView codec start).admissionDigest =
      codec.admissionDigest files.claimed from rfl, hrecord]
    dsimp only [put]
    rw [hafter]
    rfl

end RuntimeFenceStore

namespace GovernedProcessStore

variable {codec : ProcessCodec} {store : GovernedProcessStore} {run : String}
  {view : GovernedProcessView} {K : GovernedProcessIdentity → Prop} {files : ProcessFiles}

theorem listable_of_list {views : List GovernedProcessView} (h : store.list codec = .ok views) :
    store.Listable codec := by
  have hread := list_ok h
  unfold list at h
  split at h
  · cases h
  rename_i hentries
  refine ⟨fun files hfiles => ?_, Nat.not_lt.mp hentries⟩
  obtain ⟨view, -, hview⟩ := exists_mem_of_mapM hread hfiles
  exact ⟨view, ProcessFiles.view_eq_ok.mp hview⟩

theorem Sound.readable (h : store.Sound K) (hlist : store.Listable codec)
    (hbounded : store.runs.length ≤ maxRuntimeAdmissions) : store.Readable codec :=
  ⟨h.distinct, fun files hfiles => ⟨hlist.reads files hfiles, h.locked files hfiles⟩, h.leased,
    hbounded⟩

/-- The records of a Run after its closing: those that were written before it. -/
theorem closed_lookup {next : GovernedProcessStore} (hnext : next.lookup run = some files)
    {answer : ProcessAnswer} (hanswer : answer.Cooperates) :
    ∃ files', (store.closed next run answer).2.lookup run = some files' ∧
      files'.prepared = files.prepared ∧ files'.finished = files.finished ∧
      files'.abandoned = files.abandoned := by
  rw [closed, hanswer.write]
  dsimp only [put]
  unfold removeLock
  split
  · exact ⟨files, hnext, rfl, rfl, rfl⟩
  · rw [if_pos hanswer.removed]
    exact ⟨_, lookup_edit_self (by exact fun _ => rfl) hnext, rfl, rfl, rfl⟩

/-- A process that was fenced is over. -/
theorem fenceClosed_over {identity : GovernedProcessIdentity}
    (hfiles : store.lookup identity.runId = some files)
    (hreads : files.Reads codec store.owner view) (hidentity : files.prepared.identity = identity)
    (hterminal : view.terminal = none) {now : Instant} {answer : ProcessAnswer}
    (hanswer : answer.Cooperates) : (store.fenceClosed codec identity view now answer).1 = .ok () ∧
      ∃ files', (store.fenceClosed codec identity view now answer).2.lookup identity.runId =
        some files' ∧ files'.prepared = files.prepared ∧ ¬ files'.Live := by
  rw [fenceClosed_eq hfiles hreads hidentity hterminal]
  refine ⟨closed_ok hanswer, ?_⟩
  split
  · have hwritten : (store.abandoned identity.runId view.preparedDigest now).lookup
        identity.runId = some _ := lookup_edit_self (by exact fun _ => rfl) hfiles
    obtain ⟨files', hfiles', hprepared, -, habandoned⟩ :=
      @closed_lookup store identity.runId _ _ hwritten answer hanswer
    refine ⟨files', hfiles', hprepared, fun hlive => ?_⟩
    rw [hlive.2] at habandoned
    cases habandoned
  · have hwritten : (store.withFinished ⟨identity.runId, view.preparedDigest, view.activeDigest,
        now⟩).lookup identity.runId = some _ := lookup_edit_self (by exact fun _ => rfl) hfiles
    obtain ⟨files', hfiles', hprepared, hfinished, -⟩ :=
      @closed_lookup store identity.runId _ _ hwritten answer hanswer
    refine ⟨files', hfiles', hprepared, fun hlive => ?_⟩
    rw [hlive.1] at hfinished
    cases hfinished

end GovernedProcessStore

end ConveneWire.Admission
