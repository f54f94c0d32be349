import ConveneWire.Admission.ProcessReads

/-! # What one call changes in the local stores

Whatever the clock says: the fence writes at most one file, and only on the one before
it; the process store keeps every preparation, and a process that is not over keeps
the lock that its lease promised. -/

namespace ConveneWire.Admission

open Bridge (Io)

/-! ## The fence -/

namespace RuntimeFenceStore

variable {codec : Codec} {store next : RuntimeFenceStore} {run : String}
  {view : RuntimeAdmissionView}

/-- At most one file is written, and it is the next one of its Run. -/
inductive Change (codec : Codec) (store : RuntimeFenceStore) : RuntimeFenceStore → Prop
  | same : Change codec store store
  | claimed {spec : RuntimeAdmissionSpec} {now : Instant} (hnew : store.lookup spec.runId = none) :
      Change codec store (store.withClaim ⟨store.owner, spec, now⟩)
  | started {run : String} {files : AdmissionFiles} {now : Instant}
      (hfiles : store.lookup run = some files)
      (hopen : files.starting = none) :
      Change codec store (store.withStart ⟨run, codec.admissionDigest files.claimed, now⟩)
  | stopped {run : String} {files : AdmissionFiles} {start : RuntimeStartRecord}
      {outcome : RuntimeOutcome} {now : Instant} (hfiles : store.lookup run = some files)
      (hstart : files.starting = some start)
      (hopen : files.stopped = none) :
      Change codec store (store.withStop ⟨run, codec.admissionDigest files.claimed,
        codec.startDigest start, outcome, now⟩)

variable {expected : String} {now : Instant} {seen : RuntimeAdmissionSpec} {io : Io}

theorem claim_cases {spec : RuntimeAdmissionSpec} :
    (store.claim codec spec now io).2 = store ∨ store.lookup spec.runId = none ∧
      (store.claim codec spec now io).2 = store.withClaim ⟨store.owner, spec, now⟩ := by
  unfold claim
  split
  · exact .inl rfl
  · exact .inl rfl
  · rename_i record hrecord
    obtain ⟨rfl, -, hnew, -⟩ := claiming_record hrecord
    exact (put_state io store _ _).imp id fun h => ⟨hnew, h⟩

/-- The start record is written exactly where the caller is told to invoke, or where
the write fails too late. -/
theorem startCommitted_cases :
    ((store.startCommitted codec run expected seen now io).2 = store ∧
      ∀ view, (store.startCommitted codec run expected seen now io).1 ≠ .ok (view, true)) ∨
    ∃ files, store.lookup run = some files ∧ files.starting = none ∧
      codec.admissionDigest files.claimed = expected ∧
      (store.startCommitted codec run expected seen now io).2 =
        store.withStart ⟨run, codec.admissionDigest files.claimed, now⟩ := by
  unfold startCommitted
  split
  · exact .inl ⟨rfl, fun _ h => by cases h⟩
  · exact .inl ⟨rfl, fun _ h => by cases h⟩
  rename_i record hrecord
  obtain ⟨files, hfiles, -, hopen, -, hdigest, -, rfl⟩ := starting_record hrecord
  cases io with
  | ok => exact .inr ⟨files, hfiles, hopen, hdigest, by rw [hdigest]; rfl⟩
  | failsBefore => exact .inl ⟨rfl, fun _ h => by cases h⟩
  | failsAfter => exact .inr ⟨files, hfiles, hopen, hdigest, by rw [hdigest]; rfl⟩

theorem startCommitted_view {invoke : Bool}
    (h : (store.startCommitted codec run expected seen now io).1 = .ok (view, invoke)) :
    (store.startCommitted codec run expected seen now io).2.get codec run = .ok view := by
  unfold startCommitted at h ⊢
  split at h
  · cases h
  · rename_i found hfound
    cases h
    unfold starting at hfound
    split at hfound
    · cases hfound
    rename_i hget
    split at hfound
    · cases hfound
    split at hfound
    · cases hfound
      exact hget
    split at hfound
    · cases hfound
    · cases hfound
  · rename_i record hrecord
    obtain ⟨rfl, hget⟩ := put_ok h
    cases hview : (store.withStart record).get codec run with
    | error e => rw [hview] at hget; cases hget
    | ok current =>
      rw [hview] at hget
      cases hget
      exact hview

theorem startObserved_view (h : store.startObserved codec run expected = .ok view) :
    store.get codec run = .ok view := by
  unfold startObserved at h
  split at h
  · cases h
  split at h
  · cases h
  rename_i hget
  split at h
  · cases h
  · cases h
    exact hget

theorem stop_cases {expectedAdmission expectedStart : String} {outcome : RuntimeOutcome} :
    (store.stop codec run expectedAdmission expectedStart outcome now io).2 = store ∨
    ∃ files start, store.lookup run = some files ∧ files.starting = some start ∧
      files.stopped = none ∧ codec.admissionDigest files.claimed = expectedAdmission ∧
      codec.startDigest start = expectedStart ∧
      (store.stop codec run expectedAdmission expectedStart outcome now io).2 =
        store.withStop ⟨run, codec.admissionDigest files.claimed, codec.startDigest start, outcome,
          now⟩ := by
  unfold stop
  split
  · exact .inl rfl
  · exact .inl rfl
  rename_i record hrecord
  obtain ⟨view, started, hget, hadmission, hstart, hstate, -, -, rfl⟩ := stopping_record hrecord
  obtain ⟨files, hfiles, hreads⟩ := get_ok hget
  obtain ⟨start, hstarting, hstopped, -, hdigest, -⟩ := hreads.of_starting hstate
  rw [hreads.admissionDigest] at hadmission
  rw [hdigest] at hstart
  have hstart := Option.some.inj hstart
  refine (put_state io store _ _).imp id fun h =>
    ⟨files, start, hfiles, hstarting, hstopped, hadmission, hstart, ?_⟩
  rw [h, hadmission, hstart]

/-! What stays on file. -/

/-- The claim is as it was, and so is the start once it is there. -/
def Kept (files files' : AdmissionFiles) : Prop :=
  files'.claimed = files.claimed ∧ ∀ start, files.starting = some start → files'.starting = some start

variable {f : AdmissionFiles → AdmissionFiles} {files : AdmissionFiles}

theorem lookup_rewritten {other : String} (hf : ∀ files, (f files).claimed = files.claimed) :
    ({ store with runs := Table.update (fun files => files.run = run) f store.runs } :
      RuntimeFenceStore).lookup other =
      (store.lookup other).map fun files => if files.run = run then f files else files :=
  Table.lookup_update fun files => by rw [AdmissionFiles.run, hf]; rfl

theorem lookup_rewritten_self (hf : ∀ files, (f files).claimed = files.claimed)
    (hfiles : store.lookup run = some files) :
    ({ store with runs := Table.update (fun files => files.run = run) f store.runs } :
      RuntimeFenceStore).lookup run = some (f files) := by
  rw [lookup_rewritten hf, hfiles, Option.map_some, if_pos (lookup_run hfiles)]

section

variable (h : Change codec store next)
include h

theorem Change.kept (hfiles : store.lookup run = some files) :
    ∃ files', next.lookup run = some files' ∧ Kept files files' := by
  cases h with
  | same => exact ⟨files, hfiles, rfl, fun _ h => h⟩
  | claimed => exact ⟨files, Table.lookup_append_of_some hfiles, rfl, fun _ h => h⟩
  | @started run' found now hfound hopen =>
    rw [withStart, lookup_rewritten (by exact fun _ => rfl), hfiles, Option.map_some]
    refine ⟨_, rfl, ?_⟩
    split
    · rename_i hrun
      refine ⟨rfl, fun start hstart => ?_⟩
      -- the file of this Run is new
      have hrun : run = run' := (lookup_run hfiles).symm.trans hrun
      obtain rfl := Option.mem_unique hfiles (hrun ▸ hfound)
      rw [hopen] at hstart
      cases hstart
    · exact ⟨rfl, fun _ h => h⟩
  | stopped hfound hstart hopen =>
    rw [withStop, lookup_rewritten (by exact fun _ => rfl), hfiles, Option.map_some]
    refine ⟨_, rfl, ?_⟩
    split
    · exact ⟨rfl, fun _ h => h⟩
    · exact ⟨rfl, fun _ h => h⟩

theorem Change.distinct (hd : (store.runs.map AdmissionFiles.run).Nodup) :
    (next.runs.map AdmissionFiles.run).Nodup := by
  cases h with
  | same => exact hd
  | claimed hnew => exact Table.nodup_append hd hnew
  | started => rwa [withStart, Table.map_key_update (by exact fun _ => rfl)]
  | stopped => rwa [withStop, Table.map_key_update (by exact fun _ => rfl)]

/-- A claim on file is new or was there before. -/
theorem Change.claims {files' : AdmissionFiles} (hfiles' : files' ∈ next.runs) :
    (∃ files ∈ store.runs, files'.claimed = files.claimed) ∨
      next = store.withClaim files'.claimed ∧ store.lookup files'.run = none := by
  cases h with
  | same => exact .inl ⟨files', hfiles', rfl⟩
  | claimed hnew =>
    rcases List.mem_append.mp hfiles' with hfiles' | hfiles'
    · exact .inl ⟨files', hfiles', rfl⟩
    · obtain rfl := List.mem_singleton.mp hfiles'
      exact .inr ⟨rfl, hnew⟩
  | started =>
    obtain ⟨files, hfiles, rfl⟩ := List.mem_map.mp hfiles'
    refine .inl ⟨files, hfiles, ?_⟩
    split <;> rfl
  | stopped =>
    obtain ⟨files, hfiles, rfl⟩ := List.mem_map.mp hfiles'
    refine .inl ⟨files, hfiles, ?_⟩
    split <;> rfl

end

end RuntimeFenceStore

/-! ## The process store -/

namespace GovernedProcessStore

variable {codec : ProcessCodec} {store next : GovernedProcessStore} {run : String}
  {K : GovernedProcessIdentity → Prop}

/-- Every process on record is one of `K`, and has its lock while it may run. -/
structure Sound (K : GovernedProcessIdentity → Prop) (store : GovernedProcessStore) : Prop where
  distinct : (store.runs.map ProcessFiles.run).Nodup
  known : ∀ files ∈ store.runs, K files.prepared.identity
  locked : ∀ files ∈ store.runs, files.active ≠ none → files.Live → files.lock = true
  leased : ∀ lease ∈ store.leases, ∃ files, store.lookup lease.identity.runId = some files ∧
    (files.Live → files.lock = true)

theorem Sound.mono (h : store.Sound K) {K' : GovernedProcessIdentity → Prop}
    (hK : ∀ identity, K identity → K' identity) : store.Sound K' :=
  { h with known := fun files hfiles => hK _ (h.known files hfiles) }

theorem Sound.edit (h : store.Sound K) {f : ProcessFiles → ProcessFiles}
    (hf : ∀ files, (f files).prepared = files.prepared)
    (hnext : ∀ files, store.lookup run = some files → (f files).Live →
      files.Live ∧ (f files).lock = files.lock ∧ ((f files).active ≠ none → files.lock = true)) :
    (store.edit run f).Sound K where
  distinct := by
    rw [GovernedProcessStore.edit, Table.map_key_update fun files => by
      rw [ProcessFiles.run, hf]; rfl]
    exact h.distinct
  known := by
    intro files' hfiles'
    obtain ⟨files, hfiles, rfl⟩ := List.mem_map.mp hfiles'
    split
    · rw [hf]
      exact h.known files hfiles
    · exact h.known files hfiles
  locked := Table.forall_update h.distinct h.locked fun files hfiles hactive hlive => by
    obtain ⟨-, hlock, hheld⟩ := hnext files hfiles hlive
    rw [hlock]
    exact hheld hactive
  leased := by
    intro lease hlease
    obtain ⟨files, hfiles, hlive⟩ := h.leased lease hlease
    rw [lookup_edit fun files => by rw [ProcessFiles.run, hf]; rfl, hfiles, Option.map_some]
    refine ⟨_, rfl, ?_⟩
    split
    · rename_i hrun
      intro hlater
      have hrun : lease.identity.runId = run := (lookup_run hfiles).symm.trans hrun
      obtain ⟨hold, hlock, -⟩ := hnext files (hrun ▸ hfiles) hlater
      rw [hlock]
      exact hlive hold
    · exact hlive

/-- What a call leaves of the store, as far as `Sound` goes. -/
def Tends (store next : GovernedProcessStore) : Prop :=
  (∀ K, store.Sound K → next.Sound K) ∧ next.leases = store.leases

theorem Tends.refl (store : GovernedProcessStore) : Tends store store := ⟨fun _ h => h, rfl⟩

variable {identity : GovernedProcessIdentity} {lease : Lease} {n : Nat} {now : Instant}
  {observation : GovernedProcessObservation}

theorem Ends.sound (h : Ends codec run now store next) (hstore : store.Sound K) : next.Sound K := by
  obtain ⟨f, hf, hover, rfl⟩ := h.edits
  exact hstore.edit hf fun files _ hlive => absurd hlive (hover files)

theorem Sound.withoutLock (h : store.Sound K)
    (hover : ∀ files, store.lookup run = some files → ¬ files.Live) :
    (store.withoutLock run).Sound K :=
  h.edit (fun _ => rfl) fun files hfiles hlive => absurd hlive (hover files hfiles)

theorem Closing.tends (h : Closing codec run now store next) : Tends store next := by
  refine ⟨fun K hstore => ?_, h.leases_eq⟩
  cases h with
  | same => exact hstore
  | ended h => exact h.sound hstore
  | released h => exact (h.sound hstore).withoutLock fun _ => h.over
  | unlocked hover => exact hstore.withoutLock hover

/-- The observation of a process goes with the lock that its lease promised. -/
theorem Starts.sound (h : Starts codec observation now store lease next) (hstore : store.Sound K)
    (hlease : lease ∈ store.leases) : next.Sound K := by
  cases h with
  | same => exact hstore
  | active hfiles hlive =>
    obtain ⟨files', hfiles', hlock⟩ := hstore.leased lease hlease
    obtain rfl := Option.mem_unique hfiles hfiles'
    refine hstore.edit (fun _ => rfl) fun found hfound hnow => ?_
    obtain rfl := Option.mem_unique hfiles hfound
    exact ⟨hnow, rfl, fun _ => hlock hlive⟩

theorem Sound.withLease (h : store.Sound K) {lease lease' : Lease} (hlease : lease ∈ store.leases)
    (hidentity : lease'.identity = lease.identity) : (store.withLease n lease').Sound K :=
  { h with
    leased := by
      intro other hother
      rcases List.mem_or_eq_of_mem_set hother with hother | rfl
      · exact h.leased other hother
      · rw [hidentity]
        exact h.leased lease hlease }

variable {P : Lease → GovernedProcessStore → Prop}

theorem OnLease.sound (h : OnLease P n store next) (hstore : store.Sound K)
    (hP : ∀ lease next, lease ∈ store.leases → P lease next →
      next.Sound K ∧ next.leases = store.leases) : next.Sound K := by
  cases h with
  | same => exact hstore
  | changed hlease hidentity h =>
    have hmem := List.mem_of_getElem? hlease
    obtain ⟨hnext, hleases⟩ := hP _ _ hmem h
    rw [← hleases] at hmem
    exact hnext.withLease hmem hidentity

theorem Sound.withPrepared (h : store.Sound K) {record : GovernedProcessPreparedRecord}
    {lock : Bool} (hnew : store.lookup record.identity.runId = none) (hknown : K record.identity) :
    (store.withPrepared record lock).Sound K where
  distinct := Table.nodup_append h.distinct hnew
  known := by
    intro files hfiles
    rcases List.mem_append.mp hfiles with hfiles | hfiles
    · exact h.known files hfiles
    · obtain rfl := List.mem_singleton.mp hfiles
      exact hknown
  locked := by
    intro files hfiles
    rcases List.mem_append.mp hfiles with hfiles | hfiles
    · exact h.locked files hfiles
    · obtain rfl := List.mem_singleton.mp hfiles
      exact fun hactive => absurd rfl hactive
  leased := by
    intro lease hlease
    obtain ⟨files, hfiles, hlive⟩ := h.leased lease hlease
    exact ⟨files, Table.lookup_append_of_some hfiles, hlive⟩

theorem Prepares.sound (h : Prepares codec identity now store next) (hstore : store.Sound K)
    (hknown : K identity) : next.Sound K := by
  have hnext : store.Admits identity → ∀ lock,
      (store.withPrepared (preparation codec store identity now) lock).Sound K :=
    fun hadmits _ => hstore.withPrepared hadmits.new hknown
  cases h with
  | same => exact hstore
  | prepared h => exact hnext h false
  | leased h => exact { hnext h true with leased := leased_withPrepared h hstore.leased }
  | closed h =>
    exact (Ends.abandoned (lookup_withPrepared h.new false) rfl ⟨rfl, rfl⟩).sound (hnext h false)

/-! A lease keeps its place and its identity. -/

def LeasesKept (store next : GovernedProcessStore) : Prop :=
  ∀ (n : Nat) (lease : Lease), store.leases[n]? = some lease →
    ∃ lease' : Lease, next.leases[n]? = some lease' ∧ lease'.identity = lease.identity

theorem LeasesKept.of_eq (h : next.leases = store.leases) : LeasesKept store next :=
  fun _ lease hlease => ⟨lease, h ▸ hlease, rfl⟩

theorem LeasesKept.withLease (h : next.leases = store.leases) {lease lease' : Lease}
    (hlease : store.leases[n]? = some lease) (hidentity : lease'.identity = lease.identity) :
    LeasesKept store (next.withLease n lease') := by
  intro m other hother
  have hset : (next.withLease n lease').leases = store.leases.set n lease' := by
    rw [GovernedProcessStore.withLease, h]
  rw [hset]
  by_cases hm : n = m
  · subst hm
    obtain rfl := Option.mem_unique hlease hother
    exact ⟨lease', List.getElem?_set_self (List.getElem?_eq_some_iff.mp hlease).1, hidentity⟩
  · rw [List.getElem?_set_ne hm]
    exact ⟨other, hother, rfl⟩

theorem Prepares.leasesKept (h : Prepares codec identity now store next) :
    LeasesKept store next := by
  cases h with
  | same | prepared | closed => exact .of_eq rfl
  | leased =>
    intro n lease hlease
    exact ⟨lease, List.getElem?_append_left (List.getElem?_eq_some_iff.mp hlease).1 ▸ hlease, rfl⟩

theorem OnLease.leasesKept (h : OnLease P n store next)
    (hP : ∀ lease next, P lease next → next.leases = store.leases) : LeasesKept store next := by
  cases h with
  | same => exact .of_eq rfl
  | changed hlease hidentity h => exact .withLease (hP _ _ h) hlease hidentity

end GovernedProcessStore

end ConveneWire.Admission
