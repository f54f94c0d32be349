import ConveneWire.Governed.Slots
import ConveneWire.Admission.Changes

/-! # What holds between the three stores

A claim is for the request of the record of its Run, a record is `working` only after
the start is on file, and a process on record is the one of a start on file. Every
action of every routine keeps this, whatever the clocks say and however file
operations go. -/

namespace ConveneWire.Governed

open Bridge (RunSlot RunRequest Record)
open Admission
open RuntimeFenceStore (Kept Change)

/-! ## The invariant -/

/-- The specification is one that the request asks for. -/
def Admits (config : Config) (request : RunRequest) (spec : RuntimeAdmissionSpec) : Prop :=
  ∃ manifest, config.manifest request = some manifest ∧ spec = specOf manifest (localFacts spec)

/-- The start of the Run is on file. -/
def HasStarted (store : RuntimeFenceStore) (run : String) : Prop :=
  ∃ files start, store.lookup run = some files ∧ files.starting = some start

/-- The identity names the claim and the start that are on file. -/
def StartedAs (config : Config) (store : RuntimeFenceStore) (identity : GovernedProcessIdentity) :
    Prop :=
  ∃ files start, store.lookup identity.runId = some files ∧ files.starting = some start ∧
    identity.admissionDigest = config.codec.admissionDigest files.claimed ∧
    identity.startDigest = config.codec.startDigest start

structure Device.Valid (config : Config) (s : Device) : Prop where
  known : s.known.Nodup
  listed : ∀ {run r}, (s.slots run).record = some r → run ∈ s.known
  records : ∀ {run r}, (s.slots run).record = some r → GovernedRecord run r
  working : ∀ {run r}, (s.slots run).record = some r → r.state = .working → HasStarted s.fence run
  distinct : (s.fence.runs.map AdmissionFiles.run).Nodup
  claims : ∀ files ∈ s.fence.runs, ∃ request, Holds request (s.slots files.run) ∧
    Admits config request files.claimed.spec
  processes : s.processes.Sound (StartedAs config s.fence)

/-- What no action takes back. -/
structure Grows (s t : Device) : Prop where
  slots : ∀ run, SlotStep run True (s.slots run) (t.slots run)
  fence : ∀ {run files}, s.fence.lookup run = some files →
    ∃ files', t.fence.lookup run = some files' ∧ Kept files files'
  leases : GovernedProcessStore.LeasesKept s.processes t.processes
  fenced : ∀ entry ∈ s.fenced, entry ∈ t.fenced

variable {config : Config} {n : Nat} {s t : Device} {run : String}
  {identity : GovernedProcessIdentity} {store store' : RuntimeFenceStore}

theorem Device.Valid.empty (owner : Owner) (processOwner : ProcessOwner) :
    (Device.empty owner processOwner).Valid config where
  known := .nil
  listed := fun hr => by cases hr
  records := fun hr => by cases hr
  working := fun hr => by cases hr
  distinct := .nil
  claims := fun _ hfiles => by cases hfiles
  processes := ⟨.nil, fun _ h => (nomatch h), fun _ h => (nomatch h), fun _ h => (nomatch h)⟩

theorem HasStarted.kept (h : HasStarted store run)
    (hkept : ∀ {run files}, store.lookup run = some files →
      ∃ files', store'.lookup run = some files' ∧ Kept files files') : HasStarted store' run := by
  obtain ⟨files, start, hfiles, hstart⟩ := h
  obtain ⟨files', hfiles', -, hsame⟩ := hkept hfiles
  exact ⟨files', start, hfiles', hsame start hstart⟩

theorem StartedAs.kept (h : StartedAs config store identity)
    (hkept : ∀ {run files}, store.lookup run = some files →
      ∃ files', store'.lookup run = some files' ∧ Kept files files') :
    StartedAs config store' identity := by
  obtain ⟨files, start, hfiles, hstart, hadmission, hdigest⟩ := h
  obtain ⟨files', hfiles', hclaimed, hsame⟩ := hkept hfiles
  exact ⟨files', start, hfiles', hsame start hstart, hclaimed ▸ hadmission, hdigest⟩

variable {store : RuntimeFenceStore} {W : Prop}

theorem StartedAs.hasStarted
    (h : StartedAs config store identity) : HasStarted store identity.runId := by
  obtain ⟨files, start, hfiles, hstart, -⟩ := h
  exact ⟨files, start, hfiles, hstart⟩

/-! ## Actions on one store -/

theorem SlotStep.true {a b : RunSlot} (h : SlotStep run W a b) : SlotStep run True a b :=
  { h with working := fun _ _ _ => .inl trivial }

theorem GovernedRecord.of_same {r r' : Record} (h : GovernedRecord run r) (hrun : r'.runId = r.runId)
    (hrequest : r'.request = r.request) : GovernedRecord run r' where
  runId := hrun.trans h.runId
  request := by rw [hrequest]; exact h.request
  governed := by rw [hrequest]; exact h.governed
  valid := by
    have hvalid := h.valid
    unfold Bridge.RuntimeExecutor.validateRecoveryRecord at hvalid ⊢
    rwa [hrun, hrequest]

variable {slot : RunSlot}

@[simp] theorem withSlot_self : (s.withSlot run slot).slots run = slot :=
  Function.update_self ..

theorem withSlot_other {other : String} (h : other ≠ run) :
    (s.withSlot run slot).slots other = s.slots other :=
  Function.update_of_ne h ..

theorem withSlot_grows (h : SlotStep run True (s.slots run) slot) :
    Grows s (s.withSlot run slot) where
  slots := by
    intro other
    by_cases hother : other = run
    · subst hother
      rw [withSlot_self]
      exact h
    · rw [withSlot_other hother]
      exact .refl _
  fence := fun hfiles => ⟨_, hfiles, rfl, fun _ h => h⟩
  leases := .of_eq rfl
  fenced := fun _ h => h

/-- An action on the inbox of one Run. -/
theorem Device.Valid.withSlot (h : s.Valid config) (hstep : SlotStep run W (s.slots run) slot)
    (hW : W → HasStarted s.fence run) : (s.withSlot run slot).Valid config where
  known := by
    change (if run ∈ s.known then s.known else s.known ++ [run]).Nodup
    split
    · exact h.known
    rename_i hnew
    refine h.known.append (List.nodup_singleton _) fun other hother hrun => ?_
    obtain rfl := List.mem_singleton.mp hrun
    exact hnew hother
  listed := by
    intro other r hr
    change other ∈ if run ∈ s.known then s.known else s.known ++ [run]
    by_cases hother : other = run
    · subst hother
      split
      · assumption
      · exact List.mem_append_right _ (List.mem_singleton_self _)
    · rw [withSlot_other hother] at hr
      split
      · exact h.listed hr
      · exact List.mem_append_left _ (h.listed hr)
  records := by
    intro other r hr
    by_cases hother : other = run
    · subst hother
      rw [withSlot_self] at hr
      rcases hstep.fresh r hr with hold | hnew
      · obtain ⟨old, hold⟩ := Option.ne_none_iff_exists'.mp hold
        obtain ⟨r', hr', hrun, hrequest⟩ := hstep.kept old hold
        obtain rfl := Option.mem_unique hr hr'
        exact (h.records hold).of_same hrun hrequest
      · exact hnew
    · rw [withSlot_other hother] at hr
      exact h.records hr
  working := by
    intro other r hr hw
    by_cases hother : other = run
    · subst hother
      rw [withSlot_self] at hr
      rcases hstep.working r hr hw with hstarted | ⟨old, hold, hold'⟩
      · exact hW hstarted
      · exact h.working hold hold'
    · rw [withSlot_other hother] at hr
      exact h.working hr hw
  distinct := h.distinct
  claims := by
    intro files hfiles
    obtain ⟨request, hholds, hadmits⟩ := h.claims files hfiles
    exact ⟨request, holds_kept ((withSlot_grows hstep.true).slots files.run) hholds, hadmits⟩
  processes := h.processes

/-- A file of the fence is written. -/
theorem Device.Valid.withFence (h : s.Valid config) (hchange : Change config.codec s.fence store)
    (hclaim : ∀ {record}, store = s.fence.withClaim record →
      s.fence.lookup record.spec.runId = none →
      ∃ request, Holds request (s.slots record.spec.runId) ∧ Admits config request record.spec)
    (hslots : t.slots = s.slots) (hknown : t.known = s.known) (hfence : t.fence = store)
    (hprocesses : t.processes = s.processes) : t.Valid config where
  known := hknown ▸ h.known
  listed := by
    rw [hslots, hknown]
    exact h.listed
  records := by
    rw [hslots]
    exact h.records
  working := by
    rw [hslots, hfence]
    exact fun hr hw => (h.working hr hw).kept hchange.kept
  distinct := hfence ▸ hchange.distinct h.distinct
  claims := by
    intro files hfiles
    rw [hfence] at hfiles
    rw [hslots]
    rcases hchange.claims hfiles with ⟨old, hold, hsame⟩ | ⟨hnew, hnone⟩
    · obtain ⟨request, hholds, hadmits⟩ := h.claims old hold
      rw [AdmissionFiles.run, hsame]
      exact ⟨request, hholds, hadmits⟩
    · exact hclaim hnew hnone
  processes := by
    rw [hfence, hprocesses]
    exact h.processes.mono fun _ hidentity => hidentity.kept hchange.kept

theorem withFence_grows (hchange : Change config.codec s.fence store)
    (hslots : t.slots = s.slots) (hfence : t.fence = store) (hprocesses : t.processes = s.processes)
    (hfenced : t.fenced = s.fenced) : Grows s t where
  slots := fun _ => hslots ▸ .refl _
  fence := fun hfiles => hfence ▸ hchange.kept hfiles
  leases := hprocesses ▸ .of_eq rfl
  fenced := fun _ h => hfenced ▸ h

/-- The process store is changed, and all that it knows is started. -/
theorem Device.Valid.withProcesses (h : s.Valid config) (hslots : t.slots = s.slots)
    (hknown : t.known = s.known) (hfence : t.fence = s.fence)
    (hprocesses : t.processes.Sound (StartedAs config s.fence)) : t.Valid config where
  known := hknown ▸ h.known
  listed := by
    rw [hslots, hknown]
    exact h.listed
  records := by
    rw [hslots]
    exact h.records
  working := by
    rw [hslots, hfence]
    exact h.working
  distinct := hfence ▸ h.distinct
  claims := by
    rw [hslots, hfence]
    exact h.claims
  processes := hfence.symm ▸ hprocesses

theorem withProcesses_grows (hslots : t.slots = s.slots) (hfence : t.fence = s.fence)
    (hleases : GovernedProcessStore.LeasesKept s.processes t.processes)
    (hfenced : t.fenced = s.fenced) : Grows s t where
  slots := fun _ => hslots ▸ .refl _
  fence := fun hfiles => ⟨_, hfence ▸ hfiles, rfl, fun _ h => h⟩
  leases := hleases
  fenced := fun _ h => hfenced ▸ h

end ConveneWire.Governed
