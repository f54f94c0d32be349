import Mathlib.Data.List.AList
import Mathlib.Logic.Function.Basic
import ConveneWire.Lib.Process

/-! # Files that survive a crash

A volume has a root directory and subdirectories of it. Each directory has its
entries in memory and the entries the disk has since the last sync of that
directory; each file has its bytes and a mark whether the disk has them. A crash
leaves, entry by entry, what memory or what the disk had, and arbitrary bytes in
a file that was not synced.

`Tracked` adds a ledger: what the completed writes have put at each path, and the
write that is under way. `Invariant` says that, unless a watched file is not
synced, every crash leaves at each watched path what the ledger says. -/

namespace DurableFs

open Concurrent (Process Contract)

structure File (B : Type) where
  bytes : B
  synced : Bool
  deriving DecidableEq, Repr

/-- A name in the root directory (`none`) or in a subdirectory of it. -/
structure Path (S N : Type) where
  directory : Option S
  name : N
  deriving DecidableEq, Repr

/-- The entries of a directory: names of files. -/
abbrev Directory (N : Type) := AList fun _ : N => Nat

structure Volume (S N B : Type) where
  entries : Option S → Directory N
  durable : Option S → Directory N
  files : Nat → File B
  next : Nat
  present : S → Bool
  durablePresent : S → Bool

namespace Volume

variable {S N B : Type} [DecidableEq N]

def empty [Inhabited B] : Volume S N B :=
  ⟨fun _ => ∅, fun _ => ∅, fun _ => ⟨default, false⟩, 0, fun _ => false, fun _ => false⟩

section

variable (v : Volume S N B)

def find (p : Path S N) : Option Nat := (v.entries p.directory).lookup p.name

def findDurable (p : Path S N) : Option Nat :=
  (v.durable p.directory).lookup p.name

def read (p : Path S N) : Option B := (v.find p).map fun i => (v.files i).bytes

def hasDirectory (directory : Option S) : Bool := directory.all v.present

end

/-! ## Operations -/

section Operations

variable [DecidableEq S]

section

variable (v : Volume S N B)

def mkdir (s : S) : Volume S N B :=
  { v with present := Function.update v.present s true }

/-- The entry of `p` in memory. -/
def setEntry (p : Path S N) (i : Nat) : Volume S N B :=
  let directory := (v.entries p.directory).insert p.name i
  { v with entries := Function.update v.entries p.directory directory }

def remove (p : Path S N) : Volume S N B :=
  let directory := (v.entries p.directory).erase p.name
  { v with entries := Function.update v.entries p.directory directory }

def setFile (i : Nat) (file : File B) : Volume S N B :=
  { v with files := Function.update v.files i file }

/-- A new file without content, named `p`. -/
def create (p : Path S N) (blank : B) : Volume S N B :=
  { (v.setFile v.next ⟨blank, false⟩).setEntry p v.next with next := v.next + 1 }

def write (i : Nat) (bytes : B) : Volume S N B := v.setFile i ⟨bytes, false⟩

def sync (i : Nat) : Volume S N B := v.setFile i ⟨(v.files i).bytes, true⟩

/-- The file `i`, so far named `p`, is named `q` instead. -/
def rename (p q : Path S N) (i : Nat) : Volume S N B := (v.remove p).setEntry q i

/-- The disk gets the entries of the directory; for the root, also of its subdirectories. -/
def syncDirectory (directory : Option S) : Volume S N B :=
  { v with
    durable := Function.update v.durable directory (v.entries directory)
    durablePresent := if directory = none then v.present else v.durablePresent }

end

section

variable (v : Volume S N B)
include v

@[simp] theorem find_setEntry (p : Path S N) (i : Nat) : (v.setEntry p i).find p = some i := by
  simp [find, setEntry]

theorem find_setEntry_ne {p q : Path S N} (h : q ≠ p) (i : Nat) :
    (v.setEntry p i).find q = v.find q := by
  by_cases hd : q.directory = p.directory
  · have hn : q.name ≠ p.name := fun hn => h (by cases p; cases q; simp_all)
    simp [find, setEntry, hd, AList.lookup_insert_ne hn]
  · simp [find, setEntry, Function.update_of_ne hd]

@[simp] theorem find_remove (p : Path S N) : (v.remove p).find p = none := by
  simp [find, remove]

theorem find_remove_ne {p q : Path S N} (h : q ≠ p) : (v.remove p).find q = v.find q := by
  by_cases hd : q.directory = p.directory
  · have hn : q.name ≠ p.name := fun hn => h (by cases p; cases q; simp_all)
    simp [find, remove, hd, AList.lookup_erase_ne hn]
  · simp [find, remove, Function.update_of_ne hd]

theorem findDurable_syncDirectory (directory : Option S) (p : Path S N) :
    (v.syncDirectory directory).findDurable p =
      if p.directory = directory then v.find p else v.findDurable p := by
  by_cases h : p.directory = directory
  · simp [findDurable, syncDirectory, find, h]
  · simp [findDurable, syncDirectory, h]

end

end Operations

/-! ## Crashes -/

/-- Memory or the disk has `x` as the entry of `p`. -/
def View (v : Volume S N B) (p : Path S N) (x : Option Nat) : Prop :=
  v.find p = x ∨ v.findDurable p = x

/-- The disk has the bytes of every file that `p` may name. -/
def Synced (v : Volume S N B) (p : Path S N) : Prop :=
  ∀ i, v.View p (some i) → (v.files i).synced = true

/-- Whatever `p` may name has content that `A` allows. -/
def Shows (v : Volume S N B) (p : Path S N) (A : Option B → Prop) : Prop :=
  ∀ x, v.View p x → A (x.map fun i => (v.files i).bytes)

/-- Entries name files that exist, in directories that exist. -/
structure Consistent (v : Volume S N B) : Prop where
  bounded : ∀ p i, v.View p (some i) → i < v.next
  housed : ∀ p i, v.View p (some i) → v.hasDirectory p.directory = true

/-- What may be left of `v`. -/
structure Crash (v w : Volume S N B) : Prop where
  present : ∀ s, w.present s = v.present s ∨ w.present s = v.durablePresent s
  kept : ∀ p, w.hasDirectory p.directory = true → v.View p (w.find p)
  gone : ∀ p, w.hasDirectory p.directory = false → w.find p = none
  bytes : ∀ i, (v.files i).synced = true → (w.files i).bytes = (v.files i).bytes
  synced : ∀ i, (w.files i).synced = true
  durable : ∀ p, w.findDurable p = w.find p
  durablePresent : w.durablePresent = w.present
  next : w.next = v.next

/-- Every subdirectory is on the disk. -/
def Rooted (v : Volume S N B) : Prop := ∀ s, v.present s = true → v.durablePresent s = true

variable {v w : Volume S N B} {p : Path S N} {A A' : Option B → Prop}

theorem Shows.mono (h : v.Shows p A) (hA : ∀ o, A o → A' o) : v.Shows p A' :=
  fun x hx => hA _ (h x hx)

theorem Shows.read (h : v.Shows p A) : A (v.read p) := h _ (.inl rfl)

theorem Crash.view (h : Crash v w) {x : Option Nat} (hx : w.View p x) : w.find p = x := by
  rcases hx with hx | hx
  · exact hx
  · rw [← h.durable p]
    exact hx

/-- A name survives with its directory, and a directory that is on the disk survives. -/
theorem Crash.view_of_rooted (h : Crash v w) (hv : v.Consistent) (hroot : v.Rooted) :
    v.View p (w.find p) := by
  cases hdir : w.hasDirectory p.directory with
  | true => exact h.kept p hdir
  | false =>
    rw [h.gone p hdir]
    left
    cases hfind : v.find p with
    | none => rfl
    | some i =>
      have hhoused := hv.housed p i (.inl hfind)
      cases hd : p.directory with
      | none => simp [hasDirectory, hd] at hdir
      | some s =>
        simp only [hasDirectory, hd, Option.all_some] at hhoused hdir
        rcases h.present s with hs | hs
        · rw [hs, hhoused] at hdir
          cases hdir
        · rw [hs, hroot s hhoused] at hdir
          cases hdir

/-- What a crash leaves at a path is one of the contents it showed. -/
theorem Crash.read (h : Crash v w) (hv : v.Consistent) (hroot : v.Rooted) (hsync : v.Synced p)
    (hshow : v.Shows p A) : A (w.read p) := by
  have hview := h.view_of_rooted hv hroot (p := p)
  have hbytes := hshow _ hview
  cases hfind : w.find p with
  | none => simpa [Volume.read, hfind] using hbytes
  | some i =>
    rw [hfind] at hview
    simpa [Volume.read, hfind, h.bytes i (hsync i hview)] using hbytes

theorem Crash.shows (h : Crash v w) : w.Shows p (· = w.read p) := by
  intro x hx
  rw [Volume.read, h.view hx]

theorem Crash.consistent (h : Crash v w) (hv : v.Consistent) : w.Consistent := by
  have hhoused : ∀ p i, w.View p (some i) → w.hasDirectory p.directory = true := by
    intro p i hi
    by_contra hdir
    have hgone := h.gone p (by simpa using hdir)
    rw [h.view hi] at hgone
    cases hgone
  refine ⟨fun p i hi => ?_, hhoused⟩
  rw [h.next]
  exact hv.bounded p i (h.view hi ▸ h.kept p (hhoused p i hi))

/-! ### What each operation shows -/

section Operations

variable [DecidableEq S] {q : Path S N} {i j : Nat} {x : Option Nat}

theorem view_setEntry_ne (h : q ≠ p) : (v.setEntry p i).View q x ↔ v.View q x := by
  unfold View
  rw [find_setEntry_ne v h]
  rfl

theorem view_remove_ne (h : q ≠ p) : (v.remove p).View q x ↔ v.View q x := by
  unfold View
  rw [find_remove_ne v h]
  rfl

theorem view_create_ne {blank : B} (h : q ≠ p) : (v.create p blank).View q x ↔ v.View q x :=
  view_setEntry_ne h

theorem view_rename_ne {r : Path S N} (hq : q ≠ p) (hr : q ≠ r) :
    (v.rename p r i).View q x ↔ v.View q x :=
  (view_setEntry_ne hr).trans (view_remove_ne hq)

/-- After the sync of a directory the disk has what memory has. -/
theorem view_syncDirectory {directory : Option S} (h : (v.syncDirectory directory).View q x) :
    v.View q x := by
  rcases h with h | h
  · exact .inl h
  rw [findDurable_syncDirectory] at h
  split at h
  · exact .inl h
  · exact .inr h

theorem view_syncDirectory_self (h : (v.syncDirectory p.directory).View p x) : v.find p = x := by
  rcases h with h | h
  · exact h
  · rwa [findDurable_syncDirectory, if_pos rfl] at h

omit [DecidableEq S] in
theorem Consistent.of_view (h : v.Consistent)
    (hview : ∀ q i, w.View q (some i) → v.View q (some i)) (hnext : v.next ≤ w.next)
    (hpresent : ∀ s, v.present s = true → w.present s = true) : w.Consistent := by
  refine ⟨fun q i hi => Nat.lt_of_lt_of_le (h.bounded q i (hview q i hi)) hnext, fun q i hi => ?_⟩
  have hhoused := h.housed q i (hview q i hi)
  cases hd : q.directory with
  | none => rfl
  | some s =>
    rw [hd] at hhoused
    exact hpresent s hhoused

/-- One more entry, of a file that exists in a directory that exists. -/
theorem Consistent.of_view_ne (h : v.Consistent)
    (hview : ∀ q i, q ≠ p → w.View q (some i) → v.View q (some i))
    (hp : ∀ i, w.View p (some i) → i < w.next) (hdir : v.hasDirectory p.directory = true)
    (hnext : v.next ≤ w.next) (hpresent : w.present = v.present) : w.Consistent := by
  have hhas : ∀ d, w.hasDirectory d = v.hasDirectory d := fun d => by
    unfold hasDirectory
    rw [hpresent]
  refine ⟨fun q i hi => ?_, fun q i hi => ?_⟩
  · by_cases hq : q = p
    · exact hp i (hq ▸ hi)
    · exact Nat.lt_of_lt_of_le (h.bounded q i (hview q i hq hi)) hnext
  rw [hhas]
  by_cases hq : q = p
  · rw [hq]
    exact hdir
  · exact h.housed q i (hview q i hq hi)

end Operations

end Volume

/-! ## The ledger of completed writes -/

/-- A volume, what the completed writes left at each path (`none`: no file), and the
write that was announced last. -/
structure Tracked (S N B : Type) where
  volume : Volume S N B
  saved : Path S N → Option B
  writing : Option (Path S N × Option B)

namespace Tracked

variable {S N B : Type} [DecidableEq N]

/-- What may be found at `p`: the last completed write or the announced one. -/
def Allowed (t : Tracked S N B) (p : Path S N) (o : Option B) : Prop :=
  o = t.saved p ∨ t.writing = some (p, o)

/-- Memory and disk have the content `o` at `p`. -/
structure Fixed (v : Volume S N B) (p : Path S N) (o : Option B) : Prop where
  synced : v.Synced p
  shows : v.Shows p (· = o)

def Intact (t : Tracked S N B) (p : Path S N) : Prop := Fixed t.volume p (t.saved p)

variable (V : Path S N → Prop) (Good : Path S N → Option B → Prop)

/-- Contents are good, and unless a watched file is not synced, memory and disk have
allowed contents at the watched paths. -/
structure Invariant (t : Tracked S N B) : Prop where
  consistent : t.volume.Consistent
  good : ∀ p o, V p → t.Allowed p o → Good p o
  shows : (∀ p, V p → t.volume.Synced p) → ∀ p, V p → t.volume.Shows p (t.Allowed p)

/-- No write is half done. -/
structure Settled (t : Tracked S N B) : Prop where
  consistent : t.volume.Consistent
  good : ∀ p o, V p → t.Allowed p o → Good p o
  intact : ∀ p, V p → t.Intact p

/-- Everything but `p`, to which `o` is being written, is as it was saved. -/
structure Writing (p : Path S N) (o : Option B) (t : Tracked S N B) : Prop where
  consistent : t.volume.Consistent
  good : ∀ q o, V q → t.Allowed q o → Good q o
  others : ∀ q, V q → q ≠ p → t.Intact q
  writing : t.writing = some (p, o)

/-- The file `i` with the new content of `target` is prepared under the name `p`, which is
`target` itself or a name that is not watched. -/
structure Draft (target p : Path S N) (bytes : B) (i : Nat) (t : Tracked S N B) : Prop where
  base : Writing V Good target (some bytes) t
  find : t.volume.find p = some i
  sole : ∀ q, t.volume.View q (some i) → q = p
  honest : (t.volume.files i).synced = true → (t.volume.files i).bytes = bytes
  fresh : V p → p = target ∧ t.saved p = none ∧ t.volume.findDurable p = none
  unwatched : ¬ V p → V target → t.Intact target

/-- The new content stands at `p`; the disk has it or what was saved. -/
structure Landing (p : Path S N) (o : Option B) (t : Tracked S N B) : Prop where
  base : Writing V Good p o t
  synced : t.volume.Synced p
  shows : t.volume.Shows p (t.Allowed p)
  read : t.volume.read p = o

/-- The disk has the new content, too. -/
structure Landed (p : Path S N) (o : Option B) (t : Tracked S N B) : Prop where
  base : Writing V Good p o t
  fixed : Fixed t.volume p o

variable {V Good} {t u : Tracked S N B} {p q target : Path S N} {o : Option B} {bytes : B} {i : Nat}
  {w : Volume S N B}

theorem Intact.allowed (h : t.Intact p) : t.volume.Shows p (t.Allowed p) :=
  h.shows.mono fun _ ho => .inl ho

/-- An intact path that shows the same entries of the same files stays intact. -/
theorem Intact.of_view (h : t.Intact p) (hsaved : u.saved p = t.saved p)
    (hview : ∀ x, u.volume.View p x → t.volume.View p x)
    (hfiles : ∀ i, t.volume.View p (some i) → u.volume.files i = t.volume.files i) : u.Intact p := by
  refine ⟨fun i hi => ?_, fun x hx => ?_⟩
  · rw [hfiles i (hview _ hi)]
    exact h.synced i (hview _ hi)
  have hshown := h.shows x (hview x hx)
  rw [hsaved, ← hshown]
  cases x with
  | none => rfl
  | some i =>
    rw [Option.map_some, Option.map_some, hfiles i (hview _ hx)]

/-- Nothing is named where nothing was saved. -/
theorem Intact.view_none (h : t.Intact p) (hnone : t.saved p = none) {x : Option Nat}
    (hx : t.volume.View p x) : x = none := by
  have hshown := h.shows x hx
  rw [hnone] at hshown
  exact Option.map_eq_none_iff.mp hshown

theorem Intact.read (h : t.Intact p) : t.volume.read p = t.saved p := h.shows.read

theorem Settled.invariant (h : Settled V Good t) : Invariant V Good t :=
  ⟨h.consistent, h.good, fun _ p hp => (h.intact p hp).allowed⟩

/-- Only the path being written is left to look at. -/
theorem Writing.invariant (h : Writing V Good p o t)
    (hp : V p → (∀ q, V q → t.volume.Synced q) → t.volume.Shows p (t.Allowed p)) :
    Invariant V Good t := by
  refine ⟨h.consistent, h.good, fun hsync q hq => ?_⟩
  by_cases hqp : q = p
  · rw [hqp] at hq ⊢
    exact hp hq hsync
  · exact (h.others q hq hqp).allowed

theorem Draft.invariant (h : Draft V Good target p bytes i t) : Invariant V Good t := by
  refine h.base.invariant fun htarget hsync => ?_
  by_cases hp : V p
  · obtain ⟨rfl, hnone, hfresh⟩ := h.fresh hp
    rintro x (hx | hx)
    · -- what is named here is the draft: allowed if synced
      obtain rfl := h.find.symm.trans hx
      right
      rw [h.base.writing, Option.map_some, h.honest (hsync p hp i (.inl hx))]
    · left
      rw [hnone, ← hx, hfresh]
      rfl
  · exact (h.unwatched hp htarget).allowed

theorem Landing.invariant (h : Landing V Good p o t) : Invariant V Good t :=
  h.base.invariant fun _ _ => h.shows

theorem Landed.invariant (h : Landed V Good p o t) : Invariant V Good t :=
  h.base.invariant fun _ _ => h.fixed.shows.mono fun _ ho => .inr (ho ▸ h.base.writing)

/-! ### From phase to phase -/

section Phases

variable [DecidableEq S]

def onVolume (t : Tracked S N B) (f : Volume S N B → Volume S N B) : Tracked S N B :=
  { t with volume := f t.volume }

/-- A write of `o` to `p` begins. -/
def announce (t : Tracked S N B) (p : Path S N) (o : Option B) : Tracked S N B :=
  { t with writing := some (p, o) }

/-- The write of `o` to `p` has been completed. -/
def settle (t : Tracked S N B) (p : Path S N) (o : Option B) : Tracked S N B :=
  { t with saved := Function.update t.saved p o, writing := none }

omit [DecidableEq S] in
theorem Settled.announce (h : Settled V Good t) (hgood : V p → Good p o) :
    Settled V Good (t.announce p o) := by
  refine ⟨h.consistent, fun q x hq hx => ?_, h.intact⟩
  rcases hx with hx | hx
  · exact h.good q x hq (.inl hx)
  · obtain ⟨rfl, rfl⟩ := Prod.mk.inj (Option.some.inj hx)
    exact hgood hq

theorem Settled.mkdir (h : Settled V Good t) (s : S) : Settled V Good (t.onVolume (·.mkdir s)) := by
  refine ⟨?_, h.good, fun p hp => (h.intact p hp).of_view rfl (fun _ hx => hx) fun _ _ => rfl⟩
  refine h.consistent.of_view (fun _ _ hi => hi) (Nat.le_refl _) fun s' hs' => ?_
  by_cases hs : s' = s
  · simp [onVolume, Volume.mkdir, hs]
  · simpa [onVolume, Volume.mkdir, hs] using hs'

theorem Settled.create (h : Settled V Good t) {blank : B}
    (hwriting : t.writing = some (target, some bytes))
    (hdir : t.volume.hasDirectory p.directory = true) (hp : V p → p = target ∧ t.saved p = none) :
    Draft V Good target p bytes t.volume.next (t.onVolume (·.create p blank)) := by
  have hview : ∀ q x, q ≠ p → ((t.volume.create p blank).View q x ↔ t.volume.View q x) :=
    fun q x hq => Volume.view_create_ne hq
  have hfile : ∀ q i, t.volume.View q (some i) →
      (t.volume.create p blank).files i = t.volume.files i := fun q i hi =>
    Function.update_of_ne (Nat.ne_of_lt (h.consistent.bounded q i hi)) _ _
  have hintact : ∀ q, V q → q ≠ p → (t.onVolume (·.create p blank)).Intact q := fun q hq hqp =>
    (h.intact q hq).of_view rfl (fun x => (hview q x hqp).mp) (hfile q)
  have hself : ∀ j, (t.volume.create p blank).View p (some j) → j < t.volume.next + 1 := by
    rintro j (hj | hj)
    · have hnew : (t.volume.create p blank).find p = some t.volume.next :=
        Volume.find_setEntry _ _ _
      obtain rfl := Option.mem_unique hnew hj
      exact Nat.lt_succ_self _
    · exact Nat.lt_succ_of_lt (h.consistent.bounded p j (.inr hj))
  refine ⟨⟨?_, h.good, fun q hq hqt => ?_, hwriting⟩, Volume.find_setEntry _ _ _, fun q hq => ?_,
    fun hsync => ?_, fun hv => ?_, fun hv htarget => ?_⟩
  · exact h.consistent.of_view_ne (fun q i hq => (hview q (some i) hq).mp) hself hdir
      (Nat.le_succ _) rfl
  · by_cases hqp : q = p
    · exact absurd (hqp.trans (hp (hqp ▸ hq)).1) hqt
    · exact hintact q hq hqp
  · by_contra hqp
    exact absurd (h.consistent.bounded q _ ((hview q _ hqp).mp hq)) (Nat.lt_irrefl _)
  · simp [onVolume, Volume.create, Volume.setEntry, Volume.setFile] at hsync
  · exact ⟨(hp hv).1, (hp hv).2, (h.intact p hv).view_none (hp hv).2 (.inr rfl)⟩
  · exact hintact target htarget fun heq => hv (heq ▸ htarget)

/-- A change of the drafted file alone. -/
theorem Draft.setFile (h : Draft V Good target p bytes i t) (file : File B)
    (hfile : file.synced = true → file.bytes = bytes) :
    Draft V Good target p bytes i (t.onVolume (·.setFile i file)) := by
  have hintact : ∀ q, q ≠ p → t.Intact q → (t.onVolume (·.setFile i file)).Intact q := by
    intro q hqp hq
    refine hq.of_view rfl (fun _ hx => hx) fun j hj => ?_
    have hji : j ≠ i := fun hji => hqp (h.sole q (hji ▸ hj))
    exact Function.update_of_ne hji _ _
  refine ⟨⟨?_, h.base.good, fun q hq hqt => ?_, h.base.writing⟩, h.find, h.sole, ?_, h.fresh,
    fun hv htarget => ?_⟩
  · exact h.base.consistent.of_view (fun _ _ hi => hi) (Nat.le_refl _) fun _ hs => hs
  · by_cases hqp : q = p
    · exact absurd (hqp.trans (h.fresh (hqp ▸ hq)).1) hqt
    · exact hintact q hqp (h.base.others q hq hqt)
  · simpa [onVolume, Volume.setFile] using hfile
  · exact hintact target (fun heq => hv (heq ▸ htarget)) (h.unwatched hv htarget)

omit [DecidableEq S] in
/-- A synced draft that has the name of its target. -/
theorem Draft.land (h : Draft V Good target target bytes i t)
    (hfile : t.volume.files i = ⟨bytes, true⟩) (hv : V target) :
    Landing V Good target (some bytes) t := by
  obtain ⟨-, hnone, hfresh⟩ := h.fresh hv
  refine ⟨h.base, fun j hj => ?_, ?_, ?_⟩
  · rcases hj with hj | hj
    · obtain rfl := Option.mem_unique h.find hj
      rw [hfile]
    · rw [hfresh] at hj
      cases hj
  · rintro x (hx | hx)
    · obtain rfl := h.find.symm.trans hx
      right
      rw [h.base.writing, Option.map_some, hfile]
    · left
      rw [hnone, ← hx, hfresh]
      rfl
  · rw [Volume.read, h.find, Option.map_some, hfile]

/-- A synced draft under another name that takes the name of its target. -/
theorem Draft.rename (h : Draft V Good target p bytes i t)
    (hfile : t.volume.files i = ⟨bytes, true⟩) (hp : ¬ V p) (hv : V target)
    (hdir : t.volume.hasDirectory target.directory = true) :
    Landing V Good target (some bytes) (t.onVolume (·.rename p target i)) := by
  have hfind : (t.volume.rename p target i).find target = some i := Volume.find_setEntry _ _ _
  have hview : ∀ q x, q ≠ p → q ≠ target →
      ((t.volume.rename p target i).View q x ↔ t.volume.View q x) :=
    fun q x hq hqt => Volume.view_rename_ne hq hqt
  -- the old name may still be on the disk
  have hold : ∀ x, (t.volume.rename p target i).View target x →
      x = some i ∨ t.volume.View target x := by
    rintro x (hx | hx)
    · exact .inl (hx.symm.trans hfind)
    · exact .inr (.inr hx)
  have hintact := h.unwatched hp hv
  refine ⟨⟨?_, h.base.good, fun q hq hqt => ?_, h.base.writing⟩, fun j hj => ?_, fun x hx => ?_, ?_⟩
  · refine h.base.consistent.of_view_ne (p := target) (fun q j hqt hj => ?_) (fun j hj => ?_) hdir
      (Nat.le_refl _) rfl
    · by_cases hqp : q = p
      · rcases hj with hj | hj
        · have hgone : (t.volume.rename p target i).find q = none := by
            rw [Volume.rename, Volume.find_setEntry_ne _ hqt, hqp]
            exact Volume.find_remove _ _
          exact absurd (hgone.symm.trans hj) (by simp)
        · exact .inr hj
      · exact (hview q _ hqp hqt).mp hj
    · rcases hold _ hj with hj | hj
      · obtain rfl := Option.some.inj hj
        exact h.base.consistent.bounded p _ (.inl h.find)
      · exact h.base.consistent.bounded target j hj
  · have hqp : q ≠ p := fun heq => hp (heq ▸ hq)
    exact (h.base.others q hq hqt).of_view rfl (fun x => (hview q x hqp hqt).mp) fun _ _ => rfl
  · change (t.volume.files j).synced = true
    rcases hold _ hj with hj | hj
    · obtain rfl := Option.some.inj hj
      rw [hfile]
    · exact hintact.synced j hj
  · change t.Allowed target (x.map fun i => (t.volume.files i).bytes)
    rcases hold x hx with rfl | hx
    · right
      rw [h.base.writing, Option.map_some, hfile]
    · exact hintact.allowed x hx
  · change ((t.volume.rename p target i).find target).map _ = _
    rw [hfind, Option.map_some]
    exact congrArg (fun file => some file.bytes) hfile

/-- The file of an announced removal goes. -/
theorem Settled.remove (h : Settled V Good t) (hwriting : t.writing = some (p, none)) (hv : V p) :
    Landing V Good p none (t.onVolume (·.remove p)) := by
  have hold : ∀ x, (t.volume.remove p).View p x → x = none ∨ t.volume.View p x := by
    rintro x (hx | hx)
    · exact .inl (hx.symm.trans (Volume.find_remove _ _))
    · exact .inr (.inr hx)
  refine ⟨⟨?_, h.good, fun q hq hqp => ?_, hwriting⟩, fun j hj => ?_, fun x hx => ?_, ?_⟩
  · refine h.consistent.of_view (fun q j hj => ?_) (Nat.le_refl _) fun _ hs => hs
    by_cases hqp : q = p
    · obtain rfl := hqp
      rcases hold _ hj with hj | hj
      · cases hj
      · exact hj
    · exact (Volume.view_remove_ne hqp).mp hj
  · exact (h.intact q hq).of_view rfl (fun x => (Volume.view_remove_ne hqp).mp) fun _ _ => rfl
  · rcases hold _ hj with hj | hj
    · cases hj
    · exact (h.intact p hv).synced j hj
  · rcases hold x hx with rfl | hx
    · exact .inr hwriting
    · exact (h.intact p hv).allowed x hx
  · change ((t.volume.remove p).find p).map _ = _
    rw [Volume.find_remove]
    rfl

theorem Writing.syncDirectory (h : Writing V Good p o t) (directory : Option S) :
    Writing V Good p o (t.onVolume (·.syncDirectory directory)) := by
  refine ⟨?_, h.good, fun q hq hqp => ?_, h.writing⟩
  · exact h.consistent.of_view (fun _ _ hi => Volume.view_syncDirectory hi) (Nat.le_refl _)
      fun _ hs => hs
  · exact (h.others q hq hqp).of_view rfl (fun _ hx => Volume.view_syncDirectory hx) fun _ _ => rfl

theorem Landing.syncDirectory (h : Landing V Good p o t) :
    Landed V Good p o (t.onVolume (·.syncDirectory p.directory)) := by
  refine ⟨h.base.syncDirectory p.directory, fun j hj => ?_, fun x hx => ?_⟩
  · exact h.synced j (.inl (Volume.view_syncDirectory_self hj))
  · have hread := h.read
    rwa [Volume.read, Volume.view_syncDirectory_self hx] at hread

/-- Removing a name that is not watched. -/
theorem Landed.remove (h : Landed V Good p o t) (hq : ¬ V q) (hp : V p) :
    Landed V Good p o (t.onVolume (·.remove q)) := by
  have hview : ∀ r x, V r → ((t.volume.remove q).View r x ↔ t.volume.View r x) :=
    fun r x hr => Volume.view_remove_ne fun heq => hq (heq ▸ hr)
  refine ⟨⟨?_, h.base.good, fun r hr hrp => ?_, h.base.writing⟩, fun j hj => ?_, fun x hx => ?_⟩
  · refine h.base.consistent.of_view (fun r j hj => ?_) (Nat.le_refl _) fun _ hs => hs
    by_cases hrq : r = q
    · obtain rfl := hrq
      rcases hj with hj | hj
      · exact absurd ((Volume.find_remove t.volume r).symm.trans hj) (by simp)
      · exact .inr hj
    · exact (Volume.view_remove_ne hrq).mp hj
  · exact (h.base.others r hr hrp).of_view rfl (fun x => (hview r x hr).mp) fun _ _ => rfl
  · exact h.fixed.synced j ((hview p _ hp).mp hj)
  · exact h.fixed.shows x ((hview p x hp).mp hx)

@[simp] theorem saved_settle : (t.settle p o).saved p = o := Function.update_self ..

theorem saved_settle_ne (h : q ≠ p) : (t.settle p o).saved q = t.saved q :=
  Function.update_of_ne h ..

theorem Landed.settle (h : Landed V Good p o t) : Settled V Good (t.settle p o) := by
  refine ⟨h.base.consistent, fun q x hq hx => ?_, fun q hq => ?_⟩
  · rcases hx with hx | hx
    · by_cases hqp : q = p
      · obtain rfl := hqp
        rw [saved_settle] at hx
        exact h.base.good q x hq (.inr (hx ▸ h.base.writing))
      · rw [saved_settle_ne hqp] at hx
        exact h.base.good q x hq (.inl hx)
    · cases hx
  · by_cases hqp : q = p
    · obtain rfl := hqp
      rw [Intact, saved_settle]
      exact h.fixed
    · rw [Intact, saved_settle_ne hqp]
      exact h.base.others q hq hqp

end Phases

/-! ### After a crash -/

/-- The ledger of what a crash has left: a write under way counts if it is there. -/
def restart [DecidableEq S] [DecidableEq B] (t : Tracked S N B) (w : Volume S N B) :
    Tracked S N B where
  volume := w
  saved := fun p => if t.writing = some (p, w.read p) then w.read p else t.saved p
  writing := none

/-- A crash of a rooted volume whose watched files are synced loses nothing but the write
under way, and that only as a whole. -/
theorem Invariant.crash (h : Invariant V Good t) (hcrash : Volume.Crash t.volume w)
    (hroot : t.volume.Rooted) (hsync : ∀ p, V p → t.volume.Synced p) (hp : V p) :
    t.Allowed p (w.read p) :=
  hcrash.read h.consistent hroot (hsync p hp) (h.shows hsync p hp)

theorem Invariant.restart [DecidableEq S] [DecidableEq B] (h : Invariant V Good t)
    (hcrash : Volume.Crash t.volume w) (hroot : t.volume.Rooted)
    (hsync : ∀ p, V p → t.volume.Synced p) : Settled V Good (t.restart w) := by
  have hread : ∀ p, V p → (t.restart w).saved p = w.read p := by
    intro p hp
    rcases h.crash hcrash hroot hsync hp with hsaved | hwriting
    · simp [Tracked.restart, hsaved]
    · simp [Tracked.restart, hwriting]
  refine ⟨hcrash.consistent h.consistent, fun p o hp ho => ?_, fun p hp => ?_⟩
  · rcases ho with rfl | ho
    · rw [hread p hp]
      exact h.good p _ hp (h.crash hcrash hroot hsync hp)
    · cases ho
  · rw [Intact, hread p hp]
    exact ⟨fun i _ => hcrash.synced i, hcrash.shows⟩

end Tracked

/-! ## Operations as processes -/

/-- A sequence of operations of the one process that uses the volume. -/
abbrev Operations (S N B : Type) := Process (Tracked S N B) Unit

namespace Operations

variable {S N B α : Type} [DecidableEq S] [DecidableEq N]

/-- An operation that succeeds. -/
def update (f : Tracked S N B → Tracked S N B) : Operations S N B Unit :=
  .step fun t _ => (.ok (), f t)

def observe (f : Tracked S N B → α) : Operations S N B α := .step fun t _ => (.ok (f t), t)

def read (p : Path S N) : Operations S N B (Option B) := observe fun t => t.volume.read p

def announce (p : Path S N) (o : Option B) : Operations S N B Unit := update (·.announce p o)

def settle (p : Path S N) (o : Option B) : Operations S N B Unit := update (·.settle p o)

/-- Creates a file under a name that is not in use and may depend on the file. -/
def create (p : Nat → Path S N) (blank : B) : Operations S N B Nat :=
  .step fun t _ =>
    let i := t.volume.next
    if t.volume.hasDirectory (p i).directory ∧ t.volume.find (p i) = none then
      (.ok i, t.onVolume (·.create (p i) blank))
    else (.error "file could not be created", t)

def write (i : Nat) (bytes : B) : Operations S N B Unit := update (·.onVolume (·.write i bytes))

def sync (i : Nat) : Operations S N B Unit := update (·.onVolume (·.sync i))

def rename (p q : Path S N) (i : Nat) : Operations S N B Unit :=
  update (·.onVolume (·.rename p q i))

def remove (p : Path S N) : Operations S N B Unit := update (·.onVolume (·.remove p))

def mkdir (s : S) : Operations S N B Unit := update (·.onVolume (·.mkdir s))

def syncDirectory (directory : Option S) : Operations S N B Unit :=
  update (·.onVolume (·.syncDirectory directory))

section Rules

variable (V : Path S N → Prop) (Good : Path S N → Option B → Prop) (F : Tracked S N B → Prop)

omit [DecidableEq S] in
/-- Nobody else uses the volume, and the invariant holds after every operation. -/
def journaled : Contract (Tracked S N B) where
  rely := fun _ _ => False
  guar := fun _ t => Tracked.Invariant V Good t
  fails := F

variable {V Good F} {P : Tracked S N B → Prop} {Q : α → Tracked S N B → Prop}

omit [DecidableEq S] in
theorem step_spec {f : Tracked S N B → Unit → Except String α × Tracked S N B}
    (hinv : ∀ t, P t → Tracked.Invariant V Good (f t ()).2)
    (hok : ∀ t a, P t → (f t ()).1 = .ok a → Q a (f t ()).2)
    (herr : ∀ t e, P t → (f t ()).1 = .error e → F (f t ()).2) :
    (journaled V Good F).Triple P (Process.step f) Q :=
  .step (fun t _ => hinv t) (fun t _ => hok t) (fun _ _ _ h => h.elim) (fun t _ => herr t)
    fun _ _ h => h.elim

omit [DecidableEq S] in
theorem update_spec {f : Tracked S N B → Tracked S N B} {R : Tracked S N B → Prop}
    (h : ∀ t, P t → Tracked.Invariant V Good (f t) ∧ R (f t)) :
    (journaled V Good F).Triple P (update f) fun _ => R :=
  step_spec (fun t ht => (h t ht).1) (fun t _ ht _ => (h t ht).2) fun _ _ _ herr => by cases herr

omit [DecidableEq S] in
theorem observe_spec {f : Tracked S N B → α} (hP : ∀ t, P t → Tracked.Settled V Good t) :
    (journaled V Good F).Triple P (observe f) fun a t => P t ∧ a = f t :=
  step_spec (fun t ht => (hP t ht).invariant)
    (fun t a ht ha => ⟨ht, (Except.ok.inj ha).symm⟩) fun _ _ _ herr => by cases herr

end Rules

end Operations

end DurableFs
