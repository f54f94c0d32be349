import Mathlib.Data.List.Nodup
import Mathlib.Logic.Function.Basic
import ConveneWire.Lib.Program

/-! # The rolling memory of a Room

Workers take turns under a lease to extend the summary of a Room by checkpoints
(`RollingRoomMemoryRepository`). Tables are functions of their primary key. -/

namespace ConveneWire.Memory

open Transactional Relation

inductive RollingRoomMode where
  | disabled
  | backfilling
  | ready
  | degraded
  deriving DecidableEq

inductive RollingRoomBuildKind where
  | incremental
  | rebase
  deriving DecidableEq

structure RollingRoomCheckpoint where
  checkpointId : String
  roomId : String
  parentCheckpointId : Option String
  inputFromSequenceExclusive : Nat
  throughSequence : Nat
  sourceMessageCount : Nat
  buildKind : RollingRoomBuildKind

/-- `leaseToken` and `leaseExpiresAt`, which are null together. -/
structure Lease where
  token : String
  expiresAt : Int
  deriving DecidableEq

structure RollingRoomState where
  mode : RollingRoomMode
  latestCheckpointId : Option String
  latestThroughSequence : Nat
  desiredThroughSequence : Nat
  generation : Nat
  lease : Option Lease

/-- What happened to the lease of a Room. -/
inductive LeaseEvent where
  | leased (generation : Nat) (lease : Lease)
  | committed (generation : Nat) (token : String) (now : Int)
  | released

structure Store where
  rooms : String → Option RollingRoomState
  checkpoints : String → Option RollingRoomCheckpoint
  /-- The events of every Room, the latest first, of which the source keeps no record. -/
  log : List (String × LeaseEvent)

def Store.empty : Store := ⟨fun _ => none, fun _ => none, []⟩

namespace Store

/-! ## The repository -/

section

variable (s : Store)

def requireState (roomId : String) : Except String RollingRoomState :=
  match s.rooms roomId with
  | none => .error ("Rolling Room state not found: " ++ roomId)
  | some state => .ok state

def withState (roomId : String) (state : RollingRoomState) : Store :=
  { s with rooms := Function.update s.rooms roomId (some state) }

def noting (roomId : String) (event : LeaseEvent) : Store :=
  { s with log := (roomId, event) :: s.log }

def withCheckpoint (checkpoint : RollingRoomCheckpoint) : Store :=
  { s with checkpoints :=
      Function.update s.checkpoints checkpoint.checkpointId (some checkpoint) }

variable (roomId : String)

/-- `rooms_create_rolling_room_state`. -/
def createRoom : Except String Store := do
  require (s.rooms roomId = none) "UNIQUE constraint failed: rooms.room_id"
  .ok (s.withState roomId ⟨.disabled, none, 0, 0, 0, none⟩)

/-- `messages_advance_rolling_room_desired`. -/
def message (sequence : Nat) : Except String Store := do
  let state ← s.requireState roomId
  .ok (s.withState roomId { state with
    desiredThroughSequence := max state.desiredThroughSequence sequence })

def enable : Except String Store := do
  let state ← s.requireState roomId
  .ok (s.withState roomId { state with
    mode := if state.latestCheckpointId = none then .backfilling else .ready })

def disable : Except String Store := do
  let state ← s.requireState roomId
  .ok ((s.withState roomId { state with mode := .disabled, lease := none }).noting roomId .released)

def acquireLease (lease : Lease) (now : Int) : Except String Store := do
  require (now < lease.expiresAt) "Rolling Room lease is invalid"
  match s.rooms roomId with
  | none => .ok s
  | some state =>
    if state.mode ≠ .disabled ∧ state.latestThroughSequence < state.desiredThroughSequence ∧
        state.lease.all (·.expiresAt ≤ now) then
      .ok ((s.withState roomId { state with
        generation := state.generation + 1, lease := some lease }).noting roomId
          (.leased (state.generation + 1) lease))
    else .ok s

end

/-- The row after a commit. -/
def checkpointed (state : RollingRoomState) (checkpoint : RollingRoomCheckpoint) :
    RollingRoomState :=
  { state with
    mode := .ready
    latestCheckpointId := some checkpoint.checkpointId
    latestThroughSequence := checkpoint.throughSequence
    lease := none }

def extends? (checkpoint : RollingRoomCheckpoint) (state : RollingRoomState) :
    Except String Unit :=
  match checkpoint.buildKind with
  | .incremental => require (checkpoint.parentCheckpointId = state.latestCheckpointId ∧
      checkpoint.inputFromSequenceExclusive = state.latestThroughSequence)
      "Incremental checkpoint must extend the current latest checkpoint"
  | .rebase => require (checkpoint.inputFromSequenceExclusive = 0)
      "Rebase checkpoint must start at sequence zero"

def commitCheckpoint (s : Store) (checkpoint : RollingRoomCheckpoint) (expectedGeneration : Nat)
    (leaseToken : String) (now : Int) : Except String Store := do
  let state ← s.requireState checkpoint.roomId
  require (state.generation = expectedGeneration ∧
    state.lease.any fun lease => lease.token = leaseToken ∧ now < lease.expiresAt)
    "Rolling Room checkpoint lease is stale"
  require (checkpoint.throughSequence ≤ state.desiredThroughSequence ∧
    state.latestThroughSequence ≤ checkpoint.throughSequence)
    "Rolling Room checkpoint is outside the desired watermark"
  extends? checkpoint state
  require (checkpoint.inputFromSequenceExclusive + checkpoint.sourceMessageCount =
    checkpoint.throughSequence) "Checkpoint source count does not match its input interval"
  -- the constraints of the table
  require (s.checkpoints checkpoint.checkpointId = none ∧ 0 < checkpoint.sourceMessageCount)
    "constraint failed: rolling_room_checkpoints"
  .ok (((s.withCheckpoint checkpoint).withState checkpoint.roomId (checkpointed state checkpoint)
    ).noting checkpoint.roomId (.committed expectedGeneration leaseToken now))

def recordFailure (s : Store) (roomId : String) (expectedGeneration : Nat) (leaseToken : String) :
    Except String Store := do
  let state ← s.requireState roomId
  require (state.generation = expectedGeneration ∧ state.lease.any (·.token = leaseToken))
    "Rolling Room failure lost its lease fence"
  .ok ((s.withState roomId { state with mode := .degraded, lease := none }).noting roomId .released)

end Store

/-- A call that succeeds; the others change nothing. -/
inductive Step (s t : Store) : Prop
  | createRoom (roomId : String) (h : s.createRoom roomId = .ok t)
  | message (roomId : String) (sequence : Nat) (h : s.message roomId sequence = .ok t)
  | enable (roomId : String) (h : s.enable roomId = .ok t)
  | disable (roomId : String) (h : s.disable roomId = .ok t)
  | acquireLease (roomId : String) (lease : Lease) (now : Int)
      (h : s.acquireLease roomId lease now = .ok t)
  | commitCheckpoint (checkpoint : RollingRoomCheckpoint) (expectedGeneration : Nat)
      (leaseToken : String) (now : Int)
      (h : s.commitCheckpoint checkpoint expectedGeneration leaseToken now = .ok t)
  | recordFailure (roomId : String) (expectedGeneration : Nat) (leaseToken : String)
      (h : s.recordFailure roomId expectedGeneration leaseToken = .ok t)

/-! ## What a call does -/

namespace Store

variable {s t : Store} {roomId : String} {state : RollingRoomState}
  {checkpoint : RollingRoomCheckpoint}

/-- The checkpoint goes on from the latest one, or starts over. -/
def Extends (checkpoint : RollingRoomCheckpoint) (state : RollingRoomState) : Prop :=
  checkpoint.buildKind = .incremental ∧
      checkpoint.parentCheckpointId = state.latestCheckpointId ∧
      checkpoint.inputFromSequenceExclusive = state.latestThroughSequence ∨
    checkpoint.buildKind = .rebase ∧ checkpoint.inputFromSequenceExclusive = 0

inductive Effect (s : Store) : Store → Prop
  | same : Effect s s
  | created {roomId : String} (hnew : s.rooms roomId = none) :
      Effect s (s.withState roomId ⟨.disabled, none, 0, 0, 0, none⟩)
  | kept {roomId : String} {state : RollingRoomState} (h : s.rooms roomId = some state)
      (mode : RollingRoomMode) (desiredThroughSequence : Nat) :
      Effect s (s.withState roomId { state with mode, desiredThroughSequence })
  | released {roomId : String} {state : RollingRoomState} (h : s.rooms roomId = some state)
      (mode : RollingRoomMode) :
      Effect s ((s.withState roomId { state with mode, lease := none }).noting roomId .released)
  | leased {roomId : String} {state : RollingRoomState} (h : s.rooms roomId = some state)
      (lease : Lease) :
      Effect s ((s.withState roomId { state with
        generation := state.generation + 1, lease := some lease }).noting roomId
          (.leased (state.generation + 1) lease))
  | committed {state : RollingRoomState} {checkpoint : RollingRoomCheckpoint} {lease : Lease}
      {now : Int} (h : s.rooms checkpoint.roomId = some state) (hlease : state.lease = some lease)
      (hnow : now < lease.expiresAt)
      (hlatest : state.latestThroughSequence ≤ checkpoint.throughSequence)
      (hextends : Extends checkpoint state)
      (hpos : checkpoint.inputFromSequenceExclusive < checkpoint.throughSequence)
      (hnew : s.checkpoints checkpoint.checkpointId = none) :
      Effect s (((s.withCheckpoint checkpoint).withState checkpoint.roomId
        (checkpointed state checkpoint)).noting checkpoint.roomId
          (.committed state.generation lease.token now))

theorem requireState_eq_ok : s.requireState roomId = .ok state ↔ s.rooms roomId = some state := by
  unfold requireState
  split <;> simp [*]

theorem extends?_ok {u : Unit} (h : extends? checkpoint state = .ok u) :
    Extends checkpoint state := by
  unfold extends? at h
  split at h
  · exact .inl ⟨‹_›, require_ok h⟩
  · exact .inr ⟨‹_›, require_ok h⟩

theorem step_effect (h : Step s t) : Effect s t := by
  cases h with
  | createRoom roomId h =>
    simp only [createRoom, bind_eq_ok, require_eq_ok] at h
    obtain ⟨⟨⟩, hnew, h⟩ := h
    cases h
    exact .created hnew
  | message roomId sequence h =>
    simp only [message, bind_eq_ok, requireState_eq_ok] at h
    obtain ⟨state, hstate, h⟩ := h
    cases h
    exact .kept hstate state.mode _
  | enable roomId h =>
    simp only [enable, bind_eq_ok, requireState_eq_ok] at h
    obtain ⟨state, hstate, h⟩ := h
    cases h
    exact .kept hstate _ state.desiredThroughSequence
  | disable roomId h =>
    simp only [disable, bind_eq_ok, requireState_eq_ok] at h
    obtain ⟨state, hstate, h⟩ := h
    cases h
    exact .released hstate _
  | acquireLease roomId lease now h =>
    simp only [acquireLease, bind_eq_ok, require_eq_ok] at h
    obtain ⟨⟨⟩, -, h⟩ := h
    split at h
    · cases h
      exact .same
    split at h
    · cases h
      exact .leased ‹_› lease
    · cases h
      exact .same
  | commitCheckpoint checkpoint expectedGeneration leaseToken now h =>
    simp only [commitCheckpoint, bind_eq_ok, require_eq_ok, requireState_eq_ok] at h
    obtain ⟨state, hstate, ⟨⟩, ⟨rfl, hlease⟩, ⟨⟩, hwatermark, ⟨⟩, hextends, ⟨⟩, hcount, ⟨⟩,
      ⟨hnew, hpos⟩, h⟩ := h
    cases h
    cases hheld : state.lease with
    | none => simp [hheld] at hlease
    | some lease =>
      rw [hheld] at hlease
      obtain ⟨rfl, hnow⟩ := of_decide_eq_true hlease
      exact .committed hstate hheld hnow hwatermark.2 (extends?_ok hextends) (by omega) hnew
  | recordFailure roomId expectedGeneration leaseToken h =>
    simp only [recordFailure, bind_eq_ok, require_eq_ok, requireState_eq_ok] at h
    obtain ⟨state, hstate, ⟨⟩, -, h⟩ := h
    cases h
    exact .released hstate _

end Store

/-! ## Checkpoints -/

/-- The checkpoints from one of them through incremental builds to a root or a rebase. -/
inductive Chain (checkpoints : String → Option RollingRoomCheckpoint) :
    String → List RollingRoomCheckpoint → Prop
  | root {id : String} {checkpoint : RollingRoomCheckpoint}
      (h : checkpoints id = some checkpoint)
      (hroot : checkpoint.buildKind = .rebase ∨ checkpoint.parentCheckpointId = none) :
      Chain checkpoints id [checkpoint]
  | next {id parent : String} {checkpoint : RollingRoomCheckpoint}
      {chain : List RollingRoomCheckpoint} (h : checkpoints id = some checkpoint)
      (hkind : checkpoint.buildKind = .incremental)
      (hparent : checkpoint.parentCheckpointId = some parent)
      (hchain : Chain checkpoints parent chain) : Chain checkpoints id (checkpoint :: chain)

/-- The intervals follow one another without gaps from `1` to `through`. -/
def Tiles (through : Nat) : List RollingRoomCheckpoint → Prop
  | [] => through = 0
  | checkpoint :: older => checkpoint.throughSequence = through ∧
      checkpoint.inputFromSequenceExclusive < through ∧
      Tiles checkpoint.inputFromSequenceExclusive older

def TilesFrom (checkpoints : String → Option RollingRoomCheckpoint) (through : Nat) :
    Option String → Prop
  | none => through = 0
  | some id => ∃ chain, Chain checkpoints id chain ∧ Tiles through chain

namespace Store

variable {s t : Store} {checkpoint : RollingRoomCheckpoint}

section

variable (hnew : s.checkpoints checkpoint.checkpointId = none)
include hnew

theorem withCheckpoint_of_some {row : RollingRoomCheckpoint} {id : String}
    (h : s.checkpoints id = some row) :
    (s.withCheckpoint checkpoint).checkpoints id = some row := by
  have hne : id ≠ checkpoint.checkpointId := by
    rintro rfl
    rw [hnew] at h
    cases h
  exact (Function.update_of_ne hne ..).trans h

theorem TilesFrom.withCheckpoint {through : Nat} {latest : Option String}
    (h : TilesFrom s.checkpoints through latest) :
    TilesFrom (s.withCheckpoint checkpoint).checkpoints through latest := by
  cases latest with
  | none => exact h
  | some id =>
    obtain ⟨chain, hchain, htiles⟩ := h
    refine ⟨chain, ?_, htiles⟩
    clear htiles
    induction hchain with
    | root h hroot => exact .root (withCheckpoint_of_some hnew h) hroot
    | next h hkind hparent _ ih => exact .next (withCheckpoint_of_some hnew h) hkind hparent ih

/-- A checkpoint that extends the latest one tiles up to its own end. -/
theorem TilesFrom.extended {state : RollingRoomState}
    (h : TilesFrom s.checkpoints state.latestThroughSequence state.latestCheckpointId)
    (hextends : Extends checkpoint state)
    (hpos : checkpoint.inputFromSequenceExclusive < checkpoint.throughSequence) :
    TilesFrom (s.withCheckpoint checkpoint).checkpoints checkpoint.throughSequence
      (some checkpoint.checkpointId) := by
  have hself : (s.withCheckpoint checkpoint).checkpoints checkpoint.checkpointId =
      some checkpoint := Function.update_self ..
  rcases hextends with ⟨hkind, hparent, hfrom⟩ | ⟨hkind, hzero⟩
  · have hbefore := TilesFrom.withCheckpoint hnew h
    cases hlatest : state.latestCheckpointId with
    | none =>
      rw [hlatest] at hbefore hparent
      exact ⟨[checkpoint], .root hself (.inr hparent), rfl, hpos, hfrom.trans hbefore⟩
    | some parent =>
      rw [hlatest] at hbefore hparent
      obtain ⟨chain, hchain, htiles⟩ := hbefore
      exact ⟨checkpoint :: chain, .next hself hkind hparent hchain, rfl, hpos, hfrom ▸ htiles⟩
  · exact ⟨[checkpoint], .root hself (.inl hkind), rfl, hpos, hzero⟩

end

/-! ## Leases -/

def latestEvent (roomId : String) (log : List (String × LeaseEvent)) : Option LeaseEvent :=
  (log.find? fun entry => entry.1 = roomId).map Prod.snd

/-- Every commit came while the lease it was made under was the latest event of its Room
and had not expired. -/
def Backed : List (String × LeaseEvent) → Prop
  | [] => True
  | (roomId, .committed generation token now) :: earlier =>
    (∃ lease, latestEvent roomId earlier = some (.leased generation lease) ∧
      lease.token = token ∧ now < lease.expiresAt) ∧ Backed earlier
  | _ :: earlier => Backed earlier

/-- The Room and the generation of a commit. -/
def committed? : String × LeaseEvent → Option (String × Nat)
  | (roomId, .committed generation _ _) => some (roomId, generation)
  | _ => none

structure Valid (s : Store) : Prop where
  tiles : ∀ {roomId state}, s.rooms roomId = some state →
    TilesFrom s.checkpoints state.latestThroughSequence state.latestCheckpointId
  lease : ∀ {roomId state lease}, s.rooms roomId = some state → state.lease = some lease →
    latestEvent roomId s.log = some (.leased state.generation lease)
  before : ∀ {roomId generation}, (roomId, generation) ∈ s.log.filterMap committed? →
    ∃ state, s.rooms roomId = some state ∧ generation ≤ state.generation ∧
      (state.lease ≠ none → generation < state.generation)
  once : (s.log.filterMap committed?).Nodup
  backed : Backed s.log

variable {roomId : String} {state : RollingRoomState} {log : List (String × LeaseEvent)}
  {other : String}

theorem latestEvent_cons {event : LeaseEvent} :
    latestEvent other ((roomId, event) :: log) =
      if roomId = other then some event else latestEvent other log := by
  unfold latestEvent
  rw [List.find?_cons]
  split <;> rename_i h <;> simp at h <;> simp [h]

variable {row : RollingRoomState}

theorem withState_some (h : (s.withState roomId state).rooms other = some row) :
    other = roomId ∧ row = state ∨ other ≠ roomId ∧ s.rooms other = some row := by
  dsimp only [withState] at h
  by_cases hroom : other = roomId
  · subst hroom
    rw [Function.update_self] at h
    exact .inl ⟨rfl, (Option.some.inj h).symm⟩
  · rw [Function.update_of_ne hroom] at h
    exact .inr ⟨hroom, h⟩

/-- The row of a Room is written, with what happened to its lease. -/
theorem Valid.write (h : s.Valid) {checkpoints : String → Option RollingRoomCheckpoint}
    (hold : ∀ {through latest}, TilesFrom s.checkpoints through latest →
      TilesFrom checkpoints through latest)
    (htiles : TilesFrom checkpoints state.latestThroughSequence state.latestCheckpointId)
    (hother : ∀ {other}, other ≠ roomId → latestEvent other log = latestEvent other s.log)
    (hlease : ∀ lease, state.lease = some lease →
      latestEvent roomId log = some (.leased state.generation lease))
    (hcommits : ∀ {other generation}, (other, generation) ∈ log.filterMap committed? →
      other ≠ roomId ∧ (other, generation) ∈ s.log.filterMap committed? ∨ other = roomId ∧
        generation ≤ state.generation ∧ (state.lease ≠ none → generation < state.generation))
    (honce : (log.filterMap committed?).Nodup) (hbacked : Backed log) :
    Valid ⟨Function.update s.rooms roomId (some state), checkpoints, log⟩ where
  tiles := fun hrow => by
    rcases withState_some hrow with ⟨-, rfl⟩ | ⟨-, hrow⟩
    · exact htiles
    · exact hold (h.tiles hrow)
  lease := fun hrow hheld => by
    rcases withState_some hrow with ⟨rfl, rfl⟩ | ⟨hne, hrow⟩
    · exact hlease _ hheld
    · exact (hother hne).trans (h.lease hrow hheld)
  before := fun hmem => by
    rcases hcommits hmem with ⟨hne, hmem⟩ | ⟨rfl, hle⟩
    · obtain ⟨row, hrow, hle⟩ := h.before hmem
      exact ⟨row, (Function.update_of_ne hne ..).trans hrow, hle⟩
    · exact ⟨state, Function.update_self .., hle⟩
  once := honce
  backed := hbacked

/-- The commits of a Room whose row goes on to a generation that is not earlier. -/
theorem Valid.commits (h : s.Valid) (hrow : s.rooms roomId = some row) {g generation : Nat}
    {lease : Option Lease} (hle : row.generation ≤ g)
    (hlt : lease ≠ none → row.lease ≠ none ∨ row.generation < g)
    (hmem : (other, generation) ∈ s.log.filterMap committed?) :
    other ≠ roomId ∧ (other, generation) ∈ s.log.filterMap committed? ∨
      other = roomId ∧ generation ≤ g ∧ (lease ≠ none → generation < g) := by
  by_cases hroom : other = roomId
  · subst hroom
    obtain ⟨found, hfound, hbound, hstrict⟩ := h.before hmem
    cases hrow.symm.trans hfound
    refine .inr ⟨rfl, Nat.le_trans hbound hle, fun hheld => ?_⟩
    rcases hlt hheld with hheld | hlt
    · exact Nat.lt_of_lt_of_le (hstrict hheld) hle
    · omega
  · exact .inl ⟨hroom, hmem⟩

theorem Effect.valid (he : Effect s t) (h : s.Valid) : t.Valid := by
  cases he with
  | same => exact h
  | created hnew =>
    refine h.write id rfl (fun _ => rfl) (fun _ hlease => by cases hlease) (fun hmem => ?_)
      h.once h.backed
    refine .inl ⟨?_, hmem⟩
    rintro rfl
    obtain ⟨row, hrow, -⟩ := h.before hmem
    cases hnew.symm.trans hrow
  | kept hrow =>
    have htiles := h.tiles hrow
    have hheld := fun lease => @h.lease _ _ lease hrow
    exact h.write id htiles (fun _ => rfl) hheld
      (fun hmem => h.commits hrow (Nat.le_refl _) .inl hmem) h.once h.backed
  | released hrow =>
    have htiles := h.tiles hrow
    refine h.write id htiles (fun hne => latestEvent_cons.trans (if_neg (Ne.symm hne)))
      (fun _ hlease => by cases hlease) (fun hmem => ?_) h.once h.backed
    exact h.commits hrow (Nat.le_refl _) (fun hheld => absurd rfl hheld) hmem
  | leased hrow lease =>
    have htiles := h.tiles hrow
    refine h.write id htiles (fun hne => latestEvent_cons.trans (if_neg (Ne.symm hne)))
      (fun held hheld => ?_) (fun hmem => ?_) h.once h.backed
    · cases hheld
      exact latestEvent_cons.trans (if_pos rfl)
    · exact h.commits hrow (Nat.le_succ _) (fun _ => .inr (Nat.lt_succ_self _)) hmem
  | @committed row checkpoint lease now hrow hlease hnow hlatest hextends hpos hnew =>
    have hheld : row.lease ≠ none := by rw [hlease]; exact Option.some_ne_none lease
    refine h.write (TilesFrom.withCheckpoint hnew)
      (TilesFrom.extended hnew (h.tiles hrow) hextends hpos)
      (fun hne => latestEvent_cons.trans (if_neg (Ne.symm hne))) (fun _ hlease => by cases hlease)
      (fun {other generation} hmem => ?_) ?_ ⟨⟨lease, h.lease hrow hlease, rfl, hnow⟩, h.backed⟩
    · rcases List.mem_cons.mp hmem with heq | hmem
      · cases heq
        exact .inr ⟨rfl, Nat.le_refl _, fun hne => absurd rfl hne⟩
      · exact h.commits hrow (Nat.le_refl _) (fun hne => absurd rfl hne) hmem
    · -- every earlier commit of the Room is of an earlier generation
      refine List.nodup_cons.mpr ⟨fun hmem => ?_, h.once⟩
      obtain ⟨found, hfound, -, hstrict⟩ := h.before hmem
      cases hrow.symm.trans hfound
      exact absurd (hstrict hheld) (Nat.lt_irrefl _)

theorem Valid.empty : Store.empty.Valid where
  tiles := fun h => by cases h
  lease := fun h => by cases h
  before := fun h => by cases h
  once := List.nodup_nil
  backed := trivial

/-- No call moves the cursor of a Room back. -/
theorem Effect.latest (he : Effect s t) (hrow : s.rooms roomId = some row) :
    ∃ row', t.rooms roomId = some row' ∧
      row.latestThroughSequence ≤ row'.latestThroughSequence := by
  have hput : ∀ {other : String} {before after : RollingRoomState}, s.rooms other = some before →
      before.latestThroughSequence ≤ after.latestThroughSequence →
      ∃ row', (s.withState other after).rooms roomId = some row' ∧
        row.latestThroughSequence ≤ row'.latestThroughSequence := by
    intro other before after hbefore hle
    by_cases hroom : roomId = other
    · subst hroom
      cases hrow.symm.trans hbefore
      exact ⟨after, Function.update_self .., hle⟩
    · exact ⟨row, (Function.update_of_ne hroom ..).trans hrow, Nat.le_refl _⟩
  cases he with
  | same => exact ⟨row, hrow, Nat.le_refl _⟩
  | created hnew =>
    have hroom : roomId ≠ _ := fun hroom => by rw [hroom, hnew] at hrow; cases hrow
    exact ⟨row, (Function.update_of_ne hroom ..).trans hrow, Nat.le_refl _⟩
  | kept h | released h | leased h => exact hput h (Nat.le_refl _)
  | committed h _ _ hlatest => exact hput h hlatest

end Store

open Store

/-- In every run: no cursor goes back, a generation commits once, commits are made under
the latest and unexpired lease only, and the chain of the latest checkpoint tiles the
sequences up to the cursor. -/
theorem rolling_memory_chain {s : Store} (hrun : ReflTransGen Step .empty s) :
    (∀ t, Step s t → ∀ roomId row, s.rooms roomId = some row → ∃ row',
      t.rooms roomId = some row' ∧ row.latestThroughSequence ≤ row'.latestThroughSequence) ∧
    (s.log.filterMap committed?).Nodup ∧ Backed s.log ∧ ∀ roomId row, s.rooms roomId = some row →
      TilesFrom s.checkpoints row.latestThroughSequence row.latestCheckpointId := by
  have hpreserved : Transition.Preserved Step Valid := fun _ _ hstep h => (step_effect hstep).valid h
  have hvalid : s.Valid := hpreserved.run hrun .empty
  exact ⟨fun _ hstep _ _ hrow => (step_effect hstep).latest hrow, hvalid.once, hvalid.backed,
    fun _ _ hrow => hvalid.tiles hrow⟩

theorem sample_memory_chain : ∃ s row, ReflTransGen Step .empty s ∧ s.rooms "room" = some row ∧
    row.latestThroughSequence = 2 ∧
    TilesFrom s.checkpoints row.latestThroughSequence row.latestCheckpointId := by
  have hrun : ReflTransGen Step .empty _ :=
    ((((ReflTransGen.refl.tail (.createRoom "room" rfl)).tail (.message "room" 2 rfl)).tail
      (.enable "room" rfl)).tail (.acquireLease "room" ⟨"lease_0000000001", 60⟩ 0 rfl)).tail
      (.commitCheckpoint ⟨"checkpoint_1", "room", none, 0, 2, 2, .incremental⟩ 1
        "lease_0000000001" 5 rfl)
  exact ⟨_, _, hrun, rfl, rfl, (rolling_memory_chain hrun).2.2.2 "room" _ rfl⟩

end ConveneWire.Memory
