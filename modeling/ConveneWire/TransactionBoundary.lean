import ConveneWire.Lib.Table
import Mathlib.Algebra.GroupWithZero.Nat
import Mathlib.Data.List.MinMax

/-! # Work deferred to the commit of a SQLite transaction

`SqliteTransactionBoundary.immediate` nests, an inner call being a savepoint of the
outer one, and `afterCommit` defers work until the outermost call has committed. A
scope that throws takes back what was registered in it; what its enclosing scope had
chosen for a key before is chosen again. -/

namespace ConveneWire.TransactionBoundary

/-- A key of the callback map: the caller's, or the symbol the call made. -/
inductive Key where
  | named (key : String)
  | symbol (call : Nat)
deriving DecidableEq

/-- An entry of the callback map. Priorities are numbers other than NaN, so any linear
order does. -/
structure DeferredWork (π ω : Type*) where
  key : Key
  priority : π
  work : ω

/-- A connection with its `TransactionState`. The map is in insertion order; `calls`
numbers the registrations, so that each makes a new symbol, and `ran` is the work done.
A connection without a state is as one with the state `immediate` creates for it. -/
structure Connection (π ω : Type*) where
  callbacks : List (DeferredWork π ω) := []
  depth : Nat := 0
  managedRoot : Bool := false
  inTransaction : Bool := false
  calls : Nat := 0
  ran : List ω := []

/-- The key of a registration: `options.key ?? Symbol("afterCommit")`. -/
def keyOf (key : Option String) (call : Nat) : Key :=
  key.elim (.symbol call) .named

variable {π ω : Type*} [LinearOrder π]

/-- `callbacks.set`, unless the entry of the key has at least this priority. -/
def register (callbacks : List (DeferredWork π ω)) (new : DeferredWork π ω) :
    List (DeferredWork π ω) :=
  match Table.lookup DeferredWork.key new.key callbacks with
  | none => callbacks ++ [new]
  | some existing =>
    if existing.priority < new.priority then
      Table.update (·.key = new.key)
        (fun entry => { entry with priority := new.priority, work := new.work }) callbacks
    else callbacks

section

variable {callbacks : List (DeferredWork π ω)} {new : DeferredWork π ω}

theorem nodup_register (hd : (callbacks.map DeferredWork.key).Nodup) :
    ((register callbacks new).map DeferredWork.key).Nodup := by
  unfold register
  split
  · exact Table.nodup_append hd ‹_›
  split
  · rw [Table.map_key_update]
    · exact hd
    · exact fun _ => rfl
  · exact hd

theorem lookup_register_self :
    Table.lookup DeferredWork.key new.key (register callbacks new) =
      match Table.lookup DeferredWork.key new.key callbacks with
      | none => some new
      | some existing => if existing.priority < new.priority then some new else some existing := by
  unfold register
  split
  · rename_i hnone
    rw [Table.lookup_append_self rfl hnone]
  rename_i existing hsome
  split
  · have hkey := Table.lookup_key hsome
    rw [Table.lookup_update, hsome, Option.map_some, if_pos hkey, hkey]
    exact fun _ => rfl
  · exact hsome

theorem lookup_register_ne {key : Key} (hne : new.key ≠ key) :
    Table.lookup DeferredWork.key key (register callbacks new) =
      Table.lookup DeferredWork.key key callbacks := by
  unfold register
  split
  · exact Table.lookup_append_ne hne
  · split
    · exact Table.lookup_update_ne (fun _ => rfl) fun _ hkey hnew => hne (hnew.symm.trans hkey)
    · rfl

end

/-- The map holds for each key the first of the highest priority registered under it. -/
theorem foldl_register (registered : List (DeferredWork π ω)) :
    ((registered.foldl register []).map DeferredWork.key).Nodup ∧
      ∀ key, Table.lookup DeferredWork.key key (registered.foldl register []) =
        (Table.select DeferredWork.key key registered).argmax DeferredWork.priority := by
  induction registered using List.reverseRecOn with
  | nil => exact ⟨List.nodup_nil, fun _ => rfl⟩
  | append_singleton registered new ih =>
    rw [List.foldl_append]
    refine ⟨nodup_register ih.1, fun key => ?_⟩
    by_cases hkey : new.key = key
    · subst hkey
      rw [List.foldl_cons, List.foldl_nil, lookup_register_self, ih.2,
        Table.select_append_self rfl, List.argmax_concat]
      cases (Table.select DeferredWork.key new.key registered).argmax DeferredWork.priority <;> rfl
    · rw [Table.select_append_ne hkey, ← ih.2 key]
      exact lookup_register_ne hkey

def afterCommit [Zero π] (work : ω) (key : Option String) (priority : Option π)
    (c : Connection π ω) : Except String Unit × Connection π ω :=
  if !c.inTransaction then (.ok (), { c with ran := c.ran ++ [work] })
  else if c.depth = 0 || !c.managedRoot then
    (.error "afterCommit requires a transaction owned by SqliteTransactionBoundary", c)
  else
    (.ok (), { c with
      callbacks := register c.callbacks ⟨keyOf key c.calls, priority.getD 0, work⟩
      calls := c.calls + 1 })

/-- The database's `transaction(work).immediate()`: a savepoint inside a transaction. A
`BEGIN` or `COMMIT` that fails is a `work` that throws. -/
def transaction (work : Connection π ω → Except String Unit × Connection π ω)
    (c : Connection π ω) : Except String Unit × Connection π ω :=
  let r := work { c with inTransaction := true }
  (r.1, { r.2 with inTransaction := c.inTransaction })

def immediate (work : Connection π ω → Except String Unit × Connection π ω)
    (c : Connection π ω) : Except String Unit × Connection π ω :=
  let root : Bool := c.depth = 0
  let c := if root then { c with callbacks := [], managedRoot := !c.inTransaction } else c
  let callbacksBefore := c.callbacks
  let r := transaction work { c with depth := c.depth + 1 }
  let after := { r.2 with depth := r.2.depth - 1 }
  match r.1, root with
  | .error error, true => (.error error, { after with callbacks := [], managedRoot := false })
  | .error error, false => (.error error, { after with callbacks := callbacksBefore })
  | .ok _, true =>
    (.ok (), { after with
      callbacks := [], managedRoot := false
      ran := after.ran ++ after.callbacks.map (·.work) })
  | .ok _, false => (.ok (), after)

/-- What the code of a scope does: registrations and inner scopes, whose errors it may
catch, until it returns or throws. -/
inductive Script (π ω : Type*) where
  | done
  | throws (error : String)
  | afterCommit (work : ω) (key : Option String) (priority : Option π) (rest : Script π ω)
  | immediate (body : Script π ω) (caught : Bool) (rest : Script π ω)

variable [Zero π]

namespace Script

def run : Script π ω → Connection π ω → Except String Unit × Connection π ω
  | done, c => (.ok (), c)
  | throws error, c => (.error error, c)
  | afterCommit work key priority rest, c =>
    match TransactionBoundary.afterCommit work key priority c with
    | (.ok _, c) => run rest c
    | (.error error, c) => (.error error, c)
  | immediate body caught rest, c =>
    match TransactionBoundary.immediate (run body) c, caught with
    | (.error error, c), false => (.error error, c)
    | (_, c), _ => run rest c

/-- What is registered in the scopes that are not rolled back, from registration `call`
on, and the number of the next registration; or the error the script throws. Under a
root that is not managed a registration throws. -/
def kept (managed : Bool) : Script π ω → Nat → Except String (List (DeferredWork π ω)) × Nat
  | done, call => (.ok [], call)
  | throws error, call => (.error error, call)
  | afterCommit work key priority rest, call =>
    if managed then
      let later := kept managed rest (call + 1)
      (later.1.map (⟨keyOf key call, priority.getD 0, work⟩ :: ·), later.2)
    else
      (.error "afterCommit requires a transaction owned by SqliteTransactionBoundary", call)
  | immediate body caught rest, call =>
    let inner := kept managed body call
    let later := kept managed rest inner.2
    match inner.1, caught with
    | .error error, false => (.error error, inner.2)
    | .error _, true => later
    | .ok work, _ => (later.1.map (work ++ ·), later.2)

section

variable {α β : Type*} {x : Except String α} {f : α → β}

@[simp] theorem map_ok (a : α) : (Except.ok a : Except String α).map f = .ok (f a) := rfl

@[simp] theorem map_error (e : String) : (Except.error e : Except String α).map f = .error e := rfl

@[simp] theorem map_map_unit : ((x.map f).map fun _ => ()) = x.map fun _ => () := by
  cases x <;> rfl

theorem map_eq_ok {b : β} : x.map f = .ok b ↔ ∃ a, x = .ok a ∧ f a = b := by
  cases x <;> simp

end

/-- Inside a transaction a script that returns leaves the callbacks as if only what is
kept had been registered. -/
theorem run_inside (script : Script π ω) (managed : Bool) (ran : List ω) {depth : Nat}
    (hdepth : depth ≠ 0) (before : List (DeferredWork π ω)) (call : Nat) :
    ∃ after, script.run ⟨before, depth, managed, true, call, ran⟩ =
        ((script.kept managed call).1.map fun _ => (),
          ⟨after, depth, managed, true, (script.kept managed call).2, ran⟩) ∧
      ∀ work, (script.kept managed call).1 = .ok work → after = work.foldl register before := by
  induction script generalizing before depth call with
  | done => exact ⟨before, rfl, by rintro _ ⟨⟩; rfl⟩
  | throws error => exact ⟨before, rfl, by rintro _ ⟨⟩⟩
  | afterCommit work key priority rest ih =>
    cases managed with
    | false => exact ⟨before, by simp [run, TransactionBoundary.afterCommit, kept], by simp [kept]⟩
    | true =>
      obtain ⟨after, hrun, hafter⟩ := ih hdepth
        (register before ⟨keyOf key call, priority.getD 0, work⟩) (call + 1)
      refine ⟨after, by simp [run, TransactionBoundary.afterCommit, kept, hdepth, hrun], ?_⟩
      intro all hall
      obtain ⟨later, hlater, rfl⟩ := map_eq_ok.mp hall
      exact hafter later hlater
  | immediate body caught rest ihbody ihrest =>
    obtain ⟨inner, hbody, hinner⟩ := ihbody (Nat.succ_ne_zero depth) before call
    cases hkept : (body.kept managed call).1 with
    | error error =>
      -- the callbacks are those from before the scope
      obtain ⟨after, hrun, hafter⟩ := ihrest hdepth before (body.kept managed call).2
      cases caught with
      | false =>
        exact ⟨before, by simp [run, TransactionBoundary.immediate, transaction, kept, hbody,
          hkept, hdepth], by simp [kept, hkept]⟩
      | true =>
        exact ⟨after, by simp [run, TransactionBoundary.immediate, transaction, kept, hbody,
          hkept, hdepth, hrun], by simpa [kept, hkept] using hafter⟩
    | ok work =>
      obtain rfl := hinner work hkept
      obtain ⟨after, hrun, hafter⟩ :=
        ihrest hdepth (work.foldl register before) (body.kept managed call).2
      refine ⟨after, by simp [run, TransactionBoundary.immediate, transaction, kept, hbody,
        hkept, hdepth, hrun], ?_⟩
      intro all hall
      simp only [kept, hkept] at hall
      obtain ⟨later, hlater, rfl⟩ := map_eq_ok.mp hall
      rw [List.foldl_append]
      exact hafter later hlater

end Script

/-- A root that throws runs nothing. One that commits runs, for each key, the first
callback of the highest priority among those registered in scopes not rolled back. -/
theorem callbacks_follow_tree (body : Script π ω) {c : Connection π ω} (hroot : c.depth = 0) :
    (∀ error, (body.kept (!c.inTransaction) c.calls).1 = .error error →
      (immediate body.run c).1 = .error error ∧ (immediate body.run c).2.ran = c.ran) ∧
    ∀ registered, (body.kept (!c.inTransaction) c.calls).1 = .ok registered →
      (immediate body.run c).1 = .ok () ∧ ∃ chosen : List (DeferredWork π ω),
        (immediate body.run c).2.ran = c.ran ++ chosen.map (·.work) ∧
        (chosen.map DeferredWork.key).Nodup ∧ ∀ key, Table.lookup DeferredWork.key key chosen =
          (Table.select DeferredWork.key key registered).argmax DeferredWork.priority := by
  obtain ⟨callbacks, depth, managedRoot, inTransaction, calls, ran⟩ := c
  obtain rfl : depth = 0 := hroot
  obtain ⟨after, hrun, hafter⟩ :=
    body.run_inside (!inTransaction) ran Nat.one_ne_zero [] calls
  refine ⟨fun error herror => ?_, fun registered hkept => ?_⟩
  · simp [immediate, transaction, hrun, herror]
  · obtain rfl := hafter registered hkept
    refine ⟨by simp [immediate, transaction, hrun, hkept], _, ?_, foldl_register registered⟩
    simp [immediate, transaction, hrun, hkept]

/-- An inner scope replaces the callback of `a` and is rolled back. -/
def sampleScript : Script Nat String :=
  .afterCommit "outer" (some "a") none <|
    .immediate (.afterCommit "inner" (some "a") (some 1) (.throws "stop")) true <|
    .afterCommit "again" (some "a") (some 0) .done

theorem callbacks_follow_tree_sample :
    (immediate sampleScript.run { ran := [] }).2.ran = ["outer"] ∧
      (immediate sampleScript.run { ran := [] }).1 = .ok () :=
  ⟨rfl, ((callbacks_follow_tree sampleScript (c := { ran := [] }) rfl).2 _ rfl).1⟩

end ConveneWire.TransactionBoundary
