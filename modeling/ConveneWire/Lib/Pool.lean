import ConveneWire.Lib.Process

/-! # Pools of processes

Any number of processes over one shared state, started at any time and stopped
together by a crash. A process is known by its position, which is never given
to another one. If the steps each of them promises are steps all others allow
for, a property of the shared state that every promise keeps holds in every
state of the pool. -/

namespace Concurrent

open Relation (ReflTransGen)
open Transition (Preserved)

structure Pool (σ ι : Type) where
  shared : σ
  running : List (Process σ ι Unit)

namespace Pool

variable {σ ι : Type}

/-- `spawns n p` allows `p` as the `n`-th process; `crashes` is what a crash does. -/
inductive Step (spawns : Nat → Process σ ι Unit → Prop) (crashes : σ → σ → Prop) :
    Pool σ ι → Pool σ ι → Prop
  | spawn {s ps p} (hp : spawns ps.length p) : Step spawns crashes ⟨s, ps⟩ ⟨s, ps ++ [p]⟩
  | act {s ps effect next} (n : Nat) (hn : ps[n]? = some (.act effect next)) (i : ι) :
      Step spawns crashes ⟨s, ps⟩ ⟨effect s i, ps.set n (next s i)⟩
  | crash {s t ps} (h : crashes s t) :
      Step spawns crashes ⟨s, ps⟩ ⟨t, ps.map fun _ => .done (.ok ())⟩

/-- Contracts that fit together, and what they keep of a state with `n` processes. -/
structure Fits (spawns : Nat → Process σ ι Unit → Prop) (crashes : σ → σ → Prop)
    (c : Nat → Contract σ) (J : Nat → σ → Prop) : Prop where
  spawned : ∀ {n p s}, spawns n p → J n s → (c n).Runs (fun _ _ => True) p s
  grown : ∀ {n s}, J n s → J (n + 1) s
  kept : ∀ {m n s t}, m < n → (c m).guar s t → J n s → J n t
  allowed : ∀ {m n s t}, m ≠ n → (c m).guar s t → (c n).rely s t
  crashed : ∀ {n s t}, crashes s t → J n s → J n t

structure Safe (c : Nat → Contract σ) (J : Nat → σ → Prop) (pool : Pool σ ι) : Prop where
  shared : J pool.running.length pool.shared
  running : ∀ {n p}, pool.running[n]? = some p → (c n).Runs (fun _ _ => True) p pool.shared

variable {crashes : σ → σ → Prop} {spawns : Nat → Process σ ι Unit → Prop}
  {ps : List (Process σ ι Unit)} {c : Nat → Contract σ} {J : Nat → σ → Prop} {n : Nat}

theorem Fits.preserved (h : Fits spawns crashes c J) :
    Preserved (Step spawns crashes) (Safe c J) := by
  intro pool pool' hstep hsafe
  cases hstep with
  | @spawn s ps p hp =>
    refine ⟨?_, ?_⟩
    · rw [List.length_append]
      exact h.grown hsafe.shared
    intro n q hq
    by_cases hn : n < ps.length
    · rw [List.getElem?_append_left hn] at hq
      exact hsafe.running hq
    rw [List.getElem?_append_right (by omega)] at hq
    obtain ⟨hlast, rfl⟩ := List.getElem?_eq_some_iff.mp hq
    simp only [List.length_singleton] at hlast
    obtain rfl : n = ps.length := by omega
    simp only [Nat.sub_self, List.getElem_cons_zero]
    exact h.spawned hp hsafe.shared
  | @act s ps effect next n hn i =>
    have hrun := hsafe.running hn
    have hlt : n < ps.length := (List.getElem?_eq_some_iff.mp hn).1
    refine ⟨?_, ?_⟩
    · rw [List.length_set]
      exact h.kept hlt (hrun.guar i) hsafe.shared
    intro m q hq
    rw [List.getElem?_set] at hq
    split at hq
    · rename_i heq
      subst heq
      cases hq
      exact hrun.next i
    · rename_i hne
      exact (hsafe.running hq).interfere (h.allowed hne (hrun.guar i))
  | @crash s t ps hcrash =>
    refine ⟨?_, ?_⟩
    · rw [List.length_map]
      exact h.crashed hcrash hsafe.shared
    intro n q hq
    rw [List.getElem?_map] at hq
    obtain ⟨_, -, rfl⟩ := Option.map_eq_some_iff.mp hq
    exact fun _ _ => trivial

/-- A process may run to its end undisturbed. -/
theorem run_alone {p : Process σ ι Unit} (s : σ) (hn : ps[n]? = some p) (i : ι) :
    ReflTransGen (Step spawns crashes) ⟨s, ps⟩ ⟨(p.run i s).2, ps.set n (.done (p.run i s).1)⟩ := by
  obtain ⟨hlt, -⟩ := List.getElem?_eq_some_iff.mp hn
  induction p generalizing s ps with
  | done r =>
    have hset : ps.set n (.done r) = ps := by
      obtain ⟨_, hget⟩ := List.getElem?_eq_some_iff.mp hn
      rw [← hget, List.set_getElem_self]
    simp only [Process.run, hset]
    exact .refl
  | act effect next ih =>
    refine .head (.act n hn i) ?_
    have hset : (ps.set n (next s i))[n]? = some (next s i) := List.getElem?_set_self hlt
    have hrun := ih s i (effect s i) hset (by rwa [List.length_set])
    rwa [List.set_set] at hrun

/-- The same for the first part of a process. -/
theorem run_before {α : Type} {p : Process σ ι α} {f : α → Process σ ι Unit} {s t : σ} {a : α}
    {i : ι} (hn : ps[n]? = some (p >>= f)) (hrun : p.run i s = (.ok a, t)) :
    ReflTransGen (Step spawns crashes) ⟨s, ps⟩ ⟨t, ps.set n (f a)⟩ := by
  obtain ⟨hlt, hget⟩ := List.getElem?_eq_some_iff.mp hn
  induction p generalizing s ps with
  | done r =>
    cases hrun
    have hset : ps.set n (f a) = ps := by
      change ps.get ⟨n, hlt⟩ = f a at hget
      rw [← hget]
      exact List.set_getElem_self hlt
    rw [hset]
  | act effect next ih =>
    refine .head (.act n hn i) ?_
    have hset : (ps.set n (next s i >>= f))[n]? = some (next s i >>= f) :=
      List.getElem?_set_self hlt
    have hlt' : n < (ps.set n (next s i >>= f)).length := by rwa [List.length_set]
    have hrest := ih s i hset hrun hlt' (List.getElem_set_self hlt')
    rwa [List.set_set] at hrest

theorem Safe.start {s : σ} (h : J 0 s) : Safe c J (⟨s, []⟩ : Pool σ ι) :=
  ⟨h, fun hn => by cases hn⟩

end Pool

end Concurrent
