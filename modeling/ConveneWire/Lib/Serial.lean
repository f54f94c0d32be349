import ConveneWire.Lib.Process

/-! # One process at a time

Calls that never overlap, over a state that others change between any two actions of a
call. A call may be stopped at any action; the next one starts from what is left. -/

namespace Concurrent

open Relation (ReflTransGen)
open Transition (Preserved)

structure Serial (σ ι : Type) where
  shared : σ
  running : Option (Process σ ι Unit)

namespace Serial

variable {σ ι : Type}

inductive Step (starts : Process σ ι Unit → Prop) (crashes others : σ → σ → Prop) :
    Serial σ ι → Serial σ ι → Prop
  | start {s p} (hp : starts p) : Step starts crashes others ⟨s, none⟩ ⟨s, some p⟩
  | act {s effect next} (i : ι) :
      Step starts crashes others ⟨s, some (.act effect next)⟩ ⟨effect s i, some (next s i)⟩
  | finish {s r} : Step starts crashes others ⟨s, some (.done r)⟩ ⟨s, none⟩
  | crash {s t p} (h : crashes s t) : Step starts crashes others ⟨s, some p⟩ ⟨t, none⟩
  | other {s t p} (h : others s t) : Step starts crashes others ⟨s, p⟩ ⟨t, p⟩

/-- What a contract keeps of the state between the calls and within one. -/
structure Fits (starts : Process σ ι Unit → Prop) (crashes others : σ → σ → Prop) (c : Contract σ)
    (J : σ → Prop) : Prop where
  started : ∀ {p s}, starts p → J s → c.Runs (fun _ _ => True) p s
  kept : ∀ {s t}, c.guar s t → J s → J t
  crashed : ∀ {s t}, crashes s t → J s → J t
  allowed : ∀ {s t}, others s t → c.rely s t
  undisturbed : ∀ {s t}, others s t → J s → J t

structure Safe (c : Contract σ) (J : σ → Prop) (system : Serial σ ι) : Prop where
  shared : J system.shared
  running : ∀ {p}, system.running = some p → c.Runs (fun _ _ => True) p system.shared

variable {crashes others : σ → σ → Prop} {starts : Process σ ι Unit → Prop}

theorem Fits.preserved {c : Contract σ} {J : σ → Prop} (h : Fits starts crashes others c J) :
    Preserved (Step starts crashes others) (Safe c J) := by
  intro system system' hstep hsafe
  cases hstep with
  | start hp =>
    refine ⟨hsafe.shared, fun hrunning => ?_⟩
    cases hrunning
    exact h.started hp hsafe.shared
  | act i =>
    have hrun := hsafe.running rfl
    refine ⟨h.kept (hrun.guar i) hsafe.shared, fun hrunning => ?_⟩
    cases hrunning
    exact hrun.next i
  | finish => exact ⟨hsafe.shared, fun hrunning => by cases hrunning⟩
  | crash hcrash => exact ⟨h.crashed hcrash hsafe.shared, fun hrunning => by cases hrunning⟩
  | other hother =>
    exact ⟨h.undisturbed hother hsafe.shared,
      fun hrunning => (hsafe.running hrunning).interfere (h.allowed hother)⟩

/-- A call may run to its end undisturbed. -/
theorem run_alone (p : Process σ ι Unit) (s : σ) (i : ι) :
    ReflTransGen (Step starts crashes others) ⟨s, some p⟩ ⟨(p.run i s).2, none⟩ := by
  induction p generalizing s with
  | done r => exact .single .finish
  | act effect next ih => exact .head (.act i) (ih s i (effect s i))

/-- A call taken through a list of answers. -/
theorem run_advance (p : Process σ ι Unit) (s : σ) (answers : List ι) :
    ReflTransGen (Step starts crashes others) ⟨s, some p⟩
      ⟨(p.advance s answers).1, some (p.advance s answers).2⟩ := by
  induction answers generalizing p s with
  | nil => exact .refl
  | cons i rest ih =>
    cases p with
    | done r => exact .refl
    | act effect next => exact .head (.act i) (ih (next s i) (effect s i))

end Serial

end Concurrent
