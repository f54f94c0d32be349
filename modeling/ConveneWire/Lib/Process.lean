import ConveneWire.Lib.Transition

/-! # Processes over a shared state

A process is a finite sequence of atomic actions on a state that other processes
may change between any two of them. What an action does also depends on an
answer of the environment: an input or output that fails, a message that comes
in, the choice of a peer.

The judgement is rely and guarantee: `Contract.Triple c P p Q` says that `p`,
started where `P` holds, takes only steps that `c.guar` allows and returns with
`Q`, as long as everybody else takes steps of `c.rely`. A process that is
stopped between two actions has only taken steps of `c.guar`, so a property
every such step keeps is a property of every crash point. -/

namespace Concurrent

open Relation (ReflTransGen)
open Transition (Preserved)

/-- A process that shares `σ`, is answered by `ι` and returns a value or a message. -/
inductive Process (σ ι α : Type) : Type
  | done (result : Except String α)
  | act (effect : σ → ι → σ) (next : σ → ι → Process σ ι α)

variable {message : String}

namespace Process

variable {σ ι α β : Type}

protected def bind : Process σ ι α → (α → Process σ ι β) → Process σ ι β
  | .done (.ok a), f => f a
  | .done (.error e), _ => .done (.error e)
  | .act effect next, f => .act effect fun s i => (next s i).bind f

instance : Monad (Process σ ι) where
  pure a := .done (.ok a)
  bind := Process.bind

def fail (message : String) : Process σ ι α := .done (.error message)

/-- One atomic action. -/
def step (f : σ → ι → Except String α × σ) : Process σ ι α :=
  .act (fun s i => (f s i).2) fun s i => .done (f s i).1

/-- Takes an answer of the environment and leaves the state alone. -/
def ask (f : ι → α) : Process σ ι α := step fun s i => (.ok (f i), s)

/-- Hands a failure to the caller as a value. -/
def attempt : Process σ ι α → Process σ ι (Except String α)
  | .done r => .done (.ok r)
  | .act effect next => .act effect fun s i => (next s i).attempt

def forEach (xs : List α) (f : α → Process σ ι PUnit) : Process σ ι PUnit :=
  match xs with
  | [] => pure ⟨⟩
  | x :: rest => do
    f x
    forEach rest f

/-- `n` rounds of a loop with an accumulator. -/
def iterate (n : Nat) (f : α → Process σ ι α) (a : α) : Process σ ι α :=
  match n with
  | 0 => pure a
  | n + 1 => do
    let next ← f a
    iterate n f next

/-- A process taken through a list of answers. -/
def advance (s : σ) (answers : List ι) (p : Process σ ι α) : σ × Process σ ι α :=
  match answers, p with
  | [], p => (s, p)
  | _ :: _, .done r => (s, .done r)
  | i :: rest, .act effect next => advance (effect s i) rest (next s i)

/-- A process that runs alone, always given the same answer. -/
def run (i : ι) : Process σ ι α → σ → Except String α × σ
  | .done r, s => (r, s)
  | .act effect next, s => run i (next s i) (effect s i)

theorem run_step (f : σ → ι → Except String α × σ) (i : ι) (s : σ) : (step f).run i s = f s i := rfl

variable {p : Process σ ι α} {i : ι}

theorem run_bind_ok {f : α → Process σ ι β} {s t : σ} {a : α} (h : p.run i s = (.ok a, t)) :
    (p >>= f).run i s = (f a).run i t := by
  induction p generalizing s with
  | done r =>
    cases h
    rfl
  | act effect next ih => exact ih s i h

theorem run_bind_error {f : α → Process σ ι β} {s t : σ} (h : p.run i s = (.error message, t)) :
    (p >>= f).run i s = (.error message, t) := by
  induction p generalizing s with
  | done r =>
    cases h
    rfl
  | act effect next ih => exact ih s i h

theorem run_attempt {s : σ} : p.attempt.run i s = (.ok (p.run i s).1, (p.run i s).2) := by
  induction p generalizing s with
  | done r => rfl
  | act effect next ih => exact ih s i

theorem run_attempt_ok {s t : σ} {a : α} (h : p.run i s = (.ok a, t)) :
    p.attempt.run i s = (.ok (.ok a), t) := by
  rw [run_attempt, h]

end Process

/-- What a process may assume of the others, what it promises to them, and what
holds of the state it leaves behind when it fails. -/
structure Contract (σ : Type) where
  rely : σ → σ → Prop
  guar : σ → σ → Prop
  fails : σ → Prop

namespace Contract

variable {σ ι α β : Type} (c : Contract σ)

/-- The same contract with another condition on failure. -/
def onFail (F : σ → Prop) : Contract σ := { c with fails := F }

/-- From `s` on, every action of the process is allowed and its result is as `Q` says. -/
def Keeps (Q : α → σ → Prop) : Process σ ι α → σ → Prop
  | .done (.ok a), s => Q a s
  | .done (.error _), s => c.fails s
  | .act effect next, s => ∀ i, c.guar s (effect s i) ∧
      ∀ t, ReflTransGen c.rely (effect s i) t → Keeps Q (next s i) t

def Triple (P : σ → Prop) (p : Process σ ι α) (Q : α → σ → Prop) : Prop :=
  ∀ s, P s → c.Keeps Q p s

/-- `Keeps`, whatever the others do first. -/
def Runs (Q : α → σ → Prop) (p : Process σ ι α) (s : σ) : Prop :=
  ∀ t, ReflTransGen c.rely s t → c.Keeps Q p t

variable {c}

variable {s : σ} {Q : α → σ → Prop} {p : Process σ ι α} {F : σ → Prop} {effect : σ → ι → σ}
  {d : Contract σ}

theorem Runs.interfere {s t : σ} (h : c.Runs Q p s) (hst : c.rely s t) : c.Runs Q p t :=
  fun u hu => h u (.head hst hu)

theorem Runs.guar {next : σ → ι → Process σ ι α}
    (h : c.Runs Q (.act effect next) s) (i : ι) : c.guar s (effect s i) :=
  ((h s .refl) i).1

theorem Runs.next {next : σ → ι → Process σ ι α}
    (h : c.Runs Q (.act effect next) s) (i : ι) : c.Runs Q (next s i) (effect s i) :=
  ((h s .refl) i).2

theorem Triple.runs {P : σ → Prop} (h : c.Triple P p Q) (hP : Preserved c.rely P) (hs : P s) :
    c.Runs Q p s :=
  fun t ht => h t (hP.run ht hs)

/-! ## Rules -/

theorem Keeps.mono {Q Q' : α → σ → Prop} (hQ : ∀ a s, Q a s → Q' a s) (h : c.Keeps Q p s) :
    c.Keeps Q' p s := by
  induction p generalizing s with
  | done r =>
    cases r with
    | ok a => exact hQ a s h
    | error e => exact h
  | act effect next ih =>
    intro i
    exact ⟨(h i).1, fun t ht => ih s i ((h i).2 t ht)⟩

theorem Keeps.bind {Q' : β → σ → Prop} {f : α → Process σ ι β} (hf : ∀ a, c.Triple (Q a) (f a) Q')
    (h : c.Keeps Q p s) : c.Keeps Q' (p >>= f) s := by
  induction p generalizing s with
  | done r =>
    cases r with
    | ok a => exact hf a s h
    | error e => exact h
  | act effect next ih =>
    intro i
    exact ⟨(h i).1, fun t ht => ih s i ((h i).2 t ht)⟩

/-- Frame: what the actions and the others leave alone holds throughout. -/
theorem Keeps.frame (hrely : ∀ s t, d.rely s t → c.rely s t)
    (hguar : ∀ s t, F s → c.guar s t → d.guar s t ∧ F t) (hF : Preserved d.rely F)
    (hfails : ∀ s, F s → c.fails s → d.fails s) (hs : F s) (h : c.Keeps Q p s) :
    d.Keeps (fun a t => Q a t ∧ F t) p s := by
  induction p generalizing s with
  | done r =>
    cases r with
    | ok a => exact ⟨h, hs⟩
    | error e => exact hfails s hs h
  | act effect next ih =>
    intro i
    obtain ⟨hstep, hafter⟩ := hguar s _ hs (h i).1
    exact ⟨hstep, fun t ht => ih s i (hF.run ht hafter) ((h i).2 t (ReflTransGen.mono hrely _ _ ht))⟩

/-- What a caller that catches failures can say of either outcome. -/
def Attempted (Q : α → σ → Prop) (F : σ → Prop) (r : Except String α) (s : σ) : Prop :=
  match r with
  | .ok a => Q a s
  | .error _ => F s

theorem Keeps.attempt (h : (c.onFail F).Keeps Q p s) : c.Keeps (Attempted Q F) p.attempt s := by
  induction p generalizing s with
  | done r =>
    cases r with
    | ok a => exact h
    | error e => exact h
  | act effect next ih =>
    intro i
    exact ⟨(h i).1, fun t ht => ih s i ((h i).2 t ht)⟩

/-- What the judgement says of a process that runs alone. -/
theorem Keeps.run (h : c.Keeps Q p s) (i : ι) :
    Attempted Q c.fails (p.run i s).1 (p.run i s).2 := by
  induction p generalizing s with
  | done r =>
    cases r with
    | ok a => exact h
    | error e => exact h
  | act effect next ih => exact ih s i ((h i).2 _ .refl)

namespace Triple

variable {P P' : σ → Prop} {Q Q' : α → σ → Prop} {p : Process σ ι α}
  {f : σ → ι → Except String α × σ}

theorem conseq (h : c.Triple P p Q) (hP : ∀ s, P' s → P s) (hQ : ∀ a s, Q a s → Q' a s) :
    c.Triple P' p Q' :=
  fun s hs => (h s (hP s hs)).mono hQ

theorem strengthen (h : c.Triple P p Q) (hP : ∀ s, P' s → P s) : c.Triple P' p Q :=
  h.conseq hP fun _ _ hq => hq

theorem weaken (h : c.Triple P p Q) (hQ : ∀ a s, Q a s → Q' a s) : c.Triple P p Q' :=
  h.conseq (fun _ hs => hs) hQ

/-- A fact about values alone may be taken out of the precondition. -/
theorem assume {R : Prop} (hR : ∀ s, P s → R) (h : R → c.Triple P p Q) : c.Triple P p Q :=
  fun s hs => h (hR s hs) s hs

theorem pure {a : α} (h : ∀ s, P s → Q a s) : c.Triple P (Pure.pure a : Process σ ι α) Q := h

theorem same {a : α} : c.Triple P (Pure.pure a : Process σ ι α) fun _ => P := pure fun _ hs => hs

theorem skip {a : α} : c.Triple P (Pure.pure a : Process σ ι α) fun _ _ => True :=
  pure fun _ _ => trivial

theorem fail (h : ∀ s, P s → c.fails s) : c.Triple P (Process.fail message : Process σ ι α) Q := h

theorem bind {R : α → σ → Prop} {Q : β → σ → Prop} {f : α → Process σ ι β}
    (hp : c.Triple P p R) (hf : ∀ a, c.Triple (R a) (f a) Q) : c.Triple P (p >>= f) Q :=
  fun s hs => (hp s hs).bind hf

/-- One action, whose outcome the others cannot spoil. -/
theorem step (hguar : ∀ s i, P s → c.guar s (f s i).2)
    (hok : ∀ s i a, P s → (f s i).1 = .ok a → Q a (f s i).2) (hQ : ∀ a, Preserved c.rely (Q a))
    (herr : ∀ s i e, P s → (f s i).1 = .error e → c.fails (f s i).2)
    (hfails : Preserved c.rely c.fails) : c.Triple P (Process.step f) Q := by
  intro s hs i
  refine ⟨hguar s i hs, fun t ht => ?_⟩
  change c.Keeps Q (.done (f s i).1) t
  cases hr : (f s i).1 with
  | ok a => exact (hQ a).run ht (hok s i a hs hr)
  | error e => exact hfails.run ht (herr s i e hs hr)

/-- One action of a routine that may fail anywhere. -/
theorem step_free (hfree : ∀ s, c.fails s) (hguar : ∀ s i, P s → c.guar s (f s i).2)
    (hok : ∀ s i a, P s → (f s i).1 = .ok a → Q a (f s i).2) (hQ : ∀ a, Preserved c.rely (Q a)) :
    c.Triple P (Process.step f) Q :=
  step hguar hok hQ (fun _ _ _ _ _ => hfree _) fun _ _ _ _ => hfree _

theorem act (hfree : ∀ s, c.fails s) (hguar : ∀ s i, P s → c.guar s (f s i).2) :
    c.Triple P (Process.step f) fun _ _ => True :=
  step_free hfree hguar (fun _ _ _ _ _ => trivial) fun _ _ _ _ _ => trivial

theorem ask {f : ι → α} (hP : Preserved c.rely P) (hguar : ∀ s, P s → c.guar s s)
    (h : ∀ i s, P s → Q (f i) s) : c.Triple P (Process.ask f) Q := by
  intro s hs i
  exact ⟨hguar s hs, fun t ht => h i t (hP.run ht hs)⟩

theorem frame (hrely : ∀ s t, d.rely s t → c.rely s t)
    (hguar : ∀ s t, F s → c.guar s t → d.guar s t ∧ F t) (hF : Preserved d.rely F)
    (hfails : ∀ s, F s → c.fails s → d.fails s) (h : c.Triple P p Q) :
    d.Triple (fun s => P s ∧ F s) p fun a s => Q a s ∧ F s :=
  fun s hs => (h s hs.1).frame hrely hguar hF hfails hs.2

theorem attempt (h : (c.onFail F).Triple P p Q) : c.Triple P p.attempt (Attempted Q F) :=
  fun s hs => (h s hs).attempt

theorem forEach {β : Type} {xs : List β} {f : β → Process σ ι PUnit}
    (h : ∀ x ∈ xs, c.Triple P (f x) fun _ => P) : c.Triple P (Process.forEach xs f) fun _ => P := by
  induction xs with
  | nil => exact pure fun _ hs => hs
  | cons x rest ih =>
    refine bind (h x List.mem_cons_self) fun _ => ?_
    exact ih fun y hy => h y (List.mem_cons_of_mem x hy)

theorem iterate {J : α → σ → Prop} {f : α → Process σ ι α}
    (h : ∀ a, c.Triple (J a) (f a) J) (n : Nat) (a : α) :
    c.Triple (J a) (Process.iterate n f a) J := by
  induction n generalizing a with
  | zero => exact pure fun _ hs => hs
  | succ n ih => exact bind (h a) ih

end Triple

end Contract

end Concurrent
