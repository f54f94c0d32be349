import Mathlib.Data.List.Forall2
import ConveneWire.Lib.Transition

/-! # Programs over a transactional store

A program runs against a committed state, may fail with a message, and leaves a
list of every state it committed on the way. A process that stops while the
program runs leaves the state it started from or one of those commits, so a
property of all of them is a property of every crash point.

`Emits R s m Q` is the one judgement used for such programs: started in `s`,
everything `m` commits is reached by steps of `R`, and a value it returns
satisfies `Q` together with the state it is returned in. -/

namespace Transactional

open Relation (ReflTransGen)

universe u

/-- What one execution of a program leaves behind. -/
structure Outcome (σ α : Type u) where
  result : Except String α
  state : σ
  commits : List σ

/-- A program over the committed state `σ`. -/
def Program (σ α : Type u) : Type u := σ → Outcome σ α

/-- The body of one transaction: a failure leaves no state behind. -/
abbrev Transaction (σ α : Type u) : Type u := σ → Except String (α × σ)

section Fallible

variable {ε α β : Type u} {x : Except ε α} {f : α → Except ε β} {xs : List α} {ys : List β}

/-- A sequence of fallible computations that succeeded, taken apart. -/
theorem bind_ok {b : β} (h : (x >>= f) = .ok b) : ∃ a, x = .ok a ∧ f a = .ok b := by
  cases x with
  | error e => cases h
  | ok a => exact ⟨a, rfl, h⟩

theorem bind_eq_ok {b : β} : (x >>= f) = .ok b ↔ ∃ a, x = .ok a ∧ f a = .ok b := by
  refine ⟨bind_ok, ?_⟩
  rintro ⟨a, rfl, h⟩
  exact h

theorem bind_eq_error {e : ε} : (x >>= f) = .error e ↔ x = .error e ∨ ∃ a, x = .ok a ∧ f a = .error e := by
  cases x with
  | error e' => simp [bind, Except.bind]
  | ok a => simp [bind, Except.bind]

/-- A fallible computation on every element of a list. -/
theorem mapM_eq_ok : xs.mapM f = .ok ys ↔ List.Forall₂ (fun x y => f x = .ok y) xs ys := by
  induction xs generalizing ys with
  | nil =>
    rw [List.mapM_nil, List.forall₂_nil_left_iff]
    exact ⟨fun h => by cases h; rfl, fun h => by rw [h]; rfl⟩
  | cons x rest ih =>
    rw [List.mapM_cons, List.forall₂_cons_left_iff, bind_eq_ok]
    refine ⟨?_, ?_⟩
    · rintro ⟨y, hy, h⟩
      obtain ⟨tail, htail, h⟩ := bind_ok h
      cases h
      exact ⟨y, tail, hy, ih.mp htail, rfl⟩
    · rintro ⟨y, tail, hy, htail, rfl⟩
      exact ⟨y, hy, bind_eq_ok.mpr ⟨tail, ih.mpr htail, rfl⟩⟩

theorem exists_mapM_ok (h : ∀ x ∈ xs, ∃ y, f x = .ok y) : ∃ ys, xs.mapM f = .ok ys := by
  induction xs with
  | nil => exact ⟨[], rfl⟩
  | cons x rest ih =>
    obtain ⟨y, hy⟩ := h x List.mem_cons_self
    obtain ⟨tail, htail⟩ := ih fun z hz => h z (List.mem_cons_of_mem x hz)
    exact ⟨y :: tail, mapM_eq_ok.mpr (.cons hy (mapM_eq_ok.mp htail))⟩

theorem exists_of_mem_mapM (h : xs.mapM f = .ok ys) {y : β} (hy : y ∈ ys) : ∃ x ∈ xs, f x = .ok y := by
  have hall := mapM_eq_ok.mp h
  clear h
  induction hall with
  | nil => cases hy
  | cons hfirst _ ih =>
    rcases List.mem_cons.mp hy with rfl | hy
    · exact ⟨_, List.mem_cons_self, hfirst⟩
    · obtain ⟨x, hx, hfx⟩ := ih hy
      exact ⟨x, List.mem_cons_of_mem _ hx, hfx⟩

theorem exists_mem_of_mapM (h : xs.mapM f = .ok ys) {x : α} (hx : x ∈ xs) : ∃ y ∈ ys, f x = .ok y := by
  have hall := mapM_eq_ok.mp h
  clear h
  induction hall with
  | nil => cases hx
  | cons hfirst _ ih =>
    rcases List.mem_cons.mp hx with rfl | hx
    · exact ⟨_, List.mem_cons_self, hfirst⟩
    · obtain ⟨y, hy, hfx⟩ := ih hx
      exact ⟨y, List.mem_cons_of_mem _ hy, hfx⟩

/-- What the values have in common with the elements they come from. -/
theorem map_eq_of_mapM {γ : Type u} {g : α → γ} {k : β → γ}
    (hg : ∀ x y, f x = .ok y → k y = g x) (h : xs.mapM f = .ok ys) : ys.map k = xs.map g := by
  have hall := mapM_eq_ok.mp h
  clear h
  induction hall with
  | nil => rfl
  | cons hfirst _ ih => simp only [List.map_cons, hg _ _ hfirst, ih]

end Fallible

/-- A guard of a fallible computation. -/
def require (condition : Prop) [Decidable condition] (message : String) : Except String Unit :=
  if condition then .ok () else .error message

variable {condition : Prop} {message : String} {u : Unit} {ε : Type}

theorem require_ok [Decidable condition] (h : require condition message = .ok u) : condition := by
  unfold require at h
  split at h
  · assumption
  · cases h

theorem require_eq_ok [Decidable condition] : require condition message = .ok u ↔ condition :=
  ⟨require_ok, fun h => if_pos h⟩

/-- A guard whose error is a value of its own. -/
def ensure {ε : Type} (condition : Prop) [Decidable condition] (e : ε) : Except ε Unit :=
  if condition then .ok () else .error e

theorem ensure_eq_ok [Decidable condition] {e : ε} : ensure condition e = .ok u ↔ condition := by
  unfold ensure
  by_cases h : condition <;> simp [h]

theorem ensure_eq_error [Decidable condition] {e e' : ε} :
    ensure condition e = .error e' ↔ ¬ condition ∧ e = e' := by
  unfold ensure
  by_cases h : condition <;> simp [h]

namespace Program

variable {σ α β : Type u}

protected def pure (a : α) : Program σ α := fun s => ⟨.ok a, s, []⟩

protected def bind (m : Program σ α) (f : α → Program σ β) : Program σ β := fun s =>
  match (m s).result with
  | .error e => ⟨.error e, (m s).state, (m s).commits⟩
  | .ok a =>
    let next := f a (m s).state
    ⟨next.result, next.state, (m s).commits ++ next.commits⟩

instance : Monad (Program σ) where
  pure := Program.pure
  bind := Program.bind

def fail (message : String) : Program σ α := fun s => ⟨.error message, s, []⟩

/-- A query: reads the committed state. -/
def read (f : σ → α) : Program σ α := fun s => ⟨.ok (f s), s, []⟩

/-- One transaction, committed if its body succeeds and rolled back otherwise. -/
def transact (t : Transaction σ α) : Program σ α := fun s =>
  match t s with
  | .ok (a, s') => ⟨.ok a, s', [s']⟩
  | .error e => ⟨.error e, s, []⟩

/-- A whole program as one transaction: nested commits are only savepoints. -/
def atomic (m : Program σ α) : Program σ α := fun s =>
  match (m s).result with
  | .ok a => ⟨.ok a, (m s).state, [(m s).state]⟩
  | .error e => ⟨.error e, s, []⟩

def forEach (xs : List α) (f : α → Program σ PUnit) : Program σ PUnit :=
  match xs with
  | [] => pure ⟨⟩
  | x :: rest => do
    f x
    forEach rest f

def collect (xs : List α) (f : α → Program σ β) : Program σ (List β) :=
  match xs with
  | [] => pure []
  | x :: rest => do
    let y ← f x
    let ys ← collect rest f
    pure (y :: ys)

/-- Runs a program on one component of a larger state. -/
def zoom {τ : Type u} (get : τ → σ) (set : σ → τ → τ) (m : Program σ α) : Program τ α := fun t =>
  ⟨(m (get t)).result, set (m (get t)).state t, (m (get t)).commits.map fun s => set s t⟩

/-- A choice before a common continuation. -/
theorem ite_bind {c : Prop} [Decidable c] {m m' : Program σ α} {k : α → Program σ β} :
    (if c then m >>= k else m' >>= k) = (if c then m else m') >>= k := by
  split <;> rfl

/-- The states a process running `m` from `s` can be stopped in, its final state included. -/
def visits (m : Program σ α) (s : σ) : List σ := s :: (m s).state :: (m s).commits

theorem state_mem_visits {m : Program σ α} {s : σ} : (m s).state ∈ m.visits s := by
  simp [visits]

end Program

/-! ## The judgement -/

section Emits

variable {σ α β : Type u} {R : σ → σ → Prop} {s : σ}

structure Emits (R : σ → σ → Prop) (s : σ) (m : Program σ α) (Q : α → σ → Prop) : Prop where
  commits : ∀ t ∈ (m s).commits, ReflTransGen R s t
  state : ReflTransGen R s (m s).state
  returns : ∀ a, (m s).result = .ok a → Q a (m s).state

/-- All that the program does is steps of the relation. -/
abbrev Steps (R : σ → σ → Prop) (s : σ) (m : Program σ α) : Prop := Emits R s m fun _ _ => True

namespace Emits

variable {Q : α → σ → Prop} {m : Program σ α}

theorem visits (h : Emits R s m Q) {t : σ} (ht : t ∈ m.visits s) : ReflTransGen R s t := by
  simp only [Program.visits, List.mem_cons] at ht
  rcases ht with rfl | rfl | ht
  · exact .refl
  · exact h.state
  · exact h.commits t ht

theorem mono {Q' : α → σ → Prop} (h : Emits R s m Q)
    (hq : ∀ a t, ReflTransGen R s t → Q a t → Q' a t) : Emits R s m Q' :=
  ⟨h.commits, h.state, fun a ha => hq a _ h.state (h.returns a ha)⟩

theorem steps (h : Emits R s m Q) : Steps R s m := h.mono fun _ _ _ _ => trivial

theorem pure {a : α} (h : Q a s) : Emits R s (Pure.pure a) Q := by
  refine ⟨fun t ht => absurd ht (by exact List.not_mem_nil), .refl, fun b hb => ?_⟩
  cases hb
  exact h

theorem fail : Emits R s (Program.fail message) Q :=
  ⟨fun _ ht => absurd ht List.not_mem_nil, .refl, fun _ hb => by cases hb⟩

theorem read {f : σ → α} (h : Q (f s) s) : Emits R s (Program.read f) Q := by
  refine ⟨fun t ht => absurd ht List.not_mem_nil, .refl, fun b hb => ?_⟩
  cases hb
  exact h

theorem transact {t : Transaction σ α}
    (h : ∀ a s', t s = .ok (a, s') → ReflTransGen R s s' ∧ Q a s') :
    Emits R s (Program.transact t) Q := by
  cases ht : t s with
  | error e =>
    refine ⟨?_, ?_, ?_⟩ <;> simp [Program.transact, ht, ReflTransGen.refl]
  | ok r =>
    obtain ⟨a, s'⟩ := r
    obtain ⟨hr, hq⟩ := h a s' ht
    refine ⟨?_, ?_, ?_⟩ <;> simp [Program.transact, ht, hr, hq]

variable {f : α → Program σ β} {xs : List α}

theorem bind {P : α → σ → Prop} {Q : β → σ → Prop} (hm : Emits R s m P)
    (hf : ∀ a t, ReflTransGen R s t → P a t → Emits R t (f a) Q) : Emits R s (m >>= f) Q := by
  cases hr : (m s).result with
  | error e =>
    have heq : (m >>= f) s = ⟨.error e, (m s).state, (m s).commits⟩ := by
      simp only [Bind.bind, Program.bind, hr]
    refine ⟨?_, ?_, ?_⟩ <;> rw [heq]
    · exact hm.commits
    · exact hm.state
    · intro b hb
      cases hb
  | ok a =>
    have hnext := hf a _ hm.state (hm.returns a hr)
    have heq : (m >>= f) s = ⟨(f a (m s).state).result, (f a (m s).state).state,
        (m s).commits ++ (f a (m s).state).commits⟩ := by
      simp only [Bind.bind, Program.bind, hr]
    refine ⟨?_, ?_, ?_⟩ <;> rw [heq]
    · intro t ht
      rcases List.mem_append.mp ht with ht | ht
      · exact hm.commits t ht
      · exact hm.state.trans (hnext.commits t ht)
    · exact hm.state.trans hnext.state
    · exact hnext.returns

/-- Sequencing when only the steps of the first part matter. -/
theorem andThen {Q : β → σ → Prop} (hm : Steps R s m)
    (hf : ∀ a t, ReflTransGen R s t → Emits R t (f a) Q) : Emits R s (m >>= f) Q :=
  bind hm fun a t hst _ => hf a t hst

/-- What the program returns at the end does not matter. -/
theorem returning {g : α → β} (hm : Emits R s m Q) : Steps R s (m >>= fun a => Pure.pure (g a)) :=
  bind hm fun _ _ _ _ => pure trivial

/-- A query leaves the state alone, so what follows starts where it did. -/
theorem read_bind {f : σ → α} {k : α → Program σ β} {Q : β → σ → Prop}
    (h : Emits R s (k (f s)) Q) : Emits R s (Program.read f >>= k) Q :=
  ⟨h.commits, h.state, h.returns⟩

/-- A program proved step by step is also sound as one transaction. -/
theorem atomic (h : Emits R s m Q) : Emits R s (Program.atomic m) Q := by
  cases hr : (m s).result with
  | error e => refine ⟨?_, ?_, ?_⟩ <;> simp [Program.atomic, hr, ReflTransGen.refl]
  | ok a =>
    have hq := h.returns a hr
    refine ⟨?_, ?_, ?_⟩ <;> simp [Program.atomic, hr, h.state, hq]

theorem forEach {f : α → Program σ PUnit} (I : σ → Prop) (hs : I s)
    (hf : ∀ x ∈ xs, ∀ t, ReflTransGen R s t → I t → Emits R t (f x) (fun _ t' => I t')) :
    Emits R s (Program.forEach xs f) (fun _ t => I t) := by
  induction xs generalizing s with
  | nil => exact pure hs
  | cons x rest ih =>
    refine bind (hf x (List.mem_cons_self ..) s .refl hs) fun _ t hst ht => ?_
    exact ih ht fun y hy u htu hu => hf y (List.mem_cons_of_mem x hy) u (hst.trans htu) hu

theorem collect (I : σ → Prop) (hs : I s)
    (hf : ∀ x ∈ xs, ∀ t, ReflTransGen R s t → I t → Emits R t (f x) (fun _ t' => I t')) :
    Emits R s (Program.collect xs f) (fun _ t => I t) := by
  induction xs generalizing s with
  | nil => exact pure hs
  | cons x rest ih =>
    refine bind (hf x (List.mem_cons_self ..) s .refl hs) fun _ t hst ht => ?_
    refine bind (ih ht fun y hy u htu hu =>
      hf y (List.mem_cons_of_mem x hy) u (hst.trans htu) hu) fun _ _ _ hu => ?_
    exact pure hu

theorem zoom {τ : Type u} {get : τ → σ} {set : σ → τ → τ} {t : τ} {R' : τ → τ → Prop}
    (hset : set (get t) t = t) (hstep : ∀ s s', R s s' → R' (set s t) (set s' t))
    (h : Emits R (get t) m Q) :
    Emits R' t (Program.zoom get set m) fun a t' => ∃ s, t' = set s t ∧ Q a s := by
  have hrun : ∀ s, ReflTransGen R (get t) s → ReflTransGen R' t (set s t) := by
    intro s hs
    have hlift : ReflTransGen R' (set (get t) t) (set s t) :=
      ReflTransGen.lift (fun s => set s t) hstep _ _ hs
    rwa [hset] at hlift
  refine ⟨?_, hrun _ h.state, fun a ha => ⟨_, rfl, h.returns a ha⟩⟩
  intro t' ht'
  obtain ⟨s, hs, rfl⟩ := List.mem_map.mp ht'
  exact hrun s (h.commits s hs)

end Emits

end Emits

end Transactional
