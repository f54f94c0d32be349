import ConveneWire.Lib.Alone

/-! # Processes on a part of the state

A process over `σ` acts on a larger state `τ` through the part of it that `get` reads
and `set` replaces. What was proved of it over `σ` holds of the part. -/

namespace Concurrent

open Relation (ReflTransGen)

variable {σ τ ι κ α : Type} {get : τ → σ} {set : τ → σ → τ} {answer : κ → ι} {t : τ}

namespace Process

def zoom (get : τ → σ) (set : τ → σ → τ) (answer : κ → ι) : Process σ ι α → Process τ κ α
  | .done r => .done r
  | .act effect next =>
    .act (fun t k => set t (effect (get t) (answer k))) fun t k =>
      (next (get t) (answer k)).zoom get set answer

theorem zoom_step (f : σ → ι → Except String α × σ) :
    (step f).zoom get set answer = step fun t k =>
      ((f (get t) (answer k)).1, set t (f (get t) (answer k)).2) := rfl

variable {p : Process σ ι α}

theorem zoom_bind {β : Type} {f : α → Process σ ι β} :
    (p >>= f).zoom get set answer =
      p.zoom get set answer >>= fun a => (f a).zoom get set answer := by
  induction p with
  | done r =>
    cases r with
    | ok a => rfl
    | error e => rfl
  | act effect next ih =>
    change act _ _ = act _ _
    congr
    funext t k
    exact ih (get t) (answer k)

variable {F : τ → Prop} {B : κ → Prop} {A : ι → Prop}

section

variable (hget : ∀ t x, get (set t x) = x)
include hget

section

variable (hF : ∀ t x, F t → F (set t x))
include hF

section

variable (hA : ∀ k, B k → A (answer k)) {Q : α → σ → Prop}
include hA

/-- `F` is what the actions on the part leave alone. -/
theorem Ends.zoom {Q : Except String α → σ → Prop} (ht : F t) (h : p.Ends A Q (get t)) :
    (p.zoom get set answer).Ends B (fun r t' => Q r (get t') ∧ F t') t := by
  induction p generalizing t with
  | done r => exact ⟨h, ht⟩
  | act effect next ih =>
    intro k hk
    refine ih (get t) (answer k) (hF t _ ht) ?_
    rw [hget]
    exact h (answer k) (hA k hk)

theorem Succeeds.zoom (ht : F t) (h : p.Succeeds A Q (get t)) :
    (p.zoom get set answer).Succeeds B (fun a t' => Q a (get t') ∧ F t') t := by
  refine Ends.mono ?_ (Ends.zoom hget hF hA ht h)
  rintro r t' ⟨⟨a, hr, ha⟩, hframe⟩
  exact ⟨a, hr, ha, hframe⟩

theorem Returns.zoom (ht : F t) (h : p.Returns A Q (get t)) :
    (p.zoom get set answer).Returns B (fun a t' => Q a (get t') ∧ F t') t :=
  Ends.mono (fun _ _ ⟨hr, hframe⟩ a ha => ⟨hr a ha, hframe⟩) (Ends.zoom hget hF hA ht h)

end

end

end

end Process

namespace Contract

variable {c : Contract σ} {d : Contract τ} {P : σ → Prop} {Q : α → σ → Prop} {F : τ → Prop}
  {p : Process σ ι α}

/-- The zoomed process keeps `d` where the others keep to `c` on the part, its actions
on the part are allowed in `d`, and `F` is left alone by both. -/
theorem Keeps.zoom (hget : ∀ t x, get (set t x) = x)
    (hrely : ∀ t t', F t → d.rely t t' → F t' ∧ ReflTransGen c.rely (get t) (get t'))
    (hguar : ∀ t x, F t → c.guar (get t) x → d.guar t (set t x) ∧ F (set t x))
    (hfails : ∀ t, F t → c.fails (get t) → d.fails t) (ht : F t) (h : c.Keeps Q p (get t)) :
    d.Keeps (fun a t => Q a (get t) ∧ F t) (p.zoom get set answer) t := by
  induction p generalizing t with
  | done r =>
    cases r with
    | ok a => exact ⟨h, ht⟩
    | error e => exact hfails t ht h
  | act effect next ih =>
    intro k
    obtain ⟨hstep, hafter⟩ := h (answer k)
    obtain ⟨hallowed, hF⟩ := hguar t _ ht hstep
    refine ⟨hallowed, fun t' ht' => ?_⟩
    have hrun : F t' ∧ ReflTransGen c.rely (effect (get t) (answer k)) (get t') := by
      clear ih hafter hallowed
      induction ht' with
      | refl => exact ⟨hF, by rw [hget]⟩
      | tail _ hlast ih =>
        obtain ⟨hF', hrest⟩ := hrely _ _ ih.1 hlast
        exact ⟨hF', ih.2.trans hrest⟩
    exact ih (get t) (answer k) hrun.1 (hafter (get t') hrun.2)

theorem Triple.zoom (hget : ∀ t x, get (set t x) = x)
    (hrely : ∀ t t', F t → d.rely t t' → F t' ∧ ReflTransGen c.rely (get t) (get t'))
    (hguar : ∀ t x, F t → c.guar (get t) x → d.guar t (set t x) ∧ F (set t x))
    (hfails : ∀ t, F t → c.fails (get t) → d.fails t) (h : c.Triple P p Q) :
    d.Triple (fun t => P (get t) ∧ F t) (p.zoom get set answer) fun a t => Q a (get t) ∧ F t :=
  fun t ht => (h (get t) ht.1).zoom hget hrely hguar hfails ht.2

end Contract

end Concurrent
