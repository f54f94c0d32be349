import ConveneWire.Lib.Process

/-! # Processes that run alone

A process that nobody interferes with, whose answers all satisfy `A`: it comes to an
end whatever it is answered, and `Ends A Q p s` says what holds there. A process is
finite, so this is total correctness for every choice of answers at once. -/

namespace Concurrent

namespace Process

variable {σ ι α β : Type} {A : ι → Prop} {f : α → Process σ ι β} {J : List β → σ → Prop}
  {R : β → σ → Prop} {a : α} {i : ι}

/-- Alone from `s` on, answered within `A`, the process ends as `Q` says. -/
def Ends (A : ι → Prop) (Q : Except String α → σ → Prop) : Process σ ι α → σ → Prop
  | .done r, s => Q r s
  | .act effect next, s => ∀ i, A i → Ends A Q (next s i) (effect s i)

/-- It returns a value. -/
def Succeeds (A : ι → Prop) (Q : α → σ → Prop) (p : Process σ ι α) (s : σ) : Prop :=
  p.Ends A (fun r t => ∃ a, r = .ok a ∧ Q a t) s

/-- Where it returns a value, `Q` holds. -/
def Returns (A : ι → Prop) (Q : α → σ → Prop) (p : Process σ ι α) (s : σ) : Prop :=
  p.Ends A (fun r t => ∀ a, r = .ok a → Q a t) s

namespace Ends

variable {Q Q' : Except String α → σ → Prop} {p : Process σ ι α} {s : σ}

theorem mono (hQ : ∀ r t, Q r t → Q' r t) (h : p.Ends A Q s) : p.Ends A Q' s := by
  induction p generalizing s with
  | done r => exact hQ r s h
  | act effect next ih => exact fun i hi => ih s i (h i hi)

/-- Every process comes to an end. -/
theorem any (p : Process σ ι α) (s : σ) : p.Ends A (fun _ _ => True) s := by
  induction p generalizing s with
  | done r => trivial
  | act effect next ih => exact fun i _ => ih s i _

theorem bind {R : Except String β → σ → Prop} (h : p.Ends A Q s)
    (hok : ∀ a t, Q (.ok a) t → (f a).Ends A R t) (herr : ∀ e t, Q (.error e) t → R (.error e) t) :
    (p >>= f).Ends A R s := by
  induction p generalizing s with
  | done r =>
    cases r with
    | ok a => exact hok a s h
    | error e => exact herr e s h
  | act effect next ih => exact fun i hi => ih s i (h i hi)

/-- With one answer throughout. -/
theorem run (h : p.Ends A Q s) (hi : A i) : Q (p.run i s).1 (p.run i s).2 := by
  induction p generalizing s with
  | done r => exact h
  | act effect next ih => exact ih s i (h i hi)

end Ends

namespace Succeeds

variable {Q Q' : α → σ → Prop} {p : Process σ ι α} {s : σ}

theorem mono (hQ : ∀ a t, Q a t → Q' a t) (h : p.Succeeds A Q s) : p.Succeeds A Q' s :=
  Ends.mono (fun _ t ⟨a, hr, ha⟩ => ⟨a, hr, hQ a t ha⟩) h

theorem pure (h : Q a s) : (Pure.pure a : Process σ ι α).Succeeds A Q s := ⟨a, rfl, h⟩

theorem step {f : σ → ι → Except String α × σ}
    (h : ∀ i, A i → ∃ a, (f s i).1 = .ok a ∧ Q a (f s i).2) : (Process.step f).Succeeds A Q s := h

theorem bind (h : p.Succeeds A Q s)
    (hf : ∀ a t, Q a t → (f a).Succeeds A R t) : (p >>= f).Succeeds A R s := by
  refine Ends.bind h ?_ ?_
  · rintro a t ⟨_, hr, ha⟩
    cases hr
    exact hf a t ha
  · rintro e t ⟨_, hr, -⟩
    cases hr

/-- What is left of the list decides what still has to hold. -/
theorem forEach {f : β → Process σ ι PUnit} (xs : List β) {s : σ}
    (h : J xs s) (hf : ∀ x rest t, J (x :: rest) t → (f x).Succeeds A (fun _ => J rest) t) :
    (Process.forEach xs f).Succeeds A (fun _ => J []) s := by
  induction xs generalizing s with
  | nil => exact pure h
  | cons x rest ih => exact (hf x rest s h).bind fun _ t ht => ih ht

end Succeeds

namespace Returns

variable {Q Q' : α → σ → Prop} {p : Process σ ι α} {s : σ}

theorem mono (hQ : ∀ a t, Q a t → Q' a t) (h : p.Returns A Q s) : p.Returns A Q' s :=
  Ends.mono (fun _ t hr a ha => hQ a t (hr a ha)) h

theorem pure (h : Q a s) : (Pure.pure a : Process σ ι α).Returns A Q s := by
  rintro _ ⟨⟩
  exact h

theorem fail {message : String} : (Process.fail message : Process σ ι α).Returns A Q s :=
  fun _ h => by cases h

theorem step {f : σ → ι → Except String α × σ}
    (h : ∀ i a, A i → (f s i).1 = .ok a → Q a (f s i).2) : (Process.step f).Returns A Q s :=
  fun i hi a ha => h i a hi ha

theorem bind (h : p.Returns A Q s)
    (hf : ∀ a t, Q a t → (f a).Returns A R t) : (p >>= f).Returns A R s :=
  Ends.bind h (fun a t ha => hf a t (ha a rfl)) fun _ _ _ _ h => by cases h

theorem forEach {f : β → Process σ ι PUnit} (xs : List β) {s : σ}
    (h : J xs s) (hf : ∀ x rest t, J (x :: rest) t → (f x).Returns A (fun _ => J rest) t) :
    (Process.forEach xs f).Returns A (fun _ => J []) s := by
  induction xs generalizing s with
  | nil => exact pure h
  | cons x rest ih => exact (hf x rest s h).bind fun _ t ht => ih ht

theorem run (h : p.Returns A Q s) (hi : A i) (ha : (p.run i s).1 = .ok a) : Q a (p.run i s).2 :=
  Ends.run h hi a ha

end Returns

end Process

end Concurrent
