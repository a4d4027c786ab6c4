import KvStore.Lib.Run
import Mathlib.Logic.Function.Basic

/-!
# Linearizable objects

An `AtomicObject` does one operation at a time. What an operation finds is decided when it takes
effect, and what a caller may be answered depends on what was found; so an answer that is put together
later is a choice among those that `answers` allows.

A history is what a number of processes see of an object they share: the calls they make and the
answers they get. It is `Linearizable` if every operation can be thought to take effect at one moment
between its call and its answer.

* `Linearizable.of_run`: a machine whose steps are followed by the object has linearizable histories.
-/

namespace KvStore.Lib

variable {ι τ α β γ σ ℓ : Type*}

/-- An object: what an operation finds and what it leaves, and the answers it may get. -/
structure AtomicObject (τ α β γ : Type*) where
  step : τ → α → γ × τ
  answers : α → γ → β → Prop

/-- What can be seen of a process: it calls an operation, or is answered. -/
inductive CallEvent (ι α β : Type*) where
  | call (i : ι) (a : α)
  | ret (i : ι) (b : β)
deriving DecidableEq, Repr

/-- What a process is doing: nothing, an operation that has not taken effect yet, or one that has. -/
inductive Progress (α γ : Type*) where
  | idle
  | called (a : α)
  | applied (a : α) (found : γ)

variable [DecidableEq ι]

/-- What the processes can do with an object, and what can be seen of it. Between its call and its
    answer an operation takes effect once. -/
inductive AtomicObject.Steps (O : AtomicObject τ α β γ) :
    τ → (ι → Progress α γ) → List (CallEvent ι α β) → τ → (ι → Progress α γ) → Prop where
  | nil {t p} :
    Steps O t p [] t p
  | call {t p t' p' events} i a :
    p i = .idle →
    Steps O t (Function.update p i (.called a)) events t' p' →
    Steps O t p (.call i a :: events) t' p'
  | apply {t p t' p' events} i a :
    p i = .called a →
    Steps O (O.step t a).2 (Function.update p i (.applied a (O.step t a).1)) events t' p' →
    Steps O t p events t' p'
  | ret {t p t' p' events} i a found b :
    p i = .applied a found →
    O.answers a found b →
    Steps O t (Function.update p i .idle) events t' p' →
    Steps O t p (.ret i b :: events) t' p'

/-- The history is one of processes that share the object. -/
def Linearizable (O : AtomicObject τ α β γ) (t : τ) (events : List (CallEvent ι α β)) : Prop :=
  ∃ t' p', O.Steps t (fun _ => .idle) events t' p'

variable {O : AtomicObject τ α β γ} {t t' t'' : τ} {p p' p'' : ι → Progress α γ}
  {events events' : List (CallEvent ι α β)}

/-- Steps can be put one after the other. -/
lemma AtomicObject.Steps.append (h : O.Steps t p events t' p') (h' : O.Steps t' p' events' t'' p'') :
    O.Steps t p (events ++ events') t'' p'' := by
  induction h with
  | nil => exact h'
  | call i a hi _ ih => exact .call i a hi (ih h')
  | apply i a hi _ ih => exact .apply i a hi (ih h')
  | ret i a found b hi hb _ ih => exact .ret i a found b hi hb (ih h')

/-- If the object can follow every step of a machine, it can follow every run. -/
lemma AtomicObject.Steps.of_run {step : σ → ℓ → Option σ} {ok : σ → ℓ → Prop}
    {label : σ → ℓ → List (CallEvent ι α β)} (R : σ → τ → (ι → Progress α γ) → Prop)
    (hstep : ∀ {s l s' t p}, R s t p → ok s l → step s l = some s' →
      ∃ t' p', O.Steps t p (label s l) t' p' ∧ R s' t' p')
    {s s' : σ} {ls : List ℓ} (h : Run step ok s ls s') {t : τ} {p : ι → Progress α γ}
    (h0 : R s t p) : ∃ t' p', O.Steps t p (observed step label s ls) t' p' ∧ R s' t' p' := by
  induction h generalizing t p with
  | nil => exact ⟨t, p, .nil, h0⟩
  | cons hok hs _ ih =>
    obtain ⟨t₁, p₁, hfirst, h₁⟩ := hstep h0 hok hs
    obtain ⟨t', p', hrest, h'⟩ := ih h₁
    refine ⟨t', p', ?_, h'⟩
    rw [observed, hs]
    exact hfirst.append hrest

/-- A machine that the object can follow has linearizable histories. -/
theorem Linearizable.of_run {step : σ → ℓ → Option σ} {ok : σ → ℓ → Prop}
    {label : σ → ℓ → List (CallEvent ι α β)} (R : σ → τ → (ι → Progress α γ) → Prop)
    (hstep : ∀ {s l s' t p}, R s t p → ok s l → step s l = some s' →
      ∃ t' p', O.Steps t p (label s l) t' p' ∧ R s' t' p')
    {s s' : σ} {ls : List ℓ} (h : Run step ok s ls s') {t : τ} (h0 : R s t fun _ => .idle) :
    Linearizable O t (observed step label s ls) := by
  obtain ⟨t', p', hsteps, -⟩ := AtomicObject.Steps.of_run R hstep h h0
  exact ⟨t', p', hsteps⟩

end KvStore.Lib
