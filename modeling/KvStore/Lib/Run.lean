import Mathlib.Data.List.Forall2
import Mathlib.Data.Set.Basic
import Mathlib.Tactic.Common

/-!
# Runs of labelled machines

A machine is a function `step : σ → ℓ → Option σ`: what the action `l` makes of a state, and `none`
where it is not possible. `Run step ok s ls s'` says that the actions `ls` lead from `s` to `s'`,
each of them done in a state that `ok` allows it in.

* `Run.invariant`: what every allowed action keeps holds at the end of every run, and so in every
  state a run passes through.
* `Run.potential`: what a potential says about the number of some actions.
* `Run.append`, `Run.split`: runs can be put one after the other, and cut.
* `Run.exists_step`: what holds only in the end was brought about by a step.
* `Run.of_exec`: a computed run is a run.
* `Run.simulates`: a machine that can follow the steps of another can follow its runs.

`foldlM_invariant` does the same for a loop that can throw. `LoopEnds` says of a loop without a bound
of its own that it ends, in which state and after how many rounds.

`outputs` is for machines that answer every input. `outputs_simulates` relates the answers of two of
them, when one step of the first simulates one step of the second.
-/

namespace KvStore.Lib

variable {σ ℓ : Type*}

/-- The actions lead from the first state to the second, and each of them is allowed. -/
inductive Run (step : σ → ℓ → Option σ) (ok : σ → ℓ → Prop) : σ → List ℓ → σ → Prop where
  | nil {s} :
    Run step ok s [] s
  | cons {s s' s'' l ls} :
    ok s l →
    step s l = some s' →
    Run step ok s' ls s'' →
    Run step ok s (l :: ls) s''

/-- Every action is allowed. -/
def anyStep (_ : σ) (_ : ℓ) : Prop := True

/-- What the actions make of a state, `none` when one of them is not possible. -/
def exec (step : σ → ℓ → Option σ) : σ → List ℓ → Option σ
  | s, [] => some s
  | s, l :: ls => (step s l).bind fun s' => exec step s' ls

/-- What is seen of a sequence of actions. -/
def observed {ε : Type*} (step : σ → ℓ → Option σ) (label : σ → ℓ → List ε) : σ → List ℓ → List ε
  | _, [] => []
  | s, l :: ls => label s l ++ match step s l with
    | some s' => observed step label s' ls
    | none => []

/-- The loop that repeats `step` until there is no next round, started in the first state, stops in
    the second after `n` rounds. -/
inductive LoopEnds (step : σ → Option σ) : ℕ → σ → σ → Prop where
  | done {s} :
    step s = none →
    LoopEnds step 0 s s
  | round {n s s₁ s'} :
    step s = some s₁ →
    LoopEnds step n s₁ s' →
    LoopEnds step (n + 1) s s'

variable {step : σ → ℓ → Option σ} {ok : σ → ℓ → Prop} {s s' s'' : σ} {ls ls' : List ℓ}

/-- What every allowed action keeps holds at the end of a run. -/
theorem Run.invariant {I : σ → Prop}
    (hstep : ∀ {s l s'}, I s → ok s l → step s l = some s' → I s')
    (h : Run step ok s ls s') (h0 : I s) : I s' := by
  induction h with
  | nil => exact h0
  | cons hok hs _ ih => exact ih (hstep h0 hok hs)

/-- Runs can be put one after the other. -/
lemma Run.append (h : Run step ok s ls s') (h' : Run step ok s' ls' s'') :
    Run step ok s (ls ++ ls') s'' := by
  induction h with
  | nil => exact h'
  | cons hok hs _ ih => exact .cons hok hs (ih h')

/-- And a run can be cut. -/
lemma Run.split (h : Run step ok s (ls ++ ls') s'') :
    ∃ s', Run step ok s ls s' ∧ Run step ok s' ls' s'' := by
  induction ls generalizing s with
  | nil => exact ⟨s, .nil, h⟩
  | cons l ls ih =>
    cases h with
    | cons hok hs h =>
      obtain ⟨s', h₁, h₂⟩ := ih h
      exact ⟨s', .cons hok hs h₁, h₂⟩

/-- What does not hold at the beginning of a run but at its end was brought about by one of its
    steps. -/
lemma Run.exists_step {P : σ → Prop} (h : Run step ok s ls s') (hs : ¬ P s) (hs' : P s') :
    ∃ earlier l later t t', ls = earlier ++ l :: later ∧ Run step ok s earlier t ∧ ok t l
      ∧ step t l = some t' ∧ ¬ P t ∧ P t' := by
  induction h with
  | nil => exact absurd hs' hs
  | @cons s s₁ s' l ls hok hstep _ ih =>
    by_cases h₁ : P s₁
    · exact ⟨[], l, ls, s, s₁, rfl, .nil, hok, hstep, hs, h₁⟩
    · obtain ⟨earlier, l', later, t, t', rfl, hrun, hrest⟩ := ih h₁ hs'
      exact ⟨l :: earlier, l', later, t, t', rfl, .cons hok hstep hrun, hrest⟩

/-- A computed run is a run. -/
lemma Run.of_exec (h : exec step s ls = some s') : Run step anyStep s ls s' := by
  induction ls generalizing s with
  | nil =>
    obtain rfl := Option.some.inj h
    exact .nil
  | cons l ls ih =>
    obtain ⟨s₁, hs, h⟩ := Option.bind_eq_some_iff.1 h
    exact .cons trivial hs (ih h)

/-- If one machine can follow every step of another with some steps of its own, it can follow every
    run. -/
theorem Run.simulates {τ ℓ' : Type*} {step' : τ → ℓ' → Option τ} {ok' : τ → ℓ' → Prop}
    {label : σ → ℓ → List ℓ'} (R : σ → τ → Prop)
    (hstep : ∀ {s l s' t}, R s t → ok s l → step s l = some s' →
      ∃ t', Run step' ok' t (label s l) t' ∧ R s' t')
    (h : Run step ok s ls s') {t : τ} (h0 : R s t) :
    ∃ t', Run step' ok' t (observed step label s ls) t' ∧ R s' t' := by
  induction h generalizing t with
  | nil => exact ⟨t, .nil, h0⟩
  | cons hok hs _ ih =>
    obtain ⟨t₁, hfirst, h₁⟩ := hstep h0 hok hs
    obtain ⟨t', hrest, h'⟩ := ih h₁
    refine ⟨t', ?_, h'⟩
    rw [observed, hs]
    exact hfirst.append hrest

section
variable {α β γ δ ε τ : Type*}

/-- So is one whose actions are checked before they are done. -/
lemma Run.of_checked [∀ s l, Decidable (ok s l)]
    (h : exec (fun s l => if ok s l then step s l else none) s ls = some s') :
    Run step ok s ls s' := by
  induction ls generalizing s with
  | nil =>
    obtain rfl := Option.some.inj h
    exact .nil
  | cons l ls ih =>
    obtain ⟨s₁, hs, h⟩ := Option.bind_eq_some_iff.1 h
    dsimp only at hs
    split_ifs at hs with hok
    exact .cons hok hs (ih h)

/-- A run can be computed. -/
lemma Run.exec_eq (h : Run step ok s ls s') : exec step s ls = some s' := by
  induction h with
  | nil => rfl
  | cons _ hs _ ih => exact (congrArg (Option.bind · _) hs).trans ih

/-- What every allowed action keeps may be relied on in every step. -/
lemma Run.with_invariant {I : σ → Prop}
    (hstep : ∀ {s l s'}, I s → ok s l → step s l = some s' → I s')
    (h : Run step ok s ls s') (h0 : I s) : Run step (fun s l => ok s l ∧ I s) s ls s' := by
  induction h with
  | nil => exact .nil
  | cons hok hs _ ih => exact .cons ⟨hok, h0⟩ hs (ih (hstep h0 hok hs))

/-- A potential that some actions take from, and others add to. -/
lemma Run.potential {m : σ → ℕ} {p q : ℓ → Bool}
    (hstep : ∀ {s l s'}, ok s l → step s l = some s' →
      m s' + (if p l then 1 else 0) ≤ m s + (if q l then 1 else 0)) (h : Run step ok s ls s') :
    m s' + ls.countP p ≤ m s + ls.countP q := by
  induction h with
  | nil => exact le_rfl
  | cons hok hs _ ih =>
    have hfirst := hstep hok hs
    rw [List.countP_cons, List.countP_cons]
    omega

/-- The actions of a run may be known to be allowed for another reason. -/
lemma Run.of_forall {ok' : σ → ℓ → Prop} (h : Run step ok s ls s')
    (hok : ∀ s, ∀ l ∈ ls, ok s l → ok' s l) : Run step ok' s ls s' := by
  induction h with
  | nil => exact .nil
  | cons hl hs _ ih =>
    exact .cons (hok _ _ List.mem_cons_self hl) hs
      (ih fun s l hmem => hok s l (List.mem_cons_of_mem _ hmem))

/-- What every round of a loop keeps that can throw holds when the loop has ended. -/
lemma foldlM_invariant {f : σ → α → Except ε σ} {I : σ → Prop}
    (hstep : ∀ {s a s'}, I s → f s a = .ok s' → I s') {l : List α} {s s' : σ}
    (h : l.foldlM f s = .ok s') (h0 : I s) : I s' := by
  induction l generalizing s with
  | nil =>
    obtain rfl := Except.ok.inj h
    exact h0
  | cons a l ih =>
    rw [List.foldlM_cons] at h
    cases ha : f s a with
    | error what =>
      rw [ha] at h
      cases h
    | ok s₁ =>
      rw [ha] at h
      exact ih h (hstep h0 ha)

/-- What a machine answers to its inputs, and the state it ends in. -/
def outputs (step : σ → α → β × σ) (s : σ) : List α → List β × σ
  | [] => ([], s)
  | a :: as => ((step s a).1 :: (outputs step (step s a).2 as).1, (outputs step (step s a).2 as).2)

/-- If every step of one machine simulates a step of the other, then so does every run. -/
theorem outputs_simulates {step : σ → α → β × σ} {step' : τ → γ → δ × τ} (R : σ → τ → Prop)
    {P : α → γ → Prop} {Q : β → δ → Prop}
    (hstep : ∀ s t a c, R s t → P a c →
      Q (step s a).1 (step' t c).1 ∧ R (step s a).2 (step' t c).2)
    {as : List α} {cs : List γ} (h : List.Forall₂ P as cs) {s : σ} {t : τ} (h0 : R s t) :
    List.Forall₂ Q (outputs step s as).1 (outputs step' t cs).1
      ∧ R (outputs step s as).2 (outputs step' t cs).2 := by
  induction h generalizing s t with
  | nil => exact ⟨.nil, h0⟩
  | cons hac _ ih =>
    obtain ⟨hq, hr⟩ := hstep _ _ _ _ h0 hac
    obtain ⟨hqs, hend⟩ := ih hr
    exact ⟨.cons hq hqs, hend⟩

end

end KvStore.Lib
