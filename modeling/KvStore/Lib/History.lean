import Mathlib.Data.List.Induction
import Mathlib.Data.Nat.Basic
import Mathlib.Order.Basic
import Mathlib.Tactic.Common

/-!
# Histories

A machine that answers to every input has a history: `observedAt step s f ops t` is what `f` sees of
the `t`-th input and of the state in which the machine gets it. `Latest` is the last time at which
something happened.

* `observedAt_append_of_lt`, `observedAt_append_length`: one more input adds one observation.
* `observedAt_simulates`: machines that simulate each other have the same history.
-/

namespace KvStore.Lib

variable {σ τ ℓ β : Type*}

/-- What is seen at a time: nothing, or something of the input and the state it finds. -/
def observedAt (step : σ → ℓ → σ) (s : σ) (f : σ → ℓ → Option β) (ops : List ℓ) (t : ℕ) : Option β :=
  ops[t]?.bind (f ((ops.take t).foldl step s))

/-- The last time at which something happened. -/
def Latest (P : ℕ → Prop) (t : ℕ) : Prop := P t ∧ ∀ t' > t, ¬ P t'

section
variable {step : σ → ℓ → σ} {s : σ} {f : σ → ℓ → Option β} {ops : List ℓ} {op : ℓ} {t : ℕ}

/-- Nothing is seen after the end. -/
lemma observedAt_of_le (h : ops.length ≤ t) : observedAt step s f ops t = none := by
  rw [observedAt, List.getElem?_eq_none h, Option.bind_none]

/-- What is observed belongs to one of the operations. -/
lemma lt_of_observedAt {b : β} (h : observedAt step s f ops t = some b) : t < ops.length := by
  by_contra hle
  rw [observedAt_of_le (not_lt.1 hle)] at h
  cases h

/-- One more input changes nothing about what was seen before. -/
lemma observedAt_append_of_lt (h : t < ops.length) :
    observedAt step s f (ops ++ [op]) t = observedAt step s f ops t := by
  rw [observedAt, observedAt, List.getElem?_append_left h, List.take_append_of_le_length h.le]

/-- What is seen of the last input. -/
lemma observedAt_append_length :
    observedAt step s f (ops ++ [op]) ops.length = f (ops.foldl step s) op := by
  rw [observedAt, List.getElem?_concat_length, List.take_left, Option.bind_some]

/-- What is seen of one more input is what was seen before, or it is seen of the last one. -/
lemma observedAt_append {b : β} : observedAt step s f (ops ++ [op]) t = some b
    ↔ observedAt step s f ops t = some b ∨ t = ops.length ∧ f (ops.foldl step s) op = some b := by
  rcases lt_trichotomy t ops.length with hlt | rfl | hgt
  · rw [observedAt_append_of_lt hlt]
    exact ⟨.inl, fun h => h.resolve_right fun hr => hlt.ne hr.1⟩
  · rw [observedAt_append_length, observedAt_of_le le_rfl]
    exact ⟨fun h => .inr ⟨rfl, h⟩, fun h => (h.resolve_left nofun).2⟩
  · have hend : (ops ++ [op]).length ≤ t := by
      rw [List.length_append, List.length_singleton]
      exact hgt
    rw [observedAt_of_le hgt.le, observedAt_of_le hend]
    exact ⟨nofun, fun h => absurd (h.resolve_left nofun).1 hgt.ne'⟩

/-- Machines that simulate each other, and observations that agree, have the same history. -/
lemma observedAt_simulates {step' : τ → ℓ → τ} {s' : τ} {f' : τ → ℓ → Option β} {R : σ → τ → Prop}
    (hstep : ∀ s s' op, R s s' → R (step s op) (step' s' op))
    (hf : ∀ s s' op, R s s' → f s op = f' s' op) (h : R s s') (ops : List ℓ) (t : ℕ) :
    observedAt step s f ops t = observedAt step' s' f' ops t := by
  have hrun : ∀ ops : List ℓ, R (ops.foldl step s) (ops.foldl step' s') := by
    intro ops
    induction ops using List.reverseRecOn with
    | nil => exact h
    | append_singleton ops op ih =>
      rw [List.foldl_append, List.foldl_append]
      exact hstep _ _ op ih
  rw [observedAt, observedAt]
  exact Option.bind_congr fun op _ => hf _ _ op (hrun _)

end

section
variable {P Q : ℕ → Prop} {t t' : ℕ}

/-- There is one last time. -/
lemma Latest.unique (h : Latest P t) (h' : Latest P t') : t = t' := by
  rcases lt_trichotomy t t' with hlt | heq | hgt
  · exact absurd h'.1 (h.2 t' hlt)
  · exact heq
  · exact absurd h.1 (h'.2 t hgt)

/-- It is not before any other time. -/
lemma Latest.le (h : Latest P t) (ht : P t') : t' ≤ t := by
  by_contra hlt
  exact h.2 t' (not_le.1 hlt) ht

/-- What holds at the same times has the same latest time. -/
lemma Latest.congr (h : Latest P t) (hiff : ∀ t, P t ↔ Q t) : Latest Q t :=
  ⟨(hiff t).1 h.1, fun t' ht hq => h.2 t' ht ((hiff t').2 hq)⟩

end

end KvStore.Lib
