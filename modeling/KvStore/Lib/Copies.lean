import Mathlib.Data.Bool.Basic
import Mathlib.Tactic.Common

/-!
# Two copies of a value

Two places hold a value, or none. A repair of one of them takes the value of the other, and keeps its
own if the other has none. Repairs of both, in any order and any number, make the copies equal: the
one that is repaired first loses its value, if the other has one.

* `foldl_repair`: the copies after some repairs.
-/

namespace KvStore.Lib

variable {α : Type*}

/-- The copies after a repair of one of them. -/
def repair (copies : Bool → Option α) (side : Bool) : Bool → Option α :=
  Function.update copies side ((copies !side).or (copies side))

/-- The side that is repaired gets the other one. -/
@[simp] lemma repair_self (copies : Bool → Option α) (side : Bool) :
    repair copies side side = (copies !side).or (copies side) := Function.update_self ..

/-- The other side stays as it is. -/
lemma repair_of_ne {side other : Bool} (h : other ≠ side) (copies : Bool → Option α) :
    repair copies side other = copies other := Function.update_of_ne h ..

/-- The first side has the value that both will have; the other has it or none. -/
structure Mending (side : Bool) (value : Option α) (copies : Bool → Option α) : Prop where
  self : copies side = value
  other : copies (!side) = value ∨ copies (!side) = none

variable {side : Bool} {value : Option α} {copies : Bool → Option α}

/-- A repair keeps the copies mending, and the other side has the value afterwards if it had it or
    is the one that is repaired. -/
lemma Mending.repair (h : Mending side value copies) (side' : Bool) :
    Mending side value (repair copies side') ∧
      (side' = !side ∨ copies (!side) = value → Lib.repair copies side' (!side) = value) := by
  obtain ⟨hself, hother⟩ := h
  by_cases hs : side' = side
  · subst hs
    have hkeep : Lib.repair copies side' (!side') = copies (!side') :=
      repair_of_ne (Bool.not_ne_self side') copies
    refine ⟨⟨?_, by rwa [hkeep]⟩, ?_⟩
    · rw [repair_self, hself]
      rcases hother with ho | ho
      · rw [ho, Option.or_self]
      · rw [ho, Option.none_or]
    · rintro (he | he)
      · exact absurd he.symm (Bool.not_ne_self side')
      · rw [hkeep, he]
  · obtain rfl : side' = !side := Bool.eq_not.2 hs
    have hnew : Lib.repair copies (!side) (!side) = value := by
      rw [repair_self, Bool.not_not, hself]
      rcases hother with ho | ho
      · rw [ho, Option.or_self]
      · rw [ho, Option.or_none]
    refine ⟨⟨?_, .inl hnew⟩, fun _ => hnew⟩
    rw [repair_of_ne (Bool.self_ne_not side), hself]

/-- Repairs after the first one. -/
lemma Mending.foldl_repair (h : Mending side value copies) {sides : List Bool}
    (hmem : (!side) ∈ sides ∨ copies (!side) = value) :
    ∀ b, sides.foldl Lib.repair copies b = value := by
  induction sides generalizing copies with
  | nil =>
    intro b
    by_cases hb : b = side
    · rw [hb]
      exact h.self
    · rw [Bool.eq_not.2 hb]
      exact hmem.resolve_left List.not_mem_nil
  | cons side' sides ih =>
    obtain ⟨h', hnew⟩ := h.repair side'
    refine ih h' ?_
    rcases hmem with hmem | he
    · rcases List.mem_cons.1 hmem with hs | hmem
      · exact .inr (hnew (.inl hs.symm))
      · exact .inl hmem
    · exact .inr (hnew (.inr he))

/-- When both have been repaired, both have the value of the one that was repaired second, or that of
    the other one if it had none. -/
theorem foldl_repair (copies : Bool → Option α) {side : Bool} {sides : List Bool}
    (hmem : (!side) ∈ sides) (b : Bool) :
    (side :: sides).foldl repair copies b = (copies !side).or (copies side) := by
  have hfirst : Mending side ((copies !side).or (copies side)) (repair copies side) := by
    refine ⟨repair_self copies side, ?_⟩
    rw [repair_of_ne (Bool.not_ne_self side)]
    cases copies (!side) with
    | none => exact .inr rfl
    | some v => exact .inl rfl
  exact hfirst.foldl_repair (.inl hmem) b

end KvStore.Lib
