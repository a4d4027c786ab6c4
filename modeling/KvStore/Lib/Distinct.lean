import Mathlib.Data.Finset.Card
import Mathlib.Data.List.Nodup
import Mathlib.Tactic.Common

/-!
# First occurrences

`distinctOn f l` keeps the first element of `l` for each value of `f`: what a scan that remembers
the values already seen collects (`distinctOn_scan`). It commutes with filters that depend on `f`
only (`distinctOn_filter`) and with rewritings that keep the classes of `f` apart (`distinctOn_map`).
-/

namespace KvStore.Lib

variable {α β γ : Type*} [DecidableEq β]

/-- The first element of the list for each value of `f`. -/
def distinctOn (f : α → β) : List α → List α
  | [] => []
  | a :: l => a :: (distinctOn f l).filter (fun b => f b ≠ f a)

/-- There is nothing to be left out of the empty list. -/
@[simp] lemma distinctOn_nil (f : α → β) : distinctOn f [] = [] := rfl

/-- The first element is kept, and those after it that have its image are left out. -/
lemma distinctOn_cons (f : α → β) (a : α) (l : List α) :
    distinctOn f (a :: l) = a :: (distinctOn f l).filter (fun b => f b ≠ f a) := rfl

/-- Only elements of the list are kept. -/
lemma mem_of_mem_distinctOn {f : α → β} {l : List α} {a : α} (h : a ∈ distinctOn f l) : a ∈ l := by
  induction l with
  | nil => exact h
  | cons b l ih =>
    rcases List.mem_cons.1 h with rfl | h
    · exact List.mem_cons_self
    · exact List.mem_cons_of_mem _ (ih (List.mem_filter.1 h).1)

/-- Every value of `f` is represented. -/
lemma exists_mem_distinctOn {f : α → β} {l : List α} {a : α} (h : a ∈ l) :
    ∃ b ∈ distinctOn f l, f b = f a := by
  induction l with
  | nil => cases h
  | cons c l ih =>
    by_cases hc : f c = f a
    · exact ⟨c, List.mem_cons_self, hc⟩
    · rcases List.mem_cons.1 h with rfl | h
      · exact absurd rfl hc
      · obtain ⟨b, hb, hba⟩ := ih h
        refine ⟨b, List.mem_cons_of_mem _ (List.mem_filter.2 ⟨hb, ?_⟩), hba⟩
        simpa [hba] using Ne.symm hc

/-- No value of `f` is represented twice. -/
lemma nodup_map_distinctOn (f : α → β) (l : List α) : ((distinctOn f l).map f).Nodup := by
  induction l with
  | nil => simp
  | cons a l ih =>
    rw [distinctOn_cons, List.map_cons, List.nodup_cons]
    refine ⟨?_, ih.sublist (List.filter_sublist.map f)⟩
    intro h
    obtain ⟨b, hb, hba⟩ := List.mem_map.1 h
    simpa [hba] using (List.mem_filter.1 hb).2

/-- There are as many first occurrences as values of `f`. -/
lemma length_distinctOn (f : α → β) (l : List α) :
    (distinctOn f l).length = ((l.map f).toFinset).card := by
  have hvalues : ((distinctOn f l).map f).toFinset = (l.map f).toFinset := by
    ext b
    simp only [List.mem_toFinset, List.mem_map]
    constructor
    · rintro ⟨a, ha, rfl⟩
      exact ⟨a, mem_of_mem_distinctOn ha, rfl⟩
    · rintro ⟨a, ha, rfl⟩
      exact exists_mem_distinctOn ha
  rw [← hvalues, List.toFinset_card_of_nodup (nodup_map_distinctOn f l), List.length_map]

/-- First occurrences depend only on which elements `f` identifies. -/
lemma distinctOn_congr [DecidableEq γ] {f : α → β} {f' : α → γ} (h : ∀ a b, f a = f b ↔ f' a = f' b)
    (l : List α) : distinctOn f l = distinctOn f' l := by
  induction l with
  | nil => rfl
  | cons a l ih =>
    rw [distinctOn_cons, distinctOn_cons, ih]
    simp only [ne_eq, h]

/-- The list has an element exactly when its first occurrences do. -/
lemma distinctOn_eq_nil {f : α → β} {l : List α} : distinctOn f l = [] ↔ l = [] := by
  cases l <;> simp [distinctOn]

/-- Taking first occurrences commutes with a filter that depends on `f` only. -/
lemma distinctOn_filter {f : α → β} {p : α → Bool} (hp : ∀ a b, f a = f b → p a = p b)
    (l : List α) : distinctOn f (l.filter p) = (distinctOn f l).filter p := by
  induction l with
  | nil => rfl
  | cons a l ih =>
    by_cases h : p a = true
    · rw [List.filter_cons_of_pos h, distinctOn_cons, distinctOn_cons, List.filter_cons_of_pos h, ih,
        List.filter_comm]
    · rw [List.filter_cons_of_neg h, distinctOn_cons, List.filter_cons_of_neg h, ih,
        List.filter_comm]
      refine (List.filter_eq_self.2 fun b hb => ?_).symm
      have hpb : p b = true := (List.mem_filter.1 hb).2
      simp only [decide_not, Bool.not_eq_eq_eq_not, Bool.not_true, decide_eq_false_iff_not]
      intro hba
      exact h (hp b a hba ▸ hpb)

/-- Taking first occurrences commutes with a rewriting that keeps the classes apart. -/
lemma distinctOn_map {f : α → β} {f' : γ → β} {g : α → γ} (l : List α)
    (hg : ∀ a, f' (g a) = f a) : distinctOn f' (l.map g) = (distinctOn f l).map g := by
  induction l with
  | nil => rfl
  | cons a l ih =>
    rw [List.map_cons, distinctOn_cons, distinctOn_cons, List.map_cons, ih, List.filter_map]
    simp only [Function.comp_def, hg]

/-- What a scan with the values `seen` already behind it still collects. -/
lemma distinctOn_scan [BEq β] [LawfulBEq β] (f : α → β) (seen : List β) (a : α) (l : List α) :
    (distinctOn f (a :: l)).filter (fun b => f b ∉ seen)
      = if f a ∈ seen then (distinctOn f l).filter (fun b => f b ∉ seen)
        else a :: (distinctOn f l).filter (fun b => f b ∉ f a :: seen) := by
  rw [distinctOn_cons]
  split_ifs with h
  · rw [List.filter_cons_of_neg (by simpa using h), List.filter_filter]
    refine List.filter_congr fun b _ => ?_
    by_cases hb : f b = f a
    · simp [hb, h]
    · simp [hb]
  · rw [List.filter_cons_of_pos (by simpa using h), List.filter_filter]
    congr 1
    refine List.filter_congr fun b _ => ?_
    simp [not_or, Bool.and_comm]

/-- The first elements that are left of a list are a continuation of what is left of its first
    elements. -/
lemma filter_take_prefix (p : α → Bool) (l : List α) (n : ℕ) :
    (l.take n).filter p <+: (l.filter p).take n := by
  apply List.prefix_take_iff.2
  constructor
  · exact (List.take_prefix n l).filter p
  · exact Nat.le_trans (List.length_filter_le _ _) (List.length_take_le n l)

/-- Nothing changes if nothing of the first elements is dropped. -/
lemma take_filter_of_forall {p : α → Bool} {l : List α} {n : ℕ} (h : ∀ a ∈ l.take n, p a = true) :
    (l.filter p).take n = l.take n := by
  have hpre := filter_take_prefix p l n
  rw [List.filter_eq_self.2 h] at hpre
  refine (hpre.eq_of_length_le ?_).symm
  have hle := List.length_filter_le p l
  rw [List.length_take, List.length_take]
  omega

/-- If at most one element is dropped, one more of the first elements is enough. -/
lemma take_filter {p : α → Bool} {l : List α} (h : (l.filter fun a => !p a).length ≤ 1) (n : ℕ) :
    (l.filter p).take n = ((l.take (n + 1)).filter p).take n := by
  induction l generalizing n with
  | nil => rfl
  | cons a l ih =>
    rw [List.take_succ_cons]
    cases ha : p a with
    | true =>
      rw [List.filter_cons_of_neg (by simp [ha])] at h
      rw [List.filter_cons_of_pos ha, List.filter_cons_of_pos ha]
      cases n with
      | zero => rfl
      | succ n => rw [List.take_succ_cons, List.take_succ_cons, ih h n]
    | false =>
      -- this is the one that is dropped
      rw [List.filter_cons_of_pos (by simp [ha]), List.length_cons] at h
      have hnone : l.filter (fun a => !p a) = [] := List.eq_nil_of_length_eq_zero (by omega)
      have hall : ∀ b ∈ l, p b = true := fun b hb => by
        simpa using List.filter_eq_nil_iff.1 hnone b hb
      rw [List.filter_cons_of_neg (by simp [ha]), List.filter_cons_of_neg (by simp [ha]),
        List.filter_eq_self.2 hall,
        List.filter_eq_self.2 fun b hb => hall b (List.mem_of_mem_take hb), List.take_take,
        Nat.min_self]

/-- If one of at most two elements is dropped, the other one is left. -/
lemma filter_eq_singleton {p : α → Bool} {l : List α} (h : l.length ≤ 2) {a b : α} (ha : a ∈ l)
    (hpa : p a = false) (hb : b ∈ l) (hpb : p b = true) : l.filter p = [b] := by
  match l, h with
  | [], _ => cases ha
  | [c], _ =>
    rw [List.mem_singleton] at ha hb
    rw [hb, ← ha, hpa] at hpb
    cases hpb
  | [c, c'], _ =>
    rcases List.mem_pair.1 ha with rfl | rfl <;> rcases List.mem_pair.1 hb with rfl | rfl
    · rw [hpa] at hpb
      cases hpb
    · simp [hpa, hpb]
    · simp [hpa, hpb]
    · rw [hpa] at hpb
      cases hpb

end KvStore.Lib
