import Mathlib.Data.Int.Notation
import Mathlib.Data.List.Basic
import Mathlib.Data.List.TakeWhile
import Mathlib.Order.Basic
import Mathlib.Tactic.Common

/-!
# Strings

`std::string` as a list of characters, with the operations of the standard library that the
development uses: `std::to_string` (`decimal`, `decimalInt`), `find` and `substr`.

* `decimal_inj`, `decimalInt_inj`: printing numbers is injective.
* `append_cons_inj`: a separator that does not occur in the right parts splits a string uniquely.
* `find_eq_some`: `find` returns the first position at which the pattern occurs, which appending to
  the searched string does not change (`find_append`).
* `find_append_cons`: a pattern without `c` is searched for before the first `c` and after it.
-/

namespace KvStore.Lib

/-- A string of the program. -/
abbrev Str := List Char

/-- `std::to_string` of an unsigned number. -/
def decimal (n : ℕ) : Str := Nat.toDigits 10 n

/-- `std::to_string` of an `int`. -/
def decimalInt : ℤ → Str
  | .ofNat n => decimal n
  | .negSucc n => '-' :: decimal (n + 1)

/-- A printed number consists of digits. -/
lemma isDigit_of_mem_decimal {n : ℕ} {c : Char} (h : c ∈ decimal n) : c.isDigit = true :=
  Nat.isDigit_of_mem_toDigits (by decide) (by decide) h

/-- A printed number is not empty. -/
lemma decimal_ne_nil (n : ℕ) : decimal n ≠ [] := Nat.toDigits_ne_nil

/-- A character that is no digit does not occur in a printed number. -/
lemma not_mem_decimal {c : Char} (hc : c.isDigit = false) (n : ℕ) : c ∉ decimal n := by
  intro h
  simp [isDigit_of_mem_decimal h] at hc

/-- A character that is neither a digit nor a minus does not occur in a printed `int`. -/
lemma not_mem_decimalInt {c : Char} (hc : c.isDigit = false) (hm : c ≠ '-') (z : ℤ) :
    c ∉ decimalInt z := by
  cases z with
  | ofNat n => exact not_mem_decimal hc n
  | negSucc n =>
    intro h
    rcases List.mem_cons.1 h with h | h
    · exact hm h
    · exact not_mem_decimal hc _ h

/-- Printing is injective. -/
lemma decimal_inj {m n : ℕ} (h : decimal m = decimal n) : m = n := by
  have h' := congrArg (fun s => Nat.ofDigitChars 10 s 0) h
  simpa [decimal, Nat.ofDigitChars_ten_toDigits] using h'

/-- Printing an `int` is injective. -/
lemma decimalInt_inj {y z : ℤ} (h : decimalInt y = decimalInt z) : y = z := by
  have minus (m n : ℕ) : decimal m ≠ '-' :: decimal n := by
    intro e
    exact not_mem_decimal (c := '-') (by decide) m (e ▸ List.mem_cons_self)
  cases y with
  | ofNat m =>
    cases z with
    | ofNat n => exact congrArg _ (decimal_inj h)
    | negSucc n => exact absurd h (minus _ _)
  | negSucc m =>
    cases z with
    | ofNat n => exact absurd h.symm (minus _ _)
    | negSucc n =>
      have h' := decimal_inj (List.cons.inj h).2
      simpa using h'

/-- A separator that does not occur in the left parts splits a string in one way only. -/
lemma append_cons_inj_left {c : Char} {d d' a a' : Str} (hd : c ∉ d) (hd' : c ∉ d')
    (h : d ++ c :: a = d' ++ c :: a') : d = d' ∧ a = a' := by
  induction d generalizing d' with
  | nil =>
    cases d' with
    | nil => simpa using h
    | cons x d' =>
      obtain ⟨rfl, -⟩ := List.cons.inj h
      simp at hd'
  | cons x d ih =>
    cases d' with
    | nil =>
      obtain ⟨rfl, -⟩ := List.cons.inj h
      simp at hd
    | cons y d' =>
      obtain ⟨hx, ht⟩ := List.cons.inj h
      obtain ⟨he, ha⟩ := ih (fun hm => hd (List.mem_cons_of_mem _ hm))
        (fun hm => hd' (List.mem_cons_of_mem _ hm)) ht
      exact ⟨by rw [hx, he], ha⟩

/-- A separator that does not occur in the right parts splits a string in one way only. -/
lemma append_cons_inj {c : Char} {a a' d d' : Str} (hd : c ∉ d) (hd' : c ∉ d')
    (h : a ++ c :: d = a' ++ c :: d') : a = a' ∧ d = d' := by
  have hr : d.reverse ++ c :: a.reverse = d'.reverse ++ c :: a'.reverse := by
    simpa using congrArg List.reverse h
  obtain ⟨h1, h2⟩ := append_cons_inj_left (by simpa using hd) (by simpa using hd') hr
  exact ⟨List.reverse_inj.1 h2, List.reverse_inj.1 h1⟩

/-- `s.find(pat)`: the first position at which `pat` occurs. -/
def find (pat : Str) : Str → Option ℕ
  | [] => if pat.isEmpty then some 0 else none
  | c :: s => if pat.isPrefixOf (c :: s) then some 0 else (find pat s).map (· + 1)

/-- `s.find(pat, pos)` for a position inside the string. -/
def findFrom (pat s : Str) (pos : ℕ) : Option ℕ := (find pat (s.drop pos)).map (· + pos)

/-- `s.substr(pos, n)`. -/
def substr (s : Str) (pos n : ℕ) : Str := (s.drop pos).take n

/-- `find` returns the first position at which the pattern occurs. -/
lemma find_eq_some {pat s : Str} {i : ℕ} :
    find pat s = some i ↔ pat <+: s.drop i ∧ i ≤ s.length ∧ ∀ j < i, ¬ pat <+: s.drop j := by
  induction s generalizing i with
  | nil =>
    cases i <;> cases pat <;> simp [find]
  | cons c s ih =>
    unfold find
    split_ifs with h
    · rw [List.isPrefixOf_iff_prefix] at h
      constructor
      · rintro ⟨rfl⟩
        exact ⟨h, by simp, by simp⟩
      · rintro ⟨-, -, hall⟩
        by_contra hne
        exact hall 0 (Nat.pos_of_ne_zero fun e => hne (by simp [e])) h
    · rw [List.isPrefixOf_iff_prefix] at h
      cases i with
      | zero =>
        constructor
        · intro e
          simp at e
        · rintro ⟨h0, -⟩
          exact absurd h0 h
      | succ i =>
        have hmap : (find pat s).map (· + 1) = some (i + 1) ↔ find pat s = some i := by simp
        rw [hmap, ih]
        constructor
        · rintro ⟨h1, h2, h3⟩
          refine ⟨h1, by simpa using h2, ?_⟩
          rintro (_ | j) hj
          · exact h
          · exact h3 j (by omega)
        · rintro ⟨h1, h2, h3⟩
          exact ⟨h1, by simpa using h2, fun j hj => h3 (j + 1) (by omega)⟩

/-- The pattern lies inside the string. -/
lemma find_add_length_le {pat s : Str} {i : ℕ} (h : find pat s = some i) :
    i + pat.length ≤ s.length := by
  obtain ⟨h1, h2, -⟩ := find_eq_some.1 h
  have := h1.length_le
  rw [List.length_drop] at this
  omega

/-- A string is what stands before the pattern, the pattern and the rest. -/
lemma eq_of_find {pat s : Str} {i : ℕ} (h : find pat s = some i) :
    s = s.take i ++ (pat ++ s.drop (i + pat.length)) := by
  obtain ⟨⟨t, ht⟩, -, -⟩ := find_eq_some.1 h
  rw [← List.drop_drop, ← ht, List.drop_left, ht, List.take_append_drop]

/-- `find` fails when the pattern does not occur. -/
lemma find_eq_none {pat s : Str} : find pat s = none ↔ ¬ pat <:+: s := by
  induction s with
  | nil => cases pat <;> simp [find]
  | cons c s ih =>
    rw [find, List.infix_cons_iff, not_or, ← ih, ← List.isPrefixOf_iff_prefix]
    cases pat.isPrefixOf (c :: s) <;> simp

/-- Appending to the searched string does not change a position found. -/
lemma find_append {pat s : Str} {i : ℕ} (h : find pat s = some i) (t : Str) :
    find pat (s ++ t) = some i := by
  have hlen := find_add_length_le h
  obtain ⟨h1, h2, h3⟩ := find_eq_some.1 h
  refine find_eq_some.2 ⟨?_, by simp; omega, ?_⟩
  · rw [List.drop_append_of_le_length h2]
    exact h1.trans (List.prefix_append _ _)
  · intro j hj hp
    rw [List.drop_append_of_le_length (by omega)] at hp
    exact h3 j hj (List.prefix_of_prefix_length_le hp (List.prefix_append _ _)
      (by rw [List.length_drop]; omega))

/-- A prefix that is long enough has the same position. -/
lemma find_take {pat s : Str} {i n : ℕ} (h : find pat s = some i) (hn : i + pat.length ≤ n) :
    find pat (s.take n) = some i := by
  obtain ⟨h1, h2, h3⟩ := find_eq_some.1 h
  refine find_eq_some.2 ⟨?_, ?_, fun j hj hp => h3 j hj ?_⟩
  · rw [List.drop_take]
    exact List.prefix_take_iff.2 ⟨h1, by omega⟩
  · rw [List.length_take]
    omega
  · rw [List.drop_take] at hp
    exact hp.trans (List.take_prefix _ _)

/-- A pattern without `c` that occurs at the start occurs before the first `c`. -/
lemma prefix_append_cons {c : Char} {pat : Str} (hc : c ∉ pat) (a b : Str) :
    pat <+: a ++ c :: b ↔ pat <+: a := by
  induction pat generalizing a with
  | nil => simp
  | cons x pat ih =>
    obtain ⟨hx, hpat⟩ := not_or.1 (mt List.mem_cons.2 hc)
    cases a with
    | nil =>
      refine iff_of_false (fun h => hx ?_) (fun h => ?_)
      · exact (List.cons_prefix_cons.1 h).1.symm
      · exact List.cons_ne_nil _ _ (List.prefix_nil.1 h)
    | cons y a => rw [List.cons_append, List.cons_prefix_cons, List.cons_prefix_cons, ih hpat]

/-- A pattern without `c` is found before the first `c` or after it. -/
lemma find_append_cons {c : Char} {pat : Str} (hc : c ∉ pat) (hne : pat ≠ []) (a b : Str) :
    find pat (a ++ c :: b)
      = (find pat a).or ((find pat b).map (· + (a.length + 1))) := by
  induction a with
  | nil =>
    have hnot : pat.isPrefixOf (c :: b) = false := by
      rw [← Bool.not_eq_true, List.isPrefixOf_iff_prefix, ← List.nil_append (c :: b),
        prefix_append_cons hc]
      exact fun h => hne (List.prefix_nil.1 h)
    have hnil : find pat [] = none := by simp [find, hne]
    rw [List.nil_append, hnil, find, hnot]
    rfl
  | cons x a ih =>
    have hiff : pat.isPrefixOf (x :: a ++ c :: b) = pat.isPrefixOf (x :: a) := by
      rw [Bool.eq_iff_iff, List.isPrefixOf_iff_prefix, List.isPrefixOf_iff_prefix,
        prefix_append_cons hc]
    rw [List.cons_append] at hiff ⊢
    rw [find, find, hiff, ih]
    split_ifs with h
    · rfl
    · cases find pat a with
      | some i => rfl
      | none =>
        cases find pat b with
        | none => rfl
        | some i =>
          simp only [Option.map_some, Option.map_none, Option.none_or, List.length_cons]
          rfl

/-- A pattern whose first character does not occur in a string is found after it. -/
lemma find_append_of_not_mem {c : Char} {a : Str} (hc : c ∉ a) (pat t : Str) :
    find (c :: pat) (a ++ t) = (find (c :: pat) t).map (· + a.length) := by
  induction a with
  | nil => simp
  | cons x a ih =>
    obtain ⟨hx, ha⟩ := not_or.1 (mt List.mem_cons.2 hc)
    have hnot : (c :: pat).isPrefixOf (x :: (a ++ t)) = false := by simp [List.isPrefixOf, hx]
    rw [List.cons_append, find, hnot, ih ha]
    cases find (c :: pat) t with
    | none => rfl
    | some i => rfl

/-- The search can begin at a position before which the pattern does not occur. -/
lemma find_eq_find_drop {pat s : Str} {n : ℕ} (hn : n ≤ s.length)
    (h : ∀ j < n, ¬ pat <+: s.drop j) : find pat s = (find pat (s.drop n)).map (· + n) := by
  induction n generalizing s with
  | zero => simp
  | succ n ih =>
    cases s with
    | nil => simp at hn
    | cons c s =>
      have hnot : pat.isPrefixOf (c :: s) = false := by
        rw [← Bool.not_eq_true, List.isPrefixOf_iff_prefix]
        exact h 0 (Nat.succ_pos n)
      rw [find, hnot, ih (Nat.le_of_succ_le_succ hn) fun j hj => h (j + 1) (Nat.succ_lt_succ hj),
        List.drop_succ_cons]
      cases find pat (s.drop n) with
      | none => rfl
      | some i => rfl

/-- The part before a character that is searched for, or everything. -/
lemma take_find (c : Char) (s : Str) :
    (match find [c] s with | some i => s.take i | none => s) = s.takeWhile (· ≠ c) := by
  induction s with
  | nil => rfl
  | cons a s ih =>
    rw [find]
    by_cases ha : a = c
    · subst ha
      rw [if_pos (by simp), List.takeWhile_cons_of_neg (by simp)]
      rfl
    · rw [if_neg (by simpa using Ne.symm ha), List.takeWhile_cons_of_pos (by simpa using ha), ← ih]
      cases find [c] s <;> rfl

/-- What stands after the last `c`, or everything. -/
def afterLast (c : Char) (s : Str) : Str := (s.reverse.takeWhile (· ≠ c)).reverse

section
variable {c : Char} {s t : Str}

/-- There is no `c` in it. -/
lemma not_mem_afterLast (c : Char) (s : Str) : c ∉ afterLast c s := by
  intro h
  have hne := List.mem_takeWhile_imp (List.mem_reverse.1 h)
  simp at hne

/-- It goes on with a text without one, -/
lemma afterLast_append_of_not_mem (h : c ∉ t) (s : Str) :
    afterLast c (s ++ t) = afterLast c s ++ t := by
  have hne : ∀ d ∈ t.reverse, decide (d ≠ c) = true := fun d hd =>
    decide_eq_true (ne_of_mem_of_not_mem (List.mem_reverse.1 hd) h)
  rw [afterLast, List.reverse_append, List.takeWhile_append_of_pos hne, List.reverse_append,
    List.reverse_reverse, afterLast]

/-- and is all of such a text. -/
lemma afterLast_of_not_mem (h : c ∉ t) : afterLast c t = t :=
  afterLast_append_of_not_mem h []

/-- It is what follows a `c` that is the last. -/
lemma afterLast_append_cons (h : c ∉ t) (s : Str) : afterLast c (s ++ c :: t) = t := by
  have hlast : afterLast c (s ++ [c]) = [] := by
    rw [afterLast, List.reverse_append, List.reverse_singleton, List.singleton_append,
      List.takeWhile_cons_of_neg (by simp)]
    rfl
  rw [List.append_cons, afterLast_append_of_not_mem h, hlast, List.nil_append]

/-- What stands before the last `c`. -/
lemma exists_append_afterLast (h : c ∈ s) : ∃ r, s = r ++ c :: afterLast c s := by
  obtain ⟨a, b, hab, hb⟩ := List.eq_append_cons_of_mem (List.mem_reverse.2 h)
  have hs : s = b.reverse ++ c :: a.reverse := by
    rw [← List.reverse_reverse s, hab]
    simp
  refine ⟨b.reverse, ?_⟩
  rw [hs, afterLast_append_cons fun hm => hb (List.mem_reverse.1 hm)]

/-- What stands before a text with one makes no difference. -/
lemma afterLast_append_of_mem (h : c ∈ t) (s : Str) : afterLast c (s ++ t) = afterLast c t := by
  obtain ⟨r, hr⟩ := exists_append_afterLast h
  rw [hr, ← List.append_assoc, afterLast_append_cons (not_mem_afterLast c t),
    afterLast_append_cons (not_mem_afterLast c t)]

end

end KvStore.Lib
