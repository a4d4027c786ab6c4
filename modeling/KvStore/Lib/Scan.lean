import KvStore.Lib.Str
import Mathlib.Algebra.Group.Int.Defs
import Mathlib.Algebra.Group.Nat.Defs
import Mathlib.Data.List.TakeWhile

/-!
# Reading text

The parts of the C++ library that read numbers and lines: `std::from_chars` for `long long`,
`std::stoul` for a 64-bit `unsigned long`, `stream >> int`, and the lines that successive
`std::getline` calls return. A number that is written in digits only is read as its value
(`fromChars_of_isDecimal`, `stoul_of_isDecimal`).
-/

namespace KvStore.Lib

/-- `std::isspace` in the C locale. -/
def isSpace (c : Char) : Bool :=
  c = ' ' || c = '\t' || c = '\n' || c = '\x0b' || c = '\x0c' || c = '\r'

/-- A blank: a space or a tab. -/
def isBlank (c : Char) : Bool := c = ' ' || c = '\t'

/-- The number a string of digits denotes. -/
def digitsValue (ds : Str) : ℕ := Nat.ofDigitChars 10 ds 0

/-- `std::from_chars` into a `long long`: an optional minus and digits, whatever follows. It fails
    without digits and when the number does not fit. -/
def fromChars (s : Str) : Option ℤ :=
  let negative := s.head? = some '-'
  let digits := (if negative then s.tail else s).takeWhile Char.isDigit
  if digits.isEmpty then none
  else
    let v : ℤ := if negative then -(digitsValue digits : ℤ) else digitsValue digits
    if -2 ^ 63 ≤ v ∧ v < 2 ^ 63 then some v else none

/-- `std::stoul`: white space, an optional sign and digits, whatever follows. A minus negates modulo
    `2 ^ 64`; it throws without digits and when the digits do not fit. -/
def stoul (s : Str) : Option ℕ :=
  let s := s.dropWhile isSpace
  let negative := s.head? = some '-'
  let digits := (if negative ∨ s.head? = some '+' then s.tail else s).takeWhile Char.isDigit
  if digits.isEmpty then none
  else
    let v := digitsValue digits
    if v < 2 ^ 64 then some (if negative then (2 ^ 64 - v) % 2 ^ 64 else v) else none

/-- `stream >> n` for an `int`: the value stored and what is left of the stream, `none` once the
    stream has failed. Without digits it stores 0, and the nearest bound when the number does not
    fit. -/
def readInt (s : Str) : ℤ × Option Str :=
  let s := s.dropWhile isSpace
  let negative := s.head? = some '-'
  let s := if negative ∨ s.head? = some '+' then s.tail else s
  let digits := s.takeWhile Char.isDigit
  if digits.isEmpty then (0, none)
  else
    let v : ℤ := if negative then -(digitsValue digits : ℤ) else digitsValue digits
    if v < -2 ^ 31 then (-2 ^ 31, none)
    else if 2 ^ 31 ≤ v then (2 ^ 31 - 1, none)
    else (v, some (s.dropWhile Char.isDigit))

/-- The lines that `std::getline` returns until the stream ends. -/
def getlines : Str → List Str
  | [] => []
  | c :: s =>
    if c = '\n' then [] :: getlines s
    else
      match getlines s with
      | [] => [[c]]
      | l :: ls => (c :: l) :: ls

/-- Reading a line that has been printed. -/
lemma getlines_append {l : Str} (hl : '\n' ∉ l) (s : Str) :
    getlines (l ++ "\n".toList ++ s) = l :: getlines s := by
  induction l with
  | nil => rfl
  | cons c l ih =>
    obtain ⟨hc, hl⟩ := not_or.1 (mt List.mem_cons.2 hl)
    rw [List.cons_append, List.cons_append, getlines, if_neg (Ne.symm hc), ih hl]

/-- The lines after a line end do not depend on what is before it. -/
lemma exists_getlines_append (a b : Str) :
    ∃ l ls, getlines (a ++ '\n' :: b) = l :: (ls ++ getlines b) := by
  induction a with
  | nil => exact ⟨[], [], if_pos rfl⟩
  | cons c a ih =>
    obtain ⟨l, ls, hlines⟩ := ih
    rw [List.cons_append, getlines, hlines]
    split_ifs with hc
    · exact ⟨[], l :: ls, rfl⟩
    · exact ⟨c :: l, ls, rfl⟩

/-- Reading back printed lines. -/
lemma getlines_flatMap {ls : List Str} (h : ∀ l ∈ ls, '\n' ∉ l) :
    getlines (ls.flatMap fun l => l ++ "\n".toList) = ls := by
  induction ls with
  | nil => rfl
  | cons l ls ih =>
    rw [List.flatMap_cons, getlines_append (h l List.mem_cons_self),
      ih fun l' hl' => h l' (List.mem_cons_of_mem _ hl')]

/-- A line does not contain a line end. -/
lemma not_mem_of_mem_getlines {l s : Str} (h : l ∈ getlines s) : '\n' ∉ l := by
  induction s generalizing l with
  | nil => cases h
  | cons c s ih =>
    rw [getlines] at h
    split_ifs at h with hc
    · rcases List.mem_cons.1 h with rfl | h
      · exact List.not_mem_nil
      · exact ih h
    · split at h
      · rw [List.mem_singleton.1 h, List.mem_singleton]
        exact Ne.symm hc
      · rename_i l₀ ls hlines
        rcases List.mem_cons.1 h with rfl | h
        · rw [List.mem_cons, not_or]
          exact ⟨Ne.symm hc, ih (hlines ▸ List.mem_cons_self)⟩
        · exact ih (hlines ▸ List.mem_cons_of_mem _ h)

/-- A last line without an end. -/
lemma getlines_last {l : Str} (hne : l ≠ []) (hl : '\n' ∉ l) : getlines l = [l] := by
  induction l with
  | nil => exact absurd rfl hne
  | cons c l ih =>
    obtain ⟨hc, hl⟩ := not_or.1 (mt List.mem_cons.2 hl)
    rw [getlines, if_neg (Ne.symm hc)]
    cases l with
    | nil => rfl
    | cons c' l => rw [ih nofun hl]

/-- Reading back a printed number. -/
@[simp] lemma digitsValue_decimal (n : ℕ) : digitsValue (decimal n) = n :=
  Nat.ofDigitChars_ten_toDigits

/-- `std::stoul` returns a 64-bit number. -/
lemma stoul_lt {s : Str} {n : ℕ} (h : stoul s = some n) : n < 2 ^ 64 := by
  unfold stoul at h
  dsimp only at h
  generalize List.takeWhile Char.isDigit _ = digits at h
  split_ifs at h with hempty hfits hneg
  · exact Option.some.inj h ▸ Nat.mod_lt _ (Nat.two_pow_pos 64)
  · exact Option.some.inj h ▸ hfits

/-- A number as it is written: digits only. -/
structure IsDecimal (s : Str) : Prop where
  ne_nil : s ≠ []
  digits : ∀ c ∈ s, c.isDigit = true

/-- A number is printed as one. -/
lemma isDecimal_decimal (n : ℕ) : IsDecimal (decimal n) :=
  ⟨decimal_ne_nil n, fun _ hc => isDigit_of_mem_decimal hc⟩

/-- The first character of a number is none of those that readers skip or take for a sign. -/
lemma IsDecimal.exists_cons {s : Str} (h : IsDecimal s) :
    ∃ c t, s = c :: t ∧ isSpace c = false ∧ isBlank c = false ∧ c ≠ '-' ∧ c ≠ '+' := by
  obtain ⟨c, t, rfl⟩ := List.exists_cons_of_ne_nil h.ne_nil
  have hc : c.isDigit = true := h.digits c List.mem_cons_self
  have hne (d : Char) (hd : d.isDigit = false) : c ≠ d := by
    rintro rfl
    rw [hc] at hd
    cases hd
  refine ⟨c, t, rfl, ?_, ?_, hne '-' rfl, hne '+' rfl⟩
  · simp [isSpace, hne ' ' rfl, hne '\t' rfl, hne '\n' rfl, hne '\x0b' rfl, hne '\x0c' rfl,
      hne '\r' rfl]
  · simp [isBlank, hne ' ' rfl, hne '\t' rfl]

/-- A number does not begin with a blank, -/
lemma IsDecimal.dropWhile_isBlank {s : Str} (h : IsDecimal s) : s.dropWhile isBlank = s := by
  obtain ⟨c, t, rfl, -, hblank, -⟩ := h.exists_cons
  rw [List.dropWhile_cons_of_neg (by simp [hblank])]

/-- and has only digits. -/
lemma IsDecimal.takeWhile {s : Str} (h : IsDecimal s) : s.takeWhile Char.isDigit = s :=
  List.takeWhile_eq_self_iff.2 h.digits

/-- Reading a number that is nothing but digits. -/
lemma stoul_of_isDecimal {s : Str} (h : IsDecimal s) (hlt : digitsValue s < 2 ^ 64) :
    stoul s = some (digitsValue s) := by
  obtain ⟨c, t, hs, hspace, -, hminus, hplus⟩ := h.exists_cons
  have hstart : s.dropWhile isSpace = s := by
    rw [hs, List.dropWhile_cons_of_neg (by simp [hspace])]
  have hhead : s.head? = some c := by rw [hs, List.head?_cons]
  simp only [stoul, hstart, hhead, Option.some.injEq, hminus, hplus, or_self, if_false, h.takeWhile,
    if_pos hlt, List.isEmpty_iff, h.ne_nil]

/-- Reading a number that is nothing but digits, as a signed one. -/
lemma fromChars_of_isDecimal {s : Str} (h : IsDecimal s) (hlt : digitsValue s < 2 ^ 63) :
    fromChars s = some (digitsValue s : ℤ) := by
  obtain ⟨c, t, hs, -, -, hminus, -⟩ := h.exists_cons
  have hhead : s.head? = some c := by rw [hs, List.head?_cons]
  have hfits : -2 ^ 63 ≤ (digitsValue s : ℤ) ∧ (digitsValue s : ℤ) < 2 ^ 63 := by omega
  simp only [fromChars, hhead, Option.some.injEq, hminus, if_false, h.takeWhile, List.isEmpty_iff,
    h.ne_nil, if_pos hfits]

/-- What a scan takes does not reach beyond a character that it stops at. -/
lemma takeWhile_append_cons {p : Char → Bool} {c : Char} (hc : p c = false) (s t : Str) :
    (s ++ c :: t).takeWhile p = s.takeWhile p := by
  induction s with
  | nil => rw [List.nil_append, List.takeWhile_cons_of_neg (by simp [hc]), List.takeWhile_nil]
  | cons a s ih =>
    rw [List.cons_append, List.takeWhile_cons, List.takeWhile_cons, ih]

/-- What a scan leaves out ends before a character that it stops at. -/
lemma dropWhile_append_cons {p : Char → Bool} {c : Char} (hc : p c = false) (s t : Str) :
    (s ++ c :: t).dropWhile p = s.dropWhile p ++ c :: t := by
  induction s with
  | nil => rw [List.nil_append, List.dropWhile_cons_of_neg (by simp [hc])]; rfl
  | cons a s ih =>
    rw [List.cons_append, List.dropWhile_cons, List.dropWhile_cons, ih]
    split_ifs <;> rfl

/-- A number ends before a character that cannot be part of it. -/
lemma fromChars_append_cons {c : Char} (hc : c.isDigit = false) (hm : c ≠ '-') (s t : Str) :
    fromChars (s ++ c :: t) = fromChars s := by
  cases s with
  | nil => simp [fromChars, hm, hc]
  | cons a s =>
    have htail : (if a = '-' then s ++ c :: t else a :: (s ++ c :: t)).takeWhile Char.isDigit
        = (if a = '-' then s else a :: s).takeWhile Char.isDigit := by
      split_ifs
      · exact takeWhile_append_cons hc s t
      · exact takeWhile_append_cons hc (a :: s) t
    simp only [fromChars, List.cons_append, List.head?_cons, Option.some.injEq, List.tail_cons, htail]

/-- Reading an `int` that is followed by a blank. -/
lemma readInt_of_isDecimal {s : Str} (h : IsDecimal s) (hlt : digitsValue s < 2 ^ 31) (t : Str) :
    readInt (' ' :: (s ++ ' ' :: t)) = ((digitsValue s : ℤ), some (' ' :: t)) := by
  obtain ⟨c, u, hs, hspace, -, hminus, hplus⟩ := h.exists_cons
  have hstart : (' ' :: (s ++ ' ' :: t)).dropWhile isSpace = s ++ ' ' :: t := by
    rw [List.dropWhile_cons_of_pos rfl, hs, List.cons_append,
      List.dropWhile_cons_of_neg (by simp [hspace])]
  have hhead : (s ++ ' ' :: t).head? = some c := by rw [hs, List.cons_append, List.head?_cons]
  have hdigits : (s ++ ' ' :: t).takeWhile Char.isDigit = s := by
    rw [takeWhile_append_cons rfl, h.takeWhile]
  have hrest : (s ++ ' ' :: t).dropWhile Char.isDigit = ' ' :: t := by
    rw [List.dropWhile_append_of_pos h.digits, List.dropWhile_cons_of_neg (by decide)]
  have hlow : ¬ (digitsValue s : ℤ) < -2 ^ 31 := by omega
  have hhigh : ¬ 2 ^ 31 ≤ (digitsValue s : ℤ) := by omega
  simp only [readInt, hstart, hhead, Option.some.injEq, hminus, hplus, or_self, if_false, hdigits,
    List.isEmpty_iff, h.ne_nil, hlow, hhigh, hrest]

end KvStore.Lib
