import Mathlib.Data.List.Sort
import Mathlib.Data.List.Lex
import Mathlib.Order.Basic

/-!
# Ordered maps

A finite map kept as the list of its entries in strictly increasing key order: the model of
`std::map`, of `std::set` (with `Unit` values) and of the other finite tables of the development.
The order of the entries is a field, so an `OrdMap` is determined by its lookups (`OrdMap.ext_find`)
and iterating over it visits every key once, in order.

* `find`, `insert`, `erase`, `lowerBound` are the operations.
* `find_insert`, `find_erase` compute the lookups after an update.
* `mem_entries` and `mem_keys` turn membership in the entry list into lookups.
-/

namespace KvStore.Lib

/-- A finite map with its entries in strictly increasing key order. -/
structure OrdMap (κ α : Type*) [LinearOrder κ] where
  entries : List (κ × α)
  sorted : entries.Pairwise (fun a b => a.1 < b.1)

namespace OrdMap

variable {κ α β : Type*} [LinearOrder κ]

/-- The map without entries. -/
def empty : OrdMap κ α := ⟨[], .nil⟩

/-- The value of the first entry with the given key. -/
def findIn (k : κ) : List (κ × α) → Option α
  | [] => none
  | (k', v) :: l => if k' = k then some v else findIn k l

/-- The value stored under a key. -/
def find (m : OrdMap κ α) (k : κ) : Option α := findIn k m.entries

/-- The keys in increasing order. -/
def keys (m : OrdMap κ α) : List κ := m.entries.map Prod.fst

/-- The map has no entry. -/
def isEmpty (m : OrdMap κ α) : Bool := m.entries.isEmpty

/-- Put an entry at its place in an ordered entry list, replacing an entry with the same key. -/
def insertIn (k : κ) (v : α) : List (κ × α) → List (κ × α)
  | [] => [(k, v)]
  | (k', v') :: l =>
    if k < k' then (k, v) :: (k', v') :: l
    else if k = k' then (k, v) :: l
    else (k', v') :: insertIn k v l

/-- The keys after `insertIn` are the old ones and the new one. -/
lemma mem_insertIn {k : κ} {v : α} {l : List (κ × α)} {e : κ × α} (h : e ∈ insertIn k v l) :
    e = (k, v) ∨ e ∈ l := by
  induction l with
  | nil => simpa [insertIn] using h
  | cons a l ih =>
    obtain ⟨k', v'⟩ := a
    unfold insertIn at h
    split at h
    · simpa using h
    · split at h
      · rcases List.mem_cons.1 h with h | h
        · exact .inl h
        · exact .inr (List.mem_cons_of_mem _ h)
      · rcases List.mem_cons.1 h with h | h
        · exact .inr (by simp [h])
        · exact (ih h).imp_right (List.mem_cons_of_mem _)

/-- The keys after `insertIn` do not depend on the value. -/
lemma map_fst_insertIn (k : κ) (v w : α) (l : List (κ × α)) :
    (insertIn k v l).map Prod.fst = (insertIn k w l).map Prod.fst := by
  induction l with
  | nil => rfl
  | cons e l ih =>
    unfold insertIn
    split_ifs
    · rfl
    · rfl
    · rw [List.map_cons, List.map_cons, ih]

/-- `insertIn` keeps the order. -/
lemma insertIn_sorted (k : κ) (v : α) {l : List (κ × α)}
    (hs : l.Pairwise (fun a b => a.1 < b.1)) :
    (insertIn k v l).Pairwise (fun a b => a.1 < b.1) := by
  induction l with
  | nil => simp [insertIn]
  | cons a l ih =>
    obtain ⟨k', v'⟩ := a
    obtain ⟨hlt, hl⟩ := List.pairwise_cons.1 hs
    unfold insertIn
    split_ifs with h1 h2
    · refine List.pairwise_cons.2 ⟨?_, hs⟩
      intro e he
      rcases List.mem_cons.1 he with rfl | he
      · exact h1
      · exact h1.trans (hlt e he)
    · subst h2
      exact List.pairwise_cons.2 ⟨hlt, hl⟩
    · refine List.pairwise_cons.2 ⟨?_, ih hl⟩
      intro e he
      rcases mem_insertIn he with rfl | he
      · exact lt_of_le_of_ne (not_lt.1 h1) (Ne.symm h2)
      · exact hlt e he

/-- Store a value under a key. -/
def insert (m : OrdMap κ α) (k : κ) (v : α) : OrdMap κ α :=
  ⟨insertIn k v m.entries, insertIn_sorted k v m.sorted⟩

/-- Remove the entry of a key, if there is one. -/
def erase (m : OrdMap κ α) (k : κ) : OrdMap κ α :=
  ⟨m.entries.filter (fun e => e.1 ≠ k), m.sorted.filter _⟩

/-- The entries from the first key that is not below `k` on. -/
def lowerBound (m : OrdMap κ α) (k : κ) : List (κ × α) :=
  m.entries.dropWhile (fun e => e.1 < k)

/-- Looking up in an ordered list finds exactly its entries. -/
lemma findIn_eq_some {l : List (κ × α)} (hs : l.Pairwise (fun a b => a.1 < b.1)) {k : κ} {v : α} :
    findIn k l = some v ↔ (k, v) ∈ l := by
  induction l with
  | nil => simp [findIn]
  | cons a l ih =>
    obtain ⟨k', v'⟩ := a
    obtain ⟨hlt, hl⟩ := List.pairwise_cons.1 hs
    unfold findIn
    split_ifs with h
    · subst h
      have hnot : (k', v) ∉ l := fun hm => lt_irrefl k' (hlt (k', v) hm)
      simp [hnot, eq_comm]
    · rw [ih hl]
      simp [Ne.symm h]

/-- An entry is in the list exactly when the lookup finds it. -/
lemma mem_entries {m : OrdMap κ α} {k : κ} {v : α} :
    (k, v) ∈ m.entries ↔ m.find k = some v :=
  (findIn_eq_some m.sorted).symm

/-- A key is listed exactly when it has a value. -/
lemma mem_keys {m : OrdMap κ α} {k : κ} : k ∈ m.keys ↔ ∃ v, m.find k = some v := by
  simp [keys, mem_entries]

/-- A key is listed exactly when the lookup does not fail. -/
lemma mem_keys_iff_ne_none {m : OrdMap κ α} {k : κ} : k ∈ m.keys ↔ m.find k ≠ none := by
  rw [mem_keys, Option.ne_none_iff_exists']

/-- No key is listed twice. -/
lemma nodup_keys (m : OrdMap κ α) : m.keys.Nodup := by
  have h : m.keys.Pairwise (· < ·) := List.pairwise_map.2 m.sorted
  exact h.imp fun hlt => ne_of_lt hlt

/-- Two maps with the same lookups are equal. -/
lemma ext_find {m m' : OrdMap κ α} (h : ∀ k, m.find k = m'.find k) : m = m' := by
  have hnd : ∀ x : OrdMap κ α, x.entries.Nodup := fun x =>
    x.sorted.imp fun hlt heq => by simp [heq] at hlt
  have hp : m.entries.Perm m'.entries := by
    rw [List.perm_ext_iff_of_nodup (hnd m) (hnd m')]
    rintro ⟨k, v⟩
    rw [mem_entries, mem_entries, h]
  have he : m.entries = m'.entries :=
    hp.eq_of_pairwise (fun a b _ _ h1 h2 => absurd h2 (lt_asymm h1)) m.sorted m'.sorted
  obtain ⟨l, hl⟩ := m
  cases he
  rfl

/-- The empty map has no key. -/
@[simp] lemma find_empty (k : κ) : (empty : OrdMap κ α).find k = none := rfl

/-- Looking up after `insertIn`. -/
lemma findIn_insertIn (k k' : κ) (v : α) (l : List (κ × α)) :
    findIn k' (insertIn k v l) = if k = k' then some v else findIn k' l := by
  induction l with
  | nil => simp [insertIn, findIn]
  | cons a l ih =>
    obtain ⟨k₀, v₀⟩ := a
    by_cases h1 : k < k₀
    · simp [insertIn, findIn, h1]
    · by_cases h2 : k = k₀
      · subst h2
        by_cases h3 : k = k' <;> simp [insertIn, findIn, h3]
      · simp only [insertIn, h1, h2, if_false, findIn, ih]
        by_cases h3 : k₀ = k'
        · subst h3
          simp [h2]
        · simp [h3]

/-- The lookup after storing a value. -/
lemma find_insert (m : OrdMap κ α) (k k' : κ) (v : α) [Decidable (k = k')] :
    (m.insert k v).find k' = if k = k' then some v else m.find k' := by
  refine (findIn_insertIn k k' v m.entries).trans ?_
  split_ifs <;> rfl

/-- A key that is inserted is found, -/
@[simp] lemma find_insert_self (m : OrdMap κ α) (k : κ) (v : α) :
    (m.insert k v).find k = some v := by
  simp [find_insert]

/-- and the others are found as before. -/
lemma find_insert_ne (m : OrdMap κ α) {k k' : κ} (h : k ≠ k') (v : α) :
    (m.insert k v).find k' = m.find k' := by
  simp [find_insert, h]

/-- A map filled with the entries of a list whose keys are distinct. -/
lemma find_foldl_insert {l : List (κ × α)} (h : (l.map Prod.fst).Nodup) (m : OrdMap κ α) {k : κ}
    {v : α} :
    (l.foldl (fun m e => m.insert e.1 e.2) m).find k = some v
      ↔ (k, v) ∈ l ∨ k ∉ l.map Prod.fst ∧ m.find k = some v := by
  classical
  induction l generalizing m with
  | nil => simp
  | cons e l ih =>
    obtain ⟨he, hl⟩ := List.nodup_cons.1 h
    rw [List.foldl_cons, ih hl, find_insert, List.map_cons, List.mem_cons, List.mem_cons]
    by_cases hk : e.1 = k
    · subst hk
      have hmem : (e.1, v) ∉ l := fun hm => he (List.mem_map.2 ⟨_, hm, rfl⟩)
      have hhead : (e.1, v) = e ↔ e.2 = v := by rw [Prod.ext_iff, eq_self_iff_true, true_and, eq_comm]
      simp [he, hmem, hhead]
    · have hhead : (k, v) ≠ e := fun h => hk (congrArg Prod.fst h).symm
      simp [hk, hhead, Ne.symm hk]

/-- Looking up after dropping the entries of a key. -/
lemma findIn_filter_ne (k k' : κ) (l : List (κ × α)) :
    findIn k' (l.filter (fun e => e.1 ≠ k)) = if k = k' then none else findIn k' l := by
  induction l with
  | nil => simp [findIn]
  | cons a l ih =>
    obtain ⟨k₀, v₀⟩ := a
    by_cases h1 : k₀ = k
    · subst h1
      rw [List.filter_cons_of_neg (by simp), ih]
      by_cases h2 : k₀ = k' <;> simp [findIn, h2]
    · rw [List.filter_cons_of_pos (by simpa using h1), findIn, findIn, ih]
      by_cases h2 : k₀ = k'
      · subst h2
        simp [Ne.symm h1]
      · simp [h2]

/-- The lookup after removing a key. -/
lemma find_erase (m : OrdMap κ α) (k k' : κ) [Decidable (k = k')] :
    (m.erase k).find k' = if k = k' then none else m.find k' := by
  refine (findIn_filter_ne k k' m.entries).trans ?_
  split_ifs <;> rfl

/-- A key that is erased is gone, -/
@[simp] lemma find_erase_self (m : OrdMap κ α) (k : κ) : (m.erase k).find k = none := by
  simp [find_erase]

/-- and the others are found as before. -/
lemma find_erase_ne (m : OrdMap κ α) {k k' : κ} (h : k ≠ k') :
    (m.erase k).find k' = m.find k' := by
  simp [find_erase, h]

/-- A map without entries finds nothing, and conversely. -/
lemma isEmpty_iff {m : OrdMap κ α} : m.isEmpty = true ↔ ∀ k, m.find k = none := by
  constructor
  · intro h k
    have he : m.entries = [] := List.isEmpty_iff.1 h
    simp [find, he, findIn]
  · intro h
    rw [isEmpty, List.isEmpty_iff, List.eq_nil_iff_forall_not_mem]
    rintro ⟨k, v⟩ hm
    rw [mem_entries, h] at hm
    cases hm

/-- In an ordered list the entries below a bound are the leading ones. -/
lemma dropWhile_eq_filter {l : List (κ × α)} (hs : l.Pairwise (fun a b => a.1 < b.1)) (k : κ) :
    l.dropWhile (fun e => e.1 < k) = l.filter (fun e => k ≤ e.1) := by
  induction l with
  | nil => rfl
  | cons a l ih =>
    obtain ⟨hlt, hl⟩ := List.pairwise_cons.1 hs
    by_cases h : a.1 < k
    · simp [h, not_le.2 h, ih hl]
    · have hall : ∀ e ∈ a :: l, k ≤ e.1 := by
        intro e he
        rcases List.mem_cons.1 he with rfl | he
        · exact not_lt.1 h
        · exact (not_lt.1 h).trans (hlt e he).le
      rw [List.dropWhile_cons_of_neg (by simpa using h)]
      exact (List.filter_eq_self.2 fun e he => by simpa using hall e he).symm

/-- The entries before the lower bound are those with smaller keys. -/
lemma takeWhile_eq_filter {l : List (κ × α)} (hs : l.Pairwise (fun a b => a.1 < b.1)) (k : κ) :
    l.takeWhile (fun e => e.1 < k) = l.filter (fun e => e.1 < k) := by
  induction l with
  | nil => rfl
  | cons a l ih =>
    obtain ⟨hlt, hl⟩ := List.pairwise_cons.1 hs
    by_cases h : a.1 < k
    · simp [h, ih hl]
    · have hnone : ∀ e ∈ l, ¬ e.1 < k := fun e he =>
        not_lt.2 ((not_lt.1 h).trans (hlt e he).le)
      rw [List.takeWhile_cons_of_neg (by simpa using h), List.filter_cons_of_neg (by simpa using h)]
      exact (List.filter_eq_nil_iff.2 fun e he => by simpa using hnone e he).symm

/-- The entries met when walking once around the map, starting at the lower bound of `k`. -/
def walk (m : OrdMap κ α) (k : κ) : List (κ × α) :=
  m.lowerBound k ++ m.entries.takeWhile (fun e => e.1 < k)

/-- The walk from `k` lists the keys from `k` on and then those below `k`. -/
lemma walk_eq_filter (m : OrdMap κ α) (k : κ) :
    m.walk k = m.entries.filter (fun e => k ≤ e.1) ++ m.entries.filter (fun e => e.1 < k) := by
  rw [walk, lowerBound, dropWhile_eq_filter m.sorted, takeWhile_eq_filter m.sorted]

/-- The walk meets exactly the entries of the map. -/
lemma mem_walk {m : OrdMap κ α} {k : κ} {e : κ × α} : e ∈ m.walk k ↔ e ∈ m.entries := by
  rw [walk_eq_filter, List.mem_append, List.mem_filter, List.mem_filter]
  rcases lt_or_ge e.1 k with h | h
  · simp [h, not_le.2 h]
  · simp [h, not_lt.2 h]

/-- The walk from a key of the map begins there. -/
lemma head?_walk {m : OrdMap κ α} {k : κ} {v : α} (h : m.find k = some v) :
    (m.walk k).head? = some (k, v) := by
  have hfirst : ∀ {l : List (κ × α)}, l.Pairwise (fun a b => a.1 < b.1) → findIn k l = some v →
      (l.filter fun e => k ≤ e.1).head? = some (k, v) := by
    intro l hs hf
    induction l with
    | nil => cases hf
    | cons e l ih =>
      obtain ⟨hlt, hl⟩ := List.pairwise_cons.1 hs
      rw [findIn] at hf
      split_ifs at hf with he
      · rw [List.filter_cons_of_pos (by simp [he]), List.head?_cons, ← Option.some.inj hf, ← he]
      · have hmem : (k, v) ∈ l := (findIn_eq_some hl).1 hf
        have hbelow : e.1 < k := hlt _ hmem
        rw [List.filter_cons_of_neg (by simpa using hbelow)]
        exact ih hl hf
  rw [walk_eq_filter, List.head?_append, hfirst m.sorted h]
  rfl

/-- The walk is as long as the map. -/
lemma length_walk (m : OrdMap κ α) (k : κ) : (m.walk k).length = m.entries.length := by
  have h := congrArg List.length
    (List.takeWhile_append_dropWhile (p := fun e : κ × α => e.1 < k) (l := m.entries))
  rw [List.length_append] at h
  rw [walk, lowerBound, List.length_append]
  omega

/-- Keep the values that satisfy `p` and rewrite them with `g`. -/
def filterMap (m : OrdMap κ α) (p : α → Bool) (g : α → β) : OrdMap κ β :=
  ⟨(m.entries.filter (fun e => p e.2)).map (fun e => (e.1, g e.2)),
    List.pairwise_map.2 (m.sorted.filter _)⟩

/-- The lookup in a filtered and rewritten map. -/
lemma find_filterMap (m : OrdMap κ α) (p : α → Bool) (g : α → β) (k : κ) :
    (m.filterMap p g).find k = ((m.find k).filter p).map g := by
  apply Option.ext
  intro v
  rw [← mem_entries]
  simp [filterMap, mem_entries, Option.filter_eq_some_iff, and_assoc]

/-- Filtering and rewriting a map does the same to its walks. -/
lemma walk_filterMap (m : OrdMap κ α) (p : α → Bool) (g : α → β) (k : κ) :
    (m.filterMap p g).walk k
      = ((m.walk k).filter (fun e => p e.2)).map (fun e => (e.1, g e.2)) := by
  simp only [walk_eq_filter, filterMap, List.filter_append, List.map_append, List.filter_map,
    List.filter_filter, Function.comp_def, Bool.and_comm]

end OrdMap

end KvStore.Lib
