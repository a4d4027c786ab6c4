import KvStore.Lib.History
import Mathlib.Data.Finset.Card
import Mathlib.Data.List.Nodup

/-!
# Least recently used

A bounded cache as the list of its entries, the one that was used last in front. `LruOp.touches` is
the key that a call uses and `LruOp.stores` the entry that it stores, both depending on what the
cache has. Over a history of calls, starting with an empty cache:

* `pairwise_lruAfter`: the list is in the order of the last uses, the latest first.
* `usedBefore_of_last`: the key that a create drops is the one that was used least recently.
* `mem_keys_of_touched`: a key stays as long as fewer than `capacity` others have been used since.
* `latest_stored`: its value is the one that was stored last.
-/

namespace KvStore.Lib

variable {κ α : Type*} [DecidableEq κ]

/-- The calls of a cache. -/
inductive LruOp (κ α : Type*) where
  | read (key : κ)
  | create (key : κ) (value : α)
  | update (key : κ) (value : α)
  | delete (key : κ)
deriving DecidableEq, Repr

/-- The value of a key. -/
def valueOf (key : κ) (l : List (κ × α)) : Option α :=
  (l.find? fun e => e.1 = key).map Prod.snd

/-- The entries of the other keys. -/
def without (key : κ) (l : List (κ × α)) : List (κ × α) := l.filter fun e => e.1 ≠ key

/-- The entries that stay when another one comes. -/
def makeRoom (capacity : ℕ) (l : List (κ × α)) : List (κ × α) :=
  if capacity ≤ l.length then l.dropLast else l

/-- The list after a call. -/
def lruStep (capacity : ℕ) (l : List (κ × α)) : LruOp κ α → List (κ × α)
  | .read key =>
    match valueOf key l with
    | some value => (key, value) :: without key l
    | none => l
  | .create key value =>
    match valueOf key l with
    | some _ => l
    | none => (key, value) :: makeRoom capacity l
  | .update key value =>
    match valueOf key l with
    | some _ => (key, value) :: without key l
    | none => l
  | .delete key => without key l

/-- The key that a call uses. -/
def LruOp.touches (l : List (κ × α)) : LruOp κ α → Option κ
  | .read key => if (valueOf key l).isSome then some key else none
  | .create key _ => if (valueOf key l).isSome then none else some key
  | .update key _ => if (valueOf key l).isSome then some key else none
  | .delete _ => none

/-- The entry that a call stores. -/
def LruOp.stores (l : List (κ × α)) : LruOp κ α → Option (κ × α)
  | .read _ => none
  | .create key value => if (valueOf key l).isSome then none else some (key, value)
  | .update key value => if (valueOf key l).isSome then some (key, value) else none
  | .delete _ => none

/-- The list after some calls on an empty cache. -/
def lruAfter (capacity : ℕ) (ops : List (LruOp κ α)) : List (κ × α) :=
  ops.foldl (lruStep capacity) []

/-- The key that is used at a time. -/
def lruTouchedAt (capacity : ℕ) : List (LruOp κ α) → ℕ → Option κ :=
  observedAt (lruStep capacity) [] LruOp.touches

/-- The entry that is stored at a time. -/
def lruStoredAt (capacity : ℕ) : List (LruOp κ α) → ℕ → Option (κ × α) :=
  observedAt (lruStep capacity) [] LruOp.stores

section
variable {capacity : ℕ} {l : List (κ × α)} {key : κ} {value : α} {op : LruOp κ α}

/-- All entries but those of the key stay. -/
lemma mem_without {e : κ × α} : e ∈ without key l ↔ e ∈ l ∧ e.1 ≠ key := by
  rw [without, List.mem_filter, decide_eq_true_iff]

/-- The key itself is gone. -/
lemma not_mem_keys_without : key ∉ (without key l).map Prod.fst := by
  intro hm
  obtain ⟨e, he, rfl⟩ := List.mem_map.1 hm
  exact (mem_without.1 he).2 rfl

/-- What is looked up is an entry of the list. -/
lemma mem_of_valueOf (h : valueOf key l = some value) : (key, value) ∈ l := by
  obtain ⟨e, he, rfl⟩ := Option.map_eq_some_iff.1 h
  have hkey : e.1 = key := by simpa using List.find?_some he
  rw [← hkey]
  exact List.mem_of_find?_eq_some he

/-- A key without a value is not in the list. -/
lemma valueOf_eq_none : valueOf key l = none ↔ key ∉ l.map Prod.fst := by
  rw [valueOf, Option.map_eq_none_iff, List.find?_eq_none, List.mem_map]
  constructor
  · rintro h ⟨e, he, rfl⟩
    exact h e he (decide_eq_true rfl)
  · intro h e he hkey
    exact h ⟨e, he, of_decide_eq_true hkey⟩

omit [DecidableEq κ] in
/-- Making room only takes entries away. -/
lemma makeRoom_sublist (capacity : ℕ) (l : List (κ × α)) : (makeRoom capacity l).Sublist l := by
  unfold makeRoom
  split_ifs
  · exact List.dropLast_sublist l
  · exact List.Sublist.refl l

omit [DecidableEq κ] in
/-- An entry that has to go is the last of a full list. -/
lemma mem_makeRoom {e : κ × α} (he : e ∈ l) :
    e ∈ makeRoom capacity l ∨ capacity ≤ l.length ∧ l.dropLast ++ [e] = l := by
  unfold makeRoom
  split_ifs with hfull
  · have hlast : l.dropLast ++ [l.getLast (List.ne_nil_of_mem he)] = l :=
      List.dropLast_append_getLast _
    generalize l.getLast (List.ne_nil_of_mem he) = last at hlast
    rw [← hlast, List.mem_append, List.mem_singleton] at he
    rcases he with he | rfl
    · exact .inl he
    · exact .inr ⟨hfull, hlast⟩
  · exact .inl he

/-- What a call makes of the list: the key that it uses comes first, and of the other entries at most
    one goes; or it uses no key, and at most the key that it deletes goes. -/
inductive LruCase (capacity : ℕ) (l : List (κ × α)) (op : LruOp κ α) : List (κ × α) → Prop where
  | used {key value rest} :
    op.touches l = some key →
    (op.stores l = some (key, value) ∨ op.stores l = none ∧ (key, value) ∈ l) →
    rest.Sublist l →
    key ∉ rest.map Prod.fst →
    (∀ e ∈ l, e.1 = key ∨ e ∈ rest
      ∨ key ∉ l.map Prod.fst ∧ capacity ≤ l.length ∧ l.dropLast ++ [e] = l) →
    LruCase capacity l op ((key, value) :: rest)
  | unused {rest} :
    op.touches l = none →
    op.stores l = none →
    rest.Sublist l →
    (∀ e ∈ l, e ∈ rest ∨ op = .delete e.1) →
    LruCase capacity l op rest

/-- Every step is one of these. -/
lemma lruStep_spec (capacity : ℕ) (l : List (κ × α)) (op : LruOp κ α) :
    LruCase capacity l op (lruStep capacity l op) := by
  have hothers (key : κ) : ∀ e ∈ l, e.1 = key ∨ e ∈ without key l := by
    intro e he
    by_cases hk : e.1 = key
    · exact .inl hk
    · exact .inr (mem_without.2 ⟨he, hk⟩)
  have hmoved (key : κ) : ∀ e ∈ l, e.1 = key ∨ e ∈ without key l
      ∨ key ∉ l.map Prod.fst ∧ capacity ≤ l.length ∧ l.dropLast ++ [e] = l :=
    fun e he => (hothers key e he).imp_right .inl
  cases op with
  | read key =>
    cases hl : valueOf key l with
    | none =>
      simp only [lruStep, hl]
      exact .unused (by simp [LruOp.touches, hl]) rfl (.refl l) fun e he => .inl he
    | some value =>
      simp only [lruStep, hl]
      exact .used (by simp [LruOp.touches, hl]) (.inr ⟨rfl, mem_of_valueOf hl⟩) List.filter_sublist
        not_mem_keys_without (hmoved key)
  | create key value =>
    cases hl : valueOf key l with
    | some old =>
      simp only [lruStep, hl]
      exact .unused (by simp [LruOp.touches, hl]) (by simp [LruOp.stores, hl]) (.refl l)
        fun e he => .inl he
    | none =>
      have hkey := valueOf_eq_none.1 hl
      simp only [lruStep, hl]
      refine .used (by simp [LruOp.touches, hl]) (.inl (by simp [LruOp.stores, hl]))
        (makeRoom_sublist capacity l) ?_ fun e he => .inr ?_
      · exact fun hm => hkey (((makeRoom_sublist capacity l).map _).subset hm)
      · exact (mem_makeRoom he).imp_right fun hgone => ⟨hkey, hgone⟩
  | update key value =>
    cases hl : valueOf key l with
    | none =>
      simp only [lruStep, hl]
      exact .unused (by simp [LruOp.touches, hl]) (by simp [LruOp.stores, hl]) (.refl l)
        fun e he => .inl he
    | some old =>
      simp only [lruStep, hl]
      exact .used (by simp [LruOp.touches, hl]) (.inl (by simp [LruOp.stores, hl]))
        List.filter_sublist not_mem_keys_without (hmoved key)
  | delete key =>
    refine .unused rfl rfl List.filter_sublist fun e he => ?_
    rcases hothers key e he with rfl | hm
    · exact .inr rfl
    · exact .inl hm

/-- A step keeps the keys apart. -/
lemma nodup_keys_lruStep (h : (l.map Prod.fst).Nodup) :
    ((lruStep capacity l op).map Prod.fst).Nodup := by
  have hspec := lruStep_spec capacity l op
  generalize lruStep capacity l op = l' at hspec
  cases hspec with
  | used _ _ hrest hkey _ => exact List.nodup_cons.2 ⟨hkey, h.sublist (hrest.map _)⟩
  | unused _ _ hrest _ => exact h.sublist (hrest.map _)

/-- There are fewer entries without one of them. -/
lemma length_without_lt (h : (key, value) ∈ l) : (without key l).length < l.length :=
  List.length_filter_lt_length_iff_exists.2 ⟨_, h, by simp⟩

omit [DecidableEq κ] in
/-- Afterwards there is room for an entry. -/
lemma length_makeRoom_lt (hc : 1 ≤ capacity) (h : l.length ≤ capacity) :
    (makeRoom capacity l).length < capacity := by
  unfold makeRoom
  split_ifs
  · rw [List.length_dropLast]
    omega
  · omega

/-- Without a key a shorter list still comes first. -/
lemma prefix_without {l' : List (κ × α)} (h : l <+: l') (key : κ) :
    without key l <+: without key l' := h.filter _

omit [DecidableEq κ] in
/-- Room is made at the end, so the list with fewer places still comes first. -/
lemma prefix_makeRoom {capacity' : ℕ} {l' : List (κ × α)} (h : l <+: l')
    (hcapacity : capacity ≤ capacity') : makeRoom capacity l <+: makeRoom capacity' l' := by
  have hle : l.length ≤ l'.length := h.length_le
  have hroom : makeRoom capacity l <+: l' := by
    unfold makeRoom
    split_ifs
    · exact (List.dropLast_prefix l).trans h
    · exact h
  rw [makeRoom.eq_def capacity']
  split_ifs with hfull
  · refine List.prefix_of_prefix_length_le hroom (List.dropLast_prefix l') ?_
    rw [List.length_dropLast]
    unfold makeRoom
    split_ifs
    · rw [List.length_dropLast]
      omega
    · omega
  · exact hroom

/-- What a list has for a key, a longer one has as well. -/
lemma valueOf_shorter {l' : List (κ × α)} (h : l <+: l') (hl : valueOf key l = some value) :
    valueOf key l' = some value := by
  obtain ⟨rest, rfl⟩ := h
  obtain ⟨e, he, hvalue⟩ := Option.map_eq_some_iff.1 hl
  rw [valueOf, List.find?_append, he, Option.some_or, Option.map_some, hvalue]

/-- The list never has more entries than there is room for. -/
lemma length_lruStep_le (hc : 1 ≤ capacity) (h : l.length ≤ capacity) :
    (lruStep capacity l op).length ≤ capacity := by
  have hmoved {key : κ} {value value' : α} (hl : valueOf key l = some value) :
      ((key, value') :: without key l).length ≤ capacity :=
    (length_without_lt (mem_of_valueOf hl)).trans_le h
  cases op with
  | read key =>
    cases hl : valueOf key l with
    | none => simpa only [lruStep, hl] using h
    | some value => simpa only [lruStep, hl] using hmoved hl
  | create key value =>
    cases hl : valueOf key l with
    | none =>
      simp only [lruStep, hl]
      exact length_makeRoom_lt hc h
    | some old => simpa only [lruStep, hl] using h
  | update key value =>
    cases hl : valueOf key l with
    | none => simpa only [lruStep, hl] using h
    | some old => simpa only [lruStep, hl] using hmoved hl
  | delete key => exact (List.length_filter_le _ l).trans h

end

/-- The last time at which a key is used. -/
def LruLastUse (capacity : ℕ) (ops : List (LruOp κ α)) (key : κ) (t : ℕ) : Prop :=
  Latest (fun t => lruTouchedAt capacity ops t = some key) t

/-- One key was used for the last time before another one was. -/
def LruUsedBefore (capacity : ℕ) (ops : List (LruOp κ α)) (key key' : κ) : Prop :=
  ∃ t t', LruLastUse capacity ops key t ∧ LruLastUse capacity ops key' t' ∧ t < t'

/-- The keys other than one that have been used since. -/
def lruOthersSince (capacity : ℕ) (ops : List (LruOp κ α)) (t : ℕ) (key : κ) : Finset κ :=
  (((List.range ops.length).filter (t < ·)).filterMap (lruTouchedAt capacity ops)).toFinset.erase key

section
variable {capacity : ℕ} {ops : List (LruOp κ α)} {op : LruOp κ α} {key k : κ} {value : α} {t : ℕ}

/-- One more operation is one more step. -/
lemma lruAfter_concat (capacity : ℕ) (ops : List (LruOp κ α)) (op : LruOp κ α) :
    lruAfter capacity (ops ++ [op]) = lruStep capacity (lruAfter capacity ops) op := by
  rw [lruAfter, List.foldl_append]
  rfl

/-- The keys of the list are always apart. -/
lemma nodup_keys_lruAfter (capacity : ℕ) (ops : List (LruOp κ α)) :
    ((lruAfter capacity ops).map Prod.fst).Nodup := by
  induction ops using List.reverseRecOn with
  | nil => exact .nil
  | append_singleton ops op ih =>
    rw [lruAfter_concat]
    exact nodup_keys_lruStep ih

/-- A key is one of these if it is used at a later time. -/
lemma mem_lruOthersSince : k ∈ lruOthersSince capacity ops t key
    ↔ k ≠ key ∧ ∃ t' > t, lruTouchedAt capacity ops t' = some k := by
  rw [lruOthersSince, Finset.mem_erase, List.mem_toFinset, List.mem_filterMap]
  refine and_congr_right fun _ => ⟨?_, ?_⟩
  · rintro ⟨t', ht', hk⟩
    exact ⟨t', of_decide_eq_true (List.mem_filter.1 ht').2, hk⟩
  · rintro ⟨t', ht', hk⟩
    refine ⟨t', List.mem_filter.2 ⟨List.mem_range.2 ?_, decide_eq_true ht'⟩, hk⟩
    exact lt_of_observedAt hk

/-- A call that uses the key is the last to do so. -/
lemma lastUse_concat_self (h : op.touches (lruAfter capacity ops) = some key) :
    LruLastUse capacity (ops ++ [op]) key ops.length := by
  refine ⟨observedAt_append.2 (.inr ⟨rfl, h⟩), fun t' ht' hk => ?_⟩
  have hlt := lt_of_observedAt hk
  rw [List.length_append, List.length_singleton] at hlt
  omega

/-- A call that does not use the key changes nothing about its last use. -/
lemma LruLastUse.concat (hlast : LruLastUse capacity ops key t)
    (h : op.touches (lruAfter capacity ops) ≠ some key) :
    LruLastUse capacity (ops ++ [op]) key t := by
  refine Latest.congr hlast fun t => ?_
  rw [lruTouchedAt, observedAt_append]
  exact ⟨.inl, fun hor => hor.resolve_right fun hr => h hr.2⟩

/-- A call that uses neither of the keys does not change which one was used before. -/
lemma LruUsedBefore.concat (hbefore : LruUsedBefore capacity ops key k)
    (hkey : op.touches (lruAfter capacity ops) ≠ some key)
    (hk : op.touches (lruAfter capacity ops) ≠ some k) :
    LruUsedBefore capacity (ops ++ [op]) key k := by
  obtain ⟨t, t', ht, ht', hlt⟩ := hbefore
  exact ⟨t, t', ht.concat hkey, ht'.concat hk, hlt⟩

/-- The list is in the order of the last uses, the latest first. -/
theorem pairwise_lruAfter (capacity : ℕ) (ops : List (LruOp κ α)) :
    (∀ e ∈ lruAfter capacity ops, ∃ t, LruLastUse capacity ops e.1 t)
      ∧ (lruAfter capacity ops).Pairwise fun e e' => LruUsedBefore capacity ops e'.1 e.1 := by
  induction ops using List.reverseRecOn with
  | nil => exact ⟨nofun, .nil⟩
  | append_singleton ops op ih =>
    obtain ⟨hused, hpair⟩ := ih
    rw [lruAfter_concat]
    have hspec := lruStep_spec capacity (lruAfter capacity ops) op
    generalize lruStep capacity (lruAfter capacity ops) op = l at hspec
    cases hspec with
    | @used key value rest htouches _ hrest hkey _ =>
      have hself := lastUse_concat_self htouches
      have hne {e : κ × α} (he : e ∈ rest) : op.touches (lruAfter capacity ops) ≠ some e.1 := by
        rw [htouches]
        rintro ⟨⟩
        exact hkey (List.mem_map_of_mem he)
      have hlast {e : κ × α} (he : e ∈ rest) :
          ∃ t < ops.length, LruLastUse capacity (ops ++ [op]) e.1 t := by
        obtain ⟨t, ht⟩ := hused e (hrest.subset he)
        exact ⟨t, lt_of_observedAt ht.1, ht.concat (hne he)⟩
      refine ⟨List.forall_mem_cons.2 ⟨⟨_, hself⟩, fun e he => ?_⟩, List.pairwise_cons.2 ⟨?_, ?_⟩⟩
      · obtain ⟨t, -, ht⟩ := hlast he
        exact ⟨t, ht⟩
      · intro e he
        obtain ⟨t, hlt, ht⟩ := hlast he
        exact ⟨t, _, ht, hself, hlt⟩
      · refine (hpair.sublist hrest).imp_of_mem fun he he' hbefore => ?_
        exact hbefore.concat (hne he') (hne he)
    | unused htouches _ hrest _ =>
      have hne (k : κ) : op.touches (lruAfter capacity ops) ≠ some k := by
        rw [htouches]
        nofun
      refine ⟨fun e he => ?_, (hpair.sublist hrest).imp fun h => h.concat (hne _) (hne _)⟩
      obtain ⟨t, ht⟩ := hused e (hrest.subset he)
      exact ⟨t, ht.concat (hne _)⟩

/-- The key at the end of the list was used least recently. -/
lemma usedBefore_of_last {e e' : κ × α}
    (he : (lruAfter capacity ops).dropLast ++ [e] = lruAfter capacity ops)
    (he' : e' ∈ lruAfter capacity ops) (hne : e'.1 ≠ e.1) :
    LruUsedBefore capacity ops e.1 e'.1 := by
  have hpair := (pairwise_lruAfter capacity ops).2
  rw [← he, List.mem_append, List.mem_singleton] at he'
  rw [← he, List.pairwise_append] at hpair
  rcases he' with he' | rfl
  · exact hpair.2.2 e' he' e List.mem_cons_self
  · exact absurd rfl hne

/-- When an entry has to go, as many other keys have been used since its last use as there are
    places. -/
lemma le_card_othersSince {e : κ × α}
    (he : (lruAfter capacity ops).dropLast ++ [e] = lruAfter capacity ops)
    (hnew : op.touches (lruAfter capacity ops) = some k)
    (hk : k ∉ (lruAfter capacity ops).map Prod.fst)
    (ht : lruTouchedAt capacity ops t = some e.1) :
    (lruAfter capacity ops).length ≤ (lruOthersSince capacity (ops ++ [op]) t e.1).card := by
  have hmem : e ∈ lruAfter capacity ops := by
    rw [← he]
    exact List.mem_append_right _ List.mem_cons_self
  have hkeys : (insert k (((lruAfter capacity ops).map Prod.fst).toFinset.erase e.1)).card
      = (lruAfter capacity ops).length := by
    have hpos : 0 < (lruAfter capacity ops).length := List.length_pos_of_mem hmem
    rw [Finset.card_insert_of_notMem, Finset.card_erase_of_mem,
      List.toFinset_card_of_nodup (nodup_keys_lruAfter capacity ops), List.length_map]
    · omega
    · exact List.mem_toFinset.2 (List.mem_map_of_mem hmem)
    · exact fun h => hk (List.mem_toFinset.1 (Finset.mem_of_mem_erase h))
  rw [← hkeys]
  refine Finset.card_le_card fun k' hk' => mem_lruOthersSince.2 ?_
  rcases Finset.mem_insert.1 hk' with rfl | hk'
  · refine ⟨?_, ops.length, lt_of_observedAt ht, observedAt_append.2 (.inr ⟨rfl, hnew⟩)⟩
    rintro rfl
    exact hk (List.mem_map_of_mem hmem)
  · obtain ⟨hne, hk'⟩ := Finset.mem_erase.1 hk'
    obtain ⟨e', he', rfl⟩ := List.mem_map.1 (List.mem_toFinset.1 hk')
    obtain ⟨t₁, t₂, h₁, h₂, hlt⟩ := usedBefore_of_last he he' hne
    exact ⟨hne, t₂, (h₁.le ht).trans_lt hlt, observedAt_append.2 (.inl h₂.1)⟩

/-- A key that was used and has not been deleted since is still there as long as fewer than
    `capacity` other keys have been used. -/
theorem mem_keys_of_touched (ht : lruTouchedAt capacity ops t = some key)
    (hdelete : ∀ t' > t, ops[t']? ≠ some (.delete key))
    (hcard : (lruOthersSince capacity ops t key).card < capacity) :
    key ∈ (lruAfter capacity ops).map Prod.fst := by
  induction ops using List.reverseRecOn with
  | nil => cases ht
  | append_singleton ops op ih =>
    have hspec := lruStep_spec capacity (lruAfter capacity ops) op
    rw [lruAfter_concat]
    generalize lruStep capacity (lruAfter capacity ops) op = l at hspec
    rcases observedAt_append.1 ht with ht | ⟨rfl, hop⟩
    · have hlen : t < ops.length := lt_of_observedAt ht
      have hothers : (lruOthersSince capacity ops t key).card < capacity := by
        refine (Finset.card_le_card fun k hk => ?_).trans_lt hcard
        obtain ⟨hne, t', ht', hk⟩ := mem_lruOthersSince.1 hk
        exact mem_lruOthersSince.2 ⟨hne, t', ht', observedAt_append.2 (.inl hk)⟩
      have hbefore : key ∈ (lruAfter capacity ops).map Prod.fst := by
        refine ih ht (fun t' ht' hd => hdelete t' ht' ?_) hothers
        exact (List.getElem?_append_left (List.getElem?_eq_some_iff.1 hd).1).trans hd
      obtain ⟨e, he, rfl⟩ := List.mem_map.1 hbefore
      cases hspec with
      | @used k value rest htouches _ _ _ hkept =>
        rcases hkept e he with hk | hrest | ⟨hnew, hfull, hlast⟩
        · exact List.mem_cons.2 (.inl hk)
        · exact List.mem_cons_of_mem _ (List.mem_map_of_mem hrest)
        · have hmany := le_card_othersSince hlast htouches hnew ht
          omega
      | unused _ _ _ hkept =>
        rcases hkept e he with hrest | rfl
        · exact List.mem_map_of_mem hrest
        · exact absurd List.getElem?_concat_length (hdelete ops.length hlen)
    · cases hspec with
      | used htouches _ _ _ _ =>
        obtain rfl := Option.some.inj (htouches.symm.trans hop)
        exact List.mem_cons_self
      | unused htouches _ _ _ => cases htouches.symm.trans hop

/-- The value of an entry is the one that was stored last under its key. -/
theorem latest_stored (h : (key, value) ∈ lruAfter capacity ops) :
    ∃ t, lruStoredAt capacity ops t = some (key, value)
      ∧ ∀ t' > t, ∀ value', lruStoredAt capacity ops t' ≠ some (key, value') := by
  induction ops using List.reverseRecOn generalizing value with
  | nil => cases h
  | append_singleton ops op ih =>
    -- without a store under the key, its last one is the one before
    have hsame (hno : ∀ value', op.stores (lruAfter capacity ops) ≠ some (key, value'))
        (hmem : (key, value) ∈ lruAfter capacity ops) :
        ∃ t, lruStoredAt capacity (ops ++ [op]) t = some (key, value)
          ∧ ∀ t' > t, ∀ value', lruStoredAt capacity (ops ++ [op]) t' ≠ some (key, value') := by
      obtain ⟨t, ht, hlast⟩ := ih hmem
      refine ⟨t, observedAt_append.2 (.inl ht), fun t' ht' value' hs => ?_⟩
      rcases observedAt_append.1 hs with hs | ⟨-, hs⟩
      · exact hlast t' ht' value' hs
      · exact hno value' hs
    rw [lruAfter_concat] at h
    have hspec := lruStep_spec capacity (lruAfter capacity ops) op
    generalize lruStep capacity (lruAfter capacity ops) op = l at hspec h
    cases hspec with
    | @used k v rest _ hstores hrest hkey _ =>
      rcases List.mem_cons.1 h with heq | hmem
      · obtain ⟨rfl, rfl⟩ := Prod.mk.inj heq
        rcases hstores with hs | ⟨hs, hold⟩
        · refine ⟨ops.length, observedAt_append.2 (.inr ⟨rfl, hs⟩), fun t' ht' value' hs' => ?_⟩
          have hlt := lt_of_observedAt hs'
          rw [List.length_append, List.length_singleton] at hlt
          omega
        · exact hsame (fun value' hs' => nomatch hs.symm.trans hs') hold
      · have hne : k ≠ key := by
          rintro rfl
          exact hkey (List.mem_map.2 ⟨_, hmem, rfl⟩)
        refine hsame (fun value' hs' => ?_) (hrest.subset hmem)
        rcases hstores with hs | ⟨hs, -⟩
        · exact hne (congrArg Prod.fst (Option.some.inj (hs.symm.trans hs')))
        · cases hs.symm.trans hs'
    | unused _ hstores hrest _ =>
      exact hsame (fun value' hs' => nomatch hstores.symm.trans hs') (hrest.subset h)

end

end KvStore.Lib
