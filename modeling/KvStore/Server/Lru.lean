import KvStore.Lib.Lru
import KvStore.Server.Cache

/-!
# The cache keeps what was used last

`LRUCache`, with its list of nodes and its map of iterators, does what the list of its entries does
(`LRUCache.Refines.apply`), so what is known about least recently used lists is true of it.

* `represents_after`: list and map fit together after any calls, and no call uses an iterator that
  is not valid.
* `retains_after`: in which order the entries are, which one an eviction removes, and which ones are
  still there.
-/

namespace KvStore.Server
open KvStore.Lib

namespace LRUCache

/-- The cache after a call. -/
def apply (c : LRUCache) : LruOp Str Str → LRUCache
  | .read key => (c.readKey key).2
  | .create key value => (c.createKey key value).2
  | .update key value => (c.updateKey key value).2
  | .delete key => (c.deleteKey key).2

/-- The cache after some calls. -/
def after (capacity : ℕ) (ops : List (LruOp Str Str)) : LRUCache := ops.foldl apply (new capacity)

/-- The cache has an entry for the key. -/
def HasKey (c : LRUCache) (key : Str) : Prop := c.cacheMap.find key ≠ none

instance (c : LRUCache) (key : Str) : Decidable (c.HasKey key) :=
  inferInstanceAs (Decidable (_ ≠ none))

/-- The key that a call touches: a create or an update that succeeds, or a read of a present key. -/
def touches (c : LRUCache) : LruOp Str Str → Option Str
  | .read key => if c.HasKey key then some key else none
  | .create key value => if (c.createKey key value).1 = 0 then some key else none
  | .update key value => if (c.updateKey key value).1 = 0 then some key else none
  | .delete _ => none

/-- The entry that a call stores: a create or an update that succeeds. -/
def stores (c : LRUCache) : LruOp Str Str → Option (Str × Str)
  | .create key value => if (c.createKey key value).1 = 0 then some (key, value) else none
  | .update key value => if (c.updateKey key value).1 = 0 then some (key, value) else none
  | _ => none

/-- The entries, most recent first. -/
def contents (c : LRUCache) : List (Str × Str) := c.cacheList.map fun n => (n.key, n.value)

/-- The cache is a valid one with these entries. -/
structure Refines (capacity : ℕ) (c : LRUCache) (l : List (Str × Str)) : Prop where
  valid : c.Valid
  capacity_eq : c.capacity = capacity
  contents_eq : c.contents = l

variable {c : LRUCache} {capacity : ℕ} {l : List (Str × Str)} {key value : Str}

/-- The keys of the contents are those of the nodes. -/
lemma map_fst_contents (c : LRUCache) :
    c.contents.map Prod.fst = c.cacheList.map CacheNode.key := by
  rw [contents, List.map_map]
  rfl

/-- No key is there twice. -/
lemma Valid.nodup_keys (h : c.Valid) : (c.cacheList.map CacheNode.key).Nodup := by
  refine List.Nodup.map_on (fun n hn n' hn' hkey => ?_) h.nodup.of_map
  exact h.eq_of_key hn hn' hkey

/-- The map has exactly the keys of the list. -/
lemma Valid.hasKey_iff (h : c.Valid) : c.HasKey key ↔ key ∈ c.cacheList.map CacheNode.key := by
  rw [HasKey, Option.ne_none_iff_exists', List.mem_map]
  constructor
  · rintro ⟨id, hid⟩
    obtain ⟨n, hn, -, hkey⟩ := h.listed hid
    exact ⟨n, hn, hkey⟩
  · rintro ⟨n, hn, rfl⟩
    exact ⟨n.id, h.mapped n hn⟩

/-- An iterator of the map is one into the list. -/
lemma Valid.findKey_of_find (h : c.Valid) {id : ℕ} (hid : c.cacheMap.find key = some id) :
    ∃ n ∈ c.cacheList, c.node id = some n ∧ n.key = key := by
  obtain ⟨n, hn, -, hkey⟩ := h.listed hid
  have hfind := h.findKey_eq_some.2 ⟨hn, hkey⟩
  rw [findKey, hid, Option.bind_some] at hfind
  exact ⟨n, hn, hfind, hkey⟩

/-- The map has the keys of the cache. -/
lemma Valid.findKey_isSome (h : c.Valid) : (c.findKey key).isSome = true ↔ c.HasKey key := by
  rw [Option.isSome_iff_exists, h.hasKey_iff, List.mem_map]
  exact exists_congr fun n => h.findKey_eq_some

/-- What the list of the entries has for a key. -/
lemma Valid.valueOf_contents (h : c.Valid) (key : Str) :
    valueOf key c.contents = (c.findKey key).map CacheNode.value := by
  cases hf : c.findKey key with
  | none =>
    rw [Option.map_none, valueOf_eq_none, map_fst_contents, List.mem_map]
    rintro ⟨n, hn, hkey⟩
    exact h.findKey_eq_none.1 hf n hn hkey
  | some n =>
    obtain ⟨hn, rfl⟩ := h.findKey_eq_some.1 hf
    have hmem : n.key ∈ c.contents.map Prod.fst := by
      rw [map_fst_contents]
      exact List.mem_map_of_mem hn
    obtain ⟨v, hv⟩ := Option.ne_none_iff_exists'.1 (mt valueOf_eq_none.1 (not_not.2 hmem))
    obtain ⟨n', hn', heq⟩ := List.mem_map.1 (mem_of_valueOf hv)
    obtain ⟨hkey, rfl⟩ := Prod.mk.inj heq
    rw [hv, h.eq_of_key hn hn' hkey.symm, Option.map_some]

/-- Dropping a node drops the entry of its key. -/
lemma Valid.contents_filter (h : c.Valid) {n : CacheNode} (hn : n ∈ c.cacheList) :
    (c.cacheList.filter fun n' => n'.id ≠ n.id).map (fun n => (n.key, n.value))
      = without n.key c.contents := by
  rw [without, contents, List.filter_map]
  congr 1
  refine List.filter_congr fun n' hn' => decide_eq_decide.2 (not_congr ⟨?_, ?_⟩)
  · exact fun hid => congrArg CacheNode.key (h.eq_of_id hn' hn hid)
  · exact fun hkey => congrArg CacheNode.id (h.eq_of_key hn' hn hkey)

/-- Moving a node to the front puts its entry first. -/
lemma Valid.contents_toFront (h : c.Valid) {n m : CacheNode} (hn : n ∈ c.cacheList)
    (hid : m.id = n.id) (hkey : m.key = n.key) :
    (c.toFront m).contents = (m.key, m.value) :: without m.key c.contents := by
  rw [contents, LRUCache.toFront, List.map_cons, hid, h.contents_filter hn, hkey]

/-- Making room drops the last entry. -/
lemma contents_evict (c : LRUCache) : c.evict.contents = c.contents.dropLast := by
  unfold evict
  split
  · rename_i hnone
    rw [contents, List.getLast?_eq_none_iff.1 hnone]
    rfl
  · exact List.map_dropLast

/-- `read_key` does to the entries what a read does. -/
lemma Valid.contents_readKey (h : c.Valid) (key : Str) :
    (c.readKey key).2.contents = lruStep c.capacity c.contents (.read key) := by
  rw [lruStep, h.valueOf_contents, LRUCache.readKey]
  cases hf : c.findKey key with
  | none => rfl
  | some n =>
    obtain ⟨hn, rfl⟩ := h.findKey_eq_some.1 hf
    exact h.contents_toFront hn rfl rfl

/-- A create finds the map without the key exactly if the entries have none. -/
lemma Valid.find_eq_none (h : c.Valid) :
    c.cacheMap.find key = none ↔ valueOf key c.contents = none := by
  rw [valueOf_eq_none, map_fst_contents, ← h.hasKey_iff, HasKey, not_not]

/-- `create_key` does what a create does, -/
lemma Valid.contents_createKey (h : c.Valid) (key value : Str) :
    (c.createKey key value).2.contents = lruStep c.capacity c.contents (.create key value) := by
  unfold LRUCache.createKey lruStep
  cases hf : c.cacheMap.find key with
  | none =>
    have hlen : c.contents.length = c.cacheList.length := List.length_map _
    simp only [h.find_eq_none.1 hf, makeRoom, hlen]
    split_ifs
    · exact congrArg (_ :: ·) (contents_evict c)
    · rfl
  | some id =>
    have hne : valueOf key c.contents ≠ none := by
      rw [ne_eq, ← h.find_eq_none, hf]
      exact Option.some_ne_none _
    obtain ⟨v, hv⟩ := Option.ne_none_iff_exists'.1 hne
    simp only [hv]

/-- `update_key` what an update does, -/
lemma Valid.contents_updateKey (h : c.Valid) (key value : Str) :
    (c.updateKey key value).2.contents = lruStep c.capacity c.contents (.update key value) := by
  rw [lruStep, h.valueOf_contents, LRUCache.updateKey]
  cases hf : c.findKey key with
  | none => rfl
  | some n =>
    obtain ⟨hn, rfl⟩ := h.findKey_eq_some.1 hf
    exact h.contents_toFront (m := { n with value := value }) hn rfl rfl

/-- and `delete_key` drops the entry of the key. -/
lemma Valid.contents_deleteKey (h : c.Valid) (key : Str) :
    (c.deleteKey key).2.contents = without key c.contents := by
  unfold LRUCache.deleteKey
  cases hf : c.findKey key with
  | none =>
    have hall := h.findKey_eq_none.1 hf
    refine (List.filter_eq_self.2 fun e he => ?_).symm
    obtain ⟨n, hn, rfl⟩ := List.mem_map.1 he
    exact decide_eq_true (hall n hn)
  | some n =>
    obtain ⟨hn, rfl⟩ := h.findKey_eq_some.1 hf
    exact h.contents_filter hn

/-- `update_key` keeps a cache valid. -/
lemma Valid.updateKey (h : c.Valid) (key value : Str) : (c.updateKey key value).2.Valid := by
  unfold LRUCache.updateKey
  cases hf : c.findKey key with
  | none => exact h
  | some n => exact h.toFront (h.findKey_eq_some.1 hf).1 rfl rfl

/-- Making room does not change the capacity, -/
lemma capacity_evict (c : LRUCache) : c.evict.capacity = c.capacity := by
  unfold evict
  split <;> rfl

/-- and neither do `create_key`, -/
lemma capacity_createKey (c : LRUCache) (key value : Str) :
    (c.createKey key value).2.capacity = c.capacity := by
  unfold createKey
  split
  · rfl
  · split
    · exact capacity_evict c
    · rfl

/-- `read_key`, -/
lemma capacity_readKey (c : LRUCache) (key : Str) :
    (c.readKey key).2.capacity = c.capacity := by
  unfold readKey
  split <;> rfl

/-- `delete_key`, -/
lemma capacity_deleteKey (c : LRUCache) (key : Str) :
    (c.deleteKey key).2.capacity = c.capacity := by
  unfold deleteKey
  split <;> rfl

/-- and `update_key`. -/
lemma capacity_updateKey (c : LRUCache) (key value : Str) :
    (c.updateKey key value).2.capacity = c.capacity := by
  unfold LRUCache.updateKey
  split <;> rfl

/-- A call does to the cache what it does to the list of its entries. -/
theorem Refines.apply (h : c.Refines capacity l) (op : LruOp Str Str) :
    (c.apply op).Refines capacity (lruStep capacity l op) := by
  obtain ⟨hvalid, rfl, rfl⟩ := h
  cases op with
  | read key => exact ⟨hvalid.readKey key, capacity_readKey c key, hvalid.contents_readKey key⟩
  | create key value =>
    exact ⟨hvalid.createKey key value, capacity_createKey c key value,
      hvalid.contents_createKey key value⟩
  | update key value =>
    exact ⟨hvalid.updateKey key value, capacity_updateKey c key value,
      hvalid.contents_updateKey key value⟩
  | delete key =>
    exact ⟨hvalid.deleteKey key, capacity_deleteKey c key, hvalid.contents_deleteKey key⟩

/-- The new cache stands for the empty list. -/
lemma refines_new (capacity : ℕ) : (new capacity).Refines capacity [] :=
  ⟨valid_new capacity, rfl, rfl⟩

/-- The cache after some calls has the entries of the list after them. -/
lemma refines_after (capacity : ℕ) (ops : List (LruOp Str Str)) :
    (after capacity ops).Refines capacity (lruAfter capacity ops) := by
  induction ops using List.reverseRecOn with
  | nil => exact refines_new capacity
  | append_singleton ops op ih =>
    rw [after, List.foldl_append, lruAfter_concat]
    exact ih.apply op

/-- The cache has the keys of the list, -/
lemma Refines.hasKey_iff (h : c.Refines capacity l) : c.HasKey key ↔ key ∈ l.map Prod.fst := by
  rw [h.valid.hasKey_iff, ← h.contents_eq, map_fst_contents]

/-- which are those with a value. -/
lemma Refines.isSome_valueOf (h : c.Refines capacity l) :
    (valueOf key l).isSome = true ↔ c.HasKey key := by
  rw [← h.contents_eq, h.valid.valueOf_contents, Option.isSome_map, h.valid.findKey_isSome]

/-- A create succeeds exactly if the key is absent. -/
lemma createKey_fst (c : LRUCache) (key value : Str) :
    (c.createKey key value).1 = if c.HasKey key then -1 else 0 := by
  by_cases hk : c.HasKey key
  · obtain ⟨id, hid⟩ := Option.ne_none_iff_exists'.1 hk
    rw [if_pos hk, createKey, hid]
  · rw [if_neg hk, createKey, not_not.1 hk]
    dsimp only
    split_ifs <;> rfl

/-- An update succeeds exactly if the key is present. -/
lemma Valid.updateKey_fst (h : c.Valid) (key value : Str) :
    (c.updateKey key value).1 = if c.HasKey key then 0 else -1 := by
  have hkey : (c.findKey key).isSome = true ↔ c.HasKey key := h.findKey_isSome
  unfold LRUCache.updateKey
  cases hf : c.findKey key with
  | none =>
    rw [hf] at hkey
    rw [if_neg fun hk => nomatch hkey.2 hk]
  | some n =>
    rw [hf] at hkey
    rw [if_pos (hkey.1 rfl)]

/-- A call touches the key that the call on the list uses. -/
lemma Refines.touches_eq (h : c.Refines capacity l) (op : LruOp Str Str) :
    c.touches op = op.touches l := by
  cases op with
  | read key => simp only [touches, LruOp.touches, h.isSome_valueOf]
  | create key value =>
    simp only [touches, LruOp.touches, h.isSome_valueOf, createKey_fst]
    split_ifs <;> simp_all
  | update key value =>
    simp only [touches, LruOp.touches, h.isSome_valueOf, h.valid.updateKey_fst]
    split_ifs <;> simp_all
  | delete key => rfl

/-- A call stores the entry that the call on the list stores. -/
lemma Refines.stores_eq (h : c.Refines capacity l) (op : LruOp Str Str) :
    c.stores op = op.stores l := by
  cases op with
  | read key => rfl
  | create key value =>
    simp only [stores, LruOp.stores, h.isSome_valueOf, createKey_fst]
    split_ifs <;> simp_all
  | update key value =>
    simp only [stores, LruOp.stores, h.isSome_valueOf, h.valid.updateKey_fst]
    split_ifs <;> simp_all
  | delete key => rfl

/-- The key that is touched at a time. -/
def touchedAt (capacity : ℕ) (ops : List (LruOp Str Str)) (t : ℕ) : Option Str :=
  observedAt apply (new capacity) touches ops t

/-- The entry that is stored at a time. -/
def storedAt (capacity : ℕ) (ops : List (LruOp Str Str)) (t : ℕ) : Option (Str × Str) :=
  observedAt apply (new capacity) stores ops t

/-- The cache touches what the list uses, -/
lemma touchedAt_eq (capacity : ℕ) (ops : List (LruOp Str Str)) :
    touchedAt capacity ops = lruTouchedAt capacity ops := by
  funext t
  exact observedAt_simulates (R := Refines capacity) (fun _ _ op h => h.apply op)
    (fun _ _ op h => h.touches_eq op) (refines_new capacity) ops t

/-- and stores what the list stores. -/
lemma storedAt_eq (capacity : ℕ) (ops : List (LruOp Str Str)) :
    storedAt capacity ops = lruStoredAt capacity ops := by
  funext t
  exact observedAt_simulates (R := Refines capacity) (fun _ _ op h => h.apply op)
    (fun _ _ op h => h.stores_eq op) (refines_new capacity) ops t

/-- The time of the last touch of a key. -/
def LastTouch (capacity : ℕ) (ops : List (LruOp Str Str)) (key : Str) (t : ℕ) : Prop :=
  Latest (fun t => touchedAt capacity ops t = some key) t

/-- One key was touched for the last time before another one was. -/
def TouchedBefore (capacity : ℕ) (ops : List (LruOp Str Str)) (key key' : Str) : Prop :=
  ∃ t t', LastTouch capacity ops key t ∧ LastTouch capacity ops key' t' ∧ t < t'

/-- The other keys that have been touched since. -/
def othersSince (capacity : ℕ) (ops : List (LruOp Str Str)) (t : ℕ) (key : Str) : Finset Str :=
  (((List.range ops.length).filter (t < ·)).filterMap (touchedAt capacity ops)).toFinset.erase key

/-- A touch is the last one if it is the last use in the list, -/
lemma lastTouch_eq (capacity : ℕ) (ops : List (LruOp Str Str)) :
    LastTouch capacity ops = LruLastUse capacity ops := by
  unfold LastTouch
  rw [touchedAt_eq]
  rfl

/-- the keys are touched in the order of their uses, -/
lemma touchedBefore_eq (capacity : ℕ) (ops : List (LruOp Str Str)) :
    TouchedBefore capacity ops = LruUsedBefore capacity ops := by
  unfold TouchedBefore
  rw [lastTouch_eq]
  rfl

/-- and the same ones since a time. -/
lemma othersSince_eq (capacity : ℕ) (ops : List (LruOp Str Str)) :
    othersSince capacity ops = lruOthersSince capacity ops := by
  unfold othersSince
  rw [touchedAt_eq]
  rfl

/-- The value of the last create or update of the key that succeeded. -/
def LastStored (capacity : ℕ) (ops : List (LruOp Str Str)) (key value : Str) : Prop :=
  ∃ t, storedAt capacity ops t = some (key, value)
    ∧ ∀ t' > t, ∀ value', storedAt capacity ops t' ≠ some (key, value')

/-- What a cache keeps of its history: its entries are in the order of their last touches, an
    eviction removes the one that was touched least recently and no other, and a key stays with its
    last value as long as fewer than `capacity` other keys have been touched. -/
structure Retains (capacity : ℕ) (ops : List (LruOp Str Str)) (c : LRUCache) : Prop where
  touched : ∀ n ∈ c.cacheList, ∃ t, LastTouch capacity ops n.key t
  ordered : c.cacheList.Pairwise fun n n' => TouchedBefore capacity ops n'.key n.key
  evicts : ∀ key value k, c.HasKey k → ¬ (c.createKey key value).2.HasKey k →
    ∀ k', c.HasKey k' → k' ≠ k →
      (c.createKey key value).2.HasKey k' ∧ TouchedBefore capacity ops k k'
  retained : ∀ t key, touchedAt capacity ops t = some key →
    (∀ t' > t, ops[t']? ≠ some (.delete key)) → (othersSince capacity ops t key).card < capacity →
    c.HasKey key ∧ LastStored capacity ops key (c.readKey key).1
  absent : ∀ key, ¬ c.HasKey key → (c.readKey key).1 = []

/-- What is read is what the entries have. -/
lemma Refines.readKey_fst (h : c.Refines capacity l) (key : Str) :
    (c.readKey key).1 = (valueOf key l).getD [] := by
  rw [← h.contents_eq, h.valid.valueOf_contents, readKey]
  cases c.findKey key <;> rfl

/-- A create that drops a key drops the one that was used least recently, and no other. -/
lemma usedBefore_of_dropped {ops : List (LruOp Str Str)} {k k' : Str}
    (hk : k ∈ (lruAfter capacity ops).map Prod.fst)
    (hgone : k ∉ (lruStep capacity (lruAfter capacity ops) (.create key value)).map Prod.fst)
    (hk' : k' ∈ (lruAfter capacity ops).map Prod.fst) (hne : k' ≠ k) :
    k' ∈ (lruStep capacity (lruAfter capacity ops) (.create key value)).map Prod.fst
      ∧ LruUsedBefore capacity ops k k' := by
  have hspec := lruStep_spec capacity (lruAfter capacity ops) (.create key value)
  generalize lruStep capacity (lruAfter capacity ops) (.create key value) = l' at hspec hgone
  obtain ⟨e, he, rfl⟩ := List.mem_map.1 hk
  obtain ⟨e', he', rfl⟩ := List.mem_map.1 hk'
  cases hspec with
  | @used key value rest _ _ _ _ hkept =>
    obtain ⟨-, -, hlast⟩ : key ∉ _ ∧ _ ∧ _ := by
      rcases hkept e he with heq | hrest | hlast
      · exact absurd (heq ▸ List.mem_cons_self) hgone
      · exact absurd (List.mem_cons_of_mem _ (List.mem_map_of_mem hrest)) hgone
      · exact hlast
    refine ⟨?_, usedBefore_of_last hlast he' hne⟩
    rcases hkept e' he' with heq | hrest | ⟨-, -, hlast'⟩
    · exact heq ▸ List.mem_cons_self
    · exact List.mem_cons_of_mem _ (List.mem_map_of_mem hrest)
    · have hsame := List.append_cancel_left (hlast'.trans hlast.symm)
      exact absurd (congrArg Prod.fst (List.cons.inj hsame).1) hne
  | unused _ _ _ hkept =>
    rcases hkept e he with hrest | hdelete
    · exact absurd (List.mem_map_of_mem hrest) hgone
    · cases hdelete

/-- After any calls on an empty cache. -/
theorem retains_after (capacity : ℕ) (ops : List (LruOp Str Str)) :
    Retains capacity ops (after capacity ops) := by
  have h := refines_after capacity ops
  obtain ⟨hused, hpair⟩ := pairwise_lruAfter capacity ops
  rw [← h.contents_eq, contents] at hused hpair
  refine ⟨fun n hn => ?_, ?_, fun key value k hk hgone k' hk' hne => ?_,
    fun t key ht hdelete hcard => ?_, fun key habsent => ?_⟩
  · rw [lastTouch_eq]
    exact hused _ (List.mem_map_of_mem hn)
  · rw [touchedBefore_eq]
    exact List.pairwise_map.1 hpair
  · have hcreate := h.apply (.create key value)
    have hgone' := mt hcreate.hasKey_iff.2 hgone
    rw [touchedBefore_eq]
    obtain ⟨hkept, hbefore⟩ :=
      usedBefore_of_dropped (h.hasKey_iff.1 hk) hgone' (h.hasKey_iff.1 hk') hne
    exact ⟨hcreate.hasKey_iff.2 hkept, hbefore⟩
  · rw [touchedAt_eq] at ht
    rw [othersSince_eq] at hcard
    have hkey := mem_keys_of_touched ht hdelete hcard
    refine ⟨h.hasKey_iff.2 hkey, ?_⟩
    obtain ⟨value, hvalue⟩ := Option.ne_none_iff_exists'.1 (mt valueOf_eq_none.1 (not_not.2 hkey))
    rw [LastStored, storedAt_eq, h.readKey_fst, hvalue]
    exact latest_stored (mem_of_valueOf hvalue)
  · rw [h.readKey_fst, valueOf_eq_none.2 (mt h.hasKey_iff.2 habsent)]
    rfl

/-- List and map represent the same entries: no key and no node occurs twice, the map has exactly the
    keys of the list, each of its iterators refers to the node with the key, and there is room for
    all of them. -/
structure Represents (c : LRUCache) : Prop where
  ids_nodup : (c.cacheList.map CacheNode.id).Nodup
  keys_nodup : (c.cacheList.map CacheNode.key).Nodup
  keys_iff : ∀ key, c.cacheMap.find key ≠ none ↔ key ∈ c.cacheList.map CacheNode.key
  refers : ∀ key id, c.cacheMap.find key = some id →
    ∃ n ∈ c.cacheList, c.node id = some n ∧ n.key = key
  bounded : c.cacheList.length ≤ c.capacity

/-- The call uses no iterator that is not valid, and takes `back` of no empty list. -/
def Safe (c : LRUCache) : LruOp Str Str → Prop
  | .create key _ =>
    c.cacheMap.find key = none → c.capacity ≤ c.cacheList.length → c.cacheList ≠ []
  | .read key => ∀ id, c.cacheMap.find key = some id → c.node id ≠ none
  | .update key _ => ∀ id, c.cacheMap.find key = some id → c.node id ≠ none
  | .delete key => ∀ id, c.cacheMap.find key = some id → c.node id ≠ none

/-- The list never exceeds the capacity. -/
lemma length_lruAfter_le (hc : 1 ≤ capacity) (ops : List (LruOp Str Str)) :
    (lruAfter capacity ops).length ≤ capacity := by
  induction ops using List.reverseRecOn with
  | nil => exact Nat.zero_le _
  | append_singleton ops op ih =>
    rw [lruAfter_concat]
    exact length_lruStep_le hc ih

/-- After any calls on an empty cache list and map represent the same entries, and the next call is
    safe. -/
theorem represents_after (hc : 1 ≤ capacity) (ops : List (LruOp Str Str)) :
    (after capacity ops).capacity = capacity ∧ Represents (after capacity ops)
      ∧ ∀ op, Safe (after capacity ops) op := by
  obtain ⟨hvalid, hcapacity, hcontents⟩ := refines_after capacity ops
  have hlive (key : Str) (id : ℕ) (hid : (after capacity ops).cacheMap.find key = some id) :
      (after capacity ops).node id ≠ none := by
    obtain ⟨n, -, hnode, -⟩ := hvalid.findKey_of_find hid
    rw [hnode]
    nofun
  have hlength : (after capacity ops).cacheList.length = (lruAfter capacity ops).length := by
    rw [← hcontents, contents, List.length_map]
  refine ⟨hcapacity, ⟨hvalid.nodup, hvalid.nodup_keys, fun key => hvalid.hasKey_iff,
    fun key id => hvalid.findKey_of_find, ?_⟩, fun op => ?_⟩
  · rw [hcapacity, hlength]
    exact length_lruAfter_le hc ops
  · cases op with
    | create key value =>
      intro _ hfull
      rw [hcapacity] at hfull
      exact List.ne_nil_of_length_pos (hc.trans hfull)
    | read key => exact hlive key
    | update key value => exact hlive key
    | delete key => exact hlive key

/-- Calls on a cache with two places, one of which is an eviction. -/
def evictingCalls : List (LruOp Str Str) :=
  [.create ['a'] ['1'], .create ['b'] ['2'], .read ['a'], .create ['c'] ['3'], .update ['a'] ['4']]

example : (after 2 evictingCalls).contents = [(['a'], ['4']), (['c'], ['3'])] := by decide

/-- After these calls list and map represent the two keys that were touched last. -/
theorem represents_after_evicting :
    Represents (after 2 evictingCalls) ∧ ∀ op, Safe (after 2 evictingCalls) op :=
  (represents_after (by decide) evictingCalls).2

end LRUCache

end KvStore.Server
