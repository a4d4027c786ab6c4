import KvStore.Lib.OrdMap
import KvStore.Lib.Str
import Mathlib.Data.Char
import Mathlib.Data.List.Nodup

/-!
# The LRU cache

`kvcache.h`. An iterator into `cache_list` is the identity of a list node, so that the map from keys
to iterators is kept apart from the list, as in the source. `LRUCache.Valid` says that the two fit
together; the operations keep it (`Valid.readKey`, `Valid.createKey`, `Valid.deleteKey`), and
`mem_readKey`, `mem_createKey`, `mem_deleteKey` say which entries they leave.
-/

namespace KvStore.Server
open KvStore.Lib

/-- A node of `cache_list`, with its identity. -/
structure CacheNode where
  id : ℕ
  key : Str
  value : Str
deriving DecidableEq, Repr

/-- The cache: the list of nodes, most recent first, and the map from keys to nodes. -/
structure LRUCache where
  capacity : ℕ
  cacheList : List CacheNode := []
  cacheMap : OrdMap Str ℕ := .empty
  nextId : ℕ := 0

namespace LRUCache

/-- An empty cache. -/
def new (capacity : ℕ) : LRUCache := { capacity := capacity }

/-- The node an iterator refers to. -/
def node (c : LRUCache) (id : ℕ) : Option CacheNode := c.cacheList.find? (fun n => n.id = id)

/-- The node that `cache_map` has for a key. -/
def findKey (c : LRUCache) (key : Str) : Option CacheNode := (c.cacheMap.find key).bind c.node

/-- Splice a node to the beginning of the list. -/
def toFront (c : LRUCache) (n : CacheNode) : LRUCache :=
  { c with cacheList := n :: c.cacheList.filter (fun n' => n'.id ≠ n.id) }

/-- `read_key`. -/
def readKey (c : LRUCache) (key : Str) : Str × LRUCache :=
  match c.findKey key with
  | none => ([], c)
  | some n => (n.value, c.toFront n)

/-- Drop the node at the end of the list, and its key from the map. -/
def evict (c : LRUCache) : LRUCache :=
  match c.cacheList.getLast? with
  | none => c
  | some lru => { c with cacheList := c.cacheList.dropLast, cacheMap := c.cacheMap.erase lru.key }

/-- Put a new node at the beginning of the list. -/
def emplaceFront (c : LRUCache) (key value : Str) : LRUCache :=
  { c with
    cacheList := ⟨c.nextId, key, value⟩ :: c.cacheList
    cacheMap := c.cacheMap.insert key c.nextId
    nextId := c.nextId + 1 }

/-- `create_key`. -/
def createKey (c : LRUCache) (key value : Str) : ℤ × LRUCache :=
  match c.cacheMap.find key with
  | some _ => (-1, c)
  | none =>
    if c.cacheList.length ≥ c.capacity then (0, c.evict.emplaceFront key value)
    else (0, c.emplaceFront key value)

/-- `update_key`. -/
def updateKey (c : LRUCache) (key value : Str) : ℤ × LRUCache :=
  match c.findKey key with
  | some n => (0, c.toFront { n with value := value })
  | none => (-1, c)

/-- `delete_key`. -/
def deleteKey (c : LRUCache) (key : Str) : ℤ × LRUCache :=
  match c.findKey key with
  | some n =>
    (0, { c with
      cacheList := c.cacheList.filter (fun n' => n'.id ≠ n.id)
      cacheMap := c.cacheMap.erase key })
  | none => (-1, c)

/-- List and map fit together: the map has exactly the keys of the list, each with its node, and node
    identities are not used twice. -/
structure Valid (c : LRUCache) : Prop where
  nodup : (c.cacheList.map CacheNode.id).Nodup
  mapped : ∀ n ∈ c.cacheList, c.cacheMap.find n.key = some n.id
  listed : ∀ {key id}, c.cacheMap.find key = some id → ∃ n ∈ c.cacheList, n.id = id ∧ n.key = key
  fresh : ∀ n ∈ c.cacheList, n.id < c.nextId

variable {c : LRUCache}

/-- Nodes are told apart by their identities, -/
lemma Valid.eq_of_id (h : c.Valid) {n n' : CacheNode} (hn : n ∈ c.cacheList)
    (hn' : n' ∈ c.cacheList) (hid : n.id = n'.id) : n = n' :=
  List.inj_on_of_nodup_map h.nodup hn hn' hid

/-- and by their keys. -/
lemma Valid.eq_of_key (h : c.Valid) {n n' : CacheNode} (hn : n ∈ c.cacheList)
    (hn' : n' ∈ c.cacheList) (hkey : n.key = n'.key) : n = n' := by
  have hid := (h.mapped n hn).symm.trans ((congrArg c.cacheMap.find hkey).trans (h.mapped n' hn'))
  exact h.eq_of_id hn hn' (Option.some.inj hid)

/-- In a valid cache the map finds a node exactly if the node is in the list and has the key. -/
lemma Valid.findKey_eq_some (h : c.Valid) {key : Str} {n : CacheNode} :
    c.findKey key = some n ↔ n ∈ c.cacheList ∧ n.key = key := by
  constructor
  · intro hf
    obtain ⟨id, hid, hnode⟩ := Option.bind_eq_some_iff.1 hf
    have hmem : n ∈ c.cacheList := List.mem_of_find?_eq_some hnode
    have hn : n.id = id := by simpa using List.find?_some hnode
    obtain ⟨n', hmem', hid', hkey⟩ := h.listed hid
    obtain rfl := h.eq_of_id hmem hmem' (hn.trans hid'.symm)
    exact ⟨hmem, hkey⟩
  · rintro ⟨hmem, rfl⟩
    refine Option.bind_eq_some_iff.2 ⟨n.id, h.mapped n hmem, ?_⟩
    cases hf : c.node n.id with
    | none =>
      have hnone := List.find?_eq_none.1 hf n hmem
      simp at hnone
    | some n' =>
      have hn' : n'.id = n.id := by simpa using List.find?_some hf
      rw [h.eq_of_id (List.mem_of_find?_eq_some hf) hmem hn']

/-- The map has no key that the list does not have. -/
lemma Valid.findKey_eq_none (h : c.Valid) {key : Str} :
    c.findKey key = none ↔ ∀ n ∈ c.cacheList, n.key ≠ key := by
  rw [Option.eq_none_iff_forall_ne_some]
  constructor
  · intro hf n hn hkey
    exact hf n (h.findKey_eq_some.2 ⟨hn, hkey⟩)
  · intro hall n hf
    obtain ⟨hn, hkey⟩ := h.findKey_eq_some.1 hf
    exact hall n hn hkey

/-- The new cache is valid. -/
lemma valid_new (capacity : ℕ) : (new capacity).Valid :=
  ⟨.nil, nofun, nofun, nofun⟩

/-- Moving a node to the front, with a new value or not, changes at most its value. -/
lemma Valid.mem_toFront (h : c.Valid) {n m : CacheNode} (hn : n ∈ c.cacheList)
    (hid : m.id = n.id) {n' : CacheNode} :
    n' ∈ (c.toFront m).cacheList ↔ n' = m ∨ n' ∈ c.cacheList ∧ n' ≠ n := by
  rw [toFront, List.mem_cons, List.mem_filter]
  refine or_congr_right (and_congr_right fun hn' => ?_)
  rw [hid, decide_eq_true_iff]
  exact not_congr ⟨fun he => h.eq_of_id hn' hn he, fun he => by rw [he]⟩

/-- Moving a node to the front keeps a cache valid, -/
lemma Valid.toFront (h : c.Valid) {n m : CacheNode} (hn : n ∈ c.cacheList) (hid : m.id = n.id)
    (hkey : m.key = n.key) : (c.toFront m).Valid := by
  refine ⟨?_, ?_, ?_, ?_⟩
  · rw [LRUCache.toFront, List.map_cons, List.nodup_cons]
    constructor
    · intro hm
      obtain ⟨n', hn', he⟩ := List.mem_map.1 hm
      simpa [he] using (List.mem_filter.1 hn').2
    · exact h.nodup.sublist (List.filter_sublist.map _)
  · intro n' hn'
    rcases (h.mem_toFront hn hid).1 hn' with rfl | ⟨hn', -⟩
    · rw [hkey, hid]
      exact h.mapped n hn
    · exact h.mapped n' hn'
  · intro key id hf
    obtain ⟨n', hn', hid', hkey'⟩ := h.listed hf
    by_cases he : n' = n
    · subst he
      exact ⟨m, (h.mem_toFront hn hid).2 (.inl rfl), hid.trans hid', hkey.trans hkey'⟩
    · exact ⟨n', (h.mem_toFront hn hid).2 (.inr ⟨hn', he⟩), hid', hkey'⟩
  · intro n' hn'
    rcases (h.mem_toFront hn hid).1 hn' with rfl | ⟨hn', -⟩
    · rw [hid]
      exact h.fresh n hn
    · exact h.fresh n' hn'

/-- and so does `read_key`. -/
lemma Valid.readKey (h : c.Valid) (key : Str) : (c.readKey key).2.Valid := by
  unfold LRUCache.readKey
  cases hf : c.findKey key with
  | none => exact h
  | some n => exact h.toFront (h.findKey_eq_some.1 hf).1 rfl rfl

/-- Reading changes the order of the entries only. -/
lemma Valid.mem_readKey (h : c.Valid) {key : Str} {n : CacheNode} :
    n ∈ (c.readKey key).2.cacheList ↔ n ∈ c.cacheList := by
  unfold LRUCache.readKey
  cases hf : c.findKey key with
  | none => exact Iff.rfl
  | some m =>
    have hm := (h.findKey_eq_some.1 hf).1
    rw [h.mem_toFront hm rfl]
    constructor
    · rintro (rfl | ⟨hn, -⟩)
      · exact hm
      · exact hn
    · intro hn
      by_cases he : n = m
      · exact .inl he
      · exact .inr ⟨hn, he⟩

/-- What is read is the value of the key's entry, if it has one. -/
lemma Valid.readKey_fst (h : c.Valid) {key : Str} (hne : (c.readKey key).1 ≠ []) :
    ∃ n ∈ c.cacheList, n.key = key ∧ n.value = (c.readKey key).1 := by
  unfold LRUCache.readKey at hne ⊢
  cases hf : c.findKey key with
  | none => simp [hf] at hne
  | some n =>
    obtain ⟨hn, hkey⟩ := h.findKey_eq_some.1 hf
    exact ⟨n, hn, hkey, rfl⟩

/-- Making room adds nothing, -/
lemma mem_evict {n : CacheNode} (hn : n ∈ c.evict.cacheList) : n ∈ c.cacheList := by
  unfold evict at hn
  split at hn
  · exact hn
  · exact List.dropLast_subset _ hn

/-- and keeps a cache valid. -/
lemma Valid.evict (h : c.Valid) : c.evict.Valid := by
  cases hl : c.cacheList.getLast? with
  | none => simpa only [LRUCache.evict, hl] using h
  | some lru =>
    have hc : c.evict = { c with
        cacheList := c.cacheList.dropLast, cacheMap := c.cacheMap.erase lru.key } := by
      simp only [LRUCache.evict, hl]
    have hlru : lru ∈ c.cacheList := List.mem_of_getLast? hl
    have hsplit : c.cacheList.dropLast ++ [lru] = c.cacheList := List.dropLast_append_getLast? _ hl
    have hnotin : lru ∉ c.cacheList.dropLast := by
      have hnd := h.nodup.of_map
      rw [← hsplit, List.nodup_append] at hnd
      exact fun hm => hnd.2.2 lru hm lru (List.mem_singleton_self _) rfl
    rw [hc]
    refine ⟨?_, ?_, ?_, ?_⟩
    · exact h.nodup.sublist ((List.dropLast_sublist _).map _)
    · intro n hn
      have hmem := List.dropLast_subset _ hn
      rw [OrdMap.find_erase_ne _ fun he => hnotin (h.eq_of_key hlru hmem he ▸ hn)]
      exact h.mapped n hmem
    · intro key id hf
      rw [OrdMap.find_erase] at hf
      split_ifs at hf with hkey
      obtain ⟨n, hn, hid, hk⟩ := h.listed hf
      rw [← hsplit, List.mem_append, List.mem_singleton] at hn
      rcases hn with hn | rfl
      · exact ⟨n, hn, hid, hk⟩
      · exact absurd hk hkey
    · exact fun n hn => h.fresh n (List.dropLast_subset _ hn)

/-- So does a new node at the front, -/
lemma Valid.emplaceFront (h : c.Valid) {key : Str} (value : Str)
    (hkey : ∀ n ∈ c.cacheList, n.key ≠ key) : (c.emplaceFront key value).Valid := by
  refine ⟨?_, ?_, ?_, ?_⟩
  · rw [LRUCache.emplaceFront, List.map_cons, List.nodup_cons]
    refine ⟨fun hm => ?_, h.nodup⟩
    obtain ⟨n, hn, he⟩ := List.mem_map.1 hm
    exact absurd he (ne_of_lt (h.fresh n hn))
  · intro n hn
    rcases List.mem_cons.1 hn with rfl | hn
    · exact OrdMap.find_insert_self _ _ _
    · exact (OrdMap.find_insert_ne _ (fun he => hkey n hn he.symm) _).trans (h.mapped n hn)
  · intro k id hf
    rw [LRUCache.emplaceFront, OrdMap.find_insert] at hf
    split_ifs at hf with he
    · exact ⟨_, List.mem_cons_self, Option.some.inj hf, he⟩
    · obtain ⟨n, hn, hid, hk⟩ := h.listed hf
      exact ⟨n, List.mem_cons_of_mem _ hn, hid, hk⟩
  · intro n hn
    rcases List.mem_cons.1 hn with rfl | hn
    · exact Nat.lt_succ_self _
    · exact Nat.lt_succ_of_lt (h.fresh n hn)

/-- and `create_key`. -/
lemma Valid.createKey (h : c.Valid) (key value : Str) : (c.createKey key value).2.Valid := by
  unfold LRUCache.createKey
  cases hf : c.cacheMap.find key with
  | some id => exact h
  | none =>
    have hkey : ∀ n ∈ c.cacheList, n.key ≠ key := by
      rintro n hn rfl
      rw [h.mapped n hn] at hf
      cases hf
    simp only
    split
    · exact h.evict.emplaceFront value fun n hn => hkey n (mem_evict hn)
    · exact h.emplaceFront value hkey

/-- Creating a key adds its entry and no other. -/
lemma mem_createKey {key value : Str} {n : CacheNode}
    (hn : n ∈ (c.createKey key value).2.cacheList) :
    n.key = key ∧ n.value = value ∨ n ∈ c.cacheList := by
  unfold LRUCache.createKey at hn
  split at hn
  · exact .inr hn
  · split at hn
    · rcases List.mem_cons.1 hn with rfl | hn
      · exact .inl ⟨rfl, rfl⟩
      · exact .inr (mem_evict hn)
    · rcases List.mem_cons.1 hn with rfl | hn
      · exact .inl ⟨rfl, rfl⟩
      · exact .inr hn

/-- Deleting a key removes exactly its entry. -/
lemma Valid.mem_deleteKey (h : c.Valid) {key : Str} {n : CacheNode} :
    n ∈ (c.deleteKey key).2.cacheList ↔ n ∈ c.cacheList ∧ n.key ≠ key := by
  unfold LRUCache.deleteKey
  cases hf : c.findKey key with
  | none =>
    have hall := h.findKey_eq_none.1 hf
    exact ⟨fun hn => ⟨hn, hall n hn⟩, And.left⟩
  | some m =>
    obtain ⟨hm, rfl⟩ := h.findKey_eq_some.1 hf
    rw [List.mem_filter, decide_eq_true_iff]
    refine and_congr_right fun hn => not_congr ?_
    exact ⟨fun he => by rw [h.eq_of_id hn hm he], fun he => by rw [h.eq_of_key hn hm he]⟩

/-- `delete_key` keeps a cache valid. -/
lemma Valid.deleteKey (h : c.Valid) (key : Str) : (c.deleteKey key).2.Valid := by
  cases hf : c.findKey key with
  | none => simpa only [LRUCache.deleteKey, hf] using h
  | some m =>
    obtain ⟨hm, hkey⟩ := h.findKey_eq_some.1 hf
    have hmem {n : CacheNode} := @Valid.mem_deleteKey c h key n
    simp only [LRUCache.deleteKey, hf] at hmem ⊢
    refine ⟨?_, ?_, ?_, ?_⟩
    · exact h.nodup.sublist (List.filter_sublist.map _)
    · intro n hn
      obtain ⟨hn, hne⟩ := hmem.1 hn
      rw [OrdMap.find_erase_ne _ (Ne.symm hne)]
      exact h.mapped n hn
    · intro k id hk
      rw [OrdMap.find_erase] at hk
      split_ifs at hk with he
      obtain ⟨n, hn, hid, hnk⟩ := h.listed hk
      exact ⟨n, hmem.2 ⟨hn, fun hn' => he (hn'.symm.trans hnk)⟩, hid, hnk⟩
    · intro n hn
      exact h.fresh n (hmem.1 hn).1

end LRUCache

end KvStore.Server
