import KvStore.Server.Lru
import KvStore.Server.Transparency

/-!
# A larger cache

Two servers with the same table and caches of different capacities that get the same calls. A create
of a key that the cache has does not refresh it, so for the cache alone the smaller one is not
contained in the larger one; but on a coherent server the handlers only create keys that the cache
does not have, or that they have just read.

* `contents_handleRead`: the entries after a read, in terms of the table.
* `Included.handle`: every call keeps the list of the smaller cache a prefix of that of the larger.
* `cache_inclusion`: so what is read from the smaller cache is read from the larger one as well.
-/

namespace KvStore.Server
open KvStore.Lib

/-- The servers have the same table, and the entries of the first cache come first in the second. -/
structure Included (s s' : KvServer) : Prop where
  coherent : s.Coherent
  coherent' : s'.Coherent
  table : s.table = s'.table
  capacity : s.cache.capacity ≤ s'.cache.capacity
  contents : s.cache.contents <+: s'.cache.contents

section
variable {s s' : KvServer} {key value : Str}

/-- What the cache has for a key is what the table has. -/
lemma KvServer.Coherent.find_of_valueOf (h : s.Coherent)
    (hvalue : valueOf key s.cache.contents = some value) : s.table.find key = some value := by
  rw [h.valid.valueOf_contents, Option.map_eq_some_iff] at hvalue
  obtain ⟨n, hn, rfl⟩ := hvalue
  obtain ⟨hmem, rfl⟩ := h.valid.findKey_eq_some.1 hn
  exact h.current n hmem

/-- A key that the table does not have is not in the cache. -/
lemma KvServer.Coherent.valueOf_eq_none (h : s.Coherent) (hnone : s.table.find key = none) :
    valueOf key s.cache.contents = none := by
  cases hv : valueOf key s.cache.contents with
  | none => rfl
  | some value => cases hnone.symm.trans (h.find_of_valueOf hv)

/-- The entries after a read: the key comes first, if the table has it. -/
lemma contents_handleRead (h : s.Coherent) (key : Str) :
    (s.handleRead key none).2.cache.contents =
      match s.table.find key with
      | none => s.cache.contents
      | some value =>
        match valueOf key s.cache.contents with
        | some _ => (key, value) :: without key s.cache.contents
        | none => (key, value) :: makeRoom s.cache.capacity s.cache.contents := by
  have hfst := (LRUCache.Refines.mk h.valid rfl rfl).readKey_fst key
  have hread := h.valid.contents_readKey key
  have hcreate (value : Str) := (h.valid.readKey key).contents_createKey key value
  simp only [lruStep] at hread hcreate
  unfold KvServer.handleRead
  cases hv : valueOf key s.cache.contents with
  | none =>
    rw [hv, Option.getD_none] at hfst
    simp only [hv] at hread
    simp only [hfst, ne_eq, not_true_eq_false, if_false]
    cases s.table.find key with
    | none => exact hread
    | some value => simpa only [hread, hv, LRUCache.capacity_readKey] using hcreate value
  | some value =>
    rw [hv, Option.getD_some] at hfst
    simp only [hv] at hread
    simp only [h.find_of_valueOf hv, hfst]
    by_cases hempty : value = []
    · -- an empty value is read again from the table, and the create finds the key in the cache
      have hfound : valueOf key ((key, value) :: without key s.cache.contents) = some value := by
        simp [valueOf]
      rw [if_neg (not_not.2 hempty)]
      refine (hcreate value).trans ?_
      simp only [hread, hfound]
    · rw [if_pos hempty]
      exact hread

/-- The entries after a create that succeeds. -/
lemma contents_handleCreate (h : s.Coherent) (req : Request) :
    (s.handleCreate req none).2.cache.contents =
      let key := req.body.takeWhile (· ≠ ' ')
      match s.table.find key with
      | some _ => s.cache.contents
      | none =>
        (key, ((req.body.dropWhile (· ≠ ' ')).drop 1).takeWhile (· ≠ '\n'))
          :: makeRoom s.cache.capacity s.cache.contents := by
  simp only [KvServer.handleCreate]
  cases hf : s.table.find (req.body.takeWhile (· ≠ ' ')) with
  | some old => rfl
  | none =>
    rw [if_neg (not_not.2 rfl)]
    refine (h.valid.contents_createKey _ _).trans ?_
    simp only [lruStep, h.valueOf_eq_none hf]

/-- No call changes the capacity. -/
lemma capacity_handle (s : KvServer) (call : Call) :
    (call.handle s).2.cache.capacity = s.cache.capacity := by
  cases call with
  | create req =>
    simp only [Call.handle, KvServer.handleCreate]
    split_ifs
    · rfl
    · exact LRUCache.capacity_createKey _ _ _
  | read key =>
    simp only [Call.handle, KvServer.handleRead]
    split_ifs
    · exact LRUCache.capacity_readKey _ _
    · cases s.table.find key with
      | none => exact LRUCache.capacity_readKey _ _
      | some value =>
        exact (LRUCache.capacity_createKey _ _ _).trans (LRUCache.capacity_readKey _ _)
  | update req key =>
    rw [Call.handle, handleUpdate_spec]
    dsimp only
    split_ifs
    · rfl
    · exact LRUCache.capacity_deleteKey _ _
  | delete key =>
    simp only [Call.handle, KvServer.handleDelete]
    split_ifs
    · rfl
    · exact LRUCache.capacity_deleteKey _ _
  | sync req key => exact LRUCache.capacity_deleteKey _ _
  | allKeys => rfl

/-- Dropping a key from both caches. -/
lemma Included.contents_deleteKey (h : Included s s') (key : Str) :
    (s.cache.deleteKey key).2.contents <+: (s'.cache.deleteKey key).2.contents := by
  rw [h.coherent.valid.contents_deleteKey, h.coherent'.valid.contents_deleteKey]
  exact prefix_without h.contents key

/-- The smaller cache stays the beginning of the larger one in a read, -/
lemma Included.contents_handleRead (h : Included s s') (key : Str) :
    (s.handleRead key none).2.cache.contents <+: (s'.handleRead key none).2.cache.contents := by
  rw [Server.contents_handleRead h.coherent, Server.contents_handleRead h.coherent', ← h.table]
  cases s.table.find key with
  | none => exact h.contents
  | some value =>
    cases hv : valueOf key s.cache.contents with
    | some v =>
      simp only [valueOf_shorter h.contents hv]
      exact (List.prefix_cons_inj _).2 (prefix_without h.contents key)
    | none =>
      cases valueOf key s'.cache.contents with
      | none => exact (List.prefix_cons_inj _).2 (prefix_makeRoom h.contents h.capacity)
      | some v =>
        -- the larger cache has the key behind all entries of the smaller one
        have hkey : without key s.cache.contents = s.cache.contents := by
          refine List.filter_eq_self.2 fun e he => decide_eq_true ?_
          rintro rfl
          exact valueOf_eq_none.1 hv (List.mem_map_of_mem he)
        have hroom : makeRoom s.cache.capacity s.cache.contents <+: s.cache.contents := by
          unfold makeRoom
          split_ifs
          · exact List.dropLast_prefix _
          · exact List.prefix_rfl
        have hwithout := prefix_without h.contents key
        rw [hkey] at hwithout
        exact (List.prefix_cons_inj _).2 (hroom.trans hwithout)

/-- and in a create. -/
lemma Included.contents_handleCreate (h : Included s s') (req : Request) :
    (s.handleCreate req none).2.cache.contents <+: (s'.handleCreate req none).2.cache.contents := by
  rw [Server.contents_handleCreate h.coherent, Server.contents_handleCreate h.coherent', ← h.table]
  simp only
  cases s.table.find (req.body.takeWhile (· ≠ ' ')) with
  | some old => exact h.contents
  | none => exact (List.prefix_cons_inj _).2 (prefix_makeRoom h.contents h.capacity)

/-- Every call keeps the smaller cache a part of the larger one. -/
lemma Included.handle (h : Included s s') (call : Call) :
    Included (call.handle s).2 (call.handle s').2 := by
  refine ⟨h.coherent.handle call, h.coherent'.handle call, ?_, ?_, ?_⟩
  · rw [(handle_uncached h.coherent call).2, (handle_uncached h.coherent' call).2, h.table]
  · rw [capacity_handle, capacity_handle]
    exact h.capacity
  · cases call with
    | create req => exact h.contents_handleCreate req
    | read key => exact h.contents_handleRead key
    | update req key =>
      rw [Call.handle, Call.handle, handleUpdate_spec, handleUpdate_spec, ← h.table]
      dsimp only
      split_ifs
      · exact h.contents
      · exact h.contents_deleteKey key
    | delete key =>
      simp only [Call.handle, KvServer.handleDelete, ← h.table]
      split_ifs
      · exact h.contents
      · exact h.contents_deleteKey key
    | sync req key => exact h.contents_deleteKey key
    | allKeys => exact h.contents

/-- What is read from the smaller cache is read from the larger one as well. -/
lemma Included.readKey (h : Included s s') (hread : (s.cache.readKey key).1 ≠ []) :
    (s'.cache.readKey key).1 = (s.cache.readKey key).1 := by
  have hs := (LRUCache.Refines.mk h.coherent.valid rfl rfl).readKey_fst key
  have hs' := (LRUCache.Refines.mk h.coherent'.valid rfl rfl).readKey_fst key
  cases hv : valueOf key s.cache.contents with
  | none =>
    rw [hs, hv] at hread
    exact absurd rfl hread
  | some value => rw [hs, hs', hv, valueOf_shorter h.contents hv]

end

/-- Of two servers with the same table and empty caches that get the same calls, the one with the
    larger cache has all the entries of the other one in front, after every call; so it reads from
    its cache whatever the other one does. -/
theorem cache_inclusion {capacity capacity' : ℕ} (hle : capacity ≤ capacity')
    (table : OrdMap Str Str) (calls : List Call) :
    let s := (outputs Call.handle ⟨table, .new capacity⟩ calls).2
    let s' := (outputs Call.handle ⟨table, .new capacity'⟩ calls).2
    s.cache.contents <+: s'.cache.contents
      ∧ ∀ key, (s.cache.readKey key).1 ≠ [] →
        (s'.cache.readKey key).1 = (s.cache.readKey key).1 := by
  intro s s'
  have hstart (capacity : ℕ) : KvServer.Coherent ⟨table, .new capacity⟩ :=
    ⟨LRUCache.valid_new capacity, nofun⟩
  have hincluded : Included s s' := by
    refine (outputs_simulates (P := Eq) (Q := fun _ _ => True) Included ?_
      (List.forall₂_refl calls) ?_).2
    · rintro s s' call _ h rfl
      exact ⟨trivial, h.handle call⟩
    · exact ⟨hstart capacity, hstart capacity', rfl, hle, List.prefix_rfl⟩
  exact ⟨hincluded.contents, fun key hread => hincluded.readKey hread⟩

/-- For the cache alone this does not hold: a create of a key that only the larger one has. -/
example :
    let ops : List (LruOp Str Str) := [.create ['a'] ['1'], .create ['b'] ['2'], .create ['a'] ['3']]
    ((LRUCache.after 1 ops).readKey ['a']).1 = ['3']
      ∧ ((LRUCache.after 2 ops).readKey ['a']).1 = ['1'] := by
  decide

/-- Three keys are read, and the first one again. -/
def rereading : List Call := [.read ['a'], .read ['b'], .read ['c'], .read ['a']]

/-- A table with three keys. -/
def threeKeys : OrdMap Str Str :=
  ((OrdMap.empty.insert ['a'] ['1']).insert ['b'] ['2']).insert ['c'] ['3']

/-- Two places keep two of the three keys that three places keep. -/
theorem cache_inclusion_rereading :
    (outputs Call.handle ⟨threeKeys, .new 2⟩ rereading).2.cache.contents
      <+: (outputs Call.handle ⟨threeKeys, .new 3⟩ rereading).2.cache.contents :=
  (cache_inclusion (by decide) threeKeys rereading).1

end KvStore.Server
