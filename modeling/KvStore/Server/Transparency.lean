import KvStore.Lib.Run
import KvStore.Server.Handlers

/-!
# The cache does not show

The handlers of a server without its cache, and that clients cannot tell the two servers apart as
long as calls come one after the other and the database does not fail (`cache_transparent`). The
simulation is `KvServer.Coherent`, with the same table on both sides.
-/

namespace KvStore.Server
open KvStore.Lib

/-- A call of a handler. -/
inductive Call where
  | create (req : Request)
  | read (key : Str)
  | update (req : Request) (key : Str)
  | delete (key : Str)
  | sync (req : Request) (key : Str)
  | allKeys

/-- What the handler does. -/
def Call.handle (s : KvServer) : Call → Response × KvServer
  | .create req => s.handleCreate req none
  | .read key => s.handleRead key none
  | .update req key => s.handleUpdate req key none
  | .delete key => s.handleDelete key none
  | .sync req key => s.handleSync req key none
  | .allKeys => s.handleAllKeys none

/-- The handlers without the operations on the cache. -/
def Call.handleUncached (table : OrdMap Str Str) : Call → Response × OrdMap Str Str
  | .create req =>
    let key := req.body.takeWhile (· ≠ ' ')
    let value := ((req.body.dropWhile (· ≠ ' ')).drop 1).takeWhile (· ≠ '\n')
    if table.find key ≠ none then (closing.reply 409 "Error: Key already exists".toList, table)
    else (closing.reply 201 "Created Successfully".toList, table.insert key value)
  | .read key =>
    match table.find key with
    | none => (closing.reply 404 "Key not Found\n".toList, table)
    | some dbValue => (closing.reply 200 dbValue, table)
  | .update req key =>
    let r :=
      if req.isReplication then upsert table key req.body else Server.update table key req.body
    if r.1.isEmpty && !req.isReplication then
      (closing.reply 404 "Key not found in DB\n".toList, table)
    else (closing.reply 200 "Updated Successfully\n".toList, r.2)
  | .delete key =>
    if table.find key = none then (closing.reply 404 "Key Not Found\n".toList, table)
    else (closing.reply 200 "Deleted Successfully\n".toList, table.erase key)
  | .sync req key =>
    let r := upsert table key req.body
    if r.1.isEmpty then (closing.reply 200 "Ignored: Never version already present\n".toList, r.2)
    else (closing.reply 201 "Synced Successfully\n".toList, r.2)
  | .allKeys => (closing.reply 200 (keyList table.keys), table)

/-- A call on a coherent server is answered as without the cache and does the same to the table. -/
lemma handle_uncached {s : KvServer} (h : s.Coherent) (call : Call) :
    (call.handle s).1 = (call.handleUncached s.table).1
      ∧ (call.handle s).2.table = (call.handleUncached s.table).2 := by
  cases call with
  | create req =>
    simp only [Call.handle, Call.handleUncached, KvServer.handleCreate]
    split_ifs <;> exact ⟨rfl, rfl⟩
  | read key =>
    obtain ⟨hres, htable, -⟩ := handleRead_eq h key
    simp only [Call.handle, Call.handleUncached, hres, htable]
    cases s.table.find key <;> exact ⟨rfl, rfl⟩
  | update req key =>
    simp only [Call.handle, Call.handleUncached, KvServer.handleUpdate]
    generalize (if req.isReplication then upsert s.table key req.body
      else update s.table key req.body) = r
    cases r.1.isEmpty && !req.isReplication <;> exact ⟨rfl, rfl⟩
  | delete key =>
    simp only [Call.handle, Call.handleUncached, KvServer.handleDelete]
    split_ifs <;> exact ⟨rfl, rfl⟩
  | sync req key => exact ⟨rfl, rfl⟩
  | allKeys => exact ⟨rfl, rfl⟩

/-- Every call keeps the cache coherent. -/
lemma KvServer.Coherent.handle {s : KvServer} (h : s.Coherent) (call : Call) :
    (call.handle s).2.Coherent := by
  cases call with
  | create req => exact h.handleCreate req
  | read key => exact (handleRead_eq h key).2.2
  | update req key => exact h.handleUpdate req key
  | delete key => exact h.handleDelete key
  | sync req key => exact h.write fun k hk => OrdMap.find_insert_ne _ (Ne.symm hk) _
  | allKeys => exact h

/-- With an empty cache of any capacity, calls one after the other are answered as without a cache,
    and leave the same table. -/
theorem cache_transparent (capacity : ℕ) (table : OrdMap Str Str) (calls : List Call) :
    (outputs Call.handle ⟨table, .new capacity⟩ calls).1
        = (outputs Call.handleUncached table calls).1
      ∧ (outputs Call.handle ⟨table, .new capacity⟩ calls).2.table
        = (outputs Call.handleUncached table calls).2 := by
  have hstep (s : KvServer) (t : OrdMap Str Str) (call call' : Call)
      (h : s.Coherent ∧ s.table = t) (he : call = call') :
      (call.handle s).1 = (call'.handleUncached t).1
        ∧ (call.handle s).2.Coherent ∧ (call.handle s).2.table = (call'.handleUncached t).2 := by
    obtain ⟨h, rfl⟩ := h
    subst he
    obtain ⟨hres, htable⟩ := handle_uncached h call
    exact ⟨hres, h.handle call, htable⟩
  have hstart : KvServer.Coherent ⟨table, .new capacity⟩ :=
    ⟨LRUCache.valid_new capacity, nofun⟩
  obtain ⟨hanswers, -, htable⟩ := outputs_simulates _ hstep (List.forall₂_refl calls)
    (show KvServer.Coherent _ ∧ _ from ⟨hstart, rfl⟩)
  exact ⟨List.forall₂_eq_eq_eq ▸ hanswers, htable⟩

end KvStore.Server
