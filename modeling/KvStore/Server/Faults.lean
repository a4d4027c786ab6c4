import KvStore.Server.Lru
import KvStore.Server.Transparency

/-!
# Database errors and the cache

What the cache and the table have in common after calls whose database calls may fail. A handler
drops the cache entry of its key only after the commit has returned, so a commit that takes effect
and then throws leaves the entry as it was.

* `coherent_handleWith_iff`: the one kind of step after which the cache is not right.
* `handleWith_keeps`: what a call leaves alone, whatever the database does.
* `cacheCurrent_iff`: a run keeps the cache right exactly if it has no such step.
* `cacheCurrent_fails`: an update whose commit takes effect and throws.
-/

namespace KvStore.Server
open KvStore.Lib

/-- What the handler does if a database call may fail. -/
def Call.handleWith (s : KvServer) : Call × Option DbFault → Response × KvServer
  | (.create req, fault) => s.handleCreate req fault
  | (.read key, fault) => s.handleRead key fault
  | (.update req key, fault) => s.handleUpdate req key fault
  | (.delete key, fault) => s.handleDelete key fault
  | (.sync req key, fault) => s.handleSync req key fault
  | (.allKeys, fault) => s.handleAllKeys fault

/-- The key that a call works on. -/
def Call.key : Call → Option Str
  | .create req => some (req.body.takeWhile (· ≠ ' '))
  | .read key => some key
  | .update _ key => some key
  | .delete key => some key
  | .sync _ key => some key
  | .allKeys => none

/-- The server after some calls. -/
def KvServer.afterCalls (s : KvServer) (calls : List (Call × Option DbFault)) : KvServer :=
  calls.foldl (fun s call => (Call.handleWith s call).2) s

/-- Every cache entry is what the table has for its key. -/
def KvServer.CacheCurrent (s : KvServer) : Prop :=
  ∀ n ∈ s.cache.cacheList, s.table.find n.key = some n.value

instance (s : KvServer) : Decidable s.CacheCurrent :=
  inferInstanceAs (Decidable (∀ n ∈ _, _))

/-- The key whose cache entry the handler drops after the commit, and what the transaction makes of
    its row. -/
def Call.replaces : Call → Option (Str × Option Str)
  | .update req key => some (key, some req.body)
  | .delete key => some (key, none)
  | .sync req key => some (key, some req.body)
  | _ => none

/-- The commit takes effect and throws, and the cache has another value for the key than the one
    that is committed. -/
def LeavesStale (s : KvServer) (call : Call × Option DbFault) : Prop :=
  ∃ what key entry, call.2 = some (.commit what true) ∧ call.1.replaces = some (key, entry)
    ∧ ∃ n ∈ s.cache.cacheList, n.key = key ∧ some n.value ≠ entry

section
variable {s : KvServer} {call : Call} {key what : Str} {entry : Option Str}

/-- Without faults the handlers are those of `Call.handle`. -/
lemma handleWith_none (s : KvServer) (call : Call) :
    Call.handleWith s (call, none) = call.handle s := by
  cases call <;> rfl

/-- A statement that throws changes no row. -/
lemma coherent_handleWith_statement (h : s.Coherent) (call : Call) (what : Str) :
    (Call.handleWith s (call, some (.statement what))).2.Coherent := by
  cases call with
  | read key =>
    simp only [Call.handleWith, KvServer.handleRead]
    split_ifs
    · exact h.touch key
    · exact h.touch key
  | create | update | delete | sync | allKeys => exact h

/-- Nor does a commit that throws and takes no effect. -/
lemma coherent_handleWith_commit_false (h : s.Coherent) (call : Call) (what : Str) :
    (Call.handleWith s (call, some (.commit what false))).2.Coherent := by
  cases call with
  | create req =>
    simp only [Call.handleWith, KvServer.handleCreate]
    split_ifs <;> exact h
  | read key => exact (handleRead_eq h key).2.2
  | update req key =>
    rw [Call.handleWith, handleUpdate_spec]
    dsimp only
    split_ifs <;> exact h
  | delete key =>
    simp only [Call.handleWith, KvServer.handleDelete]
    split_ifs <;> exact h
  | sync | allKeys => exact h

/-- A create finds no row, so there is no entry of its key in the cache. -/
lemma coherent_handleCreate_commit (h : s.Coherent) (req : Request) (what : Str) :
    (s.handleCreate req (some (.commit what true))).2.Coherent := by
  simp only [KvServer.handleCreate]
  split_ifs with hf
  · exact h
  · refine ⟨h.valid, fun n hn => ?_⟩
    refine (OrdMap.find_insert_ne _ (fun he => hf ?_) _).trans (h.current n hn)
    rw [he, h.current n hn]
    exact Option.some_ne_none _

/-- A commit that takes effect and throws changes the row of the key, unless there is none to be
    changed, and leaves the cache as it is. -/
lemma handleWith_commit_true (s : KvServer) (hcall : call.replaces = some (key, entry))
    (what : Str) :
    (Call.handleWith s (call, some (.commit what true))).2 = s ∧ s.table.find key = none
      ∨ (Call.handleWith s (call, some (.commit what true))).2.cache = s.cache
        ∧ ∀ k, (Call.handleWith s (call, some (.commit what true))).2.table.find k
          = if key = k then entry else s.table.find k := by
  cases call with
  | create | read | allKeys => cases hcall
  | update req k =>
    obtain ⟨rfl, rfl⟩ := Prod.mk.inj (Option.some.inj hcall)
    rw [Call.handleWith, handleUpdate_spec]
    dsimp only
    split_ifs with hc
    · exact .inl ⟨rfl, hc.2⟩
    · exact .inr ⟨rfl, fun k' => OrdMap.find_insert _ _ _ _⟩
  | delete k =>
    obtain ⟨rfl, rfl⟩ := Prod.mk.inj (Option.some.inj hcall)
    simp only [Call.handleWith, KvServer.handleDelete]
    by_cases hf : s.table.find k = none
    · rw [if_pos hf]
      exact .inl ⟨rfl, hf⟩
    · rw [if_neg hf]
      exact .inr ⟨rfl, fun k' => OrdMap.find_erase _ _ _⟩
  | sync req k =>
    obtain ⟨rfl, rfl⟩ := Prod.mk.inj (Option.some.inj hcall)
    exact .inr ⟨rfl, fun k' => OrdMap.find_insert _ _ _ _⟩

/-- After such a commit the cache is right if it has no entry for the key, or the one that is
    committed. -/
lemma coherent_handleWith_commit_true_iff (h : s.Coherent)
    (hcall : call.replaces = some (key, entry)) (what : Str) :
    (Call.handleWith s (call, some (.commit what true))).2.Coherent
      ↔ ∀ n ∈ s.cache.cacheList, n.key = key → some n.value = entry := by
  rcases handleWith_commit_true s hcall what with ⟨heq, hnone⟩ | ⟨hcache, htable⟩
  · rw [heq]
    refine iff_of_true h fun n hn hkey => ?_
    rw [← hkey, h.current n hn] at hnone
    cases hnone
  · constructor
    · intro hafter n hn hkey
      have hcur := hafter.current n (hcache ▸ hn)
      rw [htable, if_pos hkey.symm] at hcur
      exact hcur.symm
    · intro hall
      refine ⟨hcache ▸ h.valid, fun n hn => ?_⟩
      rw [hcache] at hn
      rw [htable]
      split_ifs with hkey
      · exact (hall n hn hkey.symm).symm
      · exact h.current n hn

/-- The only calls after which the cache is not right. -/
lemma coherent_handleWith_iff (h : s.Coherent) (call : Call × Option DbFault) :
    (Call.handleWith s call).2.Coherent ↔ ¬ LeavesStale s call := by
  obtain ⟨call, fault⟩ := call
  cases fault with
  | none =>
    rw [handleWith_none]
    refine iff_of_true (h.handle call) ?_
    rintro ⟨_, _, _, hfault, -⟩
    cases hfault
  | some fault =>
    cases fault with
    | statement what =>
      refine iff_of_true (coherent_handleWith_statement h call what) ?_
      rintro ⟨_, _, _, hfault, -⟩
      cases hfault
    | commit what applied =>
      cases applied with
      | false =>
        refine iff_of_true (coherent_handleWith_commit_false h call what) ?_
        rintro ⟨_, _, _, hfault, -⟩
        cases hfault
      | true =>
        cases hr : call.replaces with
        | none =>
          refine iff_of_true ?_ ?_
          · cases call with
            | create req => exact coherent_handleCreate_commit h req what
            | read key => exact (handleRead_eq h key).2.2
            | allKeys => exact h
            | update | delete | sync => cases hr
          · rintro ⟨_, _, _, -, hsome, -⟩
            cases hr.symm.trans hsome
        | some replaced =>
          obtain ⟨key, entry⟩ := replaced
          rw [coherent_handleWith_commit_true_iff h hr]
          constructor
          · rintro hall ⟨_, _, _, -, hsome, n, hn, hkey, hne⟩
            obtain ⟨rfl, rfl⟩ := Prod.mk.inj (Option.some.inj (hr.symm.trans hsome))
            exact hne (hall n hn hkey)
          · intro hnot n hn hkey
            by_contra hne
            exact hnot ⟨what, key, entry, rfl, hr, n, hn, hkey, hne⟩

end

/-- One more call is the last one. -/
lemma afterCalls_append (s : KvServer) (done : List (Call × Option DbFault))
    (call : Call × Option DbFault) :
    s.afterCalls (done ++ [call]) = (Call.handleWith (s.afterCalls done) call).2 := by
  rw [KvServer.afterCalls, List.foldl_append]
  rfl

/-- The cache is right after every call of a run exactly if no call of the run leaves a stale
    entry. -/
lemma coherent_afterCalls_iff {s : KvServer} (h : s.Coherent) (calls : List (Call × Option DbFault)) :
    (∀ done, done <+: calls → (s.afterCalls done).Coherent)
      ↔ ∀ done call, done ++ [call] <+: calls → ¬ LeavesStale (s.afterCalls done) call := by
  constructor
  · intro hall done call hp
    have hdone := hall done ((List.prefix_append _ _).trans hp)
    rw [← coherent_handleWith_iff hdone, ← afterCalls_append]
    exact hall _ hp
  · intro hnot done
    induction done using List.reverseRecOn with
    | nil => exact fun _ => h
    | append_singleton done call ih =>
      intro hp
      have hdone := ih ((List.prefix_append _ _).trans hp)
      rw [afterCalls_append, coherent_handleWith_iff hdone]
      exact hnot done call hp

/-- What a handler that works on a key keeps, whatever the database does: the rows of the other keys,
    and a cache that is in order. -/
structure KvServer.Keeps (s : KvServer) (key : Str) (s' : KvServer) : Prop where
  find : ∀ k, key ≠ k → s'.table.find k = s.table.find k
  valid : s.cache.Valid → s'.cache.Valid

section
variable {s : KvServer} {key : Str}

/-- A server keeps what it has, -/
lemma KvServer.Keeps.refl : s.Keeps key s := ⟨fun _ _ => rfl, id⟩

/-- A commit that throws may have changed the row of the key. -/
lemma keeps_afterFailedCommit {table : OrdMap Str Str}
    (h : ∀ k, key ≠ k → table.find k = s.table.find k) (applied : Bool) :
    s.Keeps key (s.afterFailedCommit applied table) := by
  cases applied with
  | true => exact ⟨h, id⟩
  | false => exact .refl

/-- a create changes its own key only, -/
lemma handleCreate_keeps (s : KvServer) (req : Request) (fault : Option DbFault) :
    s.Keeps (req.body.takeWhile (· ≠ ' ')) (s.handleCreate req fault).2 := by
  have hinsert (value : Str) (k : Str) (hk : req.body.takeWhile (· ≠ ' ') ≠ k) :=
    OrdMap.find_insert_ne s.table hk value
  unfold KvServer.handleCreate
  dsimp only
  split
  · exact .refl
  · split_ifs
    · exact .refl
    · split
      · exact keeps_afterFailedCommit (hinsert _) _
      · exact ⟨hinsert _, fun h => h.createKey _ _⟩

/-- and so do a read, -/
lemma handleRead_keeps (s : KvServer) (key : Str) (fault : Option DbFault) :
    s.Keeps key (s.handleRead key fault).2 := by
  have hread : s.Keeps key { s with cache := (s.cache.readKey key).2 } :=
    ⟨fun _ _ => rfl, fun h => h.readKey key⟩
  unfold KvServer.handleRead
  dsimp only
  split_ifs
  · exact hread
  · split
    · exact hread
    · split
      · exact hread
      · exact ⟨fun _ _ => rfl, fun h => (h.readKey key).createKey key _⟩

/-- an update, -/
lemma handleUpdate_keeps (s : KvServer) (req : Request) (key : Str) (fault : Option DbFault) :
    s.Keeps key (s.handleUpdate req key fault).2 := by
  have hwritten (k : Str) (hk : key ≠ k) := OrdMap.find_insert_ne s.table hk req.body
  rw [handleUpdate_spec]
  split
  · exact .refl
  · split
    · exact .refl
    · split
      · exact keeps_afterFailedCommit hwritten _
      · exact ⟨hwritten, fun h => h.deleteKey key⟩

/-- a delete, -/
lemma handleDelete_keeps (s : KvServer) (key : Str) (fault : Option DbFault) :
    s.Keeps key (s.handleDelete key fault).2 := by
  have herase (k : Str) (hk : key ≠ k) := OrdMap.find_erase_ne s.table hk
  unfold KvServer.handleDelete
  split
  · exact .refl
  · split_ifs
    · exact .refl
    · split
      · exact keeps_afterFailedCommit herase _
      · exact ⟨herase, fun h => h.deleteKey key⟩

/-- and a sync, whatever fails. -/
lemma handleSync_keeps (s : KvServer) (req : Request) (key : Str) (fault : Option DbFault) :
    s.Keeps key (s.handleSync req key fault).2 := by
  have hinsert (k : Str) (hk : key ≠ k) := OrdMap.find_insert_ne s.table hk req.body
  unfold KvServer.handleSync
  dsimp only
  split
  · exact .refl
  · exact keeps_afterFailedCommit hinsert _
  · exact ⟨hinsert, fun h => h.deleteKey key⟩

end

/-- A call works on its key, or changes nothing. -/
lemma handleWith_keeps (s : KvServer) (call : Call × Option DbFault) :
    (∃ key, call.1.key = some key ∧ s.Keeps key (Call.handleWith s call).2)
      ∨ (Call.handleWith s call).2 = s := by
  obtain ⟨call, fault⟩ := call
  cases call with
  | create req => exact .inl ⟨_, rfl, handleCreate_keeps s req fault⟩
  | read key => exact .inl ⟨_, rfl, handleRead_keeps s key fault⟩
  | update req key => exact .inl ⟨_, rfl, handleUpdate_keeps s req key fault⟩
  | delete key => exact .inl ⟨_, rfl, handleDelete_keeps s key fault⟩
  | sync req key => exact .inl ⟨_, rfl, handleSync_keeps s req key fault⟩
  | allKeys =>
    refine .inr ?_
    rw [Call.handleWith]
    unfold KvServer.handleAllKeys
    split <;> rfl

/-- No call breaks the cache itself. -/
lemma valid_handleWith {s : KvServer} (h : s.cache.Valid) (call : Call × Option DbFault) :
    (Call.handleWith s call).2.cache.Valid := by
  rcases handleWith_keeps s call with ⟨key, -, hkeeps⟩ | hsame
  · exact hkeeps.valid h
  · rwa [hsame]

/-- A call changes no entry but that of its key, whatever the database does. -/
lemma find_handleWith_ne (s : KvServer) (call : Call × Option DbFault) {k : Str}
    (hk : call.1.key ≠ some k) : (Call.handleWith s call).2.table.find k = s.table.find k := by
  rcases handleWith_keeps s call with ⟨key, hkey, hkeeps⟩ | hsame
  · exact hkeeps.find k fun he => hk (hkey.trans (congrArg some he))
  · rw [hsame]

/-- The cache stays valid. -/
lemma valid_afterCalls {s : KvServer} (h : s.cache.Valid) (calls : List (Call × Option DbFault)) :
    (s.afterCalls calls).cache.Valid := by
  induction calls using List.reverseRecOn with
  | nil => exact h
  | append_singleton calls call ih =>
    rw [afterCalls_append]
    exact valid_handleWith ih call

/-- Whatever the database does, the cache of a server that starts with an empty one is right after
    every call of a run exactly if no call of the run leaves a stale entry. -/
theorem cacheCurrent_iff (capacity : ℕ) (table : OrdMap Str Str)
    (calls : List (Call × Option DbFault)) :
    let s := KvServer.mk table (.new capacity)
    (∀ done, done <+: calls → (s.afterCalls done).CacheCurrent)
      ↔ ∀ done call, done ++ [call] <+: calls → ¬ LeavesStale (s.afterCalls done) call := by
  intro s
  have hvalid : s.cache.Valid := LRUCache.valid_new capacity
  have hstart : s.Coherent := ⟨hvalid, nofun⟩
  rw [← coherent_afterCalls_iff hstart]
  constructor
  · exact fun hall done hp => ⟨valid_afterCalls hvalid done, hall done hp⟩
  · exact fun hall done hp => (hall done hp).current

/-- A table with one key. -/
def oneKey : OrdMap Str Str := OrdMap.empty.insert ['a'] ['x']

/-- A key is read and then updated, and the connection is lost while the update commits. -/
def lostCommit : List (Call × Option DbFault) :=
  [(.read ['a'], none),
    (.update { method := "PUT".toList, path := keyPath ['a'], body := ['y'] } ['a'],
      some (.commit "connection lost".toList true))]

/-- A database failure can leave a stale cache entry. -/
theorem cacheCurrent_fails : ¬ ∀ (capacity : ℕ) (table : OrdMap Str Str)
    (calls : List (Call × Option DbFault)),
    (KvServer.afterCalls ⟨table, .new capacity⟩ calls).CacheCurrent := by
  intro hall
  exact absurd (hall 1000 oneKey lostCommit) (by decide)

end KvStore.Server
