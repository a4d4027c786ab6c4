import KvStore.Server.Routes

/-!
# Where the values come from

What a server has for a key, in its table or in its cache, was stored by a call with that key and
that value, whatever the database does. Only a DELETE takes a key away.

* `Sourced.handleWith`: a call stores what it carries, and nothing else.
* `Sourced.read`: and a read shows what was stored.
* `handleWith_erases`: which call takes a row away.
-/

namespace KvStore.Server
open KvStore.Lib

/-- The key and the value that a call stores if it does. -/
def Call.stores : Call → Option (Str × Str)
  | .create req =>
    some (req.body.takeWhile (· ≠ ' '),
      ((req.body.dropWhile (· ≠ ' ')).drop 1).takeWhile (· ≠ '\n'))
  | .update req key => some (key, req.body)
  | .sync req key => some (key, req.body)
  | _ => none

/-- Everything that the server has is allowed. -/
structure KvServer.Sourced (P : Str → Str → Prop) (s : KvServer) : Prop where
  valid : s.cache.Valid
  stored : ∀ key value, s.table.find key = some value → P key value
  cached : ∀ n ∈ s.cache.cacheList, P n.key n.value

section
variable {P : Str → Str → Prop} {s : KvServer} {key value : Str}

/-- A row may be written. -/
lemma KvServer.Sourced.insert (h : s.Sourced P) (hp : P key value) :
    KvServer.Sourced P { s with table := s.table.insert key value } := by
  refine ⟨h.valid, fun k v hv => ?_, h.cached⟩
  dsimp only at hv
  rw [OrdMap.find_insert] at hv
  split_ifs at hv with hk
  · obtain rfl := Option.some.inj hv
    exact hk ▸ hp
  · exact h.stored k v hv

/-- A row may be deleted. -/
lemma KvServer.Sourced.erase (h : s.Sourced P) (key : Str) :
    KvServer.Sourced P { s with table := s.table.erase key } := by
  refine ⟨h.valid, fun k v hv => ?_, h.cached⟩
  dsimp only at hv
  rw [OrdMap.find_erase] at hv
  split_ifs at hv
  exact h.stored k v hv

/-- An entry of the cache may be dropped. -/
lemma KvServer.Sourced.drop (h : s.Sourced P) (key : Str) :
    KvServer.Sourced P { s with cache := (s.cache.deleteKey key).2 } :=
  ⟨h.valid.deleteKey key, h.stored, fun n hn => h.cached n (h.valid.mem_deleteKey.1 hn).1⟩

/-- What is allowed may be added to the cache. -/
lemma KvServer.Sourced.fill (h : s.Sourced P) (hp : P key value) :
    KvServer.Sourced P { s with cache := (s.cache.createKey key value).2 } := by
  refine ⟨h.valid.createKey key value, h.stored, fun n hn => ?_⟩
  rcases LRUCache.mem_createKey hn with ⟨rfl, rfl⟩ | hn
  · exact hp
  · exact h.cached n hn

/-- Reading the cache adds no value. -/
lemma KvServer.Sourced.touch (h : s.Sourced P) (key : Str) :
    KvServer.Sourced P { s with cache := (s.cache.readKey key).2 } :=
  ⟨h.valid.readKey key, h.stored, fun n hn => h.cached n (h.valid.mem_readKey.1 hn)⟩

/-- A commit that throws has taken effect or not. -/
lemma KvServer.Sourced.afterFailedCommit {table : OrdMap Str Str} (h : s.Sourced P)
    (ht : KvServer.Sourced P { s with table := table }) (applied : Bool) :
    (s.afterFailedCommit applied table).Sourced P := by
  cases applied with
  | true => exact ht
  | false => exact h

end

section
variable {P : Str → Str → Prop} {s : KvServer}

/-- A read of a key. -/
lemma KvServer.Sourced.handleRead (h : s.Sourced P) (key : Str) (fault : Option DbFault) :
    (s.handleRead key fault).2.Sourced P
      ∧ ((s.handleRead key fault).1.status = 200 → P key (s.handleRead key fault).1.body) := by
  have htouch := h.touch key
  unfold KvServer.handleRead
  dsimp only
  by_cases hc : (s.cache.readKey key).1 = []
  · rw [if_neg (not_not.2 hc)]
    rcases fault with _ | what | ⟨what, applied⟩
    · cases hf : s.table.find key with
      | none => exact ⟨htouch, by rintro ⟨⟩⟩
      | some value => exact ⟨htouch.fill (h.stored key value hf), fun _ => h.stored key value hf⟩
    · exact ⟨htouch, by rintro ⟨⟩⟩
    · cases hf : s.table.find key with
      | none => exact ⟨htouch, by rintro ⟨⟩⟩
      | some value => exact ⟨htouch.fill (h.stored key value hf), fun _ => h.stored key value hf⟩
  · rw [if_pos hc]
    obtain ⟨n, hn, rfl, hv⟩ := h.valid.readKey_fst hc
    exact ⟨htouch, fun _ => hv ▸ h.cached n hn⟩

/-- A call stores what it carries, and nothing else. -/
lemma KvServer.Sourced.handleWith (h : s.Sourced P) {call : Call}
    (hcall : ∀ key value, call.stores = some (key, value) → P key value)
    (fault : Option DbFault) : (Call.handleWith s (call, fault)).2.Sourced P := by
  cases call with
  | create req =>
    have hp := hcall _ _ rfl
    simp only [Call.handleWith, KvServer.handleCreate]
    rcases fault with _ | what | ⟨what, applied⟩
    · dsimp only
      split_ifs
      · exact h
      · exact (h.insert hp).fill hp
    · exact h
    · dsimp only
      split_ifs
      · exact h
      · exact h.afterFailedCommit (h.insert hp) applied
  | read key => exact (h.handleRead key fault).1
  | update req key =>
    have hp := hcall _ _ rfl
    rw [Call.handleWith, handleUpdate_spec]
    rcases fault with _ | what | ⟨what, applied⟩
    · dsimp only
      split_ifs
      · exact h
      · exact (h.insert hp).drop key
    · exact h
    · dsimp only
      split_ifs
      · exact h
      · exact h.afterFailedCommit (h.insert hp) applied
  | delete key =>
    simp only [Call.handleWith, KvServer.handleDelete]
    rcases fault with _ | what | ⟨what, applied⟩
    · dsimp only
      split_ifs
      · exact h
      · exact (h.erase key).drop key
    · exact h
    · dsimp only
      split_ifs
      · exact h
      · exact h.afterFailedCommit (h.erase key) applied
  | sync req key =>
    have hp := hcall _ _ rfl
    rcases fault with _ | what | ⟨what, applied⟩
    · exact (h.insert hp).drop key
    · exact h
    · exact h.afterFailedCommit (h.insert hp) applied
  | allKeys => rcases fault with _ | what | ⟨what, applied⟩ <;> exact h

/-- The same for the routes. -/
lemma KvServer.Sourced.dispatch (h : s.Sourced P) {req : Request}
    (hreq : ∀ key value, req.call.bind Call.stores = some (key, value) → P key value)
    (fault : Option DbFault) : (s.dispatch req fault).2.Sourced P := by
  cases hcall : req.call with
  | none =>
    rw [dispatch_of_call_eq_none s hcall]
    exact h
  | some call =>
    rw [dispatch_call s hcall]
    refine h.handleWith (fun key value hs => hreq key value ?_) fault
    rw [hcall]
    exact hs

/-- What a call makes of the table. -/
lemma handleWith_table (s : KvServer) (call : Call) (fault : Option DbFault) :
    (Call.handleWith s (call, fault)).2.table = s.table
      ∨ (∃ key value, call.stores = some (key, value)
        ∧ (Call.handleWith s (call, fault)).2.table = s.table.insert key value)
      ∨ ∃ key, call = .delete key
        ∧ (Call.handleWith s (call, fault)).2.table = s.table.erase key := by
  have hcommit (applied : Bool) (table : OrdMap Str Str) :
      (s.afterFailedCommit applied table).table = s.table
        ∨ (s.afterFailedCommit applied table).table = table := by
    cases applied with
    | true => exact .inr rfl
    | false => exact .inl rfl
  cases call with
  | create req =>
    simp only [Call.handleWith, KvServer.handleCreate]
    rcases fault with _ | what | ⟨what, applied⟩
    · dsimp only
      split_ifs
      · exact .inl rfl
      · exact .inr (.inl ⟨_, _, rfl, rfl⟩)
    · exact .inl rfl
    · dsimp only
      split_ifs
      · exact .inl rfl
      · exact (hcommit applied _).imp id fun ht => .inl ⟨_, _, rfl, ht⟩
  | read key =>
    refine .inl ?_
    simp only [Call.handleWith, KvServer.handleRead]
    rcases fault with _ | what | ⟨what, applied⟩ <;> split_ifs <;>
      cases s.table.find key <;> rfl
  | update req key =>
    rw [Call.handleWith, handleUpdate_spec]
    rcases fault with _ | what | ⟨what, applied⟩
    · dsimp only
      split_ifs
      · exact .inl rfl
      · exact .inr (.inl ⟨_, _, rfl, rfl⟩)
    · exact .inl rfl
    · dsimp only
      split_ifs
      · exact .inl rfl
      · exact (hcommit applied _).imp id fun ht => .inl ⟨_, _, rfl, ht⟩
  | delete key =>
    simp only [Call.handleWith, KvServer.handleDelete]
    rcases fault with _ | what | ⟨what, applied⟩
    · dsimp only
      split_ifs
      · exact .inl rfl
      · exact .inr (.inr ⟨key, rfl, rfl⟩)
    · exact .inl rfl
    · dsimp only
      split_ifs
      · exact .inl rfl
      · exact (hcommit applied _).imp id fun ht => .inr ⟨key, rfl, ht⟩
  | sync req key =>
    rcases fault with _ | what | ⟨what, applied⟩
    · exact .inr (.inl ⟨_, _, rfl, rfl⟩)
    · exact .inl rfl
    · exact (hcommit applied _).imp id fun ht => .inl ⟨_, _, rfl, ht⟩
  | allKeys => rcases fault with _ | what | ⟨what, applied⟩ <;> exact .inl rfl

/-- Only a DELETE takes a row away. -/
lemma handleWith_erases {call : Call} {fault : Option DbFault} {key : Str}
    (hsome : s.table.find key ≠ none)
    (hnone : (Call.handleWith s (call, fault)).2.table.find key = none) : call = .delete key := by
  rcases handleWith_table s call fault with ht | ⟨k, value, -, ht⟩ | ⟨k, rfl, ht⟩
  · rw [ht] at hnone
    exact absurd hnone hsome
  · rw [ht, OrdMap.find_insert] at hnone
    split_ifs at hnone
    exact absurd hnone hsome
  · rw [ht, OrdMap.find_erase] at hnone
    split_ifs at hnone with hk
    · rw [hk]
    · exact absurd hnone hsome

/-- The same for the routes. -/
lemma dispatch_erases {req : Request} {fault : Option DbFault} {key : Str}
    (hsome : s.table.find key ≠ none) (hnone : (s.dispatch req fault).2.table.find key = none) :
    req.call = some (.delete key) := by
  cases hcall : req.call with
  | none =>
    rw [dispatch_of_call_eq_none s hcall] at hnone
    exact absurd hnone hsome
  | some call =>
    rw [dispatch_call s hcall] at hnone
    rw [handleWith_erases hsome hnone]

/-- A GET stores nothing. -/
lemma stores_get {req : Request} (hm : req.method = "GET".toList) :
    req.call.bind Call.stores = none := by
  unfold Request.call
  rw [hm, if_neg (by decide), if_neg (by decide), if_neg (by decide), if_pos (.inl rfl)]
  split_ifs
  · rfl
  · cases wordAfter keyRoot req.path <;> rfl

/-- What a GET for a key shows, unless it lists the keys. -/
lemma KvServer.Sourced.dispatch_get (h : s.Sourced P) {req : Request} {key : Str}
    (hm : req.method = "GET".toList) (hp : req.path = keyRoot ++ key)
    (hkey : key ≠ "allkeys".toList) (fault : Option DbFault)
    (hstatus : (s.dispatch req fault).1.status = 200) : P key (s.dispatch req fault).1.body := by
  have hpath : req.path ≠ allKeysPath := fun he =>
    hkey (List.append_right_injective keyRoot (hp.symm.trans he))
  have hhealth : req.path ≠ healthPath := by
    rw [hp]
    intro he
    have htake := congrArg (List.take 2) he
    rw [List.take_append_of_le_length (by decide)] at htake
    exact absurd htake (by decide)
  unfold KvServer.dispatch at hstatus ⊢
  rw [hm, if_neg (by decide), if_neg (by decide), if_neg (by decide), if_pos (.inl rfl),
    if_neg hpath] at hstatus ⊢
  rw [if_neg hhealth, hp, wordAfter_append] at hstatus ⊢
  cases hw : isWord key with
  | true =>
    rw [hw] at hstatus
    exact (h.handleRead key fault).2 hstatus
  | false =>
    rw [hw] at hstatus
    cases hstatus

/-- What a sync stores. -/
lemma stores_sync {key value k v : Str} {req : Request} (hm : req.method = "POST".toList)
    (hp : req.path = syncRoot ++ key) (hbody : req.body = value)
    (h : req.call.bind Call.stores = some (k, v)) : k = key ∧ v = value := by
  have hcreate : syncRoot ++ key ≠ "/kvstore/create".toList := by
    intro he
    have htake := congrArg (List.take 10) he
    rw [List.take_append_of_le_length (by decide)] at htake
    exact absurd htake (by decide)
  unfold Request.call at h
  rw [if_pos hm, hp, if_neg hcreate, wordAfter_append] at h
  split_ifs at h
  · obtain ⟨rfl, rfl⟩ := Prod.mk.inj (Option.some.inj h)
    exact ⟨rfl, hbody⟩
  · cases h

/-- Which request makes a call that deletes. -/
lemma method_of_delete {req : Request} {key : Str} (h : req.call = some (.delete key)) :
    req.method = "DELETE".toList := by
  unfold Request.call at h
  split_ifs at h with h1 h2 h3 h4 h5 h6
  · cases h
  · obtain ⟨_, -, h⟩ := Option.map_eq_some_iff.1 h
    cases h
  · obtain ⟨_, -, h⟩ := Option.map_eq_some_iff.1 h
    cases h
  · exact h4
  · cases h
  · obtain ⟨_, -, h⟩ := Option.map_eq_some_iff.1 h
    cases h

end

end KvStore.Server
