import KvStore.Server.Transparency
import Mathlib.Logic.Function.Iterate

/-!
# Concurrent handlers

The handlers of one server on any number of threads. A database transaction is one step of a handler
and so is every operation of the cache, which holds its mutex; between the steps other threads run.
`step_alone` says that the steps of a call that runs alone make up its handler.

* `Threads.Inv.step`: as long as the cache is only filled with what is current or will be dropped
  again, every entry that is not the table's is about to be dropped.
* `cache_current`: so no stale entry is left when all calls have been answered.
* `cache_stale`: a reader that fills the cache too late.
-/

namespace KvStore.Server
open KvStore.Lib

/-- Where a call is: at its beginning, after a lookup in the cache that found nothing, before it
    changes the cache, or at its end. -/
inductive CallPhase where
  | begun (call : Call)
  | missed (key : Str)
  | filling (key value : Str) (res : Response)
  | invalidating (key : Str) (res : Response)
  | answered (res : Response)

/-- One step of a call. -/
def CallPhase.step (s : KvServer) : CallPhase → CallPhase × KvServer
  | .begun (.create req) =>
    let key := req.body.takeWhile (· ≠ ' ')
    let value := ((req.body.dropWhile (· ≠ ' ')).drop 1).takeWhile (· ≠ '\n')
    if s.table.find key ≠ none then
      (.answered (closing.reply 409 "Error: Key already exists".toList), s)
    else
      (.filling key value (closing.reply 201 "Created Successfully".toList),
        { s with table := s.table.insert key value })
  | .begun (.read key) =>
    let cacheValue := (s.cache.readKey key).1
    let s := { s with cache := (s.cache.readKey key).2 }
    if cacheValue ≠ [] then (.answered (closing.reply 200 cacheValue), s) else (.missed key, s)
  | .begun (.update req key) =>
    let r := if req.isReplication then upsert s.table key req.body else update s.table key req.body
    if r.1.isEmpty && !req.isReplication then
      (.answered (closing.reply 404 "Key not found in DB\n".toList), s)
    else
      (.invalidating key (closing.reply 200 "Updated Successfully\n".toList), { s with table := r.2 })
  | .begun (.delete key) =>
    if s.table.find key = none then
      (.answered (closing.reply 404 "Key Not Found\n".toList), s)
    else
      (.invalidating key (closing.reply 200 "Deleted Successfully\n".toList),
        { s with table := s.table.erase key })
  | .begun (.sync req key) =>
    let r := upsert s.table key req.body
    let res :=
      if r.1.isEmpty then closing.reply 200 "Ignored: Never version already present\n".toList
      else closing.reply 201 "Synced Successfully\n".toList
    (.invalidating key res, { s with table := r.2 })
  | .begun .allKeys =>
    (.answered (closing.reply 200 (keyList s.table.keys)), s)
  | .missed key =>
    match s.table.find key with
    | none => (.answered (closing.reply 404 "Key not Found\n".toList), s)
    | some dbValue => (.filling key dbValue (closing.reply 200 dbValue), s)
  | .filling key value res => (.answered res, { s with cache := (s.cache.createKey key value).2 })
  | .invalidating key res => (.answered res, { s with cache := (s.cache.deleteKey key).2 })
  | .answered res => (.answered res, s)

/-- A call that runs alone does what its handler does. -/
lemma step_alone (call : Call) (s : KvServer) :
    (fun c : CallPhase × KvServer => c.1.step c.2)^[3] (.begun call, s)
      = (.answered (call.handle s).1, (call.handle s).2) := by
  cases call with
  | create req =>
    cases hf : s.table.find (req.body.takeWhile (· ≠ ' ')) with
    | none =>
      have hstep : (CallPhase.begun (.create req)).step s = _ := if_neg (not_not.2 hf)
      have hhandle : s.handleCreate req none = _ := if_neg (not_not.2 hf)
      rw [Function.iterate_succ_apply, hstep, Call.handle, hhandle]
      rfl
    | some value =>
      have hne : s.table.find (req.body.takeWhile (· ≠ ' ')) ≠ none := by
        rw [hf]
        exact Option.some_ne_none _
      have hstep : (CallPhase.begun (.create req)).step s = _ := if_pos hne
      have hhandle : s.handleCreate req none = _ := if_pos hne
      rw [Function.iterate_succ_apply, hstep, Call.handle, hhandle]
      rfl
  | read key =>
    by_cases hc : (s.cache.readKey key).1 = []
    · have hstep : (CallPhase.begun (.read key)).step s = _ := if_neg (not_not.2 hc)
      have hhandle : s.handleRead key none = _ := if_neg (not_not.2 hc)
      rw [Function.iterate_succ_apply, hstep, Function.iterate_succ_apply, Call.handle, hhandle]
      simp only [CallPhase.step]
      cases s.table.find key <;> rfl
    · have hstep : (CallPhase.begun (.read key)).step s = _ := if_pos hc
      have hhandle : s.handleRead key none = _ := if_pos hc
      rw [Function.iterate_succ_apply, hstep, Call.handle, hhandle]
      rfl
  | update req key =>
    rw [Function.iterate_succ_apply]
    simp only [CallPhase.step, Call.handle, KvServer.handleUpdate]
    generalize (if req.isReplication then upsert s.table key req.body
      else update s.table key req.body) = r
    cases r.1.isEmpty && !req.isReplication <;> rfl
  | delete key =>
    rw [Function.iterate_succ_apply]
    simp only [CallPhase.step, Call.handle, KvServer.handleDelete]
    split_ifs <;> rfl
  | sync req key => rfl
  | allKeys => rfl

/-- What a step can do: look something up, commit a write, insert a new key, or change the cache. -/
inductive CallPhase.StepSpec (s : KvServer) : CallPhase → CallPhase → KvServer → Prop where
  | same {phase next} :
    (∀ key res, phase ≠ .invalidating key res) →
    StepSpec s phase next s
  | touched {key next} :
    StepSpec s (.begun (.read key)) next { s with cache := (s.cache.readKey key).2 }
  | written {call key res table} :
    (∀ k ≠ key, table.find k = s.table.find k) →
    StepSpec s (.begun call) (.invalidating key res) { s with table := table }
  | inserted {call key value next} :
    s.table.find key = none →
    StepSpec s (.begun call) next { s with table := s.table.insert key value }
  | filled {key value res} :
    StepSpec s (.filling key value res) (.answered res)
      { s with cache := (s.cache.createKey key value).2 }
  | invalidated {key res} :
    StepSpec s (.invalidating key res) (.answered res)
      { s with cache := (s.cache.deleteKey key).2 }

/-- Every step is one of these. -/
lemma CallPhase.step_spec (s : KvServer) (phase : CallPhase) :
    CallPhase.StepSpec s phase (phase.step s).1 (phase.step s).2 := by
  cases phase with
  | begun call =>
    cases call with
    | create req =>
      simp only [CallPhase.step]
      split_ifs with hf
      · exact .same nofun
      · exact .inserted (not_not.1 hf)
    | read key =>
      simp only [CallPhase.step]
      split_ifs <;> exact .touched
    | update req key =>
      have hwritten : ∀ k ≠ key, (if req.isReplication then upsert s.table key req.body
          else update s.table key req.body).2.find k = s.table.find k :=
        fun k hk => find_upsert_update s.table hk req.body req.isReplication
      simp only [CallPhase.step]
      generalize (if req.isReplication then upsert s.table key req.body
        else update s.table key req.body) = r at hwritten ⊢
      cases r.1.isEmpty && !req.isReplication with
      | true => exact .same nofun
      | false => exact .written hwritten
    | delete key =>
      simp only [CallPhase.step]
      split_ifs
      · exact .same nofun
      · exact .written fun k hk => OrdMap.find_erase_ne _ (Ne.symm hk)
    | sync req key => exact .written fun k hk => OrdMap.find_insert_ne _ (Ne.symm hk) _
    | allKeys => exact .same nofun
  | missed key =>
    simp only [CallPhase.step]
    cases s.table.find key <;> exact .same nofun
  | filling key value res => exact .filled
  | invalidating key res => exact .invalidated
  | answered res => exact .same nofun

/-- The server, and the call that each thread is at. -/
structure Threads (ι : Type*) where
  server : KvServer
  calls : ι → Option CallPhase

/-- A thread takes a call or goes on with it. -/
inductive ThreadAction (ι : Type*) where
  | begin (i : ι) (call : Call)
  | step (i : ι)

/-- What is left of a call. -/
def CallPhase.left : CallPhase → Option CallPhase
  | .answered _ => none
  | phase => some phase

variable {ι : Type*} [DecidableEq ι]

/-- One step of a thread. -/
def Threads.step (s : Threads ι) : ThreadAction ι → Option (Threads ι)
  | .begin i call =>
    match s.calls i with
    | none => some { s with calls := Function.update s.calls i (some (.begun call)) }
    | some _ => none
  | .step i =>
    match s.calls i with
    | none => none
    | some phase =>
      let next := phase.step s.server
      some ⟨next.2, Function.update s.calls i next.1.left⟩

/-- No thread has a call. -/
def Threads.start (server : KvServer) : Threads ι := ⟨server, fun _ => none⟩

/-- No handler is in progress. -/
def Threads.Quiet (s : Threads ι) : Prop := ∀ i, s.calls i = none

/-- A call is about to drop the key from the cache. -/
def Threads.Invalidates (s : Threads ι) (key : Str) : Prop :=
  ∃ i res, s.calls i = some (.invalidating key res)

/-- The steps that do no harm: what is put into the cache is the table's value, or the cache has the
    key already and refuses it, or a call is about to drop the key again. -/
def FillsCurrent (s : Threads ι) : ThreadAction ι → Prop
  | .step i => ∀ key value res, s.calls i = some (.filling key value res) →
      s.server.table.find key = some value ∨ s.server.cache.cacheMap.find key ≠ none
        ∨ s.Invalidates key
  | _ => True

/-- What holds between the steps: an entry of the cache is the table's or about to be dropped. -/
structure Threads.Inv (s : Threads ι) : Prop where
  valid : s.server.cache.Valid
  current : ∀ n ∈ s.server.cache.cacheList,
    s.server.table.find n.key = some n.value ∨ s.Invalidates n.key

variable {s s' : Threads ι} {a : ThreadAction ι}

/-- The steps of the threads: a call begins, or one goes on. -/
lemma Threads.step_cases (h : s.step a = some s') :
    (∃ i call, a = .begin i call ∧ s.calls i = none
        ∧ s' = { s with calls := Function.update s.calls i (some (.begun call)) })
      ∨ ∃ i phase next server, a = .step i ∧ s.calls i = some phase
        ∧ CallPhase.StepSpec s.server phase next server
        ∧ s' = ⟨server, Function.update s.calls i next.left⟩ := by
  cases a with
  | begin i call =>
    simp only [Threads.step] at h
    cases hi : s.calls i with
    | none =>
      rw [hi] at h
      exact .inl ⟨i, call, rfl, hi, (Option.some.inj h).symm⟩
    | some phase =>
      rw [hi] at h
      cases h
  | step i =>
    simp only [Threads.step] at h
    cases hi : s.calls i with
    | none =>
      rw [hi] at h
      cases h
    | some phase =>
      rw [hi] at h
      exact .inr ⟨i, phase, _, _, rfl, hi, phase.step_spec s.server, (Option.some.inj h).symm⟩

/-- A call that is not the one that goes on is still about to drop its key. -/
lemma Threads.Invalidates.of_ne {key : Str} (h : s.Invalidates key) {i : ι} {phase : CallPhase}
    (hi : s.calls i = some phase) (hne : ∀ res, phase ≠ .invalidating key res) (server : KvServer)
    (next : Option CallPhase) :
    Threads.Invalidates ⟨server, Function.update s.calls i next⟩ key := by
  obtain ⟨j, res, hj⟩ := h
  refine ⟨j, res, ?_⟩
  have hji : j ≠ i := by
    rintro rfl
    rw [hi] at hj
    exact hne res (Option.some.inj hj)
  exact (Function.update_of_ne hji ..).trans hj

/-- Every step that does no harm keeps the invariant. -/
lemma Threads.Inv.step (hinv : s.Inv) (hok : FillsCurrent s a) (h : s.step a = some s') : s'.Inv := by
  rcases step_cases h with ⟨i, call, rfl, hi, rfl⟩ | ⟨i, phase, next, server, rfl, hi, hspec, rfl⟩
  · refine ⟨hinv.valid, fun n hn => (hinv.current n hn).imp_right ?_⟩
    rintro ⟨j, res, hj⟩
    have hji : j ≠ i := by
      rintro rfl
      rw [hi] at hj
      cases hj
    exact ⟨j, res, (Function.update_of_ne hji ..).trans hj⟩
  · cases hspec with
    | same hne =>
      exact ⟨hinv.valid, fun n hn =>
        (hinv.current n hn).imp_right fun hd => hd.of_ne hi (hne n.key) _ _⟩
    | touched =>
      refine ⟨hinv.valid.readKey _, fun n hn => ?_⟩
      exact (hinv.current n (hinv.valid.mem_readKey.1 hn)).imp_right fun hd => hd.of_ne hi nofun _ _
    | @written call key res table hother =>
      refine ⟨hinv.valid, fun n hn => ?_⟩
      by_cases hk : n.key = key
      · -- the call that has written the key is about to drop it
        exact .inr ⟨i, res, by rw [hk]; exact Function.update_self ..⟩
      · rw [hother n.key hk]
        exact (hinv.current n hn).imp_right fun hd => hd.of_ne hi nofun _ _
    | @inserted call key value next hnone =>
      refine ⟨hinv.valid, fun n hn => ?_⟩
      by_cases hk : n.key = key
      · rcases hinv.current n hn with hc | hd
        · rw [hk, hnone] at hc
          cases hc
        · exact .inr (hd.of_ne hi nofun _ _)
      · rw [OrdMap.find_insert_ne _ (Ne.symm hk)]
        exact (hinv.current n hn).imp_right fun hd => hd.of_ne hi nofun _ _
    | @filled key value res =>
      have hkeep {k : Str} (hd : s.Invalidates k) := hd.of_ne hi nofun
        { s.server with cache := (s.server.cache.createKey key value).2 } none
      refine ⟨hinv.valid.createKey key value, fun n hn => ?_⟩
      rcases hok key value res hi with hc | hc | hd
      · rcases LRUCache.mem_createKey hn with ⟨rfl, rfl⟩ | hn
        · exact .inl hc
        · exact (hinv.current n hn).imp_right hkeep
      · -- the cache refuses the key
        have hsame : (s.server.cache.createKey key value).2 = s.server.cache := by
          obtain ⟨id, hid⟩ := Option.ne_none_iff_exists'.1 hc
          rw [LRUCache.createKey, hid]
        simp only [hsame] at hn
        exact (hinv.current n hn).imp_right hkeep
      · rcases LRUCache.mem_createKey hn with ⟨rfl, -⟩ | hn
        · exact .inr (hkeep hd)
        · exact (hinv.current n hn).imp_right hkeep
    | @invalidated key res =>
      refine ⟨hinv.valid.deleteKey key, fun n hn => ?_⟩
      obtain ⟨hn, hk⟩ := hinv.valid.mem_deleteKey.1 hn
      refine (hinv.current n hn).imp_right fun hd => hd.of_ne hi ?_ _ _
      intro res he
      cases he
      exact hk rfl

/-- In every run whose steps do no harm, every entry of the cache is the table's whenever no handler
    is in progress, so that a read that runs alone answers from the table. -/
theorem cache_current {server : KvServer} (hcoh : server.Coherent) {ls : List (ThreadAction ι)}
    (hrun : Run Threads.step FillsCurrent (.start server) ls s) (hquiet : s.Quiet) :
    (∀ n ∈ s.server.cache.cacheList, s.server.table.find n.key = some n.value)
      ∧ ∀ key, (s.server.handleRead key none).1 = readAnswer (s.server.table.find key) := by
  have hinv : s.Inv := hrun.invariant (fun hinv hok h => hinv.step hok h)
    ⟨hcoh.valid, fun n hn => .inl (hcoh.current n hn)⟩
  have hcurrent : ∀ n ∈ s.server.cache.cacheList, s.server.table.find n.key = some n.value := by
    intro n hn
    rcases hinv.current n hn with hc | ⟨i, res, hi⟩
    · exact hc
    · rw [hquiet i] at hi
      cases hi
  exact ⟨hcurrent, fun key => (handleRead_eq ⟨hinv.valid, hcurrent⟩ key).1⟩

/-- A server that has `x` for the key `a`, and nothing in its cache. -/
def serverAX : KvServer := ⟨OrdMap.empty.insert ['a'] ['x'], .new 10⟩

/-- Its cache is current. -/
lemma coherent_serverAX : serverAX.Coherent := ⟨LRUCache.valid_new 10, nofun⟩

/-- The balancer's request to put the key `a` to `y`. -/
def putAY : Request :=
  { method := "PUT".toList
    path := keyPath ['a']
    headers := [("X-Internal-Replication".toList, "true".toList)]
    body := ['y'] }

/-- A read fills the cache with what it has queried while a write of the key has been committed and
    has still to drop the entry. -/
def readDuringPut : List (ThreadAction Bool) :=
  [.begin false (.read ['a']), .step false, .step false, .begin true (.update putAY ['a']),
    .step true, .step false, .step true]

/-- The state this run ends in. -/
def afterReadDuringPut : Threads Bool :=
  (exec Threads.step (.start serverAX) readDuringPut).getD (.start serverAX)

/-- The whole write comes between the query of the read and its update of the cache. -/
def putDuringRead : List (ThreadAction Bool) :=
  [.begin false (.read ['a']), .step false, .step false, .begin true (.update putAY ['a']),
    .step true, .step true, .step false]

/-- After a read whose stale entry is dropped by the write that it overlaps with, the value that is
    put is read. -/
theorem cache_current_readDuringPut :
    Run Threads.step FillsCurrent (.start serverAX) readDuringPut afterReadDuringPut
      ∧ (afterReadDuringPut.server.handleRead ['a'] none).1 = closing.reply 200 ['y'] := by
  have hrun : Run Threads.step FillsCurrent (.start serverAX) readDuringPut afterReadDuringPut := by
    refine .cons trivial rfl (.cons nofun rfl (.cons nofun rfl (.cons trivial rfl
      (.cons nofun rfl (.cons ?_ rfl (.cons nofun rfl .nil))))))
    -- the table has another value by now, but the write will drop the entry
    rintro key value res ⟨⟩
    exact .inr (.inr ⟨true, _, rfl⟩)
  have hquiet : afterReadDuringPut.Quiet := by
    rintro (_ | _) <;> rfl
  exact ⟨hrun, (cache_current coherent_serverAX hrun hquiet).2 ['a']⟩

/-- A stale entry can be left when all calls have been answered, and then it is read. -/
theorem cache_stale :
    ∃ s : Threads Bool, Run Threads.step anyStep (.start serverAX) putDuringRead s ∧ s.Quiet
      ∧ s.server.table.find ['a'] = some ['y']
      ∧ (∃ n ∈ s.server.cache.cacheList, s.server.table.find n.key ≠ some n.value)
      ∧ (s.server.handleRead ['a'] none).1 = closing.reply 200 ['x'] := by
  refine ⟨_, .of_exec rfl, ?_, rfl, ⟨_, List.mem_cons_self, ?_⟩, rfl⟩
  · rintro (_ | _) <;> rfl
  · decide

end KvStore.Server
