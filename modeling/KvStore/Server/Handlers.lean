import KvStore.Http.Response
import KvStore.Http.Target
import KvStore.Server.Cache

/-!
# The key-value server

The handlers of `kvserver.cpp` on a server's table and cache, and the routes of `main`. The table
`kv_data` is a finite map, and any database call may fail: `DbFault` is what the library throws,
with a failed commit of unknown outcome. The audit log and the console output are left out.

`KvServer.Coherent` says that every cache entry is the table's. Without faults a request leads to
one handler or to an answer that changes nothing (`dispatch_spec`), all of them keep the cache
coherent (`coherent_dispatch`), and then a read answers from the table (`handleRead_eq`). A
client's write changes the entry of its key and no other (`find_apply`).
-/

namespace KvStore.Server
open KvStore.Lib

/-- `httplib::Request`, as far as the handlers look at it. -/
structure Request where
  method : Str
  path : Str
  headers : List (Str × Str) := []
  body : Str := []
deriving DecidableEq, Repr

/-- `httplib::Response`. -/
structure Response where
  status : ℤ := -1
  headers : List (Str × Str) := []
  body : Str := []
deriving DecidableEq, Repr

/-- `has_header`: header names do not distinguish upper and lower case. -/
def Request.hasHeader (req : Request) (name : Str) : Bool :=
  req.headers.any fun h => Http.toLower h.1 = Http.toLower name

/-- The request comes from the balancer's write path. -/
def Request.isReplication (req : Request) : Bool := req.hasHeader "X-Internal-Replication".toList

/-- `set_header`. -/
def Response.setHeader (res : Response) (name value : Str) : Response :=
  { res with headers := res.headers ++ [(name, value)] }

/-- `set_content`, and the status that goes with it. -/
def Response.reply (res : Response) (status : ℤ) (body : Str) : Response :=
  { status := status
    headers := res.headers.filter (fun h => h.1 ≠ "Content-Type".toList)
      ++ [("Content-Type".toList, "text/plain".toList)]
    body := body }

/-- What every handler does first. -/
def closing : Response := Response.setHeader {} "Connection".toList "close".toList

/-- A database call that fails: the connection or the statement throws, or the commit does, whether
    or not it took effect. -/
inductive DbFault where
  | statement (what : Str)
  | commit (what : Str) (applied : Bool)
deriving DecidableEq, Repr

/-- A server: its table and its cache. -/
structure KvServer where
  table : OrdMap Str Str
  cache : LRUCache

/-- The answer to a database error. -/
def databaseError (what : Str) : Response := closing.reply 500 ("Error: ".toList ++ what)

/-- The table after a commit that throws. -/
def KvServer.afterFailedCommit (s : KvServer) (applied : Bool) (table : OrdMap Str Str) : KvServer :=
  if applied then { s with table := table } else s

/-- `INSERT ... ON CONFLICT (key) DO UPDATE ... RETURNING key`: the rows and the table. -/
def upsert (table : OrdMap Str Str) (key value : Str) : List Str × OrdMap Str Str :=
  ([key], table.insert key value)

/-- `UPDATE ... WHERE key = ... RETURNING key`: the rows and the table. -/
def update (table : OrdMap Str Str) (key value : Str) : List Str × OrdMap Str Str :=
  if table.find key = none then ([], table) else ([key], table.insert key value)

/-- `handle_create`. -/
def KvServer.handleCreate (s : KvServer) (req : Request) (fault : Option DbFault) :
    Response × KvServer :=
  let key := req.body.takeWhile (· ≠ ' ')
  let value := ((req.body.dropWhile (· ≠ ' ')).drop 1).takeWhile (· ≠ '\n')
  match fault with
  | some (.statement what) => (databaseError what, s)
  | fault =>
    -- the insert throws `unique_violation`
    if s.table.find key ≠ none then (closing.reply 409 "Error: Key already exists".toList, s)
    else
      match fault with
      | some (.commit what applied) =>
        (databaseError what, s.afterFailedCommit applied (s.table.insert key value))
      | _ =>
        (closing.reply 201 "Created Successfully".toList,
          { s with table := s.table.insert key value, cache := (s.cache.createKey key value).2 })

/-- `handle_delete`. -/
def KvServer.handleDelete (s : KvServer) (key : Str) (fault : Option DbFault) :
    Response × KvServer :=
  match fault with
  | some (.statement what) => (databaseError what, s)
  | fault =>
    if s.table.find key = none then (closing.reply 404 "Key Not Found\n".toList, s)
    else
      match fault with
      | some (.commit what applied) =>
        (databaseError what, s.afterFailedCommit applied (s.table.erase key))
      | _ =>
        (closing.reply 200 "Deleted Successfully\n".toList,
          { s with table := s.table.erase key, cache := (s.cache.deleteKey key).2 })

/-- `handle_read`. The columns are text, so `c_str` returns the whole value. -/
def KvServer.handleRead (s : KvServer) (key : Str) (fault : Option DbFault) : Response × KvServer :=
  let cacheValue := (s.cache.readKey key).1
  let s := { s with cache := (s.cache.readKey key).2 }
  if cacheValue ≠ [] then (closing.reply 200 cacheValue, s)
  else
    match fault with
    | some (.statement what) => (databaseError what, s)
    | _ =>
      match s.table.find key with
      | none => (closing.reply 404 "Key not Found\n".toList, s)
      | some dbValue =>
        (closing.reply 200 dbValue, { s with cache := (s.cache.createKey key dbValue).2 })

/-- `handle_update`. -/
def KvServer.handleUpdate (s : KvServer) (req : Request) (key : Str) (fault : Option DbFault) :
    Response × KvServer :=
  match fault with
  | some (.statement what) => (databaseError what, s)
  | fault =>
    let r :=
      if req.isReplication then upsert s.table key req.body else update s.table key req.body
    if r.1.isEmpty && !req.isReplication then
      (closing.reply 404 "Key not found in DB\n".toList, s)
    else
      match fault with
      | some (.commit what applied) => (databaseError what, s.afterFailedCommit applied r.2)
      | _ =>
        (closing.reply 200 "Updated Successfully\n".toList,
          { s with table := r.2, cache := (s.cache.deleteKey key).2 })

/-- The body of a key list with these rows. -/
def keyList (rows : List Str) : Str := rows.flatMap fun key => key ++ "\n".toList

/-- `handle_all_keys`. The statement asks for no order; here the rows come in that of the keys. -/
def KvServer.handleAllKeys (s : KvServer) (fault : Option DbFault) : Response × KvServer :=
  match fault with
  | some (.statement what) => (databaseError what, s)
  | _ => (closing.reply 200 (keyList s.table.keys), s)

/-- `handle_sync`. -/
def KvServer.handleSync (s : KvServer) (req : Request) (key : Str) (fault : Option DbFault) :
    Response × KvServer :=
  let r := upsert s.table key req.body
  match fault with
  | some (.statement what) => (databaseError what, s)
  | some (.commit what applied) => (databaseError what, s.afterFailedCommit applied r.2)
  | none =>
    let s := { s with table := r.2, cache := (s.cache.deleteKey key).2 }
    if r.1.isEmpty then (closing.reply 200 "Ignored: Never version already present\n".toList, s)
    else (closing.reply 201 "Synced Successfully\n".toList, s)

/-- `\w` in the C locale. -/
def isWordChar (c : Char) : Bool := c.isAlphanum || c = '_'

/-- `\w+`. -/
def isWord (s : Str) : Bool := !s.isEmpty && s.all isWordChar

/-- The match of `start(\w+)` on a whole path. -/
def wordAfter (start path : Str) : Option Str :=
  if start.isPrefixOf path ∧ isWord (path.drop start.length) then some (path.drop start.length)
  else none

/-- What the path of a key starts with. -/
def keyRoot : Str := "/kvstore/".toList

/-- What the path of the sync route starts with. -/
def syncRoot : Str := "/kvstore/sync/".toList

/-- The path of the key list. -/
def allKeysPath : Str := "/kvstore/allkeys".toList

/-- The path of the health route. -/
def healthPath : Str := "/health".toList

/-- The path that names a key. -/
def keyPath (key : Str) : Str := keyRoot ++ key

/-- The answer to a request that no route matches. -/
def notFound : Response := { status := 404 }

/-- The routes of `main`, in the order in which they are registered. -/
def KvServer.dispatch (s : KvServer) (req : Request) (fault : Option DbFault) :
    Response × KvServer :=
  if req.method = "POST".toList then
    if req.path = "/kvstore/create".toList then s.handleCreate req fault
    else
      match wordAfter syncRoot req.path with
      | some key => s.handleSync req key fault
      | none => (notFound, s)
  else if req.method = "PUT".toList then
    match wordAfter keyRoot req.path with
    | some key => s.handleUpdate req key fault
    | none => (notFound, s)
  else if req.method = "DELETE".toList then
    match wordAfter keyRoot req.path with
    | some key => s.handleDelete key fault
    | none => (notFound, s)
  else if req.method = "GET".toList ∨ req.method = "HEAD".toList then
    if req.path = allKeysPath then s.handleAllKeys fault
    else
      match wordAfter keyRoot req.path with
      | some key => s.handleRead key fault
      | none =>
        if req.path = healthPath then (Response.reply {} 200 "OK".toList, s)
        else (notFound, s)
  else (notFound, s)

/-- Every cache entry is the table's. -/
structure KvServer.Coherent (s : KvServer) : Prop where
  valid : s.cache.Valid
  current : ∀ n ∈ s.cache.cacheList, s.table.find n.key = some n.value

/-- An empty server. -/
def KvServer.new (capacity : ℕ) : KvServer := ⟨.empty, .new capacity⟩

/-- A new server has an empty cache. -/
lemma coherent_new (capacity : ℕ) : (KvServer.new capacity).Coherent :=
  ⟨LRUCache.valid_new capacity, nofun⟩

section
variable {s : KvServer}

/-- A key whose entry is dropped from the cache may be changed in the table. -/
lemma KvServer.Coherent.write (h : s.Coherent) {key : Str} {table : OrdMap Str Str}
    (ht : ∀ k ≠ key, table.find k = s.table.find k) :
    KvServer.Coherent ⟨table, (s.cache.deleteKey key).2⟩ := by
  refine ⟨h.valid.deleteKey key, fun n hn => ?_⟩
  obtain ⟨hn, hne⟩ := h.valid.mem_deleteKey.1 hn
  exact (ht n.key hne).trans (h.current n hn)

/-- An entry of the table may be added to the cache. -/
lemma KvServer.Coherent.fill (h : s.Coherent) {key value : Str}
    (ht : s.table.find key = some value) :
    KvServer.Coherent { s with cache := (s.cache.createKey key value).2 } := by
  refine ⟨h.valid.createKey key value, fun n hn => ?_⟩
  rcases LRUCache.mem_createKey hn with ⟨rfl, rfl⟩ | hn
  · exact ht
  · exact h.current n hn

/-- Reading the cache keeps it current. -/
lemma KvServer.Coherent.touch (h : s.Coherent) (key : Str) :
    KvServer.Coherent { s with cache := (s.cache.readKey key).2 } :=
  ⟨h.valid.readKey key, fun n hn => h.current n (h.valid.mem_readKey.1 hn)⟩

/-- The answer of a read: what the table has, or 404. -/
def readAnswer : Option Str → Response
  | some value => closing.reply 200 value
  | none => closing.reply 404 "Key not Found\n".toList

/-- On a coherent server a read answers from the table and leaves it as it is. -/
lemma handleRead_eq (h : s.Coherent) (key : Str) :
    (s.handleRead key none).1 = readAnswer (s.table.find key)
      ∧ (s.handleRead key none).2.table = s.table ∧ (s.handleRead key none).2.Coherent := by
  unfold KvServer.handleRead
  by_cases hc : (s.cache.readKey key).1 = []
  · rw [if_neg (not_not.2 hc)]
    cases hf : s.table.find key with
    | none => exact ⟨by simp [readAnswer], by simp, by simpa using h.touch key⟩
    | some value => exact ⟨rfl, rfl, (h.touch key).fill hf⟩
  · rw [if_pos hc]
    obtain ⟨n, hn, rfl, hv⟩ := h.valid.readKey_fst hc
    have hf := h.current n hn
    exact ⟨by rw [hf, hv]; rfl, rfl, h.touch _⟩

/-- The rows are listed, and nothing changes. -/
lemma handleAllKeys_eq (s : KvServer) : s.handleAllKeys none
    = (closing.reply 200 (keyList s.table.keys), s) := rfl

/-- An update finds no row only if there is none and it is not a replicated one, and stores the value
    otherwise. -/
lemma handleUpdate_spec (s : KvServer) (req : Request) (key : Str) (fault : Option DbFault) :
    s.handleUpdate req key fault =
      match fault with
      | some (.statement what) => (databaseError what, s)
      | fault =>
        if req.isReplication = false ∧ s.table.find key = none then
          (closing.reply 404 "Key not found in DB\n".toList, s)
        else
          match fault with
          | some (.commit what applied) =>
            (databaseError what, s.afterFailedCommit applied (s.table.insert key req.body))
          | _ =>
            (closing.reply 200 "Updated Successfully\n".toList,
              ⟨s.table.insert key req.body, (s.cache.deleteKey key).2⟩) := by
  unfold KvServer.handleUpdate update
  cases req.isReplication with
  | true => rcases fault with _ | what | ⟨what, applied⟩ <;> rfl
  | false =>
    by_cases hf : s.table.find key = none
    · have hc : false = false ∧ s.table.find key = none := ⟨rfl, hf⟩
      rcases fault with _ | what | ⟨what, applied⟩
      · dsimp only
        rw [if_pos hf, if_pos hc]
        rfl
      · rfl
      · dsimp only
        rw [if_pos hf, if_pos hc]
        rfl
    · have hc : ¬ (false = false ∧ s.table.find key = none) := fun hc => hf hc.2
      rcases fault with _ | what | ⟨what, applied⟩
      · dsimp only
        rw [if_neg hf, if_neg hc]
        rfl
      · rfl
      · dsimp only
        rw [if_neg hf, if_neg hc]
        rfl

/-- A replicated update stores the value. -/
lemma handleUpdate_eq (s : KvServer) {req : Request} (hr : req.isReplication = true) (key : Str) :
    s.handleUpdate req key none
      = (closing.reply 200 "Updated Successfully\n".toList,
          ⟨s.table.insert key req.body, (s.cache.deleteKey key).2⟩) := by
  have hc : ¬ (req.isReplication = false ∧ s.table.find key = none) := by
    simp [hr]
  rw [handleUpdate_spec]
  exact if_neg hc

/-- A sync stores the value. -/
lemma handleSync_eq (s : KvServer) (req : Request) (key : Str) :
    s.handleSync req key none
      = (closing.reply 201 "Synced Successfully\n".toList,
          ⟨s.table.insert key req.body, (s.cache.deleteKey key).2⟩) := rfl

/-- The statement of an update changes at most the row of its key. -/
lemma find_upsert_update (table : OrdMap Str Str) {key k : Str} (hk : k ≠ key) (value : Str)
    (replicated : Bool) :
    (if replicated then upsert table key value else update table key value).2.find k
      = table.find k := by
  unfold upsert update
  split_ifs
  · exact OrdMap.find_insert_ne _ (Ne.symm hk) _
  · rfl
  · exact OrdMap.find_insert_ne _ (Ne.symm hk) _

/-- A delete removes its key and no other. -/
lemma find_handleDelete (s : KvServer) (key k : Str) :
    (s.handleDelete key none).2.table.find k = if key = k then none else s.table.find k := by
  unfold KvServer.handleDelete
  simp only
  split
  · rename_i hf
    split
    · rename_i he
      rw [← he, hf]
    · rfl
  · exact OrdMap.find_erase s.table key k

/-- An update keeps the cache current, -/
lemma KvServer.Coherent.handleUpdate (h : s.Coherent) (req : Request) (key : Str) :
    (s.handleUpdate req key none).2.Coherent := by
  rw [handleUpdate_spec]
  dsimp only
  split_ifs
  · exact h
  · exact h.write fun k hk => OrdMap.find_insert_ne _ (Ne.symm hk) _

/-- and so do a delete, -/
lemma KvServer.Coherent.handleDelete (h : s.Coherent) (key : Str) :
    (s.handleDelete key none).2.Coherent := by
  unfold KvServer.handleDelete
  simp only
  split
  · exact h
  · exact h.write fun k hk => OrdMap.find_erase_ne _ (Ne.symm hk)

/-- and a create. -/
lemma KvServer.Coherent.handleCreate (h : s.Coherent) (req : Request) :
    (s.handleCreate req none).2.Coherent := by
  unfold KvServer.handleCreate
  simp only
  split
  · exact h
  · rename_i hf
    refine KvServer.Coherent.fill (s := ⟨s.table.insert _ _, s.cache⟩) ⟨h.valid, fun n hn => ?_⟩
      (OrdMap.find_insert_self _ _ _)
    have hcur := h.current n hn
    refine (OrdMap.find_insert_ne _ ?_ _).trans hcur
    intro he
    exact hf (by rw [he, hcur]; nofun)

/-- What the routes lead to: a handler, or an answer that leaves the server as it is. -/
inductive Dispatched (s : KvServer) (req : Request) : Response × KvServer → Prop where
  | create :
    req.method = "POST".toList →
    Dispatched s req (s.handleCreate req none)
  | sync key :
    req.method = "POST".toList →
    Dispatched s req (s.handleSync req key none)
  | update key :
    req.method = "PUT".toList →
    Dispatched s req (s.handleUpdate req key none)
  | delete key :
    req.method = "DELETE".toList →
    Dispatched s req (s.handleDelete key none)
  | read key :
    req.method = "GET".toList ∨ req.method = "HEAD".toList →
    Dispatched s req (s.handleRead key none)
  | quiet res :
    Dispatched s req (res, s)

/-- Every request leads to one of these. -/
lemma dispatch_spec (s : KvServer) (req : Request) : Dispatched s req (s.dispatch req none) := by
  unfold KvServer.dispatch
  by_cases hpost : req.method = "POST".toList
  · rw [if_pos hpost]
    split
    · exact .create hpost
    · split
      · exact .sync _ hpost
      · exact .quiet _
  rw [if_neg hpost]
  by_cases hput : req.method = "PUT".toList
  · rw [if_pos hput]
    split
    · exact .update _ hput
    · exact .quiet _
  rw [if_neg hput]
  by_cases hdelete : req.method = "DELETE".toList
  · rw [if_pos hdelete]
    split
    · exact .delete _ hdelete
    · exact .quiet _
  rw [if_neg hdelete]
  by_cases hget : req.method = "GET".toList ∨ req.method = "HEAD".toList
  · rw [if_pos hget]
    split
    · exact .quiet _
    · split
      · exact .read _ hget
      · split
        · exact .quiet _
        · exact .quiet _
  · rw [if_neg hget]
    exact .quiet _

/-- Without database faults no request makes the cache differ from the table. -/
theorem coherent_dispatch (h : s.Coherent) (req : Request) : (s.dispatch req none).2.Coherent := by
  have hspec := dispatch_spec s req
  generalize s.dispatch req none = result at hspec
  cases hspec with
  | create => exact h.handleCreate req
  | sync key => exact h.write fun k hk => OrdMap.find_insert_ne _ (Ne.symm hk) _
  | update key => exact h.handleUpdate req key
  | delete key => exact h.handleDelete key
  | read key => exact (handleRead_eq h key).2.2
  | quiet res => exact h

end

/-- A read does not change the table. -/
lemma table_handleRead (s : KvServer) (key : Str) : (s.handleRead key none).2.table = s.table := by
  unfold KvServer.handleRead
  dsimp only
  split_ifs
  · rfl
  · cases s.table.find key <;> rfl

section
variable {s : KvServer} {req : Request} {key value : Str}

/-- A value after an insertion was there before, or it is the inserted one. -/
lemma find_insert_le {k v : Str} (hv : v.length ≤ req.body.length)
    (h : (s.table.insert k v).find key = some value) :
    s.table.find key = some value ∨ value.length ≤ req.body.length := by
  rw [OrdMap.find_insert] at h
  split_ifs at h
  · exact .inr (Option.some.inj h ▸ hv)
  · exact .inl h

/-- A value that a create stores is no longer than the body, -/
lemma find_handleCreate_le (h : (s.handleCreate req none).2.table.find key = some value) :
    s.table.find key = some value ∨ value.length ≤ req.body.length := by
  unfold KvServer.handleCreate at h
  dsimp only at h
  split_ifs at h
  · exact .inl h
  · refine find_insert_le ?_ h
    calc _ ≤ ((req.body.dropWhile (· ≠ ' ')).drop 1).length :=
          (List.takeWhile_sublist _).length_le
      _ ≤ req.body.length :=
          ((List.drop_sublist _ _).trans (List.dropWhile_sublist _)).length_le

/-- and neither is one that an update stores. -/
lemma find_handleUpdate_le {k : Str}
    (h : (s.handleUpdate req k none).2.table.find key = some value) :
    s.table.find key = some value ∨ value.length ≤ req.body.length := by
  rw [handleUpdate_spec] at h
  dsimp only at h
  split_ifs at h
  · exact .inl h
  · exact find_insert_le le_rfl h

/-- A value of the table was there before, or it is a part of the body. -/
lemma find_dispatch (s : KvServer) (req : Request) {key value : Str}
    (h : (s.dispatch req none).2.table.find key = some value) :
    s.table.find key = some value ∨ value.length ≤ req.body.length := by
  have hspec := dispatch_spec s req
  generalize s.dispatch req none = result at hspec h
  cases hspec with
  | create => exact find_handleCreate_le h
  | sync k => exact find_insert_le le_rfl h
  | update k => exact find_handleUpdate_le h
  | delete k =>
    rw [find_handleDelete] at h
    split_ifs at h
    exact .inl h
  | read k =>
    rw [table_handleRead] at h
    exact .inl h
  | quiet res => exact .inl h

end

/-- What follows the start is matched if it is a word. -/
lemma wordAfter_append (start rest : Str) :
    wordAfter start (start ++ rest) = if isWord rest then some rest else none := by
  have hstart : start.isPrefixOf (start ++ rest) = true :=
    List.isPrefixOf_iff_prefix.2 (List.prefix_append _ _)
  simp only [wordAfter, List.drop_left, hstart, true_and]

/-- The path of a key leads to it. -/
lemma wordAfter_keyPath {key : Str} (hk : isWord key = true) :
    wordAfter keyRoot (keyPath key) = some key := by
  rw [keyPath, wordAfter_append, if_pos hk]

/-- A word has none of the other characters, -/
lemma not_mem_of_isWord {key : Str} (hk : isWord key = true) {c : Char}
    (hc : isWordChar c = false) : c ∉ key := by
  intro hm
  have hall := List.all_eq_true.1 (Bool.and_eq_true_iff.1 hk).2 c hm
  rw [hc] at hall
  cases hall

/-- and is not empty. -/
lemma ne_nil_of_isWord {key : Str} (hk : isWord key = true) : key ≠ [] := by
  rintro rfl
  cases hk

/-- The balancer finds the key in the path, if the request is not taken for a create. -/
lemma getKey_eq {req : Http.HttpRequest} {key : Str} (hp : req.path = keyPath key)
    (hk : isWord key = true) (hc : key ≠ "create".toList ∨ req.body = []) : req.getKey = key := by
  have hno : ¬ (req.path = "/kvstore/create".toList ∧ req.body ≠ []) := by
    rintro ⟨he, hb⟩
    rw [hp] at he
    rcases hc with hc | hc
    · exact hc (List.append_right_injective keyRoot he)
    · exact hb hc
  have hlast : afterLast '/' req.path = key := by
    rw [hp]
    exact afterLast_append_cons (not_mem_of_isWord hk rfl) "/kvstore".toList
  have hslash : '/' ∈ req.path := by
    rw [hp]
    exact List.mem_append_left _ List.mem_cons_self
  unfold Http.HttpRequest.getKey
  rw [if_neg hno, hlast, if_pos ⟨hslash, ne_nil_of_isWord hk⟩]

/-- The balancer takes the key of a create from the body. -/
lemma getKey_create {req : Http.HttpRequest} (hp : req.path = keyPath "create".toList)
    (hb : req.body ≠ []) : req.getKey = req.body.takeWhile (· ≠ ' ') := by
  unfold Http.HttpRequest.getKey
  rw [if_pos ⟨hp, hb⟩]
  exact take_find ' ' req.body

/-- Word characters are ASCII. -/
lemma toNat_lt_of_isWordChar {c : Char} (h : isWordChar c = true) : c.toNat < 0x80 := by
  delta isWordChar Char.isAlphanum Char.isAlpha Char.isUpper Char.isLower Char.isDigit at h
  simp only [Bool.or_eq_true, Bool.and_eq_true, decide_eq_true_eq, UInt32.le_iff_toNat_le] at h
  rcases h with (((⟨-, h⟩ | ⟨-, h⟩) | ⟨-, h⟩) | rfl)
  · exact lt_of_le_of_lt h (by decide)
  · exact lt_of_le_of_lt h (by decide)
  · exact lt_of_le_of_lt h (by decide)
  · decide

/-- Word characters stand for themselves in a target. -/
lemma isPlain_of_isWordChar {c : Char} (h : isWordChar c = true) : Http.isPlain c = true := by
  have hascii : ∀ n < 0x80, isWordChar (Char.ofNat n) = true →
      Http.isPlain (Char.ofNat n) = true := by decide
  have hc := hascii c.toNat (toNat_lt_of_isWordChar h)
  rw [Char.ofNat_toNat] at hc
  exact hc h

/-- So a word stands for itself. -/
lemma isPlain_of_isWord {key : Str} (hk : isWord key = true) :
    ∀ c ∈ key, Http.isPlain c = true :=
  fun c hc => isPlain_of_isWordChar (List.all_eq_true.1 (Bool.and_eq_true_iff.1 hk).2 c hc)

section
variable (s : KvServer) {req : Request}

/-- The routes of the methods, one after the other. -/
lemma dispatch_put (hm : req.method = "PUT".toList) : s.dispatch req none =
    match wordAfter keyRoot req.path with
    | some key => s.handleUpdate req key none
    | none => (notFound, s) := by
  unfold KvServer.dispatch
  rw [hm, if_neg (by decide), if_pos rfl]

/-- Those of a DELETE, -/
lemma dispatch_delete (hm : req.method = "DELETE".toList) : s.dispatch req none =
    match wordAfter keyRoot req.path with
    | some key => s.handleDelete key none
    | none => (notFound, s) := by
  unfold KvServer.dispatch
  rw [hm, if_neg (by decide), if_neg (by decide), if_pos rfl]

/-- a GET, -/
lemma dispatch_get (hm : req.method = "GET".toList) : s.dispatch req none =
    if req.path = allKeysPath then s.handleAllKeys none
    else
      match wordAfter keyRoot req.path with
      | some key => s.handleRead key none
      | none =>
        if req.path = healthPath then (Response.reply {} 200 "OK".toList, s)
        else (notFound, s) := by
  unfold KvServer.dispatch
  rw [hm, if_neg (by decide), if_neg (by decide), if_neg (by decide), if_pos (.inl rfl)]

/-- and a POST. -/
lemma dispatch_post (hm : req.method = "POST".toList) : s.dispatch req none =
    if req.path = "/kvstore/create".toList then s.handleCreate req none
    else
      match wordAfter syncRoot req.path with
      | some key => s.handleSync req key none
      | none => (notFound, s) := by
  unfold KvServer.dispatch
  rw [if_pos hm]

end

/-- A client's write as it reaches the servers: a PUT marked as a replicated one, or a DELETE. -/
inductive Write where
  | put (target value : Str)
  | delete (target : Str)
deriving DecidableEq, Repr

/-- The target of a write. -/
def Write.target : Write → Str
  | .put target _ => target
  | .delete target => target

/-- The key that a server finds in the target, if a route matches. -/
def Write.key (w : Write) : Option Str := wordAfter keyRoot (Http.requestPath w.target)

/-- The key of a write is a word. -/
lemma isWord_of_key {w : Write} {key : Str} (h : w.key = some key) : isWord key = true := by
  unfold Write.key wordAfter at h
  split_ifs at h with hw
  obtain rfl := Option.some.inj h
  exact hw.2

/-- What a write leaves under its key. -/
def Write.effect : Write → Option Str
  | .put _ value => some value
  | .delete _ => none

/-- The request a write arrives as. -/
def Write.request : Write → Request
  | .put target value =>
    { method := "PUT".toList
      path := Http.requestPath target
      headers := [("X-Internal-Replication".toList, "true".toList)]
      body := value }
  | .delete target => { method := "DELETE".toList, path := Http.requestPath target }

/-- A server after a write. -/
def KvServer.apply (s : KvServer) (w : Write) : KvServer := (s.dispatch w.request none).2

/-- A write changes the entry of its key and no other. -/
lemma find_apply (s : KvServer) (w : Write) (key : Str) :
    (s.apply w).table.find key = if w.key = some key then w.effect else s.table.find key := by
  cases w with
  | put target value =>
    have hr : (Write.put target value).request.isReplication = true :=
      List.any_eq_true.2 ⟨_, List.mem_cons_self, decide_eq_true rfl⟩
    rw [KvServer.apply, dispatch_put s rfl]
    cases hk : (Write.put target value).key with
    | none =>
      rw [show wordAfter keyRoot (Write.put target value).request.path = none from hk]
      simp
    | some k =>
      rw [show wordAfter keyRoot (Write.put target value).request.path = some k from hk]
      simp only [handleUpdate_eq s hr, OrdMap.find_insert, Option.some.injEq]
      rfl
  | delete target =>
    rw [KvServer.apply, dispatch_delete s rfl]
    cases hk : (Write.delete target).key with
    | none =>
      rw [show wordAfter keyRoot (Write.delete target).request.path = none from hk]
      simp
    | some k =>
      rw [show wordAfter keyRoot (Write.delete target).request.path = some k from hk]
      simp only [find_handleDelete, Option.some.injEq]
      rfl

/-- A write keeps the cache current. -/
lemma KvServer.Coherent.apply {s : KvServer} (h : s.Coherent) (w : Write) : (s.apply w).Coherent :=
  coherent_dispatch h w.request

end KvStore.Server
