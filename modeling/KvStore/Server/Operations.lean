import KvStore.Server.Fleet

/-!
# Operations on keys

What a client asks of a key, and what one map does with it: `KeyOp.answer` is what the client hears
and `KeyOp.after` what the map has for the key afterwards. A server that is asked (`Asks`) does the
same with its table (`dispatch_asks`).
-/

namespace KvStore.Server
open KvStore.Lib

/-- What a client asks of a key. -/
inductive KeyOp where
  | create (key value : Str)
  | get (key : Str)
  | put (key value : Str)
  | delete (key : Str)
deriving DecidableEq, Repr

namespace KeyOp

/-- The key. -/
def key : KeyOp → Str
  | .create key _ => key
  | .get key => key
  | .put key _ => key
  | .delete key => key

/-- The method of the request. -/
def method : KeyOp → Str
  | .create _ _ => "POST".toList
  | .get _ => "GET".toList
  | .put _ _ => "PUT".toList
  | .delete _ => "DELETE".toList

/-- The path of the request. -/
def path : KeyOp → Str
  | .create _ _ => keyPath "create".toList
  | .get key => keyPath key
  | .put key _ => keyPath key
  | .delete key => keyPath key

/-- The operation is a write. -/
def isWrite : KeyOp → Bool
  | .get _ => false
  | _ => true

/-- The value that is sent. -/
def value : KeyOp → Option Str
  | .create _ value => some value
  | .get _ => none
  | .put _ value => some value
  | .delete _ => none

/-- The body of the request, if it matters. -/
def body : KeyOp → Option Str
  | .create key value => some (key ++ ' ' :: value)
  | .get _ => none
  | .put _ value => some value
  | .delete _ => none

/-- What one map answers, status and body, depending on what it has for the key. -/
def answer : KeyOp → Option Str → ℤ × Str
  | .create _ _, none => (201, "Created Successfully".toList)
  | .create _ _, some _ => (409, "Error: Key already exists".toList)
  | .get _, none => (404, "Key not Found\n".toList)
  | .get _, some value => (200, value)
  | .put _ _, _ => (200, "Updated Successfully\n".toList)
  | .delete _, none => (404, "Key Not Found\n".toList)
  | .delete _, some _ => (200, "Deleted Successfully\n".toList)

/-- What one map has for the key afterwards. -/
def after : KeyOp → Option Str → Option Str
  | .create _ value, none => some value
  | .create _ _, some old => some old
  | .get _, entry => entry
  | .put _ value, _ => some value
  | .delete _, _ => none

/-- The key is a word that its path does not make anything else of, and the value is a line of text
    if it is created. -/
structure WellFormed (op : KeyOp) : Prop where
  word : isWord op.key = true
  ne_create : op.key ≠ "create".toList
  ne_allKeys : op.key ≠ "allkeys".toList
  no_nul : ∀ value, op.value = some value → '\x00' ∉ value
  no_newline : ∀ key value, op = .create key value → '\n' ∉ value

end KeyOp

/-- The request asks for the operation. A PUT comes from the balancer. -/
structure Asks (req : Request) (op : KeyOp) : Prop where
  method : req.method = op.method
  path : req.path = op.path
  body : ∀ body, op.body = some body → req.body = body
  replicated : op.method = "PUT".toList → req.isReplication = true

instance (req : Request) (op : KeyOp) : Decidable (Asks req op) :=
  decidable_of_iff (req.method = op.method ∧ req.path = op.path ∧ (∀ body ∈ op.body, req.body = body)
      ∧ (op.method = "PUT".toList → req.isReplication = true))
    ⟨fun ⟨hm, hp, hb, hr⟩ => ⟨hm, hp, hb, hr⟩, fun ⟨hm, hp, hb, hr⟩ => ⟨hm, hp, hb, hr⟩⟩

variable {s : KvServer} {req : Request} {key value : Str}

/-- The answer and the table afterwards are those of one map. -/
structure Does (op : KeyOp) (s : KvServer) (handled : Response × KvServer) : Prop where
  answer : handled.1 = closing.reply (op.answer (s.table.find op.key)).1
    (op.answer (s.table.find op.key)).2
  table : ∀ k, handled.2.table.find k
    = if k = op.key then op.after (s.table.find op.key) else s.table.find k

/-- What leaves the entry of a key as it is. -/
lemma find_eq_ite (table : OrdMap Str Str) (key k : Str) :
    table.find k = if k = key then table.find key else table.find k := by
  split_ifs with hk
  · rw [hk]
  · rfl

/-- The key of a create ends at the first space. -/
lemma takeWhile_key (hk : ' ' ∉ key) (value : Str) :
    (key ++ ' ' :: value).takeWhile (· ≠ ' ') = key := by
  rw [takeWhile_append_cons (by simp), List.takeWhile_eq_self_iff]
  intro c hc
  rw [decide_eq_true_iff]
  rintro rfl
  exact hk hc

/-- The value of a create is the rest of the line. -/
lemma dropWhile_key (hk : ' ' ∉ key) (value : Str) :
    (key ++ ' ' :: value).dropWhile (· ≠ ' ') = ' ' :: value := by
  rw [dropWhile_append_cons (by simp), List.dropWhile_eq_nil_iff.2 fun c hc => ?_, List.nil_append]
  rw [decide_eq_true_iff]
  rintro rfl
  exact hk hc

/-- A value without a line end is one line. -/
lemma takeWhile_line {value : Str} : value.takeWhile (· ≠ '\n') = value ↔ '\n' ∉ value := by
  rw [List.takeWhile_eq_self_iff]
  constructor
  · intro h hm
    exact absurd (h _ hm) (by simp)
  · intro h c hc
    rw [decide_eq_true_iff]
    rintro rfl
    exact h hc

/-- The key and the value in the body of a create. -/
lemma handleCreate_eq (hk : ' ' ∉ key) (hb : req.body = key ++ ' ' :: value) (s : KvServer) :
    s.handleCreate req none =
      if s.table.find key ≠ none then (closing.reply 409 "Error: Key already exists".toList, s)
      else
        (closing.reply 201 "Created Successfully".toList,
          { s with
            table := s.table.insert key (value.takeWhile (· ≠ '\n'))
            cache := (s.cache.createKey key (value.takeWhile (· ≠ '\n'))).2 }) := by
  have hkey : req.body.takeWhile (· ≠ ' ') = key := hb ▸ takeWhile_key hk value
  have hvalue : (req.body.dropWhile (· ≠ ' ')).drop 1 = value := by
    rw [hb, dropWhile_key hk value, List.drop_one, List.tail_cons]
  unfold KvServer.handleCreate
  rw [hkey, hvalue]

/-- A create does what one map does, -/
lemma does_create (hk : isWord key = true) (hv : '\n' ∉ value)
    (hb : req.body = key ++ ' ' :: value) (s : KvServer) :
    Does (.create key value) s (s.handleCreate req none) := by
  rw [handleCreate_eq (not_mem_of_isWord hk rfl) hb, takeWhile_line.2 hv]
  cases hf : s.table.find key with
  | none =>
    rw [if_neg (not_not.2 rfl)]
    refine ⟨by simp only [KeyOp.key, hf, KeyOp.answer], fun k => ?_⟩
    simp only [OrdMap.find_insert, eq_comm, KeyOp.key, hf, KeyOp.after]
  | some old =>
    rw [if_pos nofun]
    refine ⟨by simp only [KeyOp.key, hf, KeyOp.answer], fun k => ?_⟩
    have hsame : (KeyOp.create key value).after (s.table.find key) = s.table.find key := by
      rw [hf]
      rfl
    simp only [KeyOp.key, hsame]
    exact find_eq_ite s.table key k

/-- and so do a GET, -/
lemma does_get (hcoh : s.Coherent) (key : Str) : Does (.get key) s (s.handleRead key none) := by
  obtain ⟨hres, htable, -⟩ := handleRead_eq hcoh key
  refine ⟨hres.trans ?_, fun k => ?_⟩
  · simp only [KeyOp.key]
    cases s.table.find key <;> rfl
  · rw [htable]
    exact find_eq_ite s.table key k

/-- a PUT that is marked, -/
lemma does_put (hr : req.isReplication = true) (hb : req.body = value) (s : KvServer) (key : Str) :
    Does (.put key value) s (s.handleUpdate req key none) := by
  rw [handleUpdate_eq s hr, hb]
  refine ⟨rfl, fun k => ?_⟩
  simp only [OrdMap.find_insert, eq_comm, KeyOp.key, KeyOp.after]

/-- and a DELETE. -/
lemma does_delete (s : KvServer) (key : Str) : Does (.delete key) s (s.handleDelete key none) := by
  refine ⟨?_, fun k => ?_⟩
  · unfold KvServer.handleDelete
    simp only [KeyOp.key]
    cases s.table.find key <;> rfl
  · simp only [find_handleDelete, eq_comm, KeyOp.key, KeyOp.after]

/-- A server that is asked for an operation does what one map does. -/
theorem dispatch_asks (hcoh : s.Coherent) {op : KeyOp} (hop : op.WellFormed) (hreq : Asks req op) :
    Does op s (s.dispatch req none) := by
  obtain ⟨hword, -, hall, -, hline⟩ := hop
  cases op with
  | create key value =>
    rw [dispatch_post s hreq.method, hreq.path, if_pos (by rfl)]
    exact does_create hword (hline key value rfl) (hreq.body _ rfl) s
  | get key =>
    have hpath : req.path = keyPath key := hreq.path
    have hnot : req.path ≠ allKeysPath := fun he =>
      hall (List.append_right_injective keyRoot (hpath.symm.trans he))
    rw [dispatch_get s hreq.method, if_neg hnot, hpath, wordAfter_keyPath (by exact hword)]
    exact does_get hcoh key
  | put key value =>
    have hpath : req.path = keyPath key := hreq.path
    rw [dispatch_put s hreq.method, hpath, wordAfter_keyPath (by exact hword)]
    exact does_put (hreq.replicated rfl) (hreq.body _ rfl) s key
  | delete key =>
    have hpath : req.path = keyPath key := hreq.path
    rw [dispatch_delete s hreq.method, hpath, wordAfter_keyPath (by exact hword)]
    exact does_delete s key

end KvStore.Server
