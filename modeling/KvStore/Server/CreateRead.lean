import KvStore.Server.Operations

/-!
# Creating a key and reading it

The create route takes any key without a space and the rest of the line as its value. The read route
takes words only, comes after the key list, and returns what is stored. Whether a value that was
created is read is decided by the table alone: requests that write nothing leave it as it is
(`table_dispatch_quiet`), and the cache does not show.

* `create_read_iff`: for which keys and values a GET returns what was created.
* `create_cut`: a value of two lines, and a key that is not a word.
-/

namespace KvStore.Server
open KvStore.Lib

/-- The request creates the key. -/
structure IsCreate (req : Request) (key value : Str) : Prop where
  method : req.method = "POST".toList
  path : req.path = "/kvstore/create".toList
  body : req.body = key ++ ' ' :: value
  no_space : ' ' ∉ key
  no_nul : '\x00' ∉ value

/-- The request reads the key. -/
structure IsRead (req : Request) (key : Str) : Prop where
  method : req.method = "GET".toList
  path : req.path = keyPath key

/-- The request writes nothing. -/
structure IsQuiet (req : Request) : Prop where
  not_post : req.method ≠ "POST".toList
  not_put : req.method ≠ "PUT".toList
  not_delete : req.method ≠ "DELETE".toList

/-- A server after requests that are handled one after the other. -/
def KvServer.afterAll (s : KvServer) (reqs : List Request) : KvServer :=
  reqs.foldl (fun s req => (s.dispatch req none).2) s

/-- A server that is started with a table. -/
def KvServer.started (capacity : ℕ) (table : OrdMap Str Str) : KvServer :=
  ⟨table, .new capacity⟩

/-- The request is answered with the value. -/
def KvServer.Returns (s : KvServer) (req : Request) (value : Str) : Prop :=
  (s.dispatch req none).1.status = 200 ∧ (s.dispatch req none).1.body = value

instance (s : KvServer) (req : Request) (value : Str) : Decidable (s.Returns req value) :=
  inferInstanceAs (Decidable (_ ∧ _))

/-- The key is one that can be read and the value is a line, or the value happens to be the key list
    that is read in place of the key, in the order of the keys. -/
def IsReadBack (table : OrdMap Str Str) (key value : Str) : Prop :=
  (isWord key = true ∧ key ≠ "allkeys".toList ∧ '\n' ∉ value)
    ∨ key = "allkeys".toList ∧ value = keyList (table.insert key value).keys

variable {s : KvServer} {req : Request} {key value : Str}

/-- What every request keeps holds after all of them. -/
lemma afterAll_invariant {I : KvServer → Prop} {reqs : List Request}
    (hstep : ∀ s, ∀ req ∈ reqs, I s → I (s.dispatch req none).2) (h : I s) :
    I (s.afterAll reqs) :=
  List.foldlRecOn reqs _ h fun s hs req hreq => hstep s req hreq hs

/-- Requests keep the cache current. -/
lemma KvServer.Coherent.afterAll (h : s.Coherent) (reqs : List Request) :
    (s.afterAll reqs).Coherent :=
  afterAll_invariant (I := KvServer.Coherent) (fun _ req _ hs => coherent_dispatch hs req) h

/-- The cache is empty at the start. -/
lemma coherent_started (capacity : ℕ) (table : OrdMap Str Str) :
    (KvServer.started capacity table).Coherent :=
  ⟨LRUCache.valid_new capacity, nofun⟩

/-- A request that writes nothing leaves the table as it is. -/
lemma table_dispatch_quiet (hquiet : IsQuiet req) (s : KvServer) :
    (s.dispatch req none).2.table = s.table := by
  have hspec := dispatch_spec s req
  generalize s.dispatch req none = result at hspec
  cases hspec with
  | create hpost => exact absurd hpost hquiet.not_post
  | sync key hpost => exact absurd hpost hquiet.not_post
  | update key hput => exact absurd hput hquiet.not_put
  | delete key hdelete => exact absurd hdelete hquiet.not_delete
  | read key hget => exact table_handleRead s key
  | quiet res => rfl

/-- What a create that succeeds leaves in the table. -/
lemma table_create (hcreate : IsCreate req key value)
    (hok : (s.dispatch req none).1.status = 201) :
    (s.dispatch req none).2.table = s.table.insert key (value.takeWhile (· ≠ '\n')) := by
  rw [dispatch_post s hcreate.method, if_pos hcreate.path,
    handleCreate_eq hcreate.no_space hcreate.body] at hok ⊢
  split_ifs at hok ⊢
  · cases hok
  · rfl

/-- How a read is answered on a coherent server. -/
lemma dispatch_read (hs : s.Coherent) (hread : IsRead req key) :
    (s.dispatch req none).1 =
      if key = "allkeys".toList then closing.reply 200 (keyList s.table.keys)
      else if isWord key then readAnswer (s.table.find key) else notFound := by
  rw [dispatch_get s hread.method, hread.path]
  by_cases hall : key = "allkeys".toList
  · have hpath : keyPath key = allKeysPath := congrArg keyPath hall
    rw [if_pos hall, if_pos hpath, handleAllKeys_eq]
  · have hnot : keyPath key ≠ allKeysPath := fun he =>
      hall (List.append_right_injective keyRoot he)
    rw [if_neg hall, if_neg hnot]
    by_cases hword : isWord key = true
    · rw [wordAfter_keyPath hword, if_pos hword]
      exact (handleRead_eq hs key).1
    · have hnone : wordAfter keyRoot (keyPath key) = none := by
        rw [keyPath, wordAfter_append, if_neg hword]
      have hhealth : keyPath key ≠ healthPath := by
        rintro ⟨⟩
      rw [hnone, if_neg hword, if_neg hhealth]

/-- After a create that succeeded and requests that wrote nothing, a read returns the value exactly
    for these keys and values. -/
theorem create_read_iff (capacity : ℕ) (table : OrdMap Str Str) (before : List Request)
    {between : List Request} {create read : Request} (hcreate : IsCreate create key value)
    (hquiet : ∀ req ∈ between, IsQuiet req) (hread : IsRead read key) :
    let s := (KvServer.started capacity table).afterAll before
    (s.dispatch create none).1.status = 201 →
      (((s.dispatch create none).2.afterAll between).Returns read value
        ↔ IsReadBack s.table key value) := by
  intro s hok
  have hs : s.Coherent := (coherent_started capacity table).afterAll before
  have hs' : ((s.dispatch create none).2.afterAll between).Coherent :=
    (coherent_dispatch hs create).afterAll between
  have htable : ((s.dispatch create none).2.afterAll between).table
      = s.table.insert key (value.takeWhile (· ≠ '\n')) :=
    afterAll_invariant (I := fun s' => s'.table = s.table.insert key (value.takeWhile (· ≠ '\n')))
      (fun s' req hreq h => (table_dispatch_quiet (hquiet req hreq) s').trans h)
      (table_create hcreate hok)
  unfold KvServer.Returns IsReadBack
  rw [dispatch_read hs' hread, htable]
  by_cases hall : key = "allkeys".toList
  · have hkeys : keyList (s.table.insert key (value.takeWhile (· ≠ '\n'))).keys
        = keyList (s.table.insert key value).keys :=
      congrArg keyList (OrdMap.map_fst_insertIn ..)
    rw [if_pos hall, hkeys]
    constructor
    · rintro ⟨-, hbody⟩
      exact .inr ⟨hall, hbody.symm⟩
    · rintro (⟨-, hne, -⟩ | ⟨-, hvalue⟩)
      · exact absurd hall hne
      · exact ⟨rfl, hvalue.symm⟩
  · rw [if_neg hall]
    by_cases hword : isWord key = true
    · rw [if_pos hword, OrdMap.find_insert_self]
      constructor
      · rintro ⟨-, hbody⟩
        exact .inl ⟨hword, hall, takeWhile_line.1 hbody⟩
      · rintro (⟨-, -, hline⟩ | ⟨heq, -⟩)
        · exact ⟨rfl, takeWhile_line.2 hline⟩
        · exact absurd heq hall
    · rw [if_neg hword]
      constructor
      · rintro ⟨hstatus, -⟩
        cases hstatus
      · rintro (⟨hw, -, -⟩ | ⟨heq, -⟩)
        · exact absurd hw hword
        · exact absurd heq hall

/-- The request that creates a key. -/
def creating (key value : Str) : Request :=
  { method := "POST".toList, path := "/kvstore/create".toList, body := key ++ ' ' :: value }

/-- The request that reads a key. -/
def reading (key : Str) : Request := { method := "GET".toList, path := keyPath key }

/-- The request creates the key with the value, -/
lemma isCreate_creating (hkey : ' ' ∉ key) (hvalue : '\x00' ∉ value) :
    IsCreate (creating key value) key value :=
  ⟨rfl, rfl, rfl, hkey, hvalue⟩

/-- and this one reads it. -/
lemma isRead_reading (key : Str) : IsRead (reading key) key := ⟨rfl, rfl⟩

/-- A server without keys. -/
def noKeys : KvServer := .started 10 .empty

/-- A line is read back, also when the key list is read before it. -/
theorem create_read_iff_line :
    ((noKeys.dispatch (creating ['a'] "x y".toList) none).2.afterAll
      [reading "allkeys".toList]).Returns (reading ['a']) "x y".toList := by
  have hcreated : ((KvServer.started 10 .empty).dispatch (creating ['a'] "x y".toList)
      none).1.status = 201 := by
    decide +kernel
  have hquiet : ∀ req ∈ [reading "allkeys".toList], IsQuiet req :=
    List.forall_mem_singleton.2 ⟨by decide, by decide, by decide⟩
  exact (create_read_iff 10 .empty [] (isCreate_creating (by decide) (by decide)) hquiet
    (isRead_reading ['a']) hcreated).2 (.inl ⟨by decide, by decide, by decide⟩)

/-- Not everything that is created is read back: of two lines only the first one is stored, and a key
    with a hyphen has no route. -/
theorem create_cut :
    (noKeys.dispatch (creating ['a'] "x\ny".toList) none).1.status = 201
      ∧ (noKeys.dispatch (creating ['a'] "x\ny".toList) none).2.Returns (reading ['a']) ['x']
      ∧ (noKeys.dispatch (creating "a-b".toList ['x']) none).1.status = 201
      ∧ ((noKeys.dispatch (creating "a-b".toList ['x']) none).2.dispatch
          (reading "a-b".toList) none).1.status = 404 := by
  decide +kernel

end KvStore.Server
