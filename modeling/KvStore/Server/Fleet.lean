import KvStore.Lib.Scan
import KvStore.Ring.Backend
import KvStore.Server.Handlers

/-!
# The servers and their clients

The servers by address, and the `httplib` client that the balancer uses for its own requests. A
server that has crashed keeps its table and answers nothing.

For each request of `RecoveryManager` there is a lemma that says what is answered and which entries
change: `call_allKeys`, `call_get`, `call_sync`. Keys are not checked, so a key can arrive as
another one, `clientPath key`.
-/

namespace KvStore.Server
open KvStore.Lib KvStore.Ring

/-- The servers by address. -/
abbrev Fleet := Addr → KvServer

/-- What a server's table has for a key. -/
def Fleet.entry (servers : Fleet) (addr : Addr) (key : Str) : Option Str :=
  (servers addr).table.find key

/-- No cache differs from its table. -/
def Fleet.Coherent (servers : Fleet) : Prop := ∀ addr, (servers addr).Coherent

/-- The entries after one server has changed. -/
lemma entry_update (servers : Fleet) (addr : Addr) (s : KvServer) (a : Addr) (key : Str) :
    Fleet.entry (Function.update servers addr s) a key
      = if a = addr then s.table.find key else servers.entry a key := by
  by_cases ha : a = addr
  · subst ha
    simp only [Fleet.entry, Function.update_self, if_true]
  · simp only [Fleet.entry, Function.update_of_ne ha, if_neg ha]

/-- A server whose table stays the same changes no entry. -/
lemma entry_update_of_table {servers : Fleet} {addr : Addr} {s : KvServer}
    (h : s.table = (servers addr).table) :
    Fleet.entry (Function.update servers addr s) = servers.entry := by
  funext a key
  rw [entry_update, h]
  split_ifs with ha
  · rw [ha]
    rfl
  · rfl

/-- A server may change if its cache stays current. -/
lemma Fleet.Coherent.update {servers : Fleet} (h : servers.Coherent) (addr : Addr) {s : KvServer}
    (hs : s.Coherent) : Fleet.Coherent (Function.update servers addr s) := by
  intro a
  by_cases ha : a = addr
  · subst ha
    rwa [Function.update_self]
  · rw [Function.update_of_ne ha]
    exact h a

/-- The servers after a write at one of them. -/
def Fleet.write (servers : Fleet) (addr : Addr) (w : Write) : Fleet :=
  Function.update servers addr ((servers addr).apply w)

/-- A write changes one entry. -/
lemma entry_write (servers : Fleet) (addr : Addr) (w : Write) (a : Addr) (key : Str) :
    (servers.write addr w).entry a key
      = if a = addr ∧ w.key = some key then w.effect else servers.entry a key := by
  rw [Fleet.write, entry_update, find_apply]
  by_cases ha : a = addr
  · subst ha
    simp only [if_true, true_and, Fleet.entry]
  · rw [if_neg ha, if_neg fun h => ha h.1]

/-- A write keeps the caches current. -/
lemma Fleet.Coherent.write {servers : Fleet} (h : servers.Coherent) (addr : Addr) (w : Write) :
    (servers.write addr w).Coherent := h.update addr ((h addr).apply w)

/-- The keys of the servers are words, and none of them is taken for the key list. -/
def Fleet.WordKeys (servers : Fleet) : Prop :=
  ∀ addr key, servers.entry addr key ≠ none → isWord key = true ∧ key ≠ "allkeys".toList

/-- A write keeps the keys words. -/
lemma Fleet.WordKeys.write {servers : Fleet} (h : servers.WordKeys) (addr : Addr) {w : Write}
    (hw : w.key ≠ some "allkeys".toList) : (servers.write addr w).WordKeys := by
  intro a key he
  rw [entry_write] at he
  split_ifs at he with hk
  · refine ⟨isWord_of_key hk.2, ?_⟩
    rintro rfl
    exact hw hk.2
  · exact h a key he

/-- `httplib::Client`: what a request to an address returns, nothing when the call fails, and the
    world after it. -/
structure HttpClient (σ : Type*) where
  call : Addr → Request → σ → Option Response × σ

/-- The client in front of the servers, some of which have crashed. -/
def fleetClient (crashed : Addr → Bool) : HttpClient Fleet where
  call addr req servers :=
    if crashed addr then (none, servers)
    else
      let handled := (servers addr).dispatch req none
      (some handled.1, Function.update servers addr handled.2)

/-- `Get(path)`, as the server receives it. -/
def clientGet (path : Str) : Request := { method := "GET".toList, path := Http.clientPath path }

/-- `Post(path, body, "text/plain")`, as the server receives it. -/
def clientPost (path body : Str) : Request :=
  { method := "POST".toList
    path := Http.clientPath path
    headers := [("Content-Type".toList, "text/plain".toList)]
    body := body }

/-- No server has crashed. -/
def noneCrashed (_ : Addr) : Bool := false

/-- What a server shows under a key, and nothing if it does not have it. -/
def KvServer.shown (s : KvServer) (key : Str) : Str :=
  if key = "allkeys".toList then keyList s.table.keys
  else if isWord key then (s.table.find key).getD []
  else []

/-- The body of an answer with status 200. -/
def okBody : Option Response → Str
  | some res => if res.status = 200 then res.body else []
  | none => []

/-- What a GET for a key returns on a coherent server, and that the table stays as it is. -/
lemma dispatch_getKey {s : KvServer} (h : s.Coherent) {req : Request} {key : Str}
    (hm : req.method = "GET".toList) (hp : req.path = keyRoot ++ key) :
    okBody (some (s.dispatch req none).1) = s.shown key
      ∧ (s.dispatch req none).2.table = s.table := by
  rw [dispatch_get s hm, hp, wordAfter_append, KvServer.shown]
  by_cases hall : key = "allkeys".toList
  · rw [if_pos hall, if_pos (hall ▸ rfl)]
    exact ⟨rfl, rfl⟩
  have hpath : keyRoot ++ key ≠ allKeysPath := fun he =>
    hall (List.append_right_injective keyRoot he)
  rw [if_neg hall, if_neg hpath]
  cases hk : isWord key with
  | true =>
    obtain ⟨hres, htable, -⟩ := handleRead_eq h key
    refine ⟨?_, htable⟩
    simp only [if_true, hres]
    cases s.table.find key <;> rfl
  | false =>
    have hhealth : keyRoot ++ key ≠ healthPath := by
      intro he
      have htake := congrArg (List.take 2) he
      rw [List.take_append_of_le_length (by decide)] at htake
      exact absurd htake (by decide)
    simp only [if_neg hhealth]
    exact ⟨rfl, rfl⟩

/-- A sync writes its value under the key it arrives with, and nowhere else. -/
lemma dispatch_syncKey (s : KvServer) {req : Request} {key : Str} (hm : req.method = "POST".toList)
    (hp : req.path = syncRoot ++ key) (k : Str) : (s.dispatch req none).2.table.find k
      = if isWord key ∧ k = key then some req.body else s.table.find k := by
  have hcreate : syncRoot ++ key ≠ "/kvstore/create".toList := by
    intro he
    have htake := congrArg (List.take 10) he
    rw [List.take_append_of_le_length (by decide)] at htake
    exact absurd htake (by decide)
  rw [dispatch_post s hm, hp, if_neg hcreate, wordAfter_append]
  cases hk : isWord key with
  | true =>
    simp only [if_true, handleSync_eq, OrdMap.find_insert, true_and, eq_comm]
  | false => simp

section
variable {crashed : Addr → Bool} {servers : Fleet} {addr : Addr}

/-- A crashed server does not answer. -/
lemma call_crashed (hc : crashed addr = true) (req : Request) :
    (fleetClient crashed).call addr req servers = (none, servers) := if_pos hc

/-- A server that runs answers what its handler says. -/
lemma call_up (hc : crashed addr = false) (req : Request) :
    (fleetClient crashed).call addr req servers
      = (some ((servers addr).dispatch req none).1,
          Function.update servers addr ((servers addr).dispatch req none).2) := by
  simp [fleetClient, hc]

/-- A call keeps the caches current. -/
lemma Fleet.Coherent.call (h : servers.Coherent) (crashed : Addr → Bool) (addr : Addr)
    (req : Request) : Fleet.Coherent ((fleetClient crashed).call addr req servers).2 := by
  cases hc : crashed addr with
  | true =>
    rw [call_crashed hc]
    exact h
  | false =>
    rw [call_up hc]
    exact h.update addr (coherent_dispatch (h addr) req)

/-- The health route is answered, and no server changes. -/
lemma call_health (hc : crashed addr = false) :
    (fleetClient crashed).call addr (clientGet healthPath) servers
      = (some (Response.reply {} 200 "OK".toList), servers) := by
  have hpath : (clientGet healthPath).path = healthPath :=
    Http.clientPath_eq_self (List.all_eq_true.1 (by decide))
  have hkey : wordAfter keyRoot healthPath = none := by decide
  rw [call_up hc, dispatch_get _ rfl, hpath, if_neg (by decide), hkey]
  simp only [if_true, Function.update_eq_self]

/-- The key list is answered, and no server changes. -/
lemma call_allKeys (hc : crashed addr = false) :
    (fleetClient crashed).call addr (clientGet allKeysPath) servers
      = (some (closing.reply 200 (keyList (servers addr).table.keys)), servers) := by
  have hpath : (clientGet allKeysPath).path = allKeysPath :=
    Http.clientPath_eq_self (List.all_eq_true.1 (by decide))
  rw [call_up hc, dispatch_get _ rfl, if_pos hpath, handleAllKeys_eq, Function.update_eq_self]

/-- What a GET for a key returns, and that no entry changes. -/
lemma call_get (hc : crashed addr = false) (h : servers.Coherent) (key : Str) :
    okBody ((fleetClient crashed).call addr (clientGet (keyPath key)) servers).1
        = (servers addr).shown (Http.clientPath key)
      ∧ Fleet.entry ((fleetClient crashed).call addr (clientGet (keyPath key)) servers).2
        = servers.entry := by
  have hpath : (clientGet (keyPath key)).path = keyRoot ++ Http.clientPath key :=
    Http.clientPath_append (List.all_eq_true.1 (by decide)) key
  obtain ⟨hbody, htable⟩ := dispatch_getKey (h addr) rfl hpath
  rw [call_up hc]
  exact ⟨hbody, entry_update_of_table htable⟩

/-- What a sync for a key changes. -/
lemma call_sync (hc : crashed addr = false) (key value : Str) (a : Addr) (k : Str) :
    Fleet.entry ((fleetClient crashed).call addr (clientPost (syncRoot ++ key) value) servers).2 a k
      = if a = addr ∧ isWord (Http.clientPath key) ∧ k = Http.clientPath key then some value
        else servers.entry a k := by
  have hpath : (clientPost (syncRoot ++ key) value).path = syncRoot ++ Http.clientPath key :=
    Http.clientPath_append (List.all_eq_true.1 (by decide)) key
  rw [call_up hc, entry_update, dispatch_syncKey _ rfl hpath]
  by_cases ha : a = addr
  · subst ha
    simp only [if_true, true_and, Fleet.entry]
    rfl
  · rw [if_neg ha, if_neg fun h => ha h.1]

end

end KvStore.Server
