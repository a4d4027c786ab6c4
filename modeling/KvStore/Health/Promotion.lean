import KvStore.Health.Undisturbed

/-!
# Promotion after failed calls

What a backend has when the health checker opens it for reads, if any of the calls that `recover`
makes can fail. A failed listing is an empty one, a failed fetch an empty value, and the result of a
sync is not looked at; the backend becomes UP in any case.

* `copyKeys_flaky`: the entry of a key after the calls for all keys.
* `promoted_synced_iff`: for which failures the backend has what the other owners have.
* `promoted_unsynced`: one failed sync is enough.
-/

namespace KvStore.Health
open KvStore.Lib KvStore.Ring KvStore.Http KvStore.Server KvStore.Recovery

/-- How a call ends: with a response, without one, or before the server has got the request. -/
inductive CallOutcome where
  | answered
  | unanswered
  | unreached
deriving DecidableEq, Repr

/-- The client in front of the servers, when any of its calls can fail. -/
def flakyClient (outcome : Addr → Request → CallOutcome) : HttpClient Fleet where
  call addr req servers :=
    let handled := (servers addr).dispatch req none
    match outcome addr req with
    | .answered => (some handled.1, Function.update servers addr handled.2)
    | .unanswered => (none, Function.update servers addr handled.2)
    | .unreached => (none, servers)

/-- The lines of a server's key list. -/
def keyLines (s : KvServer) : List Str := listedKeys (some (closing.reply 200 (keyList s.table.keys)))

/-- No line of a key list is received as another word than itself. -/
def ListsPlainly (servers : Fleet) : Prop :=
  ∀ addr, ∀ line ∈ keyLines (servers addr), isWord (clientPath line) = true →
    clientPath line = line

/-- Keys that are words are listed plainly. -/
lemma listsPlainly_of_wordKeys {servers : Fleet} (h : servers.WordKeys) : ListsPlainly servers := by
  intro addr line hline _
  have hwords : ∀ key ∈ (servers addr).table.keys, isWord key = true := fun key hkey =>
    (h addr key (OrdMap.mem_keys_iff_ne_none.1 hkey)).1
  rw [keyLines, listedKeys_of_words hwords] at hline
  exact clientPath_eq_self (isPlain_of_isWord (hwords line hline))

section
variable (outcome : Addr → Request → CallOutcome) {servers : Fleet}

/-- A call in terms of one that succeeds. -/
lemma flaky_call (addr : Addr) (req : Request) : (flakyClient outcome).call addr req servers =
    (if outcome addr req = .answered then ((fleetClient noneCrashed).call addr req servers).1
      else none,
      if outcome addr req = .unreached then servers
      else ((fleetClient noneCrashed).call addr req servers).2) := by
  rw [call_up rfl]
  simp only [flakyClient]
  cases outcome addr req <;> rfl

/-- A call keeps the caches current, whatever its outcome. -/
lemma coherent_flaky (h : servers.Coherent) (addr : Addr) (req : Request) :
    Fleet.Coherent ((flakyClient outcome).call addr req servers).2 := by
  rw [flaky_call]
  dsimp only
  split_ifs
  · exact h
  · exact h.call noneCrashed addr req

/-- A key list is fetched if the call is answered. -/
lemma flaky_allKeys (node : Backend) : fetchAllKeysFromNode (flakyClient outcome) node servers
    = (if outcome node.addr (clientGet allKeysPath) = .answered then keyLines (servers node.addr)
        else [], servers) := by
  unfold fetchAllKeysFromNode
  rw [flaky_call, call_allKeys rfl, ite_self]
  split_ifs <;> rfl

/-- So is a value, and no entry changes. -/
lemma flaky_get (h : servers.Coherent) (peer : Backend) (key : Str) :
    (fetchValueFromPeer (flakyClient outcome) peer key servers).1
        = (if outcome peer.addr (clientGet (keyPath key)) = .answered then
            (servers peer.addr).shown (clientPath key)
          else [])
      ∧ Fleet.entry (fetchValueFromPeer (flakyClient outcome) peer key servers).2 = servers.entry
      ∧ Fleet.Coherent (fetchValueFromPeer (flakyClient outcome) peer key servers).2 := by
  obtain ⟨hbody, hentry⟩ := call_get (show noneCrashed peer.addr = false from rfl) h key
  refine ⟨?_, ?_, coherent_flaky outcome h _ _⟩
  · simp only [fetchValueFromPeer, flaky_call]
    split_ifs
    · exact hbody
    · rfl
  · simp only [fetchValueFromPeer, flaky_call]
    split_ifs
    · rfl
    · exact hentry

/-- A sync writes what it is sent, if it reaches the server. -/
lemma flaky_sync (target : Backend) (key value : Str) (a : Addr) (k : Str) :
    Fleet.entry (writeValueToRecoveredNode (flakyClient outcome) target key value servers).2 a k
      = if outcome target.addr (clientPost (syncRoot ++ key) value) ≠ .unreached
            ∧ a = target.addr ∧ isWord (clientPath key) ∧ k = clientPath key then some value
        else servers.entry a k := by
  simp only [writeValueToRecoveredNode, flaky_call]
  by_cases hr : outcome target.addr (clientPost (syncRoot ++ key) value) = .unreached
  · rw [if_pos hr, if_neg fun h => h.1 hr]
  · rw [if_neg hr, call_sync rfl]
    exact if_congr (by simp [hr]) rfl rfl

/-- The keys that are collected. -/
lemma collectKeys_flaky (servers : Fleet) (recovered : Backend) (nodes : List Backend)
    (keyspace : OrdMap Str Unit) :
    (collectKeys (flakyClient outcome) recovered nodes keyspace servers).2 = servers
      ∧ ∀ k, k ∈ (collectKeys (flakyClient outcome) recovered nodes keyspace servers).1.keys
        ↔ k ∈ keyspace.keys ∨ ∃ node ∈ nodes, node.port ≠ recovered.port
          ∧ outcome node.addr (clientGet allKeysPath) = .answered
          ∧ k ∈ keyLines (servers node.addr) := by
  obtain ⟨hsame, hkeys⟩ := collectKeys_of_lines (flaky_allKeys outcome) recovered nodes keyspace
  refine ⟨hsame, fun k => (hkeys k).trans (or_congr_right ?_)⟩
  refine exists_congr fun node => and_congr_right fun _ => and_congr_right fun _ => ?_
  split_ifs with ha
  · simp [ha]
  · simp [ha]

/-- Fetching a value changes no entry. -/
lemma fetchSource_flaky (h : servers.Coherent) (recovered : Backend) (key : Str)
    (replicas : List Backend) :
    Fleet.entry (fetchSource (flakyClient outcome) recovered key replicas servers).2 = servers.entry
      ∧ Fleet.Coherent (fetchSource (flakyClient outcome) recovered key replicas servers).2 := by
  induction replicas generalizing servers with
  | nil => exact ⟨rfl, h⟩
  | cons b replicas ih =>
    rw [fetchSource]
    split_ifs with hp
    · exact ih h
    · obtain ⟨-, hentry, hcoh⟩ := flaky_get outcome h b key
      dsimp only
      split_ifs
      · exact ⟨hentry, hcoh⟩
      · obtain ⟨hentry', hcoh'⟩ := ih hcoh
        exact ⟨hentry'.trans hentry, hcoh'⟩

/-- The recovered backend is not asked for a value. -/
lemma fetchSource_filter {σ : Type*} (client : HttpClient σ) (recovered : Backend) (key : Str)
    (replicas : List Backend) (w : σ) : fetchSource client recovered key replicas w
      = fetchSource client recovered key (replicas.filter fun b => b.port ≠ recovered.port) w := by
  induction replicas generalizing w with
  | nil => rfl
  | cons b replicas ih =>
    by_cases hp : b.port = recovered.port
    · rw [fetchSource, if_pos hp, List.filter_cons_of_neg (by simp [hp]), ih]
    · rw [List.filter_cons_of_pos (by simp [hp]), fetchSource, fetchSource, if_neg hp, if_neg hp]
      simp only [ih]

end

section
variable [StdHash]

/-- The server at `peer` is the other owner of a key, and has a value for it that is not empty. -/
structure CoOwned (r : Router) (recovered : Backend) (servers : Fleet) (key value : Str)
    (peer : Addr) : Prop where
  word : isWord key = true
  ne_allKeys : key ≠ "allkeys".toList
  owners : ∃ replicas, r.getBackendsForKey key 2 = .ok replicas
    ∧ (∃ x ∈ replicas, x.port = recovered.port) ∧ ∃ y ∈ replicas, y.addr = peer
  port_ne : peer.2 ≠ recovered.port
  value_ne : value ≠ []
  entry : servers.entry peer key = some value

variable (outcome : Addr → Request → CallOutcome) {servers servers' : Fleet} {r : Router}
  {recovered : Backend} {key value : Str} {peer : Addr}

omit [StdHash] in
/-- The calls for a key succeed: it is listed, its value is fetched from the other owner, and the
    sync reaches the recovered backend. -/
def Copied (r : Router) (recovered : Backend) (servers : Fleet) (key value : Str) (peer : Addr) :
    Prop :=
  (∃ node ∈ r.getOnlineBackends, node.port ≠ recovered.port
      ∧ outcome node.addr (clientGet allKeysPath) = .answered ∧ key ∈ keyLines (servers node.addr))
    ∧ outcome peer (clientGet (keyPath key)) = .answered
    ∧ outcome recovered.addr (clientPost (syncRoot ++ key) value) ≠ .unreached

/-- Other entries do not matter. -/
lemma CoOwned.congr (h : CoOwned r recovered servers key value peer)
    (he : ∀ a ≠ recovered.addr, ∀ k, servers'.entry a k = servers.entry a k) :
    CoOwned r recovered servers' key value peer :=
  { h with entry := (he peer (fun ha => h.port_ne (congrArg Prod.snd ha)) key).trans h.entry }

/-- Looking at a line changes at most the entry that it is received as. -/
lemma copyKey_flaky (hring : r.hashRing.empty = false) (h : servers.Coherent) (line : Str) :
    ∃ servers', copyKey (flakyClient outcome) r recovered servers line = .ok servers'
      ∧ servers'.Coherent
      ∧ ∀ a k, ¬ (a = recovered.addr ∧ isWord (clientPath line) = true ∧ k = clientPath line) →
          servers'.entry a k = servers.entry a k := by
  obtain ⟨hentry, hcoh⟩ :=
    fetchSource_flaky outcome h recovered line (r.hashRing.getNodes line 2)
  simp only [copyKey, getBackendsForKey_ok.2 ⟨hring, rfl⟩]
  split_ifs with hown hne
  · refine ⟨_, rfl, coherent_flaky outcome hcoh _ _, fun a k hnot => ?_⟩
    rw [flaky_sync, if_neg fun h => hnot h.2, hentry]
  · exact ⟨_, rfl, hcoh, fun a k _ => by rw [hentry]⟩
  · exact ⟨_, rfl, h, fun a k _ => rfl⟩

/-- Looking at a key copies it, if its calls succeed. -/
lemma CoOwned.copyKey (hown : CoOwned r recovered servers key value peer) (h : servers.Coherent)
    (hc : copyKey (flakyClient outcome) r recovered servers key = .ok servers') :
    servers'.entry recovered.addr key
      = if outcome peer (clientGet (keyPath key)) = .answered
            ∧ outcome recovered.addr (clientPost (syncRoot ++ key) value) ≠ .unreached then
          some value
        else servers.entry recovered.addr key := by
  obtain ⟨replicas, hreplicas, ⟨x, hx, hxp⟩, y, hy, rfl⟩ := hown.owners
  have hyp : y.port ≠ recovered.port := hown.port_ne
  have hplain : clientPath key = key := clientPath_eq_self (isPlain_of_isWord hown.word)
  have hlen : replicas.length ≤ 2 := by
    rw [← (getBackendsForKey_ok.1 hreplicas).2]
    exact length_getNodes_le _ _ _
  have hothers : (replicas.filter fun b => b.port ≠ recovered.port) = [y] :=
    filter_eq_singleton hlen hx (by simp [hxp]) hy (by simp [hyp])
  have hany : replicas.any (fun b => b.port = recovered.port) = true :=
    List.any_eq_true.2 ⟨x, hx, decide_eq_true hxp⟩
  obtain ⟨hvalue, hentry, -⟩ := flaky_get outcome h y key
  have hshown : (servers y.addr).shown key = value := by
    rw [KvServer.shown, if_neg hown.ne_allKeys, if_pos hown.word]
    exact congrArg (Option.getD · []) hown.entry
  rw [hplain, hshown] at hvalue
  -- the value that is found
  have hsource : fetchSource (flakyClient outcome) recovered key replicas servers
      = fetchValueFromPeer (flakyClient outcome) y key servers := by
    rw [fetchSource_filter, hothers]
    simp only [fetchSource, if_neg hyp]
    split_ifs with hne
    · rfl
    · exact Prod.ext (not_not.1 hne).symm rfl
  simp only [Recovery.copyKey, hreplicas, hany, if_true, hsource, hvalue] at hc
  by_cases ha : outcome y.addr (clientGet (keyPath key)) = .answered
  · rw [if_pos ha, if_pos hown.value_ne] at hc
    obtain rfl := Except.ok.inj hc
    rw [flaky_sync, hplain, hentry]
    exact if_congr (by simp [ha, hown.word]) rfl rfl
  · rw [if_neg ha, if_neg (not_not.2 rfl)] at hc
    obtain rfl := Except.ok.inj hc
    rw [hentry, if_neg fun h => ha h.1]

/-- The entries after some lines have been looked at. -/
lemma copyKeys_flaky (recovered : Backend) (hring : r.hashRing.empty = false) {keys : List Str}
    (hplain : ∀ line ∈ keys, isWord (clientPath line) = true → clientPath line = line)
    (h : servers.Coherent) :
    ∃ servers', keys.foldlM (copyKey (flakyClient outcome) r recovered) servers = .ok servers'
      ∧ (∀ a ≠ recovered.addr, ∀ k, servers'.entry a k = servers.entry a k)
      ∧ ∀ key value peer, CoOwned r recovered servers key value peer →
          servers'.entry recovered.addr key
            = if key ∈ keys ∧ outcome peer (clientGet (keyPath key)) = .answered
                ∧ outcome recovered.addr (clientPost (syncRoot ++ key) value) ≠ .unreached then
                some value
              else servers.entry recovered.addr key := by
  induction keys generalizing servers with
  | nil => exact ⟨servers, rfl, fun _ _ _ => rfl, fun key value peer _ => by simp⟩
  | cons line keys ih =>
    obtain ⟨hline, hrest⟩ := List.forall_mem_cons.1 hplain
    obtain ⟨servers₁, hc, hcoh₁, hentry₁⟩ := copyKey_flaky outcome hring h line
    have hother₁ : ∀ a ≠ recovered.addr, ∀ k, servers₁.entry a k = servers.entry a k :=
      fun a ha k => hentry₁ a k fun h => ha h.1
    obtain ⟨servers', hcs, hother, hcopied⟩ := ih hrest hcoh₁
    refine ⟨servers', ?_, fun a ha k => (hother a ha k).trans (hother₁ a ha k), ?_⟩
    · rw [List.foldlM_cons, hc]
      exact hcs
    · intro key value peer hown
      rw [hcopied key value peer (hown.congr hother₁)]
      by_cases hk : line = key
      · subst hk
        rw [hown.copyKey outcome h hc]
        by_cases hs : outcome peer (clientGet (keyPath line)) = .answered
            ∧ outcome recovered.addr (clientPost (syncRoot ++ line) value) ≠ .unreached
        · simp [hs]
        · simp [hs]
      · -- another line is not received as this key
        have hsame : servers₁.entry recovered.addr key = servers.entry recovered.addr key := by
          refine hentry₁ _ _ ?_
          rintro ⟨-, hword, hkey⟩
          exact hk (hkey.trans (hline hword)).symm
        rw [hsame]
        exact if_congr (by simp [Ne.symm hk]) rfl rfl

/-- Recovery copies the keys whose calls succeed, and changes nothing for the other ones. -/
lemma recover_flaky (recovered : Backend) (hring : r.hashRing.empty = false)
    (hplain : ListsPlainly servers) (h : servers.Coherent) {active : List Backend}
    (hactive : active.Perm r.getOnlineBackends) :
    ∃ servers', recover (flakyClient outcome) r active recovered servers = .ok servers'
      ∧ (∀ a ≠ recovered.addr, ∀ k, servers'.entry a k = servers.entry a k)
      ∧ ∀ key value peer, CoOwned r recovered servers key value peer →
          (Copied outcome r recovered servers key value peer →
            servers'.entry recovered.addr key = some value)
          ∧ (¬ Copied outcome r recovered servers key value peer →
            servers'.entry recovered.addr key = servers.entry recovered.addr key) := by
  obtain ⟨hsame, hkeys⟩ := collectKeys_flaky outcome servers recovered active .empty
  have hlisted (k : Str) : k ∈ (collectKeys (flakyClient outcome) recovered active .empty
      servers).1.keys ↔ ∃ node ∈ r.getOnlineBackends, node.port ≠ recovered.port
        ∧ outcome node.addr (clientGet allKeysPath) = .answered
        ∧ k ∈ keyLines (servers node.addr) := by
    rw [hkeys]
    simp [OrdMap.keys, OrdMap.empty, hactive.mem_iff]
  have hlines : ∀ line ∈ (collectKeys (flakyClient outcome) recovered active .empty
      servers).1.keys, isWord (clientPath line) = true → clientPath line = line := by
    intro line hline
    obtain ⟨node, -, -, -, hmem⟩ := (hlisted line).1 hline
    exact hplain node.addr line hmem
  obtain ⟨servers', hcs, hother, hcopied⟩ :=
    copyKeys_flaky outcome recovered hring hlines h
  refine ⟨servers', ?_, hother, fun key value peer hown => ?_⟩
  · rw [recover_eq, hsame, hcs]
  · have hentry := hcopied key value peer hown
    have hiff := and_congr_left' (c := outcome peer (clientGet (keyPath key)) = .answered
      ∧ outcome recovered.addr (clientPost (syncRoot ++ key) value) ≠ .unreached) (hlisted key)
    constructor
    · intro hc
      rw [hentry, if_pos (hiff.2 hc)]
    · intro hc
      rw [hentry, if_neg (mt hiff.1 hc)]

/-- A backend that is marked UP while it recovers keeps its places on the ring. -/
lemma promoted_ring (hf : r.backends.find recovered.port = some recovered)
    (hn : 0 < r.hashRing.numVnodes) {r₁ r' : Router}
    (h₁ : r.markBackendRecovering recovered.port = r₁) (h' : r₁.markBackendUp recovered.port = r') :
    r₁.hashRing.empty = false ∧ r'.hashRing.empty = false
      ∧ r'.statusOf recovered.port = some .up
      ∧ ∀ pos, (r₁.hashRing.ring.find pos).map Backend.addr
        = (r'.hashRing.ring.find pos).map Backend.addr := by
  have hf₁ : r₁.backends.find recovered.port = some (recovered.withStatus .recovering) := by
    rw [← h₁, find_markBackendRecovering, if_pos rfl, hf, Option.map_some]
  have hring₁ (pos : ℕ) : r₁.hashRing.ring.find pos
      = if r.hashRing.IsVnode recovered pos then some (recovered.withStatus .recovering)
        else r.hashRing.ring.find pos := by
    rw [← h₁, ← Mark.apply_recovering]
    exact find_apply hf .recovering pos
  have hring' (pos : ℕ) : r'.hashRing.ring.find pos
      = if r.hashRing.IsVnode recovered pos then some (recovered.withStatus .up)
        else r₁.hashRing.ring.find pos := by
    have hn₁ : r₁.hashRing.numVnodes = r.hashRing.numVnodes := by
      rw [← h₁, ← Mark.apply_recovering, numVnodes_apply]
    rw [← h', ← Mark.apply_up]
    refine (find_apply hf₁ .up pos).trans ?_
    simp only [HashRing.IsVnode, hn₁]
    rfl
  -- the first of these places
  have hplace : r.hashRing.IsVnode recovered (hashString (vnodeKey recovered 0)) := ⟨0, hn, rfl⟩
  refine ⟨?_, ?_, ?_, fun pos => ?_⟩
  · exact empty_of_find ((hring₁ _).trans (if_pos hplace))
  · exact empty_of_find ((hring' _).trans (if_pos hplace))
  · rw [← h', Router.statusOf, find_markBackendUp, if_pos rfl, hf₁]
    rfl
  · rw [hring', hring₁]
    split_ifs <;> rfl

/-- The owners of a key are known by their addresses. -/
lemma CoOwned.congr_router {r' : Router} (hring : r'.hashRing.empty = false)
    (haddr : ∀ pos, (r.hashRing.ring.find pos).map Backend.addr
      = (r'.hashRing.ring.find pos).map Backend.addr)
    (h : CoOwned r recovered servers key value peer) :
    CoOwned r' recovered servers key value peer := by
  obtain ⟨replicas, hreplicas, ⟨x, hx, hxp⟩, y, hy, hyp⟩ := h.owners
  obtain ⟨-, rfl⟩ := getBackendsForKey_ok.1 hreplicas
  have hmem {b : Backend} (hb : b ∈ r.hashRing.getNodes key 2) :
      ∃ c ∈ r'.hashRing.getNodes key 2, c.addr = b.addr := by
    apply List.mem_map.1
    rw [← map_addr_getNodes haddr]
    exact List.mem_map_of_mem hb
  obtain ⟨x', hx', hxx⟩ := hmem hx
  obtain ⟨y', hy', hyy⟩ := hmem hy
  refine { h with owners := ⟨_, getBackendsForKey_ok.2 ⟨hring, rfl⟩, ⟨x', hx', ?_⟩, y', hy', ?_⟩ }
  · exact (congrArg Prod.snd hxx).trans hxp
  · exact hyy.trans hyp

/-- The backend that the health checker recovers has what the other owners have when it is UP again
    exactly if this was so before, or the calls succeed, for each of their keys. -/
theorem promoted_synced_iff {backends : List Backend} {vnodes : ℕ}
    (hr : Router.Reachable backends vnodes r) (hv : 0 < vnodes)
    (hx : recovered ∈ r.getAllBackends) (hdown : recovered.status = .down)
    (h : servers.Coherent) (hplain : ListsPlainly servers) {active : Router → List Backend}
    (hactive : ∀ r, (active r).Perm r.getOnlineBackends)
    (hping : outcome recovered.addr (clientGet healthPath) = .answered) :
    ∃ r' servers', checkBackend (flakyClient outcome) active (r, servers) recovered
        = .ok (r', servers')
      ∧ r'.statusOf recovered.port = some .up
      ∧ ((∀ key value peer, CoOwned r' recovered servers' key value peer →
          servers'.entry recovered.addr key = some value)
        ↔ ∀ key value peer,
          CoOwned (r.markBackendRecovering recovered.port) recovered servers key value peer →
            servers.entry recovered.addr key = some value
            ∨ Copied outcome (r.markBackendRecovering recovered.port) recovered servers key value
              peer) := by
  have hf := find_of_mem_getAllBackends hr.configured.port_eq hx
  generalize h₁ : r.markBackendRecovering recovered.port = r₁
  generalize h' : r₁.markBackendUp recovered.port = r'
  obtain ⟨hring₁, hring', hup, haddr⟩ :=
    promoted_ring hf (hr.configured.numVnodes ▸ hv) h₁ h'
  obtain ⟨servers', hrecover, hother, hcopied⟩ :=
    recover_flaky outcome recovered hring₁ hplain h (hactive r₁)
  have halive : pingBackend (flakyClient outcome) recovered servers = (true, servers) := by
    rw [pingBackend, flaky_call, call_health rfl, if_pos hping, ite_self]
    rfl
  refine ⟨r', servers', ?_, hup, ?_, ?_⟩
  · simp only [checkBackend, halive, hdown, if_true, h₁, hrecover, h']
  · intro hsynced key value peer hown
    by_cases hc : Copied outcome r₁ recovered servers key value peer
    · exact .inr hc
    · left
      rw [← (hcopied key value peer hown).2 hc]
      exact hsynced key value peer ((hown.congr hother).congr_router hring' haddr)
  · intro hbefore key value peer hown'
    have hown : CoOwned r₁ recovered servers key value peer :=
      (hown'.congr_router hring₁ fun pos => (haddr pos).symm).congr
        fun a ha k => (hother a ha k).symm
    obtain ⟨hyes, hno⟩ := hcopied key value peer hown
    by_cases hc : Copied outcome r₁ recovered servers key value peer
    · exact hyes hc
    · rw [hno hc]
      exact (hbefore key value peer hown).resolve_right hc

end

section
attribute [local instance] djb2

/-- The router without 9003. -/
def without9003 : Router := (initialRouter 1).markBackendDown 9003

/-- Marking leads to this router. -/
lemma reachable_without9003 : Router.Reachable initialBackends 1 without9003 :=
  .mark .down 9003 (.new rfl)

/-- If all calls are answered, a backend that missed a PUT has the value when it is UP again. -/
theorem promoted_synced_iff_answered :
    ∃ r' servers', checkBackend (flakyClient fun _ _ => .answered) Router.getOnlineBackends
        (without9003, missedPut) down9003 = .ok (r', servers')
      ∧ r'.statusOf 9003 = some .up
      ∧ ∀ key value peer, CoOwned r' down9003 servers' key value peer →
          servers'.entry down9003.addr key = some value := by
  have hwords : missedPut.WordKeys := wordKeys_servedWrites (by decide)
  have hx : down9003 ∈ without9003.getAllBackends := by decide +kernel
  obtain ⟨r', servers', hc, hup, hiff⟩ :=
    promoted_synced_iff (fun _ _ => .answered) reachable_without9003 Nat.zero_lt_one hx rfl
      (coherent_servedWrites _) (listsPlainly_of_wordKeys hwords) (fun _ => .refl _) rfl
  refine ⟨r', servers', hc, hup, hiff.2 fun key value peer hown => .inr ?_⟩
  -- only 9001 has a key, and this is `a`
  have hentry := hown.entry
  unfold missedPut servedWrites at hentry
  rw [List.foldl_cons, List.foldl_nil, entry_write] at hentry
  split_ifs at hentry with hkey
  · obtain ⟨-, hkey⟩ := hkey
    obtain rfl : ['a'] = key := Option.some.inj hkey
    refine ⟨⟨⟨"127.0.0.1".toList, 9001, .up⟩, ?_, ?_, rfl, ?_⟩, rfl, nofun⟩ <;> decide +kernel
  · cases hentry

/-- The sync of `a` to 9003 never gets there. -/
def syncLost (addr : Addr) (req : Request) : CallOutcome :=
  if addr = localAddr 9003 ∧ req = clientPost (syncRoot ++ ['a']) ['x'] then .unreached
  else .answered

/-- One lost sync leaves the backend without a value of the other owner, and UP. -/
theorem promoted_unsynced :
    ∃ r' servers', checkBackend (flakyClient syncLost) Router.getOnlineBackends
        (without9003, missedPut) down9003 = .ok (r', servers')
      ∧ r'.statusOf 9003 = some .up
      ∧ CoOwned r' down9003 servers' ['a'] ['x'] (localAddr 9001)
      ∧ servers'.entry down9003.addr ['a'] = none := by
  refine ⟨_, _, rfl, ?_, ⟨?_, ?_, ⟨_, rfl, ⟨⟨"127.0.0.1".toList, 9003, .up⟩, ?_, rfl⟩,
    ⟨"127.0.0.1".toList, 9001, .up⟩, ?_, rfl⟩, ?_, ?_, ?_⟩, ?_⟩ <;> decide +kernel

end

end KvStore.Health
