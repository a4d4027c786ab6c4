import KvStore.Lib.Run
import KvStore.Ring.Agreement
import KvStore.Server.Fleet

/-!
# Recovery

`RecoveryManager.cpp`: what `recover` does for a backend that is RECOVERING. It lists the keys of
all backends that are UP and copies the value of each key that the recovered backend owns from
another owner. It copies non-empty values only and never deletes anything.

* `Keeps.recover`: what `recover` keeps, because its calls do.
* `recover_entry`: the entries after an undisturbed recovery whose calls all succeed.
* `recover_copies`: what this means for a key and its two owners.
* `recover_disagrees`: a key that was deleted in the meantime stays.
-/

namespace KvStore.Recovery
open KvStore.Lib KvStore.Ring KvStore.Server

variable {σ : Type*}

/-- The keys that an answer lists. -/
def listedKeys (res : Option Response) : List Str := (getlines (okBody res)).filter (· ≠ [])

/-- `fetchAllKeysFromNode`. -/
def fetchAllKeysFromNode (client : HttpClient σ) (backend : Backend) (w : σ) : List Str × σ :=
  let res := client.call backend.addr (clientGet allKeysPath) w
  (listedKeys res.1, res.2)

/-- `fetchValueFromPeer`. -/
def fetchValueFromPeer (client : HttpClient σ) (peer : Backend) (key : Str) (w : σ) : Str × σ :=
  let res := client.call peer.addr (clientGet (keyPath key)) w
  (okBody res.1, res.2)

/-- `writeValueToRecoveredNode`. -/
def writeValueToRecoveredNode (client : HttpClient σ) (target : Backend) (key value : Str) (w : σ) :
    Bool × σ :=
  let res := client.call target.addr (clientPost (syncRoot ++ key) value) w
  (res.1.any fun res => res.status = 200 || res.status = 201, res.2)

/-- A set of keys with some keys added. -/
def insertKeys (keyspace : OrdMap Str Unit) (keys : List Str) : OrdMap Str Unit :=
  keys.foldl (fun keyspace key => keyspace.insert key ()) keyspace

/-- The first loop of `recover`: collect the keys of the active backends. -/
def collectKeys (client : HttpClient σ) (recovered : Backend) :
    List Backend → OrdMap Str Unit → σ → OrdMap Str Unit × σ
  | [], keyspace, w => (keyspace, w)
  | node :: nodes, keyspace, w =>
    if node.port = recovered.port then collectKeys client recovered nodes keyspace w
    else
      let fetched := fetchAllKeysFromNode client node w
      collectKeys client recovered nodes (insertKeys keyspace fetched.1) fetched.2

/-- The inner loop of `recover`: ask the other replicas for a value. -/
def fetchSource (client : HttpClient σ) (recovered : Backend) (key : Str) :
    List Backend → σ → Str × σ
  | [], w => ([], w)
  | replica :: replicas, w =>
    if replica.port = recovered.port then fetchSource client recovered key replicas w
    else
      let fetched := fetchValueFromPeer client replica key w
      if fetched.1 ≠ [] then fetched else fetchSource client recovered key replicas fetched.2

section
variable [StdHash]

/-- One round of the second loop of `recover`. -/
def copyKey (client : HttpClient σ) (r : Router) (recovered : Backend) (w : σ) (key : Str) :
    Except Str σ :=
  match r.getBackendsForKey key 2 with
  | .error what => .error what
  | .ok targetReplicas =>
    if targetReplicas.any fun replica => replica.port = recovered.port then
      let source := fetchSource client recovered key targetReplicas w
      if source.1 ≠ [] then
        .ok (writeValueToRecoveredNode client recovered key source.1 source.2).2
      else .ok source.2
    else .ok w

/-- `recover`, with what `getOnlineBackends` has returned: a map without order. -/
def recover (client : HttpClient σ) (r : Router) (activeBackends : List Backend)
    (recovered : Backend) (w : σ) : Except Str σ :=
  let collected := collectKeys client recovered activeBackends .empty w
  if collected.1.isEmpty then .ok collected.2
  else collected.1.keys.foldlM (copyKey client r recovered) collected.2

/-- A recovery without keys is one that looks at none. -/
lemma recover_eq (client : HttpClient σ) (r : Router) (activeBackends : List Backend)
    (recovered : Backend) (w : σ) : recover client r activeBackends recovered w
      = (collectKeys client recovered activeBackends .empty w).1.keys.foldlM
          (copyKey client r recovered) (collectKeys client recovered activeBackends .empty w).2 := by
  unfold recover
  dsimp only
  split_ifs with hempty
  · rw [OrdMap.keys, List.isEmpty_iff.1 hempty]
    rfl
  · rfl

/-- Only an empty ring makes `recover` throw. -/
lemma recover_returns {r : Router} (hring : r.hashRing.empty = false) (client : HttpClient σ)
    (activeBackends : List Backend) (recovered : Backend) (w : σ) :
    ∃ w', recover client r activeBackends recovered w = .ok w' := by
  have hkey (w : σ) (key : Str) : ∃ w', copyKey client r recovered w key = .ok w' := by
    simp only [copyKey, getBackendsForKey_ok.2 ⟨hring, rfl⟩]
    split_ifs <;> exact ⟨_, rfl⟩
  have hkeys : ∀ (keys : List Str) (w : σ),
      ∃ w', keys.foldlM (copyKey client r recovered) w = .ok w' := by
    intro keys
    induction keys with
    | nil => exact fun w => ⟨w, rfl⟩
    | cons key keys ih =>
      intro w
      obtain ⟨w₁, hw₁⟩ := hkey w key
      obtain ⟨w', hw'⟩ := ih w₁
      refine ⟨w', ?_⟩
      rw [List.foldlM_cons, hw₁]
      exact hw'
  rw [recover_eq]
  exact hkeys _ _

end

/-- The calls of `recover` keep `P`: those that fetch, and those that sync what has been fetched. -/
structure Keeps (client : HttpClient σ) (P : σ → Prop) (Fetched : Str → Str → Prop) : Prop where
  get : ∀ addr path w, P w → P (client.call addr (clientGet path) w).2
  fetched : ∀ addr key w, P w →
    Fetched key (okBody (client.call addr (clientGet (keyPath key)) w).1)
  sync : ∀ addr key value w, P w → Fetched key value →
    P (client.call addr (clientPost (syncRoot ++ key) value) w).2

section
variable {client : HttpClient σ} {P : σ → Prop} {Fetched : Str → Str → Prop} {w w' : σ}

/-- What a call keeps, collecting the keys keeps, -/
lemma Keeps.collectKeys (h : Keeps client P Fetched) (recovered : Backend) (nodes : List Backend)
    (keyspace : OrdMap Str Unit) (hw : P w) :
    P (collectKeys client recovered nodes keyspace w).2 := by
  induction nodes generalizing keyspace w with
  | nil => exact hw
  | cons node nodes ih =>
    rw [Recovery.collectKeys]
    split_ifs
    · exact ih keyspace hw
    · exact ih _ (h.get _ _ w hw)

/-- fetching a value, -/
lemma Keeps.fetchSource (h : Keeps client P Fetched) (recovered : Backend) (key : Str)
    (replicas : List Backend) (hw : P w) :
    P (fetchSource client recovered key replicas w).2
      ∧ ((fetchSource client recovered key replicas w).1 ≠ [] →
        Fetched key (fetchSource client recovered key replicas w).1) := by
  induction replicas generalizing w with
  | nil => exact ⟨hw, fun hne => absurd rfl hne⟩
  | cons replica replicas ih =>
    rw [Recovery.fetchSource]
    have hget := h.get replica.addr (keyPath key) w hw
    split_ifs with hp
    · exact ih hw
    · dsimp only
      split_ifs
      · exact ⟨hget, fun _ => h.fetched replica.addr key w hw⟩
      · exact ih hget

variable [StdHash] {r : Router} {recovered : Backend}

/-- and copying a key. -/
lemma Keeps.copyKey (h : Keeps client P Fetched) {key : Str} (hw : P w)
    (hr : copyKey client r recovered w key = .ok w') : P w' := by
  unfold Recovery.copyKey at hr
  cases hreplicas : r.getBackendsForKey key 2 with
  | error what =>
    rw [hreplicas] at hr
    cases hr
  | ok replicas =>
    obtain ⟨hsource, hfetched⟩ := h.fetchSource recovered key replicas hw
    simp only [hreplicas] at hr
    split_ifs at hr with hown hne
    · obtain rfl := Except.ok.inj hr
      exact h.sync _ _ _ _ hsource (hfetched hne)
    · obtain rfl := Except.ok.inj hr
      exact hsource
    · obtain rfl := Except.ok.inj hr
      exact hw

/-- What the calls of `recover` keep, `recover` keeps. -/
lemma Keeps.recover (h : Keeps client P Fetched) {activeBackends : List Backend} (hw : P w)
    (hr : recover client r activeBackends recovered w = .ok w') : P w' := by
  rw [recover_eq] at hr
  exact foldlM_invariant (fun hw hr => h.copyKey hw hr) hr
    (h.collectKeys recovered activeBackends .empty hw)

end

/-- Which keys there are after a list has been added. -/
lemma find_insertKeys (keyspace : OrdMap Str Unit) (keys : List Str) (k : Str) :
    k ∈ (insertKeys keyspace keys).keys ↔ k ∈ keys ∨ k ∈ keyspace.keys := by
  induction keys generalizing keyspace with
  | nil => simp [insertKeys]
  | cons key keys ih =>
    have hinsert : k ∈ (keyspace.insert key ()).keys ↔ k = key ∨ k ∈ keyspace.keys := by
      by_cases hk : key = k
      · subst hk
        simp [OrdMap.mem_keys_iff_ne_none]
      · simp [OrdMap.mem_keys_iff_ne_none, OrdMap.find_insert_ne _ hk, Ne.symm hk]
    rw [insertKeys, List.foldl_cons, ← insertKeys, ih, hinsert, List.mem_cons]
    tauto

/-- The keys that are collected, if listing them changes nothing. -/
lemma collectKeys_of_lines {client : HttpClient σ} {w : σ} {lines : Backend → List Str}
    (h : ∀ node, fetchAllKeysFromNode client node w = (lines node, w)) (recovered : Backend)
    (nodes : List Backend) (keyspace : OrdMap Str Unit) :
    (collectKeys client recovered nodes keyspace w).2 = w
      ∧ ∀ k, k ∈ (collectKeys client recovered nodes keyspace w).1.keys
        ↔ k ∈ keyspace.keys ∨ ∃ node ∈ nodes, node.port ≠ recovered.port ∧ k ∈ lines node := by
  induction nodes generalizing keyspace with
  | nil => simp [collectKeys]
  | cons node nodes ih =>
    rw [collectKeys]
    by_cases hp : node.port = recovered.port
    · rw [if_pos hp]
      refine ⟨(ih keyspace).1, fun k => ((ih keyspace).2 k).trans ?_⟩
      simp [hp]
    · simp only [if_neg hp, h]
      refine ⟨(ih _).1, fun k => ((ih _).2 k).trans ?_⟩
      rw [find_insertKeys]
      simp only [List.mem_cons, exists_eq_or_imp, ne_eq, hp, not_false_eq_true, true_and]
      tauto

/-- The first value that is not empty, among those of the other replicas. -/
lemma firstValue_cons (value : Backend → Str) (recovered b : Backend) (replicas : List Backend) :
    (((((b :: replicas).filter fun b => b.port ≠ recovered.port).map value).find?
        (· ≠ [])).getD [])
      = if b.port = recovered.port then
          (((replicas.filter fun b => b.port ≠ recovered.port).map value).find? (· ≠ [])).getD []
        else if value b ≠ [] then value b
        else (((replicas.filter fun b => b.port ≠ recovered.port).map value).find?
          (· ≠ [])).getD [] := by
  by_cases hp : b.port = recovered.port
  · simp [hp]
  · by_cases he : value b = []
    · simp [hp, he]
    · simp [hp, he]

/-- The value of the recovered backend does not matter. -/
lemma firstValue_congr {value value' : Backend → Str} {recovered : Backend}
    (h : ∀ b, b.port ≠ recovered.port → value' b = value b) (replicas : List Backend) :
    (((replicas.filter fun b => b.port ≠ recovered.port).map value').find? (· ≠ [])).getD []
      = (((replicas.filter fun b => b.port ≠ recovered.port).map value).find? (· ≠ [])).getD [] := by
  rw [List.map_congr_left fun b hb => h b (of_decide_eq_true (List.mem_filter.1 hb).2)]

/-- The value that is found, if the peers' values are known and asking for them keeps `P`. -/
lemma fetchSource_of_values {client : HttpClient σ} {P : σ → Prop} {value : Backend → Str}
    {key : Str} (h : ∀ w peer, P w → (fetchValueFromPeer client peer key w).1 = value peer
      ∧ P (fetchValueFromPeer client peer key w).2) (recovered : Backend)
    (replicas : List Backend) {w : σ} (hw : P w) :
    (fetchSource client recovered key replicas w).1
        = (((replicas.filter fun b => b.port ≠ recovered.port).map value).find? (· ≠ [])).getD []
      ∧ P (fetchSource client recovered key replicas w).2 := by
  induction replicas generalizing w with
  | nil => exact ⟨rfl, hw⟩
  | cons b replicas ih =>
    rw [fetchSource, firstValue_cons]
    by_cases hp : b.port = recovered.port
    · rw [if_pos hp, if_pos hp]
      exact ih hw
    · obtain ⟨hvalue, hw'⟩ := h w b hw
      simp only [if_neg hp, hvalue]
      split_ifs
      · exact ⟨hvalue, hw'⟩
      · exact ih hw'

/-- The entries after some keys have been looked at, if they are known after one: nothing but the
    entry of this key changes, and only at the recovered backend, whose own entries do not matter
    for what is copied. -/
lemma copyKeys_of_copyKey [StdHash] {client : HttpClient Fleet} {r : Router} {recovered : Backend}
    {copied : Fleet → Str → Option Str} {P : Str → Prop}
    (hcongr : ∀ {servers servers' : Fleet},
      (∀ a ≠ recovered.addr, ∀ k, servers'.entry a k = servers.entry a k) →
      ∀ k, copied servers' k = copied servers k)
    (hkey : ∀ {servers : Fleet} {key}, servers.Coherent → P key →
      ∃ servers', copyKey client r recovered servers key = .ok servers' ∧ servers'.Coherent
        ∧ ∀ a k, servers'.entry a k = if a = recovered.addr ∧ k = key then
            (copied servers key).or (servers.entry a k) else servers.entry a k)
    {keys : List Str} (hkeys : ∀ key ∈ keys, P key) {servers : Fleet} (hcoh : servers.Coherent) :
    ∃ servers', keys.foldlM (copyKey client r recovered) servers = .ok servers'
      ∧ servers'.Coherent
      ∧ ∀ a k, servers'.entry a k = if a = recovered.addr ∧ k ∈ keys then
          (copied servers k).or (servers.entry a k) else servers.entry a k := by
  induction keys generalizing servers with
  | nil => exact ⟨servers, rfl, hcoh, fun a k => by simp⟩
  | cons key keys ih =>
    obtain ⟨hp, hkeys⟩ := List.forall_mem_cons.1 hkeys
    obtain ⟨servers₁, h₁, hcoh₁, hentry₁⟩ := hkey hcoh hp
    obtain ⟨servers', h', hcoh', hentry'⟩ := ih hkeys hcoh₁
    refine ⟨servers', ?_, hcoh', fun a k => ?_⟩
    · rw [List.foldlM_cons, h₁]
      exact h'
    · have hother : ∀ a ≠ recovered.addr, ∀ k, servers₁.entry a k = servers.entry a k :=
        fun a ha k => by rw [hentry₁, if_neg fun h => ha h.1]
      rw [hentry', hcongr hother k, hentry₁]
      by_cases ha : a = recovered.addr
      · by_cases hk : k = key
        · subst hk
          simp only [ha, true_and, if_true, List.mem_cons, true_or]
          split_ifs
          · rw [← Option.or_assoc, Option.or_self]
          · rfl
        · simp [ha, hk]
      · simp [ha]

/-- The value that `recover` finds for a key: the first that is not empty. -/
def sourceValue (servers : Fleet) (recovered : Backend) (replicas : List Backend) (key : Str) :
    Str :=
  (((replicas.filter fun b => b.port ≠ recovered.port).map fun b =>
    (servers.entry b.addr key).getD []).find? (· ≠ [])).getD []

/-- The value that `recover` copies, if it copies the key. -/
def copiedValue [StdHash] (r : Router) (recovered : Backend) (servers : Fleet) (key : Str) :
    Option Str :=
  let replicas := r.hashRing.getNodes key 2
  if (replicas.any fun b => b.port = recovered.port)
      ∧ sourceValue servers recovered replicas key ≠ [] then
    some (sourceValue servers recovered replicas key)
  else none

/-- The value does not depend on what the recovered backend holds. -/
lemma copiedValue_congr [StdHash] {servers servers' : Fleet} {recovered : Backend}
    (h : ∀ a ≠ recovered.addr, ∀ k, servers'.entry a k = servers.entry a k) (r : Router)
    (key : Str) : copiedValue r recovered servers' key = copiedValue r recovered servers key := by
  have hsource (replicas : List Backend) : sourceValue servers' recovered replicas key
      = sourceValue servers recovered replicas key := by
    refine firstValue_congr (fun b hp => ?_) replicas
    rw [h b.addr fun he => hp (congrArg Prod.snd he)]
  simp only [copiedValue, hsource]

section
variable {crashed : Addr → Bool} {servers : Fleet}

/-- The lines of a key list. -/
lemma listedKeys_keyList (rows : List Str) : listedKeys (some (closing.reply 200 (keyList rows)))
    = (getlines (keyList rows)).filter (· ≠ []) := rfl

/-- Words are listed as they are. -/
lemma listedKeys_of_words {rows : List Str} (h : ∀ key ∈ rows, isWord key = true) :
    listedKeys (some (closing.reply 200 (keyList rows))) = rows := by
  have hlines : getlines (keyList rows) = rows :=
    getlines_flatMap fun key hkey => not_mem_of_isWord (h key hkey) rfl
  rw [listedKeys_keyList, hlines, List.filter_eq_self]
  intro key hkey
  exact decide_eq_true (ne_nil_of_isWord (h key hkey))

/-- The keys that are collected, when all calls succeed. -/
lemma collectKeys_eq (hup : ∀ addr, crashed addr = false) (hwords : servers.WordKeys)
    (recovered : Backend) (nodes : List Backend) (keyspace : OrdMap Str Unit) :
    (collectKeys (fleetClient crashed) recovered nodes keyspace servers).2 = servers
      ∧ ∀ k, k ∈ (collectKeys (fleetClient crashed) recovered nodes keyspace servers).1.keys
        ↔ k ∈ keyspace.keys
          ∨ ∃ node ∈ nodes, node.port ≠ recovered.port ∧ servers.entry node.addr k ≠ none := by
  have hlines (node : Backend) : fetchAllKeysFromNode (fleetClient crashed) node servers
      = ((servers node.addr).table.keys, servers) := by
    have hkeys : ∀ key ∈ (servers node.addr).table.keys, isWord key = true := fun key hkey =>
      (hwords node.addr key (OrdMap.mem_keys_iff_ne_none.1 hkey)).1
    simp only [fetchAllKeysFromNode, call_allKeys (hup _), listedKeys_of_words hkeys]
  have h := collectKeys_of_lines hlines recovered nodes keyspace
  simp only [OrdMap.mem_keys_iff_ne_none] at h ⊢
  exact h

variable (hup : ∀ addr, crashed addr = false) (hcoh : servers.Coherent) (recovered : Backend)
  {key : Str} (hword : isWord key = true) (hne : key ≠ "allkeys".toList)
include hup hcoh hword hne

/-- What is fetched from a peer that runs, and that no entry changes. -/
lemma fetchValueFromPeer_eq (peer : Backend) :
    (fetchValueFromPeer (fleetClient crashed) peer key servers).1
        = (servers.entry peer.addr key).getD []
      ∧ Fleet.entry (fetchValueFromPeer (fleetClient crashed) peer key servers).2 = servers.entry
      ∧ Fleet.Coherent (fetchValueFromPeer (fleetClient crashed) peer key servers).2 := by
  obtain ⟨hbody, hentry⟩ := call_get (hup peer.addr) hcoh key
  rw [Http.clientPath_eq_self (isPlain_of_isWord hword), KvServer.shown, if_neg hne,
    if_pos hword] at hbody
  exact ⟨hbody, hentry, hcoh.call crashed _ _⟩

/-- The value that is found, when all calls succeed. -/
lemma fetchSource_eq (replicas : List Backend) :
    (fetchSource (fleetClient crashed) recovered key replicas servers).1
        = sourceValue servers recovered replicas key
      ∧ Fleet.entry (fetchSource (fleetClient crashed) recovered key replicas servers).2
        = servers.entry
      ∧ Fleet.Coherent (fetchSource (fleetClient crashed) recovered key replicas servers).2 := by
  refine fetchSource_of_values
    (P := fun w => Fleet.entry w = servers.entry ∧ Fleet.Coherent w) (fun w peer hw => ?_) recovered
    replicas ⟨rfl, hcoh⟩
  obtain ⟨hvalue, hentry, hcoh'⟩ := fetchValueFromPeer_eq hup hw.2 hword hne peer
  exact ⟨by rw [hvalue, hw.1], hentry.trans hw.1, hcoh'⟩

/-- The entries after a key has been looked at. -/
lemma copyKey_eq [StdHash] {r : Router} (hring : r.hashRing.empty = false) :
    ∃ servers', copyKey (fleetClient crashed) r recovered servers key = .ok servers'
      ∧ servers'.Coherent
      ∧ ∀ a k, servers'.entry a k = if a = recovered.addr ∧ k = key then
          (copiedValue r recovered servers key).or (servers.entry a k) else servers.entry a k := by
  obtain ⟨hsource, hentry, hcoh'⟩ :=
    fetchSource_eq hup hcoh recovered hword hne (r.hashRing.getNodes key 2)
  simp only [copyKey, getBackendsForKey_ok.2 ⟨hring, rfl⟩, copiedValue]
  by_cases hown : (r.hashRing.getNodes key 2).any fun b => b.port = recovered.port
  · simp only [hown, if_true, hsource, true_and]
    by_cases hv : sourceValue servers recovered (r.hashRing.getNodes key 2) key = []
    · refine ⟨_, if_neg (not_not.2 hv), hcoh', fun a k => ?_⟩
      simp [hv, hentry]
    · refine ⟨_, if_pos hv, hcoh'.call crashed _ _, fun a k => ?_⟩
      rw [writeValueToRecoveredNode, call_sync (hup _), hentry,
        Http.clientPath_eq_self (isPlain_of_isWord hword), hword]
      simp [hv]
  · refine ⟨_, if_neg hown, hcoh, fun a k => ?_⟩
    simp [hown]

end

section
variable [StdHash] {crashed : Addr → Bool} {servers : Fleet} {r : Router}

/-- The entries after some keys have been looked at. -/
lemma copyKeys_eq (hup : ∀ addr, crashed addr = false) (hring : r.hashRing.empty = false)
    (recovered : Backend) {keys : List Str}
    (hwords : ∀ key ∈ keys, isWord key = true ∧ key ≠ "allkeys".toList) (hcoh : servers.Coherent) :
    ∃ servers', keys.foldlM (copyKey (fleetClient crashed) r recovered) servers = .ok servers'
      ∧ servers'.Coherent
      ∧ ∀ a k, servers'.entry a k = if a = recovered.addr ∧ k ∈ keys then
          (copiedValue r recovered servers k).or (servers.entry a k) else servers.entry a k := by
  refine copyKeys_of_copyKey (fun h => copiedValue_congr h r) (fun hcoh hp => ?_) hwords hcoh
  exact copyKey_eq hup hcoh recovered hp.1 hp.2 hring

/-- The entries after an undisturbed recovery whose calls all succeed. -/
theorem recover_entry (hup : ∀ addr, crashed addr = false) (hring : r.hashRing.empty = false)
    (hcoh : servers.Coherent) (hwords : servers.WordKeys) (activeBackends : List Backend)
    (recovered : Backend) :
    ∃ servers', recover (fleetClient crashed) r activeBackends recovered servers = .ok servers'
      ∧ servers'.Coherent
      ∧ ∀ a k, servers'.entry a k =
          if a = recovered.addr ∧ ∃ node ∈ activeBackends, node.port ≠ recovered.port
              ∧ servers.entry node.addr k ≠ none then
            (copiedValue r recovered servers k).or (servers.entry a k)
          else servers.entry a k := by
  obtain ⟨hsame, hkeys⟩ := collectKeys_eq hup hwords recovered activeBackends .empty
  have hlisted : ∀ k, k ∈ (collectKeys (fleetClient crashed) recovered activeBackends .empty
      servers).1.keys ↔ ∃ node ∈ activeBackends, node.port ≠ recovered.port
        ∧ servers.entry node.addr k ≠ none :=
    fun k => (hkeys k).trans (by simp [OrdMap.keys, OrdMap.empty])
  have hcollected : ∀ k ∈ (collectKeys (fleetClient crashed) recovered activeBackends .empty
      servers).1.keys, isWord k = true ∧ k ≠ "allkeys".toList := by
    intro k hk
    obtain ⟨node, -, -, he⟩ := (hlisted k).1 hk
    exact hwords node.addr k he
  obtain ⟨servers', h, hcoh', hentry⟩ := copyKeys_eq hup hring recovered hcollected hcoh
  refine ⟨servers', ?_, hcoh', fun a k => ?_⟩
  · rw [recover_eq, hsame, h]
  · rw [hentry]
    simp only [hlisted]

/-- The owners of a key are two nodes, so the other owner is the one that is asked for the value. -/
lemma sourceValue_getNodes (servers : Fleet) {recovered x y : Backend} {key : Str}
    (hx : x ∈ r.hashRing.getNodes key 2) (hxp : x.port = recovered.port)
    (hy : y ∈ r.hashRing.getNodes key 2) (hyp : y.port ≠ recovered.port) :
    sourceValue servers recovered (r.hashRing.getNodes key 2) key
      = (servers.entry y.addr key).getD [] := by
  have hothers :
      (r.hashRing.getNodes key 2).filter (fun b => b.port ≠ recovered.port) = [y] :=
    filter_eq_singleton (length_getNodes_le _ _ _) hx (by simp [hxp]) hy (by simp [hyp])
  rw [sourceValue, hothers, List.map_singleton]
  by_cases h : (servers.entry y.addr key).getD [] = []
  · simp [h]
  · simp [h]

/-- So its value is copied, unless it is empty. -/
lemma copiedValue_getNodes (servers : Fleet) {recovered x y : Backend} {key : Str}
    (hx : x ∈ r.hashRing.getNodes key 2) (hxp : x.port = recovered.port)
    (hy : y ∈ r.hashRing.getNodes key 2) (hyp : y.port ≠ recovered.port) :
    copiedValue r recovered servers key = (servers.entry y.addr key).filter (· ≠ []) := by
  have hown : (r.hashRing.getNodes key 2).any (fun b => b.port = recovered.port) = true :=
    List.any_eq_true.2 ⟨x, hx, decide_eq_true hxp⟩
  simp only [copiedValue, hown, sourceValue_getNodes servers hx hxp hy hyp, true_and]
  cases servers.entry y.addr key with
  | none => rfl
  | some value => simp [Option.filter]

/-- After an undisturbed recovery whose calls all succeed, the recovered backend has the value of
    the other owner of a key, if this is not empty and the key is listed. What the other owner does
    not have stays as it was. -/
theorem recover_copies (hup : ∀ addr, crashed addr = false) (hring : r.hashRing.empty = false)
    (hcoh : servers.Coherent) (hwords : servers.WordKeys) {activeBackends : List Backend}
    (hactive : activeBackends.Perm r.getOnlineBackends) (recovered : Backend) :
    ∃ servers', recover (fleetClient crashed) r activeBackends recovered servers = .ok servers'
      ∧ ∀ key replicas, r.getBackendsForKey key 2 = .ok replicas →
        ∀ x ∈ replicas, x.port = recovered.port → ∀ y ∈ replicas, y.port ≠ recovered.port →
        servers'.entry y.addr key = servers.entry y.addr key
          ∧ (∀ value ≠ [], servers.entry y.addr key = some value →
              (∃ node ∈ r.getOnlineBackends, node.port ≠ recovered.port
                ∧ servers.entry node.addr key ≠ none) →
              servers'.entry recovered.addr key = some value)
          ∧ (servers.entry y.addr key = none →
              servers'.entry recovered.addr key = servers.entry recovered.addr key) := by
  obtain ⟨servers', h, -, hentry⟩ :=
    recover_entry hup hring hcoh hwords activeBackends recovered
  refine ⟨servers', h, ?_⟩
  intro key replicas hreplicas x hx hxp y hy hyp
  obtain ⟨-, rfl⟩ := getBackendsForKey_ok.1 hreplicas
  have hne : y.addr ≠ recovered.addr := fun he => hyp (congrArg Prod.snd he)
  have hcopied := copiedValue_getNodes servers hx hxp hy hyp
  refine ⟨by rw [hentry, if_neg fun h => hne h.1], ?_, ?_⟩
  · rintro value hvalue hy ⟨node, hnode, hnp, hlisted⟩
    rw [hentry, if_pos ⟨rfl, node, hactive.mem_iff.2 hnode, hnp, hlisted⟩, hcopied, hy,
      Option.filter_some, if_pos (decide_eq_true hvalue)]
    rfl
  · intro hy
    rw [hentry, hcopied, hy]
    split_ifs <;> rfl

end

section
attribute [local instance] djb2

/-- The address of one of the initial backends. -/
def localAddr (port : ℤ) : Addr := ("127.0.0.1".toList, port)

/-- Servers that started empty, after some writes. -/
def servedWrites (writes : List (ℤ × Write)) : Fleet :=
  writes.foldl (fun servers e => servers.write (localAddr e.1) e.2) fun _ => .new 10

/-- The router while 9003 recovers. -/
def recovering9003 : Router :=
  ((initialRouter 1).markBackendDown 9003).markBackendRecovering 9003

/-- The backend 9003 as the health checker has it. -/
def down9003 : Backend := ⟨"127.0.0.1".toList, 9003, .down⟩

/-- A key is put to its next owner while 9003 is away. -/
def missedPut : Fleet := servedWrites [(9001, .put (keyPath ['a']) ['x'])]

/-- A key is put to both owners, and deleted while 9003 is away. -/
def missedDelete : Fleet :=
  servedWrites [(9003, .put (keyPath ['a']) ['x']), (9001, .put (keyPath ['a']) ['x']),
    (9001, .delete (keyPath ['a'])), (9002, .delete (keyPath ['a']))]

/-- The caches of these servers are current. -/
lemma coherent_servedWrites (writes : List (ℤ × Write)) : (servedWrites writes).Coherent := by
  unfold servedWrites
  exact List.foldlRecOn writes _ (fun addr => coherent_new 10) fun servers h e _ => h.write _ _

/-- And their keys are words. -/
lemma wordKeys_servedWrites {writes : List (ℤ × Write)}
    (h : ∀ e ∈ writes, e.2.key ≠ some "allkeys".toList) : (servedWrites writes).WordKeys := by
  unfold servedWrites
  refine List.foldlRecOn writes _ (fun addr key he => absurd rfl he) ?_
  exact fun servers hs e he => hs.write _ (h e he)

/-- A backend that missed a PUT gets the value. -/
theorem recover_copies_missedPut :
    ∃ servers', recover (fleetClient noneCrashed) recovering9003
        recovering9003.getOnlineBackends down9003 missedPut = .ok servers'
      ∧ servers'.entry (localAddr 9003) ['a'] = some ['x'] := by
  have hup : ∀ addr, noneCrashed addr = false := fun addr => rfl
  have hring : recovering9003.hashRing.empty = false := by decide +kernel
  have hwords : missedPut.WordKeys := wordKeys_servedWrites (by decide)
  obtain ⟨servers', h, hcopies⟩ :=
    recover_copies hup hring (coherent_servedWrites _) hwords (List.Perm.refl _) down9003
  refine ⟨servers', h, ?_⟩
  obtain ⟨-, hcopied, -⟩ := hcopies ['a'] (recovering9003.hashRing.getNodes ['a'] 2) rfl
    ⟨"127.0.0.1".toList, 9003, .recovering⟩ (by decide +kernel) rfl
    ⟨"127.0.0.1".toList, 9001, .up⟩ (by decide +kernel) (by decide)
  exact hcopied ['x'] (by decide) (by decide +kernel) (by decide +kernel)

/-- The owners of a key do not always agree after a recovery: a key that was deleted in the meantime
    is still there, and a key that no backend lists is not copied. -/
theorem recover_disagrees :
    (∃ servers', recover (fleetClient noneCrashed) recovering9003
        recovering9003.getOnlineBackends down9003 missedDelete = .ok servers'
      ∧ (recovering9003.getBackendsForKey ['a'] 2).toOption.map (List.map Backend.port)
        = some [9003, 9001]
      ∧ servers'.entry (localAddr 9003) ['a'] = some ['x']
      ∧ servers'.entry (localAddr 9001) ['a'] = none)
    ∧ ∃ servers', recover (fleetClient noneCrashed) (recovering9003.markBackendRecovering 9001)
        (recovering9003.markBackendRecovering 9001).getOnlineBackends down9003 missedPut
          = .ok servers'
      ∧ ((recovering9003.markBackendRecovering 9001).getBackendsForKey ['a'] 2).toOption.map
          (List.map Backend.port) = some [9003, 9001]
      ∧ servers'.entry (localAddr 9003) ['a'] = none
      ∧ servers'.entry (localAddr 9001) ['a'] = some ['x'] := by
  refine ⟨⟨_, rfl, ?_, ?_, ?_⟩, _, rfl, ?_, ?_, ?_⟩ <;> decide +kernel

end

end KvStore.Recovery
