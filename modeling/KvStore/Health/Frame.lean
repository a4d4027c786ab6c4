import KvStore.Health.Promotion
import KvStore.Recovery.Steps

/-!
# What a recovery changes

`recover` between servers of which any call can fail, while no client writes. It changes nothing but
the keys of the recovered backend that the ring gives it, stores there what another owner has, and
does so in the same way when it is run again.

* `recover_stores`: the entries after a recovery, whichever calls fail.
* `ends_stores`: the same for one that throws.
* `recover_frame`: what is not changed, and what is stored.
-/

namespace KvStore.Health
open KvStore.Lib KvStore.Ring KvStore.Http KvStore.Server KvStore.Recovery

/-- The value that a peer returns for a key, and nothing if the call fails. -/
def answeredValue (outcome : Addr → Request → CallOutcome) (servers : Fleet) (key : Str)
    (peer : Backend) : Str :=
  if outcome peer.addr (clientGet (keyPath key)) = .answered then
    (servers.entry peer.addr key).getD []
  else []

/-- The value that `recover` finds: the first that is not empty. -/
def foundValue (outcome : Addr → Request → CallOutcome) (servers : Fleet) (recovered : Backend)
    (replicas : List Backend) (key : Str) : Str :=
  (((replicas.filter fun b => b.port ≠ recovered.port).map
    (answeredValue outcome servers key)).find? (· ≠ [])).getD []

/-- A key is listed: some backend that is asked has it and answers. -/
def Listed (outcome : Addr → Request → CallOutcome) (servers : Fleet) (recovered : Backend)
    (active : List Backend) (key : Str) : Prop :=
  ∃ node ∈ active, node.port ≠ recovered.port
    ∧ outcome node.addr (clientGet allKeysPath) = .answered ∧ servers.entry node.addr key ≠ none

instance (outcome : Addr → Request → CallOutcome) (servers : Fleet) (recovered : Backend)
    (active : List Backend) (key : Str) : Decidable (Listed outcome servers recovered active key) :=
  inferInstanceAs (Decidable (∃ node ∈ active, _))

section
variable [StdHash]

/-- The value that is stored for a key when `recover` looks at it: what it finds, if the recovered
    backend owns the key and the sync reaches it. -/
def syncedValue (outcome : Addr → Request → CallOutcome) (r : Router) (recovered : Backend)
    (servers : Fleet) (key : Str) : Option Str :=
  let replicas := r.hashRing.getNodes key 2
  let value := foundValue outcome servers recovered replicas key
  if (replicas.any fun b => b.port = recovered.port) ∧ value ≠ []
      ∧ outcome recovered.addr (clientPost (syncRoot ++ key) value) ≠ .unreached then
    some value
  else none

/-- What `recover` stores for each key. -/
def stores (outcome : Addr → Request → CallOutcome) (r : Router) (active : List Backend)
    (recovered : Backend) (servers : Fleet) (key : Str) : Option Str :=
  if Listed outcome servers recovered active key then
    syncedValue outcome r recovered servers key
  else none

end

variable (outcome : Addr → Request → CallOutcome) {servers servers' : Fleet} {recovered : Backend}
  {key : Str}

/-- What is found does not depend on what the recovered backend holds. -/
lemma foundValue_congr (h : ∀ a ≠ recovered.addr, ∀ k, servers'.entry a k = servers.entry a k)
    (replicas : List Backend) (key : Str) : foundValue outcome servers' recovered replicas key
      = foundValue outcome servers recovered replicas key := by
  refine firstValue_congr (fun b hp => ?_) replicas
  rw [answeredValue, answeredValue, h b.addr fun he => hp (congrArg Prod.snd he)]

section
variable (h : servers.Coherent) (hword : isWord key = true) (hne : key ≠ "allkeys".toList)
include h hword hne

/-- What is fetched from a peer is what it answers. -/
lemma fetchValueFromPeer_answered (peer : Backend) :
    (fetchValueFromPeer (flakyClient outcome) peer key servers).1
      = answeredValue outcome servers key peer := by
  obtain ⟨hvalue, -, -⟩ := flaky_get outcome h peer key
  rw [clientPath_eq_self (isPlain_of_isWord hword), KvServer.shown, if_neg hne, if_pos hword]
    at hvalue
  exact hvalue

/-- The value that is found, whichever calls fail. -/
lemma fetchSource_found (recovered : Backend) (replicas : List Backend) :
    (fetchSource (flakyClient outcome) recovered key replicas servers).1
      = foundValue outcome servers recovered replicas key := by
  refine (fetchSource_of_values
    (P := fun w => Fleet.entry w = servers.entry ∧ Fleet.Coherent w) (fun w peer hw => ?_) recovered
    replicas ⟨rfl, h⟩).1
  obtain ⟨-, hentry, hcoh⟩ := flaky_get outcome hw.2 peer key
  refine ⟨?_, hentry.trans hw.1, hcoh⟩
  rw [fetchValueFromPeer_answered outcome hw.2 hword hne, answeredValue, answeredValue, hw.1]

/-- The entries after a key has been looked at. -/
lemma copyKey_synced [StdHash] {r : Router} (hring : r.hashRing.empty = false)
    (recovered : Backend) :
    ∃ servers', copyKey (flakyClient outcome) r recovered servers key = .ok servers'
      ∧ servers'.Coherent
      ∧ ∀ a k, servers'.entry a k = if a = recovered.addr ∧ k = key then
          (syncedValue outcome r recovered servers key).or (servers.entry a k)
        else servers.entry a k := by
  obtain ⟨hentry, hcoh⟩ :=
    fetchSource_flaky outcome h recovered key (r.hashRing.getNodes key 2)
  simp only [copyKey, getBackendsForKey_ok.2 ⟨hring, rfl⟩, syncedValue,
    fetchSource_found outcome h hword hne]
  by_cases hown : (r.hashRing.getNodes key 2).any fun b => b.port = recovered.port
  · simp only [hown, if_true, true_and]
    by_cases hv : foundValue outcome servers recovered (r.hashRing.getNodes key 2) key = []
    · refine ⟨_, if_neg (not_not.2 hv), hcoh, fun a k => ?_⟩
      simp [hv, hentry]
    · refine ⟨_, if_pos hv, coherent_flaky outcome hcoh _ _, fun a k => ?_⟩
      rw [flaky_sync, hentry, clientPath_eq_self (isPlain_of_isWord hword), hword]
      by_cases hr : outcome recovered.addr (clientPost (syncRoot ++ key)
          (foundValue outcome servers recovered (r.hashRing.getNodes key 2) key)) = .unreached
      · simp [hr]
      · simp [hr, hv]
  · refine ⟨_, if_neg hown, h, fun a k => ?_⟩
    simp [hown]

end

/-- What is stored does not depend on what the recovered backend holds. -/
lemma syncedValue_congr [StdHash]
    (h : ∀ a ≠ recovered.addr, ∀ k, servers'.entry a k = servers.entry a k) (r : Router)
    (key : Str) : syncedValue outcome r recovered servers' key
      = syncedValue outcome r recovered servers key := by
  simp only [syncedValue, foundValue_congr outcome h]

/-- Which keys are listed depends neither on the recovered backend nor on the order of the others.
    -/
lemma listed_congr (h : ∀ a ≠ recovered.addr, ∀ k, servers'.entry a k = servers.entry a k)
    {active active' : List Backend} (hperm : active'.Perm active) (key : Str) :
    Listed outcome servers' recovered active' key ↔ Listed outcome servers recovered active key := by
  refine exists_congr fun node => and_congr hperm.mem_iff (and_congr_right fun hp => ?_)
  rw [h node.addr fun he => hp (congrArg Prod.snd he)]

section
variable [StdHash] {r : Router}

/-- The entries after some keys have been looked at. -/
lemma copyKeys_synced (hring : r.hashRing.empty = false) (recovered : Backend) {keys : List Str}
    (hwords : ∀ key ∈ keys, isWord key = true ∧ key ≠ "allkeys".toList) (h : servers.Coherent) :
    ∃ servers', keys.foldlM (copyKey (flakyClient outcome) r recovered) servers = .ok servers'
      ∧ servers'.Coherent
      ∧ ∀ a k, servers'.entry a k = if a = recovered.addr ∧ k ∈ keys then
          (syncedValue outcome r recovered servers k).or (servers.entry a k)
        else servers.entry a k := by
  refine copyKeys_of_copyKey (fun h => syncedValue_congr outcome h r) (fun h hp => ?_) hwords h
  exact copyKey_synced outcome h hp.1 hp.2 hring recovered

/-- The entries after a recovery, whichever calls fail. -/
lemma recover_stores (hring : r.hashRing.empty = false) (h : servers.Coherent)
    (hwords : ∀ a ≠ recovered.addr, ∀ k, servers.entry a k ≠ none →
      isWord k = true ∧ k ≠ "allkeys".toList) (active : List Backend) :
    ∃ servers', recover (flakyClient outcome) r active recovered servers = .ok servers'
      ∧ servers'.Coherent
      ∧ ∀ a k, servers'.entry a k = if a = recovered.addr then
          (stores outcome r active recovered servers k).or (servers.entry a k)
        else servers.entry a k := by
  obtain ⟨hsame, hkeys⟩ := collectKeys_flaky outcome servers recovered active .empty
  have hlisted (k : Str) : k ∈ (collectKeys (flakyClient outcome) recovered active .empty
      servers).1.keys ↔ Listed outcome servers recovered active k := by
    rw [hkeys]
    have hempty : k ∉ (OrdMap.empty : OrdMap Str Unit).keys := List.not_mem_nil
    rw [or_iff_right hempty]
    refine exists_congr fun node => and_congr_right fun _ => and_congr_right fun hp =>
      and_congr_right fun _ => ?_
    have haddr : node.addr ≠ recovered.addr := fun he => hp (congrArg Prod.snd he)
    have hlines : keyLines (servers node.addr) = (servers node.addr).table.keys := by
      refine listedKeys_of_words fun key hkey => ?_
      exact (hwords node.addr haddr key (OrdMap.mem_keys_iff_ne_none.1 hkey)).1
    rw [hlines, OrdMap.mem_keys_iff_ne_none]
    rfl
  have hcollected : ∀ k ∈ (collectKeys (flakyClient outcome) recovered active .empty
      servers).1.keys, isWord k = true ∧ k ≠ "allkeys".toList := by
    intro k hk
    obtain ⟨node, -, hp, -, he⟩ := (hlisted k).1 hk
    exact hwords node.addr (fun ha => hp (congrArg Prod.snd ha)) k he
  obtain ⟨servers', hcs, hcoh, hentry⟩ :=
    copyKeys_synced outcome hring recovered hcollected h
  refine ⟨servers', ?_, hcoh, fun a k => ?_⟩
  · rw [recover_eq, hsame, hcs]
  · simp only [hentry, stores, hlisted]
    by_cases ha : a = recovered.addr
    · by_cases hk : Listed outcome servers recovered active k
      · rw [if_pos ⟨ha, hk⟩, if_pos ha, if_pos hk]
      · rw [if_neg fun hc => hk hc.2, if_pos ha, if_neg hk, Option.none_or]
    · rw [if_neg fun hc => ha hc.1, if_neg ha]

/-- The entries after a recovery that may throw: nothing is stored on an empty ring. -/
lemma ends_stores (r : Router) (h : servers.Coherent)
    (hwords : ∀ a ≠ recovered.addr, ∀ k, servers.entry a k ≠ none →
      isWord k = true ∧ k ≠ "allkeys".toList) (active : List Backend) :
    ∃ servers', Ends (flakyClient outcome) r recovered active servers servers'
      ∧ (r.hashRing.empty = false →
        recover (flakyClient outcome) r active recovered servers = .ok servers')
      ∧ servers'.Coherent
      ∧ ∀ a k, servers'.entry a k = if a = recovered.addr then
          (stores outcome r active recovered servers k).or (servers.entry a k)
        else servers.entry a k := by
  cases hring : r.hashRing.empty with
  | false =>
    obtain ⟨servers', hrecover, hcoh, hentry⟩ := recover_stores outcome hring h hwords active
    exact ⟨servers', .inl hrecover, fun _ => hrecover, hcoh, hentry⟩
  | true =>
    have hends : Ends (flakyClient outcome) r recovered active servers _ :=
      ends_of_empty hring active servers
    rw [(collectKeys_flaky outcome servers recovered active .empty).1] at hends
    refine ⟨servers, hends, nofun, h, fun a k => ?_⟩
    have hnodes : r.hashRing.getNodes k 2 = [] := if_pos hring
    have hnone : stores outcome r active recovered servers k = none := by
      simp [stores, syncedValue, hnodes]
    rw [hnone, Option.none_or, ite_self]

/-- What is stored is not empty, and another owner of the key has it. -/
lemma stores_spec {active : List Backend} {value : Str}
    (hs : stores outcome r active recovered servers key = some value) :
    value ≠ [] ∧ ∃ replicas, r.getBackendsForKey key 2 = .ok replicas
      ∧ (∃ x ∈ replicas, x.port = recovered.port)
      ∧ ∃ y ∈ replicas, y.port ≠ recovered.port ∧ servers.entry y.addr key = some value := by
  unfold stores at hs
  split_ifs at hs
  simp only [syncedValue] at hs
  split_ifs at hs with hc
  obtain ⟨hown, hne, -⟩ := hc
  obtain ⟨x, hx, hxp⟩ := List.any_eq_true.1 hown
  have hring : r.hashRing.empty = false := by
    obtain ⟨pos, hpos⟩ := mem_getNodes hx
    exact empty_of_find hpos
  obtain rfl := Option.some.inj hs
  refine ⟨hne, _, getBackendsForKey_ok.2 ⟨hring, rfl⟩, ⟨x, hx, of_decide_eq_true hxp⟩, ?_⟩
  unfold foundValue at hne ⊢
  cases hf : ((((r.hashRing.getNodes key 2).filter fun b => b.port ≠ recovered.port).map
      (answeredValue outcome servers key)).find? (· ≠ [])) with
  | none =>
    rw [hf] at hne
    exact absurd rfl hne
  | some value =>
    rw [hf, Option.getD_some] at hne
    obtain ⟨y, hy, hvalue⟩ := List.mem_map.1 (List.mem_of_find?_eq_some hf)
    obtain ⟨hymem, hyp⟩ := List.mem_filter.1 hy
    refine ⟨y, hymem, of_decide_eq_true hyp, ?_⟩
    unfold answeredValue at hvalue
    split_ifs at hvalue
    · cases he : servers.entry y.addr key with
      | none =>
        rw [he] at hvalue
        exact absurd hvalue.symm hne
      | some v =>
        rw [he] at hvalue
        exact congrArg some hvalue
    · exact absurd hvalue.symm hne

/-- A recovery of a backend that has just been marked RECOVERING, whichever calls fail: no other
    table changes; in its own table the keys that are stored change, and no key is removed; what is
    stored for a key is not empty, and the value of another backend that owns the key together with
    the recovered one; and a second recovery with the same calls failing changes nothing. It returns
    if backends have virtual nodes. -/
theorem recover_frame {backends : List Backend} {vnodes : ℕ}
    (hr : Router.Reachable backends vnodes r)
    (hx : ∃ b ∈ r.getAllBackends, b.addr = recovered.addr) (h : servers.Coherent)
    (hwords : servers.WordKeys) {active active' : List Backend} (hperm : active'.Perm active) :
    let r' := r.markBackendRecovering recovered.port
    let stored := stores outcome r' active recovered servers
    ∃ servers', Ends (flakyClient outcome) r' recovered active servers servers'
      ∧ (0 < vnodes → recover (flakyClient outcome) r' active recovered servers = .ok servers')
      ∧ (∀ a ≠ recovered.addr, (servers' a).table = (servers a).table)
      ∧ (∀ key, servers'.entry recovered.addr key
          = (stored key).or (servers.entry recovered.addr key))
      ∧ (∀ key value, stored key = some value → value ≠ []
          ∧ ∃ replicas, r'.getBackendsForKey key 2 = .ok replicas
            ∧ (∃ x ∈ replicas, x.port = recovered.port
              ∧ ((∀ b ∈ backends, b.port = recovered.port → b.addr = recovered.addr) →
                x.addr = recovered.addr))
            ∧ ∃ y ∈ replicas, y.addr ≠ recovered.addr
              ∧ servers.entry y.addr key = some value)
      ∧ ∃ servers'', Ends (flakyClient outcome) r' recovered active' servers' servers''
        ∧ ∀ a, (servers'' a).table = (servers' a).table := by
  intro r' stored
  have hr' : Router.Reachable backends vnodes r' := .mark .recovering recovered.port hr
  have hring (hv : 0 < vnodes) : r'.hashRing.empty = false := by
    obtain ⟨b, hb, hba⟩ := hx
    have hself := find_of_mem_getAllBackends hr.configured.port_eq hb
    have hmark : r.markBackendRecovering b.port = r' := by
      rw [show b.port = recovered.port from congrArg Prod.snd hba]
    exact (promoted_ring hself (hr.configured.numVnodes ▸ hv) hmark rfl).1
  have htable {servers servers' : Fleet} {a : Addr}
      (he : ∀ key, servers'.entry a key = servers.entry a key) :
      (servers' a).table = (servers a).table := OrdMap.ext_find he
  obtain ⟨servers', hends, hreturns, hcoh, hentry⟩ :=
    ends_stores outcome r' h (fun a _ k => hwords a k) active
  have hother : ∀ a ≠ recovered.addr, ∀ k, servers'.entry a k = servers.entry a k :=
    fun a ha k => by rw [hentry, if_neg ha]
  refine ⟨servers', hends, fun hv => hreturns (hring hv), fun a ha => htable (hother a ha),
    fun key => ?_, fun key value hs => ?_, ?_⟩
  · rw [hentry, if_pos rfl]
  · obtain ⟨hne, replicas, hok, ⟨x, hxmem, hxp⟩, y, hy, hyp, hvalue⟩ := stores_spec outcome hs
    refine ⟨hne, replicas, hok, ⟨x, hxmem, hxp, fun hunique => ?_⟩, y, hy,
      fun ha => hyp (congrArg Prod.snd ha), hvalue⟩
    rw [← (getBackendsForKey_ok.1 hok).2] at hxmem
    obtain ⟨pos, hpos⟩ := mem_getNodes hxmem
    obtain ⟨c, hc, hcx⟩ := hr'.known hpos
    rw [← hcx]
    exact hunique c hc ((congrArg Prod.snd hcx).trans hxp)
  · obtain ⟨servers'', hends', -, -, hentry'⟩ :=
      ends_stores outcome r' hcoh (fun a ha k => by rw [hother a ha]; exact hwords a k) active'
    refine ⟨servers'', hends', fun a => htable fun key => ?_⟩
    have hstores : stores outcome r' active' recovered servers' key = stored key := by
      simp only [stored, stores, listed_congr outcome hother hperm,
        syncedValue_congr outcome hother r' key]
    rw [hentry', hstores]
    split_ifs with ha
    · rw [hentry, if_pos ha, ← Option.or_assoc, Option.or_self]
    · rfl

end

section
attribute [local instance] djb2

/-- If all calls are answered, a backend that missed a PUT stores the value that the other owner
    has. -/
theorem recover_frame_missedPut :
    let r' := without9003.markBackendRecovering 9003
    ∃ servers', recover (flakyClient fun _ _ => .answered) r' r'.getOnlineBackends down9003 missedPut
        = .ok servers'
      ∧ (∀ a ≠ localAddr 9003, (servers' a).table = (missedPut a).table)
      ∧ servers'.entry (localAddr 9003) ['a'] = some ['x'] := by
  intro r'
  have hwords : missedPut.WordKeys := wordKeys_servedWrites (by decide)
  have hx : ∃ b ∈ without9003.getAllBackends, b.addr = down9003.addr :=
    ⟨down9003, by decide +kernel, rfl⟩
  obtain ⟨servers', -, hreturns, hothers, hstored, -⟩ :=
    recover_frame (fun _ _ => .answered) reachable_without9003 hx (coherent_servedWrites _) hwords
      (List.Perm.refl r'.getOnlineBackends)
  refine ⟨servers', hreturns Nat.zero_lt_one, hothers, (hstored ['a']).trans ?_⟩
  decide +kernel

end

end KvStore.Health
