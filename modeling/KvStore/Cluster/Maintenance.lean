import KvStore.Cluster.Operation
import KvStore.Lib.Copies

/-!
# Maintenance

Replicas that differ stay as they are while both backends are UP; only a recovery repairs one. A
rolling restart, in which every backend in turn is taken down, noticed, brought back and noticed
again, is a sequence of repairs of the two copies of every key.

* `Healthy.visit`: what the restart of one backend does.
* `Healthy.visits`: so a rolling restart repairs the copies of a key one after the other.
* `rolling_restart_repairs`: after it the owners of every key have the same value, whatever happened
  before.
-/

namespace KvStore.Cluster
open KvStore.Lib KvStore.Ring KvStore.Http KvStore.Server KvStore.Session KvStore.Recovery
  KvStore.Health

/-- The restart of a backend, with the orders in which the two cycles see the backends. -/
structure Visit where
  backend : Backend
  whileDown : (Router → List Backend) × List Backend
  whenBack : (Router → List Backend) × List Backend

/-- It is taken down and brought back, and the health checker notices both. -/
def Visit.actions (v : Visit) : List ClusterAction :=
  [.crash v.backend.addr, .cycle v.whileDown.1 v.whileDown.2,
    .restart v.backend.addr, .cycle v.whenBack.1 v.whenBack.2]

/-- The value of a key at a backend. Recoveries take an empty one for none. -/
def valueAt (servers : Fleet) (b : Backend) (key : Str) : Option Str :=
  (servers.entry b.addr key).filter (· ≠ [])

/-- The two copies of a key. -/
def copies (servers : Fleet) (x y : Backend) (key : Str) (side : Bool) : Option Str :=
  valueAt servers (if side then x else y) key

/-- The copies that are repaired when backends are restarted. -/
def repairs (x y : Backend) (visits : List Visit) : List Bool :=
  visits.filterMap fun v =>
    if v.backend = x then some true else if v.backend = y then some false else none

/-- The repairs begin with the one of the two that is restarted first. -/
lemma repairs_eq {x y : Backend} (hne : x ≠ y) {p : Backend → Bool}
    (hp : ∀ b, p b = true ↔ b = x ∨ b = y) {visits : List Visit}
    (hfirst : (visits.map Visit.backend).find? p = some x) (hy : y ∈ visits.map Visit.backend) :
    ∃ rest, repairs x y visits = true :: rest ∧ false ∈ rest := by
  induction visits with
  | nil => cases hy
  | cons v visits ih =>
    rw [List.map_cons, List.find?_cons] at hfirst
    cases hv : p v.backend with
    | true =>
      rw [hv] at hfirst
      obtain rfl := Option.some.inj hfirst
      refine ⟨repairs v.backend y visits, by simp [repairs], ?_⟩
      obtain ⟨w, hw, rfl⟩ := List.mem_map.1 ((List.mem_cons.1 hy).resolve_left hne.symm)
      exact List.mem_filterMap.2 ⟨w, hw, by simp [hne.symm]⟩
    | false =>
      rw [hv] at hfirst
      obtain ⟨hvx, hvy⟩ := not_or.1 fun h => Bool.false_ne_true (hv.symm.trans ((hp _).2 h))
      obtain ⟨rest, hrest, hfalse⟩ :=
        ih hfirst ((List.mem_cons.1 hy).resolve_left (Ne.symm hvy))
      exact ⟨rest, by simpa [repairs, hvx, hvy] using hrest, hfalse⟩

section
variable [StdHash] {d : Deployment} {lib : HttpLib} {s s' s₁ s₂ : ClusterState} {v : Visit}

/-- All backends run and are UP. -/
structure Healthy (d : Deployment) (s : ClusterState) : Prop where
  router : s.router = d.router
  running : ∀ addr, s.crashed addr = false
  coherent : s.servers.Coherent
  words : s.servers.WordKeys

/-- The restart of one backend repairs its copies and changes nothing else. -/
lemma Healthy.visit (h : Healthy d s) (hv : v.backend ∈ d.backends)
    (hrun : Run (ClusterState.step lib) (Operates lib d) s v.actions s') :
    Healthy d s'
      ∧ (∀ a ≠ v.backend.addr, ∀ key, s'.servers.entry a key = s.servers.entry a key)
      ∧ ∀ key, v.backend ∈ d.owners key → ∀ y ∈ d.owners key, y.addr ≠ v.backend.addr →
        s'.servers.entry v.backend.addr key
          = (valueAt s.servers y key).or (s.servers.entry v.backend.addr key) := by
  obtain ⟨x, ⟨downActive, downOrder⟩, ⟨upActive, upOrder⟩⟩ := v
  obtain ⟨router, servers, crashed, log⟩ := s
  obtain ⟨rfl, hrunning, hcoh, hwords⟩ := h
  dsimp only at hv hrunning hcoh hwords ⊢
  cases hrun with
  | cons _ hcrash hrun =>
  cases hrun with
  | cons hdown hnoticed hrun =>
  cases hrun with
  | cons _ hrestart hrun =>
  cases hrun with
  | cons hup hrecovered hrun =>
  cases hrun with
  | nil =>
  obtain rfl := Option.some.inj hcrash
  -- the first cycle marks the backend DOWN
  have hmarked : d.router = d.marked x .up := (d.marked_up x).symm
  have honly : ∀ addr, Function.update crashed x.addr true addr = true → addr = x.addr := by
    intro addr ha
    by_contra hne
    rw [Function.update_of_ne hne, hrunning] at ha
    cases ha
  have hcycle := healthCycle_crashed hv honly servers downActive (Function.update_self ..)
    (hmarked ▸ hdown.1.1)
  simp only [ClusterState.step, hmarked, hcycle] at hnoticed
  obtain rfl := Option.some.inj hnoticed
  obtain rfl := Option.some.inj hrestart
  -- the second one recovers it
  have hall : ∀ addr, Function.update (Function.update crashed x.addr true) x.addr false addr
      = false := by
    intro addr
    rw [Function.update_idem, Function.update_apply]
    split_ifs
    · rfl
    · exact hrunning addr
  have hnone : ∀ addr, Function.update (Function.update crashed x.addr true) x.addr false addr
      = true → addr = x.addr :=
    fun addr ha => absurd ((hall addr).symm.trans ha) Bool.false_ne_true
  have hentry : Fleet.entry (Function.update servers x.addr (restarted (servers x.addr)))
      = servers.entry := entry_update_of_table rfl
  have hcoh' : Fleet.Coherent (Function.update servers x.addr (restarted (servers x.addr))) :=
    hcoh.update x.addr coherent_restarted
  have hwords' : Fleet.WordKeys (Function.update servers x.addr (restarted (servers x.addr))) :=
    fun a k hk => hwords a k (hentry ▸ hk)
  obtain ⟨servers', hcycle', hcoh'', hwords'', hframe, -, -⟩ :=
    healthCycle_recovers hv hnone _ upActive (hall x.addr) hcoh' hwords' hup.1.2 hup.1.1
  have hrestores {key : Str} (hxo : x ∈ d.owners key) {y : Backend} (hyo : y ∈ d.owners key)
      (hne : y.addr ≠ x.addr) :=
    healthCycle_restores hv hnone _ upActive (hall x.addr) hcoh' hwords' hup.1.2 hup.1.1 hcycle' hxo
      hyo hne
  simp only [ClusterState.step, hcycle'] at hrecovered
  obtain rfl := Option.some.inj hrecovered
  rw [hentry] at hframe
  refine ⟨⟨hmarked.symm, hall, hcoh'', hwords''⟩, hframe, fun key hxo y hyo hne => ?_⟩
  have hnew := hrestores hxo hyo hne
  rwa [hentry] at hnew

omit [StdHash] in
/-- A copy that was repaired. -/
lemma valueAt_repaired {servers servers' : Fleet} {x y : Backend} {key : Str}
    (h : servers'.entry x.addr key = (valueAt servers y key).or (servers.entry x.addr key)) :
    valueAt servers' x key = (valueAt servers y key).or (valueAt servers x key) := by
  rw [valueAt, h]
  cases hy : valueAt servers y key with
  | none => rfl
  | some value =>
    obtain ⟨-, hne⟩ := Option.filter_eq_some_iff.1 hy
    rw [Option.some_or, Option.some_or, Option.filter_some, if_pos hne]

/-- The restart of one backend, as a repair of the copies of a key. -/
lemma Healthy.copies_visit (h : Healthy d s) (hv : v.backend ∈ d.backends)
    (hrun : Run (ClusterState.step lib) (Operates lib d) s v.actions s') {key : Str} {x y : Backend}
    (hx : x ∈ d.owners key) (hy : y ∈ d.owners key) (hne : x.addr ≠ y.addr) :
    copies s'.servers x y key = (repairs x y [v]).foldl repair (copies s.servers x y key) := by
  obtain ⟨-, hframe, hrestores⟩ := h.visit hv hrun
  have hsame {b : Backend} (hb : b.addr ≠ v.backend.addr) :
      valueAt s'.servers b key = valueAt s.servers b key := by
    rw [valueAt, valueAt, hframe b.addr hb]
  have hneq : x ≠ y := fun he => hne (congrArg Backend.addr he)
  funext side
  by_cases hvx : v.backend = x
  · have hrepairs : repairs x y [v] = [true] := by simp [repairs, hvx]
    subst hvx
    rw [hrepairs]
    let c := copies s.servers v.backend y key
    cases side with
    | true =>
      exact (valueAt_repaired (hrestores key hx y hy hne.symm)).trans (repair_self c true).symm
    | false => exact (hsame hne.symm).trans (repair_of_ne Bool.false_ne_true c).symm
  · by_cases hvy : v.backend = y
    · have hrepairs : repairs x y [v] = [false] := by simp [repairs, hvy, hneq.symm]
      subst hvy
      rw [hrepairs]
      let c := copies s.servers x v.backend key
      cases side with
      | true => exact (hsame hne).trans (repair_of_ne Bool.false_ne_true.symm c).symm
      | false =>
        exact (valueAt_repaired (hrestores key hy x hx hne)).trans (repair_self c false).symm
    · have hother {b : Backend} (hb : b ∈ d.owners key) (hvb : v.backend ≠ b) :
          valueAt s'.servers b key = valueAt s.servers b key :=
        hsame fun he => hvb (Deployment.eq_of_addr hv (Deployment.mem_backends_of_mem_owners hb)
          he.symm)
      have hrepairs : repairs x y [v] = [] := by simp [repairs, hvx, hvy]
      rw [hrepairs]
      cases side with
      | true => exact hother hx hvx
      | false => exact hother hy hvy

/-- A rolling restart repairs the copies of a key one after the other. -/
lemma Healthy.visits {visits : List Visit} (h : Healthy d s)
    (hmem : ∀ v ∈ visits, v.backend ∈ d.backends)
    (hrun : Run (ClusterState.step lib) (Operates lib d) s (visits.flatMap Visit.actions) s') :
    Healthy d s'
      ∧ ∀ key, ∀ x ∈ d.owners key, ∀ y ∈ d.owners key, x.addr ≠ y.addr →
        copies s'.servers x y key
          = (repairs x y visits).foldl repair (copies s.servers x y key) := by
  induction visits generalizing s with
  | nil =>
    cases hrun with
    | nil => exact ⟨h, fun _ _ _ _ _ _ => rfl⟩
  | cons v visits ih =>
    obtain ⟨hv, hmem⟩ := List.forall_mem_cons.1 hmem
    rw [List.flatMap_cons] at hrun
    obtain ⟨s₁, hfirst, hrest⟩ := hrun.split
    obtain ⟨hend, hcopies⟩ := ih (h.visit hv hfirst).1 hmem hrest
    refine ⟨hend, fun key x hx y hy hne => ?_⟩
    have hsplit : repairs x y (v :: visits) = repairs x y [v] ++ repairs x y visits :=
      @List.filterMap_append _ _ [v] visits _
    rw [hcopies key x hx y hy hne, h.copies_visit hv hfirst hx hy hne, hsplit, List.foldl_append]

/-- A settled router in which every backend is UP is as the constructor has made it. -/
lemma eq_router_of_up {dir : Directory} {r : Router} (h : Settled d.backends d.vnodes dir r)
    (hup : ∀ b ∈ d.backends, r.statusOf b.port = some .up) : r = d.router := by
  have hdir : dir = .new d.backends := by
    funext port
    refine Option.ext fun b => ?_
    rw [Directory.new_eq_some d.ports]
    constructor
    · intro hb
      obtain ⟨k, hk, hkb, -⟩ := h.exists_of_dir hb
      have hport : k.port = port := (congrArg Prod.snd hkb).trans (h.follows.port_eq hb)
      have hk' := h.dir_eq hk (d.up k hk) (hup k hk)
      rw [hport, hb] at hk'
      obtain rfl := Option.some.inj hk'
      exact ⟨hk, hport⟩
    · rintro ⟨hb, rfl⟩
      exact h.dir_eq hb (d.up b hb) (hup b hb)
  subst hdir
  have hnum : r.hashRing.numVnodes = d.router.hashRing.numVnodes :=
    h.follows.numVnodes.trans d.follows.numVnodes.symm
  refine router_ext hnum (fun pos => Option.ext fun b => ?_) fun port => ?_
  · rw [h.follows.ring, d.follows.ring, HashRing.IsVnode, HashRing.IsVnode, hnum]
  · rw [h.follows.find, d.follows.find]

/-- Backends that are restarted run. -/
lemma crashed_restarts {addrs : List Addr}
    (hrun : Run (ClusterState.step lib) (Operates lib d) s (addrs.map .restart) s') :
    ∀ addr, s'.crashed addr = if addr ∈ addrs then false else s.crashed addr := by
  induction addrs generalizing s with
  | nil =>
    cases hrun with
    | nil => exact fun addr => (if_neg List.not_mem_nil).symm
  | cons a addrs ih =>
    cases hrun with
    | cons _ hstep hrest =>
    obtain rfl := Option.some.inj hstep
    intro addr
    rw [ih hrest addr]
    by_cases ha : addr = a
    · simp [ha]
    · simp [ha]

/-- When all backends have been restarted and the health checker has visited them, all of them are
    UP. -/
lemma healthy_of_returned (hlib : lib.Faithful) (hbounded : lib.Bounded) (h : Operating d s)
    {active : Router → List Backend} {backends : List Backend}
    (hrun : Run (ClusterState.step lib) (Operates lib d) s
      ((d.backends.map Backend.addr).map .restart ++ [.cycle active backends]) s') :
    Healthy d s' := by
  obtain ⟨s₁, hrestarts, hcycle⟩ := hrun.split
  have h₁ := h.run hlib hbounded hrestarts
  have hrunning : ∀ addr, s₁.crashed addr = false := by
    intro addr
    rw [crashed_restarts hrestarts]
    split_ifs with ha
    · rfl
    · exact (Bool.not_eq_true _).mp fun hc => ha (h.crashed addr hc)
  have h' := h.run hlib hbounded hrun
  cases hcycle with
  | cons hok hstep hnil =>
  cases hnil with
  | nil =>
  obtain ⟨r, servers, hs, ⟨dir, hsettled⟩, hstatus⟩ := h₁.cycle lib hok.1.1
  obtain rfl := Option.some.inj (hs.symm.trans hstep)
  refine ⟨eq_router_of_up hsettled fun b hb => ?_, hrunning, h'.kept.2.1, h'.words⟩
  rw [hstatus b hb, hrunning]
  rfl

/-- Every backend can be restarted. -/
lemma Operating.exists_visit (hlib : lib.Faithful) (hbounded : lib.Bounded) (h : Operating d s)
    {x : Backend} (hx : x ∈ d.backends) :
    ∃ (v : Visit) (s' : ClusterState), v.backend = x
      ∧ Run (ClusterState.step lib) (Operates lib d) s v.actions s' := by
  have hcrash : Operates lib d s (.crash x.addr) := ⟨⟨x, hx, rfl⟩, nofun⟩
  obtain ⟨s₁, hs₁, h₁⟩ := h.step hlib hbounded hcrash nofun
  have hdown : Operates lib d s₁ (.cycle Router.getOnlineBackends s₁.router.getAllBackends) :=
    ⟨⟨.refl _, fun _ => .refl _⟩, nofun⟩
  obtain ⟨s₂, hs₂, h₂⟩ := h₁.step hlib hbounded hdown nofun
  have hrestart : Operates lib d s₂ (.restart x.addr) := ⟨⟨x, hx, rfl⟩, nofun⟩
  obtain ⟨s₃, hs₃, h₃⟩ := h₂.step hlib hbounded hrestart nofun
  have hup : Operates lib d s₃ (.cycle Router.getOnlineBackends s₃.router.getAllBackends) :=
    ⟨⟨.refl _, fun _ => .refl _⟩, nofun⟩
  obtain ⟨s₄, hs₄, -⟩ := h₃.step hlib hbounded hup nofun
  exact ⟨⟨x, (_, _), (_, _)⟩, s₄, rfl,
    .cons hcrash hs₁ (.cons hdown hs₂ (.cons hrestart hs₃ (.cons hup hs₄ .nil)))⟩

/-- So can any number of them, one after the other. -/
lemma Operating.exists_visits (hlib : lib.Faithful) (hbounded : lib.Bounded) (h : Operating d s)
    {order : List Backend} (horder : ∀ b ∈ order, b ∈ d.backends) :
    ∃ (visits : List Visit) (s' : ClusterState), visits.map Visit.backend = order
      ∧ Run (ClusterState.step lib) (Operates lib d) s (visits.flatMap Visit.actions) s' := by
  induction order generalizing s with
  | nil => exact ⟨[], s, rfl, .nil⟩
  | cons x order ih =>
    obtain ⟨hx, hothers⟩ := List.forall_mem_cons.1 horder
    obtain ⟨v, s₁, rfl, hfirst⟩ := h.exists_visit hlib hbounded hx
    obtain ⟨visits, s', rfl, hrest⟩ := ih (h.run hlib hbounded hfirst) hothers
    exact ⟨v :: visits, s', rfl, hfirst.append hrest⟩

end

/-- The key `a` is deleted. -/
def deleteA : KeyOp := .delete ['a']

/-- Its request arrives in one piece, -/
lemma carries_deleteA : Carries [clientRequest deleteA] (requestOf deleteA) :=
  ⟨by decide +kernel, by decide +kernel, rfl, by decide +kernel⟩

/-- and is what it should be. -/
lemma isOp_deleteA : IsOp plainLib (requestOf deleteA) deleteA :=
  isOp_requestOf ⟨by decide, by decide, by decide, nofun, nofun⟩ (by decide +kernel)
    (by decide +kernel)

section
attribute [local instance] djb2

/-- The key `a` is put and deleted while one of its owners has crashed. -/
def deletedInAbsence : List ClusterAction :=
  [.op putAX, .crash (localAddr 9003), .op deleteA]

/-- The state after that. -/
def afterDelete : ClusterState := stateAfter deletedInAbsence

/-- All backends return. -/
def allReturn : List ClusterAction :=
  (threeBackends.backends.map Backend.addr).map .restart
    ++ [.cycle Router.getOnlineBackends afterDelete.router.getAllBackends]

/-- A cycle visits the backends that there are. -/
def VisitsAll (s : ClusterState) : ClusterAction → Prop
  | .cycle _ backends => backends.Perm s.router.getAllBackends
  | _ => True

instance (s : ClusterState) : (a : ClusterAction) → Decidable (VisitsAll s a)
  | .cycle _ backends => inferInstanceAs (Decidable (backends.Perm s.router.getAllBackends))
  | .connection _ | .crash _ | .restart _ => isTrue trivial

/-- These steps can happen. -/
lemma run_afterDelete : Run (ClusterState.step plainLib) (Operates plainLib threeBackends)
    (.start threeBackends 10) deletedInAbsence afterDelete := by
  refine (run_stateAfter (fun _ _ => True) (by decide +kernel)).of_forall fun s a ha _ => ?_
  simp only [deletedInAbsence, List.mem_cons, List.not_mem_nil, or_false] at ha
  rcases ha with rfl | rfl | rfl
  · refine ⟨⟨_, carries_putAX⟩, ?_⟩
    rintro incoming ⟨⟩
    exact ⟨_, _, carries_putAX, isOp_putAX⟩
  · exact ⟨⟨⟨"127.0.0.1".toList, 9003, .up⟩, by decide, rfl⟩, nofun⟩
  · refine ⟨⟨_, carries_deleteA⟩, ?_⟩
    rintro incoming ⟨⟩
    exact ⟨_, _, carries_deleteA, isOp_deleteA⟩

end

end KvStore.Cluster
