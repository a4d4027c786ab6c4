import KvStore.Ring.History

/-!
# Deployments

A router that has been constructed for at least two backends with a port each, all of them UP, with
virtual nodes that do not collide. `Deployment.marked x status` is this router with another status
for one backend: marking that backend leads from one of these routers to another
(`apply_marked`), and back to the first one when it is UP again (`marked_up`).

* `live_cases`: every key has two owners, and one that is DOWN is replaced behind the other one.
* `getNodes_marked`, `targets_marked`: the nodes and the candidates of a key.
-/

namespace KvStore.Ring
open KvStore.Lib

/-- A backend with another status, if it is the one at this address. -/
def restatus (x : Backend) (status : BackendStatus) (b : Backend) : Backend :=
  if b.addr = x.addr then b.withStatus status else b

/-- The other backends keep their status, -/
lemma restatus_of_ne {x b : Backend} (h : b.addr ≠ x.addr) (status : BackendStatus) :
    restatus x status b = b := if_neg h

/-- this one gets the new one, -/
lemma restatus_self (x : Backend) (status : BackendStatus) :
    restatus x status x = x.withStatus status := if_pos rfl

/-- and no address changes. -/
@[simp] lemma addr_restatus (x : Backend) (status : BackendStatus) (b : Backend) :
    (restatus x status b).addr = b.addr := by
  unfold restatus
  split_ifs <;> rfl

/-- Two routers with the same lookups are the same. -/
lemma router_ext {r r' : Router} (hn : r.hashRing.numVnodes = r'.hashRing.numVnodes)
    (hring : ∀ pos, r.hashRing.ring.find pos = r'.hashRing.ring.find pos)
    (hmap : ∀ port, r.backends.find port = r'.backends.find port) : r = r' := by
  obtain ⟨⟨n, ring⟩, backends⟩ := r
  obtain ⟨⟨n', ring'⟩, backends'⟩ := r'
  obtain rfl : n = n' := hn
  obtain rfl : ring = ring' := OrdMap.ext_find hring
  obtain rfl : backends = backends' := OrdMap.ext_find hmap
  rfl

variable [StdHash]

/-- A router with backends that can be told apart, and all of them UP. -/
structure Deployment where
  backends : List Backend
  vnodes : ℕ
  router : Router
  built : Router.new backends vnodes = .ok router
  ports : (backends.map Backend.port).Nodup
  two : 2 ≤ backends.length
  up : ∀ b ∈ backends, b.status = .up
  vnodes_pos : 0 < vnodes
  collisionFree : CollisionFree backends vnodes

namespace Deployment
variable (d : Deployment)

/-- The router with another status for one backend. -/
def marked (x : Backend) (status : BackendStatus) : Router :=
  { hashRing :=
      { numVnodes := d.vnodes
        ring := d.router.hashRing.ring.filterMap (fun b => b.addr ≠ x.addr || status ≠ .down)
          (restatus x status) }
    backends := d.router.backends.filterMap (fun _ => true) (restatus x status) }

variable {d}

/-- Backends are told apart by their ports, -/
lemma eq_of_port {b c : Backend} (hb : b ∈ d.backends) (hc : c ∈ d.backends)
    (h : b.port = c.port) : b = c := List.inj_on_of_nodup_map d.ports hb hc h

/-- and so by their addresses. -/
lemma eq_of_addr {b c : Backend} (hb : b ∈ d.backends) (hc : c ∈ d.backends)
    (h : b.addr = c.addr) : b = c := eq_of_port hb hc (congrArg Prod.snd h)

/-- The ring has the number of virtual nodes of the deployment. -/
lemma numVnodes_router : d.router.hashRing.numVnodes = d.vnodes := (new_configured d.built).numVnodes

/-- The router is in the state of its construction. -/
lemma follows : d.router.Follows d.backends d.vnodes (.new d.backends) := by
  apply new_follows d.built d.ports
  · intro b hb
    rw [d.up b hb]
    nofun
  · exact d.collisionFree.apart

/-- The map of the router has the backends by port. -/
lemma find_backends {port : ℤ} {b : Backend} :
    d.router.backends.find port = some b ↔ b ∈ d.backends ∧ b.port = port := by
  rw [follows.find]
  exact Directory.new_eq_some d.ports

/-- The ring of the router has the backends at their virtual nodes. -/
lemma find_ring {pos : ℕ} {b : Backend} : d.router.hashRing.ring.find pos = some b
    ↔ b ∈ d.backends ∧ d.router.hashRing.IsVnode b pos := by
  rw [follows.ring, Directory.new_eq_some d.ports]
  constructor
  · exact fun ⟨⟨hb, _⟩, _, hv⟩ => ⟨hb, hv⟩
  · rintro ⟨hb, hv⟩
    refine ⟨⟨hb, rfl⟩, ?_, hv⟩
    rw [d.up b hb]
    nofun

/-- The backends after one of them has been marked, -/
lemma find_marked_backends (x : Backend) (status : BackendStatus) (port : ℤ) :
    (d.marked x status).backends.find port
      = (d.router.backends.find port).map (restatus x status) := by
  rw [marked, OrdMap.find_filterMap]
  cases d.router.backends.find port <;> rfl

/-- the ring, -/
lemma find_marked_ring (x : Backend) (status : BackendStatus) (pos : ℕ) :
    (d.marked x status).hashRing.ring.find pos
      = ((d.router.hashRing.ring.find pos).filter fun b => b.addr ≠ x.addr || status ≠ .down).map
          (restatus x status) := OrdMap.find_filterMap _ _ _ _

/-- and the status of that backend. -/
lemma statusOf_marked {x : Backend} (hx : x ∈ d.backends) (status : BackendStatus) :
    (d.marked x status).statusOf x.port = some status := by
  rw [Router.statusOf, find_marked_backends, find_backends.2 ⟨hx, rfl⟩, Option.map_some,
    restatus_self]
  rfl

/-- The backends that the router knows. -/
lemma mem_getAllBackends_marked {x b : Backend} {status : BackendStatus} :
    b ∈ (d.marked x status).getAllBackends ↔ ∃ c ∈ d.backends, restatus x status c = b := by
  rw [mem_getAllBackends]
  constructor
  · rintro ⟨port, hf⟩
    rw [find_marked_backends] at hf
    obtain ⟨c, hc, rfl⟩ := Option.map_eq_some_iff.1 hf
    exact ⟨c, (find_backends.1 hc).1, rfl⟩
  · rintro ⟨c, hc, rfl⟩
    refine ⟨c.port, ?_⟩
    rw [find_marked_backends, find_backends.2 ⟨hc, rfl⟩]
    rfl

/-- The router has each backend once. -/
lemma nodup_getAllBackends_marked (x : Backend) (status : BackendStatus) :
    (d.marked x status).getAllBackends.Nodup := by
  refine List.Nodup.of_map Backend.port (nodup_port_getAllBackends fun {port b} hf => ?_)
  rw [find_marked_backends] at hf
  obtain ⟨c, hc, rfl⟩ := Option.map_eq_some_iff.1 hf
  exact (congrArg Prod.snd (addr_restatus x status c)).trans (find_backends.1 hc).2

/-- It has the backend itself with its status. -/
lemma filter_getAllBackends_marked {x : Backend} (hx : x ∈ d.backends) (status : BackendStatus) :
    (d.marked x status).getAllBackends.filter (fun b => b.addr = x.addr)
      = [x.withStatus status] := by
  refine List.perm_singleton.1 ((List.perm_ext_iff_of_nodup
    ((nodup_getAllBackends_marked x status).filter _) (List.nodup_singleton _)).2 fun b => ?_)
  rw [List.mem_filter, List.mem_singleton, mem_getAllBackends_marked, decide_eq_true_iff]
  constructor
  · rintro ⟨⟨c, hc, rfl⟩, ha⟩
    rw [addr_restatus] at ha
    rw [eq_of_addr hc hx ha, restatus_self]
  · rintro rfl
    exact ⟨⟨x, hx, restatus_self x status⟩, rfl⟩

/-- The other backends are online. -/
lemma mem_getOnlineBackends_marked {x b : Backend} {status : BackendStatus} (hb : b ∈ d.backends)
    (hne : b.addr ≠ x.addr) : b ∈ (d.marked x status).getOnlineBackends :=
  List.mem_filter.2 ⟨mem_getAllBackends_marked.2 ⟨b, hb, restatus_of_ne hne status⟩,
    decide_eq_true (d.up b hb)⟩

/-- With all backends UP the router is the first one. -/
lemma marked_up (x : Backend) : d.marked x .up = d.router := by
  have hsame : ∀ b ∈ d.backends, restatus x .up b = b := by
    intro b hb
    unfold restatus
    split_ifs
    · exact Backend.ext_addr rfl (d.up b hb).symm
    · rfl
  refine router_ext numVnodes_router.symm (fun pos => ?_) (fun port => ?_)
  · rw [find_marked_ring]
    cases h : d.router.hashRing.ring.find pos with
    | none => rfl
    | some b => simp [hsame b (find_ring.1 h).1]
  · rw [find_marked_backends]
    cases h : d.router.backends.find port with
    | none => rfl
    | some b => simp [hsame b (find_backends.1 h).1]

/-- Marking the backend whose status differs. -/
lemma apply_marked {x : Backend} (hx : x ∈ d.backends) (status : BackendStatus) (m : Mark) :
    m.apply (d.marked x status) x.port = d.marked x m.status := by
  have hfind : d.router.backends.find x.port = some x := find_backends.2 ⟨hx, rfl⟩
  have hmap (port : ℤ) : ((d.marked x status).setStatus x.port m.status).backends.find port
      = (d.marked x m.status).backends.find port := by
    rw [find_setStatus, find_marked_backends, find_marked_backends]
    by_cases hp : x.port = port
    · subst hp
      simp [hfind, restatus_self]
    · rw [if_neg hp]
      cases h : d.router.backends.find port with
      | none => rfl
      | some b =>
        have hne : b.addr ≠ x.addr := fun ha =>
          hp ((congrArg Prod.snd ha).symm.trans (find_backends.1 h).2)
        simp [restatus_of_ne hne]
  have hknown : (d.marked x status).backends.find x.port = some (x.withStatus status) := by
    rw [find_marked_backends, hfind, Option.map_some, restatus_self]
  have hvnode (pos : ℕ) : (d.marked x status).hashRing.IsVnode (x.withStatus status) pos
      ↔ d.router.hashRing.IsVnode x pos := by
    unfold HashRing.IsVnode
    rw [numVnodes_router]
    exact Iff.rfl
  refine router_ext ?_ (fun pos => ?_) (fun port => ?_)
  · rw [numVnodes_apply]
    rfl
  · rw [find_apply hknown, find_marked_ring, find_marked_ring]
    -- a virtual node of the backend changes, all others stay
    have hold (h : ¬ d.router.hashRing.IsVnode x pos) (st : BackendStatus) :
        ((d.router.hashRing.ring.find pos).filter fun b => b.addr ≠ x.addr || st ≠ .down).map
          (restatus x st) = d.router.hashRing.ring.find pos := by
      cases hf : d.router.hashRing.ring.find pos with
      | none => rfl
      | some b =>
        have hne : b.addr ≠ x.addr := by
          intro ha
          obtain ⟨i, hi, rfl⟩ := (find_ring.1 hf).2
          exact h ⟨i, hi, by rw [vnodeKey_congr ha]⟩
        simp [hne, restatus_of_ne hne]
    by_cases hv : d.router.hashRing.IsVnode x pos
    · rw [if_pos ((hvnode pos).2 hv), find_ring.2 ⟨hx, hv⟩]
      cases m with
      | down => simp [Mark.status]
      | recovering => simp [Mark.status, restatus_self]
      | up => simp [Mark.status, restatus_self]
    · rw [if_neg (mt (hvnode pos).1 hv), hold hv, hold hv]
  · rw [Mark.apply, backends_ringStep]
    exact hmap port

/-- Whether a backend is on the ring. -/
def OnRing (x : Backend) (status : BackendStatus) (b : Backend) : Bool :=
  b.addr ≠ x.addr || status ≠ .down

omit [StdHash] in
/-- A backend that becomes DOWN leaves the ring, and the others stay. -/
lemma onRing_mono {x b : Backend} {status status' : BackendStatus}
    (h : status' = status ∨ status' = .down) (hb : OnRing x status' b) : OnRing x status b := by
  rcases h with rfl | rfl
  · exact hb
  · simp only [OnRing, ne_eq, not_true_eq_false, decide_false, Bool.or_false] at hb
    simp [OnRing, hb]

/-- The walk from a key, with another status for one backend. -/
lemma successors_marked (x : Backend) (status : BackendStatus) (key : Str) :
    (d.marked x status).hashRing.successors key
      = ((d.router.hashRing.successors key).filter (OnRing x status)).map (restatus x status) := by
  have hname (b : Backend) : nodeId (restatus x status b) = nodeId b :=
    nodeId_inj.2 (addr_restatus x status b)
  have hclass (a b : Backend) (h : nodeId a = nodeId b) : OnRing x status a = OnRing x status b := by
    unfold OnRing
    rw [nodeId_inj.1 h]
  rw [HashRing.successors, HashRing.successors, ← distinctOn_filter hclass,
    ← distinctOn_map _ hname, marked, OrdMap.walk_filterMap, List.map_map, List.filter_map,
    List.map_map]
  rfl

/-- The walk meets at least two backends. -/
lemma two_le_successors (key : Str) : 2 ≤ (d.router.hashRing.successors key).length := by
  have hnd : (d.backends.map Backend.addr).Nodup := nodup_map_addr d.ports
  have hsub : d.backends.map Backend.addr ⊆ (d.router.hashRing.successors key).map Backend.addr := by
    intro a ha
    obtain ⟨b, hb, rfl⟩ := List.mem_map.1 ha
    have hpos : d.router.hashRing.ring.find (hashString (vnodeKey b 0)) = some b :=
      find_ring.2 ⟨hb, 0, numVnodes_router ▸ d.vnodes_pos, rfl⟩
    obtain ⟨c, hc, hca⟩ := exists_mem_successors key hpos
    exact List.mem_map.2 ⟨c, hc, hca⟩
  have hle := (hnd.subperm hsub).length_le
  rw [List.length_map, List.length_map] at hle
  exact d.two.trans hle

/-- The ring has backends of the deployment only. -/
lemma mem_backends_of_mem_successors {key : Str} {b : Backend}
    (h : b ∈ d.router.hashRing.successors key) : b ∈ d.backends := by
  obtain ⟨pos, hf⟩ := mem_successors h
  exact (find_ring.1 hf).1

/-- The two owners of a key: its nodes when all backends are UP. -/
def owners (d : Deployment) (key : Str) : List Backend := d.router.hashRing.getNodes key 2

/-- The nodes of a key, with another status for one backend. -/
def live (d : Deployment) (x : Backend) (status : BackendStatus) (key : Str) : List Backend :=
  ((d.router.hashRing.successors key).filter (OnRing x status)).take 2

/-- The owners of a key, and the nodes in terms of them: an owner that is DOWN is replaced, behind
    the other one. -/
lemma live_cases (x : Backend) (status : BackendStatus) (key : Str) :
    ∃ a b, d.owners key = [a, b] ∧ a.addr ≠ b.addr
      ∧ (OnRing x status a ∧ OnRing x status b ∧ d.live x status key = [a, b]
        ∨ OnRing x status a = false ∧ OnRing x status b ∧ (∃ l, d.live x status key = b :: l)
        ∨ OnRing x status a ∧ OnRing x status b = false ∧ ∃ l, d.live x status key = a :: l) := by
  have hlen := d.two_le_successors key
  have hnd := nodup_successors d.router.hashRing key
  rw [owners, getNodes_eq, live]
  match hs : d.router.hashRing.successors key, hlen with
  | a :: b :: l, _ =>
    rw [hs] at hnd
    have hne : a.addr ≠ b.addr := by
      intro he
      simp [he] at hnd
    refine ⟨a, b, rfl, hne, ?_⟩
    cases ha : OnRing x status a with
    | true =>
      cases hb : OnRing x status b with
      | true => exact .inl ⟨rfl, rfl, by simp [ha, hb]⟩
      | false => exact .inr (.inr ⟨rfl, rfl, _, by rw [List.filter_cons_of_pos ha]; rfl⟩)
    | false =>
      have hb : OnRing x status b = true := by
        simp only [OnRing, Bool.or_eq_false_iff, decide_eq_false_iff_not, not_not] at ha
        simp [OnRing, ← ha.1, Ne.symm hne]
      refine .inr (.inl ⟨rfl, hb, (l.filter (OnRing x status)).take 1, ?_⟩)
      rw [List.filter_cons_of_neg (by simp [ha]), List.filter_cons_of_pos hb]
      rfl

/-- The live owners are backends on the ring. -/
lemma mem_live {x b : Backend} {status : BackendStatus} {key : Str}
    (h : b ∈ d.live x status key) : b ∈ d.backends ∧ OnRing x status b := by
  obtain ⟨hb, hon⟩ := List.mem_filter.1 (List.mem_of_mem_take h)
  exact ⟨mem_backends_of_mem_successors hb, hon⟩

/-- The owners of a key are backends of the deployment. -/
lemma mem_backends_of_mem_owners {key : Str} {b : Backend} (h : b ∈ d.owners key) :
    b ∈ d.backends := by
  obtain ⟨pos, hf⟩ := mem_getNodes h
  exact (find_ring.1 hf).1

/-- No live owner is counted twice. -/
lemma nodup_live (x : Backend) (status : BackendStatus) (key : Str) :
    ((d.live x status key).map Backend.addr).Nodup := by
  have hnd := nodup_successors d.router.hashRing key
  exact hnd.sublist (((List.take_sublist _ _).trans List.filter_sublist).map _)

/-- An owner is not the only one. -/
lemma exists_other_owner {x : Backend} {key : Str} (h : x ∈ d.owners key) :
    ∃ y ∈ d.owners key, y.addr ≠ x.addr := by
  obtain ⟨a, b, howners, hne, -⟩ := d.live_cases x .up key
  rw [howners] at h ⊢
  rcases List.mem_pair.1 h with rfl | rfl
  · exact ⟨b, List.mem_cons_of_mem _ List.mem_cons_self, Ne.symm hne⟩
  · exact ⟨a, List.mem_cons_self, hne⟩

/-- An owner that is on the ring is among the nodes. -/
lemma mem_live_of_mem_owners {x b : Backend} {status : BackendStatus} {key : Str}
    (h : b ∈ d.owners key) (hon : OnRing x status b) : b ∈ d.live x status key := by
  obtain ⟨a, c, howners, -, hcases⟩ := d.live_cases x status key
  rw [howners] at h
  rcases hcases with ⟨-, -, hl⟩ | ⟨ha, -, l, hl⟩ | ⟨-, hc, l, hl⟩ <;>
    rcases List.mem_pair.1 h with rfl | rfl <;> simp_all

/-- A backend on the ring is UP anyway, unless another one is being recovered. -/
lemma restatus_of_onRing {x b : Backend} {status : BackendStatus} (hs : status ≠ .recovering)
    (hb : b ∈ d.backends) (hon : OnRing x status b) : restatus x status b = b := by
  by_cases ha : b.addr = x.addr
  · have hup : status = .up := by
      cases status with
      | up => rfl
      | recovering => exact absurd rfl hs
      | down => simp [OnRing, ha] at hon
    rw [hup, restatus, if_pos ha]
    exact Backend.ext_addr rfl (d.up b hb).symm
  · exact restatus_of_ne ha status

/-- With one backend UP or DOWN, all backends on the ring are UP. -/
lemma marked_allUp {x : Backend} {status : BackendStatus} (hs : status ≠ .recovering) :
    (d.marked x status).AllUp := by
  intro pos b hf
  rw [find_marked_ring] at hf
  obtain ⟨c, hc, rfl⟩ := Option.map_eq_some_iff.1 hf
  obtain ⟨hc, hon⟩ := Option.filter_eq_some_iff.1 hc
  have hmem := (find_ring.1 hc).1
  have hsame : restatus x status c = c := restatus_of_onRing hs hmem hon
  rw [hsame, find_marked_backends, find_backends.2 ⟨hmem, rfl⟩, Option.map_some, hsame]
  exact ⟨rfl, d.up c hmem⟩

/-- The nodes of a key on the ring. -/
lemma getNodes_marked (x : Backend) (status : BackendStatus) (key : Str) :
    (d.marked x status).hashRing.getNodes key 2
      = (d.live x status key).map (restatus x status) := by
  rw [getNodes_eq, successors_marked, ← List.map_take, live]

/-- While a backend recovers, the nodes of a key are its owners. -/
lemma mem_getNodes_recovering (x : Backend) {b : Backend} {key : Str} (h : b ∈ d.owners key) :
    restatus x .recovering b ∈ (d.marked x .recovering).hashRing.getNodes key 2 := by
  rw [getNodes_marked]
  exact List.mem_map_of_mem (mem_live_of_mem_owners h (by simp [OnRing]))

/-- The ring is never empty. -/
lemma empty_marked (d : Deployment) (x : Backend) (status : BackendStatus) :
    (d.marked x status).hashRing.empty = false := by
  obtain ⟨a, b, -, -, hcases⟩ := d.live_cases x status []
  have hne : (d.marked x status).hashRing.getNodes [] 2 ≠ [] := by
    rw [getNodes_marked]
    rcases hcases with ⟨-, -, hl⟩ | ⟨-, -, l, hl⟩ | ⟨-, -, l, hl⟩ <;> simp [hl]
  cases he : (d.marked x status).hashRing.empty with
  | false => rfl
  | true => exact absurd (if_pos he) hne

/-- The candidates of a key, for reads and for writes. -/
lemma targets_marked {x : Backend} {status : BackendStatus} (hs : status ≠ .recovering)
    {accept : BackendStatus → Bool} (ha : accept .up = true) (key : Str) :
    (d.marked x status).targetsForKey accept key 2 = .ok (d.live x status key) := by
  have hsame : (d.live x status key).map (restatus x status) = d.live x status key := by
    refine (List.map_congr_left fun b hb => ?_).trans (List.map_id _)
    exact restatus_of_onRing hs (mem_live hb).1 (mem_live hb).2
  have hup : (d.marked x status).AllUp := marked_allUp hs
  rw [hup.targetsForKey_eq (d.empty_marked x status) ha, getNodes_marked, hsame]

/-- A reachable router follows some directory. -/
lemma exists_follows {r : Router} (h : Router.Reachable d.backends d.vnodes r) :
    ∃ dir, r.Follows d.backends d.vnodes dir := by
  induction h with
  | new h =>
    exact ⟨_, new_follows h d.ports (fun b hb => by rw [d.up b hb]; nofun)
      d.collisionFree.apart⟩
  | mark m port _ ih =>
    obtain ⟨dir, hdir⟩ := ih
    exact ⟨_, hdir.mark d.collisionFree.apart m port⟩

/-- As long as some backend is UP the ring is not empty. -/
lemma empty_of_online {r : Router} (h : Router.Reachable d.backends d.vnodes r)
    (hup : r.getOnlineBackends ≠ []) : r.hashRing.empty = false := by
  obtain ⟨dir, hdir⟩ := exists_follows h
  obtain ⟨b, hb⟩ := List.exists_mem_of_ne_nil _ hup
  obtain ⟨hall, hs⟩ := List.mem_filter.1 hb
  obtain ⟨port, hfind⟩ := mem_getAllBackends.1 hall
  rw [hdir.find] at hfind
  have hstatus : b.status ≠ .down := by
    rw [of_decide_eq_true hs]
    nofun
  have hvnode : r.hashRing.IsVnode b (hashString (vnodeKey b 0)) :=
    ⟨0, hdir.numVnodes ▸ d.vnodes_pos, rfl⟩
  refine empty_of_find ((hdir.ring _ b).2 ⟨?_, hstatus, hvnode⟩)
  rw [hdir.port_eq hfind, hfind]

end Deployment

end KvStore.Ring
