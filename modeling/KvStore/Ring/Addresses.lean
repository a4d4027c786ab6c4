import KvStore.Ring.History
import KvStore.Ring.Removal

/-!
# Addresses and ports

The ring names its nodes by address, `ip:port`, and the status map by port alone. Backends on
different machines can share a port; then the map has one of them only, and a node that `getNodes`
finds on the ring is looked up as another one.

* `distinguishes_iff`: a router tells its backends apart exactly if they have a port each.
* `distinguishes_fails`: two machines that serve on the same port.
-/

namespace KvStore.Ring
open KvStore.Lib

section
variable [StdHash]

/-- The write candidates of a key are its nodes, as many of them as there can be, and when one
    backend is marked DOWN every other node of the key stays a candidate, for reads as well. -/
structure Router.Distinguishes (backends : List Backend) (r : Router) : Prop where
  targets : ∀ key n, ∃ targets, r.getWriteBackendsForKey key n = .ok targets
    ∧ targets = r.hashRing.getNodes key n
    ∧ targets.length = min n backends.length
    ∧ (targets.map Backend.addr).Nodup
  others : ∀ x ∈ backends, ∀ key n, ∀ b ∈ r.hashRing.getNodes key n, b.addr ≠ x.addr →
    ∃ writes reads, (r.markBackendDown x.port).getWriteBackendsForKey key n = .ok writes
      ∧ (r.markBackendDown x.port).getReadBackendsForKey key n = .ok reads
      ∧ b ∈ writes ∧ b ∈ reads

section
variable {backends : List Backend} {vnodes : ℕ} {r : Router}

/-- If every backend is a candidate of some key, they have a port each: a candidate is the entry of
    its port in the status map. -/
lemma nodup_ports (hnew : Router.new backends vnodes = .ok r)
    (haddrs : (backends.map Backend.addr).Nodup) (h : r.Distinguishes backends) :
    (backends.map Backend.port).Nodup := by
  obtain ⟨targets, hok, hnodes, hlen, hnd⟩ := h.targets [] backends.length
  rw [min_self] at hlen
  have hsub : targets ⊆ backends := by
    intro b hb
    rw [hnodes] at hb
    obtain ⟨pos, hf⟩ := mem_getNodes hb
    exact (new_ring hnew hf).1
  have hperm : targets.Perm backends :=
    (List.subperm_of_subset hnd.of_map hsub).perm_of_length_le hlen.ge
  have hfind : ∀ b ∈ backends, r.backends.find b.port = some b := by
    intro b hb
    obtain ⟨node, -, hf, -⟩ := mem_targetsForKey hok (hperm.mem_iff.2 hb)
    rw [(new_configured hnew).port_eq hf]
    exact hf
  refine List.Nodup.map_on (fun b hb c hc hport => ?_) haddrs.of_map
  have hb' := hfind b hb
  rw [hport, hfind c hc] at hb'
  exact (Option.some.inj hb').symm

variable (hnew : Router.new backends vnodes = .ok r) (hports : (backends.map Backend.port).Nodup)
  (hup : ∀ b ∈ backends, b.status = .up) (hcf : CollisionFree backends vnodes)
include hnew hports hup hcf

/-- The constructor's ring has the backends. -/
lemma new_has : r.hashRing.Has backends := by
  have hfollows := new_follows hnew hports (ne_down_of_up hup) hcf.apart
  intro pos b
  rw [hfollows.ring, Directory.new_eq_some hports]
  constructor
  · rintro ⟨⟨hb, -⟩, -, hv⟩
    exact ⟨hb, hv⟩
  · rintro ⟨hb, hv⟩
    exact ⟨⟨hb, rfl⟩, ne_down_of_up hup b hb, hv⟩

/-- The candidates are the nodes, and there are as many as there can be. -/
lemma new_targets (hv : 0 < vnodes) (key : Str) (n : ℕ) : ∃ targets,
    r.getWriteBackendsForKey key n = .ok targets ∧ targets = r.hashRing.getNodes key n
      ∧ targets.length = min n backends.length ∧ (targets.map Backend.addr).Nodup := by
  have hperm : (r.hashRing.successors key).Perm backends := by
    refine (List.perm_ext_iff_of_nodup (nodup_successors _ key).of_map hports.of_map).2 fun b => ?_
    constructor
    · intro hb
      obtain ⟨pos, hf⟩ := mem_successors hb
      exact (new_ring hnew hf).1
    · intro hb
      have hhas := new_has hnew hports hup hcf
      have hf := (hhas _ b).2 ⟨hb, 0, (new_configured hnew).numVnodes ▸ hv, rfl⟩
      obtain ⟨c, hc, hca⟩ := exists_mem_successors key hf
      obtain ⟨pos, hcf⟩ := mem_successors hc
      rwa [← hhas.eq_of_addr hb hcf hca]
  have hall : r.AllUp := new_allUp hnew hports hup
  refine ⟨_, hall.targetsForKey_eq (new_empty hnew hv) rfl key n, rfl, ?_, nodup_getNodes _ key n⟩
  rw [getNodes_eq, List.length_take, hperm.length_eq]

/-- A node of a key stays a candidate when another backend is marked DOWN. -/
lemma mem_targets_markBackendDown {x b : Backend} (hx : x ∈ backends) {key : Str} {n : ℕ}
    (hb : b ∈ r.hashRing.getNodes key n) (hne : b.addr ≠ x.addr) (accept : BackendStatus → Bool)
    (haccept : accept .up = true) :
    ∃ targets, (r.markBackendDown x.port).targetsForKey accept key n = .ok targets
      ∧ b ∈ targets := by
  have hfind : r.backends.find x.port = some x := by
    rw [new_find_eq hnew hports]
    exact (Directory.new_eq_some hports).2 ⟨hx, rfl⟩
  have hset : (r.setStatus x.port .down).backends.find x.port = some (x.withStatus .down) := by
    rw [find_setStatus, if_pos rfl, hfind, Option.map_some]
  have hring : (r.markBackendDown x.port).hashRing = r.hashRing.removeNode x := by
    rw [← Mark.apply_down, Mark.apply, Mark.status, hashRing_ringStep hset, hashRing_setStatus]
    rfl
  obtain ⟨pos, hf⟩ := mem_getNodes hb
  have hmem := (new_ring hnew hf).1
  have hnode : b ∈ (r.hashRing.removeNode x).getNodes key n := by
    obtain ⟨-, -, hprefix, -⟩ := getNodes_removeNode (new_has hnew hports hup hcf) hx key n
    refine hprefix.subset (List.mem_filter.2 ⟨hb, decide_eq_true ?_⟩)
    rintro rfl
    exact hne rfl
  have hlookup : (r.markBackendDown x.port).lookup accept b = some b := by
    have hport : x.port ≠ b.port := by
      intro hp
      rw [List.inj_on_of_nodup_map hports hx hmem hp] at hne
      exact hne rfl
    have hself : r.backends.find b.port = some b := ((new_allUp hnew hports hup) hf).1
    rw [Router.lookup, Router.markBackendDown, backends_ringRemove, find_setStatus, if_neg hport,
      hself, Option.filter_some, hup b hmem, if_pos haccept]
  obtain ⟨pos', hf'⟩ := mem_getNodes hnode
  refine ⟨_, ?_, List.mem_filterMap.2 ⟨b, hring ▸ hnode, hlookup⟩⟩
  rw [Router.targetsForKey, hring, empty_of_find hf']
  rfl

end

/-- A router that is constructed for backends with an address each tells them apart exactly if they
    have a port each. -/
theorem distinguishes_iff {backends : List Backend} {vnodes : ℕ} {r : Router}
    (hnew : Router.new backends vnodes = .ok r) (haddrs : (backends.map Backend.addr).Nodup)
    (hup : ∀ b ∈ backends, b.status = .up) (hv : 0 < vnodes)
    (hcf : CollisionFree backends vnodes) :
    r.Distinguishes backends ↔ (backends.map Backend.port).Nodup := by
  constructor
  · exact nodup_ports hnew haddrs
  · intro hports
    refine ⟨new_targets hnew hports hup hcf hv, fun x hx key n b hb hne => ?_⟩
    obtain ⟨writes, hw, hbw⟩ :=
      mem_targets_markBackendDown hnew hports hup hcf hx hb hne servesWrites rfl
    obtain ⟨reads, hr, hbr⟩ :=
      mem_targets_markBackendDown hnew hports hup hcf hx hb hne servesReads rfl
    exact ⟨writes, reads, hw, hr, hbw, hbr⟩

end

section
attribute [local instance] djb2

/-- Two machines that serve on the same port. -/
def twoMachines : List Backend :=
  [⟨"10.0.0.1".toList, 9001, .up⟩, ⟨"10.0.0.2".toList, 9001, .up⟩]

/-- The balancer's own backends have a port each. -/
theorem distinguishes_iff_initial : (initialRouter 1).Distinguishes initialBackends :=
  (distinguishes_iff (show Router.new initialBackends 1 = .ok (initialRouter 1) from rfl) (by decide)
    (by decide) Nat.zero_lt_one (by decide)).2 (by decide)

/-- Not every router tells its backends apart: both writes of a key go to the same machine. -/
theorem distinguishes_fails : ¬ ∀ (backends : List Backend) (vnodes : ℕ) (r : Router),
    Router.new backends vnodes = .ok r → (backends.map Backend.addr).Nodup →
    (∀ b ∈ backends, b.status = .up) → 0 < vnodes → CollisionFree backends vnodes →
    r.Distinguishes backends := by
  intro hall
  have hports := nodup_ports rfl (by decide)
    (hall twoMachines 1 _ rfl (by decide) (by decide) Nat.zero_lt_one (by decide))
  exact absurd hports (by decide)

end

end KvStore.Ring
