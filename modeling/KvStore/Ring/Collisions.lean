import KvStore.Ring.History

/-!
# Collisions

Positions on the ring have 32 bits, so virtual nodes of different backends can share one. Adding a
node overwrites what is at its positions and removing one erases them, without a look at whose they
are; so one backend can lose its virtual nodes to another.

* `undisturbed_iff`: the backends do not disturb each other, whatever the history, exactly if no
  virtual nodes of two of them share a position.
* `undisturbed_fails`: with a hash that is constant the first backend is not found at all.
-/

namespace KvStore.Ring
open KvStore.Lib

section
variable [StdHash]

/-- The router after some mark operations. -/
def Router.marks (r : Router) (calls : List (Mark × ℤ)) : Router :=
  calls.foldl (fun r call => call.1.apply r call.2) r

/-- Every backend that is UP is found for every key, and marking it DOWN and UP again changes
    nothing about what is found. -/
structure Router.Undisturbed (backends : List Backend) (r : Router) : Prop where
  found : ∀ b ∈ backends, r.statusOf b.port = some .up →
    ∀ key, b ∈ r.hashRing.getNodes key backends.length
  restored : ∀ b ∈ backends, r.statusOf b.port = some .up → ∀ key n,
    ((r.markBackendDown b.port).markBackendUp b.port).hashRing.getNodes key n
      = r.hashRing.getNodes key n

variable {backends : List Backend} {vnodes : ℕ} {dir : Directory} {r r' : Router}

/-- Every mark operation does to the router what it does to the directory. -/
lemma Router.Follows.marks (h : r.Follows backends vnodes dir) (hapart : Apart backends vnodes)
    (calls : List (Mark × ℤ)) : ∃ dir, (r.marks calls).Follows backends vnodes dir := by
  induction calls generalizing r dir with
  | nil => exact ⟨dir, h⟩
  | cons call calls ih => exact ih (h.mark hapart call.1 call.2)

/-- The directory determines the ring. -/
lemma Router.Follows.hashRing_eq (h : r.Follows backends vnodes dir)
    (h' : r'.Follows backends vnodes dir) : r.hashRing = r'.hashRing := by
  have hnum : r.hashRing.numVnodes = r'.hashRing.numVnodes := h.numVnodes.trans h'.numVnodes.symm
  have hring : r.hashRing.ring = r'.hashRing.ring := by
    apply OrdMap.ext_find
    intro pos
    apply Option.ext
    intro b
    rw [h.ring, h'.ring, HashRing.IsVnode, HashRing.IsVnode, hnum]
  calc r.hashRing = ⟨r.hashRing.numVnodes, r.hashRing.ring⟩ := rfl
    _ = r'.hashRing := by rw [hnum, hring]

omit [StdHash] in
/-- A backend that is UP and is marked DOWN and UP again is in the directory as before. -/
lemma Directory.call_down_up {port : ℤ} {b : Backend} (hb : dir port = some b)
    (hup : b.status = .up) :
    (dir.call (.mark .down port)).call (.mark .up port) = dir := by
  funext p
  by_cases hp : p = port
  · rw [hp, Directory.call_mark_self (Directory.call_mark_self hb), hb, Backend.withStatus_withStatus]
    exact congrArg some (Backend.ext_addr rfl hup.symm)
  · rw [Directory.call_mark_ne hp, Directory.call_mark_ne hp]

/-- Backends that share no position do not disturb each other. -/
lemma Router.Follows.undisturbed (h : r.Follows backends vnodes dir)
    (hports : (backends.map Backend.port).Nodup) (hup : ∀ b ∈ backends, b.status = .up)
    (hv : 0 < vnodes) (hapart : Apart backends vnodes) : r.Undisturbed backends := by
  have hdir {b : Backend} (hb : b ∈ backends) (hs : r.statusOf b.port = some .up) :
      dir b.port = some b := by
    obtain ⟨c, hc, hcs⟩ := Option.map_eq_some_iff.1 hs
    rw [h.find] at hc
    obtain ⟨k, hk, hkc⟩ := h.known hc
    have hkb : k = b := by
      refine List.inj_on_of_nodup_map hports hk hb ?_
      rw [← h.port_eq hc]
      exact congrArg Prod.snd hkc
    rw [hc, Backend.ext_addr (hkc.symm.trans (congrArg Backend.addr hkb))
      (hcs.trans (hup b hb).symm)]
  constructor
  · intro b hb hs key
    have hperm := h.successors_perm hports hv key
    have hmem : b ∈ r.hashRing.successors key := by
      rw [hperm.mem_iff, Directory.mem_alive h.port_eq h.known]
      exact ⟨hdir hb hs, ne_down_of_up hup b hb⟩
    have hlen : (r.hashRing.successors key).length ≤ backends.length := by
      rw [hperm.length_eq, Directory.alive]
      exact (List.length_filterMap_le _ _).trans_eq (List.length_map _)
    rwa [getNodes_eq, List.take_of_length_le hlen]
  · intro b hb hs key n
    have hagain := (h.mark hapart .down b.port).mark hapart .up b.port
    rw [Directory.call_down_up (hdir hb hs) (hup b hb)] at hagain
    rw [← Mark.apply_down, ← Mark.apply_up, hagain.hashRing_eq h]

/-- The constructor puts something at every virtual node of every backend. -/
lemma new_ring_ne_none (hnew : Router.new backends vnodes = .ok r)
    (hports : (backends.map Backend.port).Nodup) {b : Backend} (hb : b ∈ backends) {pos : ℕ}
    (hv : r.hashRing.IsVnode b pos) : r.hashRing.ring.find pos ≠ none := by
  have hfind : r.backends.find b.port = some b := by
    rw [new_find_eq hnew hports]
    exact (Directory.new_eq_some hports).2 ⟨hb, rfl⟩
  refine new_induction (P := fun r => ∀ port b, r.backends.find port = some b →
    r.hashRing.IsVnode b pos → r.hashRing.ring.find pos ≠ none) hnew nofun ?_ b.port b hfind hv
  intro r a _ ih p c hc hcv
  rw [find_addNode]
  split_ifs with hav
  · nofun
  · rw [OrdMap.find_insert] at hc
    split_ifs at hc
    · obtain rfl := Option.some.inj hc
      exact absurd hcv hav
    · exact ih p c hc hcv

/-- After a backend has been marked DOWN and UP again its positions are its own. -/
lemma find_down_up {port : ℤ} {b : Backend} (hb : r.backends.find port = some b) {pos : ℕ}
    (hv : r.hashRing.IsVnode b pos) :
    ((r.markBackendDown port).markBackendUp port).hashRing.ring.find pos
      = some (b.withStatus .up) := by
  have hdown : (r.markBackendDown port).backends.find port = some (b.withStatus .down) := by
    rw [Router.markBackendDown, backends_ringRemove, find_setStatus, if_pos rfl, hb, Option.map_some]
  have hvnode : (r.markBackendDown port).hashRing.IsVnode (b.withStatus .down) pos := by
    rw [← Mark.apply_down, HashRing.IsVnode, numVnodes_apply]
    exact hv
  rw [← Mark.apply_up, find_apply hdown, if_pos hvnode]
  rfl

/-- A router of UP backends with a port each keeps them from disturbing each other, in every history
    of `markBackendDown` and `markBackendUp` calls, exactly if they share no position. -/
theorem undisturbed_iff (hnew : Router.new backends vnodes = .ok r)
    (hports : (backends.map Backend.port).Nodup) (hup : ∀ b ∈ backends, b.status = .up)
    (hv : 0 < vnodes) :
    (∀ calls : List (Mark × ℤ), (∀ call ∈ calls, call.1 ≠ .recovering) →
        (r.marks calls).Undisturbed backends)
      ↔ Apart backends vnodes := by
  have hnum : r.hashRing.numVnodes = vnodes := (new_configured hnew).numVnodes
  have hfind {b : Backend} (hb : b ∈ backends) : r.backends.find b.port = some b := by
    rw [new_find_eq hnew hports]
    exact (Directory.new_eq_some hports).2 ⟨hb, rfl⟩
  constructor
  · intro hall
    have hundisturbed : r.Undisturbed backends := hall [] (List.forall_mem_nil _)
    -- a backend that does not occupy a position of its own gets it when it is marked UP again
    have hown {d o : Backend} (hd : d ∈ backends) {i : ℕ} (hi : i < vnodes)
        (ho : r.hashRing.ring.find (hashString (vnodeKey d i)) = some o) : o.addr = d.addr := by
      have hstatus : r.statusOf d.port = some .up := by
        rw [Router.statusOf, hfind hd, Option.map_some, hup d hd]
      have hlen : backends.length ≠ 0 := (List.length_pos_of_mem hd).ne'
      have hsame := hundisturbed.restored d hd hstatus (vnodeKey d i) backends.length
      have hhead := head?_getNodes (find_down_up (hfind hd) ⟨i, hnum ▸ hi, rfl⟩) hlen
      rw [hsame, head?_getNodes ho hlen] at hhead
      rw [Option.some.inj hhead, Backend.withStatus_addr]
    intro b hb c hc i hi j hj he
    obtain ⟨o, ho⟩ := Option.ne_none_iff_exists'.1
      (new_ring_ne_none hnew hports hb ⟨i, hnum ▸ hi, rfl⟩)
    rw [← hown hb hi ho, hown hc hj (he ▸ ho)]
  · intro hapart calls _
    obtain ⟨dir, h⟩ := (new_follows hnew hports (ne_down_of_up hup) hapart).marks hapart calls
    exact h.undisturbed hports hup hv hapart

end

section
attribute [local instance] djb2

/-- The balancer's own backends do not disturb each other when two of them go and one comes back. -/
theorem undisturbed_iff_initial :
    ((initialRouter 1).marks [(.down, 9001), (.down, 9002), (.up, 9001)]).Undisturbed
      initialBackends :=
  (undisturbed_iff (show Router.new initialBackends 1 = .ok (initialRouter 1) from rfl) (by decide)
    (by decide) Nat.zero_lt_one).2 (by decide) _ (by decide)

end

/-- A hash that is the same for all labels. -/
@[reducible] def constantHash : StdHash := ⟨fun _ => 0⟩

/-- Backends can disturb each other: of those that share all positions only the last one is
    found. -/
theorem undisturbed_fails : ¬ ∀ [StdHash] (backends : List Backend) (vnodes : ℕ) (r : Router),
    Router.new backends vnodes = .ok r → (backends.map Backend.port).Nodup →
    (∀ b ∈ backends, b.status = .up) → 0 < vnodes →
    ∀ calls : List (Mark × ℤ), (∀ call ∈ calls, call.1 ≠ .recovering) →
      (r.marks calls).Undisturbed backends := by
  intro hall
  have h := @hall constantHash initialBackends 1 _ rfl (by decide) (by decide) Nat.zero_lt_one [] nofun
  have hfound := @h.found ⟨"127.0.0.1".toList, 9001, .up⟩ (by decide) rfl []
  exact absurd hfound (by decide)

end KvStore.Ring
