import KvStore.Ring.Agreement

/-!
# Removing a node from the ring

Consistent hashing moves only what it must: without a backend the nodes of a key are those it had
before and, in the place of the one that is gone, the next one of the walk. `HashRing.Has` says which
backends are on a ring; it can only hold when the labels of their virtual nodes do not collide.

* `has_addNodes`: adding backends one after the other puts exactly them on the ring.
* `getNodes_removeNode`: what removing a backend and adding it again does to the nodes of a key.
-/

namespace KvStore.Ring
open KvStore.Lib

section
variable [StdHash]

/-- The backends on the ring, each at its virtual nodes. -/
def HashRing.Has (r : HashRing) (backends : List Backend) : Prop :=
  ∀ pos b, r.ring.find pos = some b ↔ b ∈ backends ∧ r.IsVnode b pos

variable {r : HashRing} {backends : List Backend} {b x : Backend}

/-- The empty ring has no nodes. -/
lemma has_empty (vnodes : ℕ) : HashRing.Has ⟨vnodes, .empty⟩ [] := by
  intro pos b
  exact iff_of_false nofun fun h => List.not_mem_nil h.1

/-- Adding a backend whose labels do not collide with those on the ring. -/
lemma HashRing.Has.addNode (h : r.Has backends) (hcf : CollisionFree (b :: backends) r.numVnodes)
    (hb : b.addr ∉ backends.map Backend.addr) : (r.addNode b).Has (b :: backends) := by
  intro pos c
  have hvnode : (r.addNode b).IsVnode c pos ↔ r.IsVnode c pos := Iff.rfl
  have hpos : c ∈ backends → r.IsVnode b pos → ¬ r.IsVnode c pos := by
    rintro hc ⟨i, hi, rfl⟩ ⟨j, hj, he⟩
    have ha := hcf.apart.addr_eq ⟨b, List.mem_cons_self, rfl⟩ ⟨c, List.mem_cons_of_mem _ hc, rfl⟩ hi hj he
    exact hb (List.mem_map.2 ⟨c, hc, ha.symm⟩)
  rw [find_addNode, hvnode, List.mem_cons]
  split_ifs with hv
  · constructor
    · intro he
      obtain rfl := Option.some.inj he
      exact ⟨.inl rfl, hv⟩
    · rintro ⟨rfl | hc, hcv⟩
      · rfl
      · exact absurd hcv (hpos hc hv)
  · rw [h]
    constructor
    · exact fun ⟨hc, hcv⟩ => ⟨.inr hc, hcv⟩
    · rintro ⟨rfl | hc, hcv⟩
      · exact absurd hcv hv
      · exact ⟨hc, hcv⟩

/-- The ring that adding these backends makes. -/
def addNodes (vnodes : ℕ) (backends : List Backend) : HashRing :=
  backends.foldr (fun b r => r.addNode b) ⟨vnodes, .empty⟩

/-- Adding nodes does not change the number of virtual nodes. -/
lemma numVnodes_addNodes (vnodes : ℕ) (backends : List Backend) :
    (addNodes vnodes backends).numVnodes = vnodes := by
  induction backends with
  | nil => rfl
  | cons b backends ih => exact ih

/-- Adding backends that can be told apart, one after the other, puts exactly them on the ring. -/
lemma has_addNodes {vnodes : ℕ} (hcf : CollisionFree backends vnodes)
    (hnd : (backends.map Backend.addr).Nodup) : (addNodes vnodes backends).Has backends := by
  induction backends with
  | nil => exact has_empty vnodes
  | cons b backends ih =>
    obtain ⟨hb, hnd⟩ := List.nodup_cons.1 hnd
    have hrest : CollisionFree backends vnodes := fun c hc c' hc' =>
      hcf c (List.mem_cons_of_mem _ hc) c' (List.mem_cons_of_mem _ hc')
    apply (ih hrest hnd).addNode
    · rw [numVnodes_addNodes]
      exact hcf
    · exact hb

/-- A backend on the ring is known by its address. -/
lemma HashRing.Has.eq_of_addr (h : r.Has backends) (hx : x ∈ backends) {pos : ℕ}
    (hf : r.ring.find pos = some b) (ha : b.addr = x.addr) : b = x := by
  obtain ⟨-, i, hi, rfl⟩ := (h pos b).1 hf
  have hxf := (h (hashString (vnodeKey b i)) x).2 ⟨hx, i, hi, by rw [vnodeKey_congr ha]⟩
  exact Option.some.inj (hf.symm.trans hxf)

/-- The ring without a backend. -/
lemma HashRing.Has.removeNode_eq (h : r.Has backends) (hx : x ∈ backends) :
    (r.removeNode x).ring = r.ring.filterMap (fun b => b ≠ x) id := by
  apply OrdMap.ext_find
  intro pos
  rw [find_removeNode, OrdMap.find_filterMap, Option.map_id]
  split_ifs with hv
  · rw [(h pos x).2 ⟨hx, hv⟩, Option.filter_some, if_neg (by simp)]
    rfl
  · cases hf : r.ring.find pos with
    | none => rfl
    | some b =>
      have hne : b ≠ x := by
        rintro rfl
        exact hv ((h pos b).1 hf).2
      rw [Option.filter_some, if_pos (decide_eq_true hne)]
      rfl

/-- Adding the backend again leads back to the same ring. -/
lemma HashRing.Has.addNode_removeNode (h : r.Has backends) (hx : x ∈ backends) :
    (r.removeNode x).addNode x = r := by
  have hring : ((r.removeNode x).addNode x).ring = r.ring := by
    apply OrdMap.ext_find
    intro pos
    rw [find_addNode, find_removeNode]
    by_cases hv : r.IsVnode x pos
    · rw [if_pos (show (r.removeNode x).IsVnode x pos from hv)]
      exact ((h pos x).2 ⟨hx, hv⟩).symm
    · rw [if_neg (show ¬ (r.removeNode x).IsVnode x pos from hv), if_neg hv]
  have hnum : ((r.removeNode x).addNode x).numVnodes = r.numVnodes := rfl
  calc (r.removeNode x).addNode x
      = ⟨((r.removeNode x).addNode x).numVnodes, ((r.removeNode x).addNode x).ring⟩ := rfl
    _ = r := by rw [hring, hnum]

/-- The walk from a key passes over a backend that is gone. -/
lemma HashRing.Has.successors_removeNode (h : r.Has backends) (hx : x ∈ backends) (key : Str) :
    (r.removeNode x).successors key = (r.successors key).filter fun b => b ≠ x := by
  have haddr : (r.removeNode x).ring = r.ring.filterMap (fun b => b.addr ≠ x.addr) id := by
    apply OrdMap.ext_find
    intro pos
    rw [h.removeNode_eq hx, OrdMap.find_filterMap, OrdMap.find_filterMap]
    cases hf : r.ring.find pos with
    | none => rfl
    | some b =>
      have hsame : decide (b ≠ x) = decide (b.addr ≠ x.addr) := by
        refine decide_eq_decide.2 (not_congr ⟨?_, h.eq_of_addr hx hf⟩)
        exact congrArg Backend.addr
      rw [Option.filter_some, Option.filter_some, hsame]
  have hclass (a b : Backend) (hab : nodeId a = nodeId b) :
      decide (a.addr ≠ x.addr) = decide (b.addr ≠ x.addr) := by
    rw [nodeId_inj.1 hab]
  have hwalk : ((r.removeNode x).ring.walk (hashString key)).map Prod.snd
      = ((r.ring.walk (hashString key)).map Prod.snd).filter fun b => b.addr ≠ x.addr := by
    rw [haddr, OrdMap.walk_filterMap, List.map_map, List.filter_map]
    rfl
  rw [HashRing.successors, hwalk, distinctOn_filter hclass]
  refine List.filter_congr fun b hb => ?_
  obtain ⟨pos, hf⟩ := mem_successors hb
  refine decide_eq_decide.2 (not_congr ⟨h.eq_of_addr hx hf, ?_⟩)
  exact congrArg Backend.addr

/-- Without a backend the nodes of a key are those of the `n + 1` nodes before that are left, up to
    `n` of them. So a key that did not have the backend keeps its nodes, the nodes that are left come
    first and in their order, and adding the backend again restores all nodes. -/
theorem getNodes_removeNode (h : r.Has backends) (hx : x ∈ backends) (key : Str) (n : ℕ) :
    (r.removeNode x).getNodes key n = ((r.getNodes key (n + 1)).filter fun b => b ≠ x).take n
      ∧ (x ∉ r.getNodes key n → (r.removeNode x).getNodes key n = r.getNodes key n)
      ∧ ((r.getNodes key n).filter fun b => b ≠ x) <+: (r.removeNode x).getNodes key n
      ∧ ((r.removeNode x).addNode x).getNodes key n = r.getNodes key n := by
  have hnd : (r.successors key).Nodup := (nodup_successors r key).of_map
  have hone : ((r.successors key).filter fun b => !decide (b ≠ x)).length ≤ 1 := by
    have heq : (fun b => !decide (b ≠ x)) = fun b => b == x := by
      funext b
      rw [decide_not, Bool.not_not]
      rfl
    rw [heq, ← List.count_eq_length_filter]
    exact List.nodup_iff_count_le_one.1 hnd x
  rw [h.addNode_removeNode hx, getNodes_eq, getNodes_eq, getNodes_eq, h.successors_removeNode hx]
  refine ⟨take_filter hone n, fun hnot => ?_, filter_take_prefix _ _ n, rfl⟩
  apply take_filter_of_forall
  intro b hb
  exact decide_eq_true (ne_of_mem_of_not_mem hb hnot)

end

section
attribute [local instance] djb2

/-- Without its first backend, the key `a` keeps the second one. -/
theorem getNodes_removeNode_a :
    ((addNodes 1 initialBackends).removeNode ⟨"127.0.0.1".toList, 9003, .up⟩).getNodes ['a'] 2
      = (((addNodes 1 initialBackends).getNodes ['a'] 3).filter
          fun b => b ≠ ⟨"127.0.0.1".toList, 9003, .up⟩).take 2 :=
  have hhas : (addNodes 1 initialBackends).Has initialBackends :=
    has_addNodes (by decide) (by decide)
  (getNodes_removeNode hhas (List.mem_of_mem_getLast? rfl) ['a'] 2).1

end

end KvStore.Ring
