import KvStore.Lib.Str
import Mathlib.Data.List.Nodup

/-!
# Backends

`Backend.h`: the address of a key-value server and the status the balancer gives it. A backend is
identified by `ip:port` on the hash ring (`nodeId`) and by its port in the router's status map.
-/

namespace KvStore.Ring
open KvStore.Lib

/-- The status of a backend in the balancer. -/
inductive BackendStatus where
  | up
  | recovering
  | down
deriving DecidableEq, Repr

/-- A key-value server as the balancer knows it. -/
structure Backend where
  ip : Str
  port : ℤ
  status : BackendStatus := .up
deriving DecidableEq, Repr

/-- The address a connection to the backend is opened to. -/
abbrev Addr := Str × ℤ

/-- The address of a backend. -/
def Backend.addr (b : Backend) : Addr := (b.ip, b.port)

/-- `ip:port`, the name of the node on the ring. -/
def nodeId (node : Backend) : Str := node.ip ++ ":".toList ++ decimalInt node.port

/-- The name `getNodes` counts the nodes of the ring by: the source writes `ip :port` here. -/
def uniqueId (node : Backend) : Str := node.ip ++ " :".toList ++ decimalInt node.port

/-- The label that is hashed to place the `i`-th virtual node. -/
def vnodeKey (node : Backend) (i : ℕ) : Str := nodeId node ++ "#vnode_".toList ++ decimal i

/-- Node names tell addresses apart. -/
lemma nodeId_inj {a b : Backend} : nodeId a = nodeId b ↔ a.addr = b.addr := by
  constructor
  · intro h
    have h' : a.ip ++ ':' :: decimalInt a.port = b.ip ++ ':' :: decimalInt b.port := by
      simpa [nodeId] using h
    obtain ⟨hip, hport⟩ := append_cons_inj (not_mem_decimalInt (by decide) (by decide) _)
      (not_mem_decimalInt (by decide) (by decide) _) h'
    rw [Backend.addr, Backend.addr, hip, decimalInt_inj hport]
  · intro h
    obtain ⟨hip, hport⟩ := Prod.mk.inj h
    rw [nodeId, nodeId, hip, hport]

/-- The names with the blank tell addresses apart as well. -/
lemma uniqueId_inj {a b : Backend} : uniqueId a = uniqueId b ↔ a.addr = b.addr := by
  constructor
  · intro h
    have h' : (a.ip ++ [' ']) ++ ':' :: decimalInt a.port
        = (b.ip ++ [' ']) ++ ':' :: decimalInt b.port := by
      simpa [uniqueId] using h
    obtain ⟨hip, hport⟩ := append_cons_inj (not_mem_decimalInt (by decide) (by decide) _)
      (not_mem_decimalInt (by decide) (by decide) _) h'
    rw [Backend.addr, Backend.addr, List.append_cancel_right hip, decimalInt_inj hport]
  · intro h
    obtain ⟨hip, hport⟩ := Prod.mk.inj h
    rw [uniqueId, uniqueId, hip, hport]

/-- Labels tell virtual nodes apart. -/
lemma vnodeKey_inj {a b : Backend} {i j : ℕ} (h : vnodeKey a i = vnodeKey b j) :
    a.addr = b.addr ∧ i = j := by
  have h' : (nodeId a ++ "#vnode".toList) ++ '_' :: decimal i
      = (nodeId b ++ "#vnode".toList) ++ '_' :: decimal j := by
    simpa [vnodeKey] using h
  obtain ⟨hid, hi⟩ := append_cons_inj (not_mem_decimal (by decide) _)
    (not_mem_decimal (by decide) _) h'
  exact ⟨nodeId_inj.1 (List.append_cancel_right hid), decimal_inj hi⟩

/-- The labels of a backend depend on its address only. -/
lemma vnodeKey_congr {a b : Backend} (h : a.addr = b.addr) (i : ℕ) : vnodeKey a i = vnodeKey b i := by
  rw [vnodeKey, vnodeKey, nodeId_inj.2 h]

/-- Backends that are UP are not DOWN. -/
lemma ne_down_of_up {backends : List Backend} (hup : ∀ b ∈ backends, b.status = .up) :
    ∀ b ∈ backends, b.status ≠ .down := by
  intro b hb
  rw [hup b hb]
  decide

/-- The same backend with another status. -/
def Backend.withStatus (b : Backend) (status : BackendStatus) : Backend := { b with status := status }

/-- A backend with another status has that status, -/
@[simp] lemma Backend.withStatus_status (b : Backend) (s : BackendStatus) :
    (b.withStatus s).status = s := rfl

/-- its own port, -/
@[simp] lemma Backend.withStatus_port (b : Backend) (s : BackendStatus) :
    (b.withStatus s).port = b.port := rfl

/-- and its own address. -/
@[simp] lemma Backend.withStatus_addr (b : Backend) (s : BackendStatus) :
    (b.withStatus s).addr = b.addr := rfl

/-- The last status counts. -/
@[simp] lemma Backend.withStatus_withStatus (b : Backend) (s t : BackendStatus) :
    (b.withStatus s).withStatus t = b.withStatus t := rfl

/-- The port is a part of the address. -/
@[simp] lemma Backend.addr_snd (b : Backend) : b.addr.2 = b.port := rfl

/-- Backends with a port each have an address each. -/
lemma nodup_map_addr {backends : List Backend} (h : (backends.map Backend.port).Nodup) :
    (backends.map Backend.addr).Nodup := by
  refine List.Nodup.of_map Prod.snd ?_
  rw [List.map_map]
  exact h

/-- A backend is its address and its status. -/
lemma Backend.ext_addr {a b : Backend} (h : a.addr = b.addr) (hs : a.status = b.status) : a = b := by
  obtain ⟨ip, port, s⟩ := a
  obtain ⟨ip', port', s'⟩ := b
  obtain ⟨rfl, rfl⟩ := Prod.mk.inj h
  cases hs
  rfl

end KvStore.Ring
