import KvStore.Http.Request
import KvStore.Server.Faults

/-!
# The call of a request

`Request.call` is the call that the routes make of a request.

* `dispatch_call`: the routes lead to the call.
* `dispatch_of_call_eq_none`: without a call nothing changes.
-/

namespace KvStore.Server
open KvStore.Lib KvStore.Http

/-- The call that the routes make of a request. -/
def Request.call (req : Request) : Option Call :=
  if req.method = "POST".toList then
    if req.path = "/kvstore/create".toList then some (.create req)
    else (wordAfter syncRoot req.path).map (.sync req)
  else if req.method = "PUT".toList then (wordAfter keyRoot req.path).map (.update req)
  else if req.method = "DELETE".toList then (wordAfter keyRoot req.path).map .delete
  else if req.method = "GET".toList ∨ req.method = "HEAD".toList then
    if req.path = allKeysPath then some .allKeys else (wordAfter keyRoot req.path).map .read
  else none

/-- The routes lead to the call. -/
lemma dispatch_call (s : KvServer) {req : Request} {call : Call} (h : req.call = some call)
    (fault : Option DbFault) : s.dispatch req fault = Call.handleWith s (call, fault) := by
  have hroute {start : Str} {f : Str → Call} (hf : (wordAfter start req.path).map f = some call) :
      ∃ key, wordAfter start req.path = some key ∧ f key = call := Option.map_eq_some_iff.1 hf
  unfold Request.call at h
  unfold KvServer.dispatch
  split_ifs at h with h1 h2 h3 h4 h5 h6
  · rw [if_pos h1, if_pos h2, ← Option.some.inj h]
    rfl
  · obtain ⟨key, hk, rfl⟩ := hroute h
    rw [if_pos h1, if_neg h2, hk]
    rfl
  · obtain ⟨key, hk, rfl⟩ := hroute h
    rw [if_neg h1, if_pos h3, hk]
    rfl
  · obtain ⟨key, hk, rfl⟩ := hroute h
    rw [if_neg h1, if_neg h3, if_pos h4, hk]
    rfl
  · rw [if_neg h1, if_neg h3, if_neg h4, if_pos h5, if_pos h6, ← Option.some.inj h]
    rfl
  · obtain ⟨key, hk, rfl⟩ := hroute h
    rw [if_neg h1, if_neg h3, if_neg h4, if_pos h5, if_neg h6, hk]
    rfl

/-- A request without a call changes nothing. -/
lemma dispatch_of_call_eq_none (s : KvServer) {req : Request} (h : req.call = none)
    (fault : Option DbFault) : (s.dispatch req fault).2 = s := by
  unfold Request.call at h
  unfold KvServer.dispatch
  split_ifs at h with h1 h2 h3 h4 h5 h6
  · rw [if_pos h1, if_neg h2, Option.map_eq_none_iff.1 h]
  · rw [if_neg h1, if_pos h3, Option.map_eq_none_iff.1 h]
  · rw [if_neg h1, if_neg h3, if_pos h4, Option.map_eq_none_iff.1 h]
  · rw [if_neg h1, if_neg h3, if_neg h4, if_pos h5, if_neg h6, Option.map_eq_none_iff.1 h]
    dsimp only
    split_ifs <;> rfl
  · rw [if_neg h1, if_neg h3, if_neg h4, if_neg h5]

/-- The route leads to a word that follows its start. -/
lemma wordAfter_eq_some {start path key : Str} (h : wordAfter start path = some key) :
    path = start ++ key ∧ isWord key = true := by
  unfold wordAfter at h
  split_ifs at h with hc
  obtain rfl := Option.some.inj h
  obtain ⟨⟨rest, rfl⟩, hw⟩ := And.imp_left List.isPrefixOf_iff_prefix.1 hc
  rw [List.drop_left] at hw ⊢
  exact ⟨rfl, hw⟩

end KvStore.Server
