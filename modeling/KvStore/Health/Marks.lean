import KvStore.Lib.Run
import KvStore.Ring.Agreement

/-!
# Concurrent mark operations

The mark operations of `Router.cpp` are not atomic: the status is assigned without a lock and the
ring is updated afterwards. Here the health checker calls `markBackendDown`, or
`markBackendRecovering` followed by `markBackendUp`, while any number of proxy sessions call
`markBackendDown`, each call in its two steps and in any order.

* `MarkState.Inv.step`: while every ring update is covered by a call in the direction of the status,
  a port whose status and ring disagree has such a call still in progress.
* `agrees_at_rest`: so the two agree whenever no call is in progress.
* `marks_disagree`: a session that was overtaken by `markBackendUp` leaves an UP backend without
  virtual nodes.
-/

namespace KvStore.Health
open KvStore.Lib KvStore.Ring

/-- What the health checker is doing to the router. -/
inductive Checker where
  | idle
  | inCall (m : Mark) (port : ℤ)
  | recovering (port : ℤ)
deriving DecidableEq, Repr

/-- The router, the health checker and the `markBackendDown` calls of the sessions, by the port each
    of them is marking. -/
structure MarkState (ι : Type*) where
  router : Router
  checker : Checker
  sessions : ι → Option ℤ

/-- The steps of the threads: a call assigns the status, or it updates the ring and returns. -/
inductive MarkAction (ι : Type*) where
  | checkerAssigns (m : Mark) (port : ℤ)
  | checkerReturns
  | sessionAssigns (i : ι) (port : ℤ)
  | sessionReturns (i : ι)

/-- The calls the health checker makes: Down or Recovering first, and Up of the same port after
    Recovering. -/
def Checker.calls : Checker → Mark → ℤ → Bool
  | .idle, .down, _ => true
  | .idle, .recovering, _ => true
  | .recovering p, .up, port => p = port
  | _, _, _ => false

/-- What the health checker does once a call has returned. -/
def Checker.after : Mark → ℤ → Checker
  | .recovering, port => .recovering port
  | _, _ => .idle

variable {ι : Type*}

/-- No thread has called a mark operation yet. -/
def MarkState.start (r : Router) : MarkState ι := ⟨r, .idle, fun _ => none⟩

section
variable [StdHash] [DecidableEq ι]

/-- One step of a thread. -/
def MarkState.step (s : MarkState ι) : MarkAction ι → Option (MarkState ι)
  | .checkerAssigns m port =>
    if s.checker.calls m port then
      some { s with router := s.router.setStatus port m.status, checker := .inCall m port }
    else none
  | .checkerReturns =>
    match s.checker with
    | .inCall m port =>
      some { s with router := m.ringStep s.router port, checker := .after m port }
    | _ => none
  | .sessionAssigns i port =>
    match s.sessions i with
    | none =>
      some
        { s with
          router := s.router.setStatus port .down
          sessions := Function.update s.sessions i (some port) }
    | some _ => none
  | .sessionReturns i =>
    match s.sessions i with
    | some port =>
      some
        { s with
          router := s.router.ringRemove port
          sessions := Function.update s.sessions i none }
    | none => none

/-- A call that is not interrupted is the whole mark operation. -/
lemma exec_call (r : Router) {m : Mark} (hm : m ≠ .up) (port : ℤ) :
    exec (MarkState.step (ι := ι)) (.start r) [.checkerAssigns m port, .checkerReturns]
      = some ⟨m.apply r port, .after m port, fun _ => none⟩ := by
  cases m with
  | up => exact absurd rfl hm
  | down | recovering => rfl

/-- A call of a mark operation has assigned the status and not updated the ring yet. -/
def MarkState.InProgress (s : MarkState ι) (m : Mark) (port : ℤ) : Prop :=
  s.checker = .inCall m port ∨ m = .down ∧ ∃ i, s.sessions i = some port

/-- Some call in progress on the port is going to update the ring the way the status says. -/
def MarkState.Covered (s : MarkState ι) (port : ℤ) : Prop :=
  ∃ m, s.InProgress m port ∧ m.Fits s.router port

/-- No call of a mark operation is in progress. -/
def MarkState.AtRest (s : MarkState ι) : Prop := ∀ m port, ¬ s.InProgress m port

/-- The ring updates that do no harm: those of a port that is covered, by this call or another. -/
def CoveredUpdate (s : MarkState ι) : MarkAction ι → Prop
  | .checkerReturns => ∀ m port, s.checker = .inCall m port → s.Covered port
  | .sessionReturns i => ∀ port, s.sessions i = some port → s.Covered port
  | _ => True

/-- The router stays as the constructor configured it, and a port that is not covered agrees with
    the ring. -/
structure MarkState.Inv (backends : List Backend) (vnodes : ℕ) (s : MarkState ι) : Prop where
  configured : s.router.Configured backends vnodes
  agrees : ∀ port, s.router.AgreesAt port ∨ s.Covered port

/-- What one step of a thread does: a call `m` assigns the status of a port while the calls in
    progress stay so, or it updates the ring of a port and all other calls stay in progress. -/
lemma step_cases {s s' : MarkState ι} {a : MarkAction ι} (h : s.step a = some s') :
    (∃ m port, s'.router = s.router.setStatus port m.status ∧ s'.InProgress m port
      ∧ ∀ m' p, s.InProgress m' p → s'.InProgress m' p)
    ∨ ∃ m port, s'.router = m.ringStep s.router port ∧ (CoveredUpdate s a → s.Covered port)
      ∧ ∀ m' p, s.InProgress m' p → (m', p) ≠ (m, port) → s'.InProgress m' p := by
  cases a with
  | checkerAssigns m port =>
    simp only [MarkState.step, Option.ite_none_right_eq_some, Option.some.injEq] at h
    obtain ⟨hcall, rfl⟩ := h
    refine .inl ⟨m, port, rfl, .inl rfl, ?_⟩
    rintro m' p (hc | hs)
    · simp [hc, Checker.calls] at hcall
    · exact .inr hs
  | checkerReturns =>
    simp only [MarkState.step] at h
    split at h
    · rename_i m port hc
      obtain rfl := Option.some.inj h
      refine .inr ⟨m, port, rfl, fun hcov => hcov m port hc, ?_⟩
      rintro m' p (hc' | hs) hne
      · obtain ⟨rfl, rfl⟩ := Checker.inCall.inj (hc.symm.trans hc')
        exact absurd rfl hne
      · exact .inr hs
    · cases h
  | sessionAssigns i port =>
    simp only [MarkState.step] at h
    split at h
    · rename_i hi
      obtain rfl := Option.some.inj h
      refine .inl ⟨.down, port, rfl, .inr ⟨rfl, i, by simp⟩, ?_⟩
      rintro m' p (hc | ⟨hm, j, hj⟩)
      · exact .inl hc
      · have hij : j ≠ i := by
          rintro rfl
          simp [hi] at hj
        exact .inr ⟨hm, j, by simpa [hij] using hj⟩
    · cases h
  | sessionReturns i =>
    simp only [MarkState.step] at h
    split at h
    · rename_i port hi
      obtain rfl := Option.some.inj h
      refine .inr ⟨.down, port, rfl, fun hcov => hcov port hi, ?_⟩
      rintro m' p (hc | ⟨rfl, j, hj⟩) hne
      · exact .inl hc
      · have hij : j ≠ i := by
          rintro rfl
          obtain rfl := Option.some.inj (hi.symm.trans hj)
          exact hne rfl
        exact .inr ⟨rfl, j, by simpa [hij] using hj⟩
    · cases h

/-- A covered step keeps the invariant. -/
lemma MarkState.Inv.step {backends : List Backend} {vnodes : ℕ} (hcf : CollisionFree backends vnodes)
    {s s' : MarkState ι} {a : MarkAction ι} (hinv : s.Inv backends vnodes)
    (hok : CoveredUpdate s a) (h : s.step a = some s') : s'.Inv backends vnodes := by
  rcases step_cases h with ⟨m, port, hr, hm, hkeep⟩ | ⟨m, port, hr, hcov, hkeep⟩
  · refine ⟨hr ▸ hinv.configured.setStatus port m.status, fun p => ?_⟩
    by_cases hp : port = p
    · -- the call that has just assigned the status covers its port
      subst hp
      exact .inr ⟨m, hm, hr ▸ fits_setStatus m s.router port⟩
    · rcases hinv.agrees p with hagree | ⟨m', hm', hfit⟩
      · exact .inl (hr ▸ agreesAt_setStatus_ne hp m.status hagree)
      · refine .inr ⟨m', hkeep m' p hm', ?_⟩
        rwa [Mark.Fits, hr, statusOf_setStatus, if_neg hp]
  · refine ⟨hr ▸ hinv.configured.ringStep m port, fun p => ?_⟩
    have hkeepFit {m' : Mark} {p : ℤ} (hfit : m'.Fits s.router p) : m'.Fits s'.router p := by
      rwa [Mark.Fits, hr, statusOf_ringStep]
    by_cases hp : port = p
    · subst hp
      by_cases hfit : m.Fits s.router port
      · exact .inl (hr ▸ agreesAt_ringStep hinv.configured hcf.apart hfit)
      · -- the update goes the wrong way, so the call that covers the port is another one
        obtain ⟨m', hm', hfit'⟩ := hcov hok
        have hne : (m', port) ≠ (m, port) := by
          rintro he
          exact hfit ((Prod.mk.inj he).1 ▸ hfit')
        exact .inr ⟨m', hkeep m' port hm' hne, hkeepFit hfit'⟩
    · rcases hinv.agrees p with hagree | ⟨m', hm', hfit⟩
      · exact .inl (hr ▸ agreesAt_ringStep_ne hinv.configured hcf.apart hp m hagree)
      · refine .inr ⟨m', hkeep m' p hm' ?_, hkeepFit hfit⟩
        rintro he
        exact hp (Prod.mk.inj he).2.symm

/-- In every run of the health checker and the sessions whose ring updates are all covered, status
    and ring agree whenever no mark operation is in progress. -/
theorem agrees_at_rest {backends : List Backend} {vnodes : ℕ} {r : Router}
    (hnew : Router.new backends vnodes = .ok r) (hup : ∀ b ∈ backends, b.status = .up)
    (hcf : CollisionFree backends vnodes) {ls : List (MarkAction ι)} {s : MarkState ι}
    (hrun : Run MarkState.step CoveredUpdate (.start r) ls s) (hrest : s.AtRest) {port : ℤ}
    {b : Backend} (hb : s.router.backends.find port = some b) :
    ∀ i < vnodes, s.router.hashRing.Holds b i ↔ b.status ≠ .down := by
  have hinv : s.Inv backends vnodes :=
    hrun.invariant (fun hinv hok h => hinv.step hcf hok h)
      ⟨new_configured hnew, fun p => .inl (new_agrees hnew hcf.apart (ne_down_of_up hup) p)⟩
  intro i hi
  rcases hinv.agrees port with ha | ⟨m, hm, -⟩
  · exact ha b hb i (hinv.configured.numVnodes.symm ▸ hi)
  · exact absurd hm (hrest m port)

end

section
attribute [local instance] djb2

/-- A crash that the health checker and a session notice at once, and the recovery after it. -/
def crashAndRecovery : List (MarkAction Unit) :=
  [.checkerAssigns .down 9001, .sessionAssigns () 9001, .checkerReturns, .sessionReturns (),
    .checkerAssigns .recovering 9001, .checkerReturns, .checkerAssigns .up 9001, .checkerReturns]

/-- The recovery once more, with a session that loses its connection to the recovering backend and
    is overtaken by `markBackendUp`. -/
def overtakenSession : List (MarkAction Unit) :=
  [.checkerAssigns .down 9001, .checkerReturns, .checkerAssigns .recovering 9001, .checkerReturns,
    .sessionAssigns () 9001, .checkerAssigns .up 9001, .checkerReturns, .sessionReturns ()]

/-- The state this run ends in. -/
def recoveredState : MarkState Unit :=
  (exec MarkState.step (.start (initialRouter 1)) crashAndRecovery).getD (.start (initialRouter 1))

/-- After a crash that two threads noticed, the recovered backend is back on the ring. -/
theorem agrees_at_rest_recovery :
    ∃ b, recoveredState.router.backends.find 9001 = some b ∧ b.status = .up
      ∧ ∀ i < 1, recoveredState.router.hashRing.Holds b i ↔ b.status ≠ .down := by
  have hrun : Run MarkState.step CoveredUpdate (.start (initialRouter 1)) crashAndRecovery
      recoveredState := by
    refine .cons trivial rfl (.cons trivial rfl (.cons ?_ rfl (.cons ?_ rfl (.cons trivial rfl
      (.cons ?_ rfl (.cons trivial rfl (.cons ?_ rfl .nil)))))))
    · rintro m port ⟨⟩
      exact ⟨_, .inl rfl, by decide⟩
    · rintro port ⟨⟩
      exact ⟨.down, .inr ⟨rfl, (), rfl⟩, by decide⟩
    · rintro m port ⟨⟩
      exact ⟨_, .inl rfl, by decide⟩
    · rintro m port ⟨⟩
      exact ⟨_, .inl rfl, by decide⟩
  have hrest : recoveredState.AtRest := by
    rintro m port (h | ⟨-, i, h⟩) <;> cases h
  have hfind : recoveredState.router.backends.find 9001 = some ⟨"127.0.0.1".toList, 9001, .up⟩ := rfl
  have hup : ∀ b ∈ initialBackends, b.status = .up := by decide
  exact ⟨_, hfind, rfl, agrees_at_rest (r := initialRouter 1) rfl hup (by decide) hrun hrest hfind⟩

/-- Status and ring do not always agree at rest: the overtaken session leaves an UP backend without
    its virtual node. -/
theorem marks_disagree :
    ∃ (r : Router) (s : MarkState Unit) (b : Backend), Router.new initialBackends 1 = .ok r
      ∧ CollisionFree initialBackends 1 ∧ Run MarkState.step anyStep (.start r) overtakenSession s
      ∧ s.AtRest ∧ s.router.backends.find 9001 = some b ∧ b.status = .up
      ∧ ¬ s.router.hashRing.Holds b 0 := by
  refine ⟨initialRouter 1, _, ⟨"127.0.0.1".toList, 9001, .up⟩, rfl, by decide, .of_exec rfl, ?_,
    rfl, rfl, by decide⟩
  rintro m port (h | ⟨-, i, h⟩) <;> cases h

end

end KvStore.Health
