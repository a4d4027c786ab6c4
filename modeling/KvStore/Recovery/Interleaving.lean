import KvStore.Cluster.Replication
import KvStore.Recovery.Steps

/-!
# Recovery under writes

`recover` step by step, together with sessions that forward client writes to the recovering backend
and its peers. `lastOp` notes the last client operation that the recovering backend has applied to
each key since it was marked RECOVERING. Between the fetch of a value and its sync nothing is
locked, and the sync route overwrites whatever it finds.

* `RecoveryState.Inv.step`: as long as no client operation falls between fetch and sync, and what is
  fetched is not behind the recovering backend, the recovering backend keeps every operation.
* `recovery_keeps_writes`: so at every moment it holds the effect of the last one.
* `recovery_loses_write`: a write that comes between fetch and sync is undone.
-/

namespace KvStore.Recovery
open KvStore.Lib KvStore.Ring KvStore.Server KvStore.Cluster

/-- A recovery with the sessions around it. -/
structure RecoveryState (ι : Type*) where
  router : Router
  writers : WriterState ι
  phase : Phase
  lastOp : Str → Option (Option Str)

/-- The steps: `recover` reads the active backends or goes on, its call may fail; a session acts, or
    marks a backend DOWN. -/
inductive RecoveryAction (ι : Type*) where
  | begin (activeBackends : List Backend)
  | recover (fails : Bool)
  | session (a : WriterAction ι)
  | markDown (port : ℤ)

variable {ι : Type*}

/-- The operations noted, and a write if there is one. -/
def noteForward (lastOp : Str → Option (Option Str)) (write : Option Write) (key : Str) :
    Option (Option Str) :=
  match write with
  | some w => if w.key = some key then some w.effect else lastOp key
  | none => lastOp key

/-- What a session is about to forward to an address. -/
def forwarding (s : WriterState ι) (addr : Addr) : WriterAction ι → Option Write
  | .route _ => none
  | .forward i =>
    match (s.sessions i).pending with
    | (w, b) :: _ => if b.addr = addr then some w else none
    | [] => none

section
variable [StdHash] [DecidableEq ι]

/-- A backend has just been marked RECOVERING. -/
def RecoveryState.start (r : Router) (writers : WriterState ι) : RecoveryState ι :=
  ⟨r, writers, .starting, fun _ => none⟩

/-- One step. -/
def RecoveryState.step (recovered : Backend) (s : RecoveryState ι) :
    RecoveryAction ι → Option (RecoveryState ι)
  | .begin activeBackends =>
    match s.phase with
    | .starting =>
      if activeBackends.Perm s.router.getOnlineBackends then
        some { s with phase := .begin recovered activeBackends }
      else none
    | _ => none
  | .recover fails =>
    let p := stepRecover (fleetClient fun _ => fails) s.router recovered (s.phase, s.writers.servers)
    some { s with phase := p.1, writers := { s.writers with servers := p.2 } }
  | .session a =>
    match s.writers.step s.router a with
    | some writers =>
      some { s with
        writers := writers
        lastOp := noteForward s.lastOp (forwarding s.writers recovered.addr a) }
    | none => none
  | .markDown port => some { s with router := s.router.markBackendDown port }

/-- The steps that do no harm. A value that is fetched is what the last client operation on the
    recovering backend has left, if there was one on its key. And while a value is held, no client
    operation leaves anything else under its key on the recovering backend. -/
def Undisturbed (recovered : Backend) (s : RecoveryState ι) : RecoveryAction ι → Prop
  | .recover false => ∀ key b replicas keys effect,
      s.phase = .fetching key (b :: replicas) keys →
      isWord (Http.clientPath key) → s.lastOp (Http.clientPath key) = some effect →
      (s.writers.servers b.addr).shown (Http.clientPath key) ≠ [] →
      effect = some ((s.writers.servers b.addr).shown (Http.clientPath key))
  | .session a => ∀ key value keys w, s.phase = .pushing key value keys →
      forwarding s.writers recovered.addr a = some w → w.key = some (Http.clientPath key) →
      w.effect = some value
  | _ => True

/-- The recovering backend holds the effect of the last operation, and what is about to be synced
    does not change this. -/
structure RecoveryState.Inv (recovered : Backend) (s : RecoveryState ι) : Prop where
  coherent : s.writers.servers.Coherent
  current : ∀ key effect, s.lastOp key = some effect →
    s.writers.servers.entry recovered.addr key = effect
  held : ∀ key value keys effect, s.phase = .pushing key value keys →
    isWord (Http.clientPath key) → s.lastOp (Http.clientPath key) = some effect →
    effect = some value

variable {recovered : Backend} {s s' : RecoveryState ι}

/-- What a session's step does to the servers. -/
lemma step_servers {r : Router} {w w' : WriterState ι} {a : WriterAction ι}
    (h : w.step r a = some w') (addr : Addr) (key : Str) :
    w'.servers.entry addr key = match forwarding w addr a with
      | some op => if op.key = some key then op.effect else w.servers.entry addr key
      | none => w.servers.entry addr key := by
  rcases step_cases h with ⟨i, op, queue, candidates, rfl, -, -, rfl⟩
    | ⟨i, queue, op, b, pending, rfl, hi, rfl⟩
  · rfl
  · simp only [forwarding, hi, entry_write, eq_comm (a := b.addr)]
    by_cases hb : addr = b.addr
    · simp [hb]
    · simp [hb]

/-- A step of a session keeps the invariant. -/
lemma RecoveryState.Inv.session (hinv : s.Inv recovered) {a : WriterAction ι} {w : WriterState ι}
    (hok : Undisturbed recovered s (.session a)) (h : s.writers.step s.router a = some w) :
    RecoveryState.Inv recovered { s with
      writers := w
      lastOp := noteForward s.lastOp (forwarding s.writers recovered.addr a) } := by
  refine ⟨?_, fun key effect hop => ?_, fun key value keys effect hp hword hop => ?_⟩
  · rcases step_cases h with ⟨i, op, queue, candidates, rfl, -, -, rfl⟩
      | ⟨i, queue, op, b, pending, rfl, hi, rfl⟩
    · exact hinv.coherent
    · exact hinv.coherent.write b.addr op
  · rw [step_servers h]
    cases hf : forwarding s.writers recovered.addr a with
    | none =>
      rw [hf] at hop
      exact hinv.current key effect hop
    | some w =>
      rw [hf] at hop
      simp only [noteForward] at hop ⊢
      split_ifs at hop ⊢ with hk
      · exact Option.some.inj hop
      · exact hinv.current key effect hop
  · cases hf : forwarding s.writers recovered.addr a with
    | none =>
      rw [hf] at hop
      exact hinv.held key value keys effect hp hword hop
    | some w =>
      rw [hf] at hop
      simp only [noteForward] at hop
      split_ifs at hop with hk
      · exact (Option.some.inj hop).symm.trans (hok key value keys w hp hf hk)
      · exact hinv.held key value keys effect hp hword hop

omit [StdHash] [DecidableEq ι] in
/-- Nothing happens to the entries. -/
lemma RecoveryState.Inv.quiet (hinv : s.Inv recovered) {phase : Phase} {servers : Fleet}
    (hcoh : servers.Coherent) (hentry : servers.entry = s.writers.servers.entry)
    (hheld : ∀ key value keys effect, phase = .pushing key value keys →
      isWord (Http.clientPath key) → s.lastOp (Http.clientPath key) = some effect →
      effect = some value) :
    RecoveryState.Inv recovered
      { s with phase := phase, writers := { s.writers with servers := servers } } :=
  ⟨hcoh, fun key effect hop => by
    simp only [hentry]
    exact hinv.current key effect hop, hheld⟩

omit [DecidableEq ι] in
/-- A step of `recover` keeps the invariant. -/
lemma RecoveryState.Inv.recover (hinv : s.Inv recovered) {fails : Bool}
    (hok : Undisturbed recovered s (.recover fails)) {p : Phase × Fleet}
    (hp : stepRecover (fleetClient fun _ => fails) s.router recovered
      (s.phase, s.writers.servers) = p) :
    RecoveryState.Inv recovered
      { s with phase := p.1, writers := { s.writers with servers := p.2 } } := by
  subst hp
  have hcall (addr : Addr) (req : Request) :=
    hinv.coherent.call (fun _ => fails) addr req
  cases hphase : s.phase with
  | starting => exact hinv.quiet hinv.coherent rfl (by rintro _ _ _ _ ⟨⟩)
  | listing nodes keyspace =>
    cases nodes with
    | nil => exact hinv.quiet hinv.coherent rfl (by rintro _ _ _ _ ⟨⟩)
    | cons node nodes =>
      refine hinv.quiet (hcall _ _) ?_ (by rintro _ _ _ _ ⟨⟩)
      cases fails with
      | true => rfl
      | false => exact congrArg Fleet.entry (congrArg Prod.snd (call_allKeys rfl))
  | copying keys =>
    cases keys with
    | nil => exact hinv.quiet hinv.coherent rfl (by rintro _ _ _ _ ⟨⟩)
    | cons key keys =>
      refine hinv.quiet hinv.coherent rfl ?_
      simp only [stepRecover, Phase.request, Phase.next]
      split
      · rintro _ _ _ _ ⟨⟩
      · split_ifs <;> rintro _ _ _ _ ⟨⟩
  | fetching key replicas keys =>
    cases replicas with
    | nil => exact hinv.quiet hinv.coherent rfl (by rintro _ _ _ _ ⟨⟩)
    | cons b replicas =>
      cases fails with
      | true => exact hinv.quiet hinv.coherent rfl (by rintro _ _ _ _ ⟨⟩)
      | false =>
        obtain ⟨hbody, hentry⟩ :=
          @call_get (fun _ => false) s.writers.servers b.addr rfl hinv.coherent key
        refine hinv.quiet (hcall _ _) hentry ?_
        simp only [stepRecover, Phase.request, Phase.next, hbody]
        split_ifs with hv
        · rintro key' value' keys' effect ⟨⟩ hword hop
          exact hok key b replicas keys effect hphase hword hop hv
        · rintro _ _ _ _ ⟨⟩
  | pushing key value keys =>
    refine ⟨hcall _ _, fun k effect hop => ?_, by rintro _ _ _ _ ⟨⟩⟩
    cases fails with
    | true => exact hinv.current k effect hop
    | false =>
      simp only [stepRecover, Phase.request]
      rw [call_sync rfl]
      split_ifs with hk
      · obtain ⟨-, hword, rfl⟩ := hk
        exact (hinv.held key value keys effect hphase hword hop).symm
      · exact hinv.current k effect hop
  | finished => exact hinv.quiet hinv.coherent rfl (by rintro _ _ _ _ ⟨⟩)
  | thrown what => exact hinv.quiet hinv.coherent rfl (by rintro _ _ _ _ ⟨⟩)

/-- Every step that does no harm keeps the invariant. -/
lemma RecoveryState.Inv.step (hinv : s.Inv recovered) {a : RecoveryAction ι}
    (hok : Undisturbed recovered s a) (h : s.step recovered a = some s') : s'.Inv recovered := by
  cases a with
  | begin activeBackends =>
    simp only [RecoveryState.step] at h
    split at h
    · split_ifs at h
      obtain rfl := Option.some.inj h
      exact hinv.quiet hinv.coherent rfl nofun
    · cases h
  | recover fails =>
    obtain rfl := Option.some.inj h
    exact hinv.recover hok rfl
  | session a =>
    simp only [RecoveryState.step] at h
    split at h
    · rename_i writers hw
      obtain rfl := Option.some.inj h
      exact hinv.session hok hw
    · cases h
  | markDown port =>
    obtain rfl := Option.some.inj h
    exact ⟨hinv.coherent, hinv.current, hinv.held⟩

/-- In every run of a recovery and the sessions around it whose steps do no harm, the recovering
    backend holds the effect of the last client operation that it has applied to a key. -/
theorem recovery_keeps_writes {r : Router} {writers : WriterState ι}
    (hcoh : writers.servers.Coherent) {ls : List (RecoveryAction ι)}
    (hrun : Run (RecoveryState.step recovered) (Undisturbed recovered) (.start r writers) ls s)
    {key : Str} {effect : Option Str} (hop : s.lastOp key = some effect) :
    s.writers.servers.entry recovered.addr key = effect := by
  have hinv : s.Inv recovered :=
    hrun.invariant (fun hinv hok h => hinv.step hok h) ⟨hcoh, nofun, nofun⟩
  exact hinv.current key effect hop

end

section
attribute [local instance] djb2

/-- 9003 has missed a PUT, and a client is going to put the key to something else. -/
def duringRecovery : RecoveryState Unit :=
  .start recovering9003 (.start missedPut fun _ => [.put (keyPath ['a']) ['y']])

/-- The active backends list their keys, and the value is fetched. -/
def untilFetch : List (RecoveryAction Unit) :=
  [.begin recovering9003.getOnlineBackends, .recover false, .recover false, .recover false,
    .recover false, .recover false]

/-- The client's PUT reaches both replicas. -/
def clientPut : List (RecoveryAction Unit) :=
  [.session (.route ()), .session (.forward ()), .session (.forward ())]

/-- The PUT comes before the fetch. -/
def putThenRecover : List (RecoveryAction Unit) :=
  clientPut ++ untilFetch ++ [.recover false, .recover false]

/-- The PUT comes between fetch and sync. -/
def putDuringRecover : List (RecoveryAction Unit) :=
  untilFetch ++ clientPut ++ [.recover false, .recover false]

/-- The state after the first of these runs. -/
def recoveredAfterPut : RecoveryState Unit :=
  (exec (RecoveryState.step down9003) duringRecovery putThenRecover).getD duringRecovery

/-- A PUT that comes before the fetch is kept. -/
theorem recovery_keeps_writes_put :
    Run (RecoveryState.step down9003) (Undisturbed down9003) duringRecovery putThenRecover
        recoveredAfterPut
      ∧ recoveredAfterPut.writers.servers.entry (localAddr 9003) ['a'] = some ['y'] := by
  have hrun : Run (RecoveryState.step down9003) (Undisturbed down9003) duringRecovery putThenRecover
      recoveredAfterPut := by
    refine .cons nofun rfl (.cons nofun rfl (.cons nofun rfl (.cons trivial rfl (.cons nofun rfl
      (.cons nofun rfl (.cons nofun rfl (.cons nofun rfl (.cons ?_ rfl (.cons nofun rfl
        (.cons nofun rfl .nil))))))))))
    -- what is fetched is what the client has put
    rintro key b replicas keys effect ⟨⟩ - hop -
    exact (Option.some.inj hop).symm.trans (by decide +kernel)
  have hop : recoveredAfterPut.lastOp ['a'] = some (some ['y']) := by decide +kernel
  exact ⟨hrun, recovery_keeps_writes (coherent_servedWrites _) hrun hop⟩

/-- A client's write is not always kept: a PUT that comes between fetch and sync is undone. -/
theorem recovery_loses_write :
    ∃ s, Run (RecoveryState.step down9003) anyStep duringRecovery putDuringRecover s
      ∧ s.phase = .finished ∧ s.lastOp ['a'] = some (some ['y'])
      ∧ s.writers.servers.entry (localAddr 9003) ['a'] = some ['x'] := by
  refine ⟨_, .of_exec rfl, rfl, ?_, ?_⟩ <;> decide +kernel

end

end KvStore.Recovery
