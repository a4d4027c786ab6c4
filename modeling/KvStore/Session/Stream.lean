import KvStore.Http.Request
import Mathlib.Logic.Function.Iterate
import Mathlib.Order.Nat

/-!
# The client stream

The two nested loops of `ProxySession::forwardTraffic`: the outer one appends what `recv` returns to
`clientBuffer`, the inner one parses requests off the front of the buffer and handles them. One
iteration is `Loop.step`; what handling a request does is a parameter, since the loops only need to
know whether it goes on, returns or throws.

* `Loop.fuel_step_lt`, `Loop.final_stopped`: the loops end.
* `Loop.outcome_eq`: the outcome depends on the bytes still to come, not on how `recv` cuts them.
* `forwardTraffic_chunking`: for requests that are only recorded, the outcome of any two ways of
  cutting a stream, the termination of the inner loop and the bookkeeping of the bytes.
-/

namespace KvStore.Session
open KvStore.Lib KvStore.Http

/-- How handling a request ends: the loop goes on, the function returns, or it throws. -/
inductive Flow where
  | next
  | ret
  | throw (what : Str)
deriving DecidableEq, Repr

/-- Why `forwardTraffic` ended. -/
inductive Stop where
  | parseError
  | earlyReturn
  | exception (what : Str)
  | endOfStream
deriving DecidableEq, Repr

/-- Where control is: at the `recv` of the outer loop, at the head of the inner loop, or outside. -/
inductive Phase where
  | recv
  | parse
  | stopped (why : Stop)
deriving DecidableEq, Repr

/-- The state of the loops: the results `recv` is going to return, the buffer, and what the session
    has besides. -/
structure Loop (σ : Type*) where
  incoming : List Str
  clientBuffer : Str
  phase : Phase
  session : σ

variable {σ : Type*}

/-- What an iteration does with a complete request, once it has been handled. -/
def Loop.finish (c : Loop σ) : Flow × σ → Loop σ
  | (.next, session) =>
    { c with
      session := session
      clientBuffer := c.clientBuffer.drop (parseHTTPRequest c.clientBuffer).consumed }
  | (.ret, session) => { c with session := session, phase := .stopped .earlyReturn }
  | (.throw what, session) => { c with session := session, phase := .stopped (.exception what) }

/-- One iteration. -/
def Loop.step (handle : HttpRequest → σ → Flow × σ) (c : Loop σ) : Loop σ :=
  match c.phase with
  | .stopped _ => c
  | .recv =>
    match c.incoming with
    | [] => { c with phase := .stopped .endOfStream }
    | bytes :: incoming =>
      -- `recv` returns 0 when the client has closed the connection
      if bytes.isEmpty then { c with phase := .stopped .endOfStream }
      else
        { c with
          incoming := incoming, clientBuffer := c.clientBuffer ++ bytes, phase := .parse }
  | .parse =>
    if c.clientBuffer.isEmpty then { c with phase := .recv }
    else
      let result := parseHTTPRequest c.clientBuffer
      match result.status with
      | .incomplete => { c with phase := .recv }
      | .error => { c with phase := .stopped .parseError }
      | .complete => c.finish (handle result.request c.session)

/-- What a phase still needs at least. -/
def Phase.rank : Phase → ℕ
  | .stopped _ => 0
  | .recv => 1
  | .parse => 2

/-- A bound on the number of iterations that are left. -/
def Loop.fuel (c : Loop σ) : ℕ :=
  match c.phase with
  | .stopped _ => 0
  | phase => c.clientBuffer.length + c.incoming.flatten.length + 2 * c.incoming.length + phase.rank

/-- The state in which the loops end. -/
def Loop.final (handle : HttpRequest → σ → Flow × σ) (c : Loop σ) : Loop σ :=
  (Loop.step handle)^[c.fuel] c

/-- The state at the start of `forwardTraffic`. -/
def Loop.start (incoming : List Str) (session : σ) : Loop σ := ⟨incoming, [], .recv, session⟩

/-- `forwardTraffic` on a client connection: the state in which it ends. -/
def forwardTraffic (handle : HttpRequest → σ → Flow × σ) (incoming : List Str) (session : σ) :
    Loop σ :=
  (Loop.start incoming session).final handle

/-- The inner loop leaves a buffer that is empty or holds no complete request yet. -/
def Blocked (buffer : Str) : Prop :=
  buffer = [] ∨ (parseHTTPRequest buffer).status = .incomplete

/-- What one iteration can do. -/
inductive Loop.Step (handle : HttpRequest → σ → Flow × σ) (c : Loop σ) : Loop σ → Prop where
  | stopped {why} :
    c.phase = .stopped why →
    Loop.Step handle c c
  | closed :
    c.phase = .recv →
    (c.incoming = [] ∨ [] ∈ c.incoming) →
    Loop.Step handle c { c with phase := .stopped .endOfStream }
  | received {bytes incoming} :
    c.phase = .recv →
    c.incoming = bytes :: incoming →
    Loop.Step handle c
      { c with incoming := incoming, clientBuffer := c.clientBuffer ++ bytes, phase := .parse }
  | blocked :
    c.phase = .parse →
    Blocked c.clientBuffer →
    Loop.Step handle c { c with phase := .recv }
  | malformed :
    c.phase = .parse →
    (parseHTTPRequest c.clientBuffer).status = .error →
    Loop.Step handle c { c with phase := .stopped .parseError }
  | next {session} :
    c.phase = .parse →
    (parseHTTPRequest c.clientBuffer).status = .complete →
    handle (parseHTTPRequest c.clientBuffer).request c.session = (.next, session) →
    Loop.Step handle c
      { c with
        session := session
        clientBuffer := c.clientBuffer.drop (parseHTTPRequest c.clientBuffer).consumed }
  | ret {session} :
    c.phase = .parse →
    (parseHTTPRequest c.clientBuffer).status = .complete →
    handle (parseHTTPRequest c.clientBuffer).request c.session = (.ret, session) →
    Loop.Step handle c { c with session := session, phase := .stopped .earlyReturn }
  | throw {session what} :
    c.phase = .parse →
    (parseHTTPRequest c.clientBuffer).status = .complete →
    handle (parseHTTPRequest c.clientBuffer).request c.session = (.throw what, session) →
    Loop.Step handle c { c with session := session, phase := .stopped (.exception what) }

/-- A buffer with a complete or malformed request is not empty. -/
lemma buffer_ne_nil {buffer : Str} (h : (parseHTTPRequest buffer).status ≠ .incomplete) :
    buffer ≠ [] := by
  rintro rfl
  exact h rfl

/-- Every iteration does one of these things. -/
lemma Loop.step_spec (handle : HttpRequest → σ → Flow × σ) (c : Loop σ) :
    Loop.Step handle c (c.step handle) := by
  obtain ⟨incoming, clientBuffer, phase, session⟩ := c
  cases phase with
  | stopped why => exact .stopped rfl
  | recv =>
    cases incoming with
    | nil => exact .closed rfl (.inl rfl)
    | cons bytes incoming =>
      cases bytes with
      | nil => exact .closed rfl (.inr List.mem_cons_self)
      | cons b bytes => exact .received rfl rfl
  | parse =>
    cases clientBuffer with
    | nil => exact .blocked rfl (.inl rfl)
    | cons b buffer =>
      simp only [Loop.step, List.isEmpty_cons, Bool.false_eq_true, if_false]
      cases hs : (parseHTTPRequest (b :: buffer)).status with
      | incomplete => exact .blocked rfl (.inr hs)
      | error => exact .malformed rfl hs
      | complete =>
        simp only
        rcases hh : handle (parseHTTPRequest (b :: buffer)).request session with ⟨flow, session'⟩
        cases flow with
        | next => exact .next rfl hs hh
        | ret => exact .ret rfl hs hh
        | throw what => exact .throw rfl hs hh

/-- Once stopped, the loops stay stopped. -/
lemma Loop.step_of_stopped {handle : HttpRequest → σ → Flow × σ} {c : Loop σ} {why : Stop}
    (h : c.phase = .stopped why) : c.step handle = c := by
  unfold Loop.step
  rw [h]

/-- The bound is zero exactly when the loops have stopped. -/
lemma Loop.fuel_eq_zero {c : Loop σ} : c.fuel = 0 ↔ ∃ why, c.phase = .stopped why := by
  unfold Loop.fuel
  cases hp : c.phase with
  | stopped why => simp
  | recv => simp [Phase.rank]
  | parse => simp [Phase.rank]

/-- Every iteration before the stop lowers the bound. -/
lemma Loop.fuel_step_lt (handle : HttpRequest → σ → Flow × σ) {c : Loop σ} (h : c.fuel ≠ 0) :
    (c.step handle).fuel < c.fuel := by
  have hs := c.step_spec handle
  generalize c.step handle = c' at hs
  cases hs with
  | stopped hp => exact absurd (fuel_eq_zero.2 ⟨_, hp⟩) h
  | closed hp => exact Nat.pos_of_ne_zero h
  | received hp hi => simp [Loop.fuel, hp, hi, Phase.rank]; omega
  | blocked hp hb => simp [Loop.fuel, hp, Phase.rank]
  | malformed hp he => exact Nat.pos_of_ne_zero h
  | next hp hc hh =>
    have h1 := consumed_pos hc
    have h2 := consumed_le hc
    simp only [Loop.fuel, hp, Phase.rank, List.length_drop]
    omega
  | ret hp hc hh => exact Nat.pos_of_ne_zero h
  | throw hp hc hh => exact Nat.pos_of_ne_zero h

/-- The loops have stopped after as many iterations as the bound says. -/
lemma Loop.fuel_iterate (handle : HttpRequest → σ → Flow × σ) {c : Loop σ} {n : ℕ}
    (h : c.fuel ≤ n) : ((Loop.step handle)^[n] c).fuel = 0 := by
  induction n generalizing c with
  | zero => exact Nat.le_zero.1 h
  | succ n ih =>
    rw [Function.iterate_succ_apply]
    by_cases h0 : c.fuel = 0
    · obtain ⟨why, hp⟩ := fuel_eq_zero.1 h0
      exact ih (by rw [step_of_stopped hp]; omega)
    · have := fuel_step_lt handle h0
      exact ih (by omega)

/-- Iterating at least as often as the bound says gives the final state. -/
lemma Loop.iterate_eq_final (handle : HttpRequest → σ → Flow × σ) {c : Loop σ} {n : ℕ}
    (h : c.fuel ≤ n) : (Loop.step handle)^[n] c = c.final handle := by
  obtain ⟨why, hp⟩ := fuel_eq_zero.1 (fuel_iterate handle (le_refl c.fuel))
  rw [show n = (n - c.fuel) + c.fuel by omega, Function.iterate_add_apply]
  exact Function.iterate_fixed (step_of_stopped hp) _

/-- The loops end. -/
lemma Loop.final_stopped (handle : HttpRequest → σ → Flow × σ) (c : Loop σ) :
    ∃ why, (c.final handle).phase = .stopped why :=
  fuel_eq_zero.1 (fuel_iterate handle (le_refl c.fuel))

/-- An iteration does not change where the loops end. -/
lemma Loop.final_step (handle : HttpRequest → σ → Flow × σ) (c : Loop σ) :
    (c.step handle).final handle = c.final handle := by
  have hle : (c.step handle).fuel ≤ c.fuel := by
    by_cases h0 : c.fuel = 0
    · obtain ⟨why, hp⟩ := fuel_eq_zero.1 h0
      rw [step_of_stopped hp]
    · exact (fuel_step_lt handle h0).le
  rw [← iterate_eq_final handle hle, ← Function.iterate_succ_apply]
  exact iterate_eq_final handle (Nat.le_succ _)

/-- Stopped loops are in their final state. -/
lemma Loop.final_of_stopped {handle : HttpRequest → σ → Flow × σ} {c : Loop σ} {why : Stop}
    (h : c.phase = .stopped why) : c.final handle = c := by
  rw [Loop.final, fuel_eq_zero.2 ⟨why, h⟩]
  rfl

/-- The state in which the whole rest of the stream has arrived at once. -/
def Loop.gather (c : Loop σ) : Loop σ :=
  match c.phase with
  | .stopped _ => c
  | _ => ⟨[], c.clientBuffer ++ c.incoming.flatten, .parse, c.session⟩

/-- What is observed of the end of a session. -/
def Loop.outcome (handle : HttpRequest → σ → Flow × σ) (c : Loop σ) : σ × Phase :=
  ((c.final handle).session, (c.final handle).phase)

/-- An iteration does not change the outcome. -/
lemma Loop.outcome_step (handle : HttpRequest → σ → Flow × σ) (c : Loop σ) :
    (c.step handle).outcome handle = c.outcome handle := by
  rw [Loop.outcome, Loop.outcome, final_step]

/-- At `recv` the inner loop has been left. -/
def Loop.Idle (c : Loop σ) : Prop := c.phase = .recv → Blocked c.clientBuffer

/-- Every iteration leaves the loops idle or busy as they should be. -/
lemma Loop.Idle.step {handle : HttpRequest → σ → Flow × σ} {c : Loop σ} (h : c.Idle) :
    (c.step handle).Idle := by
  have hs := c.step_spec handle
  generalize c.step handle = c' at hs
  cases hs with
  | stopped hp => exact h
  | closed hp => exact fun e => nomatch e
  | received hp hi => exact fun e => nomatch e
  | blocked hp hb => exact fun _ => hb
  | malformed hp he => exact fun e => nomatch e
  | next hp hc hh => exact fun e => absurd (hp.symm.trans e) nofun
  | ret hp hc hh => exact fun e => nomatch e
  | throw hp hc hh => exact fun e => nomatch e

/-- An iteration that finds a complete request handles it. -/
lemma Loop.step_of_complete {handle : HttpRequest → σ → Flow × σ} {c : Loop σ}
    (hp : c.phase = .parse) (hc : (parseHTTPRequest c.clientBuffer).status = .complete) :
    c.step handle = c.finish (handle (parseHTTPRequest c.clientBuffer).request c.session) := by
  have hne : c.clientBuffer.isEmpty = false :=
    List.isEmpty_eq_false_iff.2 (buffer_ne_nil (by simp [hc]))
  simp only [Loop.step, hp, hne, hc, Bool.false_eq_true, if_false]

/-- An iteration that finds a malformed request stops. -/
lemma Loop.step_of_error {handle : HttpRequest → σ → Flow × σ} {c : Loop σ}
    (hp : c.phase = .parse) (he : (parseHTTPRequest c.clientBuffer).status = .error) :
    c.step handle = { c with phase := .stopped .parseError } := by
  have hne : c.clientBuffer.isEmpty = false :=
    List.isEmpty_eq_false_iff.2 (buffer_ne_nil (by simp [he]))
  simp only [Loop.step, hp, hne, he, Bool.false_eq_true, if_false]

/-- An iteration that finds no complete request goes back to `recv`. -/
lemma Loop.step_of_blocked {handle : HttpRequest → σ → Flow × σ} {c : Loop σ}
    (hp : c.phase = .parse) (hb : Blocked c.clientBuffer) :
    c.step handle = { c with phase := .recv } := by
  rcases hb with hb | hb
  · simp [Loop.step, hp, hb]
  · by_cases he : c.clientBuffer.isEmpty = true <;> simp [Loop.step, hp, he, hb]

/-- An iteration that finds the stream at its end stops. -/
lemma Loop.step_of_closed {handle : HttpRequest → σ → Flow × σ} {c : Loop σ}
    (hp : c.phase = .recv) (hi : c.incoming = []) :
    c.step handle = { c with phase := .stopped .endOfStream } := by
  simp [Loop.step, hp, hi]

/-- The outcome of loops that have stopped. -/
lemma Loop.outcome_of_stopped {handle : HttpRequest → σ → Flow × σ} {c : Loop σ} {why : Stop}
    (h : c.phase = .stopped why) : c.outcome handle = (c.session, .stopped why) := by
  rw [Loop.outcome, final_of_stopped h, h]

/-- The outcome of loops that stop in the next iteration. -/
lemma Loop.outcome_of_step {handle : HttpRequest → σ → Flow × σ} {c c' : Loop σ} {why : Stop}
    (hs : c.step handle = c') (h : c'.phase = .stopped why) :
    c.outcome handle = (c'.session, .stopped why) := by
  rw [← outcome_step, hs, outcome_of_stopped h]

/-- Before the stop, gathering puts the rest of the stream into the buffer. -/
lemma Loop.gather_eq {c : Loop σ} (hp : c.fuel ≠ 0) :
    c.gather = ⟨[], c.clientBuffer ++ c.incoming.flatten, .parse, c.session⟩ := by
  unfold Loop.gather
  split
  · exact absurd (fuel_eq_zero.2 ⟨_, ‹_›⟩) hp
  · rfl

/-- An iteration means the same when the rest of the stream is already in the buffer: the parser's
    answer does not depend on the bytes behind a request. -/
lemma Loop.outcome_gather_step {handle : HttpRequest → σ → Flow × σ} {c : Loop σ}
    (hidle : c.Idle) (hne : [] ∉ c.incoming) :
    (c.step handle).gather.outcome handle = c.gather.outcome handle := by
  by_cases h0 : c.fuel = 0
  · obtain ⟨why, hp⟩ := fuel_eq_zero.1 h0
    rw [step_of_stopped hp]
  have hs := c.step_spec handle
  rw [gather_eq h0]
  have happ (h : (parseHTTPRequest c.clientBuffer).status ≠ .incomplete) :
      parseHTTPRequest (c.clientBuffer ++ c.incoming.flatten) = parseHTTPRequest c.clientBuffer :=
    parseHTTPRequest_append h _
  -- handling the first request of the gathered buffer
  have hfinish (hc : (parseHTTPRequest c.clientBuffer).status = .complete) :
      Loop.step handle ⟨[], c.clientBuffer ++ c.incoming.flatten, .parse, c.session⟩
        = Loop.finish ⟨[], c.clientBuffer ++ c.incoming.flatten, .parse, c.session⟩
            (handle (parseHTTPRequest c.clientBuffer).request c.session) := by
    have happ := happ (by simp [hc])
    rw [step_of_complete rfl (by rw [happ]; exact hc), happ]
  generalize c.step handle = c' at hs
  cases hs with
  | stopped hp => exact absurd (fuel_eq_zero.2 ⟨_, hp⟩) h0
  | closed hp hi =>
    have hnil : c.incoming = [] := hi.resolve_right hne
    have hblocked : Blocked (c.clientBuffer ++ c.incoming.flatten) := by
      simpa [hnil] using hidle hp
    rw [← outcome_step handle ⟨_, _, .parse, _⟩, step_of_blocked rfl hblocked]
    have hstep : Loop.step handle ⟨[], c.clientBuffer ++ c.incoming.flatten, .recv, c.session⟩ = _ :=
      step_of_closed rfl rfl
    exact (outcome_of_stopped rfl).trans (outcome_of_step hstep rfl).symm
  | received hp hi => simp [Loop.gather, hi]
  | blocked hp hb => rfl
  | malformed hp he =>
    have happ := happ (by simp [he])
    have hstep : Loop.step handle ⟨[], c.clientBuffer ++ c.incoming.flatten, .parse, c.session⟩ = _ :=
      step_of_error rfl (by rw [happ]; exact he)
    exact (outcome_of_stopped rfl).trans (outcome_of_step hstep rfl).symm
  | next hp hc hh =>
    rw [← outcome_step handle ⟨_, _, .parse, c.session⟩, hfinish hc, hh]
    simp only [Loop.finish, Loop.gather, hp, happ (by simp [hc] : _ ≠ _),
      List.drop_append_of_le_length (consumed_le hc)]
  | ret hp hc hh =>
    have hstep := hfinish hc
    rw [hh] at hstep
    exact (outcome_of_stopped rfl).trans (outcome_of_step hstep rfl).symm
  | throw hp hc hh =>
    have hstep := hfinish hc
    rw [hh] at hstep
    exact (outcome_of_stopped rfl).trans (outcome_of_step hstep rfl).symm

/-- The outcome depends on the bytes still to come, not on how `recv` cuts them. -/
theorem Loop.outcome_eq {handle : HttpRequest → σ → Flow × σ} {c : Loop σ} (hidle : c.Idle)
    (hne : [] ∉ c.incoming) : c.outcome handle = c.gather.outcome handle := by
  -- induction on the bound: one iteration changes neither side
  generalize hn : c.fuel = n
  induction n using Nat.strong_induction_on generalizing c with
  | _ n ih =>
    by_cases h0 : c.fuel = 0
    · obtain ⟨why, hp⟩ := fuel_eq_zero.1 h0
      unfold Loop.gather
      rw [hp]
    · have hsub : [] ∉ (c.step handle).incoming := by
        have hs := c.step_spec handle
        generalize c.step handle = c' at hs
        cases hs with
        | received hp hi => exact fun h => hne (hi ▸ List.mem_cons_of_mem _ h)
        | _ => exact hne
      rw [← outcome_step, ih _ (hn ▸ fuel_step_lt handle h0) hidle.step hsub rfl,
        outcome_gather_step hidle hne]

/-- What handling a request keeps holds of the session in the end. -/
lemma forwardTraffic_invariant {I : σ → Prop} {handle : HttpRequest → σ → Flow × σ}
    (hstep : ∀ request s, I s → I (handle request s).2) (incoming : List Str) {s : σ} (h : I s) :
    I (forwardTraffic handle incoming s).session := by
  have hiter (n : ℕ) {c : Loop σ} (hc : I c.session) : I ((Loop.step handle)^[n] c).session := by
    induction n generalizing c with
    | zero => exact hc
    | succ n ih =>
      refine ih ?_
      have hs := c.step_spec handle
      generalize c.step handle = c' at hs
      cases hs with
      | next _ _ hh | ret _ _ hh | throw _ _ hh =>
        have := hstep (parseHTTPRequest c.clientBuffer).request c.session hc
        rwa [hh] at this
      | _ => exact hc
  exact hiter _ h

/-- The loops on a part of the session. -/
def Loop.map {τ : Type*} (f : τ → σ) (c : Loop τ) : Loop σ :=
  ⟨c.incoming, c.clientBuffer, c.phase, f c.session⟩

/-- Handling that acts on a part of the session in its own right lets the loops do so. -/
lemma forwardTraffic_map {τ : Type*} (f : τ → σ) {handle : HttpRequest → σ → Flow × σ}
    {handle' : HttpRequest → τ → Flow × τ}
    (h : ∀ request t, handle request (f t) = ((handle' request t).1, f (handle' request t).2))
    (incoming : List Str) (t : τ) :
    (forwardTraffic handle' incoming t).map f = forwardTraffic handle incoming (f t) := by
  have hstep (c : Loop τ) : (c.step handle').map f = (c.map f).step handle := by
    obtain ⟨incoming, clientBuffer, phase, session⟩ := c
    cases phase with
    | stopped why => rfl
    | recv =>
      rcases incoming with _ | ⟨_ | ⟨b, bytes⟩, incoming⟩ <;> rfl
    | parse =>
      cases clientBuffer with
      | nil => rfl
      | cons b buffer =>
        simp only [Loop.step, Loop.map, List.isEmpty_cons, Bool.false_eq_true, if_false]
        cases (parseHTTPRequest (b :: buffer)).status with
        | incomplete | error => rfl
        | complete =>
          simp only [h]
          rcases handle' (parseHTTPRequest (b :: buffer)).request session with ⟨_ | _ | _, t'⟩ <;> rfl
  have hiter (n : ℕ) (c : Loop τ) :
      ((Loop.step handle')^[n] c).map f = (Loop.step handle)^[n] (c.map f) := by
    induction n generalizing c with
    | zero => rfl
    | succ n ih => rw [Function.iterate_succ_apply, ih, hstep, Function.iterate_succ_apply]
  exact hiter _ _

/-- Two ways of cutting one stream have the same outcome. -/
lemma forwardTraffic_outcome_eq (handle : HttpRequest → σ → Flow × σ) {cs cs' : List Str} (s : σ)
    (hne : [] ∉ cs) (hne' : [] ∉ cs') (h : cs.flatten = cs'.flatten) :
    (Loop.start cs s).outcome handle = (Loop.start cs' s).outcome handle := by
  have hidle (x : List Str) : (Loop.start x s).Idle := fun _ => .inl rfl
  rw [Loop.outcome_eq (hidle cs) hne, Loop.outcome_eq (hidle cs') hne']
  simp only [Loop.gather, Loop.start, h]

/-- Why `forwardTraffic` ends when the client sends nothing after a request. -/
def Flow.stop : Flow → Stop
  | .next => .endOfStream
  | .ret => .earlyReturn
  | .throw what => .exception what

/-- The bytes are these requests, one after the other. -/
inductive AreRequests : Str → List HttpRequest → Prop where
  | nil :
    AreRequests [] []
  | cons {buffer requests} :
    (parseHTTPRequest buffer).status = .complete →
    AreRequests (buffer.drop (parseHTTPRequest buffer).consumed) requests →
    AreRequests buffer ((parseHTTPRequest buffer).request :: requests)

/-- Handling requests one after the other, until one of them ends the function. -/
def handleAll (handle : HttpRequest → σ → Flow × σ) : List HttpRequest → σ → σ × Stop
  | [], s => (s, .endOfStream)
  | request :: requests, s =>
    match handle request s with
    | (.next, s') => handleAll handle requests s'
    | (flow, s') => (s', flow.stop)

/-- A connection that carries some requests: however it is cut, they are handled one after the
    other. -/
lemma forwardTraffic_requests (handle : HttpRequest → σ → Flow × σ) {incoming : List Str}
    (hne : [] ∉ incoming) {requests : List HttpRequest} (h : AreRequests incoming.flatten requests)
    (s : σ) : (forwardTraffic handle incoming s).session = (handleAll handle requests s).1
      ∧ (forwardTraffic handle incoming s).phase = .stopped (handleAll handle requests s).2 := by
  have houtcome : ∀ {buffer requests}, AreRequests buffer requests → ∀ s,
      (⟨[], buffer, .parse, s⟩ : Loop σ).outcome handle
        = ((handleAll handle requests s).1, .stopped (handleAll handle requests s).2) := by
    intro buffer requests h
    induction h with
    | nil =>
      -- nothing is left in the buffer, and nothing more arrives
      intro s
      have hwaits : Loop.step handle ⟨[], [], .parse, s⟩ = ⟨[], [], .recv, s⟩ := rfl
      have hclosed : Loop.step handle ⟨[], [], .recv, s⟩
          = ⟨[], [], .stopped .endOfStream, s⟩ := rfl
      rw [← Loop.outcome_step, hwaits]
      exact Loop.outcome_of_step hclosed rfl
    | @cons buffer requests hc _ ih =>
      intro s
      rw [← Loop.outcome_step, Loop.step_of_complete rfl hc, handleAll]
      rcases handle (parseHTTPRequest buffer).request s with ⟨flow, s'⟩
      cases flow with
      | next => exact ih s'
      | ret => exact Loop.outcome_of_stopped rfl
      | throw what => exact Loop.outcome_of_stopped rfl
  have hgather : (Loop.start incoming s).gather = ⟨[], incoming.flatten, .parse, s⟩ := rfl
  have hall : (Loop.start incoming s).outcome handle
      = ((handleAll handle requests s).1, .stopped (handleAll handle requests s).2) := by
    rw [Loop.outcome_eq (fun _ => .inl rfl) hne, hgather]
    exact houtcome h s
  exact ⟨congrArg Prod.fst hall, congrArg Prod.snd hall⟩

/-- The body of a request that has been read fits into memory. -/
lemma AreRequests.length_body_lt {buffer : Str} {requests : List HttpRequest}
    (h : AreRequests buffer requests) : ∀ request ∈ requests, request.body.length < 2 ^ 63 := by
  induction h with
  | nil => nofun
  | cons hc _ ih => exact List.forall_mem_cons.2 ⟨Http.length_body_lt hc, ih⟩

/-- The bytes on a connection are one request, cut in any way. -/
structure Carries (incoming : List Str) (request : HttpRequest) : Prop where
  no_empty : [] ∉ incoming
  complete : (parseHTTPRequest incoming.flatten).status = .complete
  request_eq : (parseHTTPRequest incoming.flatten).request = request
  all : (parseHTTPRequest incoming.flatten).consumed = incoming.flatten.length

/-- The bytes are the one request. -/
lemma Carries.areRequests {incoming : List Str} {request : HttpRequest}
    (h : Carries incoming request) : AreRequests incoming.flatten [request] := by
  rw [← h.request_eq]
  refine .cons h.complete ?_
  rw [h.all, List.drop_length]
  exact .nil

/-- A connection that carries one request: however it is cut, the request is handled once. -/
lemma forwardTraffic_carries (handle : HttpRequest → σ → Flow × σ) {incoming : List Str}
    {request : HttpRequest} (h : Carries incoming request) (s : σ) :
    (forwardTraffic handle incoming s).session = (handle request s).2
      ∧ (forwardTraffic handle incoming s).phase = .stopped (handle request s).1.stop := by
  obtain ⟨hsession, hphase⟩ := forwardTraffic_requests handle h.no_empty h.areRequests s
  rw [hsession, hphase]
  simp only [handleAll]
  rcases handle request s with ⟨flow, s'⟩
  cases flow with
  | next => exact ⟨rfl, rfl⟩
  | ret => exact ⟨rfl, rfl⟩
  | throw what => exact ⟨rfl, rfl⟩

/-- The inner loop is left after at most one iteration for each byte of the buffer and one more. -/
lemma Loop.parse_left (handle : HttpRequest → σ → Flow × σ) {c : Loop σ} {n : ℕ}
    (hn : c.clientBuffer.length ≤ n) :
    ∃ m ≤ n + 1, ((Loop.step handle)^[m] c).phase ≠ .parse := by
  by_cases hp : c.phase = .parse
  · induction n generalizing c with
    | zero =>
      refine ⟨1, le_rfl, ?_⟩
      rw [Function.iterate_one,
        step_of_blocked hp (.inl (List.length_eq_zero_iff.1 (Nat.le_zero.1 hn)))]
      nofun
    | succ n ih =>
      by_cases hp' : (c.step handle).phase = .parse
      · have hs := c.step_spec handle
        -- only a request that has been handled keeps control in the inner loop
        have hlt : (c.step handle).clientBuffer.length < c.clientBuffer.length := by
          generalize c.step handle = c' at hs hp'
          cases hs with
          | stopped hw => exact absurd (hp.symm.trans hw) nofun
          | received hr => exact absurd (hp.symm.trans hr) nofun
          | next _ hc _ =>
            have h1 := consumed_pos hc
            have h2 := consumed_le hc
            rw [List.length_drop]
            omega
          | closed | blocked | malformed | ret | throw => exact absurd hp' nofun
        obtain ⟨m, hm, hph⟩ := ih (c := c.step handle) (by omega) hp'
        exact ⟨m + 1, by omega, hph⟩
      · exact ⟨1, by omega, hp'⟩
  · exact ⟨0, by omega, hp⟩

/-- Handling that only records the requests and goes on or returns as `out` says. -/
def record (out : ℕ → Bool) (request : HttpRequest) (log : List HttpRequest) :
    Flow × List HttpRequest :=
  (if out log.length then .next else .ret, log ++ [request])

/-- The requests whose handling went on to the next one: all that were extracted, but not one whose
    handling has returned from the function. -/
def Loop.handled (c : Loop (List HttpRequest)) : List HttpRequest :=
  if c.phase = .stopped .earlyReturn then c.session.dropLast else c.session

/-- The bytes of the chunks `received` are accounted for: they are those of the requests handled and
    of the buffer, at whose front a request that made the function return still is. -/
structure Loop.Books (received : List Str) (c : Loop (List HttpRequest)) : Prop where
  bytes : (c.handled.map HttpRequest.rawRequest).flatten ++ c.clientBuffer = received.flatten
  last : c.phase = .stopped .earlyReturn →
    ∃ r, c.session = c.handled ++ [r] ∧ r.rawRequest <+: c.clientBuffer

/-- Outside of an early return every extracted request has been handled. -/
lemma Loop.handled_eq {c : Loop (List HttpRequest)} (h : c.phase ≠ .stopped .earlyReturn) :
    c.handled = c.session := if_neg h

/-- A step that leaves the buffer and the requests alone keeps the books. -/
lemma Loop.Books.of_phase {received : List Str} {c : Loop (List HttpRequest)} (phase : Phase)
    (hb : c.Books received) (h : c.phase ≠ .stopped .earlyReturn)
    (h' : phase ≠ .stopped .earlyReturn) : Loop.Books received { c with phase := phase } := by
  refine ⟨?_, fun e => absurd e h'⟩
  rw [← hb.bytes, Loop.handled_eq h, Loop.handled_eq h']

/-- Every iteration keeps the books. -/
lemma Loop.Books.step {out : ℕ → Bool} {cs received : List Str} {c : Loop (List HttpRequest)}
    (hb : c.Books received) (hcs : cs = received ++ c.incoming) :
    ∃ received', cs = received' ++ (c.step (record out)).incoming
      ∧ (c.step (record out)).Books received' := by
  have hs := c.step_spec (record out)
  generalize c.step (record out) = c' at hs
  have hne {p : Phase} (hp : c.phase = p) (h : p ≠ .stopped .earlyReturn) :
      c.phase ≠ .stopped .earlyReturn := hp ▸ h
  have hall (h : c.phase ≠ .stopped .earlyReturn) : c.handled = c.session := Loop.handled_eq h
  cases hs with
  | stopped hp => exact ⟨received, hcs, hb⟩
  | closed hp hi => exact ⟨received, hcs, hb.of_phase _ (hne hp nofun) nofun⟩
  | @received bytes incoming hp hi =>
    refine ⟨received ++ [bytes], by rw [hcs, hi]; simp, ?_, nofun⟩
    have h := hb.bytes
    rw [hall (hne hp nofun)] at h
    rw [Loop.handled_eq (by simp), List.flatten_append, ← h]
    simp
  | blocked hp hbl => exact ⟨received, hcs, hb.of_phase _ (hne hp nofun) nofun⟩
  | malformed hp he => exact ⟨received, hcs, hb.of_phase _ (hne hp nofun) nofun⟩
  | next hp hc hh =>
    obtain ⟨-, rfl⟩ := Prod.mk.inj hh
    refine ⟨received, hcs, ?_, fun e => absurd (hp.symm.trans e) nofun⟩
    have h := hb.bytes
    rw [hall (hne hp nofun)] at h
    rw [Loop.handled_eq (by simp [hp]), ← h]
    simp [rawRequest_eq hc]
  | ret hp hc hh =>
    obtain ⟨-, rfl⟩ := Prod.mk.inj hh
    have hdrop : (⟨c.incoming, c.clientBuffer, .stopped .earlyReturn,
        c.session ++ [(parseHTTPRequest c.clientBuffer).request]⟩ : Loop _).handled = c.session := by
      simp [Loop.handled]
    refine ⟨received, hcs, ?_, fun _ => ⟨(parseHTTPRequest c.clientBuffer).request, ?_, ?_⟩⟩
    · rw [hdrop, ← hb.bytes, hall (hne hp nofun)]
    · rw [hdrop]
    · rw [rawRequest_eq hc]
      exact List.take_prefix _ _
  | throw hp hc hh =>
    have hflow := congrArg Prod.fst hh
    simp only [record] at hflow
    split_ifs at hflow

/-- The books are kept in every state of a run. -/
lemma Loop.Books.iterate (out : ℕ → Bool) (cs : List Str) (n : ℕ) :
    ∃ received, cs = received ++ ((Loop.step (record out))^[n] (Loop.start cs [])).incoming
      ∧ ((Loop.step (record out))^[n] (Loop.start cs [])).Books received := by
  induction n with
  | zero => exact ⟨[], rfl, rfl, nofun⟩
  | succ n ih =>
    obtain ⟨received, hcs, hb⟩ := ih
    rw [Function.iterate_succ_apply']
    exact hb.step hcs

/-- Requests do not depend on how the stream is cut: two ways of cutting it into non-empty chunks
    extract the same requests and end for the same reason, the inner loop always ends, and at every
    point the bytes received are those of the requests handled followed by the buffer. -/
theorem forwardTraffic_chunking (out : ℕ → Bool) {cs cs' : List Str} (hne : [] ∉ cs)
    (hne' : [] ∉ cs') (h : cs.flatten = cs'.flatten) :
    ((forwardTraffic (record out) cs []).session = (forwardTraffic (record out) cs' []).session
      ∧ (forwardTraffic (record out) cs []).phase = (forwardTraffic (record out) cs' []).phase
      ∧ ∃ why, (forwardTraffic (record out) cs []).phase = .stopped why)
    ∧ (∀ c : Loop (List HttpRequest),
        ∃ n ≤ c.clientBuffer.length + 1, ((Loop.step (record out))^[n] c).phase ≠ .parse)
    ∧ ∀ n, ∃ received,
        cs = received ++ ((Loop.step (record out))^[n] (Loop.start cs [])).incoming
        ∧ ((Loop.step (record out))^[n] (Loop.start cs [])).Books received := by
  obtain ⟨hs, hp⟩ := Prod.mk.inj (forwardTraffic_outcome_eq (record out) [] hne hne' h)
  exact ⟨⟨hs, hp, Loop.final_stopped _ _⟩, fun c => Loop.parse_left _ le_rfl,
    Loop.Books.iterate out cs⟩

/-- A pipelined stream in one piece and cut in two places. -/
theorem forwardTraffic_chunking_pipelined :
    (forwardTraffic (record fun _ => true)
        ["GET /kvstore/a HTTP/1.1\r\nHost: x\r\n\r\nGET /kvstore/b HTTP/1.1\r\nHost: x\r\n\r\n".toList]
        []).session
      = (forwardTraffic (record fun _ => true)
          ["GET /kvstore/a HTTP/1.1\r\nHost: x\r".toList,
            "\n\r\nGET /kvs".toList, "tore/b HTTP/1.1\r\nHost: x\r\n\r\n".toList]
          []).session :=
  (forwardTraffic_chunking (fun _ => true) (by decide) (by decide) (by decide)).1.1

end KvStore.Session
