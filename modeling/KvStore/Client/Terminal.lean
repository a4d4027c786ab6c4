import KvStore.Client.KvClient
import KvStore.Cluster.SingleMap

/-!
# From the terminal to the servers

The command line client in front of the whole system: its requests go through a session of the
balancer to the servers of their keys, and what it prints are the bodies of the answers. As long as
no backend fails this cannot be told from a client of one map.

* `outputs_perform`: worlds that answer alike print alike.
* `client_single_map`: whatever is typed, what is printed is what one map would make it print.
* `script_answers`: a script of operations, and the answers to it.
-/

namespace KvStore.Client
open KvStore.Lib KvStore.Ring KvStore.Http KvStore.Server KvStore.Session KvStore.Cluster

/-- The HTTP library of the client: the request that the balancer gets for an operation, and the body
    that it finds in an answer. -/
structure HttpClient where
  request : KeyOp → HttpRequest
  body : Str → Option Str

/-- The client finds the bodies of the responses that the servers' library sends for the handlers. -/
def HttpClient.Faithful (client : HttpClient) (lib : HttpLib) : Prop :=
  ∀ req, IsOrdinary req → ∀ status ∈ [(200 : ℤ), 201, 404, 409], ∀ body : Str,
    body.length < 2 ^ 63 → client.body (lib.write req (closing.reply status body)).flatten = some body

/-- One map that answers. -/
def oneMap : Answering SingleMap := fun op m => (some (m.step op).1.2, (m.step op).2)

section
variable {σ τ : Type*} {send : Answering σ} {send' : Answering τ} {R : σ → τ → Prop}

/-- Worlds that answer alike print alike. -/
lemma outputs_perform {lines : List Str}
    (hsend : ∀ line ∈ lines, ∀ op, parseCommand line = .request op → ∀ world world', R world world' →
      (send op world).1 = (send' op world').1 ∧ R (send op world).2 (send' op world').2)
    {world : σ} {world' : τ} (h : R world world') :
    (outputs (perform send) world lines).1 = (outputs (perform send') world' lines).1
      ∧ R (outputs (perform send) world lines).2 (outputs (perform send') world' lines).2 := by
  have hstep (w : σ) (w' : τ) (line line' : Str) (hw : R w w') (hl : line = line' ∧ line ∈ lines) :
      (perform send w line).1 = (perform send' w' line').1
        ∧ R (perform send w line).2 (perform send' w' line').2 := by
    obtain ⟨rfl, hmem⟩ := hl
    unfold perform
    cases hcommand : parseCommand line with
    | exit => exact ⟨rfl, hw⟩
    | usage command => exact ⟨rfl, hw⟩
    | unknown => exact ⟨rfl, hw⟩
    | request op =>
      obtain ⟨hbody, hworld⟩ := hsend line hmem op hcommand w w' hw
      dsimp only
      rw [hbody]
      cases (send' op w').1 <;> exact ⟨rfl, hworld⟩
  have hsame : List.Forall₂ (fun line line' => line = line' ∧ line ∈ lines) lines lines :=
    List.forall₂_same.2 fun line hline => ⟨rfl, hline⟩
  obtain ⟨hprinted, hworld⟩ := outputs_simulates R hstep hsame h
  exact ⟨List.forall₂_eq_eq_eq ▸ hprinted, hworld⟩

end

/-- What can be asked for can be typed, if its value is a line of text. -/
lemma typable {op : KeyOp} (h : op.WellFormed)
    (hvalue : ∀ value, op.value = some value → value ≠ [] ∧ '\n' ∉ value) : Typable op := by
  refine ⟨ne_nil_of_isWord h.word, fun c hc => ⟨?_, ?_⟩, hvalue⟩
  · by_contra hspace
    simp only [isSpace, Bool.not_eq_false, Bool.or_eq_true, decide_eq_true_iff, or_assoc] at hspace
    rcases hspace with rfl | rfl | rfl | rfl | rfl | rfl <;>
      exact not_mem_of_isWord h.word rfl hc
  · rintro rfl
    exact not_mem_of_isWord h.word rfl hc

/-- What is printed for an answer. -/
def replied (answer : ℤ × Str) : Str :=
  ">> Server replied: ".toList ++ answer.2 ++ "\n".toList

/-- What is printed for some operations are the answers of the map. -/
lemma outputs_oneMap {ops : List KeyOp} (h : ∀ op ∈ ops, Typable op) (m : SingleMap) :
    (outputs (perform oneMap) m (ops.map commandLine)).1.flatMap (">> ".toList ++ ·)
      = (outputs SingleMap.step m ops).1.flatMap replied := by
  induction ops generalizing m with
  | nil => rfl
  | cons op ops ih =>
    obtain ⟨hop, hops⟩ := List.forall_mem_cons.1 h
    have hperform : perform oneMap m (commandLine op)
        = ("Server replied: ".toList ++ (m.step op).1.2 ++ "\n".toList, (m.step op).2) := by
      rw [perform, parseCommand_commandLine hop]
      rfl
    simp only [List.map_cons, outputs, hperform, List.flatMap_cons, ih hops]
    rfl

section
variable [StdHash]

/-- The answers that come through a session of the balancer. -/
def throughBalancer (lib : HttpLib) (client : HttpClient) : Answering (ProxySession Fleet) :=
  fun op s =>
    let s' := (handleRequest (soundNetwork lib) (client.request op) s).2
    ((s'.sent.drop s.sent.length).head?.bind client.body, s')

/-- A session whose servers hold what the map does. -/
def Serves (r : Router) (s : ProxySession Fleet) (m : SingleMap) : Prop :=
  ∃ servers sent, s = .idle r servers sent ∧ Holds r servers m

variable {lib : HttpLib} {client : HttpClient} {r : Router}

omit [StdHash] in
/-- The client finds the body of an answer. -/
lemma HttpClient.Faithful.body_eq (h : client.Faithful lib) {op : KeyOp} {entry : Option Str}
    {bytes : Str} (hanswer : IsAnswer lib op entry bytes) :
    client.body bytes = some (op.answer entry).2 := by
  obtain ⟨hlen, req, hordinary, rfl⟩ := hanswer.wrote
  exact h req hordinary _ (answer_status op entry) _ hlen

/-- A request through the balancer is answered like by one map. -/
lemma Serves.send {s : ProxySession Fleet} {m : SingleMap} (h : Serves r s m) (hlib : lib.Faithful)
    (hclient : client.Faithful lib) (hup : r.AllUp) (he : r.hashRing.empty = false) {op : KeyOp}
    (hop : IsOp lib (client.request op) op) (hlen : (client.request op).body.length < 2 ^ 63) :
    (throughBalancer lib client op s).1 = (oneMap op m).1
      ∧ Serves r (throughBalancer lib client op s).2 (oneMap op m).2 := by
  obtain ⟨servers, sent, rfl, hholds⟩ := h
  obtain ⟨servers', bytes, hhandle, hholds', hanswer⟩ :=
    hholds.handleRequest hlib hup he hop hlen sent
  simp only [throughBalancer, hhandle]
  refine ⟨?_, servers', sent ++ [bytes], rfl, hholds'⟩
  simp only [ProxySession.idle, List.drop_left, List.head?_cons, Option.bind_some]
  exact hclient.body_eq hanswer

/-- The requests of these lines arrive at the balancer and at the servers as they are meant. -/
def Carried (lib : HttpLib) (client : HttpClient) (lines : List Str) : Prop :=
  ∀ line ∈ lines, ∀ op, parseCommand line = .request op →
    IsOp lib (client.request op) op ∧ (client.request op).body.length < 2 ^ 63

/-- So what is printed is what one map would make the client print. -/
lemma Serves.transcript {s : ProxySession Fleet} {m : SingleMap} (h : Serves r s m)
    (hlib : lib.Faithful) (hclient : client.Faithful lib) (hup : r.AllUp)
    (he : r.hashRing.empty = false) {lines : List Str} (hlines : Carried lib client lines) :
    Client.transcript (throughBalancer lib client) s lines = Client.transcript oneMap m lines
      ∧ Serves r (outputs (perform (throughBalancer lib client)) s (executed lines)).2
        (outputs (perform oneMap) m (executed lines)).2 := by
  have hsend : ∀ line ∈ executed lines, ∀ op, parseCommand line = .request op →
      ∀ s m, Serves r s m →
        (throughBalancer lib client op s).1 = (oneMap op m).1
          ∧ Serves r (throughBalancer lib client op s).2 (oneMap op m).2 := by
    intro line hline op hcommand s m hserves
    obtain ⟨hop, hlen⟩ := hlines line ((List.takeWhile_subset _) hline) op hcommand
    exact hserves.send hlib hclient hup he hop hlen
  obtain ⟨hprinted, hserves⟩ := outputs_perform hsend h
  exact ⟨by rw [Client.transcript, Client.transcript, hprinted], hserves⟩

variable {backends : List Backend} {vnodes : ℕ}

/-- The balancer with new servers. -/
def newSession (r : Router) (capacity : ℕ) : ProxySession Fleet :=
  .idle r (fun _ => .new capacity) []

/-- The balancer that has just started stands for the empty map. -/
lemma serves_new (r : Router) (capacity : ℕ) : Serves r (newSession r capacity) fun _ => none := by
  refine ⟨_, _, rfl, fun _ => coherent_new capacity, fun a k => ?_, nofun⟩
  split_ifs <;> rfl

/-- While no backend fails: whatever is typed, after every number of rounds the client has printed
    what a client of one map would have printed, it has been left if and only if that one has, and
    exactly the backends that the ring has for a key hold it, with the value of the map. -/
theorem client_single_map (hlib : lib.Faithful) (hclient : client.Faithful lib)
    (hnew : Router.new backends vnodes = .ok r) (hports : (backends.map Backend.port).Nodup)
    (hup : ∀ b ∈ backends, b.status = .up) (hv : 0 < vnodes) (capacity : ℕ) {text : Str}
    (hcarried : Carried lib client (text.splitOn '\n')) (n : ℕ) :
    let s := (ClientState.step (throughBalancer lib client))^[n]
      (.start text (newSession r capacity))
    let single := (ClientState.step oneMap)^[n] (.start text fun _ => none)
    s.printed = single.printed ∧ s.running = single.running ∧ s.world.router = r
      ∧ ∀ a k, s.world.world.entry a k
        = if ∃ b ∈ r.hashRing.getNodes k 2, b.addr = a then single.world k else none := by
  intro s single
  have hlines : Carried lib client (typed text n) := fun line hline => by
    obtain ⟨i, -, rfl⟩ := List.mem_map.1 hline
    exact hcarried _ (typedLine_mem text i)
  obtain ⟨hworld, hprinted, hrunning⟩ := @ClientState.rounds _ (throughBalancer lib client)
    (.start text (newSession r capacity)) rfl n
  obtain ⟨hworld', hprinted', hrunning'⟩ := @ClientState.rounds _ oneMap
    (.start text fun _ => none) rfl n
  obtain ⟨htranscript, servers, sent, hserves, hholds⟩ := (serves_new r capacity).transcript hlib
    hclient (new_allUp hnew hports hup) (new_empty hnew hv) hlines
  have hend : s.world = .idle r servers sent := hworld.trans hserves
  refine ⟨?_, Bool.eq_iff_iff.2 (hrunning.trans hrunning'.symm), by rw [hend]; rfl, fun a k => ?_⟩
  · exact hprinted.trans ((congrArg ([] ++ ·) htranscript).trans hprinted'.symm)
  · rw [hend, show single.world = _ from hworld']
    exact hholds.entry a k

end

section
attribute [local instance] djb2

/-- A client that finds a body as the balancer does. -/
def plainClient : HttpClient where
  request := requestOf
  body raw :=
    let result := parseHTTPResponse raw
    if result.status = .complete then some result.response.body else none

/-- It finds the bodies that any library sends as it should. -/
lemma plainClient_faithful {lib : HttpLib} (hlib : lib.Faithful) : plainClient.Faithful lib := by
  intro req hreq status hstatus body hlen
  have h := (hlib req hreq status hstatus body hlen).isResponse
  simp only [plainClient, h.complete, if_true, h.body_eq]

/-- What is put is read. -/
def putAndRead : List KeyOp := [putAX, getA]

/-- The requests of this script are well formed. -/
lemma isOp_putAndRead : ∀ op ∈ putAndRead, IsOp plainLib (plainClient.request op) op
    ∧ (plainClient.request op).body.length < 2 ^ 63
    ∧ ∀ value, op.value = some value → value ≠ [] ∧ '\n' ∉ value := by
  intro op hop
  rcases List.mem_pair.1 hop with rfl | rfl
  · refine ⟨isOp_putAX, by decide +kernel, ?_⟩
    rintro value ⟨⟩
    exact ⟨by decide, by decide⟩
  · exact ⟨isOp_getA, by decide +kernel, nofun⟩

/-- The end of the input comes before an `exit`: the last line is sent again. -/
theorem client_single_map_putAX :
    ((ClientState.step (throughBalancer plainLib plainClient))^[4]
      (.start "update a x\nread a".toList (newSession (initialRouter 1) 10))).printed
    = ">> Server replied: Updated Successfully\n\n".toList
      ++ (List.replicate 3 ">> Server replied: x\n".toList).flatten := by
  have hnew : Router.new initialBackends 1 = .ok (initialRouter 1) := rfl
  have hcarried : Carried plainLib plainClient ("update a x\nread a".toList.splitOn '\n') := by
    have hlines : "update a x\nread a".toList.splitOn '\n' = putAndRead.map commandLine := by decide
    rw [hlines]
    intro line hline op hcommand
    obtain ⟨op', hop', rfl⟩ := List.mem_map.1 hline
    have hparse : ∀ op ∈ putAndRead, parseCommand (commandLine op) = .request op := by decide
    obtain rfl := Command.request.inj ((hparse op' hop').symm.trans hcommand)
    exact ⟨(isOp_putAndRead _ hop').1, (isOp_putAndRead _ hop').2.1⟩
  rw [(client_single_map plainLib_faithful (plainClient_faithful plainLib_faithful) hnew (by decide)
    (by decide) Nat.zero_lt_one 10 hcarried 4).1]
  decide +kernel

end

section
variable [StdHash] {lib : HttpLib} {client : HttpClient} {r : Router} {backends : List Backend}
  {vnodes : ℕ}

/-- While no backend fails: typing operations and `exit` prints the answers of one map to them, and
    then the client is left. -/
theorem script_answers (hlib : lib.Faithful) (hclient : client.Faithful lib)
    (hnew : Router.new backends vnodes = .ok r) (hports : (backends.map Backend.port).Nodup)
    (hup : ∀ b ∈ backends, b.status = .up) (hv : 0 < vnodes) (capacity : ℕ) {ops : List KeyOp}
    (hops : ∀ op ∈ ops, IsOp lib (client.request op) op ∧ (client.request op).body.length < 2 ^ 63
      ∧ ∀ value, op.value = some value → value ≠ [] ∧ '\n' ∉ value) :
    let s := (ClientState.step (throughBalancer lib client))^[ops.length + 1]
      (.start (script ops) (newSession r capacity))
    s.printed = (outputs SingleMap.step (fun _ => none) ops).1.flatMap replied ++ ">> ".toList
      ∧ s.running = false := by
  intro s
  have htypable : ∀ op ∈ ops, Typable op := fun op hop =>
    typable (hops op hop).1.wellFormed (hops op hop).2.2
  have htyped := typed_script htypable
  have hlines : Carried lib client (typed (script ops) (ops.length + 1)) := by
    intro line hline op hcommand
    rw [htyped] at hline
    rcases List.mem_append.1 hline with hline | hline
    · obtain ⟨op', hop', rfl⟩ := List.mem_map.1 hline
      rw [parseCommand_commandLine (htypable op' hop')] at hcommand
      obtain rfl := Command.request.inj hcommand
      exact ⟨(hops _ hop').1, (hops _ hop').2.1⟩
    · obtain rfl := List.mem_singleton.1 hline
      cases hcommand
  obtain ⟨-, hprinted, hrunning⟩ := @ClientState.rounds _ (throughBalancer lib client)
    (.start (script ops) (newSession r capacity)) rfl (ops.length + 1)
  obtain ⟨htranscript, -⟩ := (serves_new r capacity).transcript hlib hclient
    (new_allUp hnew hports hup) (new_empty hnew hv) hlines
  have hexit : "exit".toList ∈ typed (script ops) (ops.length + 1) := by
    rw [htyped]
    exact List.mem_append_right _ (List.mem_singleton_self _)
  have hexecuted : executed (typed (script ops) (ops.length + 1)) = ops.map commandLine :=
    (congrArg executed htyped).trans (executed_script ops)
  refine ⟨?_, by rw [← Bool.not_eq_true]; exact fun h => hrunning.1 h hexit⟩
  rw [show s.printed = _ from hprinted.trans (congrArg ([] ++ ·) htranscript), List.nil_append,
    transcript, hexecuted, outputs_oneMap htypable,
    if_pos (List.any_eq_true.2 ⟨_, hexit, decide_eq_true rfl⟩)]

end

section
attribute [local instance] djb2

/-- What the client prints for it. -/
theorem script_answers_putAX :
    ((ClientState.step (throughBalancer plainLib plainClient))^[3]
      (.start (script putAndRead) (newSession (initialRouter 1) 10))).printed
    = ">> Server replied: Updated Successfully\n\n>> Server replied: x\n>> ".toList := by
  have hnew : Router.new initialBackends 1 = .ok (initialRouter 1) := rfl
  have hprinted : (outputs SingleMap.step (fun _ => none) putAndRead).1.flatMap replied ++ ">> ".toList
      = ">> Server replied: Updated Successfully\n\n>> Server replied: x\n>> ".toList := by
    decide +kernel
  rw [← hprinted]
  exact (script_answers plainLib_faithful (plainClient_faithful plainLib_faithful) hnew (by decide)
    (by decide) Nat.zero_lt_one 10 isOp_putAndRead).1

end

end KvStore.Client
