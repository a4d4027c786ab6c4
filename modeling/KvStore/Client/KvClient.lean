import KvStore.Lib.Run
import KvStore.Lib.Scan
import KvStore.Server.Operations
import Mathlib.Logic.Function.Iterate

/-!
# The command line client

`kvclient.cpp`: a loop that reads a line, sends the request that it asks for and prints the answer.
`std::getline` leaves its string as it is once the end of the input has been met, and the loop does
not look at the stream: without an `exit` it goes on with the last line.

* `parseCommand_commandLine`: a command that is typed is read back.
* `ClientState.rounds`: what some rounds of the loop do.
* `client_rounds`: the client does what is typed, in order and up to the first `exit`.
-/

namespace KvStore.Client
open KvStore.Lib KvStore.Server

/-- What a line of input asks for. -/
inductive Command where
  | exit
  | usage (command : Str)
  | request (op : KeyOp)
  | unknown
deriving DecidableEq, Repr

/-- `stream >> word`: the word, and what is left of the stream. -/
def readWord (s : Str) : Str × Str :=
  let s := s.dropWhile isSpace
  (s.takeWhile fun c => !isSpace c, s.dropWhile fun c => !isSpace c)

/-- A path is handed over by `c_str`. -/
def cStr (s : Str) : Str := s.takeWhile (· ≠ '\x00')

/-- `cmd`, `key` and `value`. -/
def readFields (userInput : Str) : Str × Str × Str :=
  let cmd := readWord userInput
  let key := readWord cmd.2
  let value := key.2.takeWhile (· ≠ '\n')
  (cmd.1, key.1, if value.head? = some ' ' then value.tail else value)

/-- What the client makes of a line. -/
def parseCommand (userInput : Str) : Command :=
  if userInput = "exit".toList then .exit
  else
    let (cmd, key, value) := readFields userInput
    if cmd = "create".toList then
      if key.isEmpty || value.isEmpty then .usage "create <key> <value>".toList
      else .request (.create key value)
    else if cmd = "delete".toList then
      if key.isEmpty then .usage "delete <key>".toList else .request (.delete (cStr key))
    else if cmd = "read".toList then
      if key.isEmpty then .usage "read <key>".toList else .request (.get (cStr key))
    else if cmd = "update".toList then
      if key.isEmpty || value.isEmpty then .usage "update <key> <value>".toList
      else .request (.put (cStr key) value)
    else .unknown

/-- What `std::cin` still has, and whether its end has been met. -/
structure Input where
  unread : Str
  eof : Bool := false

/-- `std::getline` into a string. -/
def Input.getline (input : Input) (line : Str) : Str × Input :=
  if input.eof then (line, input)
  else
    (input.unread.takeWhile (· ≠ '\n'),
      match input.unread.dropWhile (· ≠ '\n') with
      | [] => ⟨[], true⟩
      | _ :: unread => ⟨unread, false⟩)

/-- The client, and the world that answers it. -/
structure ClientState (σ : Type*) where
  input : Input
  userInput : Str := []
  world : σ
  printed : Str := []
  running : Bool := true

/-- What a request does to the world, and the body of its answer, if there is one. -/
abbrev Answering (σ : Type*) := KeyOp → σ → Option Str × σ

variable {σ τ : Type*}

/-- What is printed for a line, and what its request does. -/
def perform (send : Answering σ) (world : σ) (userInput : Str) : Str × σ :=
  match parseCommand userInput with
  | .exit => ([], world)
  | .usage command => ("Usage: ".toList ++ command ++ "\n".toList, world)
  | .request op =>
    let answered := send op world
    match answered.1 with
    | some body => ("Server replied: ".toList ++ body ++ "\n".toList, answered.2)
    | none => ("Request failed\n".toList, answered.2)
  | .unknown => ("Unknown command. Use create/read/update/delete/exit.\n".toList, world)

/-- The client starts. -/
def ClientState.start (text : Str) (world : σ) : ClientState σ := { input := ⟨text, false⟩, world }

/-- One round of the loop. -/
def ClientState.step (send : Answering σ) (s : ClientState σ) : ClientState σ :=
  if s.running then
    let line := s.input.getline s.userInput
    let prompted := s.printed ++ ">> ".toList
    if line.1 = "exit".toList then
      { s with input := line.2, userInput := line.1, printed := prompted, running := false }
    else
      let done := perform send s.world line.1
      { s with
        input := line.2, userInput := line.1, world := done.2, printed := prompted ++ done.1 }
  else s

/-- A line as it is typed. -/
def commandLine : KeyOp → Str
  | .create key value => "create ".toList ++ key ++ ' ' :: value
  | .get key => "read ".toList ++ key
  | .put key value => "update ".toList ++ key ++ ' ' :: value
  | .delete key => "delete ".toList ++ key

/-- The operation can be typed. -/
structure Typable (op : KeyOp) : Prop where
  key_ne_nil : op.key ≠ []
  key : ∀ c ∈ op.key, isSpace c = false ∧ c ≠ '\x00'
  value : ∀ value, op.value = some value → value ≠ [] ∧ '\n' ∉ value

/-- White space in front of a word is passed over. -/
lemma readWord_space {c : Char} (hc : isSpace c = true) (s : Str) :
    readWord (c :: s) = readWord s := by
  unfold readWord
  rw [List.dropWhile_cons_of_pos hc]

/-- A word ends at the next white space. -/
lemma readWord_append {word rest : Str} (hne : word ≠ []) (hword : ∀ c ∈ word, isSpace c = false)
    (hrest : ∀ c, rest.head? = some c → isSpace c = true) :
    readWord (word ++ rest) = (word, rest) := by
  have hstart : (word ++ rest).dropWhile isSpace = word ++ rest := by
    obtain ⟨c, word, rfl⟩ := List.exists_cons_of_ne_nil hne
    refine List.dropWhile_cons_of_neg ?_
    rw [hword c List.mem_cons_self]
    exact Bool.false_ne_true
  have hin : ∀ c ∈ word, (!isSpace c) = true := fun c hc => by rw [hword c hc]; rfl
  unfold readWord
  dsimp only
  rw [hstart, List.takeWhile_append_of_pos hin, List.dropWhile_append_of_pos hin]
  cases rest with
  | nil => rw [List.takeWhile_nil, List.dropWhile_nil, List.append_nil]
  | cons c rest =>
    have hc : isSpace c = true := hrest c rfl
    rw [List.takeWhile_cons_of_neg (by simp [hc]), List.dropWhile_cons_of_neg (by simp [hc]),
      List.append_nil]

/-- A text without a zero byte is printed in full. -/
lemma cStr_eq {s : Str} (h : '\x00' ∉ s) : cStr s = s := by
  refine List.takeWhile_eq_self_iff.2 fun c hc => ?_
  rw [decide_eq_true_iff]
  rintro rfl
  exact h hc

section
variable {cmd key value : Str}

/-- What begins with a blank begins with white space. -/
lemma isSpace_of_head (s : Str) : ∀ c, (' ' :: s).head? = some c → isSpace c = true := by
  rintro c ⟨⟩
  rfl

/-- The fields of a command with a value. -/
lemma readFields_value (hcmd : cmd ≠ []) (hcmdWord : ∀ c ∈ cmd, isSpace c = false) (hkey : key ≠ [])
    (hkeyWord : ∀ c ∈ key, isSpace c = false) (hvalue : '\n' ∉ value) :
    readFields (cmd ++ ' ' :: (key ++ ' ' :: value)) = (cmd, key, value) := by
  have hline : (' ' :: value).takeWhile (· ≠ '\n') = ' ' :: value :=
    takeWhile_line.2 fun h => hvalue ((List.mem_cons.1 h).resolve_left (by decide))
  simp only [readFields, readWord_append hcmd hcmdWord (isSpace_of_head _),
    readWord_space (c := ' ') rfl, readWord_append hkey hkeyWord (isSpace_of_head _), hline]
  rfl

/-- The fields of a command without one. -/
lemma readFields_key (hcmd : cmd ≠ []) (hcmdWord : ∀ c ∈ cmd, isSpace c = false) (hkey : key ≠ [])
    (hkeyWord : ∀ c ∈ key, isSpace c = false) :
    readFields (cmd ++ ' ' :: key) = (cmd, key, []) := by
  have hend := @readWord_append key [] hkey hkeyWord nofun
  rw [List.append_nil] at hend
  simp only [readFields, readWord_append hcmd hcmdWord (isSpace_of_head _),
    readWord_space (c := ' ') rfl, hend]
  rfl

end

/-- No operation is typed as `exit`. -/
lemma commandLine_ne_exit (op : KeyOp) : commandLine op ≠ "exit".toList := by
  cases op <;> exact fun he => absurd (List.cons.inj he).1 (by decide)

/-- A command that is typed is read back. -/
lemma parseCommand_commandLine {op : KeyOp} (h : Typable op) :
    parseCommand (commandLine op) = .request op := by
  have hkey : ∀ c ∈ op.key, isSpace c = false := fun c hc => (h.key c hc).1
  have hnul : cStr op.key = op.key := cStr_eq fun hc => (h.key _ hc).2 rfl
  have hempty : op.key.isEmpty = false := List.isEmpty_eq_false_iff.2 h.key_ne_nil
  rw [parseCommand, if_neg (commandLine_ne_exit op)]
  cases op with
  | create key value =>
    obtain ⟨hne, hline⟩ := h.value value rfl
    have hfields : readFields (commandLine (.create key value)) = ("create".toList, key, value) :=
      @readFields_value "create".toList key value (by decide)
        (List.forall_iff_forall_mem.1 (by decide)) h.key_ne_nil hkey hline
    simp only [KeyOp.key] at hempty
    simp [hfields, hempty, List.isEmpty_eq_false_iff.2 hne]
  | get key =>
    have hfields : readFields (commandLine (.get key)) = ("read".toList, key, []) :=
      @readFields_key "read".toList key (by decide)
        (List.forall_iff_forall_mem.1 (by decide)) h.key_ne_nil hkey
    simp only [KeyOp.key] at hempty hnul
    simp [hfields, hempty, hnul]
  | put key value =>
    obtain ⟨hne, hline⟩ := h.value value rfl
    have hfields : readFields (commandLine (.put key value)) = ("update".toList, key, value) :=
      @readFields_value "update".toList key value (by decide)
        (List.forall_iff_forall_mem.1 (by decide)) h.key_ne_nil hkey hline
    simp only [KeyOp.key] at hempty hnul
    simp [hfields, hempty, hnul, List.isEmpty_eq_false_iff.2 hne]
  | delete key =>
    have hfields : readFields (commandLine (.delete key)) = ("delete".toList, key, []) :=
      @readFields_key "delete".toList key (by decide)
        (List.forall_iff_forall_mem.1 (by decide)) h.key_ne_nil hkey
    simp only [KeyOp.key] at hempty hnul
    simp [hfields, hempty, hnul]

/-- A command with a key and a value is one line. -/
lemma not_mem_value {cmd key value : Str} (hcmd : '\n' ∉ cmd) (hkey : '\n' ∉ key)
    (hvalue : '\n' ∉ value) : '\n' ∉ cmd ++ key ++ ' ' :: value := by
  simp [hcmd, hkey, hvalue]

/-- So is one with a key only. -/
lemma not_mem_key {cmd key : Str} (hcmd : '\n' ∉ cmd) (hkey : '\n' ∉ key) :
    '\n' ∉ cmd ++ key := by
  simp [hcmd, hkey]

/-- It is one line. -/
lemma not_mem_commandLine {op : KeyOp} (h : Typable op) : '\n' ∉ commandLine op := by
  have hkey : '\n' ∉ op.key := fun hc => absurd (h.key _ hc).1 (by decide)
  cases op with
  | create key value => exact not_mem_value (by decide) hkey (h.value value rfl).2
  | get key => exact not_mem_key (by decide) hkey
  | put key value => exact not_mem_value (by decide) hkey (h.value value rfl).2
  | delete key => exact not_mem_key (by decide) hkey

/-- Some operations, as they are typed. -/
def script (ops : List KeyOp) : Str :=
  ops.flatMap (fun op => commandLine op ++ "\n".toList) ++ "exit\n".toList

/-- The lines of a script are its commands, `exit` and nothing after it. -/
lemma splitOn_script {ops : List KeyOp} (h : ∀ op ∈ ops, Typable op) :
    (script ops).splitOn '\n' = ops.map commandLine ++ ["exit".toList, []] := by
  induction ops with
  | nil => decide
  | cons op ops ih =>
    obtain ⟨hop, hops⟩ := List.forall_mem_cons.1 h
    have hscript : script (op :: ops) = commandLine op ++ '\n' :: script ops := by
      simp [script]
    rw [hscript, List.splitOn_append_cons_self_of_not_mem (not_mem_commandLine hop), ih hops,
      List.map_cons, List.cons_append]

/-- The line that is typed at some time, the last one over and over in the end. -/
def typedLine (text : Str) (i : ℕ) : Str :=
  (text.splitOn '\n').getD i ((text.splitOn '\n').getLastD [])

/-- The first lines that are typed. -/
def typed (text : Str) (n : ℕ) : List Str := (List.range n).map (typedLine text)

/-- What `std::getline` will return, if a string is handed over again and again. -/
def Input.line (input : Input) (userInput : Str) (i : ℕ) : Str :=
  if input.eof then userInput else typedLine input.unread i

/-- Without a line end there is one line, again and again. -/
lemma typedLine_last {unread : Str} (h : '\n' ∉ unread) (i : ℕ) : typedLine unread i = unread := by
  rw [typedLine, List.splitOn_eq_singleton h]
  cases i <;> rfl

/-- A line, and the lines after it. -/
lemma typedLine_append {line : Str} (h : '\n' ∉ line) (unread : Str) :
    typedLine (line ++ '\n' :: unread) 0 = line
      ∧ ∀ i, typedLine (line ++ '\n' :: unread) (i + 1) = typedLine unread i := by
  unfold typedLine
  rw [List.splitOn_append_cons_self_of_not_mem h]
  refine ⟨rfl, fun i => ?_⟩
  cases hlines : unread.splitOn '\n' with
  | nil => exact absurd hlines (List.splitOn_ne_nil _ _)
  | cons l ls => rfl

/-- Every line is typed. -/
lemma typedLine_mem (text : Str) (i : ℕ) : typedLine text i ∈ text.splitOn '\n' := by
  rw [typedLine, List.getD_eq_getElem?_getD]
  cases hget : (text.splitOn '\n')[i]? with
  | some line => exact List.mem_of_getElem? hget
  | none =>
    rw [Option.getD_none, List.getLastD_eq_getLast?, List.getLast?_eq_getLast_of_ne_nil
      (List.splitOn_ne_nil _ _)]
    exact List.getLast_mem _

/-- `std::getline` returns what is typed, and leaves what is typed after it. -/
lemma Input.getline_spec (input : Input) (userInput : Str) :
    (input.getline userInput).1 = input.line userInput 0
      ∧ ∀ i, (input.getline userInput).2.line (input.getline userInput).1 i
        = input.line userInput (i + 1) := by
  obtain ⟨unread, eof⟩ := input
  cases eof with
  | true => exact ⟨rfl, fun i => rfl⟩
  | false =>
    have hnot : '\n' ∉ unread.takeWhile (· ≠ '\n') := fun h => by
      simpa using List.mem_takeWhile_imp h
    have hsplit := List.takeWhile_append_dropWhile (p := (· ≠ '\n')) (l := unread)
    have hstop := List.head?_dropWhile_not (· ≠ '\n') unread
    simp only [Input.getline, Input.line]
    cases hrest : unread.dropWhile (· ≠ '\n') with
    | nil =>
      rw [hrest, List.append_nil] at hsplit
      rw [hsplit] at hnot ⊢
      simp [typedLine_last hnot]
    | cons c rest =>
      rw [hrest] at hsplit hstop
      obtain rfl : c = '\n' := by simpa using hstop
      obtain ⟨hfirst, hnext⟩ := typedLine_append hnot rest
      rw [hsplit] at hfirst hnext
      simp [hfirst, hnext]

/-- As long as there are new lines, they are typed. -/
lemma typed_eq_take {text : Str} {n : ℕ} (hn : n ≤ (text.splitOn '\n').length) :
    typed text n = (text.splitOn '\n').take n := by
  refine List.ext_getElem (by simp [typed, hn]) fun i hi hi' => ?_
  have hlt : i < (text.splitOn '\n').length := lt_of_lt_of_le hi' (List.length_take_le' _ _)
  rw [List.getElem_take]
  simp only [typed, List.getElem_map, List.getElem_range, typedLine]
  rw [List.getD_eq_getElem?_getD, List.getElem?_eq_getElem hlt, Option.getD_some]

section
variable {send : Answering σ}

/-- The lines that are executed. -/
def executed (lines : List Str) : List Str := lines.takeWhile (· ≠ "exit".toList)

/-- What is printed for some lines. -/
def transcript (send : Answering σ) (world : σ) (lines : List Str) : Str :=
  (outputs (perform send) world (executed lines)).1.flatMap (">> ".toList ++ ·)
    ++ if lines.any (· = "exit".toList) then ">> ".toList else []

/-- A client that has been left does nothing. -/
lemma ClientState.stopped {s : ClientState σ} (h : s.running = false) (n : ℕ) :
    (ClientState.step send)^[n] s = s := by
  refine Function.iterate_fixed ?_ n
  rw [ClientState.step, h]
  rfl

/-- Nothing is executed from `exit` on. -/
lemma executed_exit (lines : List Str) : executed ("exit".toList :: lines) = [] :=
  List.takeWhile_cons_of_neg (by simp)

/-- Any other line is executed. -/
lemma executed_cons {line : Str} (h : line ≠ "exit".toList) (lines : List Str) :
    executed (line :: lines) = line :: executed lines :=
  List.takeWhile_cons_of_pos (by simpa using h)

/-- A script is typed line by line, and `exit` after it. -/
lemma typed_script {ops : List KeyOp} (h : ∀ op ∈ ops, Typable op) :
    typed (script ops) (ops.length + 1) = ops.map commandLine ++ ["exit".toList] := by
  have hfits : (ops.map commandLine).length ≤ ops.length + 1 := by simp
  rw [typed_eq_take (by simp [splitOn_script h]), splitOn_script h, List.take_append,
    List.take_of_length_le hfits]
  simp

/-- All of its operations are executed. -/
lemma executed_script (ops : List KeyOp) :
    executed (ops.map commandLine ++ ["exit".toList]) = ops.map commandLine := by
  rw [executed, List.takeWhile_append_of_pos, List.takeWhile_cons_of_neg (by simp),
    List.append_nil]
  intro line hline
  obtain ⟨op, -, rfl⟩ := List.mem_map.1 hline
  simpa using commandLine_ne_exit op

/-- What a line does comes before what the lines after it do. -/
lemma transcript_cons {line : Str} (h : line ≠ "exit".toList) (world : σ) (lines : List Str) :
    transcript send world (line :: lines) = ">> ".toList ++ (perform send world line).1
      ++ transcript send (perform send world line).2 lines := by
  simp only [transcript, executed_cons h, outputs, List.flatMap_cons, List.any_cons, h, decide_false,
    Bool.false_or, List.append_assoc]

/-- What some rounds of the loop do. -/
lemma ClientState.rounds {s : ClientState σ} (h : s.running = true) (n : ℕ) :
    let lines := (List.range n).map (s.input.line s.userInput)
    let s' := (ClientState.step send)^[n] s
    s'.world = (outputs (perform send) s.world (executed lines)).2
      ∧ s'.printed = s.printed ++ transcript send s.world lines
      ∧ (s'.running = true ↔ "exit".toList ∉ lines) := by
  induction n generalizing s with
  | zero => exact ⟨rfl, (List.append_nil _).symm, iff_of_true h (List.not_mem_nil)⟩
  | succ n ih =>
    intro lines s'
    obtain ⟨hfirst, hnext⟩ := s.input.getline_spec s.userInput
    have hlines : lines = s.input.line s.userInput 0 :: (List.range n).map
        ((s.input.getline s.userInput).2.line (s.input.getline s.userInput).1) := by
      simp only [lines, List.range_succ_eq_map, List.map_cons, List.map_map]
      exact congrArg _ (List.map_congr_left fun i _ => (hnext i).symm)
    have hs' : s' = (ClientState.step send)^[n] (s.step send) := Function.iterate_succ_apply ..
    rw [hlines, hs', ClientState.step, if_pos h, ← hfirst]
    by_cases hexit : (s.input.getline s.userInput).1 = "exit".toList
    · dsimp only
      rw [if_pos hexit, hexit, executed_exit, ClientState.stopped rfl, transcript, executed_exit,
        List.any_cons, decide_eq_true rfl, Bool.true_or, if_pos rfl]
      exact ⟨rfl, rfl, iff_of_false Bool.false_ne_true fun hn => hn List.mem_cons_self⟩
    · dsimp only
      rw [if_neg hexit, executed_cons hexit, transcript_cons hexit, List.mem_cons,
        or_iff_right (Ne.symm hexit)]
      obtain ⟨hworld, hprinted, hrunning⟩ := ih (s := { s with
        input := (s.input.getline s.userInput).2
        userInput := (s.input.getline s.userInput).1
        world := (perform send s.world (s.input.getline s.userInput).1).2
        printed := s.printed ++ ">> ".toList
          ++ (perform send s.world (s.input.getline s.userInput).1).1 }) h
      refine ⟨hworld, ?_, hrunning⟩
      rw [hprinted]
      simp only [List.append_assoc]

end

/-- The client does what the typed lines say, one after the other and up to the first `exit`: what
    it prints is what they print, and its requests are theirs. It is left if and only if one of the
    lines is `exit`; otherwise it goes on with the line after the last line end for ever. -/
theorem client_rounds (send : Answering σ) (text : Str) (world : σ) :
    (∀ n, let s := (ClientState.step send)^[n] (.start text world)
      s.world = (outputs (perform send) world (executed (typed text n))).2
        ∧ s.printed = transcript send world (typed text n)
        ∧ (s.running = true ↔ "exit".toList ∉ typed text n))
      ∧ ((∃ n, ((ClientState.step send)^[n] (.start text world)).running = false)
        ↔ "exit".toList ∈ text.splitOn '\n') := by
  have hrounds (n : ℕ) := @ClientState.rounds _ send (.start text world) rfl n
  refine ⟨hrounds, ?_⟩
  have hleft (n : ℕ) : ((ClientState.step send)^[n] (.start text world)).running = false
      ↔ "exit".toList ∈ typed text n := by
    rw [← Bool.not_eq_true, (hrounds n).2.2, not_not]
    rfl
  simp only [hleft, typed, List.mem_map, List.mem_range]
  constructor
  · rintro ⟨n, i, -, hi⟩
    rw [← hi]
    exact typedLine_mem text i
  · intro h
    obtain ⟨i, hi, hget⟩ := List.mem_iff_getElem.1 h
    refine ⟨i + 1, i, by omega, ?_⟩
    rw [typedLine, List.getD_eq_getElem?_getD, List.getElem?_eq_getElem hi, hget]
    rfl

end KvStore.Client
