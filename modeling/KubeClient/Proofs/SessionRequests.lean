import KubeClient.Client.Resource
import KubeClient.Proofs.Course
import KubeClient.Proofs.QueryText

/-!
# Requests that open a session

The options of a session become the pairs of its query, and the words of a command follow them. A
terminal has no stream of its own for errors, so that one is not asked for along with a terminal.

* `StreamOptions.pairs` : the pairs of the options;
* `Opening` : a command that is run, or a process that is joined;
* `Asked` : what a query asks for;
* `Client.sent_connect` : what is sent to open a connection;
* `opening_asks` : what is sent asks for the chosen streams and for the words of the command, and
  nothing is sent without a stream or without a word.
-/

namespace KubeClient

/-! ### The pairs of the options -/

namespace Request

/-- `name=true` if the flag is set. -/
def flagPairs (name : String) (flag : Bool) : Pairs :=
  if flag then [(name, "true")] else []

theorem add?_eq (r : Request) (name : String) (value : Option String) :
    r.add? name value = { r with query := r.query ++ (value.map (name, ·)).toList } := by
  cases value with
  | none => rw [Option.map_none, Option.toList_none, List.append_nil, add?]
  | some v => rfl

theorem addFlag_eq (r : Request) (name : String) (flag : Bool) :
    r.addFlag name flag = { r with query := r.query ++ flagPairs name flag } := by
  cases flag with
  | false => simp only [addFlag, flagPairs, Bool.false_eq_true, if_false, List.append_nil]
  | true => rfl

theorem mem_flagPairs {name : String} {flag : Bool} {p : String × String} :
    p ∈ flagPairs name flag ↔ flag = true ∧ p = (name, "true") := by
  cases flag <;> simp [flagPairs]

end Request

namespace Query

variable (name : String)

theorem values_append (ps qs : Pairs) :
    values name (ps ++ qs) = values name ps ++ values name qs := by
  rw [values, List.filter_append, List.map_append, ← values, ← values]

theorem values_option (value : Option String) :
    values name (value.map (name, ·)).toList = value.toList := by
  cases value <;> simp [values]

theorem values_words (words : List String) : values name (words.map (name, ·)) = words := by
  simp [values, List.filter_map, Function.comp_def]

end Query

namespace StreamOptions

/-- A stream is chosen. -/
def HasStream (o : StreamOptions) : Prop :=
  o.stdin = true ∨ o.stdout = true ∨ o.stderr = true

instance (o : StreamOptions) : Decidable o.HasStream :=
  inferInstanceAs (Decidable (o.stdin = true ∨ o.stdout = true ∨ o.stderr = true))

/-- The pairs of the streams and of the terminal, in order. -/
def flags (o : StreamOptions) : Pairs :=
  Request.flagPairs "stdin" o.stdin ++ Request.flagPairs "stdout" o.stdout ++
    Request.flagPairs "stderr" (o.stderr && !o.tty) ++ Request.flagPairs "tty" o.tty

/-- The pairs of the options, in order. -/
def pairs (o : StreamOptions) : Pairs :=
  (o.container.map ("container", ·)).toList ++ o.flags

theorem mem_flags {o : StreamOptions} {p : String × String} :
    p ∈ o.flags ↔
      o.stdin = true ∧ p = ("stdin", "true") ∨ o.stdout = true ∧ p = ("stdout", "true") ∨
      (o.stderr = true ∧ o.tty = false) ∧ p = ("stderr", "true") ∨
      o.tty = true ∧ p = ("tty", "true") := by
  simp [flags, Request.mem_flagPairs]

theorem values_flags {o : StreamOptions} {name : String}
    (h : name ∉ ["stdin", "stdout", "stderr", "tty"]) : Query.values name o.flags = [] := by
  have hname : ∀ p ∈ o.flags, p.1 ≠ name := by
    rintro p hp rfl
    rcases mem_flags.mp hp with ⟨-, rfl⟩ | ⟨-, rfl⟩ | ⟨-, rfl⟩ | ⟨-, rfl⟩ <;> exact h (by decide)
  simpa [Query.values] using hname

theorem HasStream.pairs_ne_nil {o : StreamOptions} (h : o.HasStream) : o.pairs ≠ [] := by
  have hflags : o.flags ≠ [] := by
    rcases h with hin | hout | herr
    · exact List.ne_nil_of_mem (mem_flags.mpr (.inl ⟨hin, rfl⟩))
    · exact List.ne_nil_of_mem (mem_flags.mpr (.inr (.inl ⟨hout, rfl⟩)))
    · cases htty : o.tty with
      | false => exact List.ne_nil_of_mem (mem_flags.mpr (.inr (.inr (.inl ⟨⟨herr, htty⟩, rfl⟩))))
      -- the stream is left out, but the terminal is not
      | true => exact List.ne_nil_of_mem (mem_flags.mpr (.inr (.inr (.inr ⟨htty, rfl⟩))))
  exact List.append_ne_nil_of_right_ne_nil _ hflags

theorem apply_of_hasStream {o : StreamOptions} (h : o.HasStream) (r : Request) :
    o.apply r = .ok { r with query := r.query ++ o.pairs } := by
  have hstream : (o.stdin || o.stdout || o.stderr) = true := by
    simpa [HasStream, or_assoc] using h
  rw [apply, if_pos hstream]
  simp only [Request.add?_eq, Request.addFlag_eq, pairs, flags, List.append_assoc]

theorem apply_of_not_hasStream {o : StreamOptions} (h : ¬o.HasStream) (r : Request) :
    o.apply r = .error .noStreams := by
  have hstream : ¬(o.stdin || o.stdout || o.stderr) = true := by
    simpa [HasStream, or_assoc] using h
  rw [apply, if_neg hstream]

end StreamOptions

/-! ### The request of a session -/

/-- How a session is opened. -/
inductive Opening
  /-- A command is run, which is given by its words. -/
  | exec (command : List String)
  /-- The process that runs already is joined. -/
  | attach
  deriving DecidableEq, Repr

namespace Opening

/-- The words of the command. -/
def command : Opening → List String
  | exec command => command
  | attach => []

/-- The part of an object that is addressed. -/
def part : Opening → String
  | exec _ => "exec"
  | attach => "attach"

/-- What is run is known. -/
def IsComplete (e : Opening) : Prop :=
  e ≠ .exec []

instance (e : Opening) : Decidable e.IsComplete :=
  inferInstanceAs (Decidable (e ≠ .exec []))

/-- The request. -/
def request (h : Handle) (o : StreamOptions) (name : String) : Opening → Except ClientError Request
  | exec command => h.exec o name command
  | attach => h.attach o name

variable (h : Handle) {o : StreamOptions} (name : String) (e : Opening)

theorem request_of_not_hasStream (hstream : ¬o.HasStream) :
    e.request h o name = .error (.config .noStreams) := by
  cases e with
  | exec command => rw [request, Handle.exec, StreamOptions.apply_of_not_hasStream hstream]
  | attach => rw [request, Handle.attach, StreamOptions.apply_of_not_hasStream hstream]; rfl

theorem request_of_not_isComplete (hstream : o.HasStream) (hcommand : ¬e.IsComplete) :
    e.request h o name = .error (.config .noCommand) := by
  obtain rfl : e = .exec [] := not_not.mp hcommand
  rw [request, Handle.exec, StreamOptions.apply_of_hasStream hstream]
  rfl

theorem request_of_isComplete (hstream : o.HasStream) (hcommand : e.IsComplete) :
    e.request h o name = .ok {
      method := .get
      path := h.subresource name e.part
      query := o.pairs ++ e.command.map ("command", ·) } := by
  cases e with
  | exec command =>
    have hwords : command ≠ [] := by
      rintro rfl
      exact hcommand rfl
    rw [request, Handle.exec, StreamOptions.apply_of_hasStream hstream]
    exact if_neg hwords
  | attach =>
    rw [request, Handle.attach, StreamOptions.apply_of_hasStream hstream]
    simp only [command, List.map_nil, List.append_nil]
    rfl

end Opening

/-- What the pairs of a query ask for. -/
structure Asked (o : StreamOptions) (command : List String) (pairs : Pairs) : Prop where
  command : Query.values "command" pairs = command
  container : Query.values "container" pairs = o.container.toList
  stdin : ("stdin", "true") ∈ pairs ↔ o.stdin = true
  stdout : ("stdout", "true") ∈ pairs ↔ o.stdout = true
  /-- A terminal has no stream of its own for errors. -/
  stderr : ("stderr", "true") ∈ pairs ↔ o.stderr = true ∧ o.tty = false
  tty : ("tty", "true") ∈ pairs ↔ o.tty = true

/-- The pairs of a query ask for a stream. -/
def AsksForStream (pairs : Pairs) : Prop :=
  ("stdin", "true") ∈ pairs ∨ ("stdout", "true") ∈ pairs ∨ ("stderr", "true") ∈ pairs

instance (pairs : Pairs) : Decidable (AsksForStream pairs) :=
  inferInstanceAs (Decidable (_ ∨ _ ∨ _))

theorem asked_pairs (o : StreamOptions) (command : List String) :
    Asked o command (o.pairs ++ command.map ("command", ·)) where
  command := by
    have hcontainer : Query.values "command" (o.container.map ("container", ·)).toList = [] := by
      simp [Query.values]
    rw [StreamOptions.pairs, Query.values_append, Query.values_append, hcontainer,
      StreamOptions.values_flags (by decide), Query.values_words]
    rfl
  container := by
    have hwords : Query.values "container" (command.map ("command", ·)) = [] := by
      simp [Query.values]
    rw [StreamOptions.pairs, Query.values_append, Query.values_append, hwords,
      StreamOptions.values_flags (by decide), Query.values_option, List.append_nil, List.append_nil]
  stdin := by simp [StreamOptions.pairs, StreamOptions.mem_flags]
  stdout := by simp [StreamOptions.pairs, StreamOptions.mem_flags]
  stderr := by simp [StreamOptions.pairs, StreamOptions.mem_flags]
  tty := by simp [StreamOptions.pairs, StreamOptions.mem_flags]

theorem asksForStream_iff {o : StreamOptions} {command : List String} {pairs : Pairs}
    (h : Asked o command pairs) :
    AsksForStream pairs ↔ o.HasStream ∧ ¬(o.tty = true ∧ o.stdin = false ∧ o.stdout = false) := by
  rw [AsksForStream, h.stdin, h.stdout, h.stderr, StreamOptions.HasStream]
  cases o.stdin <;> cases o.stdout <;> cases o.tty <;> simp

/-! ### What is sent -/

namespace Client

variable {σ : Type} (c : Client σ)

/-- The credential that the outside gives, unless the caller calls off before it comes. -/
def admitted (world : σ) (fired : Bool) : Option Credential :=
  if fired then none
  else
    match (c.host.credential false world).1 with
    | .ends (.ok k) false => some k
    | _ => none

/-- To open a connection, a request is sent with the credential that was asked for. -/
theorem sent_connect (r : Request) (world : σ) (fired : Bool) :
    ((c.connect r).run world fired).2.sent =
      (c.admitted world fired).toList.map (c.upgradeRequest r) := by
  rw [Call.run, connect, admitted]
  cases fired with
  | true => rw [credential, Call.bind_error (Call.await_of_fired _ _ _ rfl)]; rfl
  | false =>
    cases hask : c.host.credential false world with
    | mk wait next =>
      cases wait with
      | fires =>
        rw [credential, Call.bind_error (Call.await_fires _ _ rfl hask)]
        rfl
      | ends outcome fired =>
        have hasked := Call.await_ends (.credential false) .auth
          (p := ⟨world, false, []⟩) rfl hask
        cases outcome with
        | error e =>
          rw [credential, Call.bind_error hasked]
          rfl
        | ok k =>
          rw [credential, Call.bind_ok hasked]
          cases fired with
          | true =>
            -- the credential comes too late
            rw [Call.await_of_fired _ _ _ rfl]
            rfl
          | false =>
            rw [Progress.sent, Call.await_trace_of_unfired _ _ _ rfl]
            rfl

/-- The opening of a connection finds no fault with the options of the call. -/
theorem avoids_connect (r : Request) (e : ConfigError) : (c.connect r).Avoids (.config e) :=
  Call.avoids_bind (Call.avoids_await _ _ nofun nofun) fun _ => Call.avoids_await _ _ nofun nofun

/-- The call that opens a session. -/
def openSession (h : Handle) (o : StreamOptions) (name : String) (e : Opening) : Call σ Unit :=
  withRequest (e.request h o name) c.connect

/-- The address that a session is opened at, with the text of a query. -/
def sessionUrl (h : Handle) (name : String) (e : Opening) (query : List Char) : String :=
  String.ofList (Request.trimSlashes c.base.toList ++ (h.subresource name e.part).toList ++
    '?' :: query)

/-- What is sent to open a session asks for the chosen streams, for the container and for the words
of the command, in order. It asks for a stream at all, except that only the one for errors was
chosen, along with a terminal. Without a stream or without a word the call fails, and neither a
credential nor a connection is asked for. -/
theorem opening_asks (c : Client σ) (h : Handle) (o : StreamOptions) (name : String) (e : Opening)
    (world : σ) (fired : Bool) :
    let call := (c.openSession h o name e).run world fired
    (¬o.HasStream → call = (.error (.config .noStreams), ⟨world, fired, []⟩)) ∧
    (o.HasStream → ¬e.IsComplete → call = (.error (.config .noCommand), ⟨world, fired, []⟩)) ∧
    (o.HasStream → e.IsComplete →
      (∀ why, call.1 ≠ .error (.config why)) ∧
      ∃ query pairs,
        call.2.sent = (c.admitted world fired).toList.map (fun k =>
          .upgrade (c.sessionUrl h name e query)
            (k.authorization.map (("Authorization", ·))).toList [Channel.subprotocol]) ∧
        Query.pairs? query = some pairs ∧ Asked o e.command pairs ∧
        (AsksForStream pairs ↔ ¬(o.tty = true ∧ o.stdin = false ∧ o.stdout = false)) ∧
        ('?' ∉ Request.trimSlashes c.base.toList ++ (h.subresource name e.part).toList →
          '#' ∉ Request.trimSlashes c.base.toList ++ (h.subresource name e.part).toList →
          Query.ofUrl? (c.sessionUrl h name e query).toList = some pairs)) := by
  refine ⟨?_, ?_, ?_⟩
  · intro hstream
    rw [openSession, Opening.request_of_not_hasStream h name e hstream]
    rfl
  · intro hstream hcommand
    rw [openSession, Opening.request_of_not_isComplete h name e hstream hcommand]
    rfl
  · intro hstream hcommand
    -- the request that the options and the words make
    let r : Request := {
      method := .get
      path := h.subresource name e.part
      query := o.pairs ++ e.command.map ("command", ·) }
    have hcall : c.openSession h o name e = c.connect r := by
      rw [openSession, Opening.request_of_isComplete h name e hstream hcommand]
      rfl
    have hquery : r.query ≠ [] := List.append_ne_nil_of_left_ne_nil hstream.pairs_ne_nil _
    have hurl : r.url c.base = c.sessionUrl h name e (Query.text r.query) := by
      rw [Request.url, Query.queryText_eq hquery]
      rfl
    have hasked : Asked o e.command r.query := asked_pairs o e.command
    rw [hcall]
    refine ⟨fun why => c.avoids_connect r why _, Query.text r.query, r.query, ?_,
      Query.pairs?_text hquery, hasked, ?_, ?_⟩
    · rw [c.sent_connect r world fired, ← hurl]
      rfl
    · rw [asksForStream_iff hasked, and_iff_right hstream]
    · intro hmark hhash
      rw [← hurl]
      exact Request.ofUrl?_url hmark hhash

/-- An outside that has a credential, and opens a connection. -/
def reachable : Script where
  purse := .listed [.ends (.ok (.bearer "t")) false]
  replies := [.connection]

theorem opening_asks_shell :
    let h := scripted.handle (.core "pods")
    let o : StreamOptions := { container := some "a&b", stdin := true, tty := true }
    let e := Opening.exec ["sh", "-c", "echo ü=1 #?", ""]
    let call := (scripted.openSession h o "web" e).run reachable false
    o.HasStream ∧ e.IsComplete ∧ ∃ query pairs,
      call.2.sent = [.upgrade (scripted.sessionUrl h "web" e query)
        [("Authorization", "Bearer t")] [Channel.subprotocol]] ∧
      Query.ofUrl? (scripted.sessionUrl h "web" e query).toList = some pairs ∧
      Asked o e.command pairs ∧ AsksForStream pairs := by
  intro h o e call
  have hstream : o.HasStream := by decide
  have hcommand : e.IsComplete := by decide
  obtain ⟨-, query, pairs, hsent, -, hasked, hasks, hread⟩ :=
    (opening_asks scripted h o "web" e reachable false).2.2 hstream hcommand
  exact ⟨hstream, hcommand, query, pairs, hsent, hread (by decide) (by decide), hasked,
    hasks.mpr (by decide)⟩

/-- Where only the stream for errors is chosen, along with a terminal, a connection is opened that
asks for no stream. -/
theorem only_errors_along_with_terminal :
    let o : StreamOptions := { stdout := false, tty := true }
    let call := (scripted.openSession (scripted.handle (.core "configmaps")) o "a"
      (.exec ["sh"])).run reachable false
    let url := "https://host/api/v1/namespaces/default/configmaps/a/exec?tty=true&command=sh"
    call.1 = .ok () ∧
      call.2.sent = [.upgrade url [("Authorization", "Bearer t")] [Channel.subprotocol]] ∧
      Query.ofUrl? url.toList = some [("tty", "true"), ("command", "sh")] ∧
      ¬AsksForStream [("tty", "true"), ("command", "sh")] := by
  refine ⟨rfl, ?_, ?_, by decide⟩
  · decide +kernel
  · decide +kernel

end Client
end KubeClient
