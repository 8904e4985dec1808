import KubeClient.Client.Script
import KubeClient.Proofs.Call

/-!
# The course of a call

A call that nobody calls off asks for a credential and sends its request with it. Only a response
that rejects the credential makes it do so once more, with a new credential; the last answer alone
decides about the outcome.

* `Exchange`, `Host.Answers` : what the outside was asked for, and how it answered;
* `Client.Presents` : what a request holds that goes to the network with a credential;
* `Client.Course` : what holds of all that a call has asked for, in order;
* `Client.verdict` : the outcome that the last answer stands for;
* `invoke_follows_course` : all calls that wait for a response follow such a course; those that
  start a watch or a session try once.
-/

namespace KubeClient

/-! ### What was asked for -/

/-- Something the outside was asked for, and how it answered. -/
inductive Exchange
  | credential (force : Bool) (outcome : Except AuthError Credential)
  | send (outgoing : Outgoing) (outcome : Except TransportError Response)

namespace Exchange

/-- What was asked for. -/
def step : Exchange → Step
  | credential force _ => .credential force
  | send outgoing _ => .send outgoing

/-- Whether a credential had to be a new one. -/
def force? : Exchange → Option Bool
  | credential force _ => some force
  | send .. => none

/-- What was sent. -/
def outgoing? : Exchange → Option Outgoing
  | credential .. => none
  | send outgoing _ => some outgoing

/-- The response that came. -/
def response? : Exchange → Option Response
  | send _ (.ok response) => some response
  | _ => none

/-- There was no credential, or no response. -/
def IsFailure : Exchange → Prop
  | credential _ outcome => ∃ e, outcome = .error e
  | send _ outcome => ∃ e, outcome = .error e

end Exchange

/-- From one state to another the outside answered all of `log`, in order, and nobody called off
in the meantime. -/
inductive Host.Answers {σ : Type} (h : Host σ) : σ → List Exchange → σ → Prop
  | nil (world : σ) : Answers h world [] world
  | credential {w₀ w₁ w₂ : σ} {force : Bool} {outcome : Except AuthError Credential}
      {log : List Exchange} (ask : h.credential force w₀ = (.ends outcome false, w₁))
      (rest : Answers h w₁ log w₂) : Answers h w₀ (.credential force outcome :: log) w₂
  | send {w₀ w₁ w₂ : σ} {outgoing : Outgoing} {outcome : Except TransportError Response}
      {log : List Exchange} (ask : h.send outgoing w₀ = (.ends outcome false, w₁))
      (rest : Answers h w₁ log w₂) : Answers h w₀ (.send outgoing outcome :: log) w₂

theorem Host.Answers.append {σ : Type} {h : Host σ} {w₀ w₁ w₂ : σ} {log log' : List Exchange}
    (first : h.Answers w₀ log w₁) (second : h.Answers w₁ log' w₂) :
    h.Answers w₀ (log ++ log') w₂ := by
  induction first with
  | nil => exact second
  | credential ask _ ih => exact .credential ask (ih second)
  | send ask _ ih => exact .send ask (ih second)

theorem Host.Answers.split {σ : Type} {h : Host σ} {w₀ w₂ : σ} {log log' : List Exchange}
    (all : h.Answers w₀ (log ++ log') w₂) :
    ∃ w₁, h.Answers w₀ log w₁ ∧ h.Answers w₁ log' w₂ := by
  induction log generalizing w₀ with
  | nil => exact ⟨w₀, .nil w₀, all⟩
  | cons exchange log ih =>
    cases all with
    | credential ask rest =>
      obtain ⟨w₁, first, second⟩ := ih rest
      exact ⟨w₁, .credential ask first, second⟩
    | send ask rest =>
      obtain ⟨w₁, first, second⟩ := ih rest
      exact ⟨w₁, .send ask first, second⟩

/-- What goes to the network, without what says who asks. -/
def Outgoing.unsigned : Outgoing → Outgoing
  | .request method url headers body =>
    .request method url (headers.filter fun h => h.1 != "Authorization") body
  | .upgrade url headers protocols =>
    .upgrade url (headers.filter fun h => h.1 != "Authorization") protocols

namespace Client

variable {σ : Type} (c : Client σ) (r : Request)

/-- What the headers of a request say: what is accepted, whose token is shown if there is one, what
the body is if there is one, and nothing else. -/
structure Heads (credential : Credential) (headers : Pairs) : Prop where
  accept : headers.filter (·.1 == "Accept") = [("Accept", c.registry.defaultType)]
  authorization : headers.filter (·.1 == "Authorization") =
    if credential.token = "" then [] else [("Authorization", "Bearer " ++ credential.token)]
  contentType : headers.filter (·.1 == "Content-Type") =
    (r.body.map fun body => ("Content-Type", body.contentType)).toList
  others : ∀ header ∈ headers, header.1 ∈ ["Accept", "Authorization", "Content-Type"]

/-- What goes to the network for a request: its method, its address at the server, the bytes of its
body, and headers that show a credential. -/
def Presents (credential : Credential) (outgoing : Outgoing) : Prop :=
  ∃ headers, outgoing = .request r.method (r.url c.base) headers (r.body.map (·.bytes)) ∧
    c.Heads r credential headers

/-- What holds of all that a call for a request has asked for, in order. -/
structure Course (log : List Exchange) : Prop where
  /-- A credential comes first, and need not be a new one. -/
  starts : ∃ outcome rest, log = .credential false outcome :: rest
  /-- A credential is asked for again, once and as a new one, exactly if the first response is
  that the credential was rejected. -/
  forces : log.filterMap Exchange.force? =
    if (log.findSome? Exchange.response?).any (·.status = 401) then [false, true] else [false]
  /-- There are at most two requests. -/
  sends : (log.filterMap Exchange.outgoing?).length ≤ 2
  /-- A request goes out as it was asked for and shows the credential that came just before it; the
  second one shows a new one. -/
  signed : ∀ before after outgoing outcome, log = before ++ .send outgoing outcome :: after →
    ∃ earlier force credential, before = earlier ++ [.credential force (.ok credential)] ∧
      outgoing = c.outgoing r credential ∧ c.Presents r credential outgoing ∧
      (force = true ↔ (earlier.filterMap Exchange.outgoing?).length = 1)
  /-- All requests are the same but for who asks. -/
  alike : ∀ o ∈ log.filterMap Exchange.outgoing?, ∀ o' ∈ log.filterMap Exchange.outgoing?,
    o.unsigned = o'.unsigned
  /-- Nothing comes behind a failure. -/
  failure_last : ∀ exchange ∈ log.dropLast, ¬exchange.IsFailure

/-- All bytes of a body, or why they do not come. -/
def contents : Body → Except ClientError Bytes
  | [] => .ok []
  | .fires :: _ | .ends (.ok _) true :: _ => .error .cancelled
  | .ends (.error e) _ :: _ => .error (.transport r.method r.path e)
  | .ends (.ok chunk) false :: body => (contents body).map (chunk ++ ·)

/-- What a response stands for: the bytes of a success, or the status of a refusal. -/
def judge (response : Response) : Except ClientError (Serializer × Bytes) :=
  let serializer := c.registry.serializerOf response
  match contents r response.body with
  | .error e => .error e
  | .ok bytes =>
    if 200 ≤ response.status ∧ response.status < 300 then .ok (serializer, bytes)
    else .error (.api (serializer.decodeStatus response.status bytes))

/-- The outcome of a call whose last answer is known. A call does not end behind a credential
unless it is called off. -/
def verdict : Exchange → Except ClientError (Serializer × Bytes)
  | .credential _ (.ok _) => .error .cancelled
  | .credential _ (.error e) => .error (.auth e)
  | .send _ (.error e) => .error (.transport r.method r.path e)
  | .send _ (.ok response) => c.judge r response

/-- A call has come from `world` to `p` by a course whose last answer stands for `outcome`. -/
def Follows (world : σ) (p : Progress σ) (outcome : Except ClientError (Serializer × Bytes)) :
    Prop :=
  ∃ log last chunks, c.host.Answers world log p.world ∧
    p.trace = log.map Exchange.step ++ List.replicate chunks .chunk ∧
    c.Course r log ∧ log.getLast? = some last ∧ outcome = c.verdict r last

/-! ### One attempt -/

/-- How an attempt went: there was no credential, or no response to a request with it, or one. -/
inductive Attempt
  | refused (e : AuthError)
  | lost (credential : Credential) (e : TransportError)
  | answered (credential : Credential) (response : Response)

namespace Attempt

/-- What an attempt has asked for. -/
def log (force : Bool) : Attempt → List Exchange
  | refused e => [.credential force (.error e)]
  | lost k e => [.credential force (.ok k), .send (c.outgoing r k) (.error e)]
  | answered k response => [.credential force (.ok k), .send (c.outgoing r k) (.ok response)]

/-- The last answer. -/
def last (force : Bool) : Attempt → Exchange
  | refused e => .credential force (.error e)
  | lost k e => .send (c.outgoing r k) (.error e)
  | answered k response => .send (c.outgoing r k) (.ok response)

/-- The response, or why there is none. -/
def outcome : Attempt → Except ClientError Response
  | refused e => .error (.auth e)
  | lost _ e => .error (.transport r.method r.path e)
  | answered _ response => .ok response

/-- The response is that the credential was rejected. -/
def isRejected : Attempt → Bool
  | answered _ response => response.status = unauthorized
  | _ => false

end Attempt

namespace Attempt

variable {c : Client σ} {r : Request} (a : Attempt) (force : Bool)

theorem log_head : ∃ outcome rest, a.log c r force = .credential force outcome :: rest := by
  cases a <;> exact ⟨_, _, rfl⟩

theorem log_getLast : (a.log c r force).getLast? = some (a.last c r force) := by
  cases a <;> rfl

theorem log_forces : (a.log c r force).filterMap Exchange.force? = [force] := by
  cases a <;> rfl

theorem log_response : ((a.log c r force).findSome? Exchange.response?).any (·.status = 401) =
    a.isRejected := by
  cases a <;> rfl

theorem log_sends : ((a.log c r force).filterMap Exchange.outgoing?).length ≤ 1 := by
  cases a with
  | refused e => exact Nat.zero_le _
  | lost k e => exact Nat.le_refl _
  | answered k response => exact Nat.le_refl _

theorem log_signed {before after : List Exchange} {o : Outgoing}
    {outcome : Except TransportError Response}
    (h : a.log c r force = before ++ .send o outcome :: after) :
    ∃ k, before = [.credential force (.ok k)] ∧ o = c.outgoing r k := by
  cases a with
  | refused e => rcases before with _ | ⟨x, before⟩ <;> simp [log] at h
  | lost k e | answered k response =>
    rcases before with _ | ⟨x, _ | ⟨y, before⟩⟩ <;> simp [log] at h
    obtain ⟨rfl, ⟨rfl, -⟩, -⟩ := h
    exact ⟨k, rfl, rfl⟩

theorem mem_log_sends {o : Outgoing} (h : o ∈ (a.log c r force).filterMap Exchange.outgoing?) :
    ∃ k, o = c.outgoing r k := by
  cases a with
  | refused e => cases h
  | lost k e => exact ⟨k, List.mem_singleton.mp h⟩
  | answered k response => exact ⟨k, List.mem_singleton.mp h⟩

theorem log_sends_of_rejected (h : a.isRejected = true) :
    ((a.log c r force).filterMap Exchange.outgoing?).length = 1 := by
  cases a with
  | refused e => cases h
  | lost k e => cases h
  | answered k response => rfl

theorem log_failure_last : ∀ exchange ∈ (a.log c r force).dropLast, ¬exchange.IsFailure := by
  cases a <;> simp [log, Exchange.IsFailure]

theorem log_not_failure (h : a.isRejected = true) :
    ∀ exchange ∈ a.log c r force, ¬exchange.IsFailure := by
  cases a <;> simp_all [log, Exchange.IsFailure, isRejected]

theorem verdict_last : c.verdict r (a.last c r force) =
    match a.outcome r with
    | .error e => .error e
    | .ok response => c.judge r response := by
  cases a <;> rfl

end Attempt

/-- Asks for a credential and sends a request with it. -/
def attempt (force : Bool) : Call σ Response := do
  let credential ← c.credential force
  c.dispatch r credential

theorem isIdle_dispatch (k : Credential) : (c.dispatch r k).IsIdle :=
  Call.isIdle_await _ _ _

theorem isIdle_attempt (force : Bool) : (c.attempt r force).IsIdle :=
  Call.isIdle_bind (Call.isIdle_await _ _ _) (c.isIdle_dispatch r)

theorem attempt_of_quiet {force : Bool} {p : Progress σ}
    (h : (c.attempt r force p).2.fired = false) :
    ∃ (a : Attempt) (world : σ), c.host.Answers p.world (a.log c r force) world ∧
      c.attempt r force p =
        (a.outcome r, ⟨world, false, p.trace ++ (a.log c r force).map Exchange.step⟩) := by
  obtain ⟨credential, w₁, ask₁, h₁⟩ :=
    Call.await_of_quiet (Call.quiet_of_bind (c.isIdle_dispatch r) h)
  cases credential with
  | error e =>
    exact ⟨.refused e, w₁, .credential ask₁ (.nil w₁), Call.bind_error h₁ _⟩
  | ok k =>
    have hd : c.attempt r force p = c.dispatch r k ⟨w₁, false, p.trace ++ [.credential force]⟩ :=
      Call.bind_ok h₁ _
    rw [hd] at h ⊢
    obtain ⟨response, w₂, ask₂, h₂⟩ := Call.await_of_quiet h
    cases response with
    | error e =>
      refine ⟨.lost k e, w₂, .credential ask₁ (.send ask₂ (.nil w₂)), ?_⟩
      rw [dispatch, h₂, List.append_assoc]
      rfl
    | ok response =>
      refine ⟨.answered k response, w₂, .credential ask₁ (.send ask₂ (.nil w₂)), ?_⟩
      rw [dispatch, h₂, List.append_assoc]
      rfl

theorem heads_headers (k : Credential) : c.Heads r k (c.headers r k) := by
  have hauthorization : (k.authorization.map fun value => ("Authorization", value)).toList =
      if k.token = "" then [] else [("Authorization", "Bearer " ++ k.token)] := by
    rw [Credential.authorization]
    simp only [String.isEmpty_iff]
    split <;> rfl
  rw [headers, hauthorization]
  constructor
  case others => cases r.body <;> split <;> simp
  -- each header is told from the others by its name
  all_goals cases r.body <;> split <;> rfl

theorem presents_outgoing (k : Credential) : c.Presents r k (c.outgoing r k) :=
  ⟨_, rfl, c.heads_headers r k⟩

theorem unsigned_outgoing (k k' : Credential) :
    (c.outgoing r k).unsigned = (c.outgoing r k').unsigned := by
  cases hk : k.authorization <;> cases hk' : k'.authorization <;>
    simp [outgoing, headers, Outgoing.unsigned, hk, hk']

/-! ### One attempt, or two -/

/-- What the attempts of a call have asked for, and the last one: behind a rejected one there is
one more. -/
inductive Tries : List Exchange → Exchange → Attempt → Prop
  | once {a : Attempt} (h : a.isRejected = false) : Tries (a.log c r false) (a.last c r false) a
  | twice {a b : Attempt} (h : a.isRejected = true) :
    Tries (a.log c r false ++ b.log c r true) (b.last c r true) b

variable {c r}

theorem Tries.getLast {log : List Exchange} {last : Exchange} {a : Attempt}
    (h : Tries c r log last a) : log.getLast? = some last := by
  cases h with
  | once _ => exact a.log_getLast false
  | twice _ => rw [List.getLast?_append, a.log_getLast true]; rfl

theorem Attempt.course_once {a : Attempt} (h : a.isRejected = false) :
    c.Course r (a.log c r false) where
  starts := a.log_head false
  forces := by rw [a.log_forces, a.log_response, h]; rfl
  sends := Nat.le_succ_of_le (a.log_sends false)
  signed := by
    intro before after o outcome hl
    obtain ⟨k, rfl, rfl⟩ := a.log_signed false hl
    exact ⟨[], false, k, rfl, rfl, c.presents_outgoing r k, by simp⟩
  alike := by
    intro o ho o' ho'
    obtain ⟨k, rfl⟩ := a.mem_log_sends false ho
    obtain ⟨k', rfl⟩ := a.mem_log_sends false ho'
    exact c.unsigned_outgoing r k k'
  failure_last := a.log_failure_last false

theorem Attempt.course_twice {a : Attempt} (b : Attempt) (h : a.isRejected = true) :
    c.Course r (a.log c r false ++ b.log c r true) where
  starts := by
    obtain ⟨outcome, rest, hl⟩ := a.log_head (c := c) (r := r) false
    rw [hl]
    exact ⟨outcome, rest ++ b.log c r true, rfl⟩
  forces := by
    have hr := a.log_response (c := c) (r := r) false
    rw [h] at hr
    rw [List.filterMap_append, a.log_forces, b.log_forces, List.findSome?_append]
    cases hf : (a.log c r false).findSome? Exchange.response? with
    | none => rw [hf] at hr; cases hr
    | some response =>
      rw [hf] at hr
      rw [Option.some_or, if_pos hr]
      rfl
  sends := by
    rw [List.filterMap_append, List.length_append]
    exact Nat.add_le_add (a.log_sends false) (b.log_sends true)
  signed := by
    intro before after o outcome hl
    rcases List.append_eq_append_iff.mp hl with ⟨l, rfl, hb⟩ | ⟨l, ha, hb⟩
    -- the request is one of the second attempt
    · obtain ⟨k, rfl, rfl⟩ := b.log_signed true hb
      exact ⟨_, true, k, rfl, rfl, c.presents_outgoing r k, by
        simp [a.log_sends_of_rejected false h]⟩
    · cases l with
      | nil =>
        -- the second attempt does not begin with a request
        obtain ⟨outcome', rest, hh⟩ := b.log_head (c := c) (r := r) true
        rw [hh] at hb
        cases hb
      | cons x l =>
        cases hb
        obtain ⟨k, rfl, rfl⟩ := a.log_signed false ha
        exact ⟨[], false, k, rfl, rfl, c.presents_outgoing r k, by simp⟩
  alike := by
    have hs : ∀ o ∈ (a.log c r false ++ b.log c r true).filterMap Exchange.outgoing?,
        ∃ k, o = c.outgoing r k := by
      intro o ho
      rw [List.filterMap_append, List.mem_append] at ho
      exact ho.elim (a.mem_log_sends false) (b.mem_log_sends true)
    intro o ho o' ho'
    obtain ⟨k, rfl⟩ := hs o ho
    obtain ⟨k', rfl⟩ := hs o' ho'
    exact c.unsigned_outgoing r k k'
  failure_last := by
    obtain ⟨outcome, rest, hl⟩ := b.log_head (c := c) (r := r) true
    have hne : b.log c r true ≠ [] := by rw [hl]; exact List.cons_ne_nil _ _
    rw [List.dropLast_append_of_ne_nil hne]
    intro exchange he
    rcases List.mem_append.mp he with ha | hb
    · exact a.log_not_failure false h exchange ha
    · exact b.log_failure_last true exchange hb

theorem Tries.verdict {log : List Exchange} {last : Exchange} {a : Attempt}
    (h : Tries c r log last a) : c.verdict r last =
      match a.outcome r with
      | .error e => .error e
      | .ok response => c.judge r response := by
  cases h with
  | once _ => exact a.verdict_last false
  | twice _ => exact a.verdict_last true

theorem Tries.course {log : List Exchange} {last : Exchange} {a : Attempt}
    (h : Tries c r log last a) : c.Course r log := by
  cases h with
  | once h => exact Attempt.course_once h
  | twice h => exact Attempt.course_twice a h

theorem sendAuthorized_eq : c.sendAuthorized r = c.attempt r false >>= fun response =>
    if response.status = unauthorized then c.attempt r true else pure response :=
  (Call.bind_assoc _ _ _).symm

theorem sendAuthorized_of_quiet {p : Progress σ}
    (h : (c.sendAuthorized r p).2.fired = false) :
    ∃ (log : List Exchange) (last : Exchange) (a : Attempt) (world : σ),
      Tries c r log last a ∧ c.host.Answers p.world log world ∧
      c.sendAuthorized r p =
        (a.outcome r, ⟨world, false, p.trace ++ log.map Exchange.step⟩) := by
  rw [sendAuthorized_eq] at h ⊢
  have hi : ∀ response : Response, Call.IsIdle
      (if response.status = unauthorized then c.attempt r true else pure response) := by
    intro response
    split
    · exact c.isIdle_attempt r true
    · exact Call.isIdle_pure response
  obtain ⟨a, w₁, first, h₁⟩ := c.attempt_of_quiet r (Call.quiet_of_bind hi h)
  cases ha : a.isRejected with
  | false =>
    refine ⟨_, _, a, w₁, .once ha, first, ?_⟩
    cases a with
    | refused e => exact Call.bind_error h₁ _
    | lost k e => exact Call.bind_error h₁ _
    | answered k response =>
      rw [Call.bind_ok h₁, if_neg (of_decide_eq_false ha)]
      rfl
  | true =>
    -- only a response can reject a credential
    cases a with
    | refused e => cases ha
    | lost k e => cases ha
    | answered k response =>
      rw [Call.bind_ok h₁, if_pos (of_decide_eq_true ha)] at h ⊢
      obtain ⟨b, w₂, second, h₂⟩ := c.attempt_of_quiet r h
      refine ⟨_, _, b, w₂, .twice ha, first.append second, ?_⟩
      rw [h₂, List.append_assoc, List.map_append]

/-! ### The body of the response -/

theorem chunk_of_fired {α : Type} (wait : Wait TransportError α) {p : Progress σ}
    (h : p.fired = true) : chunk r wait p = (.error .cancelled, p) :=
  Call.await_of_fired _ _ _ h

theorem chunk_ends {α : Type} (outcome : Except TransportError α) (fired : Bool)
    {p : Progress σ} (h : p.fired = false) : chunk r (.ends outcome fired) p =
      (outcome.mapError (.transport r.method r.path), ⟨p.world, fired, p.trace ++ [.chunk]⟩) :=
  Call.await_ends .chunk _ h rfl

theorem chunk_fires {α : Type} {p : Progress σ} (h : p.fired = false) :
    (chunk r .fires p : Except ClientError α × Progress σ) =
      (.error .cancelled, ⟨p.world, true, p.trace ++ [.chunk]⟩) :=
  Call.await_fires .chunk _ h rfl

theorem readBody_of_fired (body : Body) {p : Progress σ} (h : p.fired = true) :
    c.readBody r body p = (.error .cancelled, p) := by
  cases body with
  | nil => exact Call.bind_error (chunk_of_fired _ h) _
  | cons wait body => exact Call.bind_error (chunk_of_fired _ h) _

/-- Reading a body comes to its contents, chunk by chunk. -/
theorem readBody_of_unfired (body : Body) {p : Progress σ} (h : p.fired = false) :
    ∃ chunks fired, c.readBody r body p =
      (contents r body, ⟨p.world, fired, p.trace ++ List.replicate chunks .chunk⟩) := by
  induction body generalizing p with
  | nil => exact ⟨1, c.host.ending p.world, Call.bind_ok (chunk_ends _ _ h) _⟩
  | cons wait body ih =>
    cases wait with
    | fires => exact ⟨1, true, Call.bind_error (chunk_fires h) _⟩
    | ends outcome fired =>
      cases outcome with
      | error e => exact ⟨1, fired, Call.bind_error (chunk_ends _ _ h) _⟩
      | ok bytes =>
        rw [readBody, Call.bind_ok (chunk_ends _ _ h)]
        cases fired with
        | true => exact ⟨1, true, Call.bind_error (readBody_of_fired body rfl) _⟩
        | false =>
          obtain ⟨chunks, fired, hb⟩ := ih (p := ⟨p.world, false, p.trace ++ [.chunk]⟩) rfl
          have ht : p.trace ++ List.replicate (chunks + 1) Step.chunk =
              p.trace ++ [.chunk] ++ List.replicate chunks .chunk := by
            rw [List.replicate_succ, List.append_cons p.trace]
          refine ⟨chunks + 1, fired, ?_⟩
          rw [ht]
          cases hc : contents r body with
          | error e =>
            rw [hc] at hb
            rw [Call.bind_error hb, contents, hc]
            rfl
          | ok rest =>
            rw [hc] at hb
            rw [Call.bind_ok hb, contents, hc]
            rfl

/-- A response is read to its end and judged. -/
theorem finish_of_unfired (response : Response) {p : Progress σ} (h : p.fired = false) :
    ∃ chunks fired, c.finish r response p =
      (c.judge r response, ⟨p.world, fired, p.trace ++ List.replicate chunks .chunk⟩) := by
  obtain ⟨chunks, fired, hb⟩ := readBody_of_unfired (c := c) (r := r) response.body h
  refine ⟨chunks, fired, ?_⟩
  have hs : response.isSuccess = true ↔ 200 ≤ response.status ∧ response.status < 300 := by
    simp only [Response.isSuccess, Bool.and_eq_true, decide_eq_true_eq]
  cases hc : contents r response.body with
  | error e =>
    rw [hc] at hb
    rw [finish, judge, hc]
    split
    · exact Call.bind_error hb _
    · exact Call.bind_error hb _
  | ok bytes =>
    rw [hc] at hb
    rw [finish, judge, hc]
    split <;> rename_i hr
    · rw [Call.bind_ok hb]
      simp only [if_pos (hs.mp hr)]
      rfl
    · rw [refuse, Call.bind_ok hb]
      simp only [if_neg (fun h => hr (hs.mpr h))]
      rfl

theorem isIdle_finish (response : Response) : (c.finish r response).IsIdle := by
  intro p h
  rw [finish]
  split
  · rw [Call.bind_error (readBody_of_fired _ h)]
  · rw [refuse, Call.bind_error (readBody_of_fired _ h)]

/-! ### Whole calls -/

theorem exchange_of_quiet {world : σ} (h : ((c.exchange r).run world false).2.fired = false) :
    c.Follows r world ((c.exchange r).run world false).2 ((c.exchange r).run world false).1 := by
  obtain ⟨log, last, a, world', tries, answers, hs⟩ :=
    sendAuthorized_of_quiet (Call.quiet_of_bind isIdle_finish h)
  cases ha : a.outcome r with
  | error e =>
    rw [ha] at hs
    have he : (c.exchange r).run world false = _ := Call.bind_error hs _
    rw [he]
    refine ⟨log, last, 0, answers, (List.append_nil _).symm, tries.course, tries.getLast, ?_⟩
    rw [tries.verdict, ha]
  | ok response =>
    rw [ha] at hs
    have he : (c.exchange r).run world false = _ := Call.bind_ok hs _
    rw [he]
    obtain ⟨chunks, fired, hf⟩ := finish_of_unfired (c := c) (r := r) response
      (p := ⟨world', false, [] ++ log.map Exchange.step⟩) rfl
    rw [hf]
    refine ⟨log, last, chunks, answers, rfl, tries.course, tries.getLast, ?_⟩
    rw [tries.verdict, ha]

/-! ### Calls that try once -/

/-- A credential was asked for once, and not as a new one; then at most one request was sent. -/
def TriedOnce (p : Progress σ) : Prop :=
  p.forced = [false] ∧ p.sent.length ≤ 1

/-- From `p` to `q` at most one request was sent, and then chunks were read. -/
def SendsOnce (p q : Progress σ) : Prop :=
  ∃ o n chunks, n ≤ 1 ∧
    q.trace = p.trace ++ (List.replicate n (.send o) ++ List.replicate chunks .chunk)

theorem sendsOnce_await {ε α : Type} (o : Outgoing) (ask : σ → Wait ε α × σ)
    (wrap : ε → ClientError) (p : Progress σ) :
    SendsOnce p (Call.await (.send o) ask wrap p).2 := by
  obtain ⟨n, hn, ht⟩ := Call.await_trace (.send o) ask wrap p
  exact ⟨o, n, 0, hn, by rw [ht, List.replicate_zero, List.append_nil]⟩

theorem SendsOnce.bind {α β : Type} {x : Call σ α} {f : α → Call σ β} {p : Progress σ}
    (hx : SendsOnce p (x p).2)
    (hf : ∀ a q, ∃ chunks, (f a q).2.trace = q.trace ++ List.replicate chunks .chunk) :
    SendsOnce p ((x >>= f) p).2 := by
  cases hr : x p with
  | mk outcome q =>
    rw [hr] at hx
    cases outcome with
    | error e => rwa [Call.bind_error hr]
    | ok a =>
      rw [Call.bind_ok hr]
      obtain ⟨o, n, chunks, hn, ht⟩ := hx
      obtain ⟨more, hm⟩ := hf a q
      refine ⟨o, n, chunks + more, hn, ?_⟩
      rw [hm, ht, List.append_assoc, List.append_assoc, List.replicate_append_replicate]

theorem triedOnce_of_sendsOnce {α : Type} {f : Credential → Call σ α}
    (hf : ∀ k p, SendsOnce p (f k p).2) (world : σ) :
    TriedOnce ((c.credential false >>= f).run world false).2 := by
  have ht : (c.credential false ⟨world, false, []⟩).2.trace = [.credential false] :=
    Call.await_trace_of_unfired _ _ _ rfl
  cases hc : c.credential false ⟨world, false, []⟩ with
  | mk outcome p =>
    rw [hc] at ht
    cases outcome with
    | error e =>
      rw [Call.run, Call.bind_error hc]
      constructor
      · rw [Progress.forced, ht]; rfl
      · rw [Progress.sent, ht]; exact Nat.zero_le 1
    | ok k =>
      rw [Call.run, Call.bind_ok hc]
      obtain ⟨o, n, chunks, hn, hs⟩ := hf k p
      rw [ht] at hs
      constructor
      · simp [Progress.forced, hs]
      · simpa [Progress.sent, hs] using hn

theorem refuse_trace {α : Type} (response : Response) (p : Progress σ) :
    ∃ chunks, (c.refuse r response p : Except ClientError α × Progress σ).2.trace =
      p.trace ++ List.replicate chunks .chunk := by
  cases hp : p.fired with
  | true =>
    rw [refuse, Call.bind_error (readBody_of_fired _ hp)]
    exact ⟨0, (List.append_nil _).symm⟩
  | false =>
    obtain ⟨chunks, fired, hb⟩ := readBody_of_unfired (c := c) (r := r) response.body hp
    refine ⟨chunks, ?_⟩
    cases hc : contents r response.body with
    | error e =>
      rw [hc] at hb
      rw [refuse, Call.bind_error hb]
    | ok bytes =>
      rw [hc] at hb
      rw [refuse, Call.bind_ok hb]
      rfl

theorem watch_triedOnce (version : Option String) (world : σ) :
    TriedOnce ((c.watch r version).run world false).2 := by
  refine triedOnce_of_sendsOnce (fun k p => (sendsOnce_await _ _ _ p).bind ?_) world
  intro response q
  split
  · exact ⟨0, (List.append_nil _).symm⟩
  · exact refuse_trace response q

theorem connect_triedOnce (world : σ) : TriedOnce ((c.connect r).run world false).2 :=
  triedOnce_of_sendsOnce (fun _ p => sendsOnce_await _ _ _ p) world

/-! ### All calls -/

/-- A call that waits for a response and is not called off follows a course of at most two
requests, the second one with a new credential behind a response that rejected the first one. Each
is sent as it was asked for and shows the credential that came just before it. The outcome of the
call is what the last answer stands for. The start of a watch or of a session tries once, whatever
is answered. -/
theorem invoke_follows_course (c : Client σ) (r : Request) (world : σ) :
    (∀ (α : Type) [Documented α], ((c.invoke α r).run world false).2.fired = false →
      ∃ outcome, c.Follows r world ((c.invoke α r).run world false).2 outcome ∧
        ((c.invoke α r).run world false).1 =
          outcome.bind fun (serializer, bytes) => serializer.decodeBody α bytes) ∧
    (((c.invokeBytes r).run world false).2.fired = false →
      ∃ outcome, c.Follows r world ((c.invokeBytes r).run world false).2 outcome ∧
        ((c.invokeBytes r).run world false).1 = outcome.map (·.2)) ∧
    (∀ version, TriedOnce ((c.watch r version).run world false).2) ∧
    TriedOnce ((c.connect r).run world false).2 := by
  refine ⟨?_, ?_, fun version => watch_triedOnce version world, connect_triedOnce world⟩
  · intro α _ h
    have hi : (c.invoke α r).run world false =
        (((c.exchange r).run world false).1.bind fun (s, bytes) => s.decodeBody α bytes,
          ((c.exchange r).run world false).2) := Call.bind_ofExcept _ _ _
    rw [hi] at h ⊢
    exact ⟨_, exchange_of_quiet h, rfl⟩
  · intro h
    have hi : (c.invokeBytes r).run world false =
        (((c.exchange r).run world false).1.map (·.2), ((c.exchange r).run world false).2) :=
      Call.bind_pure _ _ _
    rw [hi] at h ⊢
    exact ⟨_, exchange_of_quiet h, rfl⟩

/-- A client of a written outside. -/
def scripted : Client Script :=
  ⟨"https://host", .ofList [] none, "default", Script.host⟩

/-- An outside that rejects the first credential. -/
def rotated : Script where
  purse := .listed [.ends (.ok (.bearer "old")) false, .ends (.ok (.bearer "new")) false]
  replies := [.response ⟨401, [], [.ends (.ok [0x6E, 0x6F]) false]⟩,
    .response ⟨200, [], [.ends (.ok [0x31]) false]⟩]

/-- Both requests are the same but for the token, and the answer to the first one never shows. -/
theorem invoke_follows_course_rotated :
    let review : Request :=
      ⟨.post, "/reviews", [("dryRun", "All")], some ⟨"application/json", [0x7B, 0x7D]⟩⟩
    let request (token : String) : Outgoing :=
      .request .post "https://host/reviews?dryRun=All" [("Accept", "application/json"),
        ("Authorization", "Bearer " ++ token), ("Content-Type", "application/json")]
        (some [0x7B, 0x7D])
    let value := (scripted.invoke Value review).run rotated false
    let bytes := (scripted.invokeBytes review).run rotated false
    (value.2.fired = false ∧ value.2.forced = [false, true] ∧
      value.2.sent = [request "old", request "new"] ∧
      ∃ outcome, scripted.Follows review rotated value.2 outcome ∧
        value.1 = outcome.bind fun (serializer, bytes) => serializer.decodeBody Value bytes) ∧
    (bytes.2.fired = false ∧ bytes.1 = .ok [0x31] ∧
      bytes.2.sent = [request "old", request "new"] ∧
      ∃ outcome, scripted.Follows review rotated bytes.2 outcome ∧
        bytes.1 = outcome.map (·.2)) :=
  ⟨⟨rfl, rfl, by decide +kernel, (invoke_follows_course scripted _ rotated).1 Value rfl⟩,
    ⟨rfl, rfl, by decide +kernel, (invoke_follows_course scripted _ rotated).2.1 rfl⟩⟩

end Client
end KubeClient
