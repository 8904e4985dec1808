import KubeClient.Proofs.Course

/-!
# Calls that are called off

A caller may call off at any time: before a call, while it waits for the outside, or just when a
wait ends. Nothing is asked for after that, and the call has failed, unless the wait that has just
ended was its last one anyway.

* `Waited`, `Host.Serves` : what a call has waited for, one after the other, each begun before the
  caller called off, and each chunk one of the body that is due;
* `Host.Serves.unique` : there is only one such log;
* `Call.Heeds` : a call that asks for nothing, and fails, once it is called off;
* `heeds_await` : one wait, and what the call does with its outcome;
* `heeds_calling_off` : all calls.
-/

namespace KubeClient

/-! ### What was waited for -/

/-- The caller has called off by the end of a wait. -/
def Wait.hasFired {ε α : Type} : Wait ε α → Bool
  | .ends _ fired => fired
  | .fires => true

/-- What a call waited for, and how the wait ended. -/
inductive Waited
  | credential (force : Bool) (wait : Wait AuthError Credential)
  | send (outgoing : Outgoing) (wait : Wait TransportError Response)
  | upgrade (outgoing : Outgoing) (wait : Wait TransportError Unit)
  | chunk (wait : Wait TransportError Bytes)
  | bodyEnd (wait : Wait TransportError Unit)

namespace Waited

/-- What was asked for. -/
def step : Waited → Step
  | credential force _ => .credential force
  | send outgoing _ => .send outgoing
  | upgrade outgoing _ => .send outgoing
  | chunk _ => .chunk
  | bodyEnd _ => .chunk

/-- The caller has called off by the end of the wait. -/
def hasFired : Waited → Bool
  | credential _ wait => wait.hasFired
  | send _ wait => wait.hasFired
  | upgrade _ wait => wait.hasFired
  | chunk wait => wait.hasFired
  | bodyEnd wait => wait.hasFired

/-- The wait decides about a call: there is a failure, the body has ended, the connection is open,
or the head of the response is enough. -/
def decides (enough : Response → Bool) : Waited → Bool
  | credential _ (.ends (.error _) _) => true
  | send _ (.ends (.error _) _) => true
  | send _ (.ends (.ok response) _) => enough response
  | upgrade _ (.ends _ _) => true
  | chunk (.ends (.error _) _) => true
  | bodyEnd (.ends _ _) => true
  | _ => false

end Waited

variable {σ α β ε : Type}

/-- What is due of the body of a response once a wait has ended: all of it when the head has come,
and then what is behind the chunk that was waited for. -/
def Waited.due (body : Option Body) : Waited → Option Body
  | .send _ (.ends (.ok response) _) => some response.body
  | .chunk _ => body.map List.tail
  | _ => none

/-- How a wait for the outside ends while `body` is due. A chunk is the next one of that body, and
the end is waited for behind the last one. -/
inductive Host.Asked (h : Host σ) (body : Option Body) : σ → Waited → σ → Prop
  | credential (force : Bool) (world : σ) :
    Asked h body world (.credential force (h.credential force world).1)
      (h.credential force world).2
  | send (method : Method) (url : String) (headers : Pairs) (bytes : Option Bytes) (world : σ) :
    Asked h body world
      (.send (.request method url headers bytes)
        (h.send (.request method url headers bytes) world).1)
      (h.send (.request method url headers bytes) world).2
  | upgrade (url : String) (headers : Pairs) (protocols : List String) (world : σ) :
    Asked h body world
      (.upgrade (.upgrade url headers protocols)
        (h.upgrade (.upgrade url headers protocols) world).1)
      (h.upgrade (.upgrade url headers protocols) world).2
  | chunk {wait : Wait TransportError Bytes} {rest : Body} (world : σ)
    (next : body = some (wait :: rest)) : Asked h body world (.chunk wait) world
  | bodyEnd (world : σ) (last : body = some []) :
    Asked h body world (.bodyEnd (.ends (.ok ()) (h.ending world))) world

/-- From one progress to another a call has waited for all of a log, in order, while `body` was due
at first. No wait has begun after the caller had called off. -/
inductive Host.Serves (h : Host σ) : Option Body → Progress σ → List Waited → Progress σ → Prop
  | nil (body : Option Body) (p : Progress σ) : Serves h body p [] p
  | cons {body : Option Body} {p q : Progress σ} {waited : Waited} {log : List Waited} {world : σ}
    (unfired : p.fired = false) (asked : h.Asked body p.world waited world)
    (rest : Serves h (waited.due body) ⟨world, waited.hasFired, p.trace ++ [waited.step]⟩ log q) :
    Serves h body p (waited :: log) q

section Serves

variable {h : Host σ} {body : Option Body} {p q : Progress σ} {log log' : List Waited}

theorem Host.Serves.trace (serves : h.Serves body p log q) :
    q.trace = p.trace ++ log.map Waited.step := by
  induction serves with
  | nil => exact (List.append_nil _).symm
  | cons _ _ _ ih => rw [ih, List.map_cons, List.append_assoc, List.singleton_append]

/-- What was asked for tells how the wait ended. -/
theorem Host.Asked.unique {world w w' : σ} {waited waited' : Waited}
    (asked : h.Asked body world waited w) (asked' : h.Asked body world waited' w')
    (hstep : waited.step = waited'.step) : waited = waited' ∧ w = w' := by
  cases asked with
  | credential | send | upgrade =>
    cases asked' <;> cases hstep
    exact ⟨rfl, rfl⟩
  | chunk _ next =>
    cases asked' with
    | chunk _ next' =>
      cases next.symm.trans next'
      exact ⟨rfl, rfl⟩
    | bodyEnd _ last => cases next.symm.trans last
    | _ => cases hstep
  | bodyEnd _ last =>
    cases asked' with
    | chunk _ next => cases next.symm.trans last
    | bodyEnd => exact ⟨rfl, rfl⟩
    | _ => cases hstep

/-- What a call has waited for is known from what it has asked for. -/
theorem Host.Serves.unique (serves : h.Serves body p log q) (serves' : h.Serves body p log' q) :
    log = log' := by
  induction serves generalizing log' with
  | nil body p =>
    have hsteps := List.append_cancel_left (serves'.trace.symm.trans (List.append_nil _).symm)
    exact (List.map_eq_nil_iff.mp hsteps).symm
  | @cons body p q waited log world unfired asked rest ih =>
    have hsteps := List.append_cancel_left
      (((Host.Serves.cons unfired asked rest).trace.symm).trans serves'.trace)
    cases serves' with
    | nil => cases hsteps
    | cons _ asked' rest' =>
      obtain ⟨rfl, rfl⟩ := asked.unique asked' (List.cons.inj hsteps).1
      rw [ih rest']

end Serves

/-- The caller called off during the last wait, and that wait has not decided about the call. -/
def CutShort (enough : Response → Bool) (log : List Waited) : Prop :=
  ∃ last, log.getLast? = some last ∧ last.hasFired = true ∧ last.decides enough = false

section CutShort

variable {enough : Response → Bool} {waited : Waited} {log : List Waited}

theorem cutShort_singleton :
    CutShort enough [waited] ↔ waited.hasFired = true ∧ waited.decides enough = false := by
  constructor
  · rintro ⟨last, hlast, hcut⟩
    cases hlast
    exact hcut
  · exact fun hcut => ⟨waited, rfl, hcut⟩

/-- A wait that has decided is not cut short. -/
theorem not_cutShort_of_decides (h : waited.decides enough = true) :
    ¬ CutShort enough [waited] := by
  rw [cutShort_singleton, h]
  rintro ⟨-, hfalse⟩
  cases hfalse

theorem cutShort_cons (h : waited.hasFired = false) :
    CutShort enough (waited :: log) ↔ CutShort enough log := by
  cases log with
  | nil =>
    rw [cutShort_singleton, h]
    constructor
    · rintro ⟨hfired, -⟩
      cases hfired
    · rintro ⟨last, hlast, -⟩
      cases hlast
  | cons next log =>
    rw [CutShort, CutShort, List.getLast?_cons_cons]

end CutShort

/-! ### One wait -/

namespace Call

/-- A call that heeds its caller while `body` is due: nothing is asked for after the caller has
called off, and then the call has failed, unless the last wait has decided about it. -/
structure Heeds (h : Host σ) (enough : Response → Bool) (body : Option Body) (x : Call σ α) :
    Prop where
  late : ∀ p, p.fired = true → x p = (.error .cancelled, p)
  served : ∀ p, p.fired = false → ∃ log, h.Serves body p log (x p).2
  prompt : ∀ p log, p.fired = false → h.Serves body p log (x p).2 →
    ((x p).1 = .error .cancelled ↔ CutShort enough log)

theorem heeds_of_log {h : Host σ} {enough : Response → Bool} {body : Option Body} {x : Call σ α}
    (late : ∀ p, p.fired = true → x p = (.error .cancelled, p))
    (hlog : ∀ p, p.fired = false → ∃ log, h.Serves body p log (x p).2 ∧
      ((x p).1 = .error .cancelled ↔ CutShort enough log)) : Heeds h enough body x where
  late := late
  served p hp := (hlog p hp).imp fun _ => And.left
  prompt p log hp hserves := by
    obtain ⟨log', hserves', hcut⟩ := hlog p hp
    rwa [hserves.unique hserves']

/-- A call that asks for nothing and has an outcome. -/
def IsSettled (x : Call σ α) : Prop :=
  ∃ outcome, x = ofExcept outcome ∧ outcome ≠ .error .cancelled

theorem isSettled_pure (a : α) : IsSettled (pure a : Call σ α) :=
  ⟨.ok a, rfl, fun h => by cases h⟩

/-- A wait whose outcome is `asked`. What the wait does not decide about is left to a call that
heeds its caller. -/
theorem heeds_await {h : Host σ} {enough : Response → Bool} {body : Option Body} {step : Step}
    {ask : σ → Wait ε α × σ} {wrap : ε → ClientError} {f : α → Call σ β}
    (waited : Wait ε α → Waited) (hstep : ∀ wait, (waited wait).step = step)
    (hfired : ∀ wait, (waited wait).hasFired = wait.hasFired)
    (hasked : ∀ world, h.Asked body world (waited (ask world).1) (ask world).2)
    (hpending : (waited .fires).decides enough = false)
    (herror : ∀ e fired,
      (waited (.ends (.error e) fired)).decides enough = true ∧ wrap e ≠ .cancelled)
    (hok : ∀ a,
      (Heeds h enough ((waited (.ends (.ok a) false)).due body) (f a) ∧
        ∀ fired, (waited (.ends (.ok a) fired)).decides enough = false) ∨
      (IsSettled (f a) ∧ ∀ fired, (waited (.ends (.ok a) fired)).decides enough = true)) :
    Heeds h enough body (await step ask wrap >>= f) := by
  refine heeds_of_log (fun p hp => bind_error (await_of_fired step ask wrap hp) f) fun p hp => ?_
  have hserved (log : List Waited) (q : Progress σ)
      (hrest : h.Serves ((waited (ask p.world).1).due body)
        ⟨(ask p.world).2, (ask p.world).1.hasFired, p.trace ++ [step]⟩ log q) :
      h.Serves body p (waited (ask p.world).1 :: log) q := by
    refine .cons hp (hasked p.world) ?_
    rw [hstep, hfired]
    exact hrest
  cases hw : ask p.world with
  | mk wait world =>
    rw [hw] at hserved
    cases wait with
    | fires =>
      rw [bind_error (await_fires step wrap hp hw) f]
      have hcut : CutShort enough [waited .fires] :=
        cutShort_singleton.mpr ⟨hfired .fires, hpending⟩
      exact ⟨_, hserved [] _ (.nil _ _), iff_of_true rfl hcut⟩
    | ends outcome fired =>
      have hx := await_ends step wrap hp hw
      cases outcome with
      | error e =>
        rw [bind_error hx f]
        obtain ⟨hdecides, hne⟩ := herror e fired
        exact ⟨_, hserved [] _ (.nil _ _), iff_of_false (fun hcancelled =>
          hne (Except.error.inj hcancelled)) (not_cutShort_of_decides hdecides)⟩
      | ok a =>
        rw [bind_ok hx f]
        rcases hok a with ⟨hheeds, hopen⟩ | ⟨⟨outcome, hsettled, hne⟩, hdecides⟩
        · cases fired with
          | true =>
            rw [hheeds.late _ rfl]
            have hcut : CutShort enough [waited (.ends (.ok a) true)] :=
              cutShort_singleton.mpr ⟨hfired _, hopen true⟩
            exact ⟨_, hserved [] _ (.nil _ _), iff_of_true rfl hcut⟩
          | false =>
            obtain ⟨log, hrest⟩ := hheeds.served ⟨world, false, p.trace ++ [step]⟩ rfl
            have hcut := hheeds.prompt _ log rfl hrest
            refine ⟨_, hserved log _ hrest, hcut.trans (cutShort_cons ?_).symm⟩
            rw [hfired]
            rfl
        · rw [hsettled]
          exact ⟨_, hserved [] _ (.nil _ _),
            iff_of_false hne (not_cutShort_of_decides (hdecides fired))⟩

end Call

/-! ### The waits of a client -/

namespace Client

open Call

variable (c : Client σ) (r : Request)

/-- No head of a response is enough. -/
def whole : Response → Bool := fun _ => false

variable {c r} {enough : Response → Bool} {body : Option Body}

theorem heeds_credential {force : Bool} {f : Credential → Call σ α}
    (hf : ∀ k, Heeds c.host enough none (f k)) :
    Heeds c.host enough body (c.credential force >>= f) :=
  heeds_await (.credential force) (fun _ => rfl) (fun _ => rfl) (.credential force) rfl
    (fun _ _ => ⟨rfl, fun h => by cases h⟩) fun k => .inl ⟨hf k, fun _ => rfl⟩

theorem heeds_dispatch {k : Credential} {f : Response → Call σ α}
    (hf : ∀ response,
      (Heeds c.host enough (some response.body) (f response) ∧ enough response = false) ∨
      (IsSettled (f response) ∧ enough response = true)) :
    Heeds c.host enough body (c.dispatch r k >>= f) :=
  heeds_await (.send (c.outgoing r k)) (fun _ => rfl) (fun _ => rfl)
    (.send r.method (r.url c.base) (c.headers r k) (r.body.map (·.bytes))) rfl
    (fun _ _ => ⟨rfl, fun h => by cases h⟩) fun response =>
      (hf response).imp (fun h => ⟨h.1, fun _ => h.2⟩) fun h => ⟨h.1, fun _ => h.2⟩

theorem heeds_upgrade {url : String} {headers : Pairs} {protocols : List String} :
    Heeds c.host enough body (.await (.send (.upgrade url headers protocols))
      (c.host.upgrade (.upgrade url headers protocols)) (.transport r.method r.path)) := by
  rw [← Call.bind_pure_self (await _ _ _)]
  exact heeds_await (.upgrade (.upgrade url headers protocols)) (fun _ => rfl) (fun _ => rfl)
    (.upgrade url headers protocols) rfl (fun _ _ => ⟨rfl, fun h => by cases h⟩)
    fun a => .inr ⟨isSettled_pure a, fun _ => rfl⟩

/-- A body that is due is waited for chunk by chunk up to its end, where no more is waited for. -/
theorem heeds_readBody (body : Body) {f : Bytes → Call σ α} (hf : ∀ bytes, IsSettled (f bytes)) :
    Heeds c.host enough (some body) (c.readBody r body >>= f) := by
  induction body generalizing f with
  | nil =>
    have hend : c.bodyEnd r =
        await .chunk (fun world => (.ends (.ok ()) (c.host.ending world), world))
          (.transport r.method r.path) := rfl
    rw [readBody, Call.bind_assoc, hend]
    exact heeds_await .bodyEnd (fun _ => rfl) (fun _ => rfl) (fun world => .bodyEnd world rfl) rfl
      (fun _ _ => ⟨rfl, fun h => by cases h⟩) fun _ => .inr ⟨hf [], fun _ => rfl⟩
  | cons wait body ih =>
    rw [readBody, Call.bind_assoc]
    refine heeds_await .chunk (fun _ => rfl) (fun _ => rfl) (fun world => .chunk world rfl) rfl
      (fun _ _ => ⟨rfl, fun h => by cases h⟩) fun bytes => .inl ⟨?_, fun _ => rfl⟩
    rw [Call.bind_assoc]
    exact ih fun more => hf (bytes ++ more)

theorem heeds_refuse (response : Response) (f : β → Call σ α) :
    Heeds c.host enough (some response.body) (c.refuse r response >>= f) := by
  rw [refuse, Call.bind_assoc]
  exact heeds_readBody response.body fun bytes => ⟨.error _, rfl, fun h => by cases h⟩

theorem heeds_finish (response : Response) {f : Serializer × Bytes → Call σ α}
    (hf : ∀ read, IsSettled (f read)) :
    Heeds c.host enough (some response.body) (c.finish r response >>= f) := by
  rw [finish]
  split
  · rw [Call.bind_assoc]
    exact heeds_readBody response.body fun bytes => hf _
  · exact heeds_refuse response f

theorem heeds_exchange {f : Serializer × Bytes → Call σ α} (hf : ∀ read, IsSettled (f read)) :
    Heeds c.host whole body (c.exchange r >>= f) := by
  have hfinish (response : Response) :
      Heeds c.host whole (some response.body) (c.finish r response >>= f) ∧
        whole response = false :=
    ⟨heeds_finish response hf, rfl⟩
  rw [exchange, sendAuthorized, Call.bind_assoc, Call.bind_assoc]
  refine heeds_credential fun k => ?_
  rw [Call.bind_assoc]
  refine heeds_dispatch fun response => .inl ⟨?_, rfl⟩
  split
  · rw [Call.bind_assoc]
    refine heeds_credential fun k => heeds_dispatch fun response => .inl (hfinish response)
  · exact (hfinish response).1

/-! ### All calls -/

theorem decodeBody_ne_cancelled (α : Type) [Documented α] (s : Serializer) (bytes : Bytes) :
    s.decodeBody α bytes ≠ .error .cancelled := by
  rw [Serializer.decodeBody]
  split
  · exact fun h => by cases h
  · exact fun h => by cases h
  · rw [Serializer.decodeDocument]
    cases Serializer.ofDocument α .null with
    | ok a => exact fun h => by cases h
    | error cause => exact fun h => by cases h

/-- All calls heed their caller: nothing is asked for once the caller has called off, and then the
call has failed for that reason, unless the last wait has decided about it, by a failure, the end of
the body or an open connection; the start of a watch is decided about by the head of a successful
response. Chunks are those of the body of the response that has come, in order, and no body is due
at first. If the caller calls off before a call, nothing is asked for at all. -/
theorem heeds_calling_off (c : Client σ) (r : Request) :
    (∀ (α : Type) [Documented α], Heeds c.host whole none (c.invoke α r)) ∧
    Heeds c.host whole none (c.invokeBytes r) ∧
    (∀ version, Heeds c.host Response.isSuccess none (c.watch r version)) ∧
    Heeds c.host whole none (c.connect r) := by
  refine ⟨fun α _ => ?_, ?_, fun version => ?_, ?_⟩
  · exact heeds_exchange fun read => ⟨_, rfl, decodeBody_ne_cancelled α read.1 read.2⟩
  · exact heeds_exchange fun read => isSettled_pure read.2
  · refine heeds_credential fun k => heeds_dispatch fun response => ?_
    split
    · rename_i hsuccess
      exact .inr ⟨isSettled_pure _, hsuccess⟩
    · rename_i hfailure
      rw [← Call.bind_pure_self (c.refuse _ response)]
      exact .inl ⟨heeds_refuse response pure, Bool.eq_false_iff.mpr hfailure⟩
  · exact heeds_credential fun k => heeds_upgrade

/-- The body of a response, of which a chunk comes before the caller calls off. -/
def interrupted : Body :=
  [.ends (.ok [0x31]) false, .fires, .ends (.ok [0x32]) false]

/-- The caller calls off while the second chunk is waited for: the chunk that has come is no
success, and the third one is not waited for. -/
theorem heeds_calling_off_between_chunks :
    let r : Request := ⟨.get, "/version", [], none⟩
    let world : Script :=
      ⟨.listed [.ends (.ok (.bearer "t")) false], [.response ⟨200, [], interrupted⟩]⟩
    let call := (scripted.invokeBytes r).run world false
    let log : List Waited := [.credential false (.ends (.ok (.bearer "t")) false),
      .send (scripted.outgoing r (.bearer "t")) (.ends (.ok ⟨200, [], interrupted⟩) false),
      .chunk (.ends (.ok [0x31]) false), .chunk .fires]
    scripted.host.Serves none ⟨world, false, []⟩ log call.2 ∧ CutShort whole log ∧
      call.1 = .error .cancelled := by
  intro r world call log
  have hserves : scripted.host.Serves none ⟨world, false, []⟩ log call.2 :=
    .cons rfl (.credential false world) <| .cons rfl (.send ..) <| .cons rfl (.chunk _ rfl) <|
      .cons rfl (.chunk _ rfl) <| .nil ..
  have hcut : CutShort whole log := ⟨_, rfl, rfl, rfl⟩
  exact ⟨hserves, hcut,
    ((heeds_calling_off scripted r).2.1.prompt ⟨world, false, []⟩ log rfl hserves).mpr hcut⟩

end Client
end KubeClient
