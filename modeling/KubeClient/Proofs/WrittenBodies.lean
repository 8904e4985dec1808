import KubeClient.Client.Script
import KubeClient.Proofs.Call
import KubeClient.Proofs.Registrations
import KubeClient.Resource.Requests

/-!
# The bodies of requests

A document that is sent says by its content type in which notation it is written.

* `Call.Sends` : what a call may send, with one rule for each way of putting calls together;
* `Handle.Writes` : the requests that carry a document;
* `Outgoing.Carries` : a document goes out under a content type that stands for its notation;
* `Registry.settings_resolve` : what the settings of a registry come to, up to the bodies that are
  sent.
-/

namespace KubeClient

variable {σ α β : Type}

/-! ### What a call may send -/

namespace Call

/-- Whatever a call sends satisfies `P`. -/
def Sends (P : Outgoing → Prop) (x : Call σ α) : Prop :=
  ∀ p, ∃ steps, (x p).2.trace = p.trace ++ steps ∧ ∀ o, .send o ∈ steps → P o

variable {P : Outgoing → Prop}

theorem sends_ofExcept (outcome : Except ClientError α) :
    Sends P (ofExcept outcome : Call σ α) :=
  fun p => ⟨[], (List.append_nil p.trace).symm, fun _ h => by cases h⟩

theorem sends_pure (a : α) : Sends P (pure a : Call σ α) :=
  sends_ofExcept (.ok a)

theorem sends_fail (e : ClientError) : Sends P (fail e : Call σ α) :=
  sends_ofExcept (.error e)

theorem sends_await {ε : Type} {step : Step} (h : ∀ o, step = .send o → P o)
    (ask : σ → Wait ε α × σ) (wrap : ε → ClientError) : Sends P (await step ask wrap) := by
  intro p
  obtain ⟨n, -, ht⟩ := await_trace step ask wrap p
  refine ⟨_, ht, ?_⟩
  intro o ho
  exact h o (List.eq_of_mem_replicate ho).symm

theorem sends_bind {x : Call σ α} {f : α → Call σ β} (hx : Sends P x)
    (hf : ∀ a, Sends P (f a)) : Sends P (x >>= f) := by
  intro p
  obtain ⟨steps, ht, hs⟩ := hx p
  cases hr : x p with
  | mk outcome q =>
    rw [hr] at ht
    cases outcome with
    | error e =>
      rw [bind_error hr f]
      exact ⟨steps, ht, hs⟩
    | ok a =>
      obtain ⟨more, ht', hs'⟩ := hf a q
      rw [bind_ok hr f]
      refine ⟨steps ++ more, ?_, ?_⟩
      · rw [ht', ht, List.append_assoc]
      · intro o ho
        rcases List.mem_append.mp ho with ho | ho
        · exact hs o ho
        · exact hs' o ho

/-- A call that is run from the start has sent nothing else. -/
theorem Sends.run {x : Call σ α} (h : Sends P x) (world : σ) (fired : Bool) :
    ∀ o ∈ (x.run world fired).2.sent, P o := by
  obtain ⟨steps, ht, hs⟩ := h ⟨world, fired, []⟩
  intro o ho
  rw [Progress.sent, Call.run, ht, List.nil_append, List.mem_filterMap] at ho
  obtain ⟨step, hstep, he⟩ := ho
  cases step with
  | send o' =>
    cases he
    exact hs o hstep
  | credential => cases he
  | chunk => cases he

end Call

namespace Client

open Call

variable (c : Client σ) (r : Request)

/-- What goes to the network is the request, signed with some credential. -/
def IsSigned (o : Outgoing) : Prop :=
  ∃ credential, o = c.outgoing r credential

theorem sends_credential (force : Bool) : Sends (c.IsSigned r) (c.credential force) :=
  sends_await (fun _ h => by cases h) _ _

theorem sends_dispatch (credential : Credential) :
    Sends (c.IsSigned r) (c.dispatch r credential) := by
  refine sends_await ?_ _ _
  intro o h
  cases h
  exact ⟨credential, rfl⟩

theorem sends_sendAuthorized : Sends (c.IsSigned r) (c.sendAuthorized r) := by
  unfold sendAuthorized
  apply sends_bind (c.sends_credential r false)
  intro credential
  apply sends_bind (c.sends_dispatch r credential)
  intro response
  split
  · exact sends_bind (c.sends_credential r true) (c.sends_dispatch r)
  · exact sends_pure response

theorem sends_chunk {α : Type} {P : Outgoing → Prop} (wait : Wait TransportError α) :
    Sends P (chunk r wait : Call σ α) :=
  sends_await (fun _ h => by cases h) _ _

theorem sends_readBody {P : Outgoing → Prop} (body : Body) : Sends P (c.readBody r body) := by
  induction body with
  | nil =>
    unfold readBody
    refine sends_bind (fun p => ?_) fun _ => sends_pure []
    exact sends_chunk r (.ends (.ok ()) (c.host.ending p.world)) p
  | cons wait body ih =>
    unfold readBody
    exact sends_bind (sends_chunk r wait) fun bytes => sends_bind ih fun more => sends_pure _

theorem sends_refuse {P : Outgoing → Prop} (response : Response) :
    Sends P (c.refuse r response : Call σ α) :=
  sends_bind (c.sends_readBody r response.body) fun _ => sends_fail _

theorem sends_finish {P : Outgoing → Prop} (response : Response) :
    Sends P (c.finish r response) := by
  unfold finish
  split
  · exact sends_bind (c.sends_readBody r response.body) fun _ => sends_pure _
  · exact c.sends_refuse r response

/-- A call for a request sends nothing but that request. -/
theorem sends_invoke (α : Type) [Documented α] : Sends (c.IsSigned r) (c.invoke α r) := by
  unfold invoke exchange
  apply sends_bind
  · exact sends_bind (c.sends_sendAuthorized r) (c.sends_finish r)
  · intro read
    exact sends_ofExcept _

end Client

/-! ### Requests that carry a document -/

namespace Request

variable (r : Request)

@[simp]
theorem body_add? (name : String) (value : Option String) :
    (r.add? name value).body = r.body := by
  cases value <;> rfl

@[simp]
theorem body_addFlag (name : String) (flag : Bool) : (r.addFlag name flag).body = r.body := by
  cases flag <;> rfl

@[simp]
theorem body_addDryRun (dryRun : Bool) : (r.addDryRun dryRun).body = r.body := by
  cases dryRun <;> rfl

end Request

namespace Handle

variable [Documented α]

/-- The requests that create an object, put one in the place of another one, also a status, or
change it by a patch; `a` is the object or the patch. -/
inductive Writes (h : Handle) (r : Registry) (a : α) : Request → Prop
  | create (o : WriteOptions) : Writes h r a (h.create r o a)
  | replace (o : WriteOptions) (name : String) : Writes h r a (h.replace r o name a)
  | replaceStatus (o : WriteOptions) (name : String) : Writes h r a (h.replaceStatus r o name a)
  | patch {o : PatchOptions} {s : PatchStrategy} {name : String} {request : Request}
    (made : h.patch r o s name a = .ok request) : Writes h r a request
  | patchStatus {o : PatchOptions} {s : PatchStrategy} {name : String} {request : Request}
    (made : h.patchStatus r o s name a = .ok request) : Writes h r a request

/-- The body of a patch is written by the serializer of its strategy. -/
theorem body_patchAt {r : Registry} {o : PatchOptions} {s : PatchStrategy} {path : String} {a : α}
    {request : Request} (h : patchAt r o s path a = .ok request) :
    ∃ serializer, r.serializerFor s.contentType = .ok serializer ∧
      request.body = some (serializer.payload a) := by
  unfold patchAt Registry.patchPayload at h
  cases hs : r.serializerFor s.contentType with
  | error e =>
    rw [hs] at h
    cases h
  | ok serializer =>
    rw [hs] at h
    change Except.mapError _ (o.apply s _) = _ at h
    unfold PatchOptions.apply at h
    split at h
    · cases h
    · split at h
      · cases h
      · cases h
        exact ⟨serializer, rfl, by simp⟩

/-- The body of a request is written by a serializer that its content type stands for. -/
theorem Writes.body {h : Handle} {settings : List Setting} {a : α} {request : Request}
    (w : h.Writes (.ofSettings settings) a request) :
    ∃ s, (Registry.ofSettings settings).serializerFor s.contentType = .ok s ∧
      request.body = some (s.payload a) := by
  have hdefault (request : Request)
      (hb : request.body = some ((Registry.ofSettings settings).payload a)) :
      ∃ s, (Registry.ofSettings settings).serializerFor s.contentType = .ok s ∧
        request.body = some (s.payload a) :=
    ⟨(Registry.ofSettings settings).defaultSerializer,
      Registry.serializerFor_defaultType settings, hb⟩
  cases w with
  | create o => exact hdefault _ (by simp [Handle.create, WriteOptions.apply])
  | replace o name => exact hdefault _ (by simp [Handle.replace, WriteOptions.apply])
  | replaceStatus o name => exact hdefault _ (by simp [Handle.replaceStatus, WriteOptions.apply])
  | patch made =>
    obtain ⟨s, hs, hb⟩ := body_patchAt made
    exact ⟨s, Registry.serializerFor_contentType hs, hb⟩
  | patchStatus made =>
    obtain ⟨s, hs, hb⟩ := body_patchAt made
    exact ⟨s, Registry.serializerFor_contentType hs, hb⟩

end Handle

/-! ### What goes out -/

/-- A document goes out under one content type, which stands for the notation that it is written
in. -/
def Outgoing.Carries (r : Registry) (v : Value) (o : Outgoing) : Prop :=
  ∃ method url headers s, o = .request method url headers (some (s.format.print v)) ∧
    headers.filter (·.1 == "Content-Type") = [("Content-Type", s.contentType)] ∧
    r.serializerFor s.contentType = .ok s

theorem Client.carries_outgoing [Documented α] {c : Client σ} {r : Request} {s : Serializer}
    {a : α} (hs : c.registry.serializerFor s.contentType = .ok s)
    (hb : r.body = some (s.payload a)) (k : Credential) :
    (c.outgoing r k).Carries c.registry (Documented.toValue a) := by
  refine ⟨r.method, r.url c.base, c.headers r k, s, ?_, ?_, hs⟩
  · rw [outgoing, hb]
    rfl
  · cases hk : k.authorization <;> simp [headers, hb, hk, Serializer.payload]

/-! ### What settings come to -/

namespace Registry

/-- Whatever is said about a registry, in whatever order and spelling: a content type stands for the
notation of the last registration of its media type, and is refused if there is none; case, blanks
and parameters do not matter. The default type is the last one that was said, if it is known, and
JSON otherwise, so it has a serializer, which is the default one. All documents that a client sends,
objects and patches, go out under a content type that stands for the notation they are written
in. -/
theorem settings_resolve (settings : List Setting) :
    let r := ofSettings settings
    (∀ contentType s, r.serializerFor contentType = .ok s ↔
      s.contentType = MediaType.normal contentType ∧ IsLast settings contentType s.format) ∧
    (∀ contentType e, r.serializerFor contentType = .error e ↔
      e = .unsupported (MediaType.normal contentType) ∧ IsUnknown settings contentType) ∧
    (∀ contentType media, MediaType.Spells contentType media →
      r.serializerFor contentType = r.serializerFor media) ∧
    (∀ spelled, List.Forall₂ Setting.Spells spelled settings → ofSettings spelled = r) ∧
    (r.defaultType = if IsUnknown settings (preferred settings) then MediaType.json
      else MediaType.normal (preferred settings)) ∧
    r.serializerFor r.defaultType = .ok r.defaultSerializer ∧
    (∀ (σ : Type) (c : Client σ), c.registry = r →
      ∀ (h : Handle) (α : Type) [Documented α] (a : α) (request : Request), h.Writes r a request →
      ∀ (β : Type) [Documented β] (world : σ) (fired : Bool),
      ∀ o ∈ ((c.invoke β request).run world fired).2.sent,
        o.Carries r (Documented.toValue a)) := by
  intro r
  refine ⟨fun contentType s => serializerFor_eq_ok_iff,
    fun contentType e => serializerFor_eq_error_iff, ?_, fun spelled => ofSettings_of_spells,
    defaultType_ofSettings settings, serializerFor_defaultType settings, ?_⟩
  · intro contentType media h
    exact r.serializerFor_of_normal (MediaType.normal_of_spells h)
  · intro σ c hc h α _ a request w β _ world fired o ho
    obtain ⟨s, hs, hb⟩ := w.body
    obtain ⟨k, rfl⟩ := (c.sends_invoke request β).run world fired o ho
    have hk : c.registry.serializerFor s.contentType = .ok s := by rw [hc, hs]
    rw [← hc]
    exact Client.carries_outgoing hk hb k

/-- JSON is registered again, as YAML and in capital letters, and a type that is not known is to be
the default. -/
def respelled : List Setting :=
  [.register "Application/JSON; q=1" .yaml, .prefer " TEXT/plain "]

/-- The same without capital letters, blanks and parameters. -/
def unspelled : List Setting :=
  [.register "application/json" .yaml, .prefer "text/plain"]

/-- A client of a registry, and of an outside that answers once. -/
def client (r : Registry) : Client Script :=
  ⟨"https://host", r, "default", Script.host⟩

/-- The outside that answers once. -/
def answering : Script :=
  ⟨.listed [.ends (.ok (.bearer "t")) false], [.response ⟨201, [], []⟩]⟩

theorem spells_json : MediaType.Spells "Application/JSON; q=1" "application/json" := by
  refine ⟨by simp, [], "Application/JSON".toList, [], "; q=1".toList, ?_, by simp, ?_, ?_⟩
  · simp
  · simp
  · exact .inr ⟨" q=1".toList, by simp⟩

theorem spells_plain : MediaType.Spells " TEXT/plain " "text/plain" := by
  refine ⟨by simp, " ".toList, "TEXT/plain".toList, " ".toList, [], ?_, ?_, ?_, .inl rfl⟩
  · simp
  · intro c hc
    have hspace : c = ' ' := by simpa using hc
    rw [hspace]
    decide
  · simp

theorem settings_resolve_respelled :
    let r := ofSettings unspelled
    let request := Handle.create ⟨.core "configmaps", some "ns"⟩ r {} (Value.string "a")
    let sent := (((client r).invoke Value request).run answering false).2.sent
    r.serializerFor "Application/JSON; q=1" = .ok ⟨"application/json", .yaml⟩ ∧
    r.serializerFor "text/plain" = .error (.unsupported "text/plain") ∧
    (MediaType.Spells "Application/JSON; q=1" "application/json" ∧
      r.serializerFor "Application/JSON; q=1" = r.serializerFor "application/json") ∧
    (List.Forall₂ Setting.Spells respelled unspelled ∧ ofSettings respelled = r) ∧
    r.serializerFor r.defaultType = .ok r.defaultSerializer ∧
    (sent = [(client r).outgoing request (.bearer "t")] ∧
      ∀ o ∈ sent, o.Carries r (Value.string "a")) := by
  intro r request sent
  obtain ⟨hok, herror, hspells, hspelled, -, hdefault, hsent⟩ := settings_resolve unspelled
  have hsettings : List.Forall₂ Setting.Spells respelled unspelled :=
    .cons (.register spells_json .yaml) (.cons (.prefer spells_plain) .nil)
  refine ⟨?_, ?_, ⟨spells_json, hspells _ _ spells_json⟩, ⟨hsettings, hspelled _ hsettings⟩,
    hdefault, ?_, ?_⟩
  · refine (hok _ _).mpr ⟨by decide +kernel, builtin, "application/json", [], rfl, ?_, by simp⟩
    decide +kernel
  · exact (herror _ _).mpr ⟨by decide +kernel, by decide +kernel⟩
  · rfl
  · exact hsent Script (client r) rfl _ Value (Value.string "a") request (.create {}) Value
      answering false

end Registry
end KubeClient
