import KubeClient.Proofs.Outcomes
import KubeClient.Proofs.PathSegments
import KubeClient.Proofs.SessionRequests
import KubeClient.Proofs.WrittenBodies

/-!
# Calls on one object

A call that is given the name of an object puts it into the path of its request as it is. Whether
the request is for that object, and for nothing else, is up to the name.

* `Handle.words` : the segments that lead to a collection;
* `WriteOptions.pairs`, `PatchOptions.pairs`, `DeleteOptions.pairs`, `LogOptions.pairs` : what the
  options put into a query;
* `NamedCall` : the calls that are given a name, and what they send;
* `Client.named_call_leads` : what they send leads to the object exactly if the path keeps the name;
* `Client.hidden_dryRun` : a name that turns a deletion into a trial.
-/

namespace KubeClient

open Address

/-! ### The pairs of the options -/

namespace Request

/-- `dryRun=All` if nothing is to be changed. -/
def dryRunPairs (dryRun : Bool) : Pairs :=
  if dryRun then [("dryRun", "All")] else []

theorem addDryRun_eq (r : Request) (dryRun : Bool) :
    r.addDryRun dryRun = { r with query := r.query ++ dryRunPairs dryRun } := by
  cases dryRun with
  | false => simp [addDryRun, dryRunPairs]
  | true => rfl

end Request

/-- The pairs of the options, in order. -/
def WriteOptions.pairs (o : WriteOptions) : Pairs :=
  Request.dryRunPairs o.dryRun ++ (o.manager.map ("fieldManager", ·)).toList

theorem WriteOptions.apply_eq (o : WriteOptions) (r : Request) :
    o.apply r = { r with query := r.query ++ o.pairs } := by
  simp only [apply, Request.addDryRun_eq, Request.add?_eq, pairs, List.append_assoc]

/-- The pairs of the options, in order. -/
def PatchOptions.pairs (o : PatchOptions) : Pairs :=
  Request.dryRunPairs o.dryRun ++ (o.manager.map ("fieldManager", ·)).toList ++
    Request.flagPairs "force" o.force

theorem PatchOptions.eq_of_apply {o : PatchOptions} {s : PatchStrategy} {r made : Request}
    (h : o.apply s r = .ok made) : made = { r with query := r.query ++ o.pairs } := by
  unfold apply at h
  split at h
  · cases h
  · split at h
    · cases h
    · cases h
      simp only [Request.addDryRun_eq, Request.add?_eq, Request.addFlag_eq, pairs,
        List.append_assoc]

/-- The pairs of the options, in order. -/
def DeleteOptions.pairs (o : DeleteOptions) : Pairs :=
  Request.dryRunPairs o.dryRun ++
    ((o.gracePeriod.map fun n => toString n.toNat).map ("gracePeriodSeconds", ·)).toList ++
    ((o.propagation.map WireToken.wire).map ("propagationPolicy", ·)).toList

theorem DeleteOptions.apply_eq (o : DeleteOptions) (r : Request) :
    o.apply r = { r with query := r.query ++ o.pairs } := by
  simp only [apply, Request.addDryRun_eq, Request.addNat?, Request.add?_eq, pairs,
    List.append_assoc]

/-- The pair of a signed number, if there is one. -/
def Request.intPairs (name : String) (n : Option Int64) : Pairs :=
  ((n.map fun n => toString n.toInt).map (name, ·)).toList

/-- The pairs of the options, in order. -/
def LogOptions.pairs (o : LogOptions) : Pairs :=
  (o.container.map ("container", ·)).toList ++ Request.intPairs "tailLines" o.tailLines ++
    Request.intPairs "sinceSeconds" o.sinceSeconds ++
    Request.intPairs "limitBytes" o.limitBytes ++
    Request.flagPairs "timestamps" o.timestamps ++ Request.flagPairs "previous" o.previous

theorem LogOptions.apply_eq (o : LogOptions) (r : Request) :
    o.apply r = { r with query := r.query ++ o.pairs } := by
  simp only [apply, Request.addInt?, Request.add?_eq, Request.addFlag_eq, pairs,
    Request.intPairs, List.append_assoc]

/-! ### The paths of a handle -/

namespace Handle

/-- The segments that lead to the collection. -/
def words (h : Handle) : List String :=
  (if h.resource.group.isEmpty then ["api", h.resource.version]
    else ["apis", h.resource.group, h.resource.version]) ++
  (h.scope.toList.flatMap fun scope => ["namespaces", scope]) ++ [h.resource.plural]

variable (h : Handle) (name : String)

theorem words_ne_nil : h.words ≠ [] := by
  simp [words]

theorem slashed_words : slashed h.words = h.collection.toList := by
  unfold collection Resource.collection words
  cases h.scope with
  | none => split <;> simp [slashed]
  | some scope => split <;> simp [slashed]

theorem slashed_item : slashed (h.words ++ [name]) = (h.item name).toList := by
  have hcollection : h.resource.collection h.scope = h.collection := rfl
  rw [item, Resource.item, hcollection, slashed, List.flatMap_append, ← slashed, slashed_words]
  simp

theorem slashed_subresource (part : String) :
    slashed (h.words ++ [name, part]) = (h.subresource name part).toList := by
  have hitem : h.resource.item h.scope name = h.item name := rfl
  have hsplit : h.words ++ [name, part] = (h.words ++ [name]) ++ [part] := by simp
  rw [subresource, Resource.subresource, hitem, hsplit, slashed, List.flatMap_append, ← slashed,
    slashed_item]
  simp

end Handle

/-! ### What goes out -/

namespace Client

open Call

variable {σ : Type} (c : Client σ) (r : Request)

theorem sends_delete (α : Type) [Documented α] : Sends (c.IsSigned r) (c.delete α r) :=
  sends_bind (c.sends_invoke r Value) fun _ => sends_ofExcept _

theorem sends_invokeBytes : Sends (c.IsSigned r) (c.invokeBytes r) := by
  unfold invokeBytes exchange
  apply sends_bind
  · exact sends_bind (c.sends_sendAuthorized r) (c.sends_finish r)
  · intro read
    exact sends_pure _

theorem sends_logs : Sends (c.IsSigned r) (c.logs r) :=
  sends_bind (c.sends_invokeBytes r) fun _ => sends_pure _

end Client

/-- A call that is given the name of an object, without the name. Objects have the type `α`, and
patches the type `β`. -/
inductive NamedCall (α β : Type)
  | get
  | replace (o : WriteOptions) (object : α)
  | patch (o : PatchOptions) (s : PatchStrategy) (patch : β)
  | delete (o : DeleteOptions)
  | getStatus
  | logs (o : LogOptions)

namespace NamedCall

variable {σ α β : Type} [Documented α] [Documented β]

/-- The part of the object that is meant, none if it is all of it. -/
def part : NamedCall α β → List String
  | getStatus => ["status"]
  | logs _ => ["log"]
  | _ => []

/-- The pairs of the options. -/
def pairs : NamedCall α β → Pairs
  | replace o _ => o.pairs
  | patch o _ _ => o.pairs
  | delete o => o.pairs
  | logs o => o.pairs
  | _ => []

/-- The request. -/
def request (h : Handle) (r : Registry) (name : String) :
    NamedCall α β → Except ClientError Request
  | get => .ok (h.get name)
  | replace o object => .ok (h.replace r o name object)
  | patch o s change => h.patch r o s name change
  | delete o => .ok (h.delete o name)
  | getStatus => .ok (h.getStatus name)
  | logs o => .ok (h.logs o name)

/-- What the call sends. -/
def sent (c : Client σ) (h : Handle) (name : String) (world : σ) (fired : Bool)
    (e : NamedCall α β) : List Outgoing :=
  let request := e.request h c.registry name
  match e with
  | delete _ => ((Client.withRequest request (c.delete α)).run world fired).2.sent
  | logs _ => ((Client.withRequest request c.logs).run world fired).2.sent
  | _ => ((Client.withRequest request (c.invoke α)).run world fired).2.sent

theorem toList_path_of_request {h : Handle} {r : Registry} {name : String} {e : NamedCall α β}
    {made : Request} (hmade : e.request h r name = .ok made) :
    made.path.toList = slashed (h.words ++ name :: e.part) ∧ made.query = e.pairs := by
  cases e with
  | get =>
    cases hmade
    exact ⟨(h.slashed_item name).symm, rfl⟩
  | replace o object =>
    cases hmade
    rw [Handle.replace, WriteOptions.apply_eq]
    exact ⟨(h.slashed_item name).symm, rfl⟩
  | patch o s change =>
    unfold request Handle.patch Handle.patchAt at hmade
    obtain ⟨body, -, hmade⟩ := exists_of_bind_ok hmade
    cases happly : o.apply s { method := .patch, path := h.item name, body := some body } with
    | error error =>
      rw [happly] at hmade
      cases hmade
    | ok patched =>
      rw [happly] at hmade
      cases hmade
      rw [PatchOptions.eq_of_apply happly]
      exact ⟨(h.slashed_item name).symm, rfl⟩
  | delete o =>
    cases hmade
    rw [Handle.delete, DeleteOptions.apply_eq]
    exact ⟨(h.slashed_item name).symm, rfl⟩
  | getStatus =>
    cases hmade
    exact ⟨(h.slashed_subresource name "status").symm, rfl⟩
  | logs o =>
    cases hmade
    rw [Handle.logs, LogOptions.apply_eq]
    exact ⟨(h.slashed_subresource name "log").symm, rfl⟩

variable (c : Client σ) (h : Handle) (name : String) (world : σ) (fired : Bool)

theorem isSigned_of_withRequest {γ : Type} (made : Except ClientError Request)
    (call : Request → Call σ γ) (hcall : ∀ r, Call.Sends (c.IsSigned r) (call r)) :
    ∀ o ∈ ((Client.withRequest made call).run world fired).2.sent,
      ∃ r, made = .ok r ∧ c.IsSigned r o := by
  intro o ho
  cases made with
  | error error =>
    simp [Client.withRequest, Call.fail, Call.run, Progress.sent] at ho
  | ok r => exact ⟨r, rfl, (hcall r).run world fired o ho⟩

/-- Nothing goes out but the request, signed with some credential. -/
theorem isSigned_of_mem_sent (e : NamedCall α β) :
    ∀ o ∈ e.sent c h name world fired,
      ∃ r, e.request h c.registry name = .ok r ∧ c.IsSigned r o := by
  cases e with
  | delete o => exact isSigned_of_withRequest c world fired _ _ fun r => c.sends_delete r α
  | logs o => exact isSigned_of_withRequest c world fired _ _ c.sends_logs
  | get => exact isSigned_of_withRequest c world fired _ _ fun r => c.sends_invoke r α
  | replace o object => exact isSigned_of_withRequest c world fired _ _ fun r => c.sends_invoke r α
  | patch o s change => exact isSigned_of_withRequest c world fired _ _ fun r => c.sends_invoke r α
  | getStatus => exact isSigned_of_withRequest c world fired _ _ fun r => c.sends_invoke r α

end NamedCall

/-! ### Where it goes -/

namespace Client

variable {σ α β : Type} [Documented α] [Documented β]

/-- Whatever is sent for a name goes below the segments of the server and of the collection: first
to the pieces of the name, up to its first `?` or `#`, and then, if there is no such character, to
the part that is meant. It leads to the object of that name, or to its part, and to nothing else,
with just the pairs of the options, exactly for the names that are one piece and have no escape. -/
theorem named_call_leads (c : Client σ) (h : Handle) (hwords : ∀ w ∈ h.words, IsSegment w)
    (name : String) (e : NamedCall α β) (world : σ) (fired : Bool) :
    ∀ o ∈ e.sent c h name world fired, ∃ method url headers body,
      o = .request method url headers body ∧
      (¬HasMark c.base.toList → segments (path url.toList) =
        segments c.base.toList ++ h.words.map String.toList ++ segments (path name.toList) ++
          if HasMark name.toList then [] else e.part.map String.toList) ∧
      (LeadsTo url.toList (segments c.base.toList ++ h.words.map String.toList) name e.part
        e.pairs ↔ ¬HasMark c.base.toList ∧ Keeps name) := by
  intro o ho
  obtain ⟨r, hmade, k, rfl⟩ := e.isSigned_of_mem_sent c h name world fired o ho
  obtain ⟨hpath, hquery⟩ := NamedCall.toList_path_of_request hmade
  have hpart : ∀ w ∈ e.part, IsSegment w := by
    cases e <;> simp only [NamedCall.part, List.forall_mem_cons, List.not_mem_nil, false_implies,
      implies_true, and_true] <;> decide
  have hurl : (r.url c.base).toList = ofObject c.base h.words name e.part e.pairs := by
    rw [Request.toList_url, hpath, hquery, ofObject]
  refine ⟨r.method, r.url c.base, c.headers r k, r.body.map (·.bytes), rfl, ?_, ?_⟩
  · intro hbase
    rw [hurl, segments_ofObject hwords hpart hbase]
  · rw [hurl]
    exact leadsTo_iff hwords h.words_ne_nil hpart

/-- The config maps of the default namespace. -/
def configMaps : Handle :=
  ⟨.core "configmaps", some "default"⟩

/-- A deletion without options. -/
def plainDeletion : NamedCall Value Value :=
  .delete {}

/-- An outside that has one credential and answers once. -/
def obliging : Script :=
  ⟨.listed [.ends (.ok (.bearer "t")) false], [.response ⟨200, [], []⟩]⟩

/-- The request of such a deletion. -/
def deletionAt (url : String) : Outgoing :=
  .request .delete url [("Accept", "application/json"), ("Authorization", "Bearer t")] none

theorem named_call_leads_web :
    let url := "https://host/api/v1/namespaces/default/configmaps/web"
    (∀ w ∈ configMaps.words, IsSegment w) ∧
    plainDeletion.sent scripted configMaps "web" obliging false = [deletionAt url] ∧
    LeadsTo url.toList (segments scripted.base.toList ++ configMaps.words.map String.toList)
      "web" [] [] := by
  intro url
  have hwords : ∀ w ∈ configMaps.words, IsSegment w := by decide
  have hsent : plainDeletion.sent scripted configMaps "web" obliging false = [deletionAt url] := rfl
  obtain ⟨_, _, _, _, ho, -, hleads⟩ := named_call_leads scripted configMaps hwords "web"
    plainDeletion obliging false (deletionAt url) (by rw [hsent]; exact List.mem_singleton_self _)
  cases ho
  exact ⟨hwords, hsent, hleads.mpr ⟨by decide, by decide⟩⟩

/-- The trial that a name makes of a deletion, and the collection that the empty name deletes. -/
theorem hidden_dryRun :
    let trial := "https://host/api/v1/namespaces/default/configmaps/a?dryRun=All"
    let all := "https://host/api/v1/namespaces/default/configmaps/"
    let above := segments scripted.base.toList ++ configMaps.words.map String.toList
    (plainDeletion.sent scripted configMaps "a?dryRun=All" obliging false = [deletionAt trial] ∧
      Query.ofUrl? trial.toList = some [("dryRun", "All")] ∧
      ¬LeadsTo trial.toList above "a?dryRun=All" [] []) ∧
    (plainDeletion.sent scripted configMaps "" obliging false = [deletionAt all] ∧
      segments (path all.toList) = above ∧ ¬LeadsTo all.toList above "" [] []) := by
  intro trial all above
  have hquery : Query.ofUrl? trial.toList = some [("dryRun", "All")] := by decide +kernel
  have hpath : segments (path all.toList) = above := by decide +kernel
  refine ⟨⟨rfl, hquery, ?_⟩, ⟨rfl, hpath, ?_⟩⟩
  · rintro ⟨-, hnone⟩
    rw [hquery] at hnone
    cases hnone
  · rintro ⟨⟨segment, hsegments, -⟩, -⟩
    rw [hpath] at hsegments
    simp at hsegments

end Client
end KubeClient
