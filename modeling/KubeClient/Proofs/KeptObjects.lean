import KubeClient.Config.Basic
import KubeClient.Exec.Channel
import KubeClient.Object.Meta
import KubeClient.Object.Status
import KubeClient.Proofs.DurationText
import KubeClient.Proofs.KeptValues

/-!
# Objects that come out of their documents as they went in

* `kept_objectMeta`, `kept_status`, `kept_config` and the like : every field of a record is kept, so
  the record is;
* `kept_authConfig` : the tag of a case gets in the way of none of its fields;
* `keptAs_objectList` : a page is read as what its items are read as.
-/

namespace KubeClient

open Documented

variable {surplus : Content.Surplus}

/-! ### Scalars of objects -/

theorem kept_duration (d : Duration) : Kept surplus d := by
  refine kept_scalar ?_
  show Duration.parse (String.ofList d.chars) = .ok d
  rw [Duration.parse, String.toList_ofList, Duration.parseChars_chars]
  rfl

theorem kept_statusPhase (p : StatusPhase) : Kept surplus p :=
  kept_scalar (by cases p <;> rfl)

/-- A text that is left out when it is empty. -/
theorem Key.kept_text (name s : String) : (Key.text name).Kept surplus s :=
  Key.kept_omitting (kept_string s) ""

/-- A text that is left out when it is absent. -/
theorem Key.kept_optionalText (name : String) (s : Option String) :
    (Key.optional name).Kept surplus s :=
  Key.kept_optional fun s _ => ⟨kept_string s, nofun⟩

/-! ### Metadata -/

theorem kept_typeMeta (m : TypeMeta) : Kept surplus m := by
  have hversion : TypeMeta.apiVersionKey.Kept surplus m.apiVersion := Key.kept_text _ _
  have hkind : TypeMeta.kindKey.Kept surplus m.kind := Key.kept_text _ _
  let ps : List (Passage surplus) := [hversion.passage, hkind.passage]
  have hnames : (ps.map Passage.name).Nodup :=
    show [TypeMeta.apiVersionKey.name, TypeMeta.kindKey.name].Nodup by decide
  refine ⟨Passage.read_record "TypeMeta" ps hnames, (TypeMeta.mk.injEq ..).mpr ⟨?_, ?_⟩⟩
  · exact hversion.of_record hnames (by simp [ps])
  · exact hkind.of_record hnames (by simp [ps])

theorem kept_listMeta (m : ListMeta) : Kept surplus m := by
  have hversion : ListMeta.resourceVersionKey.Kept surplus m.resourceVersion :=
    Key.kept_optionalText _ _
  have hcontinue : ListMeta.continueKey.Kept surplus m.continueToken :=
    Key.kept_optionalText _ _
  have hcount : ListMeta.remainingItemCountKey.Kept surplus m.remainingItemCount :=
    Key.kept_optional fun n _ => ⟨kept_int64 n, nofun⟩
  let ps : List (Passage surplus) := [hversion.passage, hcontinue.passage, hcount.passage]
  have hnames : (ps.map Passage.name).Nodup :=
    show [ListMeta.resourceVersionKey.name, ListMeta.continueKey.name,
      ListMeta.remainingItemCountKey.name].Nodup by decide
  refine ⟨Passage.read_record "ListMeta" ps hnames, (ListMeta.mk.injEq ..).mpr ⟨?_, ?_, ?_⟩⟩
  · exact hversion.of_record hnames (by simp [ps])
  · exact hcontinue.of_record hnames (by simp [ps])
  · exact hcount.of_record hnames (by simp [ps])

/-- The metadata of an object, if its timestamps are kept. -/
theorem kept_objectMeta {m : ObjectMeta} (hcreation : ∀ t ∈ m.creationTimestamp, Kept surplus t)
    (hdeletion : ∀ t ∈ m.deletionTimestamp, Kept surplus t) : Kept surplus m := by
  have hname : ObjectMeta.nameKey.Kept surplus m.name := Key.kept_optionalText _ _
  have hgenerate : ObjectMeta.generateNameKey.Kept surplus m.generateName :=
    Key.kept_optionalText _ _
  have hnamespace : ObjectMeta.namespaceKey.Kept surplus m.namespace := Key.kept_optionalText _ _
  have huid : ObjectMeta.uidKey.Kept surplus m.uid := Key.kept_optionalText _ _
  have hversion : ObjectMeta.resourceVersionKey.Kept surplus m.resourceVersion :=
    Key.kept_optionalText _ _
  have hgeneration : ObjectMeta.generationKey.Kept surplus m.generation :=
    Key.kept_optional fun n _ => ⟨kept_int64 n, nofun⟩
  have hcreation : ObjectMeta.creationTimestampKey.Kept surplus m.creationTimestamp :=
    Key.kept_optional fun t ht => ⟨hcreation t ht, nofun⟩
  have hdeletion : ObjectMeta.deletionTimestampKey.Kept surplus m.deletionTimestamp :=
    Key.kept_optional fun t ht => ⟨hdeletion t ht, nofun⟩
  have hlabels : ObjectMeta.labelsKey.Kept surplus m.labels :=
    Key.kept_map fun m _ => kept_string m.2
  have hannotations : ObjectMeta.annotationsKey.Kept surplus m.annotations :=
    Key.kept_map fun m _ => kept_string m.2
  have hfinalizers : ObjectMeta.finalizersKey.Kept surplus m.finalizers :=
    Key.kept_list fun s _ => kept_string s
  let ps : List (Passage surplus) := [hname.passage, hgenerate.passage, hnamespace.passage,
    huid.passage, hversion.passage, hgeneration.passage, hcreation.passage, hdeletion.passage,
    hlabels.passage, hannotations.passage, hfinalizers.passage]
  have hnames : (ps.map Passage.name).Nodup :=
    show [ObjectMeta.nameKey.name, ObjectMeta.generateNameKey.name, ObjectMeta.namespaceKey.name,
      ObjectMeta.uidKey.name, ObjectMeta.resourceVersionKey.name, ObjectMeta.generationKey.name,
      ObjectMeta.creationTimestampKey.name, ObjectMeta.deletionTimestampKey.name,
      ObjectMeta.labelsKey.name, ObjectMeta.annotationsKey.name,
      ObjectMeta.finalizersKey.name].Nodup by decide
  refine ⟨Passage.read_record "ObjectMeta" ps hnames,
    (ObjectMeta.mk.injEq ..).mpr ⟨?_, ?_, ?_, ?_, ?_, ?_, ?_, ?_, ?_, ?_, ?_⟩⟩
  · exact hname.of_record hnames (by simp [ps])
  · exact hgenerate.of_record hnames (by simp [ps])
  · exact hnamespace.of_record hnames (by simp [ps])
  · exact huid.of_record hnames (by simp [ps])
  · exact hversion.of_record hnames (by simp [ps])
  · exact hgeneration.of_record hnames (by simp [ps])
  · exact hcreation.of_record hnames (by simp [ps])
  · exact hdeletion.of_record hnames (by simp [ps])
  · exact hlabels.of_record hnames (by simp [ps])
  · exact hannotations.of_record hnames (by simp [ps])
  · exact hfinalizers.of_record hnames (by simp [ps])

/-! ### Outcomes -/

theorem kept_statusCause (c : StatusCause) : Kept surplus c := by
  have hreason : StatusCause.reasonKey.Kept surplus c.reason := Key.kept_text _ _
  have hmessage : StatusCause.messageKey.Kept surplus c.message := Key.kept_text _ _
  have hfield : StatusCause.fieldKey.Kept surplus c.field := Key.kept_text _ _
  let ps : List (Passage surplus) := [hreason.passage, hmessage.passage, hfield.passage]
  have hnames : (ps.map Passage.name).Nodup :=
    show [StatusCause.reasonKey.name, StatusCause.messageKey.name,
      StatusCause.fieldKey.name].Nodup by decide
  refine ⟨Passage.read_record "StatusCause" ps hnames,
    (StatusCause.mk.injEq ..).mpr ⟨?_, ?_, ?_⟩⟩
  · exact hreason.of_record hnames (by simp [ps])
  · exact hmessage.of_record hnames (by simp [ps])
  · exact hfield.of_record hnames (by simp [ps])

theorem kept_statusDetails (d : StatusDetails) : Kept surplus d := by
  have hname : StatusDetails.nameKey.Kept surplus d.name := Key.kept_text _ _
  have hgroup : StatusDetails.groupKey.Kept surplus d.group := Key.kept_text _ _
  have hkind : StatusDetails.kindKey.Kept surplus d.kind := Key.kept_text _ _
  have huid : StatusDetails.uidKey.Kept surplus d.uid := Key.kept_text _ _
  have hcauses : StatusDetails.causesKey.Kept surplus d.causes :=
    Key.kept_list fun c _ => kept_statusCause c
  have hretry : StatusDetails.retryAfterSecondsKey.Kept surplus d.retryAfterSeconds :=
    Key.kept_optional fun n _ => ⟨kept_uint32 n, nofun⟩
  let ps : List (Passage surplus) := [hname.passage, hgroup.passage, hkind.passage, huid.passage,
    hcauses.passage, hretry.passage]
  have hnames : (ps.map Passage.name).Nodup :=
    show [StatusDetails.nameKey.name, StatusDetails.groupKey.name, StatusDetails.kindKey.name,
      StatusDetails.uidKey.name, StatusDetails.causesKey.name,
      StatusDetails.retryAfterSecondsKey.name].Nodup by decide
  refine ⟨Passage.read_record "StatusDetails" ps hnames,
    (StatusDetails.mk.injEq ..).mpr ⟨?_, ?_, ?_, ?_, ?_, ?_⟩⟩
  · exact hname.of_record hnames (by simp [ps])
  · exact hgroup.of_record hnames (by simp [ps])
  · exact hkind.of_record hnames (by simp [ps])
  · exact huid.of_record hnames (by simp [ps])
  · exact hcauses.of_record hnames (by simp [ps])
  · exact hretry.of_record hnames (by simp [ps])

theorem kept_status (s : Status) : Kept surplus s := by
  have hphase : Status.phaseKey.Kept surplus s.phase :=
    Key.kept_optional fun p _ => ⟨kept_statusPhase p, nofun⟩
  have hcode : Status.codeKey.Kept surplus s.code := Key.kept_omitting (kept_uint16 _) _
  have hreason : Status.reasonKey.Kept surplus s.reason := Key.kept_text _ _
  have hmessage : Status.messageKey.Kept surplus s.message := Key.kept_text _ _
  have hdetails : Status.detailsKey.Kept surplus s.details :=
    Key.kept_optional fun d _ => ⟨kept_statusDetails d, nofun⟩
  let ps : List (Passage surplus) := [hphase.passage, hcode.passage, hreason.passage,
    hmessage.passage, hdetails.passage]
  have hnames : (ps.map Passage.name).Nodup :=
    show [Status.phaseKey.name, Status.codeKey.name, Status.reasonKey.name,
      Status.messageKey.name, Status.detailsKey.name].Nodup by decide
  refine ⟨Passage.read_record "Status" ps hnames,
    (Status.mk.injEq ..).mpr ⟨?_, ?_, ?_, ?_, ?_⟩⟩
  · exact hphase.of_record hnames (by simp [ps])
  · exact hcode.of_record hnames (by simp [ps])
  · exact hreason.of_record hnames (by simp [ps])
  · exact hmessage.of_record hnames (by simp [ps])
  · exact hdetails.of_record hnames (by simp [ps])

theorem kept_terminalSize (t : TerminalSize) : Kept surplus t := by
  have hwidth : TerminalSize.widthKey.Kept surplus t.width := Key.keptAs_always (kept_uint16 _)
  have hheight : TerminalSize.heightKey.Kept surplus t.height := Key.keptAs_always (kept_uint16 _)
  let ps : List (Passage surplus) := [hwidth.passage, hheight.passage]
  have hnames : (ps.map Passage.name).Nodup :=
    show [TerminalSize.widthKey.name, TerminalSize.heightKey.name].Nodup by decide
  refine ⟨Passage.read_record "TerminalSize" ps hnames, (TerminalSize.mk.injEq ..).mpr ⟨?_, ?_⟩⟩
  · exact hwidth.of_record hnames (by simp [ps])
  · exact hheight.of_record hnames (by simp [ps])

/-! ### Configuration -/

theorem kept_execVariable (e : ExecVariable) : Kept surplus e := by
  have hname : ExecVariable.nameKey.Kept surplus e.name := Key.keptAs_always (kept_string _)
  have hvalue : ExecVariable.valueKey.Kept surplus e.value := Key.keptAs_always (kept_string _)
  let ps : List (Passage surplus) := [hname.passage, hvalue.passage]
  have hnames : (ps.map Passage.name).Nodup :=
    show [ExecVariable.nameKey.name, ExecVariable.valueKey.name].Nodup by decide
  refine ⟨Passage.read_record "ExecEnvVar" ps hnames, (ExecVariable.mk.injEq ..).mpr ⟨?_, ?_⟩⟩
  · exact hname.of_record hnames (by simp [ps])
  · exact hvalue.of_record hnames (by simp [ps])

theorem kept_execConfig (c : ExecConfig) : Kept surplus c := by
  have hcommand : ExecConfig.commandKey.Kept surplus c.command := Key.keptAs_always (kept_string _)
  have hargs : ExecConfig.argsKey.Kept surplus c.args := Key.kept_list fun s _ => kept_string s
  have henv : ExecConfig.envKey.Kept surplus c.env := Key.kept_list fun e _ => kept_execVariable e
  have hversion : ExecConfig.apiVersionKey.Kept surplus c.apiVersion :=
    Key.keptAs_defaulting (kept_string _) _
  have htimeout : ExecConfig.timeoutKey.Kept surplus c.timeout :=
    Key.kept_optional fun d _ => ⟨kept_duration d, nofun⟩
  let ps : List (Passage surplus) := [hcommand.passage, hargs.passage, henv.passage,
    hversion.passage, htimeout.passage]
  have hnames : (ps.map Passage.name).Nodup :=
    show [ExecConfig.commandKey.name, ExecConfig.argsKey.name, ExecConfig.envKey.name,
      ExecConfig.apiVersionKey.name, ExecConfig.timeoutKey.name].Nodup by decide
  refine ⟨Passage.read_record "ExecConfig" ps hnames,
    (ExecConfig.mk.injEq ..).mpr ⟨?_, ?_, ?_, ?_, ?_⟩⟩
  · exact hcommand.of_record hnames (by simp [ps])
  · exact hargs.of_record hnames (by simp [ps])
  · exact henv.of_record hnames (by simp [ps])
  · exact hversion.of_record hnames (by simp [ps])
  · exact htimeout.of_record hnames (by simp [ps])

/-- A member of another name makes no difference to a field. -/
theorem Key.of_cons {α : Type} {k : Key α} {name : String} (h : k.name ≠ name) (v : Value)
    (ms : List (String × Value)) : k.of (.object ((name, v) :: ms)) = k.of (.object ms) := by
  show k.read (List.lookup k.name ((name, v) :: ms)) = k.read (ms.lookup k.name)
  rw [List.lookup_cons, beq_eq_false_iff_ne.mpr h]

/-- The tag makes no difference to the fields of a helper. -/
theorem ExecConfig.ofValue_cons (v : Value) (ms : List (String × Value)) :
    (ofValue (.object ((AuthConfig.tag, v) :: ms)) : ExecConfig) = ofValue (.object ms) :=
  (ExecConfig.mk.injEq ..).mpr ⟨Key.of_cons (by decide) v ms, Key.of_cons (by decide) v ms,
    Key.of_cons (by decide) v ms, Key.of_cons (by decide) v ms, Key.of_cons (by decide) v ms⟩

/-- No field of a helper has the name of the tag. -/
theorem ExecConfig.ne_tag (c : ExecConfig) : ∀ m ∈ (toValue c).asMembers, m.1 ≠ AuthConfig.tag := by
  intro m hm
  have hname : m.1 ∈ [commandKey.name, argsKey.name, envKey.name, apiVersionKey.name,
      timeoutKey.name] := List.mem_map_of_mem (f := Prod.fst) (Value.mem_of_mem_present hm)
  have hall : ∀ n ∈ [commandKey.name, argsKey.name, envKey.name, apiVersionKey.name,
      timeoutKey.name], n ≠ AuthConfig.tag := by
    decide
  exact hall m.1 hname

theorem kept_authConfig (a : AuthConfig) : Kept surplus a := by
  cases a with
  | none =>
    refine ⟨read_tagged "AuthConfig" rfl nofun ?_, rfl⟩
    exact Passage.read_record "variant AuthConfig::None" [] .nil
  | token t =>
    have htoken : AuthConfig.tokenKey.Kept surplus t := Key.keptAs_always (kept_string t)
    refine ⟨read_tagged "AuthConfig" rfl (List.forall_mem_singleton.mpr ?_) ?_, rfl⟩
    · show AuthConfig.tokenKey.name ≠ AuthConfig.tag
      decide
    · exact Passage.read_record "variant AuthConfig::Token" [htoken.passage] (by simp)
  | tokenFile p =>
    have hpath : AuthConfig.pathKey.Kept surplus p := ⟨.present rfl, rfl⟩
    refine ⟨read_tagged "AuthConfig" rfl (List.forall_mem_singleton.mpr ?_) ?_, rfl⟩
    · show AuthConfig.pathKey.name ≠ AuthConfig.tag
      decide
    · exact Passage.read_record "variant AuthConfig::TokenFile" [hpath.passage] (by simp)
  | exec c =>
    have hkept : Kept surplus c := kept_execConfig c
    refine ⟨read_tagged "AuthConfig" rfl c.ne_tag hkept.read, ?_⟩
    show AuthConfig.exec (ofValue (.object ((AuthConfig.tag, _) :: (toValue c).asMembers))) = _
    rw [ExecConfig.ofValue_cons]
    exact congrArg AuthConfig.exec hkept.value

theorem kept_config (c : Config) : Kept surplus c := by
  have hserver : Config.serverKey.Kept surplus c.server := Key.keptAs_always (kept_string _)
  have hnamespace : Config.defaultNamespaceKey.Kept surplus c.defaultNamespace :=
    Key.keptAs_defaulting (kept_string _) _
  have hauth : Config.authKey.Kept surplus c.auth := Key.keptAs_defaulting (kept_authConfig _) _
  have hcontent : Config.contentTypeKey.Kept surplus c.contentType := Key.kept_optionalText _ _
  have hroot : Config.rootCaFileKey.Kept surplus c.rootCaFile := by
    cases c.rootCaFile with
    | none => exact ⟨.absent rfl, rfl⟩
    | some p => exact ⟨.present rfl, rfl⟩
  have hinsecure : Config.insecureSkipTlsVerifyKey.Kept surplus c.insecureSkipTlsVerify :=
    Key.keptAs_defaulting (kept_bool _) _
  have htimeout : Config.connectTimeoutKey.Kept surplus c.connectTimeout :=
    Key.kept_optional fun d _ => ⟨kept_duration d, nofun⟩
  let ps : List (Passage surplus) := [hserver.passage, hnamespace.passage, hauth.passage,
    hcontent.passage, hroot.passage, hinsecure.passage, htimeout.passage]
  have hnames : (ps.map Passage.name).Nodup :=
    show [Config.serverKey.name, Config.defaultNamespaceKey.name, Config.authKey.name,
      Config.contentTypeKey.name, Config.rootCaFileKey.name,
      Config.insecureSkipTlsVerifyKey.name, Config.connectTimeoutKey.name].Nodup by decide
  refine ⟨Passage.read_record "Config" ps hnames,
    (Config.mk.injEq ..).mpr ⟨?_, ?_, ?_, ?_, ?_, ?_, ?_⟩⟩
  · exact hserver.of_record hnames (by simp [ps])
  · exact hnamespace.of_record hnames (by simp [ps])
  · exact hauth.of_record hnames (by simp [ps])
  · exact hcontent.of_record hnames (by simp [ps])
  · exact hroot.of_record hnames (by simp [ps])
  · exact hinsecure.of_record hnames (by simp [ps])
  · exact htimeout.of_record hnames (by simp [ps])

/-! ### Pages of objects -/

/-- The document of a page, given what its items are read as. -/
def ObjectList.document {α : Type} (l : ObjectList α) (ws : List Value) : Value :=
  .record [TypeMeta.apiVersionKey.entry l.types.apiVersion,
    TypeMeta.kindKey.entry l.types.kind, metadataKey.entry l.metadata,
    ("items", some (.list ws))]

/-- A page is kept when all its items are. -/
theorem keptAs_objectList {α : Type} [Documented α] {l : ObjectList α} {ws : List Value}
    (h : List.Forall₂ (fun a w => KeptAs surplus a w) l.items ws) :
    KeptAs surplus l (l.document ws) := by
  have hversion : TypeMeta.apiVersionKey.Kept surplus l.types.apiVersion := Key.kept_text _ _
  have hkind : TypeMeta.kindKey.Kept surplus l.types.kind := Key.kept_text _ _
  have hmetadata : ObjectList.metadataKey.Kept surplus l.metadata :=
    Key.keptAs_defaulting (kept_listMeta _) _
  have hitems : (ObjectList.itemsKey (α := α)).KeptAs surplus l.items (some (.list ws)) :=
    Key.keptAs_always (keptAs_list h)
  let inner : List (Passage surplus) := [hversion.passage, hkind.passage]
  let own : List (Passage surplus) := [hmetadata.passage, hitems.passage]
  have hnames : ((inner ++ own).map Passage.name).Nodup :=
    show [TypeMeta.apiVersionKey.name, TypeMeta.kindKey.name, ObjectList.metadataKey.name,
      "items"].Nodup by decide
  refine ⟨Passage.read_merged "ObjectList" inner own hnames, (ObjectList.mk.injEq ..).mpr
    ⟨(TypeMeta.mk.injEq ..).mpr ⟨?_, ?_⟩, ?_, ?_⟩⟩
  · exact hversion.of_record hnames (by simp [inner, own])
  · exact hkind.of_record hnames (by simp [inner, own])
  · exact hmetadata.of_record hnames (by simp [inner, own])
  · exact hitems.of_record hnames (by simp [inner, own])

end KubeClient
