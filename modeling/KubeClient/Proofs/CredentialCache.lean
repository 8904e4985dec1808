import KubeClient.Auth.Provider

/-!
# Credentials that are kept

Somebody asks a source for credentials, one call after the other, while the files change in any way
and time passes. Which calls come to the source, and what do they bring?

* `Source.counted` : a source that counts how often it is asked;
* `Inquiry`, `Source.log` : a call and what came of it, and all calls of a run;
* `Source.Inquires` : what one call can do;
* `Source.Agrees` : the vault holds the latest of what the calls have brought;
* `Throughout`, `Source.Agrees.throughout_log` : from one call to all calls of a run;
* `Inquiry.Sound`, `Inquiry.SoundFile` : what callers may rely on;
* `Source.getAll_singleton` : the line and the gate change nothing for a lone caller.
-/

namespace KubeClient

/-- Something that happens at a site. The time of day may be set to anything. -/
inductive Site.Event
  | call (force : Bool)
  | change (files : FileTree)
  | pass (nanos : Nat) (wall : Instant)

/-- A call and what came of it. -/
structure Inquiry where
  force : Bool
  /-- The site when the call was made. -/
  site : Site
  /-- The source was asked. -/
  consulted : Bool
  outcome : Except AuthError Issued

/-- What a call has brought from the source. -/
def Inquiry.brought? (x : Inquiry) : Option Issued :=
  if x.consulted then x.outcome.toOption else none

/-- What calls have brought from the source. -/
def brought (log : List Inquiry) : List Issued :=
  log.filterMap Inquiry.brought?

theorem brought_append (log : List Inquiry) (x : Inquiry) :
    brought (log ++ [x]) = brought log ++ x.brought?.toList := by
  rw [brought, List.filterMap_append]
  cases h : x.brought? <;> simp [h, brought]

namespace Source

/-- The same source, with a count of how often it was asked. -/
def counted {σ : Type} (source : Source σ) : Source (σ × Nat) where
  policy := source.policy
  clock w := source.clock w.1
  consult w :=
    let (outcome, world) := source.consult w.1
    (outcome, world, w.2 + 1)

variable (source : Source Site)

/-- One call, the vault behind it, and the site. -/
def inquire (v : Vault) (site : Site) (force : Bool) : Inquiry × Vault × Site :=
  let (outcome, v, world, count) := source.counted.get force v (site, 0)
  (⟨force, site, count != 0, outcome⟩, v, world)

/-- All calls of a run. -/
def log (v : Vault) (site : Site) : List Site.Event → List Inquiry
  | [] => []
  | .call force :: events =>
    let (x, v, site) := source.inquire v site force
    x :: log v site events
  | .change files :: events => log v { site with files } events
  | .pass nanos wall :: events =>
    log v { site with clock := ⟨site.clock.steady + nanos, wall⟩ } events

/-! ### One call -/

/-- What one call can do. -/
inductive Inquires (source : Source Site) (v : Vault) (site : Site) (force : Bool) :
    Inquiry × Vault × Site → Prop
  /-- The latest credential is still good. -/
  | served (issued : Issued) (hforce : force = false) (hlatest : v.latest = some issued)
      (hgood : source.policy issued (source.clock site) = true) :
      Inquires source v site force (⟨force, site, false, .ok issued⟩, v, site)
  /-- The source was asked in vain. -/
  | failed (e : AuthError) (world : Site)
      (hneed : force = true ∨ ∀ x ∈ v.latest, source.policy x (source.clock site) = false)
      (hconsult : source.consult site = (.error e, world)) :
      Inquires source v site force (⟨force, site, true, .error e⟩, v, world)
  /-- The source has brought a credential. -/
  | brought (c : Credential) (world : Site)
      (hneed : force = true ∨ ∀ x ∈ v.latest, source.policy x (source.clock site) = false)
      (hconsult : source.consult site = (.ok c, world)) :
      Inquires source v site force
        (⟨force, site, true, .ok (v.issue c (source.clock world))⟩,
          v.store c (source.clock world), world)

/-- The source is asked. -/
theorem inquires_of_need {v : Vault} {site : Site} {force : Bool}
    (hnone : (if force then none else v.fresh? source.policy (source.clock site)) = none)
    (hneed : force = true ∨ ∀ x ∈ v.latest, source.policy x (source.clock site) = false) :
    source.Inquires v site force (source.inquire v site force) := by
  rcases hconsult : source.consult site with ⟨outcome, world⟩
  cases outcome with
  | error e =>
    have heq : source.inquire v site force = (⟨force, site, true, .error e⟩, v, world) := by
      simp only [inquire, get, counted, hnone, hconsult]
      rfl
    rw [heq]
    exact .failed e world hneed hconsult
  | ok c =>
    have heq : source.inquire v site force =
        (⟨force, site, true, .ok (v.issue c (source.clock world))⟩,
          v.store c (source.clock world), world) := by
      simp only [inquire, get, counted, hnone, hconsult]
      rfl
    rw [heq]
    exact .brought c world hneed hconsult

theorem inquires_inquire (v : Vault) (site : Site) (force : Bool) :
    source.Inquires v site force (source.inquire v site force) := by
  cases force with
  | true => exact source.inquires_of_need rfl (.inl rfl)
  | false =>
    cases hfresh : v.fresh? source.policy (source.clock site) with
    | none =>
      refine source.inquires_of_need hfresh (.inr fun x hx => ?_)
      rw [Option.mem_def] at hx
      simpa [Vault.fresh?, hx] using hfresh
    | some issued =>
      obtain ⟨hlatest, hgood⟩ := Option.filter_eq_some_iff.mp hfresh
      have heq : source.inquire v site false = (⟨false, site, false, .ok issued⟩, v, site) := by
        simp only [inquire, get, counted, Bool.false_eq_true, if_false, hfresh]
        rfl
      rw [heq]
      exact .served issued rfl hlatest hgood

/-- Counting changes nothing. -/
theorem get_eq_inquire (v : Vault) (site : Site) (force : Bool) :
    source.get force v site =
      ((source.inquire v site force).1.outcome, (source.inquire v site force).2) := by
  rcases hconsult : source.consult site with ⟨outcome, world⟩
  simp only [inquire, get, counted, hconsult]
  cases (if force then none else v.fresh? source.policy (source.clock site)) with
  | some issued => rfl
  | none => cases outcome <;> rfl

/-! ### All calls -/

/-- A source that reads the clocks of the site and leaves them alone. -/
structure IsLocal (source : Source Site) : Prop where
  clock_eq : ∀ s, source.clock s = s.clock
  consult_clock : ∀ s, (source.consult s).2.clock = s.clock

/-- The vault holds the latest of what was brought, and nothing was brought later than now. -/
structure Agrees (v : Vault) (site : Site) (earlier : List Inquiry) : Prop where
  latest : v.latest = (brought earlier).getLast?
  runs : v.runs = (brought earlier).length
  number_le : ∀ x ∈ brought earlier, x.number ≤ v.runs
  time_le : ∀ x ∈ brought earlier, x.time ≤ site.clock.steady
  sorted : (brought earlier).Pairwise (·.time ≤ ·.time)

theorem agrees_empty (site : Site) : Agrees .empty site [] :=
  ⟨rfl, rfl, by simp [brought], by simp [brought], .nil⟩

variable {source} {v : Vault} {site : Site} {earlier : List Inquiry}

/-- Files and the time of day do not matter, and the steady clock only moves on. -/
theorem Agrees.mono (h : Agrees v site earlier) {site' : Site}
    (hclock : site.clock.steady ≤ site'.clock.steady) : Agrees v site' earlier :=
  { h with time_le := fun x hx => Nat.le_trans (h.time_le x hx) hclock }

/-- A call that has brought nothing changes nothing. -/
theorem Agrees.append_of_none (h : Agrees v site earlier) {x : Inquiry} (hx : x.brought? = none) :
    Agrees v site (earlier ++ [x]) := by
  have heq : brought (earlier ++ [x]) = brought earlier := by
    rw [brought_append, hx, Option.toList_none, List.append_nil]
  exact ⟨heq ▸ h.latest, heq ▸ h.runs, heq ▸ h.number_le, heq ▸ h.time_le, heq ▸ h.sorted⟩

/-- A call has brought a credential. -/
theorem Agrees.append_of_some (h : Agrees v site earlier) {x : Inquiry} {c : Credential}
    (hx : x.brought? = some (v.issue c site.clock)) :
    Agrees (v.store c site.clock) site (earlier ++ [x]) := by
  have heq : brought (earlier ++ [x]) = brought earlier ++ [v.issue c site.clock] := by
    rw [brought_append, hx, Option.toList_some]
  constructor
  · rw [heq, List.getLast?_concat]
    rfl
  · rw [heq, List.length_append, ← h.runs]
    rfl
  · intro y hy
    rw [heq, List.mem_append, List.mem_singleton] at hy
    rcases hy with hy | rfl
    · exact Nat.le_succ_of_le (h.number_le y hy)
    · exact Nat.le_refl _
  · intro y hy
    rw [heq, List.mem_append, List.mem_singleton] at hy
    rcases hy with hy | rfl
    · exact h.time_le y hy
    · exact Nat.le_refl _
  · rw [heq, List.pairwise_append]
    refine ⟨h.sorted, List.pairwise_singleton _ _, fun y hy z hz => ?_⟩
    rw [List.mem_singleton] at hz
    rw [hz]
    exact h.time_le y hy

theorem Agrees.inquire (h : Agrees v site earlier) (hlocal : source.IsLocal) {force : Bool}
    {r : Inquiry × Vault × Site} (hr : source.Inquires v site force r) :
    Agrees r.2.1 r.2.2 (earlier ++ [r.1]) := by
  have hclock (w : Site) {outcome} (hconsult : source.consult site = (outcome, w)) :
      w.clock = site.clock := by
    rw [← hlocal.consult_clock site, hconsult]
  cases hr with
  | served => exact h.append_of_none rfl
  | failed e world hneed hconsult =>
    have hsteady : site.clock.steady = world.clock.steady := by rw [hclock world hconsult]
    exact (h.append_of_none rfl).mono (Nat.le_of_eq hsteady)
  | brought c world hneed hconsult =>
    have hsteady : site.clock.steady = world.clock.steady := by rw [hclock world hconsult]
    rw [hlocal.clock_eq, hclock world hconsult]
    exact (h.append_of_some rfl).mono (Nat.le_of_eq hsteady)

end Source

/-- `P` holds of every call and those before it, of which `earlier` came first. -/
def Throughout (P : List Inquiry → Inquiry → Prop) : List Inquiry → List Inquiry → Prop
  | _, [] => True
  | earlier, x :: later => P earlier x ∧ Throughout P (earlier ++ [x]) later

instance decidableThroughout (P : List Inquiry → Inquiry → Prop)
    [∀ earlier x, Decidable (P earlier x)] : ∀ earlier log, Decidable (Throughout P earlier log)
  | _, [] => .isTrue trivial
  | earlier, x :: later =>
    have := decidableThroughout P (earlier ++ [x]) later
    inferInstanceAs (Decidable (P earlier x ∧ Throughout P (earlier ++ [x]) later))

/-- What one call keeps to, all calls of a run keep to. -/
theorem Source.Agrees.throughout_log {source : Source Site} (hlocal : source.IsLocal)
    {P : List Inquiry → Inquiry → Prop}
    (hstep : ∀ {v site earlier force r}, Agrees v site earlier →
      source.Inquires v site force r → P earlier r.1)
    (events : List Site.Event) {v : Vault} {site : Site} {earlier : List Inquiry}
    (h : Agrees v site earlier) : Throughout P earlier (source.log v site events) := by
  induction events generalizing v site earlier with
  | nil => trivial
  | cons event events ih =>
    cases event with
    | call force =>
      have hr := source.inquires_inquire v site force
      exact ⟨hstep h hr, ih (h.inquire hlocal hr)⟩
    | change files => exact ih (h.mono (Nat.le_refl _))
    | pass nanos wall => exact ih (h.mono (Nat.le_add_right _ _))

/-! ### What callers may rely on -/

/-- What callers may rely on: `good` says how long a credential may be served, and `answer` what
the source has at a site. Failed calls have brought nothing, so they do not matter. -/
structure Inquiry.Sound (good : Issued → Clock → Prop)
    (answer : Site → Except AuthError Credential) (earlier : List Inquiry) (x : Inquiry) :
    Prop where
  /-- The source is asked when it has to be, and only then. -/
  consulted_iff : x.consulted = true ↔
    x.force = true ∨ ∀ y ∈ (brought earlier).getLast?, ¬ good y x.site.clock
  /-- What is kept is the latest object that was brought. -/
  kept : x.consulted = false → ∃ y, (brought earlier).getLast? = some y ∧ x.outcome = .ok y
  /-- What is brought is what the source has now, as a new object. -/
  asked : x.consulted = true →
    x.outcome = (answer x.site).map fun c =>
      ⟨(brought earlier).length + 1, c, x.site.clock.steady⟩
  /-- The latest object is served as long as it is good. -/
  served : x.force = false → ∀ y ∈ (brought earlier).getLast?, good y x.site.clock →
    x.outcome = .ok y
  /-- No object is served any more when it is no longer good. -/
  good_of_served : ∀ y ∈ brought earlier, x.outcome = .ok y → good y x.site.clock

namespace Source

variable {source : Source Site} {v : Vault} {site : Site} {earlier : List Inquiry} {force : Bool}
  {r : Inquiry × Vault × Site}

/-- A call that comes to the source is sound. -/
theorem Agrees.sound_of_need (h : Agrees v site earlier) (hlocal : source.IsLocal)
    {good : Issued → Clock → Prop} (hgood : ∀ y now, source.policy y now = true ↔ good y now)
    (hneed : force = true ∨ ∀ y ∈ v.latest, source.policy y (source.clock site) = false)
    {answer : Except AuthError Credential} (hanswer : (source.consult site).1 = answer)
    {outcome : Except AuthError Issued} (houtcome : outcome = answer.map (v.issue · site.clock)) :
    Inquiry.Sound good (fun s => (source.consult s).1) earlier ⟨force, site, true, outcome⟩ := by
  have hstale : force = true ∨ ∀ y ∈ (brought earlier).getLast?, ¬ good y site.clock := by
    rw [← h.latest, ← hlocal.clock_eq]
    refine hneed.imp_right fun hall y hy => ?_
    rw [← hgood, hall y hy]
    exact Bool.false_ne_true
  subst hanswer houtcome
  refine ⟨⟨fun _ => hstale, fun _ => rfl⟩, nofun, fun _ => ?_, ?_, ?_⟩
  · rw [← h.runs]
    rfl
  · intro hforce y hy hy'
    rcases hstale with htrue | hstale
    · exact absurd (hforce.symm.trans htrue) Bool.false_ne_true
    · exact absurd hy' (hstale y hy)
  · -- what is brought now has a number that nothing before has
    intro y hy heq
    cases hc : (source.consult site).1 with
    | error e =>
      simp only [hc] at heq
      cases heq
    | ok c =>
      simp only [hc] at heq
      cases heq
      exact absurd (h.number_le _ hy) (Nat.not_succ_le_self _)

theorem Agrees.sound (h : Agrees v site earlier) (hlocal : source.IsLocal)
    {good : Issued → Clock → Prop} (hgood : ∀ y now, source.policy y now = true ↔ good y now)
    (hr : source.Inquires v site force r) :
    r.1.Sound good (fun s => (source.consult s).1) earlier := by
  cases hr with
  | served issued hforce hlatest hissued =>
    rw [hlocal.clock_eq, hgood] at hissued
    rw [h.latest] at hlatest
    refine ⟨⟨nofun, ?_⟩, fun _ => ⟨issued, hlatest, rfl⟩, nofun, ?_, ?_⟩
    · rintro (htrue | hstale)
      · exact absurd (hforce.symm.trans htrue) Bool.false_ne_true
      · exact absurd hissued (hstale issued hlatest)
    · intro _ y hy _
      rw [hlatest, Option.mem_some] at hy
      rw [hy]
    · rintro y - ⟨⟩
      exact hissued
  | failed e world hneed hconsult =>
    have hanswer : (source.consult site).1 = .error e := by rw [hconsult]
    exact h.sound_of_need hlocal hgood hneed hanswer rfl
  | brought c world hneed hconsult =>
    have hclock : source.clock world = site.clock := by
      rw [hlocal.clock_eq, ← hlocal.consult_clock site, hconsult]
    rw [hclock]
    have hanswer : (source.consult site).1 = .ok c := by rw [hconsult]
    exact h.sound_of_need hlocal hgood hneed hanswer rfl

/-- If any object was brought recently, the latest one was. -/
theorem Agrees.recent_iff (h : Agrees v site earlier) (lifetime : Nat) :
    (∀ y ∈ (brought earlier).getLast?, ¬ site.clock.steady - y.time < lifetime) ↔
      ∀ y ∈ brought earlier, lifetime ≤ site.clock.steady - y.time := by
  constructor
  · intro hlast y hy
    obtain ⟨before, last, heq⟩ : ∃ before last, brought earlier = before ++ [last] :=
      ⟨_, _, (List.dropLast_concat_getLast (List.ne_nil_of_mem hy)).symm⟩
    have hle : y.time ≤ last.time := by
      have hsorted := h.sorted
      rw [heq, List.pairwise_append] at hsorted
      rw [heq, List.mem_append, List.mem_singleton] at hy
      rcases hy with hy | rfl
      · exact hsorted.2.2 y hy last (List.mem_singleton_self _)
      · exact Nat.le_refl _
    have hstale := hlast last (by rw [heq, List.getLast?_concat]; rfl)
    omega
  · intro hall y hy
    have := hall y (List.mem_of_getLast? hy)
    omega

end Source

/-! ### Files -/

/-- What callers may rely on if a file holds the token. -/
structure Inquiry.SoundFile (f : TokenFile) (earlier : List Inquiry) (x : Inquiry) : Prop where
  sound : x.Sound (fun y now => now.steady - y.time < f.lifetime)
    (fun s => f.read s.files s.clock) earlier
  /-- The file is read unless something was read less than the lifetime ago. -/
  consulted_iff : x.consulted = true ↔
    x.force = true ∨ ∀ y ∈ brought earlier, f.lifetime ≤ x.site.clock.steady - y.time
  /-- A file that cannot be read. -/
  unreadable : x.consulted = true → ∀ e, x.site.files.readText f.path = .error e →
    x.outcome = .error (.io f.path e.message)
  /-- A file with a blank text. -/
  blank : x.consulted = true → ∀ text, x.site.files.readText f.path = .ok text →
    Blank.trim text = "" → x.outcome = .error (.emptyCredential f.path)
  /-- A file with a token. -/
  token : x.consulted = true → ∀ text, x.site.files.readText f.path = .ok text →
    Blank.trim text ≠ "" → ∃ y, x.outcome = .ok y ∧ y.credential.token = Blank.trim text

theorem TokenFile.isLocal_source (f : TokenFile) : f.source.IsLocal :=
  ⟨fun _ => rfl, fun _ => rfl⟩

theorem TokenFile.read_of_error {f : TokenFile} {files : FileTree} {e : FileError}
    (h : files.readText f.path = .error e) (now : Clock) :
    f.read files now = .error (.io f.path e.message) := by
  rw [read, h]

theorem TokenFile.read_of_blank {f : TokenFile} {files : FileTree} {text : String}
    (h : files.readText f.path = .ok text) (hblank : Blank.trim text = "") (now : Clock) :
    f.read files now = .error (.emptyCredential f.path) := by
  simp only [read, h, hblank]
  rfl

theorem TokenFile.read_of_token {f : TokenFile} {files : FileTree} {text : String}
    (h : files.readText f.path = .ok text) (htoken : Blank.trim text ≠ "") (now : Clock) :
    f.read files now =
      .ok { token := Blank.trim text, expiry := now.wall.add? f.lifetime } := by
  have hempty : (Blank.trim text).isEmpty ≠ true := by rwa [Ne, String.isEmpty_iff]
  simp only [read, h, if_neg hempty]

theorem TokenFile.soundFile (f : TokenFile) {v : Vault} {site : Site} {earlier : List Inquiry}
    {force : Bool} {r : Inquiry × Vault × Site} (h : Source.Agrees v site earlier)
    (hr : f.source.Inquires v site force r) : r.1.SoundFile f earlier := by
  have hsound : r.1.Sound (fun y now => now.steady - y.time < f.lifetime)
      (fun s => f.read s.files s.clock) earlier :=
    h.sound f.isLocal_source (fun _ _ => decide_eq_true_iff) hr
  have hsite : r.1.site = site := by cases hr <;> rfl
  have hasked (hconsulted : r.1.consulted = true) := hsound.asked hconsulted
  refine ⟨hsound, ?_, ?_, ?_, ?_⟩
  · rw [hsound.consulted_iff, hsite, h.recent_iff]
  · intro hconsulted e he
    rw [hasked hconsulted, read_of_error he]
    rfl
  · intro hconsulted text htext hblank
    rw [hasked hconsulted, read_of_blank htext hblank]
    rfl
  · intro hconsulted text htext htoken
    rw [hasked hconsulted, read_of_token htext htoken]
    exact ⟨_, rfl, rfl⟩

/-! ### Helpers -/

/-- A credential that has no expiry, or expires later than now. -/
def Issued.IsUnexpired (y : Issued) (now : Clock) : Prop :=
  ∀ t ∈ y.credential.expiry, now.wall.compare t = .lt

instance (y : Issued) (now : Clock) : Decidable (y.IsUnexpired now) :=
  inferInstanceAs (Decidable (∀ t ∈ y.credential.expiry, now.wall.compare t = .lt))

theorem ExecConfig.policy_iff (y : Issued) (now : Clock) :
    ExecConfig.policy y now = true ↔ y.IsUnexpired now := by
  unfold policy Issued.IsUnexpired Credential.isExpiredAt
  cases y.credential.expiry <;> simp

theorem ExecConfig.isLocal_sourceOf (c : ExecConfig) (run : Site → HelperRun × FileTree) :
    (c.sourceOf run).IsLocal :=
  ⟨fun _ => rfl, fun _ => rfl⟩

/-! ### Runs -/

/-- From an empty vault on, every call of every run keeps to what callers may rely on, be the
source a file or any program that is run as a helper. -/
theorem Source.sound_log (site : Site) (events : List Site.Event) :
    (∀ f : TokenFile, Throughout (Inquiry.SoundFile f) [] (f.source.log .empty site events)) ∧
    (∀ (c : ExecConfig) (run : Site → HelperRun × FileTree),
      Throughout (Inquiry.Sound Issued.IsUnexpired fun s => c.credential (run s).1) []
        ((c.sourceOf run).log .empty site events)) :=
  ⟨fun f => Agrees.throughout_log f.isLocal_source f.soundFile events (agrees_empty site),
    fun c run => Agrees.throughout_log (c.isLocal_sourceOf run)
      (fun h hr => h.sound (c.isLocal_sourceOf run) ExecConfig.policy_iff hr) events
      (agrees_empty site)⟩

/-- A helper that prints the file `cred`. -/
def printingHelper : ExecConfig where
  command := "cat"
  args := ["cred"]
  env := []
  apiVersion := "v1"
  timeout := none

/-- What that helper does. -/
def printCred (s : Site) : HelperRun × FileTree :=
  match s.files.nodeAt? ["tmp", "cred"] with
  | some (.file content _) => (.ended (some 0) content [] 0, s.files)
  | _ => (.ended (some 1) [] [] 0, s.files)

/-- The file `cred` with a status in it. -/
def credTree (status : String) : FileTree :=
  let text := "\x7b\"apiVersion\":\"v1\",\"status\":" ++ status ++ "\x7d"
  ⟨[(["tmp"], .directory), (["tmp", "cred"], .file (Utf8.encode text) false)]⟩

/-- The token `a`, which does not expire. -/
def lasting : FileTree :=
  credTree "\x7b\"token\":\"a\"\x7d"

/-- The token `b`, which has expired. -/
def expired : FileTree :=
  credTree "\x7b\"token\":\"b\",\"expirationTimestamp\":\"2000-01-01T00:00:00Z\"\x7d"

/-- Only the latest object counts: the helper is asked again behind one that has expired, although
the one before would still be good. -/
theorem consulted_behind_expired :
    ¬ Throughout (fun earlier x => x.consulted = true ↔
        x.force = true ∨ ∀ y ∈ brought earlier, ¬ y.IsUnexpired x.site.clock) []
      ((printingHelper.sourceOf printCred).log .empty ⟨lasting, ⟨0, ⟨1700000000, 0⟩⟩⟩
        [.call false, .change expired, .call true, .call false]) := by
  decide +kernel

/-! ### A lone caller -/

/-- At the gate, a lone caller finds what it has found when it came. -/
theorem Refresh.enter_lone {policy : Policy} {v : Vault} {now : Clock} {force : Bool}
    (h : (if force then none else v.fresh? policy now) = none) :
    Refresh.enter ⟨v, [⟨force, .waiting v.runs⟩], [0]⟩ policy now =
      ⟨v, [⟨force, .running⟩], [0]⟩ := by
  have hgate : (if !force || decide (v.runs ≠ v.runs) then v.fresh? policy now else none) =
      none := by
    cases force with
    | true => simp
    | false => exact h
  simp only [enter, List.getElem?_cons_zero, hgate]
  rfl

theorem Source.getAll_singleton {σ : Type} (source : Source σ) (force : Bool) (v : Vault)
    (world : σ) :
    source.getAll [force] v world =
      ([(source.get force v world).1], (source.get force v world).2) := by
  simp only [getAll, List.foldl_cons, List.foldl_nil, get, Refresh.arrive, Refresh.start]
  cases hfresh : (if force then none else v.fresh? source.policy (source.clock world)) with
  | some issued => simp [serve, Refresh.outcome?]
  | none =>
    rcases hconsult : source.consult world with ⟨outcome, world'⟩
    have hrunning : Refresh.isRunning ⟨v, [⟨force, .running⟩], [0]⟩ = true := rfl
    simp only [List.nil_append, List.length_nil, List.length_cons, serve,
      Refresh.enter_lone hfresh, hrunning, if_true, hconsult]
    cases outcome <;> rfl

end KubeClient
