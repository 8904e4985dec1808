import Mathlib.Control.Monad.Basic
import KubeClient.Auth.Helper
import KubeClient.Proofs.CredentialCache
import KubeClient.Proofs.RefreshSharing

/-!
# What helpers give

A helper prints a document. It is a credential if it is of the right version and has a status with
a certificate and its key, or with neither of them and a token. Whether a server could do anything
with the credential is asked of the token alone: a certificate that is there counts, be it empty.

* `ExecConfig.Prints` : a helper has printed a status, in a document of the right version;
* `Credential.IsUseful`, `HelperStatus.HasBlankPair` : credentials that can be used, and those that
  cannot although they are given;
* `Refresh.Gives` : all that callers get from the vault and keep there satisfies a condition;
* `ExecConfig.credential_of_output` : what is given for an output, and to the callers of every run;
* `ExecConfig.given_blank` : an output for which a credential is given that cannot be used.
-/

namespace KubeClient

/-! ### Outputs -/

/-- There is a token, or a certificate with its key. -/
def Credential.IsUseful (k : Credential) : Prop :=
  k.token ≠ "" ∨ ∃ certificate ∈ k.certificate, ∃ key ∈ k.key, certificate ≠ "" ∧ key ≠ ""

namespace HelperStatus

/-- What a status gives as a credential. -/
def credential (s : HelperStatus) : Credential :=
  ⟨s.token.getD "", s.expiry.map (·.instant), s.certificate, s.key⟩

/-- A certificate comes with its key, and a key with its certificate. -/
def IsPaired (s : HelperStatus) : Prop :=
  s.certificate.isSome = s.key.isSome

/-- There is no certificate and no key, and no token or an empty one. -/
def IsBare (s : HelperStatus) : Prop :=
  s.certificate = none ∧ s.key = none ∧ s.credential.token = ""

/-- There is a certificate and a key, but one of them is empty, and so is the token. -/
def HasBlankPair (s : HelperStatus) : Prop :=
  s.credential.token = "" ∧
    ∃ certificate ∈ s.certificate, ∃ key ∈ s.key, certificate = "" ∨ key = ""

variable {s : HelperStatus}

/-- Of the credentials that are given, only those with a blank pair are useless. -/
theorem isUseful_iff (hpaired : s.IsPaired) (hbare : ¬s.IsBare) :
    s.credential.IsUseful ↔ ¬s.HasBlankPair := by
  obtain ⟨expiry, token, certificate, key⟩ := s
  unfold IsPaired at hpaired
  unfold IsBare at hbare
  unfold Credential.IsUseful HasBlankPair
  cases certificate with
  | none =>
    cases key with
    | none => simp_all [credential]
    | some key => simp at hpaired
  | some certificate =>
    cases key with
    | none => simp at hpaired
    | some key => by_cases htoken : token.getD "" = "" <;> simp_all [credential]

end HelperStatus

namespace ExecConfig

variable (c : ExecConfig)

/-- The output is a document of the configured version with a status. -/
def Prints (stdout : Bytes) (s : HelperStatus) : Prop :=
  ∃ d : HelperDocument,
    (⟨MediaType.json, .json⟩ : Serializer).decode HelperDocument (Blank.trimBytes stdout) =
      .ok (some d) ∧
    d.apiVersion = c.apiVersion ∧ d.status = some s

variable {c} {stdout : Bytes} {s : HelperStatus} {k : Credential}

theorem ofStatus_eq_ok : c.ofStatus s = .ok k ↔ s.IsPaired ∧ ¬s.IsBare ∧ k = s.credential := by
  obtain ⟨expiry, token, certificate, key⟩ := s
  unfold ofStatus HelperStatus.IsPaired HelperStatus.IsBare HelperStatus.credential
  cases certificate with
  | none =>
    cases key with
    | none =>
      by_cases htoken : token.getD "" = ""
      · simp [htoken]
      · simpa [htoken] using eq_comm
    | some key => simp
  | some certificate =>
    cases key with
    | none => simp
    | some key => simpa using eq_comm

theorem ofStatus_of_isBare (h : s.IsBare) : c.ofStatus s = .error c.emptyOutput := by
  obtain ⟨hcertificate, hkey, htoken⟩ := h
  have hempty : (s.token.getD "").isEmpty = true := String.isEmpty_iff.mpr htoken
  simp only [ofStatus, hcertificate, hkey, hempty, if_true]

theorem ofOutput_of_prints (h : c.Prints stdout s) : c.ofOutput stdout = c.ofStatus s := by
  obtain ⟨d, hdecoded, hversion, hstatus⟩ := h
  simp [ofOutput, hdecoded, hversion, hstatus]

theorem prints_of_ofOutput (h : c.ofOutput stdout = .ok k) : ∃ s, c.Prints stdout s := by
  unfold ofOutput at h
  split at h
  · cases h
  · cases h
  · rename_i d hdecoded
    split at h
    · cases h
    · rename_i hversion
      split at h
      · cases h
      · rename_i s hstatus
        exact ⟨s, d, hdecoded, Decidable.not_not.mp hversion, hstatus⟩

theorem ofOutput_eq_ok : c.ofOutput stdout = .ok k ↔
    ∃ s, c.Prints stdout s ∧ s.IsPaired ∧ ¬s.IsBare ∧ k = s.credential := by
  constructor
  · intro h
    obtain ⟨s, hs⟩ := prints_of_ofOutput h
    rw [ofOutput_of_prints hs, ofStatus_eq_ok] at h
    exact ⟨s, hs, h⟩
  · rintro ⟨s, hs, h⟩
    rw [ofOutput_of_prints hs, ofStatus_eq_ok]
    exact h

/-- A run brings a credential only if it was in time and reported no failure. -/
theorem credential_eq_ok {run : HelperRun} : c.credential run = .ok k ↔
    ∃ stdout stderr elapsed, run = .ended (some 0) stdout stderr elapsed ∧
      elapsed < c.limit.toNanos ∧ c.ofOutput stdout = .ok k := by
  constructor
  · intro h
    cases run with
    | notStarted reason => cases h
    | ended code stdout stderr elapsed =>
      by_cases hlimit : c.limit.toNanos ≤ elapsed
      · simp [credential, hlimit] at h
      · by_cases hcode : code = some 0
        · simp only [credential, if_neg hlimit, if_pos hcode] at h
          exact ⟨stdout, stderr, elapsed, by rw [hcode], Nat.lt_of_not_le hlimit, h⟩
        · simp [credential, hlimit, hcode] at h
  · rintro ⟨stdout, stderr, elapsed, rfl, hlimit, hgiven⟩
    simp only [credential, if_neg (Nat.not_le_of_lt hlimit), if_true, hgiven]

end ExecConfig

/-! ### Callers -/

namespace Refresh

variable {P : Credential → Prop} {policy : Policy} {s t : Refresh} {e : Event}

/-- What callers have got, and what is kept for others, satisfies `P`. -/
structure Gives (P : Credential → Prop) (s : Refresh) : Prop where
  kept : ∀ x ∈ s.vault.latest, P x.credential
  given : ∀ (i : Nat) (force : Bool) (x : Issued),
    s.callers[i]? = some ⟨force, .done (.ok x)⟩ → P x.credential

theorem gives_start : Gives P (start .empty) :=
  ⟨by simp [start, Vault.empty], by simp [start]⟩

theorem Gives.outcome (h : s.Gives P) {i : Nat} {x : Issued} (hx : s.outcome? i = some (.ok x)) :
    P x.credential := by
  unfold outcome? at hx
  split at hx
  · rename_i force outcome hi
    cases hx
    exact h.given i force x hi
  · cases hx

/-- If the source brings anything, it satisfies `P`. -/
def Event.Brings (P : Credential → Prop) (e : Event) : Prop :=
  ∀ now c, e = .settle now (.ok c) → P c

/-- Another caller has come. -/
theorem Gives.append (h : s.Gives P) {c : Caller} (line : List Nat)
    (hc : ∀ x, c.stage = .done (.ok x) → P x.credential) :
    Gives P { s with callers := s.callers ++ [c], line } := by
  refine ⟨h.kept, fun j force x hj => ?_⟩
  rw [getElem?_callers_append] at hj
  split at hj
  · exact hc x (congrArg Caller.stage (Option.some.inj hj))
  · exact h.given j force x hj

/-- A caller has come further, and perhaps there is something else in the vault. -/
theorem Gives.move (h : s.Gives P) {v : Vault} (hv : ∀ x ∈ v.latest, P x.credential) {i : Nat}
    {stage : Stage} (line : List Nat) (hstage : ∀ x, stage = .done (.ok x) → P x.credential) :
    Gives P { s.move i stage with vault := v, line } := by
  refine ⟨hv, fun j force x hj => ?_⟩
  rw [show _ = s.callers[j]?.map _ from getElem?_move s i j stage] at hj
  obtain ⟨caller, hcaller, hmoved⟩ := Option.map_eq_some_iff.mp hj
  split at hmoved
  · exact hstage x (congrArg Caller.stage hmoved)
  · rw [hmoved] at hcaller
    exact h.given j force x hcaller

theorem Steps.gives (h : Steps policy s e t) (hs : s.Gives P) (he : e.Brings P) : t.Gives P := by
  have hfresh {now : Clock} {x y : Issued} (hx : s.vault.fresh? policy now = some x)
      (hy : Stage.done (.ok x) = .done (.ok y)) : P y.credential := by
    cases hy
    exact hs.kept x (Vault.fresh?_eq_some hx)
  cases h with
  | served hissued => exact hs.append s.line fun _ => hfresh hissued
  | queued => exact hs.append _ (by simp)
  | shared _ _ _ hissued => exact hs.move hs.kept _ fun _ => hfresh hissued
  | passed => exact hs.move hs.kept s.line (by simp)
  | brought =>
    have hc := he _ _ rfl
    refine hs.move ?_ _ ?_
    · simpa [Vault.store, Vault.issue] using hc
    · simpa [Vault.issue] using hc
  | failed => exact hs.move hs.kept _ (by simp)
  | left => exact hs.move hs.kept _ (by simp)
  | idle => exact hs

theorem gives_run (policy : Policy) {events : List Event} (hs : s.Gives P)
    (he : ∀ e ∈ events, e.Brings P) : (run policy s events).Gives P := by
  induction events generalizing s with
  | nil => exact hs
  | cons e events ih =>
    have hstep := (steps_step policy s e).gives hs (he e List.mem_cons_self)
    exact ih hstep fun e' he' => he e' (List.mem_cons_of_mem e he')

/-- What failed leaves the vault as it was. -/
theorem vault_settle_error (s : Refresh) (now : Clock) (error : AuthError) :
    (s.settle now (.error error)).vault = s.vault := by
  unfold settle
  split
  · rfl
  · split <;> rfl

end Refresh

/-! ### Helpers and callers -/

/-- What can happen while callers wait for a helper. -/
inductive HelperEvent
  | arrive (now : Clock) (force : Bool)
  | enter (now : Clock)
  /-- The helper has ended, or could not be started. -/
  | ended (now : Clock) (run : HelperRun)
  | leave (i : Nat)

namespace ExecConfig

variable (c : ExecConfig)

/-- What an event is to the line of callers. -/
def event : HelperEvent → Refresh.Event
  | .arrive now force => .arrive now force
  | .enter now => .enter now
  | .ended now run => .settle now (c.credential run)
  | .leave i => .leave i

/-- The callers of a helper after a series of events. -/
def callers (events : List HelperEvent) : Refresh :=
  Refresh.run policy (.start .empty) (events.map c.event)

/-- One of the runs has printed what is given as the credential. -/
def Given (events : List HelperEvent) (k : Credential) : Prop :=
  ∃ now stdout stderr elapsed, .ended now (.ended (some 0) stdout stderr elapsed) ∈ events ∧
    elapsed < c.limit.toNanos ∧ c.ofOutput stdout = .ok k

theorem gives_callers (events : List HelperEvent) : (c.callers events).Gives (c.Given events) := by
  apply Refresh.gives_run policy Refresh.gives_start
  rintro _ he now k rfl
  obtain ⟨event, hevent, heq⟩ := List.mem_map.mp he
  cases event with
  | ended now' run =>
    simp only [event, Refresh.Event.settle.injEq] at heq
    obtain ⟨rfl, hk⟩ := heq
    obtain ⟨stdout, stderr, elapsed, rfl, hlimit, hgiven⟩ := credential_eq_ok.mp hk
    exact ⟨now', stdout, stderr, elapsed, hevent, hlimit, hgiven⟩
  | arrive now' force => simp [event] at heq
  | enter now' => simp [event] at heq
  | leave i => simp [event] at heq

/-- A credential is given for an output exactly if that is a document of the configured version with
a status in which the certificate and the key are both there or both missing, and in the latter case
there is a token; it then is what the status says. If there is nothing at all the output counts as
empty. What is given can be used unless it is a certificate and a key of which one is empty, and no
token. Whatever callers get, in whatever order they come and go and helpers end, one of the runs has
printed; a run that brings nothing leaves the vault as it was. -/
theorem credential_of_output (c : ExecConfig) :
    (∀ stdout k, c.ofOutput stdout = .ok k ↔
      ∃ s, c.Prints stdout s ∧ s.IsPaired ∧ ¬s.IsBare ∧ k = s.credential) ∧
    (∀ stdout s, c.Prints stdout s → s.IsBare → c.ofOutput stdout = .error c.emptyOutput) ∧
    (∀ s : HelperStatus, s.IsPaired → ¬s.IsBare →
      (s.credential.IsUseful ↔ ¬s.HasBlankPair)) ∧
    (∀ events i issued, (c.callers events).outcome? i = some (.ok issued) →
      c.Given events issued.credential) ∧
    (∀ (callers : Refresh) now run e, c.credential run = .error e →
      (callers.settle now (c.credential run)).vault = callers.vault) := by
  refine ⟨fun stdout k => ofOutput_eq_ok, ?_, fun s => HelperStatus.isUseful_iff, ?_, ?_⟩
  · intro stdout s hs hbare
    rw [ofOutput_of_prints hs, ofStatus_of_isBare hbare]
  · intro events i issued hi
    exact (c.gives_callers events).outcome hi
  · intro callers now run e he
    rw [he, Refresh.vault_settle_error]

/-- A document with a status in it. -/
def printed (status : String) : Bytes :=
  Utf8.encode ("\x7b\"apiVersion\":\"v1\",\"status\":" ++ status ++ "\x7d")

/-- A status with nothing but a token. -/
def tokenStatus (token : String) : HelperStatus :=
  ⟨none, some token, none, none⟩

/-- A lone caller of a helper that ends with this output. -/
def lone (stdout : Bytes) : List HelperEvent :=
  [.arrive default false, .enter default, .ended default (.ended (some 0) stdout [] 0)]

theorem prints_printed {status : String} {s : HelperStatus}
    (h : (⟨MediaType.json, .json⟩ : Serializer).decode HelperDocument
      (Blank.trimBytes (printed status)) = .ok (some ⟨"v1", "", none, some s⟩)) :
    printingHelper.Prints (printed status) s :=
  ⟨_, h, rfl, rfl⟩

theorem credential_of_output_token :
    let stdout := printed "\x7b\"token\":\"a\"\x7d"
    let bare := printed "\x7b\"token\":\"\"\x7d"
    (printingHelper.ofOutput stdout = .ok (.bearer "a") ∧ (Credential.bearer "a").IsUseful) ∧
    printingHelper.ofOutput bare = .error printingHelper.emptyOutput ∧
    ((printingHelper.callers (lone stdout)).outcome? 0 = some (.ok ⟨1, .bearer "a", 0⟩) ∧
      printingHelper.Given (lone stdout) (.bearer "a")) ∧
    ((printingHelper.callers (lone stdout)).settle default
      (printingHelper.credential (.ended (some 0) bare [] 0))).vault =
        (printingHelper.callers (lone stdout)).vault := by
  intro stdout bare
  obtain ⟨hiff, hempty, huseful, hgiven, hvault⟩ := credential_of_output printingHelper
  have hprints : printingHelper.Prints stdout (tokenStatus "a") :=
    prints_printed (by decide +kernel)
  have hprints' : printingHelper.Prints bare (tokenStatus "") :=
    prints_printed (by decide +kernel)
  have htoken : ¬(tokenStatus "a").IsBare := by
    simp [HelperStatus.IsBare, HelperStatus.credential, tokenStatus]
  have hblank : ¬(tokenStatus "a").HasBlankPair := by
    simp [HelperStatus.HasBlankPair, tokenStatus]
  have hout : (printingHelper.callers (lone stdout)).outcome? 0 =
      some (.ok ⟨1, .bearer "a", 0⟩) := by decide +kernel
  refine ⟨⟨(hiff _ _).mpr ⟨_, hprints, rfl, htoken, rfl⟩,
    (huseful (tokenStatus "a") rfl htoken).mpr hblank⟩, hempty _ _ hprints' ⟨rfl, rfl, rfl⟩,
    ⟨hout, hgiven _ _ _ hout⟩, hvault _ _ _ printingHelper.emptyOutput ?_⟩
  decide +kernel

/-- A certificate and a key that are both empty are given as a credential. -/
theorem given_blank :
    let stdout := printed "\x7b\"clientCertificateData\":\"\",\"clientKeyData\":\"\"\x7d"
    ∃ k, printingHelper.ofOutput stdout = .ok k ∧ ¬k.IsUseful := by
  intro stdout
  refine ⟨⟨"", none, some "", some ""⟩, by decide +kernel, ?_⟩
  simp [Credential.IsUseful]

end ExecConfig
end KubeClient
