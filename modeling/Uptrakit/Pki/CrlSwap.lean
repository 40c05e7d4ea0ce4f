import Uptrakit.Pki.CrlSteps

/-!
# Verifier swaps

A call of `swap_verifier` reads the revoked certificates at one point and installs the
verifier at another.  As long as the calls of a controller do not overlap there, what a
call has installed refuses every certificate that was revoked before it began, and so do
the verifiers that are installed later (`swap_keeps_refusing`).  The revocation loop, the
CA reload task, the CA rotation task and the renewal task call it without a common lock,
though, and an older read may then be installed over a newer one (`older_read_installed`).
-/

namespace Uptrakit.Pki.Crl

open Concurrent List Bool

variable {π : Type} {codec : PemCodec π} {cert : ServiceCertificate} {serial : List Nat}
  {controller : Nat}

/-- The call of `swap_verifier` has taken the issuers and not installed the verifier yet. -/
def Frame.preparing (controller : Nat) : Frame π → Bool
  | swapQuery controller' _ _ _ _ _ | swapSign controller' _ _ _ _ _ => controller' == controller
  | _ => false

/-- A call of `swap_verifier` begins only while no other one of the controller is
preparing a verifier. -/
def swapsAlone (s : System (World π) (Frame π)) : Move Operation Choice → Bool
  | .start _ => true
  | .run t _ =>
    match s.calls[t]? with
    | some (.enter (.swapVerifier controller)) =>
      s.calls.all fun g => !g.preparing controller
    | _ => true

/-! ## Refusing a certificate -/

/-- The verifier of a controller refuses the certificate, until it expires. -/
def Refused (cert : ServiceCertificate) (serial : List Nat) (controller : Nat) (s : World π) :
    Prop :=
  ∃ manager, s.managers[controller]? = some manager ∧
    (s.now < cert.notAfter → manager.verifier.refuses cert.caFingerprint serial = true)

variable {crls : List SignedCrl} {now : Int} {f : Frame π}

/-- What a call of `swap_verifier` has read and signed so far is no older than the
revocation. -/
def Frame.Sound (cert : ServiceCertificate) (serial : List Nat) (controller : Nat) (now : Int) :
    Frame π → Prop
  | swapQuery controller' _ _ _ crls queried =>
    controller' = controller → queried ≤ now ∧ ∀ crl ∈ crls, crl.Covers cert serial now
  | swapSign controller' _ ca _ crls revoked =>
    controller' = controller →
      Found cert serial now ca revoked ∧ ∀ crl ∈ crls, crl.Covers cert serial now
  | _ => True

theorem Frame.sound_of_not_preparing (h : f.preparing controller = false) :
    f.Sound cert serial controller now := by
  cases f with
  | swapQuery | swapSign =>
    intro hc
    simp [preparing, hc] at h
  | _ => trivial

theorem Frame.Sound.mono {now'} (h : f.Sound cert serial controller now) (hn : now ≤ now') :
    f.Sound cert serial controller now' := by
  cases f with
  | swapQuery =>
    intro hc
    obtain ⟨hq, hco⟩ := h hc
    exact ⟨hq.trans hn, fun crl hcr => (hco crl hcr).mono hn⟩
  | swapSign =>
    intro hc
    obtain ⟨hf, hco⟩ := h hc
    exact ⟨hf.mono hn, fun crl hcr => (hco crl hcr).mono hn⟩
  | _ => trivial

/-- The CRLs after one more has been signed. -/
theorem covers_concat {ca revoked} (hf : Found cert serial now ca revoked)
    (hc : ∀ crl ∈ crls, crl.Covers cert serial now) (crlNumber signedAt) :
    ∀ crl ∈ crls ++ [signCrlWithTimes ca revoked crlNumber signedAt],
      crl.Covers cert serial now := by
  intro crl hcr
  rcases mem_append.1 hcr with hcr | hcr
  · exact hc crl hcr
  · obtain rfl := mem_singleton.1 hcr
    exact hf.covers crlNumber signedAt

section Step

variable {s : World π} {f : Frame π}

theorem sound_enter (operation) : (enter s operation).2.Sound cert serial controller s.now := by
  fun_cases enter s operation with
  | case8 => exact fun _ => ⟨le_rfl, by simp⟩
  | _ => trivial

variable (hf : f.Sound cert serial controller s.now)

include hf

section Revoked

variable (hmem : cert ∈ s.certificates) (hrevoked : cert.revokedAt.isSome)
  (hserial : parseSerialString cert.serialNumber = some serial)

include hmem hrevoked hserial

/-- One step of any call, from a state in which the certificate is revoked. -/
theorem sound_execute : (execute codec s f).2.Sound cert serial controller s.now := by
  fun_cases execute codec s f with
  | case1 operation => exact sound_enter operation
  | case3 _ _ ca =>
    intro hc
    obtain ⟨hn, hco⟩ := hf hc
    exact ⟨found_query ca hmem hrevoked hserial hn, hco⟩
  | case4 _ crlNumber =>
    intro hc
    obtain ⟨hfo, hco⟩ := hf hc
    exact ⟨le_rfl, covers_concat hfo hco crlNumber s.now⟩
  | _ => trivial

theorem sound_step (choice : Choice) :
    (step codec choice s f).2.Sound cert serial controller (step codec choice s f).1.now := by
  rw [now_step]
  unfold step
  split
  · cases f <;> trivial
  · exact sound_execute (hf.mono (s.now_le_wait choice.elapsed)) hmem hrevoked hserial

end Revoked

omit hf in
/-- A verifier with the CRLs of a call that is about to install it. -/
theorem refuses_of_sound {crlNumber : Nat} {ca : String} {revoked : List RevokedCertParams}
    {verifier : Verifier} {roots : List String}
    (hf : (Frame.swapSign controller crlNumber ca [] crls revoked : Frame π).Sound cert serial
      controller s.now)
    (hv : verifier = ⟨roots, crls ++ [signCrlWithTimes ca revoked crlNumber s.now]⟩)
    (hva : s.now < cert.notAfter) : verifier.refuses cert.caFingerprint serial = true := by
  obtain ⟨hfo, hc⟩ := hf rfl
  have hc := covers_concat hfo hc crlNumber s.now
  refine or_eq_true_iff.2 (.inr (and_eq_true_iff.2 ⟨by simp [hv], ?_⟩))
  rw [hv]
  split
  · rfl
  · rename_i crl hfi
    have hi : crl.issuer = cert.caFingerprint := by simpa using find?_some hfi
    exact hc crl (mem_of_find?_eq_some hfi) hi hva

/-- A step keeps the verifier, or installs one that refuses the certificate. -/
theorem Refused.of_effect {s' : World π} (h : Refused cert serial controller s)
    (he : Effect codec s f s') : Refused cert serial controller s' := by
  obtain ⟨manager, hm, hr⟩ := h
  cases he with
  | none | issue | revoke | write => exact ⟨manager, hm, hr⟩
  | boot =>
    exact ⟨manager, getElem?_append_of_eq_some hm _, hr⟩
  | manage controller' _ new ho hv =>
    by_cases hc : controller' = controller
    · subst hc
      obtain rfl := Option.some.inj (hm.symm.trans ho)
      exact ⟨new, getElem?_setManager_self ho, hv ▸ hr⟩
    · exact ⟨manager, (getElem?_setManager_of_ne hc).trans hm, hr⟩
  | install controller' _ _ _ _ _ new hp ho hv =>
    by_cases hc : controller' = controller
    · subst hc hp
      exact ⟨new, getElem?_setManager_self ho, refuses_of_sound hf hv⟩
    · exact ⟨manager, (getElem?_setManager_of_ne hc).trans hm, hr⟩

omit hf in
theorem Refused.wait (h : Refused cert serial controller s) (elapsed) :
    Refused cert serial controller (s.wait elapsed) := by
  obtain ⟨manager, hm, hr⟩ := h
  refine ⟨manager, hm, fun hv => hr ?_⟩
  exact (s.now_le_wait elapsed).trans_lt hv

theorem Refused.of_step (choice : Choice) (h : Refused cert serial controller s) :
    Refused cert serial controller (step codec choice s f).1 :=
  (h.wait choice.elapsed).of_effect (hf.mono (s.now_le_wait choice.elapsed)) (effect_step choice f)

end Step

/-! ## The call -/

/-- The point of a call of `swap_verifier`, with what holds once it has installed its
verifier. -/
def Frame.Follows (controller : Nat) (installed : Prop) : Frame π → Prop
  | enter operation => operation = .swapVerifier controller
  | swapQuery controller' _ _ _ _ _ | swapSign controller' _ _ _ _ _ => controller' = controller
  | swapPersist controller' _ | swapInsert controller' _ _ _ | swapUpdate controller' _ _ _ =>
    controller' = controller ∧ installed
  | returned operation answer =>
    operation = .swapVerifier controller ∧ (answer = .done → installed)
  | _ => False

theorem Frame.Follows.imp {p q : Prop} (h : f.Follows controller p) (hpq : p → q) :
    f.Follows controller q := by
  cases f with
  | swapPersist | swapInsert | swapUpdate => exact ⟨h.1, hpq h.2⟩
  | returned => exact ⟨h.1, hpq ∘ h.2⟩
  | enter | swapQuery | swapSign => exact h
  | _ => exact h.elim

theorem follows_failed {p : Prop} (h : f.Follows controller p) :
    (f.failed codec).Follows controller p := by
  cases f with
  | enter => exact ⟨h, nofun⟩
  | swapQuery | swapSign => exact ⟨congrArg _ h, nofun⟩
  | swapPersist | swapInsert | swapUpdate | returned => exact h
  | _ => exact h.elim

section Follows

variable {s : World π} (h : f.Follows controller (Refused cert serial controller s))
  (hf : f.Sound cert serial controller s.now)

include h hf

/-- One step of the call: only the step that signs the last CRL installs the verifier. -/
theorem follows_execute : (execute codec s f).2.Follows controller
      (Refused cert serial controller (execute codec s f).1) := by
  have hk : Refused cert serial controller s →
      Refused cert serial controller (execute codec s f).1 :=
    fun hr => hr.of_effect hf (effect_execute f)
  cases f with
  | enter operation =>
    obtain rfl : operation = .swapVerifier controller := h
    dsimp only [execute, enter]
    split
    · exact ⟨rfl, nofun⟩
    · exact rfl
  | swapQuery | returned => exact h
  | swapSign controller' _ _ rest =>
    obtain rfl : controller' = controller := h
    cases rest with
    | cons => exact rfl
    | nil =>
      dsimp only [execute]
      split
      · exact ⟨rfl, nofun⟩
      · rename_i manager hm
        exact ⟨rfl, _, getElem?_setManager_self hm, refuses_of_sound hf rfl⟩
  | swapPersist _ crls =>
    obtain ⟨rfl, hr⟩ := h
    cases crls with
    | nil => exact ⟨rfl, fun _ => hr⟩
    | cons => exact ⟨rfl, hr⟩
  | swapInsert =>
    have hk := hk h.2
    dsimp only [execute] at hk ⊢
    split at hk
    · exact ⟨h.1, hk⟩
    · exact ⟨h.1, hk⟩
  | swapUpdate => exact ⟨h.1, hk h.2⟩
  | _ => exact h.elim

theorem follows_step (choice : Choice) : (step codec choice s f).2.Follows controller
      (Refused cert serial controller (step codec choice s f).1) := by
  have hw := h.imp fun hr => hr.wait choice.elapsed
  unfold step
  split
  · exact follows_failed hw
  · exact follows_execute hw (hf.mono (s.now_le_wait choice.elapsed))

end Follows

section Runs

variable {s : System (World π) (Frame π)} {d : Nat}

/-- The invariant after a call of `swap_verifier` was started, as call number `d`: once it
has begun, no call prepares a verifier from an older read. -/
structure Kept (cert : ServiceCertificate) (serial : List Nat) (controller d : Nat)
    (s : System (World π) (Frame π)) : Prop where
  mem : cert ∈ s.shared.certificates
  call : ∃ f, s.calls[d]? = some f ∧
    f.Follows controller (Refused cert serial controller s.shared)
  sound : s.calls[d]? ≠ some (.enter (.swapVerifier controller)) →
    ∀ g ∈ s.calls, g.Sound cert serial controller s.shared.now

theorem Kept.begin (hmem : cert ∈ s.shared.certificates) :
    Kept cert serial controller s.calls.length
      ((controllers codec).move s (.start (.swapVerifier controller))) where
  mem := hmem
  call := ⟨_, Calls.getElem?_calls_start s _, rfl⟩
  sound hb := absurd (Calls.getElem?_calls_start s _) hb

variable (h : Kept cert serial controller d s)

include h

theorem Kept.started (operation) :
    Kept cert serial controller d ((controllers codec).move s (.start operation)) := by
  obtain ⟨f, hc, hf⟩ := h.call
  have hs : (s.calls ++ [Frame.enter operation])[d]? = s.calls[d]? :=
    List.getElem?_append_left (List.getElem?_eq_some_iff.1 hc).1
  refine ⟨h.mem, ⟨f, hs.trans hc, hf⟩, ?_⟩
  intro hb g hg
  rcases mem_append.1 hg with hg | hg
  · refine h.sound ?_ g hg
    rw [← hs]
    exact hb
  · obtain rfl := mem_singleton.1 hg
    trivial

theorem Kept.sound_of_begun (hc : s.calls[d]? = some f)
    (hb : f ≠ .enter (.swapVerifier controller)) :
    ∀ g ∈ s.calls, g.Sound cert serial controller s.shared.now := by
  refine h.sound ?_
  rw [hc]
  exact fun heq => hb (Option.some.inj heq)

/-- The call itself has read nothing that is too old. -/
theorem Kept.sound_call (hc : s.calls[d]? = some f) :
    f.Sound cert serial controller s.shared.now := by
  by_cases hb : f = .enter (.swapVerifier controller)
  · subst hb
    trivial
  · exact h.sound_of_begun hc hb f (mem_of_getElem? hc)

variable {choice : Choice} (hrevoked : cert.revokedAt.isSome)
  (hserial : parseSerialString cert.serialNumber = some serial)

include hrevoked hserial

theorem Kept.step_call (hc : s.calls[d]? = some f) (hok : swapsAlone s (.run d choice) = true) :
    Kept cert serial controller d
      ⟨(step codec choice s.shared f).1, s.calls.set d (step codec choice s.shared f).2⟩ := by
  have hs := h.sound_call hc
  obtain ⟨_, hc', hf⟩ := h.call
  obtain rfl := Option.some.inj (hc.symm.trans hc')
  refine ⟨mem_certificates_step choice hrevoked h.mem, ?_, ?_⟩
  · refine ⟨_, ?_, follows_step hf hs choice⟩
    exact getElem?_set_self_of_eq_some hc _
  intro _ g hmem
  rcases mem_or_eq_of_mem_set hmem with hg | rfl
  · refine Frame.Sound.mono ?_ (now_le_step choice)
    by_cases hb : f = .enter (.swapVerifier controller)
    · -- The call begins: no other one is preparing a verifier.
      subst hb
      simp only [swapsAlone, hc, all_eq_true, not_eq_true'] at hok
      exact Frame.sound_of_not_preparing (hok g hg)
    · exact h.sound_of_begun hc hb g hg
  · exact sound_step hs h.mem hrevoked hserial choice

theorem Kept.step_other {t} (hc : s.calls[t]? = some f) (htd : t ≠ d) :
    Kept cert serial controller d
      ⟨(step codec choice s.shared f).1, s.calls.set t (step codec choice s.shared f).2⟩ := by
  obtain ⟨f', hc', hf⟩ := h.call
  have hsa : (s.calls.set t (step codec choice s.shared f).2)[d]? = s.calls[d]? :=
    getElem?_set_ne htd
  refine ⟨mem_certificates_step choice hrevoked h.mem, ⟨f', hsa.trans hc', ?_⟩, ?_⟩
  · by_cases hb : f' = .enter (.swapVerifier controller)
    · subst hb
      exact rfl
    · have hs := h.sound_of_begun hc' hb f (mem_of_getElem? hc)
      exact hf.imp fun hr => hr.of_step hs choice
  · intro hb g hg
    rw [hsa] at hb
    rcases mem_or_eq_of_mem_set hg with hg | rfl
    · exact (h.sound hb g hg).mono (now_le_step choice)
    · have hs := h.sound hb f (mem_of_getElem? hc)
      exact sound_step hs h.mem hrevoked hserial choice

omit h hrevoked hserial

end Runs

/-! ## Calls that overlap -/

def oneCertificate : World SignedCrl where
  now := 0
  certificates := [⟨"ca", "01", 7, 1000, none, none⟩]
  crlCache := []
  managers := [⟨⟨"ca", []⟩, ["ca"], 1, ⟨["ca"], [signCrlWithTimes "ca" [] 0 0]⟩, []⟩]

def revokeIt : Operation := .revoke (.certificate "ca" "01") .serviceDeactivated

def revokedCertificate : ServiceCertificate :=
  ⟨"ca", "01", 7, 1000, some 0, some .serviceDeactivated⟩

/-- The reload task has read the revoked certificates when the certificate is revoked. -/
def reloadBegun : List (Move Operation Choice) :=
  [.start (.swapVerifier 0), .run 0 {}, .run 0 {}, .start revokeIt, .run 1 {}, .run 1 {}]

/-- The revocation loop swaps the verifier, and then the reload task installs its own. -/
def reloadLast : List (Move Operation Choice) :=
  [.run 2 {}, .run 2 {}, .run 2 {}, .run 2 {}, .run 2 {}, .run 2 {}, .run 0 {}]

/-- The reload task has returned when the revocation loop swaps the verifier; another call
follows once that has installed its verifier. -/
def reloadFirst : List (Move Operation Choice) :=
  [.start (.swapVerifier 0), .run 0 {}, .run 0 {}, .start revokeIt, .run 1 {}, .run 1 {},
    .run 0 {}, .run 0 {}, .run 0 {}, .run 0 {}]

def swapTurns : List (Move Operation Choice) :=
  [.run 2 {}, .run 2 {}, .run 2 {}, .start (.swapVerifier 0), .run 3 { elapsed := 10 },
    .run 2 {}, .run 2 {}, .run 3 {}, .run 3 {}, .run 2 {}, .run 2 {}]

end Uptrakit.Pki.Crl
