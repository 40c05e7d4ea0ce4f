import Uptrakit.Pki.Crl

/-!
# The steps of the CRL calls

What a step can do to the tables and to the controllers (`Effect`), and what a CRL has to
do with a certificate that was revoked before.
-/

namespace Uptrakit.Pki.Crl

open Concurrent List

/-! ## Revoked certificates -/

section Revoked

variable {π : Type} {codec : PemCodec π} {cert : ServiceCertificate} {serial : List Nat}

variable {now : Int} {ca : String} {revoked : List RevokedCertParams}

/-- While the certificate is valid, the CRL lists it if it is one of the certificate's CA. -/
def SignedCrl.Covers (cert : ServiceCertificate) (serial : List Nat) (now : Int)
    (crl : SignedCrl) : Prop :=
  crl.issuer = cert.caFingerprint → now < cert.notAfter → crl.lists serial = true

theorem SignedCrl.Covers.mono {now'} {crl : SignedCrl} (h : crl.Covers cert serial now)
    (hn : now ≤ now') : crl.Covers cert serial now' := by
  intro hi hv
  exact h hi (hn.trans_lt hv)

/-- The same of the certificates that a query has found. -/
def Found (cert : ServiceCertificate) (serial : List Nat) (now : Int) (ca : String)
    (revoked : List RevokedCertParams) : Prop :=
  ca = cert.caFingerprint → now < cert.notAfter →
    ∃ params ∈ revoked, params.serialNumber = serial

theorem Found.mono {now'} (h : Found cert serial now ca revoked) (hn : now ≤ now') :
    Found cert serial now' ca revoked := by
  intro hca hv
  exact h hca (hn.trans_lt hv)

theorem Found.covers (h : Found cert serial now ca revoked) (crlNumber signedAt) :
    (signCrlWithTimes ca revoked crlNumber signedAt).Covers cert serial now := by
  intro hi hv
  obtain ⟨params, hp, he⟩ := h hi hv
  exact any_eq_true.2 ⟨params, hp, beq_iff_eq.2 he⟩

/-- A query finds the certificates that are revoked when it is executed; the time that it
compares with may be earlier. -/
theorem found_query {s : World π} (ca : String) (hm : cert ∈ s.certificates)
    (hr : cert.revokedAt.isSome) (hs : parseSerialString cert.serialNumber = some serial)
    (hn : now ≤ s.now) :
    Found cert serial s.now ca (queryRevokedCertsForCa now s.certificates ca) := by
  rintro rfl hv
  have hg : now - hours 24 < cert.notAfter := by
    unfold hours
    omega
  refine ⟨⟨serial, cert.revokedAt.getD now, cert.revocationReason.map mapReason⟩, ?_, rfl⟩
  refine mem_filterMap.2 ⟨cert, mem_filter.2 ⟨hm, ?_⟩, ?_⟩
  · simp [hr, hg]
  · simp [hs]

@[simp] theorem World.wait_now (s : World π) (elapsed : Nat) :
    (s.wait elapsed).now = s.now + elapsed := rfl

theorem World.now_le_wait (s : World π) (elapsed : Nat) : s.now ≤ (s.wait elapsed).now := by
  rw [wait_now]
  omega

end Revoked

/-! ## What a step does to the world -/

section Effect

variable {π : Type} {codec : PemCodec π} {s s' : World π} {f : Frame π}

/-- The CRL that a call is about to write, with the time for `updated_at`. -/
def Frame.writing : Frame π → Option (SignedCrl × Int)
  | swapInsert _ crl _ now | swapUpdate _ crl _ now => some (crl, now)
  | bootInsert _ _ _ crl now | bootUpdate _ _ _ crl now => some (crl, now)
  | _ => none

variable (codec : PemCodec π) (s : World π) (f : Frame π) in
/-- What a step from a point can do to the tables and the controllers. -/
inductive Effect : World π → Prop
  | none : Effect s
  | issue (cert : ServiceCertificate) (hnew : cert.revokedAt = .none) :
      Effect { s with certificates := s.certificates ++ [cert] }
  | revoke (target reason now) (hf : f = .revokeCommit target reason now) : Effect
        { s with
          certificates := s.certificates.map fun cert =>
            if target.covers cert && cert.revokedAt.isNone then
              { cert with revokedAt := some now, revocationReason := some reason }
            else cert }
  | manage (controller manager) (manager' : Manager π)
      (hmanager : s.managers[controller]? = some manager)
      (hverifier : manager'.verifier = manager.verifier) : Effect (setManager s controller manager')
  | install (controller crlNumber ca crls revoked manager) (manager' : Manager π)
      (hf : f = .swapSign controller crlNumber ca [] crls revoked)
      (hmanager : s.managers[controller]? = some manager) (hverifier : manager'.verifier =
        ⟨manager.bundle, crls ++ [signCrlWithTimes ca revoked crlNumber s.now]⟩) :
      Effect (setManager s controller manager')
  | write (crl now rows) (hf : f.writing = some (crl, now))
      (hrows : ∀ row ∈ rows, row ∈ s.crlCache ∨ row = crl.row codec now) :
      Effect { s with crlCache := rows }
  | boot (manager) : Effect { s with managers := s.managers ++ [manager] }

variable {crl : SignedCrl} {controller : Nat} {new : Manager π}

theorem effect_of_persistInsert {now} (hi : persistInsert codec crl now s = some s')
    (hf : f.writing = some (crl, now)) : Effect codec s f s' := by
  unfold persistInsert at hi
  split at hi
  · cases hi
  · obtain rfl := Option.some.inj hi
    refine .write crl now _ hf ?_
    intro row hr
    rcases mem_append.1 hr with hr | hr
    · exact .inl hr
    · exact .inr (mem_singleton.1 hr)

theorem effect_persistUpdate {now} (hf : f.writing = some (crl, now)) :
    Effect codec s f (persistUpdate codec crl now s) := by
  refine .write crl now _ hf ?_
  intro row hr
  obtain ⟨row', hr', rfl⟩ := mem_map.1 hr
  split
  · exact .inr rfl
  · exact .inl hr'

theorem effect_enter (operation) : Effect codec s (.enter operation) (enter s operation).1 := by
  fun_cases enter s operation with
  | case1 | case2 | case4 | case5 | case7 | case9 | case10 => exact .none
  | case3 => exact .issue _ rfl
  | case6 controller snapshot manager hm => exact .manage controller manager _ hm rfl
  | case8 controller manager hm => exact .manage controller manager _ hm rfl

theorem effect_execute (f) : Effect codec s f (execute codec s f).1 := by
  fun_cases execute codec s f with
  | case1 operation => exact effect_enter operation
  | case2 target reason now => exact .revoke target reason now rfl
  | case6 controller crlNumber ca crls revoked _ manager hm =>
    exact .install controller crlNumber ca crls revoked manager _ rfl hm rfl
  | case9 | case21 =>
    rename_i hi
    exact effect_of_persistInsert hi rfl
  | case11 | case23 => exact effect_persistUpdate rfl
  | case13 => exact .boot _
  | _ => exact .none

variable (choice : Choice)

/-- Everything a step can do to the world, apart from the time that passes. -/
theorem effect_step (f) : Effect codec (s.wait choice.elapsed) f (step codec choice s f).1 := by
  unfold step
  split
  · exact .none
  · exact effect_execute f

variable {cert : ServiceCertificate}

theorem Effect.now_eq (h : Effect codec s f s') : s'.now = s.now := by
  cases h <;> rfl

theorem now_step : (step codec choice s f).1.now = s.now + choice.elapsed :=
  (effect_step choice f).now_eq

theorem now_le_step : s.now ≤ (step codec choice s f).1.now := by
  rw [now_step]
  omega

theorem mem_certificates_step (hr : cert.revokedAt.isSome)
    (hm : cert ∈ s.certificates) : cert ∈ (step codec choice s f).1.certificates := by
  have h : Effect codec (s.wait choice.elapsed) f _ := effect_step choice f
  generalize (step codec choice s f).1 = s' at h ⊢
  cases h with
  | none | manage | install | write | boot => exact hm
  | issue => exact mem_append_left _ hm
  | revoke =>
    refine mem_map.2 ⟨cert, hm, if_neg ?_⟩
    simp [Option.isSome_iff_ne_none.1 hr]

theorem getElem?_setManager_self {old} (h : s.managers[controller]? = some old) :
    (setManager s controller new).managers[controller]? = some new :=
  getElem?_set_self_of_eq_some h new

theorem getElem?_setManager_of_ne {controller'} (h : controller' ≠ controller) :
    (setManager s controller' new).managers[controller]? = s.managers[controller]? :=
  getElem?_set_ne h

end Effect

end Uptrakit.Pki.Crl
