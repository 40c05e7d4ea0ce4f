import Uptrakit.Reload.Coordinator

/-!
# The TLS subsystem

The subsystem that swaps the certificate of the server
(`crates/core/controller-runtime/src/reload/tls_snapshot.rs`).  It loads a certificate when the
paths of a new configuration differ from those the process has booted with.  It keeps the
certificate it has replaced for a revert, and the one it has put in for the health check.
-/

namespace Uptrakit.Reload

open List

/-- The section `tls` of the configuration. -/
structure TlsConfig where
  certPath : String
  keyPath : String
  trustDomain : String := ""
  deriving DecidableEq

def TlsConfig.validate (c : TlsConfig) : Except String Unit :=
  if c.certPath.isEmpty ≠ c.keyPath.isEmpty then
    .error "tls.cert_path and tls.key_path must both be set or both be empty"
  else if c.trustDomain.toList.all fun ch => ch.isLower || ch.isDigit || ch == '.' || ch == '-' then
    .ok ()
  else .error ("tls.trust_domain contains invalid characters: " ++ c.trustDomain)

/-- The chain of certificates, the leaf first, and the key. -/
structure CertifiedKey where
  cert : List String
  key : String
  deriving DecidableEq

/-- What `load_and_build` returns, called by `validate` and called by `apply`. -/
structure Disk where
  onValidate : TlsConfig → Except String CertifiedKey
  onApply : TlsConfig → Except String CertifiedKey

structure TlsSnapshotReloadable where
  bootTls : TlsConfig
  resolver : CertifiedKey
  prior : Option CertifiedKey := none
  applied : Option CertifiedKey := none

def certPathsChanged (bootTls new : TlsConfig) : Bool :=
  new.certPath != bootTls.certPath || new.keyPath != bootTls.keyPath

namespace TlsSnapshotReloadable

variable (s : TlsSnapshotReloadable)

def validate (disk : Disk) (new : TlsConfig) : Except String Unit := do
  new.validate
  if new.trustDomain ≠ s.bootTls.trustDomain then
    .error "tls.trust_domain change requires restart"
  else if certPathsChanged s.bootTls new then
    if new.certPath.isEmpty && !s.bootTls.certPath.isEmpty then
      .error "removing the external certificate requires restart"
    else (disk.onValidate new).map fun _ => ()

def apply (disk : Disk) (new : TlsConfig) : TlsSnapshotReloadable × Except String Unit :=
  if certPathsChanged s.bootTls new then
    match disk.onApply new with
    | .error e => (s, .error e)
    | .ok ck =>
      ({ s with resolver := ck, prior := some s.resolver, applied := some ck }, .ok ())
  else ({ s with prior := none, applied := none }, .ok ())

def revert : TlsSnapshotReloadable :=
  match s.prior with
  | some prior => { s with resolver := prior, prior := none }
  | none => s

def healthCheck : Except String Unit :=
  match s.applied with
  | none => .ok ()
  | some applied =>
    if s.resolver.cert.head? = applied.cert.head? then .ok ()
    else .error "resolver leaf does not match the certificate applied this cycle"

end TlsSnapshotReloadable

open TlsSnapshotReloadable

/-! ## Cycles -/

section Cycles

variable {Env Delta : Type}

inductive Call (Env Delta : Type)
  | apply (env : Env) (delta : Delta)
  | revert (env : Env)

def ReloadableErased.call {State : Type} (r : ReloadableErased Env Delta State) (s : State) :
    Call Env Delta → State
  | .apply env delta => (r.apply env delta s).1
  | .revert env => (r.revert env s).1

def commits (cycle : Env × List Delta) : List (Call Env Delta) := cycle.2.map (.apply cycle.1)

/-- The calls of a cycle that fails when the subsystem has applied its deltas. -/
def reverts (cycle : Env × List Delta) : List (Call Env Delta) := commits cycle ++ [.revert cycle.1]

/-- The coordinator makes these calls. -/
theorem applySubsystem_eq_foldl {ι Config : Type} {State : ι → Type} [DecidableEq ι]
    (sys : System ι Env Delta Config State) (req : ReloadRequest ι Env Delta Config) (i)
    {deltas : List Delta} {c} (h : (applySubsystem sys req i deltas c).2 = .ok ()) :
    (applySubsystem sys req i deltas c).1.subsystems i =
      (commits (req.env, deltas)).foldl (sys.reloadable i).call (c.subsystems i) := by
  fun_induction applySubsystem sys req i deltas c with
  | case1 => rfl
  | case2 => cases h
  | case3 _ _ c result c' _ ih =>
    have hs : c'.subsystems i = result.1 := by
      unfold c' CycleState.await
      split <;> exact Function.update_self i _ _
    rw [ih h, hs]
    rfl

variable (tls? : Delta → Option TlsConfig) (disk : Env → Disk)

/-- `reloadable_erased_impl!`: deltas of other sections change nothing. -/
def tlsSnapshot : ReloadableErased Env Delta TlsSnapshotReloadable where
  name := "tls_snapshot"
  validate env delta s := (tls? delta).elim (.ok ()) (s.validate (disk env))
  apply env delta s := (tls? delta).elim (s, .ok ()) (s.apply (disk env))
  healthCheck _ s := s.healthCheck
  revert _ s := (s.revert, .ok ())

def changes (calls : List (Call Env Delta)) : List (Env × TlsConfig) :=
  calls.filterMap fun
    | .apply env delta => (tls? delta).map (env, ·)
    | .revert _ => none

def lastCert (files : Env × TlsConfig → CertifiedKey) :
    CertifiedKey → List (Env × TlsConfig) → CertifiedKey :=
  foldl fun _ => files

variable {files : Env × TlsConfig → CertifiedKey} {configs : List (Env × TlsConfig)}

theorem lastCert_filter {p : Env × TlsConfig → Bool} {cert}
    (h : ∀ config ∈ configs.getLast?, p config = true) :
    lastCert files cert (configs.filter p) = lastCert files cert configs := by
  rcases configs.eq_nil_or_concat with rfl | ⟨_, last, rfl⟩
  · rfl
  · simp [lastCert, h last (by simp)]

variable {tls? disk} {calls : List (Call Env Delta)} {s : TlsSnapshotReloadable} {env : Env}
  {delta : Delta} {cfg : TlsConfig}

theorem call_of_none (h : tls? delta = none) :
    (tlsSnapshot tls? disk).call s (.apply env delta) = s := by
  simp [ReloadableErased.call, tlsSnapshot, h]

theorem call_of_some (h : tls? delta = some cfg) :
    (tlsSnapshot tls? disk).call s (.apply env delta) = (s.apply (disk env) cfg).1 := by
  simp [ReloadableErased.call, tlsSnapshot, h]

theorem changes_of_none (h : tls? delta = none) :
    changes tls? (.apply env delta :: calls) = changes tls? calls := by
  simp [changes, h]

theorem changes_of_some (h : tls? delta = some cfg) :
    changes tls? (.apply env delta :: calls) = (env, cfg) :: changes tls? calls := by
  simp [changes, h]

/-- The configurations tell what the calls of committed cycles do. -/
theorem foldl_call (calls : List (Call Env Delta)) (hc : ∀ env, .revert env ∉ calls) :
    calls.foldl (tlsSnapshot tls? disk).call s =
      (changes tls? calls).foldl (fun s config => (s.apply (disk config.1) config.2).1) s := by
  induction calls generalizing s with
  | nil => rfl
  | cons call _ ih =>
    rw [foldl_cons, ih fun env hm => hc env (mem_cons_of_mem _ hm)]
    cases call with
    | revert env => exact absurd mem_cons_self (hc env)
    | apply _ delta =>
      cases ht : tls? delta with
      | none => rw [changes_of_none ht, call_of_none ht]
      | some => rw [changes_of_some ht, call_of_some ht, foldl_cons]

theorem resolver_foldl_apply
    (hf : ∀ config ∈ configs, (disk config.1).onApply config.2 = .ok (files config)) :
    (configs.foldl (fun s config => (s.apply (disk config.1) config.2).1) s).resolver =
      lastCert files s.resolver (configs.filter (certPathsChanged s.bootTls ·.2)) := by
  induction configs generalizing s with
  | nil => rfl
  | cons _ _ ih =>
    obtain ⟨hfi, hf⟩ := forall_mem_cons.mp hf
    rw [foldl_cons, ih hf, filter_cons, apply, hfi]
    split <;> rfl

variable (tls? disk files)

/-- After committed cycles the certificate on the paths of the last configuration is served if, and
only if, they are not the paths of the first one, or the certificate of the last configuration with
other paths is the same. -/
theorem served_follows_iff (s : TlsSnapshotReloadable) (cycles : List (Env × List Delta))
    (hf : ∀ config ∈ changes tls? (cycles.flatMap commits),
      (disk config.1).onApply config.2 = .ok (files config)) :
    let configs := changes tls? (cycles.flatMap commits)
    ((cycles.flatMap commits).foldl (tlsSnapshot tls? disk).call s).resolver =
        lastCert files s.resolver configs ↔
      (∀ config ∈ configs.getLast?, certPathsChanged s.bootTls config.2 = true) ∨
        lastCert files s.resolver (configs.filter (certPathsChanged s.bootTls ·.2)) =
          lastCert files s.resolver configs := by
  rw [foldl_call _ (by simp [commits]), resolver_foldl_apply hf]
  constructor
  · exact .inr
  · rintro (hl | hs)
    · exact lastCert_filter hl
    · exact hs

/-! ### Reverted swaps -/

/-- The call puts a certificate in, or clears what was put in before. -/
def Call.changesTls (bootTls : TlsConfig) : Call Env Delta → Bool
  | .apply env delta =>
    (tls? delta).any fun cfg => !certPathsChanged bootTls cfg || ((disk env).onApply cfg).isOk
  | .revert _ => false

/-- The last change has put in a certificate with another leaf, and was reverted since. -/
def Poisoned (s : TlsSnapshotReloadable) (calls : List (Call Env Delta)) : Prop :=
  ∃ pre env delta post cfg ck, calls = pre ++ .apply env delta :: post ∧ tls? delta = some cfg ∧
    certPathsChanged s.bootTls cfg = true ∧ (disk env).onApply cfg = .ok ck ∧
    (∀ call ∈ post, call.changesTls tls? disk s.bootTls = false) ∧ (∃ env, .revert env ∈ post) ∧
    (pre.foldl (tlsSnapshot tls? disk).call s).resolver.cert.head? ≠ ck.cert.head?

variable {tls? disk}

theorem bootTls_call (s : TlsSnapshotReloadable) (call : Call Env Delta) :
    ((tlsSnapshot tls? disk).call s call).bootTls = s.bootTls := by
  cases call with
  | revert env =>
    change s.revert.bootTls = _
    unfold revert
    split <;> rfl
  | apply env delta =>
    cases ht : tls? delta with
    | none => rw [call_of_none ht]
    | some cfg =>
      rw [call_of_some ht, apply]
      split
      · split <;> rfl
      · rfl

theorem bootTls_foldl (s : TlsSnapshotReloadable) (calls : List (Call Env Delta)) :
    (calls.foldl (tlsSnapshot tls? disk).call s).bootTls = s.bootTls := by
  induction calls generalizing s with
  | nil => rfl
  | cons call _ ih => rw [foldl_cons, ih, bootTls_call]

theorem revert_revert (s : TlsSnapshotReloadable) : s.revert.revert = s.revert := by
  rcases s with ⟨_, _, _ | _, _⟩ <;> rfl

theorem bootTls_revert (s : TlsSnapshotReloadable) : s.revert.bootTls = s.bootTls := by
  rcases s with ⟨_, _, _ | _, _⟩ <;> rfl

/-- A change that fails to load leaves the state. -/
theorem call_of_not_changesTls {env : Env} {delta : Delta}
    (h : (Call.apply env delta).changesTls tls? disk s.bootTls = false) :
    (tlsSnapshot tls? disk).call s (.apply env delta) = s := by
  cases ht : tls? delta with
  | none => exact call_of_none ht
  | some cfg =>
    rw [call_of_some ht, apply]
    simp only [Call.changesTls, ht, Option.any_some, Bool.or_eq_false_iff, Bool.not_eq_false'] at h
    rw [if_pos h.1]
    cases hl : (disk env).onApply cfg with
    | error e => rfl
    | ok ck => simp [hl, Except.isOk, Except.toBool] at h

/-- Between changes of TLS only the first revert has an effect. -/
theorem foldl_of_not_changesTls {post : List (Call Env Delta)}
    (hp : ∀ call ∈ post, call.changesTls tls? disk s.bootTls = false) :
    (∃ env, .revert env ∈ post) ∧ post.foldl (tlsSnapshot tls? disk).call s = s.revert ∨
      (∀ env, .revert env ∉ post) ∧ post.foldl (tlsSnapshot tls? disk).call s = s := by
  induction post generalizing s with
  | nil => exact .inr ⟨by simp, rfl⟩
  | cons call post ih =>
    obtain ⟨hc, hr⟩ := forall_mem_cons.1 hp
    cases call with
    | apply env delta =>
      rw [foldl_cons, call_of_not_changesTls hc]
      simpa using ih hr
    | revert env =>
      refine .inl ⟨⟨env, mem_cons_self⟩, ?_⟩
      rw [foldl_cons]
      obtain ⟨-, h⟩ | ⟨-, h⟩ := ih (s := s.revert) (by rwa [bootTls_revert])
      · exact h.trans (revert_revert s)
      · exact h

theorem exists_last {α : Type*} {p : α → Bool} {l : List α} (h : ∃ a ∈ l, p a = true) :
    ∃ pre a post, l = pre ++ a :: post ∧ p a = true ∧ ∀ b ∈ post, p b = false := by
  induction l with
  | nil => simp at h
  | cons a l ih =>
    by_cases hl : ∃ b ∈ l, p b = true
    · obtain ⟨pre, b, post, rfl, hb⟩ := ih hl
      exact ⟨a :: pre, b, post, rfl, hb⟩
    · simp only [not_exists, not_and, Bool.not_eq_true] at hl
      obtain ⟨b, hb, hpb⟩ := h
      rcases mem_cons.1 hb with rfl | hb
      · exact ⟨[], b, l, rfl, hpb, hl⟩
      · exact absurd hpb (by simp [hl b hb])

theorem last_unique {α : Type*} {p : α → Bool} {pre pre' post post' : List α} {a a' : α}
    (h : pre ++ a :: post = pre' ++ a' :: post') (ha : p a = true) (ha' : p a' = true)
    (hp : ∀ b ∈ post, p b = false) (hp' : ∀ b ∈ post', p b = false) :
    pre = pre' ∧ a = a' ∧ post = post' := by
  obtain ⟨t, ht, h⟩ | ⟨t, ht, h⟩ := append_eq_append_iff.1 h <;>
    rcases t with _ | ⟨b, t⟩ <;> simp_all

theorem poisoned_iff_of_last {pre post : List (Call Env Delta)}
    (hca : (Call.apply env delta).changesTls tls? disk s.bootTls = true)
    (hp : ∀ call ∈ post, call.changesTls tls? disk s.bootTls = false)
    (ht : tls? delta = some cfg) :
    Poisoned tls? disk s (pre ++ .apply env delta :: post) ↔
      certPathsChanged s.bootTls cfg = true ∧ ∃ ck, (disk env).onApply cfg = .ok ck ∧
        (∃ env, .revert env ∈ post) ∧
        (pre.foldl (tlsSnapshot tls? disk).call s).resolver.cert.head? ≠ ck.cert.head? := by
  constructor
  · rintro ⟨pre', env', delta', post', cfg', ck, heq, ht', hc, hl, hp', hr, hle⟩
    have hca' : (Call.apply env' delta').changesTls tls? disk s.bootTls = true := by
      simp [Call.changesTls, ht', hl, Except.isOk, Except.toBool]
    obtain ⟨rfl, ⟨⟩, rfl⟩ := last_unique heq hca hca' hp hp'
    obtain rfl := Option.some.inj (ht.symm.trans ht')
    exact ⟨hc, ck, hl, hr, hle⟩
  · rintro ⟨hc, ck, hl, hr, hle⟩
    exact ⟨pre, env, delta, post, cfg, ck, rfl, ht, hc, hl, hp, hr, hle⟩

theorem healthCheck_iff_not_poisoned
    (h : ∃ call ∈ calls, call.changesTls tls? disk s.bootTls = true) :
    (calls.foldl (tlsSnapshot tls? disk).call s).healthCheck = .ok () ↔
      ¬ Poisoned tls? disk s calls := by
  obtain ⟨pre, call, post, rfl, hc, hp⟩ := exists_last h
  cases call with
  | revert env => cases hc
  | apply env delta =>
    obtain ⟨cfg, ht, hcf⟩ := (Option.any_eq_true _ _).1 hc
    rw [poisoned_iff_of_last hc hp ht, foldl_append, foldl_cons, call_of_some ht, apply,
      bootTls_foldl]
    generalize pre.foldl (tlsSnapshot tls? disk).call s = before
    cases hch : certPathsChanged s.bootTls cfg with
    | false =>
      have ha := foldl_of_not_changesTls (s := ⟨s.bootTls, before.resolver, none, none⟩) hp
      obtain ⟨-, h⟩ | ⟨-, h⟩ := ha <;> simp [h, revert, healthCheck]
    | true =>
      cases hl : (disk env).onApply cfg with
      | error e => simp [hch, hl, Except.isOk, Except.toBool] at hcf
      | ok ck =>
        have ha := foldl_of_not_changesTls (s := ⟨s.bootTls, ck, before.resolver, ck⟩) hp
        obtain ⟨hr, h⟩ | ⟨hr, h⟩ := ha
        · simp [h, hr, revert, healthCheck]
        · simp [h, hr, healthCheck]

/-- After a swap that was reverted and any later calls, the health check succeeds if, and only if,
the last change of TLS was not reverted, or has not changed the leaf. -/
theorem health_after_revert_iff (tls? : Delta → Option TlsConfig) (disk : Env → Disk)
    (s : TlsSnapshotReloadable) (env : Env) (deltas : List Delta)
    (cfg : TlsConfig) (ck : CertifiedKey) (hs : cfg ∈ deltas.filterMap tls?)
    (hl : (disk env).onApply cfg = .ok ck) (later : List (Call Env Delta)) :
    ((reverts (env, deltas) ++ later).foldl (tlsSnapshot tls? disk).call s).healthCheck = .ok () ↔
      ¬ Poisoned tls? disk s (reverts (env, deltas) ++ later) := by
  apply healthCheck_iff_not_poisoned
  obtain ⟨delta, hd, ht⟩ := mem_filterMap.1 hs
  refine ⟨.apply env delta, by simp [reverts, commits, hd], ?_⟩
  simp [Call.changesTls, ht, hl, Except.isOk, Except.toBool]

end Cycles

/-! ## Certificates of two pairs of files -/

def tlsState : Bool → Type
  | true => TlsSnapshotReloadable
  | false => Unit

def fileOf (cfg : TlsConfig) : CertifiedKey := ⟨[cfg.certPath], cfg.keyPath⟩

def allFiles : Disk := ⟨fun cfg => .ok (fileOf cfg), fun cfg => .ok (fileOf cfg)⟩

def tlsPart : ReloadableErased Bool (TlsConfig ⊕ Nat) TlsSnapshotReloadable :=
  tlsSnapshot Sum.getLeft? fun _ => allFiles

def tlsSystem : System Bool Bool (TlsConfig ⊕ Nat) (TlsConfig × Nat) tlsState where
  order := [true, false]
  reloadable
    | true => tlsPart
    | false =>
      { name := "audit"
        validate := fun _ _ _ => .ok ()
        apply := fun _ _ s => (s, .ok ())
        healthCheck := fun healthy _ => if healthy then .ok () else .error "unhealthy"
        revert := fun _ s => (s, .ok ()) }
  buildDeltas current new :=
    (if current.1 = new.1 then [] else [.inl new.1]) ++
      if current.2 = new.2 then [] else [.inr new.2]
  sectionsToDeltas _ _ := []
  configPath := some "uptrakit.toml"

def tlsRequest (healthy : Bool) (new : TlsConfig × Nat) :
    Action Bool Bool (TlsConfig ⊕ Nat) (TlsConfig × Nat) :=
  .request ⟨.sighup, .ok new, .ok (), healthy, fun _ => false⟩

def oldPair : TlsConfig := ⟨"old.pem", "old.key", ""⟩

def newPair : TlsConfig := ⟨"new.pem", "new.key", ""⟩

def bootedTls : TlsSnapshotReloadable := ⟨oldPair, fileOf oldPair, none, none⟩

def booted : ReloadCoordinator Bool (TlsConfig × Nat) tlsState :=
  ⟨⟨.idle, fun | true => bootedTls | false => (), []⟩, (oldPair, 0)⟩

/-- The old pair is configured again, and the certificate of the new one is served. -/
theorem served_stays :
    let c := run tlsSystem booted [tlsRequest true (newPair, 0), tlsRequest true (oldPair, 0)]
    c.currentConfig = (oldPair, 0) ∧ resolver (c.subsystems true) = fileOf newPair :=
  ⟨rfl, rfl⟩

theorem served_follows_iff_newPair :
    (([(true, [.inl newPair])].flatMap commits).foldl tlsPart.call bootedTls).resolver =
      fileOf newPair :=
  (served_follows_iff Sum.getLeft? (fun _ => allFiles) (fileOf ·.2) bootedTls
    [(true, [.inl newPair])] (fun _ _ => rfl)).mpr (.inl (by decide))

/-- The swap is reverted, since the other subsystem is not healthy.  In the next cycle it is
healthy and the pair is not changed, but TLS fails the cycle. -/
theorem health_poisoned :
    let c := run tlsSystem booted [tlsRequest false (newPair, 0)]
    resolver (c.subsystems true) = fileOf oldPair ∧
      healthCheck (c.subsystems true) =
        .error "resolver leaf does not match the certificate applied this cycle" ∧
      (step tlsSystem c (tlsRequest true (oldPair, 1))).currentConfig = (oldPair, 0) :=
  ⟨rfl, rfl, rfl⟩

/-- The swap is reverted, and made again in a later cycle. -/
theorem health_after_revert_iff_again :
    ¬ Poisoned Sum.getLeft? (fun _ => allFiles) bootedTls
      (reverts (false, [.inl newPair]) ++ commits (true, [.inl newPair, .inr 1])) :=
  (health_after_revert_iff Sum.getLeft? (fun _ => allFiles) bootedTls false [.inl newPair] newPair
    (fileOf newPair) (by decide) rfl _).1 rfl

end Uptrakit.Reload
