import Uptrakit.Settings.Etag

/-!
# Optimistic locking

For an ETag at most one `PUT` should succeed, so that nobody overwrites a change made after the
version they have read.

This holds if no request passes the comparison with the cache while another one is between its
comparison and its refresh of the cache, or with an ETag with which a plugin config has been updated
(`one_success_per_etag`).  Two requests that are both compared before either has refreshed the cache
both succeed, and an update of a plugin config does not count the version up, so that its ETag may
be used again (`etag_used_twice`).
-/

namespace Uptrakit.Settings

open Concurrent Option List Bool

variable {κ : Type}

/-! ## The condition -/

namespace Frame

/-- The request has passed the comparison, and the middleware has not answered yet. -/
def underway : Frame κ → Bool
  | compare _ | answered _ _ => false
  | _ => true

def compares : Frame κ → Bool
  | compare _ => true
  | _ => false

def succeeded : Frame κ → Bool
  | answered _ r => r.isSuccess
  | _ => false

def put : Frame κ → Put κ
  | compare put | accessValidate put _ _ | accessProviders put _ | accessRegistration put _
  | accessLock put _ _ _ | accessUpdate put _ _ _ | accessSave put _ _ _ | setRegistration put _ _
  | setAuthentication put _ | accessRespond put | pluginLoad put _ _ | pluginFind put _ _
  | pluginCommit put _ _ | refreshRead put _ | refreshStore put _ _ | answered put _ => put

end Frame

def Put.ofPluginConfig (put : Put κ) : Bool :=
  match put.resource with
  | .accessSettings _ _ => false
  | .pluginConfig _ _ => true

/-- `If-Match` carries the ETag of the version in the cache. -/
structure Controller.Passes (s : Controller κ) (put : Put κ) : Prop where
  etagValue_eq : put.etagValue = some (stripEtag s.currentEtag)

instance (s : Controller κ) (put : Put κ) : Decidable (s.Passes put) :=
  decidable_of_iff (put.etagValue = some (stripEtag s.currentEtag)) ⟨.mk, (·.etagValue_eq)⟩

/-- A request passes the comparison only while no other one is under way, and not with an ETag with
which a plugin config has been updated. -/
def OneAtATime (s : System (Controller κ) (Frame κ)) : Move (Put κ) Choice → Prop
  | .start _ => True
  | .run t _ => ∀ f ∈ s.calls[t]?, f.compares = true → s.shared.Passes f.put →
      ∀ g ∈ s.calls, g.underway = false ∧
        (g.succeeded = true → g.put.ofPluginConfig = true → g.put.etagValue ≠ f.put.etagValue)

instance (s : System (Controller κ) (Frame κ)) (m : Move (Put κ) Choice) :
    Decidable (OneAtATime s m) :=
  match m with
  | .start _ => inferInstanceAs (Decidable True)
  | .run t _ => inferInstanceAs (Decidable (∀ f ∈ s.calls[t]?, _ → _ → _))

/-! ## Responses -/

variable {s : Controller κ} {put : Put κ} {ops : PluginConfigOps κ} {rejection : Response κ}

theorem compareEtag_of_passes (h : s.Passes put) : compareEtag s put = put.handler := by
  have h := h.etagValue_eq
  unfold Put.etagValue at h
  fun_cases compareEtag s put with
  | case1 hif | case2 hif =>
    rw [hif] at h
    cases h
  | case3 client hif hne =>
    rw [hif] at h
    exact absurd (some.inj h) hne
  | case4 => rfl

/-- A request that does not pass is answered with an error. -/
theorem compareEtag_of_not_passes (h : ¬ s.Passes put) :
    ∃ r : Response κ, r.isSuccess = false ∧ compareEtag s put = .answered put r := by
  fun_cases compareEtag s put with
  | case4 client hif heq =>
    refine absurd ⟨?_⟩ h
    simp only [Put.etagValue, hif, not_not.1 heq]
  | _ => exact ⟨_, rfl, rfl⟩

/-! ## What the requests know of the versions -/

/-- The version in the cache has been read from the database. -/
structure Valid (s : Controller κ) : Prop where
  nonneg : 0 ≤ s.tables.currentVersion
  cached_le : s.cached.getD 0 ≤ s.storedVersion

/-- `If-Match` carries the ETag of an earlier version than the one in the cache. -/
def Controller.Behind (s : Controller κ) (put : Put κ) : Prop :=
  ∃ v < s.cached.getD 0, put.etagValue = some (stripEtag (settingsEtag v))

/-- A request that is under way carries the ETag of the version in the cache.  From its commit on
the database is ahead of the cache, and after its success the cache is ahead of its ETag, unless it
has updated a plugin config. -/
def Sound (s : Controller κ) : Frame κ → Prop
  | .compare _ => True
  | .accessUpdate put _ _ statements => s.Passes put ∧ ∃ u, s.uncommitted = some u ∧
      s.tables.currentVersion < u.currentVersion + statements.count .bumpSettingsVersion
  | .accessSave put _ _ _ => s.Passes put ∧ ∃ u, s.uncommitted = some u ∧
      s.tables.currentVersion < u.currentVersion
  | .setRegistration put _ _ | .setAuthentication put _ | .accessRespond put =>
    s.Passes put ∧ s.cached.getD 0 < s.storedVersion
  | .pluginLoad put _ _ | .pluginFind put _ _ | .pluginCommit put _ _ =>
    s.Passes put ∧ put.ofPluginConfig = true
  | .refreshRead put _ =>
    s.Passes put ∧ (put.ofPluginConfig = false → s.cached.getD 0 < s.storedVersion)
  | .refreshStore put _ version =>
    s.Passes put ∧ (put.ofPluginConfig = false → s.cached.getD 0 < version) ∧
      s.cached.getD 0 ≤ version ∧ version ≤ s.storedVersion
  | .answered put r => r.isSuccess = true → put.ofPluginConfig = false → s.Behind put
  | .accessLock put _ _ statements => s.Passes put ∧ .bumpSettingsVersion ∈ statements
  | f => s.Passes f.put

/-- The frame of the request is sound, and no answer of a success. -/
structure Handled (s : Controller κ) (put : Put κ) (f : Frame κ) : Prop where
  sound : Sound s f
  succeeded : f.succeeded = false
  put_eq : f.put = put

section Handlers

variable {d : Deployment κ} {ω : Choice} {s : Controller κ} {put : Put κ}

theorem handled_refused {r : Response κ} (h : r.isSuccess = false) :
    Handled s put (.answered put r) :=
  ⟨fun hr => absurd (h.symm.trans hr) false_ne_true, h, rfl⟩

theorem handled_respond_error {status} (h : 300 ≤ status) (message) :
    Handled s put (respond put (errorResponse status message)) := by
  have hr : (errorResponse status message : Response κ).isSuccess = false := by
    simp [Response.isSuccess, errorResponse, Nat.not_lt.2 h]
  rw [respond, if_neg (by simp [hr])]
  exact handled_refused hr

theorem handled_compareEtag : Handled s put (compareEtag s put) := by
  by_cases h : s.Passes put
  · rw [compareEtag_of_passes h]
    unfold Put.handler
    split
    · exact ⟨h, rfl, rfl⟩
    · next hre => exact ⟨⟨h, by simp [Put.ofPluginConfig, hre]⟩, rfl, rfl⟩
  · obtain ⟨r, hr, heq⟩ := compareEtag_of_not_passes h
    rw [heq]
    exact handled_refused hr

variable (h : s.Passes put)

include h

variable (req : UpdateAccessSettingsRequest)

theorem handled_accessValidate (authMethod) :
    Handled s put (accessValidate put req authMethod) := by
  fun_cases accessValidate put req authMethod with
  | case1 | case2 => exact handled_respond_error (by decide) _
  | case3 | case4 => exact ⟨h, rfl, rfl⟩

theorem handled_accessProviders : Handled s put (accessProviders d s put req) := by
  fun_cases accessProviders d s put req with
  | case1 | case2 => exact handled_respond_error (by decide) _
  | case3 => exact ⟨h, rfl, rfl⟩

theorem handled_accessRegistration : Handled s put (accessRegistration ω s put req) := by
  fun_cases accessRegistration ω s put req with
  | case1 => exact handled_respond_error (by decide) _
  | case2 _ _ _ hu =>
    obtain ⟨_, -, ⟨⟩⟩ := Option.map_eq_some_iff.1 hu
    -- the statement for the mode bumps the version
    refine ⟨⟨h, mem_append_left _ (mem_append_left _ ?_)⟩, rfl, rfl⟩
    exact mem_cons_of_mem _ (mem_singleton_self _)

variable (hplugin : put.ofPluginConfig = true)

include hplugin

theorem handled_pluginLoad (id body) : Handled s put (pluginLoad d s put id body) := by
  fun_cases pluginLoad d s put id body with
  | case1 | case2 => exact handled_respond_error (by decide) _
  | case3 _ _ _ _ hr =>
    unfold rejectPluginConfig at hr
    split at hr
    · rename_i hre
      cases hr
      unfold rejectConfigModelNonePluginType at hre
      split at hre
      iterate 2
        cases hre
        exact handled_respond_error (by decide) _
      cases hre
    · dsimp only at hr
      split_ifs at hr
      cases hr
      exact handled_respond_error (by decide) _
  | case4 => exact ⟨⟨h, hplugin⟩, rfl, rfl⟩

theorem handled_pluginFind (id req) : Handled s put (pluginFind d ω s put id req) := by
  unfold pluginFind
  split
  · exact handled_respond_error (by decide) _
  split
  · rename_i e _
    exact handled_respond_error (by cases e <;> simp [PluginConfigError.status]) _
  · exact ⟨⟨h, hplugin⟩, rfl, rfl⟩

end Handlers

/-! ## Steps -/

/-- What a step leads to: the cache does not go back, and only a request that was under way
succeeds. -/
structure Stepped (s : Controller κ) (f : Frame κ) (s' : Controller κ) (f' : Frame κ) : Prop where
  valid : Valid s'
  sound : Sound s' f'
  cached_le : s.cached.getD 0 ≤ s'.cached.getD 0
  succeeded : f'.succeeded = true → f' = f ∨ f.underway = true
  put_eq : f'.put = f.put

section Steps

variable {d : Deployment κ} {ω : Choice} {s : Controller κ} {f f' : Frame κ}

/-- A step that only decides how to go on. -/
theorem Stepped.of_handled (hv : Valid s) (h : Handled s f.put f') : Stepped s f s f' :=
  ⟨hv, h.sound, le_rfl, fun hf => absurd (h.succeeded.symm.trans hf) false_ne_true, h.put_eq⟩

variable {s' : Controller κ}

/-- A step that writes to the transaction, or to the settings in memory. -/
theorem Stepped.of_tables (hv : Valid s) (ht : s'.tables = s.tables)
    (hc : s'.cached = s.cached) (h : Handled s' f.put f') : Stepped s f s' f' := by
  refine ⟨⟨?_, ?_⟩, h.sound, ?_, fun hf => absurd (h.succeeded.symm.trans hf) false_ne_true,
    h.put_eq⟩
  · rw [ht]
    exact hv.nonneg
  · rw [Controller.storedVersion, ht, hc]
    exact hv.cached_le
  · rw [hc]

theorem stepped_step (hv : Valid s) (hs : Sound s f) :
    Stepped s f (step d ω s f).1 (step d ω s f).2 := by
  cases f with
  | compare => exact .of_handled hv handled_compareEtag
  | accessValidate _ req authMethod =>
    exact .of_handled hv (handled_accessValidate hs req authMethod)
  | accessProviders _ req => exact .of_handled hv (handled_accessProviders hs req)
  | accessRegistration _ req =>
    exact .of_handled hv (handled_accessRegistration hs req)
  | accessLock =>
    obtain ⟨hp, hb⟩ := hs
    show Stepped s _ (Prod.fst (if s.uncommitted.isSome then _ else _))
      (Prod.snd (if s.uncommitted.isSome then _ else _))
    split
    · exact .of_handled hv ⟨⟨hp, hb⟩, rfl, rfl⟩
    · refine .of_tables hv rfl rfl ⟨⟨⟨hp.etagValue_eq⟩, s.tables, rfl, ?_⟩, rfl, rfl⟩
      have hc := count_pos_iff.2 hb
      dsimp only
      omega
  | accessUpdate _ _ _ statements =>
    obtain ⟨hp, u, hu, hve⟩ := hs
    cases statements with
    | nil =>
      refine .of_handled hv ⟨⟨hp, u, hu, ?_⟩, rfl, rfl⟩
      simpa using hve
    | cons statement =>
      refine .of_tables hv rfl rfl ⟨⟨⟨hp.etagValue_eq⟩, u.execute statement,
        congrArg (Option.map (Tables.execute · statement)) hu, ?_⟩, rfl, rfl⟩
      rw [count_cons] at hve
      show s.tables.currentVersion < _
      rw [Tables.currentVersion_execute, count_singleton]
      omega
  | accessSave _ _ _ statements =>
    obtain ⟨hp, u, hu, hve⟩ := hs
    cases statements with
    | nil =>
      have hst : s.storedVersion < u.currentVersion.toNat :=
        (Int.toNat_lt_toNat (hv.nonneg.trans_lt hve)).2 hve
      show Stepped s _ { s with tables := s.uncommitted.getD s.tables, uncommitted := none } _
      rw [hu]
      refine ⟨⟨?_, ?_⟩, ⟨⟨hp.etagValue_eq⟩, ?_⟩, le_rfl, nofun, rfl⟩
      · exact hv.nonneg.trans hve.le
      · exact hv.cached_le.trans hst.le
      · exact hv.cached_le.trans_lt hst
    | cons statement =>
      refine .of_tables hv rfl rfl ⟨⟨⟨hp.etagValue_eq⟩, u.execute statement,
        congrArg (Option.map (Tables.execute · statement)) hu, ?_⟩, rfl, rfl⟩
      show s.tables.currentVersion < _
      rw [Tables.currentVersion_execute]
      omega
  | setRegistration | setAuthentication =>
    exact .of_tables hv rfl rfl ⟨⟨⟨hs.1.etagValue_eq⟩, hs.2⟩, rfl, rfl⟩
  | accessRespond => exact .of_handled hv ⟨⟨hs.1, fun _ => hs.2⟩, rfl, rfl⟩
  | pluginLoad _ id body =>
    exact .of_handled hv (handled_pluginLoad hs.1 hs.2 id body)
  | pluginFind _ id req => exact .of_handled hv (handled_pluginFind hs.1 hs.2 id req)
  | pluginCommit =>
    -- the version stays as it is
    refine .of_tables hv rfl rfl ⟨⟨⟨hs.1.etagValue_eq⟩, fun ho => ?_⟩, rfl, rfl⟩
    cases hs.2.symm.trans ho
  | refreshRead =>
    exact .of_handled hv ⟨⟨hs.1, hs.2, hv.cached_le, le_rfl⟩, rfl, rfl⟩
  | refreshStore =>
    obtain ⟨hp, hlt, hle, hst⟩ := hs
    refine ⟨⟨hv.nonneg, hst⟩, ?_, hle, fun _ => .inr rfl, rfl⟩
    intro _ ho
    exact ⟨s.cached.getD 0, hlt ho, hp.etagValue_eq⟩
  | answered => exact ⟨hv, hs, le_rfl, fun _ => .inl rfl, rfl⟩

/-- A request that is not under way changes nothing. -/
theorem step_of_not_underway (hf : f.underway = false) : (step d ω s f).1 = s := by
  cases f with
  | compare | answered => rfl
  | _ => cases hf

/-- A request comes under way by passing the comparison. -/
theorem underway_step (h : (step d ω s f).2.underway = true) :
    f.underway = true ∨ f.compares = true ∧ s.Passes f.put := by
  cases f with
  | compare put =>
    refine .inr ⟨rfl, ?_⟩
    by_contra hp
    obtain ⟨r, -, heq⟩ := compareEtag_of_not_passes hp
    rw [show (step d ω s (.compare put)).2 = .answered put r from heq] at h
    cases h
  | answered => cases h
  | _ => exact .inl rfl

/-- What a request that is not under way knows stays true. -/
theorem Sound.mono (h : Sound s f) (hf : f.underway = false)
    (hc : s.cached.getD 0 ≤ s'.cached.getD 0) : Sound s' f := by
  cases f with
  | compare => trivial
  | answered =>
    intro hr ho
    obtain ⟨v, hv, heq⟩ := h hr ho
    exact ⟨v, hv.trans_le hc, heq⟩
  | _ => cases hf

theorem Sound.behind (h : Sound s f) (hf : f.succeeded = true)
    (ho : f.put.ofPluginConfig = false) : s.Behind f.put := by
  cases f with
  | answered => exact h hf ho
  | _ => cases hf

theorem underway_of_succeeded (hf : f.succeeded = true) : f.underway = false := by
  cases f with
  | answered => rfl
  | _ => cases hf

end Steps

theorem Controller.Behind.etagValue_ne {put'} (h : s.Behind put) (h' : s.Passes put') :
    put.etagValue ≠ put'.etagValue := by
  obtain ⟨v, hv, heq⟩ := h
  intro hs
  rw [heq, h'.etagValue_eq, some.injEq] at hs
  exact hv.ne (stripEtag_settingsEtag_inj hs)

/-! ## Runs -/

/-- At most one request is under way, none has succeeded with its ETag, and no two have succeeded
with the same one. -/
structure Ordered (s : System (Controller κ) (Frame κ)) : Prop where
  valid : Valid s.shared
  sound : ∀ f ∈ s.calls, Sound s.shared f
  alone : ∀ (i j : Nat) (f g : Frame κ), s.calls[i]? = some f → s.calls[j]? = some g →
    f.underway = true → g.underway = true → i = j
  fresh : ∀ f ∈ s.calls, f.underway = true → ∀ g ∈ s.calls, g.succeeded = true →
    g.put.etagValue ≠ f.put.etagValue
  distinct : ∀ (i j : Nat) (f g : Frame κ), s.calls[i]? = some f → s.calls[j]? = some g →
    f.succeeded = true → g.succeeded = true → f.put.etagValue = g.put.etagValue → i = j

namespace Ordered

variable {d : Deployment κ} {s : System (Controller κ) (Frame κ)}

theorem start (h : Ordered s) (put) : Ordered ((puts d).move s (.start put)) := by
  have ho : ∀ {i : Nat} {f : Frame κ}, (s.calls ++ [.compare put])[i]? = some f →
      f.underway = true ∨ f.succeeded = true → s.calls[i]? = some f := by
    intro i f hi hf
    rcases getElem?_concat_eq_some_iff.1 hi with hi | ⟨-, rfl⟩
    · exact hi
    · rcases hf with hf | hf <;> cases hf
  refine ⟨h.valid, ?_, ?_, ?_, ?_⟩
  · exact Calls.forall_calls_start h.sound trivial
  · intro i j f g hi hj hf hg
    exact h.alone i j f g (ho hi (.inl hf)) (ho hj (.inl hg)) hf hg
  · intro f hm hf g hm' hg
    obtain ⟨i, hi⟩ := mem_iff_getElem?.1 hm
    obtain ⟨j, hj⟩ := mem_iff_getElem?.1 hm'
    exact h.fresh f (mem_of_getElem? (ho hi (.inl hf))) hf g (mem_of_getElem? (ho hj (.inr hg))) hg
  · intro i j f g hi hj hf hg
    exact h.distinct i j f g (ho hi (.inr hf)) (ho hj (.inr hg)) hf hg

section Step

variable {t i : Nat} {ω : Choice} {f f' g : Frame κ} {s' : Controller κ}

variable (h : Ordered s) (hcall : s.calls[t]? = some f)

include h hcall

variable (hmove : Settings.step d ω s.shared f = (s', f'))

include hmove

/-- The other requests, after a step of one of them. -/
theorem sound_other (hst : Stepped s.shared f s' f') (hi : s.calls[i]? = some g) (hne : i ≠ t) :
    Sound s' g := by
  have hg := h.sound g (mem_of_getElem? hi)
  cases hf : f.underway with
  | false =>
    have hs := step_of_not_underway (d := d) (ω := ω) (s := s.shared) hf
    rw [hmove] at hs
    cases hs
    exact hg
  | true =>
    have ho : g.underway = false := by
      by_contra hu
      exact hne (h.alone i t g f hi hcall (not_eq_false _ ▸ hu) hf)
    exact hg.mono ho hst.cached_le

/-- A request that comes under way or goes on is the only one. -/
theorem not_underway_other (hok : OneAtATime s (.run t ω)) (hu : f'.underway = true)
    (hi : s.calls[i]? = some g) (hg : g.underway = true) : i = t := by
  rcases underway_step (by rwa [hmove]) with hf | ⟨hc, hp⟩
  · exact h.alone i t g f hi hcall hg hf
  · have hn := (hok f hcall hc hp g (mem_of_getElem? hi)).1
    cases hn.symm.trans hg

/-- No request has succeeded with the ETag of one that comes under way or goes on. -/
theorem etagValue_ne_underway (hok : OneAtATime s (.run t ω)) (hu : f'.underway = true)
    (hm : g ∈ s.calls) (hg : g.succeeded = true) : g.put.etagValue ≠ f.put.etagValue := by
  rcases underway_step (by rwa [hmove]) with hf | ⟨hc, hp⟩
  · exact h.fresh f (mem_of_getElem? hcall) hf g hm hg
  · cases hplugin : g.put.ofPluginConfig with
    | true => exact (hok f hcall hc hp g hm).2 hg hplugin
    | false => exact ((h.sound g hm).behind hg hplugin).etagValue_ne hp

omit hmove in
/-- A request that has succeeded before has not the ETag of one that succeeds now. -/
theorem etagValue_other (hst : Stepped s.shared f s' f') (hs : f'.succeeded = true)
    (hi : s.calls[i]? = some g) (hg : g.succeeded = true)
    (heq : g.put.etagValue = f'.put.etagValue) : i = t := by
  rcases hst.succeeded hs with hsa | hf
  · rw [hsa] at hs heq
    exact h.distinct i t g f hi hcall hg hs heq
  · rw [hst.put_eq] at heq
    exact absurd heq (h.fresh f (mem_of_getElem? hcall) hf g (mem_of_getElem? hi) hg)

theorem step (hok : OneAtATime s (.run t ω)) : Ordered ⟨s', s.calls.set t f'⟩ := by
  have hlt : t < s.calls.length := (List.getElem?_eq_some_iff.1 hcall).1
  have hs : Stepped s.shared f s' f' := by
    have := stepped_step (d := d) (ω := ω) h.valid (h.sound f (mem_of_getElem? hcall))
    rwa [hmove] at this
  have hse : ∀ {i : Nat} {g : Frame κ}, (s.calls.set t f')[i]? = some g →
      i = t ∧ f' = g ∨ i ≠ t ∧ s.calls[i]? = some g :=
    (getElem?_set_eq_some_iff hlt).1
  refine ⟨hs.valid, ?_, ?_, ?_, ?_⟩
  · intro g hg
    obtain ⟨i, hi⟩ := mem_iff_getElem?.1 hg
    rcases hse hi with ⟨-, rfl⟩ | ⟨hne, hi⟩
    · exact hs.sound
    · exact h.sound_other hcall hmove hs hi hne
  · intro i j g g' hi hj hg hg'
    rcases hse hi with ⟨rfl, rfl⟩ | ⟨-, hi'⟩ <;> rcases hse hj with ⟨rfl, rfl⟩ | ⟨-, hj'⟩
    · rfl
    · exact (h.not_underway_other hcall hmove hok hg hj' hg').symm
    · exact h.not_underway_other hcall hmove hok hg' hi' hg
    · exact h.alone i j g g' hi' hj' hg hg'
  · intro g hm hg g' hm' hg'
    obtain ⟨i, hi⟩ := mem_iff_getElem?.1 hm
    obtain ⟨j, hj⟩ := mem_iff_getElem?.1 hm'
    rcases hse hi with ⟨rfl, rfl⟩ | ⟨hne, hi'⟩ <;> rcases hse hj with ⟨rfl, rfl⟩ | ⟨-, hj'⟩
    · cases hg.symm.trans (underway_of_succeeded hg')
    · rw [hs.put_eq]
      exact h.etagValue_ne_underway hcall hmove hok hg (mem_of_getElem? hj') hg'
    · rcases hs.succeeded hg' with hsa | hf
      · rw [hsa] at hg' ⊢
        exact h.fresh g (mem_of_getElem? hi') hg f (mem_of_getElem? hcall) hg'
      · exact absurd (h.alone i _ g f hi' hcall hg hf) hne
    · exact h.fresh g (mem_of_getElem? hi') hg g' (mem_of_getElem? hj') hg'
  · intro i j g g' hi hj hg hg' heq
    rcases hse hi with ⟨rfl, rfl⟩ | ⟨-, hi'⟩ <;> rcases hse hj with ⟨rfl, rfl⟩ | ⟨-, hj'⟩
    · rfl
    · exact (h.etagValue_other hcall hs hg hj' hg' heq.symm).symm
    · exact h.etagValue_other hcall hs hg' hi' hg heq
    · exact h.distinct i j g g' hi' hj' hg hg' heq

end Step

end Ordered

/-- In every run in which a request passes the comparison only while no other one is under way, and
not with an ETag with which a plugin config has been updated, at most one request with an ETag
succeeds. -/
theorem one_success_per_etag (d : Deployment κ) (s : Controller κ) (hv : Valid s)
    (moves : List (Move (Put κ) Choice)) (hm : Meets (puts d).move OneAtATime ⟨s, []⟩ moves) :
    ∀ (i j : Nat) (put put' : Put κ) (r r' : Response κ),
      ((puts d).run ⟨s, []⟩ moves).calls[i]? = some (.answered put r) →
      ((puts d).run ⟨s, []⟩ moves).calls[j]? = some (.answered put' r') →
      r.isSuccess = true → r'.isSuccess = true → put.etagValue = put'.etagValue → i = j := by
  have ho : Ordered ((puts d).run ⟨s, []⟩ moves) := by
    refine Calls.run_invariant_of_meets ?_ ?_ ?_ hm
    · intro s put hs _
      exact hs.start put
    · intro s t ω f hs hok hcall
      exact hs.step hcall Prod.mk.eta.symm hok
    · refine ⟨hv, ?_, ?_, ?_, ?_⟩
      · intro f hf
        cases hf
      · intro i j f g hi
        cases hi
      · intro f hf
        cases hf
      · intro i j f g hi
        cases hi
  intro i j put put' r r' hi hj hr hr' heq
  exact ho.distinct i j _ _ hi hj hr hr' heq

/-! ## Requests in turn, and overlapping ones -/

section Example

/-- A controller without OIDC whose plugins accept every config. -/
def deployment : Deployment Unit where
  tenantId := 1
  oidc := false
  rejectDangerousCommands := false
  ops :=
    { supportsConfigs := fun _ => some true
      dangerousMatches := fun _ => []
      restoreConfigSecrets := fun _ config _ => config
      validateConfig := fun _ _ => pure ()
      pruneStaleSensitiveKeys := fun _ config => config
      assertNoSentinel := fun _ _ => pure ()
      sensitiveValueChangedFor := fun _ _ _ => false
      encrypt := fun _ => pure ()
      maskConfigSecrets := fun _ config => config
      capabilities := fun _ => [] }

/-- The settings have version 3, and there is a plugin config 7. -/
def controller : Controller Unit where
  cached := some 3
  registration := ⟨.closed, none, false⟩
  authentication := ⟨true, false⟩
  tables := ⟨fun _ => none, some 3⟩
  configs id := if id = 7 then some ⟨7, 1, "config", "plugin", (), true, 0, 0, none, none⟩ else none
  oidcProviders := []

def setMode (mode : RegistrationMode) : Put Unit :=
  ⟨some (.ascii "W/\"settings-v3\""), .accessSettings ⟨mode, none, none, none, none⟩ .password⟩

def rename (name : String) : Put Unit :=
  ⟨some (.ascii "W/\"settings-v3\""), .pluginConfig 7 (.ok ⟨some name, none, none⟩)⟩

def steps (t n : Nat) : List (Move (Put Unit) Choice) := List.replicate n (.run t {})

/-- The second request begins when the first one has been answered. -/
def inTurn : List (Move (Put Unit) Choice) :=
  .start (setMode .opened) :: steps 0 21 ++ .start (setMode .closed) :: steps 1 21

/-- The second request is compared before the first one has refreshed the cache. -/
def overlapping : List (Move (Put Unit) Choice) :=
  .start (setMode .opened) :: .start (setMode .closed) :: steps 0 1 ++ steps 1 1 ++ steps 0 20 ++
    steps 1 20

/-- Two updates of a plugin config, one after the other. -/
def renames : List (Move (Put Unit) Choice) :=
  .start (rename "first") :: steps 0 6 ++ .start (rename "second") :: steps 1 6

def answers (s : System (Controller Unit) (Frame Unit)) : List (Option String × Option Nat) :=
  s.calls.map fun f =>
    match f with
    | .answered put r => (put.etagValue, some r.status)
    | f => (f.put.etagValue, none)

/-- The second request with the ETag does not succeed. -/
theorem one_success_per_etag_inTurn :
    answers ((puts deployment).run ⟨controller, []⟩ inTurn) =
        [(some "settings-v3", some 200), (some "settings-v3", some 409)] ∧
      ∀ put r, ((puts deployment).run ⟨controller, []⟩ inTurn).calls[1]? = some (.answered put r) →
        put.etagValue = some "settings-v3" → r.isSuccess = false := by
  have hm : Meets (puts deployment).move OneAtATime ⟨controller, []⟩ inTurn := by
    decide +kernel
  have hv : Valid controller := ⟨by decide, by decide⟩
  refine ⟨by decide +kernel, ?_⟩
  intro put r hcall he
  by_contra hr
  have hf : ∃ f r', ((puts deployment).run ⟨controller, []⟩ inTurn).calls[0]? =
      some (.answered f r') ∧ r'.isSuccess = true ∧ f.etagValue = some "settings-v3" :=
    ⟨_, _, rfl, by decide +kernel, by decide +kernel⟩
  obtain ⟨put', r', hcall', hr', he'⟩ := hf
  have ho := one_success_per_etag deployment controller hv inTurn hm 1 0 put put' r r'
    hcall hcall' (not_eq_false _ ▸ hr) hr' (he.trans he'.symm)
  cases ho

/-- Requests that overlap succeed with the same ETag, and so do updates of a plugin config. -/
theorem etag_used_twice :
    answers ((puts deployment).run ⟨controller, []⟩ overlapping) =
        [(some "settings-v3", some 200), (some "settings-v3", some 200)] ∧
      answers ((puts deployment).run ⟨controller, []⟩ renames) =
        [(some "settings-v3", some 200), (some "settings-v3", some 200)] := by
  decide +kernel

end Example

end Uptrakit.Settings
