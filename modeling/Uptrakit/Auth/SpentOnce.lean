import Uptrakit.Auth.MfaAttempts

/-!
# Second factors are spent once

A recovery code is spent by setting `used_at`, a TOTP step by raising
`last_used_step`.  Both writes are addressed by primary key, without a condition on
what the call has read.  Where the row still says what the call has read when the call
marks it, the lock on the row carries this up to the commit, and no factor is accepted
twice.
-/

namespace Uptrakit.Auth.SecondFactor

open Concurrent SecondFactor.Frame Option Database

def Outcome.factor : Outcome → Option Factor
  | .verified _ factor | .reAuthed factor => some factor
  | _ => Option.none

def Frame.accepts (factor : Factor) (f : Frame) : Bool := f.outcome.factor == some factor

/-- The condition on a step: a call marks a factor only while its row says what the call
has read, that the code is unused, or the step that was used last. -/
def markedAsRead (db : Database Row Frame) : Move Operation Choice → Bool
  | .start _ => true
  | .run t _ =>
    match db.tasks[t]? with
    | none => true
    | some task =>
      match task.frame with
      | .writeTotp _ _ totp _ | .reAuthWrite _ _ totp _ =>
        (selectOne (tableWhere Row.totp? (·.id == totp.id)) db.rows).all fun found =>
          found.2.lastUsedStep == totp.lastUsedStep
      | .writeCode _ _ codeId =>
        (selectOne (tableWhere Row.recoveryCode? (·.id == codeId)) db.rows).any fun found =>
          found.2.usedAt.isNone
      | _ => true

/-- The factor can be accepted. -/
def Unspent (rows : List (Option Row)) : Factor → Prop
  | .totp totpId step => ∃ k row, TotpAt rows k row ∧ row.id = totpId ∧
      ∀ last, row.lastUsedStep = some last → last < step
  | .recoveryCode codeId => ∃ k row, RecoveryCodeAt rows k row ∧ row.id = codeId ∧
      row.usedAt = none
  | .email => True

/-- The factor cannot be accepted again. -/
def Spent (rows : List (Option Row)) : Factor → Prop
  | .totp totpId step => ∃ k row last, TotpAt rows k row ∧ row.id = totpId ∧
      row.lastUsedStep = some last ∧ step ≤ last
  | .recoveryCode codeId => ∃ k row, RecoveryCodeAt rows k row ∧ row.id = codeId ∧
      row.usedAt ≠ none
  | .email => True

section Factors

variable {rows rows' : List (Option Row)} {factor : Factor} {writes : List (Nat × Option Row)}

variable (hunique : Unique Row.clash rows)

include hunique

theorem totpAt_unique {j k a b} (ha : TotpAt rows j a) (hb : TotpAt rows k b) (hid : a.id = b.id) :
    j = k :=
  hunique j k _ _ ha hb (by simp [Row.clash, hid])

theorem recoveryCodeAt_unique {j k a b} (ha : RecoveryCodeAt rows j a)
    (hb : RecoveryCodeAt rows k b) (hid : a.id = b.id) : j = k :=
  hunique j k _ _ ha hb (by simp [Row.clash, hid])

theorem Unspent.not_spent (h : Unspent rows factor)
    (hf : factor ≠ .email) : ¬ Spent rows factor := by
  intro hs
  cases factor with
  | totp =>
    obtain ⟨j, a, ha, rfl, hfr⟩ := h
    obtain ⟨k, b, last, hb, hid, hl, _⟩ := hs
    obtain rfl := totpAt_unique hunique hb ha hid
    rw [hb.eq ha] at hl
    have := hfr last hl
    omega
  | recoveryCode =>
    obtain ⟨j, a, ha, rfl, hun⟩ := h
    obtain ⟨k, b, hb, hid, hu⟩ := hs
    obtain rfl := recoveryCodeAt_unique hunique hb ha hid
    rw [hb.eq ha] at hu
    exact hu hun
  | email => exact hf rfl

theorem Unspent.others (h : Unspent rows factor) (hm : Marks rows factor writes)
    (hl : ∀ i v row, (i, v) ∈ writes → rows[i]? = some row → rows'[i]? = some row) :
    Unspent rows' factor := by
  cases hm with
  | email => trivial
  | totp _ hr =>
    obtain ⟨j, a, ha, hid, hf⟩ := h
    obtain rfl := totpAt_unique hunique ha hr hid
    exact ⟨j, a, hl _ _ _ (List.mem_singleton_self _) ha, hid, hf⟩
  | recoveryCode _ hr =>
    obtain ⟨j, a, ha, hid, hu⟩ := h
    obtain rfl := recoveryCodeAt_unique hunique ha hr hid
    exact ⟨j, a, hl _ _ _ (List.mem_singleton_self _) ha, hid, hu⟩
  | gone hg =>
    obtain ⟨j, a, ha, hid, -⟩ := h
    exact absurd hid (hg j a ha)

omit hunique

theorem Marks.spent (hm : Marks rows factor writes) (h : Unspent rows factor) :
    Spent (commitRows rows writes) factor := by
  cases hm with
  | email => trivial
  | @totp k row step hr =>
    rw [commitRows_singleton]
    exact ⟨k, _, step, getElem?_set_self_of_eq_some hr _, rfl, rfl, Int.le_refl step⟩
  | @recoveryCode k row now hr =>
    rw [commitRows_singleton]
    exact ⟨k, _, getElem?_set_self_of_eq_some hr _, rfl, some_ne_none now⟩
  | gone hg =>
    obtain ⟨j, a, ha, hid, -⟩ := h
    exact absurd hid (hg j a ha)

/-- Marking a factor leaves the others spent: steps only go up. -/
theorem Spent.marks {other} (hs : Spent rows other) (hunique : Unique Row.clash rows)
    (hm : Marks rows factor writes) (h : Unspent rows factor) :
    Spent (commitRows rows writes) other := by
  cases hm with
  | email | gone => rwa [commitRows_nil]
  | @totp k row step hr =>
    have hlt := (List.getElem?_eq_some_iff.mp hr).1
    rw [commitRows_singleton]
    cases other with
    | email => trivial
    | recoveryCode =>
      obtain ⟨j, a, ha, hid, hu⟩ := hs
      exact ⟨j, a, (getElem?_set_iff_of_ne hr (by nofun) (by nofun)).mpr ha, hid, hu⟩
    | totp =>
      obtain ⟨j, a, last, ha, hid, hl, hle⟩ := hs
      by_cases hjk : j = k
      · subst hjk
        obtain rfl := ha.eq hr
        obtain ⟨j', a', ha', hid', hf⟩ := h
        obtain rfl := totpAt_unique hunique ha' ha hid'
        rw [ha'.eq ha] at hf
        have hup := hf last hl
        refine ⟨j', _, step, (getElem?_set_eq_some_iff hlt).mpr (.inl ⟨rfl, rfl⟩), hid, rfl, ?_⟩
        omega
      · exact ⟨j, a, last, (getElem?_set_eq_some_iff hlt).mpr (.inr ⟨hjk, ha⟩), hid, hl, hle⟩
  | @recoveryCode k row now hr =>
    have hlt := (List.getElem?_eq_some_iff.mp hr).1
    rw [commitRows_singleton]
    cases other with
    | email => trivial
    | recoveryCode =>
      obtain ⟨j, a, ha, hid, hu⟩ := hs
      by_cases hjk : j = k
      · subst hjk
        obtain rfl := ha.eq hr
        exact ⟨j, _, (getElem?_set_eq_some_iff hlt).mpr (.inl ⟨rfl, rfl⟩), hid, some_ne_none now⟩
      · exact ⟨j, a, (getElem?_set_eq_some_iff hlt).mpr (.inr ⟨hjk, ha⟩), hid, hu⟩
    | totp =>
      obtain ⟨j, a, last, ha, hid, hl, hle⟩ := hs
      exact ⟨j, a, last, (getElem?_set_iff_of_ne hr (by nofun) (by nofun)).mpr ha, hid, hl, hle⟩

theorem Spent.set_challenge {i old new} (ho : ChallengeAt rows i old) (h : Spent rows factor) :
    Spent (rows.set i (some (.challenge new))) factor := by
  cases factor with
  | totp =>
    obtain ⟨k, row, last, hro, hr⟩ := h
    exact ⟨k, row, last, (getElem?_set_iff_of_ne ho (by nofun) (by nofun)).mpr hro, hr⟩
  | recoveryCode =>
    obtain ⟨k, row, hro, hr⟩ := h
    exact ⟨k, row, (recoveryCodeAt_set_iff ho).mpr hro, hr⟩
  | email => trivial

end Factors

/-! ## Runs -/

/-- What holds in every state of a run that meets the condition. -/
structure SpentOnce (crypto : Crypto) (db : Database Row Frame) : Prop where
  coherent : Coherent crypto db
  unspent : db.Each fun task => ∀ factor, task.frame.accepting = some factor →
    Unspent db.rows factor
  spent : ∀ f ∈ db.frames, ∀ factor, f.outcome.factor = some factor → Spent db.rows factor
  once : ∀ factor, factor ≠ .email → db.frames.countP (Frame.accepts factor) ≤ 1

theorem Frame.accepting_of_idle {f : Frame} (hf : f.idle = true) : f.accepting = none := by
  cases f <;> first | rfl | cases hf

theorem Holds.marks {rows task} (h : Holds rows task) {factor}
    (ha : task.frame.accepting = some factor) :
    ∃ writes, Marks rows factor writes ∧ ∀ k v, (k, v) ∈ writes → task.Wrote k := by
  cases h with
  | consume hm | reAuthCommit hm =>
    cases ha
    exact ⟨_, hm, fun k v hme => ⟨v, hme⟩⟩
  | commitSuccess hm =>
    cases ha
    exact ⟨_, hm, fun k v hme => ⟨v, List.mem_cons_of_mem _ hme⟩⟩
  | idle hf =>
    rw [show accepting _ = none from accepting_of_idle hf] at ha
    cases ha
  | writeTotp | commitFailure | reAuthWrite => cases ha

section Steps

variable {crypto : Crypto} {db db' : Database Row Frame} {t : Nat} {task task' : Task Row Frame}

variable {choice : Choice} {factor : Factor}

/-- What the condition says about the factor that is marked. -/
theorem unspent_of_marking (h : Coherent crypto db) (htask : db.tasks[t]? = some task)
    (hok : markedAsRead db (.run t choice) = true) (hm : Marking task.frame factor) {writes}
    (hma : Marks db.rows factor writes) : Unspent db.rows factor := by
  have hto : ∀ {totp : UserTotp} {step : Int} {k : Nat} {row : UserTotp},
      ((selectOne (tableWhere Row.totp? (·.id == totp.id)) db.rows).all fun found =>
        found.2.lastUsedStep == totp.lastUsedStep) = true →
      (∀ last, totp.lastUsedStep = some last → last < step) → TotpAt db.rows k row →
        row.id = totp.id → Unspent db.rows (.totp totp.id step) := by
    intro totp step k row hre hst hro hid
    have hs : selectOne (tableWhere Row.totp? (·.id == totp.id)) db.rows = some (k, row) := by
      refine selectOne_eq_some hro (by simp [tableWhere, Row.totp?, hid]) ?_
      intro j r a hr hpi
      obtain ⟨ht, hp⟩ := filter_eq_some_iff.mp hpi
      cases r <;> cases ht
      exact totpAt_unique h.keyed.rows hr hro ((beq_iff_eq.mp hp).trans hid.symm)
    rw [hs] at hre
    refine ⟨k, row, hro, hid, ?_⟩
    rw [show row.lastUsedStep = totp.lastUsedStep from beq_iff_eq.mp hre]
    exact hst
  simp only [markedAsRead, htask] at hok
  generalize hf : task.frame = f at hm hok
  cases hm with
  | email => trivial
  | recoveryCode =>
    rename_i req ch codeId
    dsimp only at hok
    cases hs : selectOne (tableWhere Row.recoveryCode? (·.id == codeId)) db.rows with
    | none =>
      rw [hs] at hok
      cases hok
    | some found =>
      rw [hs] at hok
      obtain ⟨hro, hid⟩ := recoveryCodeAt_of_selectOne hs
      exact ⟨found.1, found.2, hro, beq_iff_eq.mp hid, by simpa using hok⟩
  | @totp req ch totp step hst | @reAuth userId code totp step hst =>
    generalize hid : totp.id = totpId at hma
    cases hma with
    | totp _ hro =>
      rw [← hid]
      exact hto hok hst hro hid.symm

section Step

variable (h : SpentOnce crypto db) (hcoherent : Coherent crypto db')
  (htask : db.tasks[t]? = some task)
  (hact : db.Applies Row.clash t task
    (SecondFactor.step crypto choice (task.view db.rows) task.frame) db')
  (htasks : db'.tasks = db.tasks.set t task')

include h htask hact

/-- What the calls that do not take the step have marked. -/
theorem SpentOnce.unspent_others (u other) (hne : u ≠ t) (ho : db.tasks[u]? = some other)
    (hu : ∀ factor, other.frame.accepting = some factor → Unspent db.rows factor) :
    ∀ factor, other.frame.accepting = some factor → Unspent db'.rows factor := by
  intro factor ha
  obtain ⟨_, hm, hw⟩ := (h.coherent.holds u other ho).marks ha
  refine (hu factor ha).others h.coherent.keyed.rows hm ?_
  intro i v row hme hr
  exact Transactions.rows_of_locked h.coherent.exclusive htask hact ho hne (hw i v hme) hr

include hcoherent htasks

/-- A step that accepts nothing. -/
theorem SpentOnce.keep (hk : ∀ factor, Spent db.rows factor → Spent db'.rows factor)
    (ho : task'.frame.outcome.factor = task.frame.outcome.factor)
    (hu : ∀ factor, task'.frame.accepting = some factor → Unspent db'.rows factor) :
    SpentOnce crypto db' where
  coherent := hcoherent
  unspent := h.unspent.set htasks hu (h.unspent_others htask hact)
  spent := by
    intro f hf factor hfa
    apply hk
    rcases mem_frames_of_set htasks hf with hf | rfl
    · exact h.spent f hf factor hfa
    · exact h.spent task.frame (frame_mem_frames htask) factor (ho ▸ hfa)
  once := by
    intro factor hfa
    refine countP_frames_le_one htask htasks (h.once factor hfa) ?_
    rw [accepts, ho]
    exact .inl

/-- The call that commits the factor it has marked is the first to accept it. -/
theorem SpentOnce.accept (ha : task.frame.accepting = some factor)
    (ha' : task'.frame.accepting = none)
    (hou' : task'.frame.outcome.factor = some factor) (hs : Spent db'.rows factor)
    (hk : ∀ other, Spent db.rows other → Spent db'.rows other) : SpentOnce crypto db' where
  coherent := hcoherent
  unspent := by
    refine h.unspent.set htasks ?_ (h.unspent_others htask hact)
    rw [ha']
    nofun
  spent := by
    intro f hf other ho
    rcases mem_frames_of_set htasks hf with hf | rfl
    · exact hk other (h.spent f hf other ho)
    · rw [hou'] at ho
      cases ho
      exact hs
  once := by
    intro other ho
    refine countP_frames_le_one htask htasks (h.once other ho) ?_
    intro hac
    rw [accepts, hou', beq_iff_eq] at hac
    cases hac
    -- Nothing has accepted the factor before: it would be spent.
    refine .inr ?_
    intro f hf hfa
    exact (h.unspent t task htask factor ha).not_spent h.coherent.keyed.rows ho
      (h.spent f hf factor (beq_iff_eq.mp hfa))

end Step

theorem SpentOnce.step (h : SpentOnce crypto db) (hok : markedAsRead db (.run t choice) = true)
    (htask : db.tasks[t]? = some task)
    (hact : db.Applies Row.clash t task
      (SecondFactor.step crypto choice (task.view db.rows) task.frame) db') :
    SpentOnce crypto db' := by
  obtain ⟨hcoherent, task', htasks, he, hh⟩ := h.coherent.step htask hact
  generalize hfr : task'.frame = f' at he
  generalize hr : db'.rows = rows' at he
  have hunique := h.coherent.keyed.rows
  -- What a step that leaves the rows as they are has to say.
  have hq : rows' = db.rows → f'.outcome.factor = task.frame.outcome.factor →
      (∀ factor, f'.accepting = some factor → Unspent db.rows factor) → SpentOnce crypto db' := by
    rintro rfl ho hu
    refine h.keep hcoherent htask hact htasks ?_ (hfr ▸ ho) ?_
    · rw [hr]
      exact fun _ => id
    · rw [hr, hfr]
      exact hu
  have hma : ∀ factor, task.frame.accepting = some factor → Unspent db.rows factor :=
    h.unspent t task htask
  cases he with
  | quiet ho _ _ ha =>
    refine hq rfl (by rw [ho]) ?_
    intro factor hfa
    rcases ha with hn | hsa
    · rw [hn] at hfa
      cases hfa
    · exact hma factor (hsa ▸ hfa)
  | marked hmar ho _ _ ha =>
    refine hq rfl (by rw [ho, hmar.undecided.2]) ?_
    intro factor hfa
    rw [ha] at hfa
    cases hfa
    obtain ⟨_, hm, -⟩ := hh.marks (hfr ▸ ha)
    exact unspent_of_marking h.coherent htask hok hmar (hr ▸ hm)
  | loaded hf _ _ _ _ ho _ _ ha =>
    exact hq rfl (by rw [ho, hf]; rfl) (by rw [ha]; nofun)
  | guessed ho => exact hq rfl (by rw [ho]; rfl) nofun
  | dropped hf | lost _ hf => exact hq rfl (by rw [hf]; rfl) nofun
  | failed hf hro =>
    refine h.keep hcoherent htask hact htasks ?_ (by rw [hfr, hf]; rfl) ?_
    · intro factor hs
      rw [hr]
      exact hs.set_challenge hro
    · rw [hfr]
      nofun
  | verified hf hm hro =>
    have hu := hma _ (by rw [hf]; rfl)
    have hro' := hm.challengeAt_iff.mpr hro
    refine h.accept hcoherent htask hact htasks (by rw [hf]; rfl) (by rw [hfr]; rfl)
      (by rw [hfr]; rfl) ?_ ?_
    · rw [hr]
      exact (hm.spent hu).set_challenge hro'
    · intro other hs
      rw [hr]
      exact (hs.marks hunique hm hu).set_challenge hro'
  | reAuthed hf hm =>
    have hu := hma _ (by rw [hf]; rfl)
    refine h.accept hcoherent htask hact htasks (by rw [hf]; rfl) (by rw [hfr]; rfl)
      (by rw [hfr]; rfl) ?_ ?_
    · rw [hr]
      exact hm.spent hu
    · intro other hs
      rw [hr]
      exact hs.marks hunique hm hu

end Steps

section Runs

variable {crypto : Crypto} {start : List (Option Row)}

theorem SpentOnce.init (hunique : Unique Row.clash start) : SpentOnce crypto ⟨start, []⟩ where
  coherent := Coherent.init hunique
  unspent := each_init start
  spent := by
    intro f hf
    cases hf
  once := fun _ _ => Nat.zero_le 1

theorem SpentOnce.started {db} (h : SpentOnce crypto db) (operation) :
    SpentOnce crypto ((secondFactors crypto).move db (.start operation)) := by
  obtain ⟨hi, -, ho⟩ := operation.enter_spec
  refine ⟨h.coherent.started operation, ?_, ?_, ?_⟩
  · refine h.unspent.append ?_
    intro factor hfa
    cases (accepting_of_idle hi).symm.trans hfa
  · intro f hf factor hfa
    rcases Transactions.mem_frames_start.mp hf with hf | rfl
    · exact h.spent f hf factor hfa
    · cases (congrArg Outcome.factor ho).symm.trans hfa
  · intro factor hfa
    have hn : operation.enter.accepts factor = false := by
      rw [accepts, ho]
      rfl
    rw [Transactions.countP_frames_start hn]
    exact h.once factor hfa

/-- In every run in which the factors are marked as they were read, each recovery code
and each TOTP step is accepted by at most one call. -/
theorem second_factor_spent_once (hunique : Unique Row.clash start)
    {moves : List (Move Operation Choice)}
    (hm : Meets (secondFactors crypto).move (fun db m => markedAsRead db m = true) ⟨start, []⟩
      moves)
    {factor : Factor} (hf : factor ≠ .email) :
    ((secondFactors crypto).run ⟨start, []⟩ moves).frames.countP (Frame.accepts factor) ≤ 1 := by
  have h : SpentOnce crypto ((secondFactors crypto).run ⟨start, []⟩ moves) := by
    refine Transactions.run_invariant_of_meets ?_ ?_ (SpentOnce.init hunique) hm
    · intro db operation h _
      exact h.started operation
    · intro db t choice task db' h hok htask hact
      exact h.step hok htask hact
  exact h.once factor hf

end Runs

/-! ## Two endpoints, one factor -/

def factorRows : List (Option Row) :=
  [some (.challenge ⟨1, 7, "token", none, 0, 300, none⟩),
    some (.challenge ⟨2, 7, "second", none, 0, 300, none⟩),
    some (.totp ⟨3, 7, "246810", true, none⟩), some (.recoveryCode ⟨4, 7, "recovery", none⟩),
    some (.user ⟨7, true, none⟩)]

def recoveryAnswer (token : String) : MfaVerifyRequest := ⟨token, .recoveryCode, "recovery"⟩

def totpAnswer (token : String) : MfaVerifyRequest := ⟨token, .totp, "246810"⟩

/-- Both calls compare the factor before one of them, `winner`, marks it and commits. -/
def factorRace (first second : Operation) (winner : Nat) : List (Move Operation Choice) :=
  [.start first, .start second] ++ (List.replicate 3 [.run 0 {}, .run 1 {}]).flatten ++
    List.replicate 5 (.run winner {}) ++ List.replicate 5 (.run (1 - winner) {})

/-- One recovery code answers two challenges, and one TOTP step answers a challenge and
authenticates the user again. -/
theorem one_factor_accepted_twice :
    let run := fun moves => (secondFactors plainCrypto).run ⟨factorRows, []⟩ moves
    let codes := run (factorRace (.mfaVerify (recoveryAnswer "token"))
      (.mfaVerify (recoveryAnswer "second")) 0)
    let steps := run (factorRace (.mfaVerify (totpAnswer "token"))
      (.reAuth 7 none (some "246810")) 1)
    (codes.frames = [.returned (.mfaVerify (recoveryAnswer "token")) (.session (.recoveryCode 4)),
        .returned (.mfaVerify (recoveryAnswer "second")) (.session (.recoveryCode 4))] ∧
      codes.frames.countP (Frame.accepts (.recoveryCode 4)) = 2) ∧
      steps.frames = [.returned (.mfaVerify (totpAnswer "token")) (.session (.totp 3 0)),
          .returned (.reAuth 7 none (some "246810")) (.reAuth true (some (.totp 3 0)))] ∧
        steps.frames.countP (Frame.accepts (.totp 3 0)) = 2 := by
  decide

/-- The second call begins after the first one has committed. -/
def factorTurns : List (Move Operation Choice) :=
  [.start (.mfaVerify (recoveryAnswer "token")), .start (.mfaVerify (recoveryAnswer "second"))] ++
    List.replicate 8 (.run 0 {}) ++ List.replicate 6 (.run 1 {})

theorem second_factor_spent_once_turns :
    let db := (secondFactors plainCrypto).run ⟨factorRows, []⟩ factorTurns
    db.frames = [.returned (.mfaVerify (recoveryAnswer "token")) (.session (.recoveryCode 4)),
        .returned (.mfaVerify (recoveryAnswer "second")) (.invalid false)] ∧
      db.frames.countP (Frame.accepts (.recoveryCode 4)) ≤ 1 :=
  ⟨by decide, second_factor_spent_once (unique_of_pairwise Row.clash_symm (by decide))
    (by decide) (by decide)⟩

end Uptrakit.Auth.SecondFactor
