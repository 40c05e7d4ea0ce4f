import Uptrakit.Auth.SecondFactor

/-!
# Steps of the second-factor calls

What a call has written when it commits, and what its commit does to the rows.  The
calls change rows in three ways: a failed attempt is written into a challenge, an
accepted factor is marked and its challenge consumed, or a factor is marked alone.
-/

namespace Uptrakit.Auth.SecondFactor

open Concurrent List Database Row Task

def ChallengeAt (rows : List (Option Row)) (i : Nat) (ch : MfaChallenge) : Prop :=
  rows[i]? = some (some (.challenge ch))

def TotpAt (rows : List (Option Row)) (i : Nat) (totp : UserTotp) : Prop :=
  rows[i]? = some (some (.totp totp))

def RecoveryCodeAt (rows : List (Option Row)) (i : Nat) (code : UserRecoveryCode) : Prop :=
  rows[i]? = some (some (.recoveryCode code))

/-! ## Rows -/

section Rows

variable {rows : List (Option Row)} {i j : Nat}

theorem ChallengeAt.eq {a b} (ha : ChallengeAt rows i a) (hb : ChallengeAt rows i b) : a = b := by
  rw [ChallengeAt, ha] at hb
  simpa using hb

theorem TotpAt.eq {a b} (ha : TotpAt rows i a) (hb : TotpAt rows i b) : a = b := by
  rw [TotpAt, ha] at hb
  simpa using hb

theorem RecoveryCodeAt.eq {a b} (ha : RecoveryCodeAt rows i a) (hb : RecoveryCodeAt rows i b) :
    a = b := by
  rw [RecoveryCodeAt, ha] at hb
  simpa using hb

theorem challengeAt_of_selectOne {p : MfaChallenge → Bool} {ch}
    (h : selectOne (tableWhere challenge? p) rows = some (i, ch)) :
    ChallengeAt rows i ch ∧ p ch := by
  obtain ⟨row, hr, ht, hp⟩ := of_selectOne_tableWhere h
  cases row <;> cases ht
  exact ⟨hr, hp⟩

theorem totpAt_of_selectOne {p : UserTotp → Bool} {totp}
    (h : selectOne (tableWhere totp? p) rows = some (i, totp)) : TotpAt rows i totp ∧ p totp := by
  obtain ⟨row, hr, ht, hp⟩ := of_selectOne_tableWhere h
  cases row <;> cases ht
  exact ⟨hr, hp⟩

theorem recoveryCodeAt_of_selectOne {p : UserRecoveryCode → Bool} {code}
    (h : selectOne (tableWhere recoveryCode? p) rows = some (i, code)) :
    RecoveryCodeAt rows i code ∧ p code := by
  obtain ⟨row, hr, ht, hp⟩ := of_selectOne_tableWhere h
  cases row <;> cases ht
  exact ⟨hr, hp⟩

theorem Row.clash_symm (a b : Row) : a.clash b = b.clash a := by
  cases a <;> cases b <;> simp only [clash, Bool.beq_comm]

end Rows

/-! ## Calls in flight -/

inductive Outcome
  | none
  | invalid (req : MfaVerifyRequest)
  | verified (req : MfaVerifyRequest) (factor : Factor)
  | reAuthed (factor : Factor)

def Frame.outcome : Frame → Outcome
  | .loadUser req _ factor | .buildSession req _ factor => .verified req factor
  | .returned (.mfaVerify req) (.session factor) => .verified req factor
  | .returned (.mfaVerify req) (.error (some factor) _ _) => .verified req factor
  | .returned (.mfaVerify req) (.invalid _) => .invalid req
  | .returned (.reAuth _ _ _) (.reAuth true (some factor)) => .reAuthed factor
  | _ => .none

/-- The request and the challenge of a call that has loaded one and has not ended its
transaction. -/
def Frame.guessing : Frame → Option (MfaVerifyRequest × MfaChallenge)
  | .loadTotp req ch | .compareTotp req ch _ | .writeTotp req ch _ _ => some (req, ch)
  | .compareEmail req ch _ => some (req, ch)
  | .loadCodes req ch | .compareCodes req ch _ | .writeCode req ch _ => some (req, ch)
  | .recordFailure req ch | .commitFailure req ch _ => some (req, ch)
  | .consume req ch _ | .commitSuccess req ch _ => some (req, ch)
  | _ => none

/-- The request of a call whose code was compared and did not match, until its failure is
committed. -/
def Frame.failing : Frame → Option MfaVerifyRequest
  | .recordFailure req _ | .commitFailure req _ _ => some req
  | _ => none

def Frame.accepting : Frame → Option Factor
  | .consume _ _ factor | .commitSuccess _ _ factor | .reAuthCommit _ _ factor => some factor
  | _ => none

/-- The points from which a factor is marked. -/
inductive Marking : Frame → Factor → Prop
  | totp {req ch} {totp : UserTotp} {step}
      (hstep : ∀ last, totp.lastUsedStep = some last → last < step) :
      Marking (.writeTotp req ch totp step) (.totp totp.id step)
  | reAuth {userId code} {totp : UserTotp} {step}
      (hstep : ∀ last, totp.lastUsedStep = some last → last < step) :
      Marking (.reAuthWrite userId code totp step) (.totp totp.id step)
  | recoveryCode {req ch codeId} : Marking (.writeCode req ch codeId) (.recoveryCode codeId)
  | email {req ch hash} : Marking (.compareEmail req ch hash) .email

theorem Marking.undecided {f factor} (h : Marking f factor) :
    f.failing = none ∧ f.outcome = .none := by
  cases h <;> exact ⟨rfl, rfl⟩

/-- The uncommitted row of an accepted factor. -/
inductive Marks (rows : List (Option Row)) : Factor → List (Nat × Option Row) → Prop
  | email : Marks rows .email []
  | totp {k row} (step) (hrow : TotpAt rows k row) :
      Marks rows (.totp row.id step) [(k, some (.totp { row with lastUsedStep := some step }))]
  | recoveryCode {k row} (now) (hrow : RecoveryCodeAt rows k row) :
      Marks rows (.recoveryCode row.id)
        [(k, some (.recoveryCode { row with usedAt := some now }))]
  | gone {codeId} (hgone : ∀ k row, RecoveryCodeAt rows k row → row.id ≠ codeId) :
      Marks rows (.recoveryCode codeId) []

def Frame.idle : Frame → Bool
  | .writeTotp _ _ _ _ | .commitFailure _ _ _ | .consume _ _ _ | .commitSuccess _ _ _ => false
  | .reAuthWrite _ _ _ _ | .reAuthCommit _ _ _ => false
  | _ => true

variable (rows : List (Option Row)) in
/-- What a call has written at the point where it stands. -/
inductive Holds : Task Row Frame → Prop
  | idle {f : Frame} (hf : f.idle = true) : Holds ⟨f, [], []⟩
  | writeTotp {req ch} {totp : UserTotp} {step}
      (hstep : ∀ last, totp.lastUsedStep = some last → last < step) :
      Holds ⟨.writeTotp req ch totp step, [], []⟩
  | consume {req ch factor writes} (hmarks : Marks rows factor writes) :
      Holds ⟨.consume req ch factor, writes, []⟩
  | commitSuccess {req} {ch : MfaChallenge} {row factor writes i now}
      (hmarks : Marks rows factor writes) (hrow : ChallengeAt rows i row) (hid : row.id = ch.id) :
      Holds ⟨.commitSuccess req ch factor,
        (i, some (.challenge { row with consumedAt := some now })) :: writes, []⟩
  | commitFailure {req} {ch : MfaChallenge} {row exhausted i now} (hrow : ChallengeAt rows i row)
      (hid : row.id = ch.id) : Holds ⟨.commitFailure req ch exhausted,
        [(i, some (.challenge (recordFailedAttempt now ch row)))], []⟩
  | reAuthWrite {userId code} {totp : UserTotp} {step}
      (hstep : ∀ last, totp.lastUsedStep = some last → last < step) :
      Holds ⟨.reAuthWrite userId code totp step, [], []⟩
  | reAuthCommit {userId code factor writes} (hmarks : Marks rows factor writes) :
      Holds ⟨.reAuthCommit userId code factor, writes, []⟩

def commitRows (rows : List (Option Row)) (writes : List (Nat × Option Row)) :
    List (Option Row) :=
  (⟨(), writes, []⟩ : Task Row Unit).view rows

@[simp] theorem commitRows_nil (rows) : commitRows rows [] = rows :=
  view_nil () rows

@[simp] theorem commitRows_singleton (rows i v) : commitRows rows [(i, v)] = rows.set i v := by
  rw [commitRows, view_singleton, map_nil, append_nil]

section Marked

variable {rows : List (Option Row)} {factor : Factor} {writes : List (Nat × Option Row)} {i : Nat}

theorem Marks.challengeAt_iff (h : Marks rows factor writes) {ch} :
    ChallengeAt (commitRows rows writes) i ch ↔ ChallengeAt rows i ch := by
  cases h with
  | email | gone => rw [commitRows_nil]
  | totp _ hr | recoveryCode _ hr =>
    rw [commitRows_singleton]
    exact getElem?_set_iff_of_ne hr nofun nofun

/-- The recovery codes that are there, marked or not, were there before. -/
theorem Marks.recoveryCode_before (h : Marks rows factor writes) {row}
    (hr : RecoveryCodeAt (commitRows rows writes) i row) :
    ∃ row', RecoveryCodeAt rows i row' ∧ row'.id = row.id := by
  cases h with
  | email | gone =>
    rw [commitRows_nil] at hr
    exact ⟨row, hr, rfl⟩
  | totp _ ht =>
    rw [commitRows_singleton] at hr
    exact ⟨row, (getElem?_set_iff_of_ne ht (by nofun) (by nofun)).mp hr, rfl⟩
  | recoveryCode _ hc =>
    rw [commitRows_singleton, RecoveryCodeAt,
      getElem?_set_eq_some_iff (List.getElem?_eq_some_iff.mp hc).1] at hr
    rcases hr with ⟨rfl, heq⟩ | ⟨-, hr⟩
    · cases heq
      exact ⟨_, hc, rfl⟩
    · exact ⟨row, hr, rfl⟩

end Marked

section Challenges

variable {rows : List (Option Row)} {i j : Nat} {old new : MfaChallenge}

/-- Writing a challenge leaves the other tables as they are. -/
theorem recoveryCodeAt_set_iff (ho : ChallengeAt rows i old) {code} :
    RecoveryCodeAt (rows.set i (some (.challenge new))) j code ↔ RecoveryCodeAt rows j code :=
  getElem?_set_iff_of_ne ho nofun nofun

end Challenges

variable (crypto : Crypto) (fails : Bool) (rows : List (Option Row)) (f : Frame) in
/-- What a step does to the committed rows, and the point it leads to; `fails` says
whether the step was made to fail. -/
inductive Effect : List (Option Row) → Frame → Prop
  | quiet {f' : Frame} (houtcome : f'.outcome = f.outcome) (hfailing : f'.failing = f.failing)
      (hguessing : f'.guessing = none ∨ f'.guessing = f.guessing)
      (haccepting : f'.accepting = none ∨ f'.accepting = f.accepting) : Effect rows f'
  | marked {f' : Frame} {factor} (hmarking : Marking f factor) (houtcome : f'.outcome = .none)
      (hfailing : f'.failing = none) (hguessing : f'.guessing = f.guessing)
      (haccepting : f'.accepting = some factor) : Effect rows f'
  | loaded {f' : Frame} {req ch i} (hf : f = .load req) (hrow : ChallengeAt rows i ch)
      (htoken : ch.tokenHash = crypto.hashToken req.mfaToken) (hopen : ch.consumedAt = none)
      (hcount : ch.attemptCount < maxMfaAttempts) (houtcome : f'.outcome = .none)
      (hfailing : f'.failing = none) (hguessing : f'.guessing = some (req, ch))
      (haccepting : f'.accepting = none) : Effect rows f'
  | guessed {req ch} (houtcome : f.outcome = .none) (hfailing : f.failing = none)
      (hguessing : f.guessing = some (req, ch)) : Effect rows (.recordFailure req ch)
  | dropped {req ch} (hf : f = .recordFailure req ch)
      (hwhy : fails = true ∨ ∀ i row, ChallengeAt rows i row → row.id ≠ ch.id) : Effect rows
        (.returned (.mfaVerify req) (.error none .internalServerError "Internal server error"))
  | lost {req ch exhausted} (hfails : fails = true) (hf : f = .commitFailure req ch exhausted) :
      Effect rows (.returned (.mfaVerify req) (.invalid exhausted))
  | failed {req ch row exhausted i now} (hf : f = .commitFailure req ch exhausted)
      (hrow : ChallengeAt rows i row) (hid : row.id = ch.id) :
      Effect (rows.set i (some (.challenge (recordFailedAttempt now ch row))))
        (.returned (.mfaVerify req) (.invalid exhausted))
  | verified {req ch row factor writes i now} (hf : f = .commitSuccess req ch factor)
      (hmarks : Marks rows factor writes) (hrow : ChallengeAt rows i row) (hid : row.id = ch.id) :
      Effect
        ((commitRows rows writes).set i (some (.challenge { row with consumedAt := some now })))
        (.loadUser req ch factor)
  | reAuthed {userId code factor writes} (hf : f = .reAuthCommit userId code factor)
      (hmarks : Marks rows factor writes) : Effect (commitRows rows writes)
        (.returned (.reAuth userId none (some code)) (.reAuth true (some factor)))

section Steps

variable {crypto : Crypto} {choice : Choice}
variable {db db' : Database Row Frame} {t : Nat} {task : Task Row Frame}

/-- A step of the task number `t`, from the point `f`. -/
def Advances (crypto : Crypto) (fails : Bool) (db : Database Row Frame) (t : Nat) (f : Frame)
    (db' : Database Row Frame) : Prop :=
  ∃ task', db'.tasks = db.tasks.set t task' ∧
    Effect crypto fails db.rows f db'.rows task'.frame ∧ Holds db'.rows task'

theorem acceptedStep_spec {totp code step} (h : acceptedStep crypto choice totp code = some step) :
    ∀ last, totp.lastUsedStep = some last → last < step := by
  intro last hl
  obtain ⟨-, hf⟩ := Option.filter_eq_some_iff.mp h
  rw [hl] at hf
  simpa using hf

variable {ch : MfaChallenge} {f : Frame} {req : MfaVerifyRequest}

theorem checkChallenge_spec {now found} (h : checkChallenge now found = .ok ch) :
    found = some ch ∧ ch.consumedAt = none ∧ ch.attemptCount < maxMfaAttempts := by
  revert h
  fun_cases checkChallenge now found with
  | case5 _ ho =>
    rintro ⟨⟩
    exact ⟨rfl, by simpa using ho, by omega⟩
  | _ => exact nofun

/-- The next point of a call that has written nothing. -/
theorem advances_of_next {f'} (h : db.Applies clash t ⟨f, [], []⟩ (.next f') db')
    (ho : f'.outcome = f.outcome) (hf : f'.failing = f.failing)
    (hg : f'.guessing = none ∨ f'.guessing = f.guessing) (ha : f'.accepting = none)
    (hh : Holds db.rows ⟨f', [], []⟩) : Advances crypto choice.fails db t f db' := by
  cases h
  exact ⟨_, rfl, .quiet ho hf hg (.inl ha), hh⟩

/-- The transaction of a call is rolled back. -/
theorem advances_of_rollback {f'} (h : db.Applies clash t task (.rollback f') db')
    (ho : f'.outcome = task.frame.outcome) (hf : f'.failing = task.frame.failing)
    (hg : f'.guessing = none) (ha : f'.accepting = none) (hi : f'.idle = true) :
    Advances crypto choice.fails db t task.frame db' := by
  cases h
  exact ⟨_, rfl, .quiet ho hf (.inl hg) (.inl ha), .idle hi⟩

/-- The challenge that `mfa_verify` has loaded. -/
theorem advances_of_load
    (hc : checkChallenge choice.now ((selectOne (tableWhere challenge?
      (·.tokenHash == crypto.hashToken req.mfaToken)) db.rows).map Prod.snd) = .ok ch)
    (h : db.Applies clash t ⟨.load req, [], []⟩ (selectMethod req ch) db') :
    Advances crypto choice.fails db t (.load req) db' := by
  obtain ⟨hf, ho, hco⟩ := checkChallenge_spec hc
  obtain ⟨⟨i, ch'⟩, hs, heq⟩ := Option.map_eq_some_iff.mp hf
  obtain rfl : ch' = ch := heq
  obtain ⟨hr, ht⟩ := challengeAt_of_selectOne hs
  have hl : ∀ {f' : Frame}, f'.outcome = .none → f'.failing = none →
      f'.guessing = some (req, ch') → f'.accepting = none →
      Effect crypto choice.fails db.rows (.load req) db.rows f' :=
    .loaded rfl hr (beq_iff_eq.mp ht) ho hco
  revert h
  fun_cases selectMethod req ch' with
  | case1 | case2 | case4 =>
    rintro ⟨⟩
    exact ⟨_, rfl, hl rfl rfl rfl rfl, .idle rfl⟩
  | case3 | case5 => exact fun h => advances_of_rollback h rfl rfl rfl rfl rfl

/-- A step of a call that has written nothing and decided nothing. -/
theorem advances_of_idle (hf : f.idle = true)
    (h : db.Applies clash t ⟨f, [], []⟩ (execute crypto choice db.rows f) db') :
    Advances crypto choice.fails db t f db' := by
  revert h
  fun_cases execute crypto choice db.rows f with
  | case1 | case3 | case8 | case27 | case29 =>
    exact fun h => advances_of_rollback h rfl rfl rfl rfl rfl
  | case2 req _ _ _ hc => exact advances_of_load hc
  | case5 | case10 | case12 =>
    rintro ⟨⟩
    exact ⟨_, rfl, .guessed rfl rfl rfl, .idle rfl⟩
  | case6 _ _ _ _ hst =>
    exact fun h => advances_of_next h rfl rfl (.inr rfl) rfl (.writeTotp (acceptedStep_spec hst))
  | case9 =>
    rintro ⟨⟩
    exact ⟨_, rfl, .marked .email rfl rfl rfl rfl, .consume .email⟩
  | case14 _ _ _ hs =>
    rintro ⟨⟩
    refine ⟨_, rfl, .marked .recoveryCode rfl rfl rfl rfl, .consume (.gone ?_)⟩
    intro k row hr hid
    have hn := of_selectOne_eq_none hs hr
    simp [tableWhere, recoveryCode?, hid] at hn
  | case15 _ _ _ _ _ hs =>
    obtain ⟨hr, hid⟩ := recoveryCodeAt_of_selectOne hs
    obtain rfl := beq_iff_eq.mp hid
    rintro ⟨⟩
    exact ⟨_, rfl, .marked .recoveryCode rfl rfl rfl rfl, .consume (.recoveryCode _ hr)⟩
  | case16 =>
    unfold updateChallenge
    split
    · rename_i hs
      rintro ⟨⟩
      refine ⟨_, rfl, .dropped rfl (.inr ?_), .idle rfl⟩
      intro i row hr hid
      have hn := of_selectOne_eq_none hs hr
      simp [tableWhere, challenge?, hid] at hn
    · rename_i i row hs
      obtain ⟨hr, hid⟩ := challengeAt_of_selectOne hs
      rintro ⟨⟩
      exact ⟨_, rfl, .quiet rfl rfl (.inr rfl) (.inl rfl), .commitFailure hr (beq_iff_eq.mp hid)⟩
  | case26 _ password _ hash =>
    refine fun h => advances_of_next h ?_ rfl (.inr rfl) rfl (.idle rfl)
    cases (crypto.verifyPassword password hash).getD false <;> rfl
  | case30 _ _ _ _ hst =>
    exact fun h => advances_of_next h rfl rfl (.inr rfl) rfl (.reAuthWrite (acceptedStep_spec hst))
  | case7 | case17 | case18 | case19 | case31 | case32 => cases hf
  | _ => exact fun h => advances_of_next h rfl rfl (.inr rfl) rfl (.idle rfl)

/-- Every step of a call has one of the effects. -/
theorem advances_of_applies (hh : Holds db.rows task)
    (h : db.Applies clash t task (step crypto choice (task.view db.rows) task.frame) db') :
    Advances crypto choice.fails db t task.frame db' := by
  unfold step at h
  split at h
  · next hfr =>
    rw [← hfr] at h
    cases h
    exact ⟨task, rfl, .quiet rfl rfl (.inr rfl) (.inr rfl), hh⟩
  split at h
  · next hfa =>
    cases h
    cases task.frame with
    | recordFailure => exact ⟨_, rfl, .dropped rfl (.inl hfa), .idle rfl⟩
    | commitFailure => exact ⟨_, rfl, .lost hfa rfl, .idle rfl⟩
    | _ => exact ⟨_, rfl, .quiet rfl rfl (.inl rfl) (.inl rfl), .idle rfl⟩
  cases hh with
  | idle hf =>
    rw [view_nil] at h
    exact advances_of_idle hf h
  | @writeTotp _ _ totp step hst | @reAuthWrite _ _ totp step hst =>
    simp only [view_nil, execute, updateTotp] at h
    split at h
    · exact advances_of_rollback h rfl rfl rfl rfl rfl
    · rename_i i row hs
      obtain ⟨hr, hid⟩ := totpAt_of_selectOne hs
      have hm : Marks db.rows (.totp totp.id step)
          [(i, some (.totp { row with lastUsedStep := some step }))] :=
        beq_iff_eq.mp hid ▸ .totp step hr
      cases h
      first
      | exact ⟨_, rfl, .marked (.totp hst) rfl rfl rfl rfl, .consume hm⟩
      | exact ⟨_, rfl, .marked (.reAuth hst) rfl rfl rfl rfl, .reAuthCommit hm⟩
  | @consume req ch factor writes hm =>
    simp only [execute, updateChallenge] at h
    split at h
    · exact advances_of_rollback h rfl rfl rfl rfl rfl
    · rename_i i row hs
      obtain ⟨hr, hid⟩ := challengeAt_of_selectOne hs
      cases h
      exact ⟨_, rfl, .quiet rfl rfl (.inr rfl) (.inr rfl),
        .commitSuccess hm (hm.challengeAt_iff.mp hr) (beq_iff_eq.mp hid)⟩
  | @commitSuccess req ch row factor writes i now hm hr hid =>
    cases h
    have hlt : i < db.rows.length := (List.getElem?_eq_some_iff.mp hr).1
    refine ⟨_, rfl, ?_, .idle rfl⟩
    refine (view_write (⟨.commitSuccess req ch factor, writes, []⟩ : Task Row Frame) hlt
      _ _).symm ▸ ?_
    exact .verified rfl hm hr hid
  | commitFailure hr hid =>
    cases h
    refine ⟨_, rfl, ?_, .idle rfl⟩
    simp only [view_singleton, map_nil, append_nil]
    exact .failed rfl hr hid
  | reAuthCommit hm =>
    cases h
    exact ⟨_, rfl, .reAuthed rfl hm, .idle rfl⟩

end Steps

/-! ## Keys -/

theorem keepsKeys_step (crypto choice rows f) :
    Database.KeepsKeys clash rows (step crypto choice rows f) := by
  unfold step
  split
  · trivial
  split
  · trivial
  fun_cases execute crypto choice rows f with
  | case2 req _ _ ch => fun_cases selectMethod req ch <;> trivial
  | case7 | case31 =>
    unfold updateTotp
    split
    · trivial
    · rename_i hs
      exact keepsKeys_update (totpAt_of_selectOne hs).1 fun row => by cases row <;> simp [clash]
  | case15 _ _ _ _ _ hs =>
    exact keepsKeys_update (recoveryCodeAt_of_selectOne hs).1
      fun row => by cases row <;> simp [clash]
  | case16 | case18 =>
    unfold updateChallenge
    split
    · trivial
    · rename_i hs
      exact keepsKeys_update (challengeAt_of_selectOne hs).1
        fun row => by cases row <;> simp [clash, recordFailedAttempt]
  | _ => trivial

/-! ## Runs -/

section Runs

variable {crypto : Crypto} {fails : Bool} {rows rows' : List (Option Row)} {f f' : Frame}

/-- Challenges stay, with their keys. -/
theorem Effect.challenge_kept (h : Effect crypto fails rows f rows' f') {j row}
    (hr : ChallengeAt rows j row) :
    ∃ row', ChallengeAt rows' j row' ∧ row'.id = row.id ∧ row'.tokenHash = row.tokenHash := by
  have hs : ∀ {base : List (Option Row)} {i : Nat} {old new : MfaChallenge},
      ChallengeAt base j row → ChallengeAt base i old → new.id = old.id →
        new.tokenHash = old.tokenHash →
          ∃ row', ChallengeAt (base.set i (some (.challenge new))) j row' ∧ row'.id = row.id ∧
            row'.tokenHash = row.tokenHash := by
    intro base i old new hr ho hid ht
    have hlt : i < base.length := (List.getElem?_eq_some_iff.mp ho).1
    by_cases hji : j = i
    · subst hji
      obtain rfl := hr.eq ho
      exact ⟨new, (getElem?_set_eq_some_iff hlt).mpr (.inl ⟨rfl, rfl⟩), hid, ht⟩
    · exact ⟨row, (getElem?_set_eq_some_iff hlt).mpr (.inr ⟨hji, hr⟩), rfl, rfl⟩
  cases h with
  | quiet | marked | loaded | guessed | dropped | lost => exact ⟨row, hr, rfl, rfl⟩
  | failed _ ho => exact hs hr ho rfl rfl
  | verified _ hm ho =>
    exact hs (hm.challengeAt_iff.mpr hr) (hm.challengeAt_iff.mpr ho) rfl rfl
  | reAuthed _ hm => exact ⟨row, hm.challengeAt_iff.mpr hr, rfl, rfl⟩

theorem Effect.recoveryCode_before (h : Effect crypto fails rows f rows' f') {j row}
    (hr : RecoveryCodeAt rows' j row) :
    ∃ row', RecoveryCodeAt rows j row' ∧ row'.id = row.id := by
  cases h with
  | failed _ ho =>
    exact ⟨row, (recoveryCodeAt_set_iff ho).mp hr, rfl⟩
  | verified _ hm ho =>
    have ho' := hm.challengeAt_iff.mpr ho
    exact hm.recoveryCode_before ((recoveryCodeAt_set_iff ho').mp hr)
  | reAuthed _ hm => exact hm.recoveryCode_before hr
  | _ => exact ⟨row, hr, rfl⟩

/-- The challenge that a call has loaded is there, with the hash of its token. -/
def Loaded (crypto : Crypto) (rows : List (Option Row)) (f : Frame) : Prop :=
  ∀ req ch, f.guessing = some (req, ch) →
    ∃ j row, ChallengeAt rows j row ∧ row.id = ch.id ∧
      row.tokenHash = crypto.hashToken req.mfaToken

theorem Loaded.effect {g} (hl : Loaded crypto rows g) (h : Effect crypto fails rows f rows' f') :
    Loaded crypto rows' g := by
  intro req ch hg
  obtain ⟨j, row, hr, hid, ht⟩ := hl req ch hg
  obtain ⟨row', hr', hid', ht'⟩ := h.challenge_kept hr
  exact ⟨j, row', hr', hid'.trans hid, ht'.trans ht⟩

theorem Loaded.step (hl : Loaded crypto rows f) (h : Effect crypto fails rows f rows' f') :
    Loaded crypto rows' f' := by
  cases h with
  | quiet _ _ hgu =>
    intro req ch hg
    rcases hgu with hn | hs
    · rw [hn] at hg
      cases hg
    · exact hl req ch (hs ▸ hg)
  | marked _ _ _ hgu =>
    intro req ch hg
    exact hl req ch (hgu ▸ hg)
  | loaded _ hr ht _ _ _ _ hgu =>
    intro req ch hg
    rw [hgu] at hg
    cases hg
    exact ⟨_, _, hr, rfl, ht⟩
  | guessed _ _ hgu =>
    intro req ch hg
    cases hg
    exact hl _ _ hgu
  | _ =>
    intro req ch hg
    cases hg

theorem Marks.others {factor writes} (h : Marks rows factor writes)
    (hl : ∀ i v row, (i, v) ∈ writes → rows[i]? = some row → rows'[i]? = some row)
    (hc : ∀ j row, RecoveryCodeAt rows' j row →
      ∃ row', RecoveryCodeAt rows j row' ∧ row'.id = row.id) : Marks rows' factor writes := by
  cases h with
  | email => exact .email
  | totp step hr => exact .totp step (hl _ _ _ (mem_singleton_self _) hr)
  | recoveryCode now hr =>
    exact .recoveryCode now (hl _ _ _ (mem_singleton_self _) hr)
  | gone hg =>
    refine .gone ?_
    intro j row hr
    obtain ⟨row', hr', hid⟩ := hc j row hr
    rw [← hid]
    exact hg j row' hr'

variable {task : Task Row Frame} {db : Database Row Frame}

/-- What a call has written stays what it is when other calls take steps. -/
theorem Holds.others (h : Holds rows task)
    (hl : ∀ i row, task.Wrote i → rows[i]? = some row → rows'[i]? = some row)
    (hc : ∀ j row, RecoveryCodeAt rows' j row →
      ∃ row', RecoveryCodeAt rows j row' ∧ row'.id = row.id) : Holds rows' task := by
  cases h with
  | idle hf => exact .idle hf
  | writeTotp hs => exact .writeTotp hs
  | consume hm =>
    exact .consume (hm.others (fun i v row hme => hl i row ⟨v, hme⟩) hc)
  | commitSuccess hm hr hid =>
    refine .commitSuccess (hm.others ?_ hc) (hl _ _ ⟨_, mem_cons_self⟩ hr) hid
    intro i v row hme
    exact hl i row ⟨v, mem_cons_of_mem _ hme⟩
  | commitFailure hr hid =>
    exact .commitFailure (hl _ _ ⟨_, mem_singleton_self _⟩ hr) hid
  | reAuthWrite hs => exact .reAuthWrite hs
  | reAuthCommit hm =>
    exact .reAuthCommit (hm.others (fun i v row hme => hl i row ⟨v, hme⟩) hc)

/-- What holds in every state of every run. -/
structure Coherent (crypto : Crypto) (db : Database Row Frame) : Prop where
  exclusive : db.Exclusive
  keyed : db.Keyed Row.clash
  holds : db.Each (Holds db.rows)
  loaded : db.Each fun task => Loaded crypto db.rows task.frame

theorem Coherent.init (hu : Unique clash rows) : Coherent crypto ⟨rows, []⟩ where
  exclusive := exclusive_init rows
  keyed := keyed_init hu
  holds := each_init rows
  loaded := each_init rows

theorem Operation.enter_spec (operation : Operation) :
    operation.enter.idle = true ∧ operation.enter.guessing = none ∧
      operation.enter.outcome = .none := by
  cases operation with
  | mfaVerify => exact ⟨rfl, rfl, rfl⟩
  | reAuth _ password totpCode =>
    cases password with
    | some => exact ⟨rfl, rfl, rfl⟩
    | none => cases totpCode <;> exact ⟨rfl, rfl, rfl⟩

theorem Coherent.started (h : Coherent crypto db) (operation) :
    Coherent crypto ((secondFactors crypto).move db (.start operation)) where
  exclusive := Transactions.exclusive_start h.exclusive operation
  keyed := h.keyed.append _
  holds := h.holds.append (.idle operation.enter_spec.1)
  loaded := by
    refine h.loaded.append ?_
    intro req ch hg
    cases operation.enter_spec.2.1.symm.trans hg

theorem Coherent.step {db' t choice} (h : Coherent crypto db) (ht : db.tasks[t]? = some task)
    (ha : db.Applies clash t task (step crypto choice (task.view db.rows) task.frame) db') :
    Coherent crypto db' ∧ ∃ task', db'.tasks = db.tasks.set t task' ∧
      Effect crypto choice.fails db.rows task.frame db'.rows task'.frame ∧
      Holds db'.rows task' := by
  obtain ⟨task', hta, he, hh⟩ := advances_of_applies (h.holds t task ht) ha
  refine ⟨⟨Transactions.exclusive_applies h.exclusive ht ha,
    h.keyed.applies clash_symm h.exclusive ht (keepsKeys_step crypto choice _ _) ha,
    ?_, ?_⟩, task', hta, he, hh⟩
  · refine Transactions.holds_applies h.exclusive ht ha h.holds hta hh ?_
    exact fun _ ho hlo => ho.others hlo fun _ _ => he.recoveryCode_before
  · refine h.loaded.set hta ((h.loaded t task ht).step he) ?_
    intro u other _ _ hl
    exact hl.effect he

end Runs

end Uptrakit.Auth.SecondFactor
