import Uptrakit.Auth.SecondFactorSteps

/-!
# Attempts at a challenge

`mfa_verify` writes the attempt counter back from the value it has read before the
comparison, and consumes the challenge without a condition.  Calls that overlap
compare more codes than the counter says.  Where the calls that answer one challenge
follow each other, as they do when `BEGIN IMMEDIATE` locks the database, the counter
is exact, and so is the limit.
-/

namespace Uptrakit.Auth.SecondFactor

open Concurrent List SecondFactor.Frame Option Database

section Counts

variable (crypto : Crypto) (tokenHash : String)

def MfaVerifyRequest.answers (req : MfaVerifyRequest) : Bool :=
  crypto.hashToken req.mfaToken == tokenHash

def Frame.inside (f : Frame) : Bool := f.guessing.any fun guess => guess.1.answers crypto tokenHash

def Frame.isFailing (f : Frame) : Bool :=
  f.failing.any fun req => req.answers crypto tokenHash

def Outcome.isInvalid : Outcome → Bool
  | .invalid req => req.answers crypto tokenHash
  | _ => false

def Outcome.isVerified : Outcome → Bool
  | .verified req _ => req.answers crypto tokenHash
  | _ => false

def Frame.guessedWrong (f : Frame) : Bool :=
  f.isFailing crypto tokenHash || f.outcome.isInvalid crypto tokenHash

def Frame.succeeded (f : Frame) : Bool := f.outcome.isVerified crypto tokenHash

end Counts

/-- The condition on a step: a call loads a challenge only while no other call that has
loaded it is in its transaction, and the statements that record a failed attempt do
not fail. -/
def oneGuessAtATime (crypto : Crypto) (db : Database Row Frame) : Move Operation Choice → Bool
  | .start _ => true
  | .run t choice =>
    match db.tasks[t]? with
    | none => true
    | some task =>
      match task.frame with
      | .load req => !db.frames.any (Frame.inside crypto (crypto.hashToken req.mfaToken))
      | .recordFailure _ _ | .commitFailure _ _ _ => !choice.fails
      | _ => true

/-- The challenge that a call has loaded is still what it was. -/
structure Fits (ch row : MfaChallenge) : Prop where
  id : row.id = ch.id
  count : row.attemptCount = ch.attemptCount
  left : row.attemptCount < maxMfaAttempts
  unconsumed : row.consumedAt = none

/-- The counter of the challenge, against the calls that have answered it. -/
structure Counted (crypto : Crypto) (origin row : MfaChallenge) (frames : List Frame) : Prop where
  token : row.tokenHash = origin.tokenHash
  failures : (frames.countP (Frame.guessedWrong crypto origin.tokenHash) : Int) +
    origin.attemptCount =
      row.attemptCount + frames.countP (Frame.isFailing crypto origin.tokenHash)
  failing : frames.countP (Frame.isFailing crypto origin.tokenHash) ≤ 1
  bound : row.attemptCount ≤ max maxMfaAttempts origin.attemptCount
  successes : frames.countP (Frame.succeeded crypto origin.tokenHash) ≤ 1
  consumed : 0 < frames.countP (Frame.succeeded crypto origin.tokenHash) → row.consumedAt ≠ none

/-- What holds in every state of a run that meets the condition. -/
structure Attempts (crypto : Crypto) (origin : MfaChallenge) (i : Nat)
    (db : Database Row Frame) : Prop where
  coherent : Coherent crypto db
  alone : ∀ (u u' : Nat) (task task' : Task Row Frame), db.tasks[u]? = some task →
    db.tasks[u']? = some task' → task.frame.inside crypto origin.tokenHash = true →
      task'.frame.inside crypto origin.tokenHash = true → u = u'
  counted : ∃ row, ChallengeAt db.rows i row ∧ Counted crypto origin row db.frames ∧
    db.Each fun task => ∀ req ch, task.frame.guessing = some (req, ch) →
      req.answers crypto origin.tokenHash = true → Fits ch row

section Steps

variable {crypto : Crypto} {origin : MfaChallenge} {i : Nat} {db db' : Database Row Frame}
variable {t : Nat} {task task' : Task Row Frame}

variable {f : Frame} {req : MfaVerifyRequest} {ch row : MfaChallenge} {j : Nat}

theorem inside_of_guessing (h : f.guessing = some (req, ch))
    (ha : req.answers crypto origin.tokenHash = true) :
    f.inside crypto origin.tokenHash = true := by
  rw [inside, h]
  exact ha

theorem guessing_of_inside (h : f.inside crypto origin.tokenHash = true) :
    ∃ req ch, f.guessing = some (req, ch) ∧ req.answers crypto origin.tokenHash = true := by
  rw [inside] at h
  cases hg : f.guessing with
  | none =>
    rw [hg] at h
    cases h
  | some guess =>
    rw [hg] at h
    exact ⟨guess.1, guess.2, rfl, h⟩

theorem inside_of_isFailing (h : f.isFailing crypto origin.tokenHash = true) :
    f.inside crypto origin.tokenHash = true := by
  cases f with
  | recordFailure | commitFailure => exact h
  | _ => cases h

/-- The frames count for the same. -/
structure SameCounts (crypto : Crypto) (tokenHash : String) (f f' : Frame) : Prop where
  failing : f'.isFailing crypto tokenHash = f.isFailing crypto tokenHash
  invalid : f'.outcome.isInvalid crypto tokenHash = f.outcome.isInvalid crypto tokenHash
  verified : f'.outcome.isVerified crypto tokenHash = f.outcome.isVerified crypto tokenHash

theorem Counted.congr {frames} {frames' : List Frame} (h : Counted crypto origin row frames)
    (hw : frames'.countP (guessedWrong crypto origin.tokenHash) =
      frames.countP (guessedWrong crypto origin.tokenHash))
    (hfa : frames'.countP (isFailing crypto origin.tokenHash) =
      frames.countP (isFailing crypto origin.tokenHash))
    (hs : frames'.countP (succeeded crypto origin.tokenHash) =
    frames.countP (succeeded crypto origin.tokenHash)) : Counted crypto origin row frames' := by
  obtain ⟨ht, hf, hon, hb, ho, hc⟩ := h
  rw [← hw, ← hfa] at hf
  exact ⟨ht, hf, hfa ▸ hon, hb, hs ▸ ho, hs ▸ hc⟩

/-- A challenge that can still be answered has not been answered. -/
theorem Counted.countP_succeeded {frames} (h : Counted crypto origin row frames)
    (hr : row.consumedAt = none) : frames.countP (succeeded crypto origin.tokenHash) = 0 := by
  by_contra hne
  exact h.consumed (Nat.pos_of_ne_zero hne) hr

/-- No other call has loaded the challenge. -/
def Alone (crypto : Crypto) (tokenHash : String) (db : Database Row Frame) (t : Nat) : Prop :=
  ∀ (u : Nat) (other : Task Row Frame), db.tasks[u]? = some other → u ≠ t →
    other.frame.inside crypto tokenHash = false

theorem challengeAt_unique {rows} (hu : Unique Row.clash rows) {k a b}
    (ha : ChallengeAt rows j a) (hb : ChallengeAt rows k b)
    (h : a.id = b.id ∨ a.tokenHash = b.tokenHash) : j = k := by
  apply hu j k _ _ ha hb
  rcases h with h | h <;> simp [Row.clash, h]

section Task

variable (htask : db.tasks[t]? = some task)

include htask

/-- A call that has loaded the challenge is the only one. -/
theorem Attempts.alone_of_guessing (h : Attempts crypto origin i db)
    (hg : task.frame.guessing = some (req, ch))
    (ha : req.answers crypto origin.tokenHash = true) :
    Alone crypto origin.tokenHash db t := by
  intro u other ho hne
  rw [← Bool.not_eq_true]
  intro hi
  exact hne (h.alone u t other task ho htask hi (inside_of_guessing hg ha))

variable (htasks : db'.tasks = db.tasks.set t task')

include htasks

theorem countP_step (p : Frame → Bool) :
    db'.frames.countP p + (if p task.frame then 1 else 0) =
      db.frames.countP p + if p task'.frame then 1 else 0 := by
  rw [Database.frames, htasks]
  exact countP_frames_set_add task' htask p

theorem countP_step_of_eq {p : Frame → Bool} (hp : p task'.frame = p task.frame) :
    db'.frames.countP p = db.frames.countP p := by
  have ha := countP_step htask htasks p
  rw [hp] at ha
  omega

theorem Counted.set (h : Counted crypto origin row db.frames)
    (hs : SameCounts crypto origin.tokenHash task.frame task'.frame) :
    Counted crypto origin row db'.frames := by
  refine h.congr (countP_step_of_eq htask htasks ?_) (countP_step_of_eq htask htasks hs.failing)
    (countP_step_of_eq htask htasks hs.verified)
  rw [guessedWrong, hs.failing, hs.invalid, guessedWrong]

end Task

section Change

variable (h : Attempts crypto origin i db) (hcoherent : Coherent crypto db')
  (htask : db.tasks[t]? = some task) (htasks : db'.tasks = db.tasks.set t task')

include hcoherent htasks

/-- A step of the only call that has loaded the challenge, or of a call that loads it
while nobody else has. -/
theorem Attempts.of_alone (hal : Alone crypto origin.tokenHash db t)
    (hr : ChallengeAt db'.rows i row) (hc : Counted crypto origin row db'.frames)
    (hf : ∀ req ch, task'.frame.guessing = some (req, ch) →
      req.answers crypto origin.tokenHash = true → Fits ch row) : Attempts crypto origin i db' := by
  have hol : ∀ (u : Nat) (other : Task Row Frame), db'.tasks[u]? = some other →
      other.frame.inside crypto origin.tokenHash = true → u = t ∧ other = task' := by
    intro u other ho hi
    rw [htasks] at ho
    rcases getElem?_tasks_set ho with ⟨rfl, rfl⟩ | ⟨hne, ho⟩
    · exact ⟨rfl, rfl⟩
    · rw [hal u other ho hne] at hi
      cases hi
  refine ⟨hcoherent, ?_, row, hr, hc, ?_⟩
  · intro u u' other other' ho ho' hi hi'
    rw [(hol u other ho hi).1, (hol u' other' ho' hi').1]
  · intro u other ho req ch hg ha
    obtain ⟨-, rfl⟩ := hol u other ho (inside_of_guessing hg ha)
    exact hf req ch hg ha

include h htask

theorem Attempts.of_same (hr : ∀ row, ChallengeAt db.rows i row → ChallengeAt db'.rows i row)
    (hg : ∀ req ch, task'.frame.guessing = some (req, ch) →
      req.answers crypto origin.tokenHash = true → task.frame.guessing = some (req, ch))
    (hs : SameCounts crypto origin.tokenHash task.frame task'.frame) :
    Attempts crypto origin i db' := by
  obtain ⟨row, hat, hc, hf⟩ := h.counted
  refine ⟨hcoherent, AtMostOne.set h.alone htasks ?_, row, hr row hat, hc.set htask htasks hs, ?_⟩
  · intro hi u other hne ho hi'
    obtain ⟨req, ch, hgu, ha⟩ := guessing_of_inside hi
    have hi := inside_of_guessing (hg req ch hgu ha) ha
    exact hne (h.alone u t other task ho htask hi' hi)
  · refine hf.set htasks ?_ fun _ _ _ _ ho => ho
    intro req ch hgu ha
    exact hf t task htask req ch (hg req ch hgu ha) ha

/-- The code of a call did not match. -/
theorem Attempts.guessed (hr : db'.rows = db.rows) (ho : task.frame.outcome = .none)
    (hfa : task.frame.failing = none) (hgu : task.frame.guessing = some (req, ch))
    (hfr : task'.frame = .recordFailure req ch) : Attempts crypto origin i db' := by
  have hq : task.frame.isFailing crypto origin.tokenHash = false := by
    rw [isFailing, hfa]
    rfl
  by_cases ha : req.answers crypto origin.tokenHash = true
  · obtain ⟨row, hat, ⟨ht, _, _, hb, hon, hc⟩, hfi⟩ := h.counted
    have hal := h.alone_of_guessing htask hgu ha
    have hz : db.frames.countP (isFailing crypto origin.tokenHash) = 0 := by
      rw [countP_eq_zero]
      intro f hf hfa
      obtain ⟨other, hm, rfl⟩ := mem_map.mp hf
      obtain ⟨u, hot⟩ := mem_iff_getElem?.mp hm
      by_cases hut : u = t
      · subst hut
        rw [htask, Option.some.injEq] at hot
        rw [← hot, hq] at hfa
        cases hfa
      · have hi := hal u other hot hut
        rw [inside_of_isFailing hfa] at hi
        cases hi
    have hfa' : task'.frame.isFailing crypto origin.tokenHash = true := by
      rw [hfr]
      exact ha
    have hw := countP_step htask htasks (guessedWrong crypto origin.tokenHash)
    have hco := countP_step htask htasks (isFailing crypto origin.tokenHash)
    simp only [guessedWrong, hq, hfa', ho, Outcome.isInvalid, Bool.or_self,
      Bool.true_or, if_true] at hw hco
    have hs : db'.frames.countP (succeeded crypto origin.tokenHash) =
        db.frames.countP (succeeded crypto origin.tokenHash) := by
      refine countP_step_of_eq htask htasks ?_
      rw [succeeded, succeeded, ho, hfr]
      rfl
    refine Attempts.of_alone hcoherent htasks hal (hr ▸ hat)
      ⟨ht, by omega, by omega, hb, hs ▸ hon, hs ▸ hc⟩ ?_
    intro req' ch' hg ha'
    rw [hfr] at hg
    cases hg
    exact hfi t task htask req ch hgu ha
  · rw [Bool.not_eq_true] at ha
    refine h.of_same hcoherent htask htasks (fun row hat => hr ▸ hat) ?_ ?_
    · intro req' ch' hg _
      rw [hfr] at hg
      cases hg
      exact hgu
    · rw [hfr]
      exact ⟨ha.trans hq.symm, by rw [ho]; rfl, by rw [ho]; rfl⟩

theorem Attempts.committed {new base} (hg : task.frame.guessing = some (req, ch))
    (hg' : task'.frame.guessing = none) (hro : ChallengeAt db.rows j row)
    (hid : row.id = ch.id) (hb : ∀ k ch, ChallengeAt base k ch ↔ ChallengeAt db.rows k ch)
    (hr : db'.rows = base.set j (some (.challenge new)))
    (ho : req.answers crypto origin.tokenHash = false →
      SameCounts crypto origin.tokenHash task.frame task'.frame)
    (how : req.answers crypto origin.tokenHash = true → Counted crypto origin row db.frames →
      Fits ch row → Counted crypto origin new db'.frames) : Attempts crypto origin i db' := by
  obtain ⟨row', hat, hc, hf⟩ := h.counted
  have ht : row.tokenHash = crypto.hashToken req.mfaToken := by
    obtain ⟨k, row', hro', hid', ht⟩ := h.coherent.loaded t task htask req ch hg
    obtain rfl := challengeAt_unique h.coherent.keyed.rows hro hro' (.inl (hid.trans hid'.symm))
    rw [hro.eq hro', ht]
  have hlt : j < base.length := (List.getElem?_eq_some_iff.mp ((hb j row).mpr hro)).1
  have hn : ∀ req ch, task'.frame.guessing ≠ some (req, ch) := by
    intro req ch hgu
    rw [hg'] at hgu
    cases hgu
  by_cases ha : req.answers crypto origin.tokenHash = true
  · -- the row is that of the challenge, as the call has loaded it
    have hs : row.tokenHash = row'.tokenHash := by
      rw [ht, hc.token]
      exact beq_iff_eq.mp ha
    obtain rfl := challengeAt_unique h.coherent.keyed.rows hro hat (.inr hs)
    obtain rfl := hro.eq hat
    exact Attempts.of_alone hcoherent htasks (h.alone_of_guessing htask hg ha)
      (hr ▸ (getElem?_set_eq_some_iff hlt).mpr (.inl ⟨rfl, rfl⟩))
      (how ha hc (hf t task htask req ch hg ha))
      fun req ch hgu _ => absurd hgu (hn req ch)
  · rw [Bool.not_eq_true] at ha
    refine h.of_same hcoherent htask htasks ?_ (fun req ch hgu _ => absurd hgu (hn req ch)) (ho ha)
    intro own how
    rw [hr]
    refine (getElem?_set_eq_some_iff hlt).mpr (.inr ⟨?_, (hb i own).mpr how⟩)
    rintro rfl
    rw [hro.eq hat, hc.token] at ht
    rw [MfaVerifyRequest.answers, beq_eq_false_iff_ne] at ha
    exact ha ht.symm

theorem Attempts.failed {exhausted now} (hf : task.frame = .commitFailure req ch exhausted)
    (hro : ChallengeAt db.rows j row) (hid : row.id = ch.id)
    (hr : db'.rows = db.rows.set j (some (.challenge (recordFailedAttempt now ch row))))
    (hfr : task'.frame = .returned (.mfaVerify req) (.invalid exhausted)) :
    Attempts crypto origin i db' := by
  refine h.committed hcoherent htask htasks (by rw [hf]; rfl) (by rw [hfr]; rfl) hro hid
    (fun _ _ => Iff.rfl) hr ?_ ?_
  · intro ha
    rw [hf, hfr]
    exact ⟨ha.symm, ha, rfl⟩
  · intro ha hc ⟨_, hco, hl, ho⟩
    have hz := hc.countP_succeeded ho
    have hw := countP_step htask htasks (guessedWrong crypto origin.tokenHash)
    have hfa := countP_step htask htasks (isFailing crypto origin.tokenHash)
    have hs : db'.frames.countP (succeeded crypto origin.tokenHash) =
        db.frames.countP (succeeded crypto origin.tokenHash) :=
      countP_step_of_eq htask htasks (by rw [hf, hfr]; rfl)
    rw [hf, hfr] at hw hfa
    simp only [guessedWrong, isFailing, failing, outcome,
      Outcome.isInvalid, any_some, any_none, ha, Bool.or_false, Bool.or_true,
      Bool.false_eq_true, if_true, if_false] at hw hfa
    obtain ⟨ht, _, _, _, -, -⟩ := hc
    refine ⟨ht, ?_, by omega, ?_, by omega, by omega⟩
    · simp only [recordFailedAttempt]
      omega
    · simp only [recordFailedAttempt]
      omega

theorem Attempts.verified {factor writes now} (hf : task.frame = .commitSuccess req ch factor)
    (hm : Marks db.rows factor writes) (hro : ChallengeAt db.rows j row) (hid : row.id = ch.id)
    (hr : db'.rows = (commitRows db.rows writes).set j
      (some (.challenge { row with consumedAt := some now })))
    (hfr : task'.frame = .loadUser req ch factor) : Attempts crypto origin i db' := by
  refine h.committed hcoherent htask htasks (by rw [hf]; rfl) (by rw [hfr]; rfl) hro hid
    (fun _ _ => hm.challengeAt_iff) hr ?_ ?_
  · intro ha
    rw [hf, hfr]
    exact ⟨rfl, rfl, ha⟩
  · intro ha hc hfi
    have hz := hc.countP_succeeded hfi.unconsumed
    have hw : db'.frames.countP (guessedWrong crypto origin.tokenHash) =
        db.frames.countP (guessedWrong crypto origin.tokenHash) :=
      countP_step_of_eq htask htasks (by rw [hf, hfr]; rfl)
    have hfai : db'.frames.countP (isFailing crypto origin.tokenHash) =
        db.frames.countP (isFailing crypto origin.tokenHash) :=
      countP_step_of_eq htask htasks (by rw [hf, hfr]; rfl)
    have hs := countP_step htask htasks (succeeded crypto origin.tokenHash)
    rw [hfr] at hs
    simp only [succeeded, outcome, Outcome.isVerified, ha, if_true] at hs
    obtain ⟨ht, hfa, ho, hb, -, -⟩ := hc
    rw [← hw, ← hfai] at hfa
    exact ⟨ht, hfa, hfai ▸ ho, hb, by omega, fun _ => some_ne_none now⟩

/-- A call loads a challenge. -/
theorem Attempts.load (hr : db'.rows = db.rows) (hf : task.frame = .load req)
    (hro : ChallengeAt db.rows j ch) (ht : ch.tokenHash = crypto.hashToken req.mfaToken)
    (hop : ch.consumedAt = none) (hco : ch.attemptCount < maxMfaAttempts)
    (ho : task'.frame.outcome = .none) (hfa : task'.frame.failing = none)
    (hgu : task'.frame.guessing = some (req, ch))
    (hfr : db.frames.any (inside crypto (crypto.hashToken req.mfaToken)) = false) :
    Attempts crypto origin i db' := by
  have hs : SameCounts crypto origin.tokenHash task.frame task'.frame := by
    rw [hf]
    exact ⟨by rw [isFailing, hfa]; rfl, by rw [ho]; rfl, by rw [ho]; rfl⟩
  by_cases ha : req.answers crypto origin.tokenHash = true
  · have hh : crypto.hashToken req.mfaToken = origin.tokenHash := beq_iff_eq.mp ha
    obtain ⟨row, hat, hc, -⟩ := h.counted
    have heq : ch.tokenHash = row.tokenHash := by rw [ht, hh, hc.token]
    obtain rfl := challengeAt_unique h.coherent.keyed.rows hro hat (.inr heq)
    obtain rfl := hro.eq hat
    refine Attempts.of_alone hcoherent htasks ?_ (hr ▸ hat) (hc.set htask htasks hs) ?_
    · intro u other hot _
      rw [← hh]
      have hm : other.frame ∈ db.frames :=
        mem_map_of_mem (mem_of_getElem? hot)
      simpa using any_eq_false.mp hfr other.frame hm
    · intro req' ch' hg _
      rw [hgu] at hg
      cases hg
      exact ⟨rfl, rfl, hco, hop⟩
  · refine h.of_same hcoherent htask htasks (fun row hat => hr ▸ hat) ?_ hs
    intro req' ch' hg ha'
    rw [hgu] at hg
    cases hg
    exact absurd ha' ha

end Change

theorem Attempts.step {choice} (h : Attempts crypto origin i db)
    (hok : oneGuessAtATime crypto db (.run t choice) = true) (htask : db.tasks[t]? = some task)
    (ha : db.Applies Row.clash t task
      (SecondFactor.step crypto choice (task.view db.rows) task.frame) db') :
    Attempts crypto origin i db' := by
  obtain ⟨hcoherent, task', htasks, he, -⟩ := h.coherent.step htask ha
  generalize hfr : task'.frame = f' at he
  generalize hr : db'.rows = rows' at he
  simp only [oneGuessAtATime, htask] at hok
  cases he with
  | quiet ho hfa hg =>
    refine h.of_same hcoherent htask htasks (fun row hat => hr ▸ hat) ?_ ?_
    · intro req ch hgu _
      rw [hfr] at hgu
      rcases hg with hn | hs
      · rw [hn] at hgu
        cases hgu
      · rw [← hs, hgu]
    · rw [hfr]
      exact ⟨by rw [isFailing, hfa, isFailing], by rw [ho], by rw [ho]⟩
  | loaded hf hro ht hop hc ho hfa hg =>
    rw [hf] at hok
    exact h.load hcoherent htask htasks hr hf hro ht hop hc (hfr ▸ ho)
      (hfr ▸ hfa) (hfr ▸ hg) (by simpa using hok)
  | marked hma ho hfa hg =>
    obtain ⟨hfa₀, ho₀⟩ := hma.undecided
    refine h.of_same hcoherent htask htasks (fun row hat => hr ▸ hat) ?_ ?_
    · intro req ch hgu _
      rw [← hg, ← hfr, hgu]
    · rw [hfr]
      exact ⟨by rw [isFailing, hfa, isFailing, hfa₀],
        by rw [ho, ho₀], by rw [ho, ho₀]⟩
  | guessed ho hfa hg =>
    exact h.guessed hcoherent htask htasks hr ho hfa hg hfr
  | @dropped req ch hf hw =>
    -- The statement does not fail, and the challenge is there.
    have hg : task.frame.guessing = some (req, ch) := by rw [hf]; rfl
    rw [hf] at hok
    rcases hw with hfai | hgo
    · rw [hfai] at hok
      cases hok
    · obtain ⟨j, row, hro, hid, -⟩ := h.coherent.loaded t task htask req ch hg
      exact absurd hid (hgo j row hro)
  | lost hfai hf =>
    rw [hf, hfai] at hok
    cases hok
  | failed hf hro hid => exact h.failed hcoherent htask htasks hf hro hid hr hfr
  | verified hf hm hro hid =>
    exact h.verified hcoherent htask htasks hf hm hro hid hr hfr
  | reAuthed hf hm =>
    refine h.of_same hcoherent htask htasks ?_ ?_ ?_
    · intro row hat
      rw [hr]
      exact hm.challengeAt_iff.mpr hat
    · intro req ch hgu
      rw [hfr] at hgu
      cases hgu
    · rw [hfr, hf]
      exact ⟨rfl, rfl, rfl⟩

end Steps

/-! ## Runs -/

section Runs

variable {crypto : Crypto} {origin : MfaChallenge} {i : Nat} {start : List (Option Row)}

theorem Attempts.init (hu : Unique Row.clash start) (ho : ChallengeAt start i origin) :
    Attempts crypto origin i ⟨start, []⟩ where
  coherent := Coherent.init hu
  alone := by
    intro u u' task task' htask
    cases htask
  counted := by
    refine ⟨origin, ho, ⟨rfl, ?_, Nat.zero_le 1, Int.le_max_right _ _, Nat.zero_le 1, ?_⟩, ?_⟩
    · simp [Database.frames]
    · intro hp
      cases hp
    · intro u task htask
      cases htask

theorem Attempts.started {db} (h : Attempts crypto origin i db) (operation) :
    Attempts crypto origin i ((secondFactors crypto).move db (.start operation)) := by
  obtain ⟨-, hg, ho⟩ := operation.enter_spec
  have hou : operation.enter.inside crypto origin.tokenHash ≠ true := by
    rw [inside, hg]
    nofun
  have hf : operation.enter.isFailing crypto origin.tokenHash = false := by
    rw [← Bool.not_eq_true]
    exact fun hf => hou (inside_of_isFailing hf)
  have hw : operation.enter.guessedWrong crypto origin.tokenHash = false := by
    rw [guessedWrong, hf, ho]
    rfl
  have hs : operation.enter.succeeded crypto origin.tokenHash = false := by
    rw [succeeded, ho]
    rfl
  obtain ⟨row, hat, hc, hfi⟩ := h.counted
  refine ⟨h.coherent.started operation, AtMostOne.append h.alone ?_, row, hat, ?_, ?_⟩
  · exact fun hi => absurd hi hou
  · exact hc.congr (Transactions.countP_frames_start hw)
      (Transactions.countP_frames_start hf) (Transactions.countP_frames_start hs)
  · refine hfi.append ?_
    intro req ch hgu
    cases hg.symm.trans hgu

/-- At most five codes are compared with a challenge and fail, and at most one call
consumes it, when the calls that answer it follow each other. -/
theorem mfa_attempts_limited (hu : Unique Row.clash start)
    (ho : ChallengeAt start i origin) (hco : 0 ≤ origin.attemptCount)
    {moves : List (Move Operation Choice)}
    (hm : Meets (secondFactors crypto).move
      (fun db m => oneGuessAtATime crypto db m = true) ⟨start, []⟩ moves) :
    let db := (secondFactors crypto).run ⟨start, []⟩ moves
    db.frames.countP (Frame.guessedWrong crypto origin.tokenHash) ≤ 5 ∧
      db.frames.countP (Frame.succeeded crypto origin.tokenHash) ≤ 1 := by
  intro db
  have h : Attempts crypto origin i db := by
    refine Transactions.run_invariant_of_meets ?_ ?_ (Attempts.init hu ho) hm
    · intro db operation h _
      exact h.started operation
    · intro db t choice task db' h hok htask hac
      exact h.step hok htask hac
  obtain ⟨row, -, hc, hfi⟩ := h.counted
  refine ⟨?_, hc.successes⟩
  have hfai := hc.failures
  have hb := hc.bound
  have hon := hc.failing
  have hl : 0 < db.frames.countP (isFailing crypto origin.tokenHash) →
      row.attemptCount < maxMfaAttempts := by
    intro hp
    obtain ⟨f, hf, hfa⟩ := countP_pos_iff.mp hp
    obtain ⟨task, hme, rfl⟩ := mem_map.mp hf
    obtain ⟨u, htask⟩ := mem_iff_getElem?.mp hme
    obtain ⟨req, ch, hg, ha⟩ := guessing_of_inside (inside_of_isFailing hfa)
    exact (hfi u task htask req ch hg ha).left
  unfold maxMfaAttempts at hb hl
  omega

end Runs

/-! ## Calls that overlap -/

def plainCrypto : Crypto where
  hashToken := id
  verifyTotpCode now secret code := if code = secret then some (now / 30) else none
  verifyEmailOtp code hash := some (code == hash)
  verifyRecoveryCode code hash := code == hash
  verifyPassword password hash := some (password == hash)

def emailChallenge : MfaChallenge where
  id := 1
  userId := 7
  tokenHash := "token"
  emailCodeHash := some "123456"
  attemptCount := 0
  expiresAt := 300
  consumedAt := none

def challengeRows : List (Option Row) :=
  [some (.challenge emailChallenge), some (.user ⟨7, true, none⟩)]

def emailGuess (code : String) : MfaVerifyRequest := ⟨"token", .email, code⟩

/-- Calls that all load the challenge and compare a code before the first one writes. -/
def overlapping (n : Nat) (code : String) : List (Move Operation Choice) :=
  List.replicate n (.start (.mfaVerify (emailGuess code))) ++
    ((List.range n).flatMap fun t => [.run t {}, .run t {}]) ++
    (List.range n).flatMap fun t => [.run t {}, .run t {}, .run t {}, .run t {}]

/-- Six calls guess wrong and the counter says one; two calls guess right and both get a
session. -/
theorem overlapping_guesses_unlimited :
    let run := fun moves => (secondFactors plainCrypto).run ⟨challengeRows, []⟩ moves
    let wrong := run (overlapping 6 "000000")
    let right := run (overlapping 2 "123456")
    wrong.frames.countP (Frame.guessedWrong plainCrypto "token") = 6 ∧
      (wrong.frames = List.replicate 6 (.returned (.mfaVerify (emailGuess "000000"))
          (.invalid false)) ∧
        wrong.rows[0]? = some (some (.challenge { emailChallenge with attemptCount := 1 }))) ∧
      right.frames = List.replicate 2 (.returned (.mfaVerify (emailGuess "123456"))
        (.session .email)) ∧
        right.frames.countP (Frame.succeeded plainCrypto "token") = 2 := by
  decide

/-- A wrong guess, and then a right one. -/
def successive : List (Move Operation Choice) :=
  [.start (.mfaVerify (emailGuess "000000")), .start (.mfaVerify (emailGuess "123456")),
    .run 0 {}, .run 0 {}, .run 0 {}, .run 0 {},
    .run 1 {}, .run 1 {}, .run 1 {}, .run 1 {}, .run 1 {}, .run 1 {}]

theorem mfa_attempts_limited_successive :
    let db := (secondFactors plainCrypto).run ⟨challengeRows, []⟩ successive
    db.frames = [.returned (.mfaVerify (emailGuess "000000")) (.invalid false),
        .returned (.mfaVerify (emailGuess "123456")) (.session .email)] ∧
      db.frames.countP (Frame.guessedWrong plainCrypto "token") ≤ 5 ∧
        db.frames.countP (Frame.succeeded plainCrypto "token") ≤ 1 :=
  ⟨by decide, mfa_attempts_limited (unique_of_pairwise Row.clash_symm (by decide))
    (show ChallengeAt challengeRows 0 emailChallenge from rfl) (by decide) (by decide)⟩

end Uptrakit.Auth.SecondFactor
