import Uptrakit.Auth.SessionSteps

/-!
# The end of sessions

A token descends from another by rotations.  Where rotations and deletions of one
session do not overlap, a token is rotated once, and the deletion of a user's sessions
leaves no descendant of a token that was issued before it began.
-/

namespace Uptrakit.Auth.Sessions

open Concurrent List Database Sessions.Frame Transactions Session Bool

section Lineage

variable (hashToken : String → String)

def Frame.drawn (f : Frame) : Option String := f.operation.newToken.map hashToken

def Frame.rotates (tokenHash : String) (f : Frame) : Bool :=
  f.rotation.any (hashToken ·.1 == tokenHash)

/-- A token with this hash was there at the start, or has been returned by a call. -/
def Issued (start : List (Option Session)) (frames : List Frame) (tokenHash : String) : Prop :=
  (∃ i session, SessionAt start i session ∧ session.refreshTokenHash = tokenHash) ∨
    ∃ f ∈ frames, ∃ token, f.issued = some token ∧ hashToken token = tokenHash

variable (frames : List Frame) (old : String → Prop) in
/-- The hash of a token that descends by rotation from one of `old`. -/
inductive Descends : String → Prop
  | refl {tokenHash} (h : old tokenHash) : Descends tokenHash
  | rotated {f token newToken} (hf : f ∈ frames) (hrotation : f.rotation = some (token, newToken))
      (h : Descends (hashToken token)) : Descends (hashToken newToken)

theorem Frame.rotates_iff {tokenHash} {f : Frame} : f.rotates hashToken tokenHash = true ↔
      ∃ token newToken, f.rotation = some (token, newToken) ∧ hashToken token = tokenHash := by
  rw [rotates]
  cases f.rotation with
  | none => simp
  | some => simp [Prod.ext_iff]

theorem Frame.rotation_eq_none {f : Frame} (h : f.issued = none) : f.rotation = none := by
  by_contra hne
  obtain ⟨⟨_, _⟩, hr⟩ := Option.ne_none_iff_exists'.mp hne
  rw [issued_of_rotation hr] at h
  cases h

end Lineage

section Effects

variable {hashToken : String → String} {rows rows' : List (Option Session)}
variable {task task' : Task Session Frame}

variable (h : Effect hashToken rows task rows' task')

include h

theorem Effect.operation : task'.frame.operation = task.frame.operation := by
  cases h with
  | same => rfl
  | quiet ho => exact ho
  | marked hf | scanned hf | removed hf | skipped hf | created hf | rotated hf | revoked hf
  | deleted hf => rw [hf]; rfl

/-- A call that has returned a token does nothing any more. -/
theorem Effect.issued_kept {token} (hi : task.frame.issued = some token) : task' = task := by
  cases h with
  | same => rfl
  | quiet _ hb =>
    rw [hb] at hi
    cases hi
  | marked hf | scanned hf | removed hf | skipped hf | created hf | rotated hf | revoked hf
  | deleted hf => rw [hf] at hi; cases hi

/-- A step succeeds with a rotation only when it commits one. -/
theorem Effect.rotation_cases {token newToken}
    (hr : task'.frame.rotation = some (token, newToken)) :
    task' = task ∨ ∃ draw session verified now i,
      task.frame = .rotateCommit token draw session verified newToken ∧
        SessionAt rows i session ∧ session.refreshTokenHash = hashToken token ∧
        session.revokedAt = none ∧
        rows' = rows.set i (some { session with revokedAt := some now }) ++
          [some (session.successor draw.id (hashToken newToken) now)] := by
  cases h with
  | same => exact .inl rfl
  | quiet _ _ ha =>
    rw [rotation_eq_none ha] at hr
    cases hr
  | rotated hf _ hro hh hl =>
    cases hr
    exact .inr ⟨_, _, _, _, _, hf, hro, hh, hl, rfl⟩
  | _ => cases hr

/-- The sessions after a step: those from before, and the one of a token that the step
returns. -/
theorem Effect.sessionAt {i s'} (hs' : SessionAt rows' i s') :
    (∃ s, SessionAt rows i s ∧ s.userId = s'.userId ∧ s.refreshTokenHash = s'.refreshTokenHash ∧
        (s'.revokedAt = none → s.revokedAt = none)) ∨
      (task.frame.issued = none ∧ (∀ session, task.frame.rotating = some session →
          s'.userId = session.userId) ∧
        ∃ token, task'.frame.issued = some token ∧
          task.frame.operation.newToken = some token ∧ s'.refreshTokenHash = hashToken token) := by
  have hse : ∀ {j : Nat} {row : Session} {now : Int}, SessionAt rows j row →
      SessionAt (rows.set j (some { row with revokedAt := some now })) i s' →
        ∃ s, SessionAt rows i s ∧ s.userId = s'.userId ∧
          s.refreshTokenHash = s'.refreshTokenHash ∧
          (s'.revokedAt = none → s.revokedAt = none) := by
    intro j row now hro hs'
    rcases (getElem?_set_eq_some_iff hro.lt).mp hs' with ⟨rfl, heq⟩ | ⟨-, hs⟩
    · cases heq
      exact ⟨row, hro, rfl, rfl, nofun⟩
    · exact ⟨s', hs, rfl, rfl, id⟩
  cases h with
  | created hf hn =>
    rcases getElem?_concat_eq_some_iff.mp hs' with hs | ⟨-, heq⟩
    · exact .inl ⟨s', hs, rfl, rfl, id⟩
    · cases heq
      rw [hf]
      exact .inr ⟨rfl, nofun, _, rfl, hn, rfl⟩
  | rotated hf _ hro _ _ hn =>
    rcases getElem?_concat_eq_some_iff.mp hs' with hs | ⟨-, heq⟩
    · exact .inl (hse hro hs)
    · cases heq
      rw [hf]
      refine .inr ⟨rfl, ?_, _, rfl, hn, rfl⟩
      rintro _ ⟨⟩
      rfl
  | revoked _ hro => exact .inl (hse hro hs')
  | deleted _ hr => exact .inl ⟨s', (hr i s' hs').1, rfl, rfl, id⟩
  | _ => exact .inl ⟨s', hs', rfl, rfl, id⟩

omit h

theorem Frame.rotating_of_delete {f : Frame} {scope} (h : f.operation = .delete scope) :
    f.rotating = none := by
  cases f <;> first | rfl | cases h

end Effects

/-! ## Tokens are rotated once -/

/-- What holds in every state of a run that meets the conditions. -/
structure Orderly (hashToken : String → String) (start : List (Option Session))
    (db : Database Session Frame) : Prop where
  exclusive : db.Exclusive
  keyed : db.Keyed Session.clash
  holds : db.Each (Holds hashToken db.rows)
  drawn : ∀ (u u' : Nat) (task task' : Task Session Frame) (tokenHash : String),
    db.tasks[u]? = some task → db.tasks[u']? = some task' →
      task.frame.drawn hashToken = some tokenHash →
        task'.frame.drawn hashToken = some tokenHash → u = u'
  new : db.Each fun task => ∀ tokenHash, task.frame.drawn hashToken = some tokenHash →
    ∀ i session, SessionAt start i session → session.refreshTokenHash ≠ tokenHash
  issued : ∀ i session, SessionAt db.rows i session →
    Issued hashToken start db.frames session.refreshTokenHash
  spent : ∀ f ∈ db.frames, ∀ token newToken, f.rotation = some (token, newToken) →
    Issued hashToken start db.frames (hashToken token) ∧
      ∀ i session, SessionAt db.rows i session →
        session.refreshTokenHash = hashToken token → session.revokedAt ≠ none
  once : ∀ tokenHash, db.frames.countP (Frame.rotates hashToken tokenHash) ≤ 1

/-! ## Deletions -/

section Deletion

variable (hashToken : String → String) (start : List (Option Session)) (old : String → Prop)
variable (userId : Uuid)

/-- The place holds a session of the user whose token descends from an old one. -/
def Left (db : Database Session Frame) (i : Nat) : Prop :=
  ∃ session, SessionAt db.rows i session ∧ session.userId = userId ∧
    Descends hashToken db.frames old session.refreshTokenHash

/-- How far the deletion of the user's sessions, the call number `d`, has come. -/
structure Ending (d : Nat) (db : Database Session Frame) (task : Task Session Frame) : Prop where
  call : db.tasks[d]? = some task
  operation : task.frame.operation = .delete (.user userId)
  known : ∀ tokenHash, old tokenHash → Issued hashToken start db.frames tokenHash
  covered : ∀ todo deleted, task.frame = .deleteRows (.user userId) todo deleted →
    ∀ i, Left hashToken old userId db i → i ∈ todo ∨ task.Wrote i
  clear : ∀ todo deleted, task.frame = .deleteRows (.user userId) todo deleted →
    ∀ (u i : Nat) (other : Task Session Frame), db.tasks[u]? = some other →
      other.frame.rotating ≠ none → other.Wrote i → i ∉ todo
  ended : ∀ deleted, task.frame = .returned (.delete (.user userId)) (.deleted deleted) →
    ∀ i, ¬ Left hashToken old userId db i

end Deletion

section Steps

variable {hashToken : String → String} {start : List (Option Session)}
variable {db db' : Database Session Frame} {t : Nat} {task task' : Task Session Frame}
variable {tokenHash token newToken : String} {draw : Draw} {session : Session}
variable {verified : VerifiedSession}

theorem Descends.issued {old : String → Prop} (h : Descends hashToken db.frames old tokenHash)
    (ho : ∀ tokenHash, old tokenHash → Issued hashToken start db.frames tokenHash) :
    Issued hashToken start db.frames tokenHash := by
  cases h with
  | refl h => exact ho _ h
  | rotated hf hr => exact .inr ⟨_, hf, _, issued_of_rotation hr, rfl⟩

/-- What a call that is about to commit a rotation has read and written. -/
theorem Holds.rotateCommit_spec {rows} (h : Holds hashToken rows task)
    (hf : task.frame = .rotateCommit token draw session verified newToken) :
    (∃ i, task.Wrote i ∧ SessionAt rows i session) ∧
      session.refreshTokenHash = hashToken token ∧ draw.token = some newToken := by
  cases h with
  | rotateCommit hr hh _ hn =>
    cases hf
    exact ⟨⟨_, ⟨_, mem_singleton_self _⟩, hr⟩, hh, hn⟩
  | idle hi =>
    cases hf
    cases hi
  | _ => cases hf

theorem Orderly.atMostOne_drawn (h : Orderly hashToken start db) (tokenHash : String) :
    db.AtMostOne (·.frame.drawn hashToken = some tokenHash) :=
  fun u u' task task' => h.drawn u u' task task' tokenHash

/-- The token of a call that has not returned it is not issued. -/
theorem Orderly.not_issued (h : Orderly hashToken start db) (htask : db.tasks[t]? = some task)
    (hn : task.frame.operation.newToken = some token) (hi : task.frame.issued = none) :
    ¬ Issued hashToken start db.frames (hashToken token) := by
  have hd : task.frame.drawn hashToken = some (hashToken token) := by
    rw [Frame.drawn, hn, Option.map_some]
  rintro (⟨i, session, hr, hh⟩ | ⟨f, hf, _, hi', hh⟩)
  · exact h.new t task htask _ hd i session hr hh
  · obtain ⟨u, other, ho, rfl⟩ := mem_frames.mp hf
    have hd' : other.frame.drawn hashToken = some (hashToken token) := by
      rw [Frame.drawn, (h.holds u other ho).issued hi', Option.map_some, hh]
    obtain rfl := h.drawn u t other task _ ho htask hd' hd
    rw [htask] at ho
    cases ho
    rw [hi] at hi'
    cases hi'

/-- Nor is the one of a rotation that is about to be committed. -/
theorem Orderly.successor_not_issued (h : Orderly hashToken start db)
    (htask : db.tasks[t]? = some task)
    (hc : task.frame = .rotateCommit token draw session verified newToken) :
    ¬ Issued hashToken start db.frames (hashToken newToken) := by
  obtain ⟨-, -, hn⟩ := (h.holds t task htask).rotateCommit_spec hc
  refine h.not_issued htask ?_ ?_
  · rw [hc]
    exact hn
  · rw [hc]
    rfl

section Step

variable (htask : db.tasks[t]? = some task) (htasks : db'.tasks = db.tasks.set t task')
  (heffect : Effect hashToken db.rows task db'.rows task')

include htask htasks heffect

theorem Issued.step (h : Issued hashToken start db.frames tokenHash) :
    Issued hashToken start db'.frames tokenHash := by
  rcases h with hs | ⟨f, hf, token, hi, hh⟩
  · exact .inl hs
  · refine .inr ⟨f, mem_frames_set_of_mem htask htasks hf ?_, token, hi, hh⟩
    rintro rfl
    rw [heffect.issued_kept hi]

/-- A call that has rotated a token had done so before, or commits the rotation. -/
theorem rotation_before {f : Frame} (hf : f ∈ db'.frames)
    (hr : f.rotation = some (token, newToken)) :
    f ∈ db.frames ∨ ∃ draw session verified now i,
      task.frame = .rotateCommit token draw session verified newToken ∧
        SessionAt db.rows i session ∧ session.refreshTokenHash = hashToken token ∧
        session.revokedAt = none ∧
        db'.rows = db.rows.set i (some { session with revokedAt := some now }) ++
          [some (session.successor draw.id (hashToken newToken) now)] := by
  rcases mem_frames_of_set htasks hf with hf | rfl
  · exact .inl hf
  · refine (heffect.rotation_cases hr).imp_left ?_
    rintro rfl
    exact frame_mem_frames htask

variable (h : Orderly hashToken start db)

include h

theorem Orderly.issued_step (i session) (hr : SessionAt db'.rows i session) :
    Issued hashToken start db'.frames session.refreshTokenHash := by
  rcases heffect.sessionAt hr with ⟨s, hs, -, hh, -⟩ | ⟨-, -, token, hi, -, hh⟩
  · rw [← hh]
    exact (h.issued i s hs).step htask htasks heffect
  · have htask' : db'.tasks[t]? = some task' := htasks ▸ getElem?_set_self_of_eq_some htask task'
    exact .inr ⟨task'.frame, frame_mem_frames htask', token, hi, hh.symm⟩

/-- A token that has been rotated stays revoked. -/
theorem Orderly.spent_step (f) (hf : f ∈ db'.frames) (token newToken)
    (hr : f.rotation = some (token, newToken)) :
    Issued hashToken start db'.frames (hashToken token) ∧
      ∀ i session, SessionAt db'.rows i session →
        session.refreshTokenHash = hashToken token → session.revokedAt ≠ none := by
  rcases rotation_before htask htasks heffect hf hr with
    hf | ⟨draw, session, verified, now, j, hc, hrow, hh, -, hro⟩
  · obtain ⟨hi, hsp⟩ := h.spent f hf token newToken hr
    refine ⟨hi.step htask htasks heffect, ?_⟩
    intro i session hrow hh hl
    rcases heffect.sessionAt hrow with
      ⟨s, hs, -, hh', hl'⟩ | ⟨hb, -, new, -, hnew, hh'⟩
    · exact hsp i s hs (hh'.trans hh) (hl' hl)
    · apply h.not_issued htask hnew hb
      rw [← hh', hh]
      exact hi
  · have hi := h.issued j session hrow
    rw [hh] at hi
    refine ⟨hi.step htask htasks heffect, ?_⟩
    intro i s hs hh'
    rw [hro] at hs
    rcases getElem?_concat_eq_some_iff.mp hs with hs | ⟨-, heq⟩
    · rcases (getElem?_set_eq_some_iff hrow.lt).mp hs with ⟨rfl, heq⟩ | ⟨hne, hs⟩
      · cases heq
        exact Option.some_ne_none _
      · refine absurd (h.keyed.rows i j s session hs hrow ?_) hne
        simp [Session.clash, hh', hh]
    · cases heq
      -- The new token is not the one that is rotated, which is issued.
      have hn := h.successor_not_issued htask hc
      rw [show hashToken newToken = hashToken token from hh'] at hn
      exact absurd hi hn

theorem Orderly.once_step (tokenHash) : db'.frames.countP (rotates hashToken tokenHash) ≤ 1 := by
  refine countP_frames_le_one htask htasks (h.once tokenHash) ?_
  intro hr
  obtain ⟨token, _, hro, rfl⟩ := (rotates_iff hashToken).mp hr
  obtain rfl | ⟨_, session, _, _, i, -, hrow, hh, hl, -⟩ := heffect.rotation_cases hro
  · exact .inl hr
  · -- Nothing has rotated the token before: its session would be revoked.
    refine .inr ?_
    intro f hf hr'
    obtain ⟨token', newToken', hro', heq⟩ := (rotates_iff hashToken).mp hr'
    exact (h.spent f hf token' newToken' hro').2 i session hrow (hh.trans heq.symm) hl

variable {old : String → Prop} {userId : Uuid}

/-- A step adds a descendant only when it commits a rotation. -/
theorem Descends.of_step (hde : Descends hashToken db'.frames old tokenHash) :
    Descends hashToken db.frames old tokenHash ∨
      ∃ token draw session verified newToken,
        task.frame = .rotateCommit token draw session verified newToken ∧
          tokenHash = hashToken newToken ∧ Descends hashToken db.frames old (hashToken token) := by
  induction hde with
  | refl h => exact .inl (.refl h)
  | @rotated f a b hf hr _ ih =>
    rcases rotation_before htask htasks heffect hf hr with
      hf | ⟨_, _, _, _, _, hc, -⟩
    · rcases ih with hd | ⟨token, _, _, _, _, hc, heq, -⟩
      · exact .inl (.rotated hf hr hd)
      · -- The token that `f` has rotated is issued, the new one is not.
        have hi := (h.spent f hf a b hr).1
        rw [heq] at hi
        exact absurd hi (h.successor_not_issued htask hc)
    · refine .inr ⟨_, _, _, _, _, hc, rfl, ?_⟩
      rcases ih with hd | ⟨_, _, _, _, _, hc', -, hd⟩
      · exact hd
      · rw [hc] at hc'
        cases hc'
        exact hd

/-- A step leaves a new descendant only by a rotation of one that is there. -/
theorem Left.of_step
    (ho : ∀ tokenHash, old tokenHash → Issued hashToken start db.frames tokenHash) {i}
    (hl : Left hashToken old userId db' i) : Left hashToken old userId db i ∨
      ∃ j, task.frame.rotating ≠ none ∧ task.Wrote j ∧ Left hashToken old userId db j := by
  obtain ⟨s', hs', hu, hde⟩ := hl
  have hde := hde.of_step htask htasks heffect h
  rcases heffect.sessionAt hs' with
    ⟨s, hs, hu', hh, -⟩ | ⟨hb, hsu, new, -, hn, hh⟩
  · rcases hde with hd | ⟨token, draw, session, verified, newToken, hc, heq, -⟩
    · exact .inl ⟨s, hs, hu'.trans hu, hh ▸ hd⟩
    · have hi := h.issued i s hs
      rw [hh, heq] at hi
      exact absurd hi (h.successor_not_issued htask hc)
  · rcases hde with hd | ⟨_, _, session, _, _, hc, -, hd⟩
    · have hi := hd.issued ho
      rw [hh] at hi
      exact absurd hi (h.not_issued htask hn hb)
    · obtain ⟨⟨j, hw, hro⟩, hp, -⟩ := (h.holds t task htask).rotateCommit_spec hc
      have hr : task.frame.rotating = some session := by
        rw [hc]
        rfl
      refine .inr ⟨j, by rw [hr]; exact Option.some_ne_none _, hw, session, hro, ?_, ?_⟩
      · rw [← hsu session hr, hu]
      · rw [hp]
        exact hd

variable {d : Nat} {deletion : Task Session Frame} {choice : Choice}
  (hok : noOverlap db (.run t choice) = true)

include hok

theorem Ending.step_other (he : Ending hashToken start old userId d db deletion)
    (hne : t ≠ d) :
    Ending hashToken start old userId d db' deletion where
  call := by rw [htasks, getElem?_set_ne hne, he.call]
  operation := he.operation
  known := fun tokenHash hol => (he.known tokenHash hol).step htask htasks heffect
  covered := by
    intro todo deleted hf i hl
    rcases hl.of_step htask htasks heffect h he.known with
      hl | ⟨j, hr, hw, hl⟩
    · exact he.covered todo deleted hf i hl
    · rcases he.covered todo deleted hf j hl with ht | hw'
      · exact absurd ht (he.clear todo deleted hf t j task htask hr hw)
      · exact absurd (h.exclusive t d task deletion j htask he.call hw hw') hne
  clear := by
    intro todo deleted hf u i other ho hr hw
    rw [htasks] at ho
    rcases getElem?_tasks_set ho with ⟨rfl, rfl⟩ | ⟨-, ho⟩
    · generalize db'.rows = rows' at heffect
      cases heffect with
      | same => exact he.clear todo deleted hf _ i task htask hr hw
      | quiet _ _ _ _ hc =>
        rcases hc with hn | ⟨hsa, hwr⟩
        · exact absurd hn hr
        · obtain ⟨v, hv⟩ := hw
          exact he.clear todo deleted hf _ i task htask (hsa ▸ hr) ⟨v, hwr ▸ hv⟩
      | marked hfra _ hs =>
        obtain ⟨v, hv⟩ := hw
        cases mem_singleton.mp hv
        intro ht
        simp only [noOverlap, htask, hfra, hs, Option.all_some, and_eq_true, all_eq_true] at hok
        have hfr := hok.2 deletion.frame (frame_mem_frames he.call)
        rw [hf] at hfr
        simp [Frame.todo, ht] at hfr
      | _ => exact absurd rfl hr
    · exact he.clear todo deleted hf u i other ho hr hw
  ended := by
    intro deleted hf i hl
    rcases hl.of_step htask htasks heffect h he.known with hl | ⟨j, -, -, hl⟩
    · exact he.ended deleted hf i hl
    · exact he.ended deleted hf j hl

theorem Ending.step_own (he : Ending hashToken start old userId t db task) :
    Ending hashToken start old userId t db' task' := by
  have hr : task.frame.rotating = none := rotating_of_delete he.operation
  have hop : task'.frame.operation = .delete (.user userId) :=
    heffect.operation.trans he.operation
  have hl : ∀ i, Left hashToken old userId db' i → Left hashToken old userId db i := by
    intro i hl
    rcases hl.of_step htask htasks heffect h he.known with hl | ⟨j, hn, -⟩
    · exact hl
    · exact absurd hr hn
  -- The other calls are where they were.
  have hot : ∀ {u : Nat} {other : Task Session Frame}, db'.tasks[u]? = some other →
      other.frame.rotating ≠ none → db.tasks[u]? = some other := by
    intro u other ho hne
    rw [htasks] at ho
    rcases getElem?_tasks_set ho with ⟨rfl, rfl⟩ | ⟨-, ho⟩
    · exact absurd (rotating_of_delete hop) hne
    · exact ho
  refine ⟨htasks ▸ getElem?_set_self_of_eq_some htask task', hop,
    fun tokenHash hol => (he.known tokenHash hol).step htask htasks heffect, ?_, ?_, ?_⟩
  · intro todo deleted hf i hi
    have hi := hl i hi
    generalize db'.rows = rows' at heffect
    cases heffect with
    | same => exact he.covered todo deleted hf i hi
    | quiet _ _ _ hd =>
      rw [hf] at hd
      cases hd
    | scanned _ ht =>
      cases hf
      obtain ⟨session, hrow, hu, -⟩ := hi
      exact .inl ((ht i).mpr ⟨session, hrow, beq_iff_eq.mpr hu⟩)
    | removed hfr =>
      cases hf
      rcases he.covered _ _ hfr i hi with hm | ⟨v, hv⟩
      · rcases mem_cons.mp hm with rfl | hm
        · exact .inr ⟨none, mem_cons_self⟩
        · exact .inl hm
      · exact .inr ⟨v, mem_cons_of_mem _ hv⟩
    | skipped hfr hs =>
      cases hf
      rcases he.covered _ _ hfr i hi with hm | hw
      · rcases mem_cons.mp hm with rfl | hm
        · obtain ⟨session, hrow, hu, -⟩ := hi
          exact .inr (hs session hrow (beq_iff_eq.mpr hu))
        · exact .inl hm
      · exact .inr hw
    | _ => cases hf
  · intro todo deleted hf u i other ho hne hw
    have ho := hot ho hne
    generalize db'.rows = rows' at heffect
    cases heffect with
    | same => exact he.clear todo deleted hf u i other ho hne hw
    | quiet _ _ _ hd =>
      rw [hf] at hd
      cases hd
    | scanned hfr ht =>
      cases hf
      intro hm
      obtain ⟨session, hrow, hc⟩ := (ht i).mp hm
      obtain ⟨held, hh⟩ := Option.ne_none_iff_exists'.mp hne
      obtain rfl := hrow.eq ((h.holds u other ho).rotating hh hw)
      simp only [noOverlap, htask, hfr, all_eq_true] at hok
      have hfre := hok other.frame (frame_mem_frames ho)
      rw [hh] at hfre
      simp only [Option.all_some, bne_iff_ne] at hfre
      exact hfre (beq_iff_eq.mp hc)
    | removed hfr | skipped hfr =>
      cases hf
      intro hm
      exact he.clear _ _ hfr u i other ho hne hw (mem_cons_of_mem _ hm)
    | _ => cases hf
  · intro deleted hf i hi
    have hb := hl i hi
    obtain ⟨session, hrow, -, -⟩ := hi
    generalize db'.rows = rows' at heffect hrow
    cases heffect with
    | same => exact he.ended deleted hf i hb
    | quiet _ _ _ hd =>
      rw [hf] at hd
      cases hd
    | deleted hfr hro =>
      cases hf
      rcases he.covered _ _ hfr i hb with hm | hw
      · cases hm
      · exact (hro i session hrow).2 hw
    | _ => cases hf

end Step

theorem Orderly.step {choice} (h : Orderly hashToken start db)
    (hok : noOverlap db (.run t choice) = true) (htask : db.tasks[t]? = some task)
    (ha : db.Applies clash t task
      (Sessions.step hashToken choice (task.view db.rows) task.frame) db') :
    Orderly hashToken start db' ∧ ∃ task', db'.tasks = db.tasks.set t task' ∧
      Effect hashToken db.rows task db'.rows task' := by
  obtain ⟨task', htasks, heffect, hh⟩ :=
    advances_of_applies (h.holds t task htask) htask hok ha
  have hdr : task'.frame.drawn hashToken = task.frame.drawn hashToken := by
    rw [Frame.drawn, heffect.operation, Frame.drawn]
  refine ⟨⟨exclusive_applies h.exclusive htask ha,
    h.keyed.applies clash_symm h.exclusive htask (keepsKeys_step hashToken choice _ _) ha,
    ?_, ?_, ?_, h.issued_step htask htasks heffect, h.spent_step htask htasks heffect,
    h.once_step htask htasks heffect⟩, task', htasks, heffect⟩
  · exact holds_applies h.exclusive htask ha h.holds htasks hh fun _ => Holds.others
  · intro u u' other other' tokenHash
    refine (h.atMostOne_drawn tokenHash).set htasks ?_ u u' other other'
    rw [hdr]
    exact fun hd u other hne ho hd' => hne (h.drawn u t other task _ ho htask hd' hd)
  · refine h.new.set htasks ?_ fun _ _ _ _ ho => ho
    rw [hdr]
    exact h.new t task htask

end Steps

/-! ## Runs -/

section Runs

variable {hashToken : String → String} {start : List (Option Session)} {old : String → Prop}
variable {userId : Uuid} {db : Database Session Frame} {d : Nat} {deletion : Task Session Frame}

theorem Operation.enter_spec (operation : Operation) :
    operation.enter.operation = operation ∧ operation.enter.idle = true ∧
      operation.enter.issued = none ∧ operation.enter.rotating = none := by
  cases operation <;> exact ⟨rfl, rfl, rfl, rfl⟩

variable {tokenHash : String} {operation : Operation}

theorem Issued.started (h : Issued hashToken start db.frames tokenHash) (operation) :
    Issued hashToken start ((sessions hashToken).move db (.start operation)).frames tokenHash := by
  rcases h with hs | ⟨f, hf, hi⟩
  · exact .inl hs
  · exact .inr ⟨f, mem_frames_start.mpr (.inl hf), hi⟩

theorem Orderly.init (hu : Unique clash start) :
    Orderly hashToken start ⟨start, []⟩ where
  exclusive := exclusive_init start
  keyed := keyed_init hu
  holds := each_init start
  drawn := by
    intro u u' task task' tokenHash htask
    cases htask
  new := each_init start
  issued := fun i session hr => .inl ⟨i, session, hr, rfl⟩
  spent := by
    intro f hf
    cases hf
  once := fun _ => Nat.zero_le 1

theorem Orderly.started (h : Orderly hashToken start db)
    (hfr : freshDraw hashToken start db (.start operation) = true) :
    Orderly hashToken start ((sessions hashToken).move db (.start operation)) := by
  obtain ⟨ho, hid, hi, -⟩ := operation.enter_spec
  have hn : operation.enter.rotation = none := rotation_eq_none hi
  have hdra : ∀ {tokenHash : String}, operation.enter.drawn hashToken = some tokenHash →
      (∀ i session, SessionAt start i session → session.refreshTokenHash ≠ tokenHash) ∧
        ∀ f ∈ db.frames, f.drawn hashToken ≠ some tokenHash := by
    intro tokenHash hdr
    rw [Frame.drawn, ho] at hdr
    simp only [freshDraw, hdr, Option.all_some, and_eq_true, all_eq_true, bne_iff_ne] at hfr
    refine ⟨?_, hfr.2⟩
    intro i session hro
    simpa using hfr.1 (some session) (mem_of_getElem? hro)
  have hh : Holds hashToken db.rows ⟨operation.enter, [], []⟩ := by
    refine .idle hid ?_
    rw [hi]
    rintro _ ⟨⟩
  refine ⟨exclusive_start h.exclusive operation, h.keyed.append _,
    h.holds.append hh, ?_, ?_, ?_, ?_, ?_⟩
  · intro u u' task task' tokenHash
    refine (h.atMostOne_drawn tokenHash).append ?_ u u' task task'
    exact fun hd _ _ hot => (hdra hd).2 _ (frame_mem_frames hot)
  · refine h.new.append ?_
    intro tokenHash hdr
    exact (hdra hdr).1
  · intro i session hro
    exact (h.issued i session hro).started operation
  · intro f hf token newToken hr
    rcases mem_frames_start.mp hf with hf | rfl
    · obtain ⟨hi, hs⟩ := h.spent f hf token newToken hr
      exact ⟨hi.started operation, hs⟩
    · cases hn.symm.trans hr
  · intro tokenHash
    have hno : operation.enter.rotates hashToken tokenHash = false := by
      rw [rotates, hn]
      rfl
    rw [countP_frames_start hno]
    exact h.once tokenHash

/-- A call that begins has rotated nothing. -/
theorem Descends.of_started
    (h : Descends hashToken ((sessions hashToken).move db (.start operation)).frames old
      tokenHash) : Descends hashToken db.frames old tokenHash := by
  induction h with
  | refl h => exact .refl h
  | rotated hf hr _ ih =>
    rcases mem_frames_start.mp hf with hf | rfl
    · exact .rotated hf hr ih
    · cases (rotation_eq_none operation.enter_spec.2.2.1).symm.trans hr

theorem Left.of_started {i}
    (h : Left hashToken old userId ((sessions hashToken).move db (.start operation)) i) :
    Left hashToken old userId db i := by
  obtain ⟨session, hr, hu, hd⟩ := h
  exact ⟨session, hr, hu, hd.of_started⟩

theorem Ending.started (h : Ending hashToken start old userId d db deletion)
    (operation : Operation) :
    Ending hashToken start old userId d ((sessions hashToken).move db (.start operation))
      deletion where
  call := getElem?_append_of_eq_some h.call _
  operation := h.operation
  known := fun tokenHash hol => (h.known tokenHash hol).started operation
  covered := fun todo deleted hf i hl => h.covered todo deleted hf i hl.of_started
  clear := by
    intro todo deleted hf u i other ho hr hw
    rcases getElem?_concat_eq_some_iff.mp ho with ho | ⟨-, rfl⟩
    · exact h.clear todo deleted hf u i other ho hr hw
    · exact absurd operation.enter_spec.2.2.2 hr
  ended := fun deleted hf i hl => h.ended deleted hf i hl.of_started

/-- The deletion begins: the old tokens are those that have been issued. -/
theorem Ending.begin (db : Database Session Frame) :
    Ending hashToken start (Issued hashToken start db.frames) userId db.tasks.length
      ((sessions hashToken).move db (.start (.delete (.user userId))))
      ⟨.deleteScan (.user userId), [], []⟩ where
  call := getElem?_concat_eq_some_iff.mpr (.inr ⟨rfl, rfl⟩)
  operation := rfl
  known := fun _ ho => ho.started _
  covered := nofun
  clear := nofun
  ended := nofun

/-- What holds in every state after the deletion, the call number `d`, has begun. -/
structure Deleting (hashToken : String → String) (start : List (Option Session))
    (old : String → Prop) (userId : Uuid) (d : Nat) (db : Database Session Frame) : Prop where
  orderly : Orderly hashToken start db
  ending : ∃ deletion, Ending hashToken start old userId d db deletion

theorem Deleting.step {choice db' t task} (h : Deleting hashToken start old userId d db)
    (hok : noOverlap db (.run t choice) = true) (htask : db.tasks[t]? = some task)
    (ha : db.Applies clash t task
      (Sessions.step hashToken choice (task.view db.rows) task.frame) db') :
    Deleting hashToken start old userId d db' := by
  obtain ⟨ho, task', htasks, heffect⟩ := h.orderly.step hok htask ha
  obtain ⟨deletion, he⟩ := h.ending
  refine ⟨ho, ?_⟩
  by_cases htd : t = d
  · subst htd
    obtain rfl : task = deletion := Option.some.inj (htask.symm.trans he.call)
    exact ⟨task', he.step_own htask htasks heffect h.orderly hok⟩
  · exact ⟨deletion, he.step_other htask htasks heffect h.orderly hok htd⟩

def orderly (hashToken : String → String) (start : List (Option Session))
    (db : Database Session Frame) (m : Move Operation Choice) : Bool :=
  freshDraw hashToken start db m && noOverlap db m

/-- In every run in which rotations and deletions of one session do not overlap, a token
is rotated at most once, and once the deletion of a user's sessions has returned, no
session of the user descends from a token that had been issued when it began. -/
theorem sessions_end (hu : Unique Session.clash start) {moves : List (Move Operation Choice)}
    (hm : Meets (sessions hashToken).move (fun db m => orderly hashToken start db m = true)
      ⟨start, []⟩ moves) :
    let db := (sessions hashToken).run ⟨start, []⟩ moves
    (∀ token, db.frames.countP (Frame.rotates hashToken (hashToken token)) ≤ 1) ∧
      ∀ before after userId, moves = before ++ .start (.delete (.user userId)) :: after →
        let began := (sessions hashToken).run ⟨start, []⟩ before
        ∀ deleted, db.frames[began.frames.length]? =
            some (.returned (.delete (.user userId)) (.deleted deleted)) →
          ∀ session, some session ∈ db.rows → session.userId = userId →
            ¬ Descends hashToken db.frames (Issued hashToken start began.frames)
              session.refreshTokenHash := by
  have hru : ∀ {db : Database Session Frame} {moves : List (Move Operation Choice)},
      Orderly hashToken start db →
      Meets (sessions hashToken).move (fun db m => orderly hashToken start db m = true) db moves →
        Orderly hashToken start ((sessions hashToken).run db moves) := by
    intro db moves hdb hm
    refine run_invariant_of_meets ?_ ?_ hdb hm
    · intro db operation h hok
      exact h.started (and_eq_true_iff.mp hok).1
    · intro db t choice task db' h hok htask hac
      exact (h.step (and_eq_true_iff.mp hok).2 htask hac).1
  intro db
  refine ⟨fun token => (hru (Orderly.init hu) hm).once _, ?_⟩
  rintro before after userId rfl began deleted hr session hs hus hd
  obtain ⟨hb, hst, ha⟩ := meets_append.mp hm
  have hbe : Orderly hashToken start began := hru (Orderly.init hu) hb
  have hdb : Deleting hashToken start (Issued hashToken start began.frames) userId
      began.tasks.length db := by
    rw [show db = (sessions hashToken).run
      ((sessions hashToken).move began (.start (.delete (.user userId)))) after from foldl_append]
    refine run_invariant_of_meets ?_ ?_ ?_ ha
    · intro db operation h hok
      obtain ⟨deletion, he⟩ := h.ending
      exact ⟨h.orderly.started (and_eq_true_iff.mp hok).1, deletion, he.started operation⟩
    · intro db t choice task db' h hok htask hac
      exact h.step (and_eq_true_iff.mp hok).2 htask hac
    · exact ⟨hbe.started (and_eq_true_iff.mp hst).1, _, Ending.begin began⟩
  obtain ⟨_, he⟩ := hdb.ending
  obtain ⟨i, hro⟩ := mem_iff_getElem?.mp hs
  refine he.ended deleted ?_ i ⟨session, hro, hus, hd⟩
  rw [frames, getElem?_map, frames, length_map, he.call] at hr
  exact Option.some.inj hr

end Runs

/-! ## Rotations that overlap -/

def oneSession : List (Option Session) :=
  [some ⟨1, 7, "token", "password", none, 0, 100, none, none, none⟩]

def rotateTo (id : Uuid) (newToken : String) : Operation := .rotate "token" ⟨id, some newToken⟩

/-- Two rotations find the session before the first one revokes it. -/
def rotationRace : List (Move Operation Choice) :=
  [.start (rotateTo 2 "second"), .start (rotateTo 3 "third"), .run 0 {}, .run 1 {},
    .run 0 {}, .run 0 {}, .run 0 {}, .run 1 {}, .run 1 {}, .run 1 {}]

/-- A rotation that has inserted its successor. -/
def rotationBegun : List (Move Operation Choice) :=
  [.start (rotateTo 2 "second"), .run 0 {}, .run 0 {}, .run 0 {}]

/-- The deletion looks its rows up, waits for the rotation, and goes on. -/
def deletionRace : List (Move Operation Choice) :=
  [.run 1 {}, .run 1 {}, .run 0 {}, .run 1 {}, .run 1 {}]

/-- Both rotations of one token succeed; and the successor of a session survives the
deletion of all sessions of its user. -/
theorem rotations_overlap :
    let run := fun moves => (sessions id).run ⟨oneSession, []⟩ moves
    let rotated := run rotationRace
    let began := run rotationBegun
    let moves := rotationBegun ++ .start (.delete (.user 7)) :: deletionRace
    let db := run moves
    ((Meets (sessions id).move (fun db m => freshDraw id oneSession db m = true) ⟨oneSession, []⟩
          rotationRace ∧
        rotated.frames = [.returned (rotateTo 2 "second") (.rotated ⟨7, .password⟩ "second"),
          .returned (rotateTo 3 "third") (.rotated ⟨7, .password⟩ "third")] ∧
        rotated.frames.countP (Frame.rotates id "token") = 2) ∧
      Meets (sessions id).move (fun db m => freshDraw id oneSession db m = true) ⟨oneSession, []⟩
        moves) ∧
      db.frames[began.frames.length]? = some (.returned (.delete (.user 7)) (.deleted 1)) ∧
        ∃ session, some session ∈ db.rows ∧ session.userId = 7 ∧ session.revokedAt = none ∧
          Descends id db.frames (Issued id oneSession began.frames) session.refreshTokenHash := by
  intro run rotated began moves db
  refine ⟨⟨by decide, by decide⟩, by decide,
    ⟨2, 7, "second", "password", none, 0, refreshTokenExpiry, none, none, none⟩, by decide, rfl,
    rfl, ?_⟩
  have ho : Issued id oneSession began.frames "token" := .inl ⟨0, _, rfl, rfl⟩
  exact @Descends.rotated id _ _ _ "token" "second" mem_cons_self rfl (.refl ho)

/-- A rotation, then the deletion, then a login and a rotation of the old token. -/
def sessionTurns : List (Move Operation Choice) :=
  [.start (rotateTo 2 "second"), .run 0 {}, .run 0 {}, .run 0 {}, .run 0 {}]

def sessionTurnsAfter : List (Move Operation Choice) :=
  [.run 1 {}, .run 1 {}, .run 1 {}, .run 1 {},
    .start (.create ⟨7, .password, none, none⟩ ⟨4, some "login"⟩), .run 2 {}, .run 2 {},
    .start (rotateTo 5 "again"), .run 3 {}]

theorem sessions_end_turns :
    let began := (sessions id).run ⟨oneSession, []⟩ sessionTurns
    let db := (sessions id).run ⟨oneSession, []⟩
      (sessionTurns ++ .start (.delete (.user 7)) :: sessionTurnsAfter)
    (db.frames = [.returned (rotateTo 2 "second") (.rotated ⟨7, .password⟩ "second"),
          .returned (.delete (.user 7)) (.deleted 2),
          .returned (.create ⟨7, .password, none, none⟩ ⟨4, some "login"⟩) (.created "login"),
          .returned (rotateTo 5 "again") (.error .invalidRefreshToken)] ∧
        db.rows = [none, none,
          some ⟨4, 7, "login", "password", none, 0, refreshTokenExpiry, none, none, none⟩]) ∧
      (∀ token, db.frames.countP (Frame.rotates id (id token)) ≤ 1) ∧
        ∀ session, some session ∈ db.rows → session.userId = 7 →
          ¬ Descends id db.frames (Issued id oneSession began.frames) session.refreshTokenHash := by
  have hm : Meets (sessions id).move (fun db m => orderly id oneSession db m = true)
      ⟨oneSession, []⟩ (sessionTurns ++ .start (.delete (.user 7)) :: sessionTurnsAfter) := by
    decide
  have he := sessions_end (unique_of_pairwise clash_symm (by decide)) hm
  exact ⟨by decide, he.1, he.2 sessionTurns sessionTurnsAfter 7 rfl 2 (by decide)⟩

end Uptrakit.Auth.Sessions
