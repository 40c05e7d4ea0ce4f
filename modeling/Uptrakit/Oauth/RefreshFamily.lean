import Uptrakit.Oauth.RefreshToken

/-!
# Families of refresh tokens

A row is live if it was neither rotated nor revoked.  Two rotations that have both read a live
row give it two successors, and a revocation does not see the successor of a rotation that has
not committed (`two_live_tokens`).  Where a rotation marks its row only while that is live and no
revocation has it still before it, and a revocation looks its rows up only while no rotation of
the family has marked a row and not committed, a family has at most one live row, and none after
a replay was detected (`family_has_one_live_token`).
-/

namespace Uptrakit.Oauth.RefreshToken

open Concurrent List Database Transactions Token

/-! ## Rows -/

def TokenAt (rows : List (Option Token)) (i : Nat) (row : Token) : Prop :=
  rows[i]? = some (some row)

variable {rows rows' : List (Option Token)} {i : Nat} {row : Token} {familyId : Uuid}

theorem TokenAt.eq {a b} (ha : TokenAt rows i a) (hb : TokenAt rows i b) : a = b := by
  rw [TokenAt, ha] at hb
  exact Option.some.inj (Option.some.inj hb)

theorem TokenAt.lt {a} (h : TokenAt rows i a) : i < rows.length :=
  (List.getElem?_eq_some_iff.1 h).1

theorem Token.clash_symm (a b : Token) : a.clash b = b.clash a := by
  simp only [Token.clash, Bool.beq_comm]

/-- The row was neither rotated nor revoked. -/
def Token.Live (row : Token) : Prop := row.rotatedAt = none ∧ row.revokedAt = none

instance (row : Token) : Decidable row.Live := inferInstanceAs (Decidable (_ ∧ _))

/-- There is a live row of the family at place `i`. -/
def LiveAt (familyId : Uuid) (rows : List (Option Token)) (i : Nat) : Prop :=
  ∃ row, TokenAt rows i row ∧ row.familyId = familyId ∧ row.Live

theorem liveAt_iff :
    ((rows[i]?).join.any fun row => decide (row.familyId = familyId ∧ row.Live)) = true ↔
      LiveAt familyId rows i := by
  simp [LiveAt, TokenAt, Option.any_eq_true, Option.join_eq_some_iff]

instance (familyId : Uuid) (rows : List (Option Token)) (i : Nat) :
    Decidable (LiveAt familyId rows i) :=
  decidable_of_iff _ liveAt_iff

/-- The rows stay in their places, with their keys and families. -/
def Kept (rows rows' : List (Option Token)) : Prop :=
  ∀ i row, TokenAt rows i row → ∃ row', TokenAt rows' i row' ∧ row'.id = row.id ∧
    row'.tokenHash = row.tokenHash ∧ row'.familyId = row.familyId

theorem Kept.refl (rows) : Kept rows rows :=
  fun _ row hrow => ⟨row, hrow, rfl, rfl, rfl⟩

/-! ## Calls -/

def Frame.marked : Frame → Option Uuid
  | tenant _ _ row _ | commit _ _ row _ _ => some row.familyId
  | _ => none

/-- The rows of the family that a call has still before it. -/
def Frame.revoking (familyId : Uuid) : Frame → Option (List Nat)
  | revokeRows _ _ row todo => if row.familyId = familyId then some todo else none
  | _ => none

theorem Frame.marked_of_revoking {f : Frame} (h : f.revoking familyId ≠ none) :
    f.marked = none := by
  cases f with
  | tenant | commit => exact absurd rfl h
  | _ => rfl

def Frame.detected : Frame → Option String
  | returned call answer =>
    if answer = .error (.invalidGrant "replay_detected") then some call.refreshToken else none
  | _ => none

/-- The condition on a step, for the rows of a family: a rotation marks a row only while the row
is live and no revocation has it still before it; a revocation looks its rows up only while no
rotation has marked a row and not committed yet. -/
def noOverlap (familyId : Uuid) (db : Database Token Frame) : Move Rotation Choice → Bool
  | .start _ => true
  | .run t _ =>
    match db.tasks[t]? with
    | none => true
    | some task =>
      match task.frame with
      | .mark _ _ row _ =>
        row.familyId != familyId ||
          (selectOne (tableWhere some (·.id == row.id)) db.rows).all fun found =>
            decide found.2.Live &&
              db.frames.all fun f => (f.revoking familyId).all (!·.contains found.1)
      | .revokeScan _ _ row =>
        row.familyId != familyId || db.frames.all fun f => f.marked != some familyId
      | _ => true

/-- The row that a call has read is there, with its keys and its family. -/
def Known (rows : List (Option Token)) (row : Token) : Prop :=
  ∃ i current, TokenAt rows i current ∧ current.id = row.id ∧ current.familyId = row.familyId

theorem Known.kept (h : Known rows row) (hk : Kept rows rows') : Known rows' row := by
  obtain ⟨i, current, hc, hid, hf⟩ := h
  obtain ⟨row', hrow', hid', -, hf'⟩ := hk i current hc
  exact ⟨i, row', hrow', hid'.trans hid, hf'.trans hf⟩

/-- The token belongs to the family. -/
def Member (rows : List (Option Token)) (tokenHash : String) (familyId : Uuid) : Prop :=
  ∃ i row, TokenAt rows i row ∧ row.tokenHash = tokenHash ∧ row.familyId = familyId

theorem Member.kept {tokenHash} (h : Member rows tokenHash familyId) (hk : Kept rows rows') :
    Member rows' tokenHash familyId := by
  obtain ⟨i, row, hrow, rfl, rfl⟩ := h
  obtain ⟨row', hrow', -, hh, hf⟩ := hk i row hrow
  exact ⟨i, row', hrow', hh, hf⟩

def Frame.idle : Frame → Bool
  | begin .. | find .. | sign .. | returned .. => true
  | abort _ error => error == .database
  | _ => false

variable (service : Service) (familyId : Uuid) (rows : List (Option Token)) in
/-- What a call has read and written at the point where it stands. -/
inductive Holds : Task Token Frame → Prop
  | idle {f : Frame} (hf : f.idle = true) : Holds ⟨f, [], []⟩
  | consent {call now row scope} (hknown : Known rows row) :
      Holds ⟨.consent call now row scope, [], []⟩
  | insert {call now row scope} (hknown : Known rows row) :
      Holds ⟨.insert call now row scope, [], []⟩
  | mark {call now row} {new : Token} {scope} (hknown : Known rows row)
      (hnew : new.familyId = row.familyId) : Holds ⟨.mark call now row scope, [], [new]⟩
  | marked {f : Frame} {row : Token} {current} {new : Token} {i now}
      (hf : f.marked = some row.familyId) (hrow : TokenAt rows i current)
      (hfamily : current.familyId = row.familyId) (hnew : new.familyId = row.familyId)
      (hlive : row.familyId = familyId → current.Live) :
      Holds ⟨f, [(i, some { current with rotatedAt := some now })], [new]⟩
  | revokeScan {call : Rotation} {now} {row : Token}
      (hmember : Member rows (service.hashToken call.refreshToken) row.familyId) :
      Holds ⟨.revokeScan call now row, [], []⟩
  | revokeRows {call : Rotation} {now} {row : Token} {todo writes}
      (hmember : Member rows (service.hashToken call.refreshToken) row.familyId)
      (hwrites : ∀ i v, (i, v) ∈ writes → ∃ current, TokenAt rows i current ∧
        v = some { current with revokedAt := some now }) :
      Holds ⟨.revokeRows call now row todo, writes, []⟩

/-- What the steps of other calls leave of it. -/
theorem Holds.others {service task} (h : Holds service familyId rows task) (hke : Kept rows rows')
    (hl : ∀ i row, task.Wrote i → rows[i]? = some row → rows'[i]? = some row) :
    Holds service familyId rows' task := by
  cases h with
  | idle hf => exact .idle hf
  | consent hk => exact .consent (hk.kept hke)
  | insert hk => exact .insert (hk.kept hke)
  | mark hk hn => exact .mark (hk.kept hke) hn
  | marked hf hrow hfa hn hli =>
    exact .marked hf (hl _ _ ⟨_, mem_singleton_self _⟩ hrow) hfa hn hli
  | revokeScan hm => exact .revokeScan (hm.kept hke)
  | revokeRows hm hwrites =>
    refine .revokeRows (hm.kept hke) fun i v hv => ?_
    obtain ⟨current, hc, hve⟩ := hwrites i v hv
    exact ⟨current, hl i _ ⟨v, hv⟩ hc, hve⟩

/-! ## The family -/

/-- What holds in every state of a run that meets the condition. -/
structure Healthy (service : Service) (familyId : Uuid) (db : Database Token Frame) : Prop where
  keyed : db.Keyed Token.clash
  exclusive : db.Exclusive
  holds : db.Each (Holds service familyId db.rows)
  single : ∀ i j, LiveAt familyId db.rows i → LiveAt familyId db.rows j → i = j
  /-- A revocation reaches every live row. -/
  revoking : db.Each fun task => ∀ todo, task.frame.revoking familyId = some todo →
    ∀ i, LiveAt familyId db.rows i → i ∈ todo ∨ task.Wrote i
  /-- Rotations and revocations do not overlap. -/
  apart : ∀ f ∈ db.frames, ∀ g ∈ db.frames, f.revoking familyId ≠ none → g.marked ≠ some familyId
  detected : ∀ f ∈ db.frames, ∀ token, f.detected = some token →
    ∃ family, Member db.rows (service.hashToken token) family ∧
      (family = familyId → ∀ i, ¬ LiveAt familyId db.rows i)

namespace Healthy

variable {service : Service} {familyId : Uuid} {db db' : Database Token Frame} {t : Nat}
  {task task' : Task Token Frame} {act : Act Token Frame}

variable {call : Rotation} {error : OAuthRefreshError} {f : Frame} {now : Int} {choice : Choice}
  {new current : Token} {todo : List Nat}

theorem check_ne_replay (h : check call now row = .error error) :
    error ≠ .invalidGrant "replay_detected" := by
  rintro rfl
  unfold check effectiveScope at h
  repeat' split at h
  all_goals simp at h

variable (hrow : TokenAt rows i current)

include hrow

theorem kept_rotated (now new) :
    Kept rows (rows.set i (some { current with rotatedAt := some now }) ++ [some new]) := by
  intro j row hj
  by_cases hij : i = j
  · subst hij
    obtain rfl := hj.eq hrow
    exact ⟨_, getElem?_append_of_eq_some (getElem?_set_self hj.lt) _, rfl, rfl, rfl⟩
  · exact ⟨row, getElem?_append_of_eq_some ((getElem?_set_ne hij).trans hj) _, rfl, rfl, rfl⟩

theorem liveAt_rotated {j} (h : LiveAt familyId
      (rows.set i (some { current with rotatedAt := some now }) ++ [some new]) j) :
    (j ≠ i ∧ LiveAt familyId rows j) ∨ (j = rows.length ∧ new.familyId = familyId) := by
  obtain ⟨row, hj, hf, hl⟩ := h
  rcases getElem?_concat_eq_some_iff.1 hj with hj | ⟨hle, heq⟩
  · rcases (getElem?_set_eq_some_iff hrow.lt).1 hj with ⟨-, heq⟩ | ⟨hij, hj⟩
    · cases heq
      exact absurd hl.1 (Option.some_ne_none now)
    · exact .inl ⟨hij, row, hj, hf, hl⟩
  · cases heq
    exact .inr ⟨hle.trans length_set, hf⟩

/-- A row that the call has not written is seen as it is committed. -/
theorem join_view_of_not_wrote (hn : ¬ task.Wrote i) :
    ((task.view rows)[i]?).join = some current := by
  rw [Task.getElem?_view hrow, Task.version_of_not_wrote hn]
  rfl

omit hrow

section Writes

variable (hwrites : ∀ i v, (i, v) ∈ task.writes → ∃ current, TokenAt rows i current ∧
  v = some { current with revokedAt := some now })

include hwrites

/-- What a revocation sees of a row: it is committed, or the call has revoked it. -/
theorem view_revocation (hi : task.inserts = [])
    (hvi : TokenAt (task.view rows) i current) :
    ∃ old, TokenAt rows i old ∧
      (current = old ∧ ¬ task.Wrote i ∨ current = { old with revokedAt := some now }) := by
  rcases Task.view_cases hvi with ⟨old, ho, hv⟩ | ⟨-, r, hr, -⟩
  · by_cases hw : task.Wrote i
    · obtain ⟨_, hm, hwr⟩ := Task.exists_version_of_wrote hw
      obtain ⟨base, hb, rfl⟩ := hwrites i _ hm
      exact ⟨base, hb, .inr (Option.some.inj (hv.trans (hwr old)))⟩
    · rw [Task.version_of_not_wrote hw] at hv
      subst hv
      exact ⟨current, ho, .inl ⟨rfl, hw⟩⟩
  · rw [hi] at hr
    cases hr

theorem kept_revocation : Kept rows (task.view rows) := by
  intro i old ho
  have hv : (task.view rows)[i]? = some (task.version i (some old)) := Task.getElem?_view ho
  by_cases hw : task.Wrote i
  · obtain ⟨_, hm, hwr⟩ := Task.exists_version_of_wrote hw
    obtain ⟨base, hb, rfl⟩ := hwrites i _ hm
    obtain rfl := ho.eq hb
    rw [hwr] at hv
    exact ⟨_, hv, rfl, rfl, rfl⟩
  · rw [Task.version_of_not_wrote hw] at hv
    exact ⟨old, hv, rfl, rfl, rfl⟩

/-- A row that a revocation leaves live is one that it has not written. -/
theorem liveAt_revocation (hi : task.inserts = []) (h : LiveAt familyId (task.view rows) i) :
    LiveAt familyId rows i ∧ ¬ task.Wrote i := by
  obtain ⟨current, hc, hf, hl⟩ := h
  obtain ⟨old, ho, ⟨rfl, hw⟩ | rfl⟩ := view_revocation hwrites hi hc
  · exact ⟨⟨current, ho, hf, hl⟩, hw⟩
  · exact absurd hl.2 (Option.some_ne_none now)

end Writes

variable (h : Healthy service familyId db)

include h

section Task

variable (htask : db.tasks[t]? = some task)

include htask

section Act

variable (hact : db.Applies clash t task act db')
  (hkeeps : Database.KeepsKeys clash (task.view db.rows) act)

include hact hkeeps

/-- A step of one call.  It leaves no more live rows than there were, or it is the commit of a
rotation of the family, after which its new row is the only one. -/
theorem set (ht : db'.tasks = db.tasks.set t task') (hk : Kept db.rows db'.rows)
    (how : Holds service familyId db'.rows task')
    (hl : (∀ i, LiveAt familyId db'.rows i → LiveAt familyId db.rows i) ∨
      task.frame.marked = some familyId ∧ (∃ i, LiveAt familyId db.rows i) ∧
        ∀ i, LiveAt familyId db'.rows i → i = db.rows.length)
    (hre : ∀ todo, task'.frame.revoking familyId = some todo →
      (∀ i, LiveAt familyId db'.rows i → i ∈ todo ∨ task'.Wrote i) ∧
        ∀ f ∈ db.frames, f.marked ≠ some familyId)
    (hma : task'.frame.marked = some familyId → ∀ f ∈ db.frames, f.revoking familyId = none)
    (hd : ∀ token, task'.frame.detected = some token →
      task.frame.detected = some token ∨
        ∃ family, Member db'.rows (service.hashToken token) family ∧
          (family = familyId → ∀ i, ¬ LiveAt familyId db'.rows i)) :
    Healthy service familyId db' := by
  have hmem : task.frame ∈ db.frames := frame_mem_frames htask
  have hs : ∀ token, (∃ family, Member db.rows (service.hashToken token) family ∧
      (family = familyId → ∀ i, ¬ LiveAt familyId db.rows i)) →
      ∃ family, Member db'.rows (service.hashToken token) family ∧
        (family = familyId → ∀ i, ¬ LiveAt familyId db'.rows i) := by
    rintro token ⟨family, hme, hn⟩
    refine ⟨family, hme.kept hk, fun hfa i hi => ?_⟩
    rcases hl with hl | ⟨-, ⟨j, hj⟩, -⟩
    · exact hn hfa i (hl i hi)
    · exact hn hfa j hj
  refine ⟨h.keyed.applies clash_symm h.exclusive htask hkeeps hact,
    exclusive_applies h.exclusive htask hact, ?_, ?_, ?_, ?_, ?_⟩
  · exact holds_applies h.exclusive htask hact h.holds ht how fun _ ho =>
      ho.others hk
  · intro i j hi hj
    rcases hl with hl | ⟨-, -, hne⟩
    · exact h.single i j (hl i hi) (hl j hj)
    · exact (hne i hi).trans (hne j hj).symm
  · refine h.revoking.set ht (fun todo hto => (hre todo hto).1) ?_
    intro u other _ ho hc todo hto i hi
    rcases hl with hl | ⟨hm, -, -⟩
    · exact hc todo hto i (hl i hi)
    · refine absurd hm (h.apart _ (frame_mem_frames ho) _ hmem ?_)
      rw [hto]
      exact Option.some_ne_none todo
  · intro f hf g hg hr hm
    rcases mem_frames_of_set ht hf with hf | rfl
    · rcases mem_frames_of_set ht hg with hg | rfl
      · exact h.apart f hf g hg hr hm
      · exact hr (hma hm f hf)
    · obtain ⟨todo, hto⟩ := Option.ne_none_iff_exists'.1 hr
      rcases mem_frames_of_set ht hg with hg | rfl
      · exact (hre todo hto).2 g hg hm
      · rw [Frame.marked_of_revoking hr] at hm
        cases hm
  · intro f hf token htok
    rcases mem_frames_of_set ht hf with hf | rfl
    · exact hs token (h.detected f hf token htok)
    · rcases hd token htok with hb | ha
      · exact hs token (h.detected _ hmem token hb)
      · exact ha

/-- A step that leaves the rows alone. -/
theorem quiet (hta : db'.tasks = db.tasks.set t task') (hr : db'.rows = db.rows)
    (ho : Holds service familyId db.rows task') (hre : task'.frame.revoking familyId = none)
    (hm : task'.frame.marked = some familyId → task.frame.marked = some familyId)
    (hd : ∀ token, task'.frame.detected = some token → task.frame.detected = some token) :
    Healthy service familyId db' := by
  have hme : task.frame ∈ db.frames := frame_mem_frames htask
  refine h.set htask hact hkeeps hta (hr ▸ .refl _) (hr ▸ ho) (.inl ?_) ?_ ?_ ?_
  · rw [hr]
    exact fun i hi => hi
  · intro todo ht
    rw [hre] at ht
    cases ht
  · intro hma f hf
    by_contra hrev
    exact h.apart f hf _ hme hrev (hm hma)
  · exact fun token hto => .inl (hd token hto)

/-- A revocation goes on to its next row. -/
theorem reaches {writes'} (hf : task.frame = .revokeRows call now row (i :: todo))
    (hm : Member db.rows (service.hashToken call.refreshToken) row.familyId)
    (hwrites' : ∀ i v, (i, v) ∈ writes' → ∃ current, TokenAt db.rows i current ∧
      v = some { current with revokedAt := some now }) (hmo : ∀ w ∈ task.writes, w ∈ writes')
    (hre : row.familyId = familyId → LiveAt familyId db.rows i → ∃ v, (i, v) ∈ writes')
    (ht : db'.tasks = db.tasks.set t ⟨.revokeRows call now row todo, writes', []⟩)
    (hro : db'.rows = db.rows) : Healthy service familyId db' := by
  have hme := frame_mem_frames htask
  refine h.set htask hact hkeeps ht (hro ▸ .refl _) (hro ▸ .revokeRows hm hwrites')
    (.inl fun _ hi => hro ▸ hi) ?_ nofun nofun
  intro todo' hto'
  obtain ⟨heq, ⟨⟩⟩ := Option.ite_none_right_eq_some.1 hto'
  have hr : task.frame.revoking familyId = some (i :: todo) := by
    rw [hf]
    exact if_pos heq
  refine ⟨?_, fun g hg => h.apart _ hme g hg (by rw [hr]; exact Option.some_ne_none _)⟩
  rw [hro]
  intro j hj
  rcases h.revoking t _ htask _ hr j hj with hb | ⟨v, hv⟩
  · rcases mem_cons.1 hb with rfl | hb
    · exact .inr (hre heq hj)
    · exact .inl hb
  · exact .inr ⟨v, hmo _ hv⟩

end Act

theorem rollback
    (hact : db.Applies clash t task (.rollback (.returned call (.error error))) db')
    (ho : error ≠ .invalidGrant "replay_detected") : Healthy service familyId db' := by
  obtain rfl := hact.of_rollback
  refine h.quiet htask hact trivial rfl rfl (.idle rfl) rfl nofun ?_
  intro token ht
  rw [Frame.detected, if_neg fun heq => ho (Answer.error.inj heq)] at ht
  cases ht

theorem next (hact : db.Applies clash t task (.next f) db')
    (ho : Holds service familyId db.rows { task with frame := f })
    (hr : f.revoking familyId = none)
    (hm : f.marked = some familyId → task.frame.marked = some familyId)
    (hd : ∀ token, f.detected = some token → task.frame.detected = some token) :
    Healthy service familyId db' := by
  obtain rfl := hact.of_next
  exact h.quiet htask hact trivial rfl rfl ho hr hm hd

end Task

theorem execute_idle (htask : db.tasks[t]? = some ⟨f, [], []⟩) (hf : f.idle = true)
    (hact : db.Applies clash t ⟨f, [], []⟩ (execute service choice db.rows f) db') :
    Healthy service familyId db' := by
  revert hact
  fun_cases RefreshToken.execute service choice db.rows f with
  | case1 | case19 | case20 => exact fun hact => h.next htask hact (.idle rfl) rfl nofun nofun
  | case22 => exact fun hact => h.next htask hact (.idle rfl) rfl id fun _ ht => ht
  | case21 _ error =>
    obtain rfl : error = .database := beq_iff_eq.1 hf
    exact fun hact => h.rollback htask hact (by decide)
  | case2 => exact fun hact => h.rollback htask hact (by decide)
  | case3 _ _ _ i row hs =>
    obtain ⟨hrow, hh⟩ := of_selectOne_some hs
    intro hact
    exact h.next htask hact (.revokeScan ⟨i, row, hrow, beq_iff_eq.1 hh, rfl⟩) rfl nofun nofun
  | case4 _ _ _ _ _ _ _ _ hc =>
    exact fun hact => h.rollback htask hact (check_ne_replay hc)
  | case5 _ _ _ i row hs =>
    obtain ⟨hrow, -⟩ := of_selectOne_some hs
    exact fun hact => h.next htask hact (.consent ⟨i, row, hrow, rfl, rfl⟩) rfl nofun nofun
  | _ => cases hf

/-- The row that a rotation marks is the one that it has read. -/
theorem marks_known (htask : db.tasks[t]? = some ⟨f, [], [new]⟩) (hk : Known db.rows row)
    (hs : selectOne (tableWhere some (·.id == row.id))
      ((⟨f, [], [new]⟩ : Task Token Frame).view db.rows) = some (i, current)) :
    TokenAt db.rows i current ∧ current.familyId = row.familyId ∧
      selectOne (tableWhere some (·.id == row.id)) db.rows = some (i, current) := by
  have hu := (h.keyed.tasks t _ htask).unique_view clash_symm h.keyed.rows
  obtain ⟨hrow, hid⟩ := of_selectOne_some hs
  obtain ⟨j, known, hk, hkn, hf⟩ := hk
  have hv : TokenAt ((⟨f, [], [new]⟩ : Task Token Frame).view db.rows) j known := by
    rw [Task.view_inserts]
    exact getElem?_append_of_eq_some hk _
  obtain rfl : j = i := hu j i known current hv hrow (by simp [Token.clash, hkn, beq_iff_eq.1 hid])
  obtain rfl := hv.eq hrow
  refine ⟨hk, hf, ?_⟩
  refine selectOne_eq_some hk (by simp [tableWhere, hkn]) fun k r b hr hpi => ?_
  obtain ⟨ht, hp⟩ := Option.filter_eq_some_iff.1 hpi
  cases ht
  exact h.keyed.rows k j r known hr hk (by simp [Token.clash, beq_iff_eq.1 hp, hkn])

variable (hok : noOverlap familyId db (.run t choice) = true)

include hok

theorem marks {scope} (htask : db.tasks[t]? = some ⟨.mark call now row scope, [], [new]⟩)
    (hk : Known db.rows row) (hnew : new.familyId = row.familyId)
    (hs : selectOne (tableWhere some (·.id == row.id))
      ((⟨.mark call now row scope, [], [new]⟩ : Task Token Frame).view db.rows) = some (i, current))
    (hact : db.Applies clash t ⟨.mark call now row scope, [], [new]⟩
      (.write i (some { current with rotatedAt := some now }) (.tenant call now row scope)) db') :
    Healthy service familyId db' := by
  obtain ⟨hrow, hf, hs'⟩ := h.marks_known htask hk hs
  obtain ⟨hv, -⟩ := of_selectOne_some hs
  simp only [noOverlap, htask, hs', Option.all_some, Bool.or_eq_true, bne_iff_ne,
    Bool.and_eq_true, decide_eq_true_eq, all_eq_true] at hok
  obtain ⟨hfr, rfl⟩ := hact.of_write
  refine h.set htask hact (keepsKeys_update hv fun _ => rfl) rfl (.refl _)
    (.marked rfl hrow hf hnew ?_) (.inl fun _ hi => hi) nofun ?_ nofun
  · exact fun heq => (hok.resolve_left (not_not.2 heq)).1
  · intro hm g hg
    have heq : row.familyId = familyId := Option.some.inj hm
    obtain ⟨hl, hfr'⟩ := hok.resolve_left (not_not.2 heq)
    -- A revocation would have the row before it, or would have written it.
    by_contra hr
    obtain ⟨todo, ht⟩ := Option.ne_none_iff_exists'.1 hr
    obtain ⟨u, other, ho, rfl⟩ := mem_frames.1 hg
    have hne : u ≠ t := by
      rintro rfl
      rw [htask] at ho
      cases ho
      cases ht
    rcases h.revoking u other ho todo ht i ⟨current, hrow, hf.trans heq, hl⟩ with
      hb | hw
    · have hn := hfr' _ hg
      rw [ht] at hn
      simp [hb] at hn
    · exact not_wrote_of_not_locked hfr ho hne hw

omit hok in
theorem execute_marked
    (htask : db.tasks[t]? = some ⟨f, [(i, some { current with rotatedAt := some now })], [new]⟩)
    (hf : f.marked = some row.familyId) (hrow : TokenAt db.rows i current)
    (hfa : current.familyId = row.familyId) (hn : new.familyId = row.familyId)
    (hl : row.familyId = familyId → current.Live) {view} (hact : db.Applies clash t
      ⟨f, [(i, some { current with rotatedAt := some now })], [new]⟩
      (execute service choice view f) db') : Healthy service familyId db' := by
  cases f with
  | tenant =>
    unfold execute at hact
    dsimp only at hact
    split at hact
    · exact h.rollback htask hact (by decide)
    · exact h.next htask hact (.marked hf hrow hfa hn hl) rfl id nofun
  | commit call now' row' scope tenantId =>
    obtain rfl := hact.of_commit
    have hv : (⟨.commit call now' row' scope tenantId,
        [(i, some { current with rotatedAt := some now })], [new]⟩ : Task Token Frame).view
          db.rows = db.rows.set i (some { current with rotatedAt := some now }) ++
            [some new] := Task.view_singleton ..
    have hk := kept_rotated hrow now new
    refine h.set htask hact trivial rfl (hv ▸ hk) (.idle rfl) ?_ nofun nofun nofun
    rw [hv]
    by_cases heq : row.familyId = familyId
    · have hi : LiveAt familyId db.rows i := ⟨current, hrow, hfa.trans heq, hl heq⟩
      refine .inr ⟨hf.trans (congrArg some heq), ⟨i, hi⟩, fun j hj => ?_⟩
      rcases liveAt_rotated hrow hj with ⟨hne, hj⟩ | ⟨hj, -⟩
      · exact absurd (h.single j i hj hi) hne
      · exact hj
    · refine .inl fun j hj => ?_
      rcases liveAt_rotated hrow hj with ⟨-, hj⟩ | ⟨-, ho⟩
      · exact hj
      · exact absurd (hn.symm.trans ho) heq
  | _ => cases hf

omit hok in
theorem execute_revokeRows (htask : db.tasks[t]? = some ⟨.revokeRows call now row todo, writes, []⟩)
    (hm : Member db.rows (service.hashToken call.refreshToken) row.familyId)
    (hwrites : ∀ i v, (i, v) ∈ writes → ∃ current, TokenAt db.rows i current ∧
      v = some { current with revokedAt := some now })
    (hact : db.Applies clash t ⟨.revokeRows call now row todo, writes, []⟩
      (execute service choice
        ((⟨.revokeRows call now row todo, writes, []⟩ : Task Token Frame).view db.rows)
        (.revokeRows call now row todo)) db') : Healthy service familyId db' := by
  cases todo with
  | nil =>
    obtain rfl := hact.of_commit
    refine h.set htask hact trivial rfl (kept_revocation hwrites) (.idle rfl)
      (.inl fun i hi => (liveAt_revocation hwrites rfl hi).1) nofun nofun ?_
    intro token ht
    cases ht
    refine .inr ⟨row.familyId, hm.kept (kept_revocation hwrites), fun heq i hi => ?_⟩
    obtain ⟨hl, hno⟩ := liveAt_revocation hwrites rfl hi
    rcases h.revoking t _ htask [] (if_pos heq) i hl with hb | hwr
    · cases hb
    · exact hno hwr
  | cons i todo =>
    unfold execute at hact
    dsimp only at hact
    split at hact
    · rename_i hn
      obtain rfl := hact.of_next
      refine h.reaches htask hact trivial rfl hm hwrites (fun _ hw => hw) ?_ rfl rfl
      rintro - ⟨current, hc, -⟩
      by_contra hno
      rw [join_view_of_not_wrote hc (by exact hno)] at hn
      cases hn
    · rename_i current hj
      split at hact
      · rename_i ha
        have hvi : TokenAt ((⟨.revokeRows call now row (i :: todo), writes, []⟩ :
            Task Token Frame).view db.rows) i current := Option.join_eq_some_iff.1 hj
        have hc : TokenAt db.rows i current := by
          obtain ⟨old, ho, ⟨rfl, -⟩ | rfl⟩ := view_revocation hwrites rfl hvi
          · exact ho
          · simp [active] at ha
        obtain ⟨-, rfl⟩ := hact.of_write
        refine h.reaches htask hact (keepsKeys_update hvi fun _ => rfl) rfl hm ?_
          (fun _ hw => mem_cons_of_mem _ hw) (fun _ _ => ⟨_, mem_cons_self⟩) rfl rfl
        intro j v hv
        rcases mem_cons.1 hv with hv | hv
        · cases hv
          exact ⟨current, hc, rfl⟩
        · exact hwrites j v hv
      · rename_i hin
        obtain rfl := hact.of_next
        refine h.reaches htask hact trivial rfl hm hwrites (fun _ hw => hw) ?_ rfl rfl
        rintro heq ⟨found, hfo, hf, hl⟩
        by_contra hno
        rw [join_view_of_not_wrote hfo (by exact hno)] at hj
        cases hj
        exact hin (by simp [active, hf, heq, hl.2])

theorem execute (htask : db.tasks[t]? = some task) (hact : db.Applies clash t task
      (RefreshToken.execute service choice (task.view db.rows) task.frame) db') :
    Healthy service familyId db' := by
  cases h.holds t task htask with
  | idle hf =>
    rw [Task.view_nil] at hact
    exact h.execute_idle htask hf hact
  | consent hk =>
    unfold RefreshToken.execute at hact
    dsimp only at hact
    split at hact
    · exact h.next htask hact (.insert hk) rfl nofun nofun
    · exact h.rollback htask hact (by decide)
  | insert hk =>
    have hact' := hact
    cases hact with
    | inserted =>
      exact h.quiet htask hact' trivial rfl rfl (.mark hk rfl) rfl nofun nofun
    | refused =>
      exact h.quiet htask hact' trivial rfl rfl (.idle rfl) rfl nofun nofun
  | mark hk hn =>
    unfold RefreshToken.execute at hact
    dsimp only at hact
    split at hact
    · exact h.rollback htask hact (by decide)
    · next i current hs => exact h.marks hok htask hk hn hs hact
  | marked hf hrow hfa hn hl =>
    exact h.execute_marked htask hf hrow hfa hn hl hact
  | revokeScan hm =>
    rw [Task.view_nil] at hact
    obtain rfl := hact.of_next
    refine h.set htask hact trivial rfl (.refl _) (.revokeRows hm nofun)
      (.inl fun _ hi => hi) ?_ nofun nofun
    intro todo ht
    obtain ⟨heq, ⟨⟩⟩ := Option.ite_none_right_eq_some.1 ht
    simp only [noOverlap, htask, heq, bne_self_eq_false, Bool.false_or, all_eq_true,
      bne_iff_ne] at hok
    refine ⟨?_, hok⟩
    rintro i ⟨found, hfo, hfa, hl⟩
    refine .inl (mem_map.2 ⟨(i, found), mem_select_iff.2 ⟨found, hfo, ?_⟩, rfl⟩)
    simp [tableWhere, active, hfa, heq, hl.2]
  | revokeRows hm hwrites => exact h.execute_revokeRows htask hm hwrites hact

theorem step (htask : db.tasks[t]? = some task) (hact : db.Applies clash t task
      (RefreshToken.step service choice (task.view db.rows) task.frame) db') :
    Healthy service familyId db' := by
  unfold RefreshToken.step at hact
  split at hact
  · exact h.rollback htask hact (by decide)
  · exact h.execute hok htask hact

omit hok

omit h in
theorem init {start} (hu : Unique clash start)
    (hs : ∀ i j, LiveAt familyId start i → LiveAt familyId start j → i = j) :
    Healthy service familyId ⟨start, []⟩ where
  keyed := keyed_init hu
  exclusive := exclusive_init start
  holds := each_init start
  single := hs
  revoking := each_init start
  apart := by
    intro f hf
    cases hf
  detected := by
    intro f hf
    cases hf

theorem started (call) : Healthy service familyId ((rotations service).move db (.start call)) := by
  refine ⟨h.keyed.append _, exclusive_start h.exclusive call,
    h.holds.append (.idle rfl), h.single, h.revoking.append nofun, ?_, ?_⟩
  · intro f hf g hg hr
    rcases mem_frames_start.1 hf with hf | rfl
    · rcases mem_frames_start.1 hg with hg | rfl
      · exact h.apart f hf g hg hr
      · exact (Option.some_ne_none familyId).symm
    · exact absurd rfl hr
  · intro f hf token ht
    rcases mem_frames_start.1 hf with hf | rfl
    · exact h.detected f hf token ht
    · cases ht

end Healthy

/-- In every run of rotations, from a table to which `mint` has added the first row of a family, in
which rotations and revocations of the family do not overlap: at most one row of the family is
live, and none is after a replay of one of its tokens was detected. -/
theorem family_has_one_live_token (service : Service) (prior : List (Option Token)) (mint : Mint)
    (now : Int) (hu : Unique Token.clash (prior ++ [some (mint.row service now)]))
    (hfi : ∀ i row, TokenAt prior i row → row.familyId ≠ mint.familyId)
    {moves : List (Move Rotation Choice)}
    (hm : Meets (rotations service).move (fun db m => noOverlap mint.familyId db m = true)
      ⟨prior ++ [some (mint.row service now)], []⟩ moves) :
    let db := (rotations service).run ⟨prior ++ [some (mint.row service now)], []⟩ moves
    (∀ i j, LiveAt mint.familyId db.rows i → LiveAt mint.familyId db.rows j → i = j) ∧
      ∀ f ∈ db.frames, ∀ token, f.detected = some token →
        Member db.rows (service.hashToken token) mint.familyId →
          ∀ i, ¬ LiveAt mint.familyId db.rows i := by
  have hs : ∀ i, LiveAt mint.familyId (prior ++ [some (mint.row service now)]) i →
      i = prior.length := by
    rintro i ⟨row, hrow, hfa, -⟩
    rcases getElem?_concat_eq_some_iff.1 hrow with hrow | ⟨hl, -⟩
    · exact absurd hfa (hfi i row hrow)
    · exact hl
  intro db
  have h : Healthy service mint.familyId db := by
    refine run_invariant_of_meets ?_ ?_ (Healthy.init hu ?_) hm
    · intro db call h _
      exact h.started call
    · intro db t choice task db' h hok htask hact
      exact h.step hok htask hact
    · exact fun i j hi hj => (hs i hi).trans (hs j hj).symm
  refine ⟨h.single, ?_⟩
  rintro f hf token ht ⟨i, row, hrow, hh, hfa⟩
  obtain ⟨family, ⟨j, row', hrow', hh', hfa'⟩, hn⟩ := h.detected f hf token ht
  refine hn ?_
  obtain rfl := h.keyed.rows i j row row' hrow hrow' (by simp [Token.clash, hh, hh'])
  obtain rfl := hrow.eq hrow'
  exact hfa'.symm.trans hfa

/-! ## Overlaps -/

def plainService : Service :=
  ⟨id, fun _ => some "jwt", "issuer", 900, 2592000, 7776000⟩

def firstToken : Mint := ⟨"client", 7, 5, "read", "resource", 1, 9, "first"⟩

def tokenRows : List (Option Token) := [some (firstToken.row plainService 0)]

def rotation (token : String) (newId : Uuid) (newToken : String) : Rotation :=
  ⟨token, "client", none, "resource", newId, newToken, 0⟩

def turns (t steps : Nat) : List (Move Rotation Choice) := List.replicate steps (.run t {})

/-- Both calls have inserted a successor before one of them marks the row. -/
def rotationRace : List (Move Rotation Choice) :=
  [[.start (rotation "first" 2 "second"), .start (rotation "first" 3 "third")],
    turns 0 4, turns 1 4, turns 0 4, turns 1 4].flatten

/-- After a first rotation, the replay of its token looks the rows of the family up while a second
rotation has marked its row and not committed. -/
def replayRace : List (Move Rotation Choice) :=
  [[.start (rotation "first" 2 "second"), .start (rotation "second" 3 "third"),
      .start (rotation "first" 4 "fourth")],
    turns 0 8, turns 1 5, turns 2 4, turns 1 3, turns 2 2].flatten

/-- Two rotations of one token leave two live tokens, and a live token remains after a replay was
detected. -/
theorem two_live_tokens :
    let run := fun moves => (rotations plainService).run ⟨tokenRows, []⟩ moves
    ((run rotationRace).frames.map Frame.committed = [true, true] ∧
      LiveAt 9 (run rotationRace).rows 1 ∧ LiveAt 9 (run rotationRace).rows 2) ∧
      (run replayRace).frames.map Frame.committed = [true, true, true] ∧
        ((run replayRace).frames[2]?.bind Frame.detected) = some "first" ∧
          LiveAt 9 (run replayRace).rows 2 := by
  decide

/-- One rotation after the other, and then the replay. -/
def rotationTurns : List (Move Rotation Choice) :=
  [[.start (rotation "first" 2 "second"), .start (rotation "second" 3 "third"),
      .start (rotation "first" 4 "fourth")],
    turns 0 8, turns 1 8, turns 2 7].flatten

theorem family_has_one_live_token_turns :
    let db := (rotations plainService).run ⟨tokenRows, []⟩ rotationTurns
    db.frames.map Frame.detected = [none, none, some "first"] ∧ ∀ i, ¬ LiveAt 9 db.rows i := by
  refine ⟨by decide, ?_⟩
  have h := family_has_one_live_token plainService [] firstToken 0
    (unique_of_pairwise clash_symm (by decide))
    (by rintro i row ⟨⟩) (show Meets _ _ _ rotationTurns by decide)
  exact h.2 (.returned (rotation "first" 4 "fourth") (.error (.invalidGrant "replay_detected")))
    (by decide) "first" rfl ⟨0, { firstToken.row plainService 0 with
      rotatedAt := some 0, revokedAt := some 0 }, by unfold TokenAt; decide, rfl, rfl⟩

end Uptrakit.Oauth.RefreshToken
