import Mathlib.Data.List.Pairwise
import Uptrakit.Data.Expiring

/-!
# The token denylist

`TokenDenylist` keeps three maps in memory: denied tokens, exempted tokens and
user-level revocations.  The revocations are also written to the database, from
which a restarted controller seeds its memory.

A user-level revocation denies every token of the user that was issued before its
cutoff.  `deny_user_except` exempts one token from it.  The exemption is not tied
to the revocation it was made for: it shields the token from every later
revocation of the user as well, until it is purged.
-/

namespace Uptrakit.Auth

open Data List Function Option

abbrev Uuid := Nat

/-- `ACCESS_TOKEN_EXPIRY_SECS`.  Times are Unix times in seconds. -/
def accessTokenExpirySecs : Int := 900

structure UserDenyEntry where
  iatCutoff : Int
  purgeAfter : Int

structure DenylistInner where
  jtiEntries : Expiring String
  jtiAllowlist : Expiring String
  userEntries : Uuid → Option UserDenyEntry

/-- The tables `revoked_token_jtis` and `revoked_token_users`. -/
structure RevokedTokens where
  jtis : String → Option Int
  users : Uuid → Option UserDenyEntry

/-- The denylist of one controller.  The database is shared with the other
controllers; `db` is its state. -/
structure TokenDenylist where
  inner : DenylistInner
  db : Option RevokedTokens

namespace RevokedTokens

/-- The insert of `deny_token`, which fails when the token has a row. -/
def insertJti (db : RevokedTokens) (jti : String) (exp : Int) : RevokedTokens :=
  if (db.jtis jti).isSome then db else { db with jtis := Function.update db.jtis jti (some exp) }

/-- The upsert of `deny_user` with the number of rows it affects: a stored row only
moves to a later cutoff. -/
def upsertUser (db : RevokedTokens) (userId : Uuid) (entry : UserDenyEntry) :
    RevokedTokens × Nat :=
  match db.users userId with
  | some stored =>
    if stored.iatCutoff < entry.iatCutoff then
      ({ db with users := Function.update db.users userId (some entry) }, 1)
    else (db, 0)
  | none => ({ db with users := Function.update db.users userId (some entry) }, 1)

/-- The two deletes of `purge_expired`. -/
def purge (db : RevokedTokens) (now : Int) : RevokedTokens where
  jtis jti := (db.jtis jti).filter (now < ·)
  users userId := (db.users userId).filter (now < ·.purgeAfter)

end RevokedTokens

namespace TokenDenylist

/-- `new` and `new_with_db`. -/
def new (db : Option RevokedTokens) : TokenDenylist where
  inner := ⟨fun _ => none, fun _ => none, fun _ => none⟩
  db := db

variable (list : TokenDenylist)

/-- `load_from_db`: a row replaces what the memory holds under its key. -/
def loadFromDb : TokenDenylist :=
  match list.db with
  | none => list
  | some db =>
    { list with inner :=
      { list.inner with
        jtiEntries := fun jti => db.jtis jti <|> list.inner.jtiEntries jti
        userEntries := fun userId => db.users userId <|> list.inner.userEntries userId } }

/-- `entry(user_id).or_insert(…)`: the entry of the user, or the zero entry. -/
def userEntry (userId : Uuid) : UserDenyEntry :=
  (list.inner.userEntries userId).getD ⟨0, 0⟩

/-- The entry of the user moves to a later cutoff, in memory.  A user without an
entry gets one in any case. -/
def advanceUser (userId : Uuid) (entry : UserDenyEntry) : TokenDenylist :=
  let current := list.userEntry userId
  let next := if current.iatCutoff < entry.iatCutoff then entry else current
  { list with inner :=
    { list.inner with
      userEntries := Function.update list.inner.userEntries userId (some next) } }

def allow (jti : String) (exp : Int) : TokenDenylist :=
  { list with inner :=
    { list.inner with jtiAllowlist := list.inner.jtiAllowlist.write (.insert jti exp) } }

def denyTokenRemote (jti : String) (exp : Int) : TokenDenylist :=
  { list with inner :=
    { list.inner with jtiEntries := list.inner.jtiEntries.write (.insert jti exp) } }

variable (answers : Bool)

def persist (write : RevokedTokens → TokenDenylist) : TokenDenylist :=
  match list.db with
  | some db => if answers then write db else list
  | none => list

def denyToken (jti : String) (exp : Int) : TokenDenylist :=
  let list := list.denyTokenRemote jti exp
  list.persist answers fun db => { list with db := some (db.insertJti jti exp) }

def denyUser (userId : Uuid) (iatCutoff purgeAfter : Int) : TokenDenylist :=
  let updated := (list.userEntry userId).iatCutoff < iatCutoff
  let list := list.advanceUser userId ⟨iatCutoff, purgeAfter⟩
  if updated then
    list.persist answers fun db =>
      let (db, affected) := db.upsertUser userId ⟨iatCutoff, purgeAfter⟩
      let list := { list with db := some db }
      -- The stored cutoff was later: the memory follows it.
      if affected = 0 then
        match db.users userId with
        | some row => list.advanceUser userId row
        | none => list
      else list
  else list

def denyUserExcept (userId : Uuid) (jti : String) (jtiExp iatCutoff purgeAfter : Int) :
    TokenDenylist :=
  (list.denyUser answers userId iatCutoff purgeAfter).allow jti jtiExp

def denyUserRemote (userId : Uuid) (iatCutoff purgeAfter : Int) : TokenDenylist :=
  list.advanceUser userId ⟨iatCutoff, purgeAfter⟩

def isDenied (jti : String) (userId : Uuid) (iat : Int) : Bool :=
  if (list.inner.jtiEntries jti).isSome then true
  else if (list.inner.jtiAllowlist jti).isSome then false
  else
    match list.inner.userEntries userId with
    | some entry => decide (iat < entry.iatCutoff)
    | none => false

def purgeExpired (now : Int) : TokenDenylist :=
  let list :=
    { list with inner :=
      { jtiEntries := list.inner.jtiEntries.write (.retain now)
        jtiAllowlist := list.inner.jtiAllowlist.write (.retain now)
        userEntries := fun userId =>
          (list.inner.userEntries userId).filter (now < ·.purgeAfter) } }
  list.persist answers fun db => { list with db := some (db.purge now) }

end TokenDenylist

/-! ## Histories -/

/-- What happens to a denylist: calls, and what other controllers do to the
database it shares with them. -/
inductive Call
  | denyToken (jti : String) (exp : Int)
  | denyTokenRemote (jti : String) (exp : Int)
  | denyUser (userId : Uuid) (iatCutoff purgeAfter : Int)
  | denyUserExcept (userId : Uuid) (jti : String) (jtiExp iatCutoff purgeAfter : Int)
  | denyUserRemote (userId : Uuid) (iatCutoff purgeAfter : Int)
  | purgeExpired
  | denyUserElsewhere (userId : Uuid) (iatCutoff purgeAfter : Int)
  | purgeElsewhere
  deriving DecidableEq

structure Event where
  time : Int
  answers : Bool := true
  call : Call
  deriving DecidableEq

def Call.revocation : Call → Option (Uuid × Int)
  | denyUser userId iatCutoff _ => some (userId, iatCutoff)
  | denyUserExcept userId _ _ iatCutoff _ => some (userId, iatCutoff)
  | denyUserRemote userId iatCutoff _ => some (userId, iatCutoff)
  | _ => none

def Call.revokes (userId : Uuid) (iat : Int) (call : Call) : Bool :=
  call.revocation.any fun (user, cutoff) => user == userId && iat < cutoff

def Call.exempts (jti : String) : Call → Bool
  | denyUserExcept _ jti' _ _ _ => jti' == jti
  | _ => false

/-- User revocations are kept for the lifetime of an access token. -/
def Call.Lasting : Call → Prop
  | denyUser _ iatCutoff purgeAfter => purgeAfter = iatCutoff + accessTokenExpirySecs
  | denyUserExcept _ _ _ iatCutoff purgeAfter => purgeAfter = iatCutoff + accessTokenExpirySecs
  | denyUserRemote _ iatCutoff purgeAfter => purgeAfter = iatCutoff + accessTokenExpirySecs
  | denyUserElsewhere _ iatCutoff purgeAfter => purgeAfter = iatCutoff + accessTokenExpirySecs
  | _ => True

instance : DecidablePred Call.Lasting := fun call => by
  cases call <;> unfold Call.Lasting <;> infer_instance

/-- The writes of an event to `jti_entries`. -/
def Event.denial (event : Event) : Option (Expiring.Write String) :=
  match event.call with
  | .denyToken jti exp => some (.insert jti exp)
  | .denyTokenRemote jti exp => some (.insert jti exp)
  | .purgeExpired => some (.retain event.time)
  | _ => none

/-- The writes of an event to `jti_allowlist`. -/
def Event.exemption (event : Event) : Option (Expiring.Write String) :=
  match event.call with
  | .denyUserExcept _ jti jtiExp _ _ => some (.insert jti jtiExp)
  | .purgeExpired => some (.retain event.time)
  | _ => none

/-- The latest revocation of the token is the one that exempts it. -/
def latestExempts (history : List Event) (jti : String) (userId : Uuid) (iat : Int) : Bool :=
  (history.filter (·.call.revokes userId iat)).getLast?.any (·.call.exempts jti)

def TokenDenylist.after (list : TokenDenylist) (event : Event) : TokenDenylist :=
  match event.call with
  | .denyToken jti exp => list.denyToken event.answers jti exp
  | .denyTokenRemote jti exp => list.denyTokenRemote jti exp
  | .denyUser userId iatCutoff purgeAfter =>
    list.denyUser event.answers userId iatCutoff purgeAfter
  | .denyUserExcept userId jti jtiExp iatCutoff purgeAfter =>
    list.denyUserExcept event.answers userId jti jtiExp iatCutoff purgeAfter
  | .denyUserRemote userId iatCutoff purgeAfter =>
    list.denyUserRemote userId iatCutoff purgeAfter
  | .purgeExpired => list.purgeExpired event.answers event.time
  | .denyUserElsewhere userId iatCutoff purgeAfter =>
    list.persist true fun db =>
      { list with db := some (db.upsertUser userId ⟨iatCutoff, purgeAfter⟩).1 }
  | .purgeElsewhere => list.persist true fun db => { list with db := some (db.purge event.time) }

def TokenDenylist.run (list : TokenDenylist) (history : List Event) : TokenDenylist :=
  history.foldl TokenDenylist.after list

/-! ## Denied and exempted tokens -/

namespace TokenDenylist

section Deny

variable (list : TokenDenylist) (answers : Bool) (userId : Uuid) (iatCutoff purgeAfter : Int)

@[simp] theorem inner_persist_db (write : RevokedTokens → RevokedTokens) :
    (list.persist answers fun db => { list with db := some (write db) }).inner = list.inner := by
  unfold persist
  split
  · split <;> rfl
  · rfl

/-- What `deny_user` does: the entry in memory moves to the cutoff.  Where the database answers,
its row follows, and where that is later, the memory follows the row. -/
theorem denyUser_cases :
    list.denyUser answers userId iatCutoff purgeAfter =
        list.advanceUser userId ⟨iatCutoff, purgeAfter⟩ ∨
      ∃ db, list.db = some db ∧
        ∃ next, list.denyUser answers userId iatCutoff purgeAfter =
            { next with db := some (db.upsertUser userId ⟨iatCutoff, purgeAfter⟩).1 } ∧
          (next = list.advanceUser userId ⟨iatCutoff, purgeAfter⟩ ∨
            ∃ row, db.users userId = some row ∧
              next = (list.advanceUser userId ⟨iatCutoff, purgeAfter⟩).advanceUser userId row) := by
  unfold denyUser
  dsimp only
  split
  · cases hdb : list.db with
    | none =>
      simp [persist, advanceUser, hdb]
    | some db =>
      simp only [persist, show (list.advanceUser userId _).db = some db from hdb]
      split
      · refine .inr ⟨db, rfl, ?_⟩
        cases hr : db.users userId with
        | none =>
          simp [RevokedTokens.upsertUser, hr]
        | some row =>
          by_cases hl : row.iatCutoff < iatCutoff
          · refine ⟨_, ?_, .inl rfl⟩
            simp [RevokedTokens.upsertUser, hr, hl]
          · refine ⟨_, ?_, .inr ⟨row, rfl, rfl⟩⟩
            simp only [RevokedTokens.upsertUser, hr, hl, if_false]
            rfl
      · exact .inl rfl
  · exact .inl rfl

/-- The tokens that are denied or exempted stay. -/
theorem inner_denyUser :
    ∃ users, (list.denyUser answers userId iatCutoff purgeAfter).inner =
      { list.inner with userEntries := users } := by
  rcases list.denyUser_cases answers userId iatCutoff purgeAfter with
    h | ⟨db, -, _, h, rfl | ⟨row, -, rfl⟩⟩
  all_goals
    rw [h]
    exact ⟨_, rfl⟩

@[simp] theorem jtiEntries_denyUser :
    (list.denyUser answers userId iatCutoff purgeAfter).inner.jtiEntries =
      list.inner.jtiEntries := by
  obtain ⟨_, h⟩ := list.inner_denyUser answers userId iatCutoff purgeAfter
  rw [h]

@[simp] theorem jtiAllowlist_denyUser :
    (list.denyUser answers userId iatCutoff purgeAfter).inner.jtiAllowlist =
      list.inner.jtiAllowlist := by
  obtain ⟨_, h⟩ := list.inner_denyUser answers userId iatCutoff purgeAfter
  rw [h]

end Deny

variable (list : TokenDenylist)

theorem jtiEntries_after (event) : (list.after event).inner.jtiEntries =
      event.denial.elim list.inner.jtiEntries list.inner.jtiEntries.write := by
  unfold after Event.denial
  cases event.call with
  | denyUserExcept => simp [denyUserExcept, allow]
  | _ => simp [denyToken, denyTokenRemote, denyUserRemote, advanceUser, purgeExpired]

theorem jtiAllowlist_after (event) : (list.after event).inner.jtiAllowlist =
      event.exemption.elim list.inner.jtiAllowlist list.inner.jtiAllowlist.write := by
  unfold after Event.exemption
  cases event.call with
  | denyUserExcept => simp [denyUserExcept, allow]
  | _ => simp [denyToken, denyTokenRemote, denyUserRemote, advanceUser, purgeExpired]

/-- A map that takes part of the events as writes holds, after a history, what
these writes make of it. -/
theorem foldl_filterMap_write {list : TokenDenylist} {history : List Event}
    (entries : TokenDenylist → Expiring String) {write : Event → Option (Expiring.Write String)}
    (ha : ∀ list event,
      entries (after list event) = (write event).elim (entries list) (entries list).write) :
    entries (list.run history) = (history.filterMap write).foldl Expiring.write (entries list) := by
  induction history generalizing list with
  | nil => rfl
  | cons event _ ih =>
    rw [run, foldl_cons, ← run, ih, ha]
    cases hw : write event with
    | none => rw [filterMap_cons_none hw]; rfl
    | some => rw [filterMap_cons_some hw]; rfl

/-! ## Revocations -/

end TokenDenylist

/-- The entry is kept for the lifetime of an access token after its cutoff. -/
def UserDenyEntry.Lasting (entry : UserDenyEntry) : Prop :=
  entry.purgeAfter = entry.iatCutoff + accessTokenExpirySecs

def RevokedTokens.Lasting (db : RevokedTokens) : Prop :=
  ∀ userId row, db.users userId = some row → row.Lasting

namespace RevokedTokens

variable {db : RevokedTokens}

theorem Lasting.upsertUser (h : db.Lasting) {entry : UserDenyEntry} (he : entry.Lasting)
    (userId : Uuid) : (db.upsertUser userId entry).1.Lasting := by
  have hu : RevokedTokens.Lasting
      { db with users := update db.users userId (some entry) } := by
    refine (forall_update_iff db.users fun _ stored => ∀ row, stored = some row → row.Lasting).2
      ⟨?_, fun userId' _ => h userId'⟩
    rintro _ ⟨⟩
    exact he
  unfold RevokedTokens.upsertUser
  split
  · split
    · exact hu
    · exact h
  · exact hu

theorem Lasting.purge (h : db.Lasting) (now : Int) : (db.purge now).Lasting := by
  intro userId row hr
  exact h userId row (filter_eq_some_iff.mp hr).1

end RevokedTokens

namespace TokenDenylist

/-- The entries in memory and in the database are kept for the lifetime of an
access token.  The zero entry, which a user gets before the first revocation, is not
meant. -/
structure Lasting (list : TokenDenylist) : Prop where
  memory : ∀ userId entry, list.inner.userEntries userId = some entry → 0 < entry.iatCutoff →
    entry.Lasting
  database : ∀ db, list.db = some db → db.Lasting

/-- The user's tokens from before the cutoff are revoked. -/
def Revoked (list : TokenDenylist) (userId : Uuid) (cutoff : Int) : Prop :=
  ∃ entry, list.inner.userEntries userId = some entry ∧ cutoff ≤ entry.iatCutoff

variable {list : TokenDenylist}

theorem Lasting.advanceUser (h : list.Lasting) {entry : UserDenyEntry} (he : entry.Lasting)
    (userId : Uuid) : (list.advanceUser userId entry).Lasting where
  memory := by
    refine (forall_update_iff list.inner.userEntries fun _ stored => ∀ entry, stored = some entry →
      0 < entry.iatCutoff → entry.Lasting).2 ⟨?_, fun userId' _ => h.memory userId'⟩
    rintro _ ⟨⟩
    split
    · exact fun _ => he
    · rw [userEntry]
      cases ho : list.inner.userEntries userId with
      | none => exact fun hpos => absurd hpos (by decide)
      | some old => exact h.memory userId old ho
  database := h.database

theorem revoked_advanceUser (list : TokenDenylist) (userId : Uuid) (entry : UserDenyEntry) :
    (list.advanceUser userId entry).Revoked userId entry.iatCutoff := by
  refine ⟨_, update_self .., ?_⟩
  split <;> omega

variable {userId : Uuid} {cutoff : Int} {event : Event} {history : List Event}

variable (h : list.Revoked userId cutoff)

include h in
theorem Revoked.advanceUser (userId' entry) :
    (list.advanceUser userId' entry).Revoked userId cutoff := by
  obtain ⟨old, ho, hc⟩ := h
  by_cases hid : userId = userId'
  · subst hid
    refine ⟨_, update_self .., ?_⟩
    simp only [userEntry, ho, getD_some]
    split <;> omega
  · exact ⟨old, by rw [← ho]; exact update_of_ne hid .., hc⟩

include h in
/-- Memory-only facts do not see what is written to the database. -/
theorem Revoked.of_inner {list' : TokenDenylist}
    (hi : list'.inner = list.inner) : list'.Revoked userId cutoff := by
  unfold Revoked
  rwa [hi]

/-- What is revoked once the entry has moved stays so when the database is written. -/
theorem Revoked.denyUser {userId' iatCutoff purgeAfter} (answers)
    (h : (list.advanceUser userId' ⟨iatCutoff, purgeAfter⟩).Revoked userId cutoff) :
    (list.denyUser answers userId' iatCutoff purgeAfter).Revoked userId cutoff := by
  rcases list.denyUser_cases answers userId' iatCutoff purgeAfter with
    heq | ⟨_, -, _, heq, rfl | ⟨row, -, rfl⟩⟩
  · rw [heq]
    exact h
  · rw [heq]
    exact h
  · rw [heq]
    exact h.advanceUser _ row

theorem Lasting.denyUser (h : list.Lasting) (answers : Bool) (userId : Uuid) {iatCutoff purgeAfter}
    (he : UserDenyEntry.Lasting ⟨iatCutoff, purgeAfter⟩) :
    (list.denyUser answers userId iatCutoff purgeAfter).Lasting := by
  have ha := h.advanceUser he userId
  rcases list.denyUser_cases answers userId iatCutoff purgeAfter with
    heq | ⟨db, hdb, next, heq, hn⟩
  · rwa [heq]
  · rw [heq]
    refine ⟨?_, ?_⟩
    · rcases hn with rfl | ⟨row, hr, rfl⟩
      · exact ha.memory
      · exact (ha.advanceUser (h.database db hdb userId row hr) userId).memory
    · rintro _ ⟨⟩
      exact (h.database db hdb).upsertUser he userId

/-- Writes to the database alone keep the entries lasting. -/
theorem Lasting.persist (h : list.Lasting) (answers : Bool)
    {write : RevokedTokens → RevokedTokens} (hw : ∀ db, db.Lasting → (write db).Lasting) :
    (list.persist answers fun db => { list with db := some (write db) }).Lasting where
  memory := by
    rw [inner_persist_db]
    exact h.memory
  database := by
    intro db' hdb'
    unfold TokenDenylist.persist at hdb'
    split at hdb'
    · rename_i db hdb
      split at hdb'
      · obtain rfl := some.inj hdb'
        exact hw db (h.database db hdb)
      · exact h.database db' hdb'
    · exact h.database db' hdb'

theorem Lasting.purgeExpired (h : list.Lasting) (answers : Bool) (now : Int) :
    (list.purgeExpired answers now).Lasting := by
  apply Lasting.persist
  · refine ⟨?_, h.database⟩
    intro userId entry he hpos
    exact h.memory userId entry (filter_eq_some_iff.mp he).1 hpos
  · exact fun db hdb => hdb.purge now

theorem Lasting.after (h : list.Lasting) (hca : event.call.Lasting) :
    (list.after event).Lasting := by
  unfold TokenDenylist.after
  cases hc : event.call with
  | denyToken jti exp =>
    have hr : (list.denyTokenRemote jti exp).Lasting := ⟨h.memory, h.database⟩
    refine hr.persist _ ?_
    intro db hdb userId row hro
    apply hdb userId row
    unfold RevokedTokens.insertJti at hro
    split at hro <;> exact hro
  | denyTokenRemote => exact ⟨h.memory, h.database⟩
  | denyUser userId =>
    rw [hc] at hca
    exact h.denyUser _ userId hca
  | denyUserExcept userId =>
    rw [hc] at hca
    have hd := h.denyUser event.answers userId hca
    exact ⟨hd.memory, hd.database⟩
  | denyUserRemote userId =>
    rw [hc] at hca
    exact h.advanceUser (by exact hca) userId
  | purgeExpired => exact h.purgeExpired _ _
  | denyUserElsewhere userId =>
    rw [hc] at hca
    exact h.persist _ fun db hdb => hdb.upsertUser (by exact hca) userId
  | purgeElsewhere => exact h.persist _ fun db hdb => hdb.purge event.time

include h in
/-- A purge spares a revocation until the tokens it is about have expired. -/
theorem Revoked.purgeExpired {now} (hl : list.Lasting) (hpos : 0 < cutoff)
    (hnow : now < cutoff + accessTokenExpirySecs) (answers : Bool) :
    (list.purgeExpired answers now).Revoked userId cutoff := by
  obtain ⟨entry, he, hc⟩ := h
  have hk : now < entry.purgeAfter := by
    rw [hl.memory userId entry he (by omega)]
    omega
  rw [TokenDenylist.purgeExpired]
  exact ⟨entry, by simp [he, hk], hc⟩

include h in
theorem Revoked.after (hl : list.Lasting) (hpos : 0 < cutoff)
    (ht : event.time < cutoff + accessTokenExpirySecs) :
    (list.after event).Revoked userId cutoff := by
  unfold TokenDenylist.after
  cases event.call with
  | denyToken jti exp =>
    have hr : (list.denyTokenRemote jti exp).Revoked userId cutoff := h
    exact hr.of_inner (inner_persist_db ..)
  | denyTokenRemote => exact h
  | denyUser userId' => exact (h.advanceUser userId' _).denyUser _
  | denyUserExcept userId' => exact (h.advanceUser userId' _).denyUser event.answers
  | denyUserRemote userId' => exact h.advanceUser userId' _
  | purgeExpired => exact h.purgeExpired hl hpos ht _
  | denyUserElsewhere | purgeElsewhere =>
    exact h.of_inner (inner_persist_db ..)

theorem revoked_after (he : event.call.revocation = some (userId, cutoff)) :
    (list.after event).Revoked userId cutoff := by
  unfold TokenDenylist.after
  cases hc : event.call <;> rw [hc] at he <;> simp only [Call.revocation] at he <;>
    cases he
  case denyUser => exact (list.revoked_advanceUser userId _).denyUser _
  case denyUserExcept => exact (list.revoked_advanceUser userId _).denyUser event.answers
  case denyUserRemote purgeAfter => exact list.revoked_advanceUser userId ⟨cutoff, purgeAfter⟩

/-- Run lemma: lasting calls leave entries that last. -/
theorem Lasting.run (h : list.Lasting) (hcalls : ∀ event ∈ history, event.call.Lasting) :
    (list.run history).Lasting :=
  foldlRecOn history _ h fun _ h event he => h.after (hcalls event he)

include h in
/-- Run lemma: a revocation stays while a token from before it could still be valid. -/
theorem Revoked.run (hl : list.Lasting) (hpos : 0 < cutoff)
    (hcalls : ∀ event ∈ history, event.call.Lasting)
    (ht : ∀ event ∈ history, event.time < cutoff + accessTokenExpirySecs) :
    (list.run history).Revoked userId cutoff := by
  let kept (list : TokenDenylist) : Prop := list.Revoked userId cutoff ∧ list.Lasting
  have hr : kept (list.run history) := by
    refine foldlRecOn history _ ⟨h, hl⟩ ?_
    rintro _ ⟨h, hl⟩ event he
    exact ⟨h.after hl hpos (ht event he), hl.after (hcalls event he)⟩
  exact hr.1

end TokenDenylist

/-! ## The denylist over a history -/

/-- The denylist of a controller that has just started. -/
inductive Started : TokenDenylist → Prop
  | new : Started (TokenDenylist.new none)
  | newWithDb (db : RevokedTokens) (hdb : db.Lasting) : Started (TokenDenylist.new (some db))
  | loaded (db : RevokedTokens) (hdb : db.Lasting) :
      Started (TokenDenylist.new (some db)).loadFromDb

theorem Started.lasting {list} (h : Started list) : list.Lasting := by
  cases h with
  | new => exact ⟨by rintro _ _ ⟨⟩, by rintro _ ⟨⟩⟩
  | newWithDb _ hdb =>
    refine ⟨by rintro _ _ ⟨⟩, ?_⟩
    rintro _ ⟨⟩
    exact hdb
  | loaded _ hdb =>
    refine ⟨?_, ?_⟩
    · intro userId entry he _
      exact hdb userId entry (by simpa [TokenDenylist.loadFromDb, TokenDenylist.new] using he)
    · rintro _ ⟨⟩
      exact hdb

section History

variable {start : TokenDenylist} (hstart : Started start) {history : List Event}
  (hcalls : ∀ event ∈ history, event.call.Lasting) {now : Int}
  (hnow : ∀ event ∈ history, event.time ≤ now) {jti : String} {userId : Uuid}
  {iat exp cutoff : Int} (hlifetime : exp ≤ iat + accessTokenExpirySecs) (halive : now ≤ exp)
  (hrevoked : ∃ event ∈ history, event.call.revocation = some (userId, cutoff))
  (hiat : iat < cutoff) (hpos : 0 < cutoff)

include hstart hcalls hnow hlifetime halive hrevoked hiat hpos

/-- While a revoked token lives, an exemption of it counts, no matter which revocation it was made
for. -/
theorem isDenied_run_iff :
    (start.run history).isDenied jti userId iat = true ↔
      Expiring.InForce start.inner.jtiEntries (history.filterMap Event.denial) jti ∨
        ¬ Expiring.InForce start.inner.jtiAllowlist (history.filterMap Event.exemption) jti := by
  have ht : ∀ event ∈ history, event.time < cutoff + accessTokenExpirySecs := by
    intro event he
    have := hnow event he
    omega
  have hru : (start.run history).Revoked userId cutoff := by
    obtain ⟨event, he, hr⟩ := hrevoked
    obtain ⟨_, after, rfl⟩ := append_of_mem he
    rw [TokenDenylist.run, foldl_append]
    apply TokenDenylist.Revoked.run (TokenDenylist.revoked_after hr)
    · refine TokenDenylist.Lasting.after ?_ (hcalls event he)
      exact hstart.lasting.run fun event' he' => hcalls event' (mem_append_left _ he')
    · exact hpos
    · intro event' he'
      exact hcalls event' (mem_append_right _ (mem_cons_of_mem _ he'))
    · intro event' he'
      exact ht event' (mem_append_right _ (mem_cons_of_mem _ he'))
  obtain ⟨entry, hen, _⟩ := hru
  have hd : iat < entry.iatCutoff := by omega
  rw [← Expiring.isSome_foldl_write_iff, ← Expiring.isSome_foldl_write_iff,
    ← TokenDenylist.foldl_filterMap_write (·.inner.jtiEntries) TokenDenylist.jtiEntries_after,
    ← TokenDenylist.foldl_filterMap_write (·.inner.jtiAllowlist) TokenDenylist.jtiAllowlist_after]
  simp only [TokenDenylist.isDenied]
  split
  · simp [*]
  · split <;> simp [*]

/-- While a revoked token lives, it is denied or the latest revocation exempts it, exactly when it
is denied itself, no exemption of it is in force, or the latest revocation has made one. -/
theorem revoked_token_denied_iff :
    ((start.run history).isDenied jti userId iat = true ∨
        latestExempts history jti userId iat = true) ↔
      Expiring.InForce start.inner.jtiEntries (history.filterMap Event.denial) jti ∨
        ¬ Expiring.InForce start.inner.jtiAllowlist (history.filterMap Event.exemption) jti ∨
        latestExempts history jti userId iat = true := by
  rw [isDenied_run_iff hstart hcalls hnow hlifetime halive hrevoked hiat hpos]
  exact or_assoc

end History

/-- A password change that exempts the current token, and a logout ten seconds
later. -/
def logoutAfterPasswordChange : List Event :=
  [⟨1000, true, .denyUserExcept 7 "current" 1900 1000 1900⟩, ⟨1010, true, .denyUser 7 1010 1910⟩]

/-- The other tokens of the user are denied after both. -/
theorem revoked_token_denied_logout :
    ((TokenDenylist.new none).run logoutAfterPasswordChange).isDenied "other" 7 990 = true := by
  have hi := @revoked_token_denied_iff _ .new logoutAfterPasswordChange (by decide) 1011
    (by decide) "other" 7 990 1890 1010 (by decide) (by decide) (by decide) (by decide) (by decide)
  refine (hi.mpr (.inr (.inl ?_))).resolve_right (by decide)
  rintro (⟨_, ⟨⟩, _⟩ | ⟨_, exp, _, hw, -⟩)
  have hm : Expiring.Write.insert "other" exp ∈
      logoutAfterPasswordChange.filterMap Event.exemption := by simp [hw]
  simp [logoutAfterPasswordChange, Event.exemption] at hm

/-- The exempted token stays accepted although the latest revocation, the logout,
does not exempt it. -/
theorem logout_spares_exempted_token :
    logoutAfterPasswordChange.Pairwise (·.time ≤ ·.time) ∧
      (∀ event ∈ logoutAfterPasswordChange, event.call.Lasting ∧
        ∀ revocation ∈ event.call.revocation, revocation.2 ≤ event.time) ∧
      latestExempts logoutAfterPasswordChange "current" 7 990 = false ∧
      ((TokenDenylist.new none).run logoutAfterPasswordChange).isDenied "current" 7 990 =
        false := by
  decide

end Uptrakit.Auth
