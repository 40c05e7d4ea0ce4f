import Uptrakit.Concurrent.Keys

/-!
# Authorization codes

An authorization code is a row with the hash of the code
(`crates/ui/web-api/src/oauth/services/authorization_code.rs`).  `verify_and_consume` looks the
row up, checks it, and sets `consumed_at`, in a transaction that reads committed data.  The
update is addressed by primary key, without a condition on what the call has read.  So two calls
that have both read the row consume it both (`code_consumed_twice`).  If the row is still unused
whenever a call marks it, the lock on the row carries this up to the commit, and the code is
consumed once (`code_consumed_once`).

The model has one step for each SQL statement.  A statement may fail, which ends the call and
rolls its transaction back.
-/

namespace Uptrakit.Oauth.AuthorizationCode

open Concurrent Transactions Database Option Task

abbrev Uuid := Nat

/-- A row of `oauth_authorization_codes`. -/
structure Code where
  id : Uuid
  codeHash : String
  requestId : Uuid
  clientId : String
  userId : Uuid
  redirectUri : String
  scope : String
  codeChallenge : String
  codeChallengeMethod : String
  resource : String
  issuedAt : Int
  expiresAt : Int
  consumedAt : Option Int
  deriving DecidableEq

def Code.clash (a b : Code) : Bool := a.id == b.id || a.codeHash == b.codeHash

structure MintAuthorizationCode where
  requestId : Uuid
  clientId : String
  userId : Uuid
  redirectUri : String
  scope : String
  codeChallenge : String
  codeChallengeMethod : String
  resource : String
  deriving DecidableEq

/-- The arguments of `verify_and_consume`. -/
structure Exchange where
  code : String
  clientId : String
  redirectUri : String
  codeVerifier : String
  resource : String
  deriving DecidableEq

inductive OAuthCodeError
  | invalidGrant (reason : String)
  | invalidTarget
  | database
  deriving DecidableEq

/-- `hash_token`, and the encoded digest that `PkceVerifier` compares. -/
structure Crypto where
  hashToken : String → String
  challenge : String → String

def ttlSeconds : Int := 30

inductive Operation
  /-- The id and the code are generated by the call. -/
  | mint (params : MintAuthorizationCode) (id : Uuid) (code : String)
  | verifyAndConsume (exchange : Exchange)
  deriving DecidableEq

inductive Answer
  | minted (code : String)
  | consumed (row : Code)
  | error (error : OAuthCodeError)
  deriving DecidableEq

/-- The points at which a call stands between two statements, with its local variables. -/
inductive Frame
  | mintInsert (params : MintAuthorizationCode) (id : Uuid) (code : String)
  | mintCommit (params : MintAuthorizationCode) (id : Uuid) (code : String)
  | abort (operation : Operation) (error : OAuthCodeError)
  | begin (exchange : Exchange)
  | find (exchange : Exchange) (now : Int)
  | update (exchange : Exchange) (now : Int) (row : Code)
  | commit (exchange : Exchange) (row : Code)
  | returned (operation : Operation) (answer : Answer)
  deriving DecidableEq

structure Choice where
  fails : Bool := false
  now : Int := 0

def Operation.enter : Operation → Frame
  | mint params id code => .mintInsert params id code
  | verifyAndConsume exchange => .begin exchange

def Frame.operation : Frame → Operation
  | mintInsert params id code | mintCommit params id code => .mint params id code
  | begin exchange | find exchange _ | update exchange _ _ | commit exchange _ =>
    .verifyAndConsume exchange
  | abort operation _ | returned operation _ => operation

def MintAuthorizationCode.row (params : MintAuthorizationCode) (id : Uuid) (codeHash : String)
    (now : Int) : Code where
  id := id
  codeHash := codeHash
  requestId := params.requestId
  clientId := params.clientId
  userId := params.userId
  redirectUri := params.redirectUri
  scope := params.scope
  codeChallenge := params.codeChallenge
  codeChallengeMethod := params.codeChallengeMethod
  resource := params.resource
  issuedAt := now
  expiresAt := now + ttlSeconds
  consumedAt := none

section Calls

variable (crypto : Crypto)

/-- The checks of `verify_and_consume` on the row it has found. -/
def check (exchange : Exchange) (now : Int) : Option Code → Except OAuthCodeError Code
  | none => .error (.invalidGrant "code_not_found")
  | some row =>
    if row.consumedAt.isSome then .error (.invalidGrant "code_already_used")
    else if now ≥ row.expiresAt then .error (.invalidGrant "code_expired")
    else if row.clientId ≠ exchange.clientId then .error (.invalidGrant "client_mismatch")
    else if row.redirectUri ≠ exchange.redirectUri then
      .error (.invalidGrant "redirect_uri_mismatch")
    else if row.resource ≠ exchange.resource then .error .invalidTarget
    else if crypto.challenge exchange.codeVerifier ≠ row.codeChallenge then
      .error (.invalidGrant "pkce_mismatch")
    else .ok row

def execute (choice : Choice) (rows : List (Option Code)) : Frame → Act Code Frame
  | .mintInsert params id code =>
    .insert (params.row id (crypto.hashToken code) choice.now) (.mintCommit params id code)
      (.abort (.mint params id code) .database)
  | .mintCommit params id code => .commit (.returned (.mint params id code) (.minted code))
  | .abort operation error => .rollback (.returned operation (.error error))
  | .begin exchange => .next (.find exchange choice.now)
  | .find exchange now =>
    let found := selectOne (tableWhere some (·.codeHash == crypto.hashToken exchange.code)) rows
    match check crypto exchange now (found.map Prod.snd) with
    | .error error => .rollback (.returned (.verifyAndConsume exchange) (.error error))
    | .ok row => .next (.update exchange now row)
  | .update exchange now row =>
    match selectOne (tableWhere some (·.id == row.id)) rows with
    | none => .rollback (.returned (.verifyAndConsume exchange) (.error .database))
    | some (i, current) =>
      .write i (some { current with consumedAt := some now }) (.commit exchange row)
  | .commit exchange row => .commit (.returned (.verifyAndConsume exchange) (.consumed row))
  | .returned operation answer => .next (.returned operation answer)

def step (choice : Choice) (rows : List (Option Code)) (f : Frame) : Act Code Frame :=
  match f with
  | .returned operation answer => .next (.returned operation answer)
  | f =>
    if choice.fails then .rollback (.returned f.operation (.error .database))
    else execute crypto choice rows f

/-- The calls of `OAuthAuthorizationCodeService`. -/
def codes : Transactions Operation Choice Code Frame where
  enter := Operation.enter
  step := step crypto
  clash := Code.clash

end Calls

def Frame.consumes (code : String) : Frame → Bool
  | returned (.verifyAndConsume exchange) (.consumed _) => exchange.code == code
  | _ => false

theorem Frame.consumes_error (operation error code) :
    Frame.consumes code (.returned operation (.error error)) = false := by
  cases operation <;> rfl

/-- The condition on a step: a call marks a code only while its row is unused. -/
def unusedWhenMarked (db : Database Code Frame) : Move Operation Choice → Bool
  | .start _ => true
  | .run t _ =>
    match db.tasks[t]? with
    | none => true
    | some task =>
      match task.frame with
      | .update _ _ row =>
        (selectOne (tableWhere some (·.id == row.id)) db.rows).all fun found =>
          found.2.consumedAt.isNone
      | _ => true

/-! ## Rows -/

def CodeAt (rows : List (Option Code)) (i : Nat) (row : Code) : Prop :=
  rows[i]? = some (some row)

variable {rows rows' : List (Option Code)} {i : Nat} {row : Code} {crypto : Crypto}

theorem CodeAt.eq {a b} (ha : CodeAt rows i a) (hb : CodeAt rows i b) : a = b := by
  rw [CodeAt, ha] at hb
  exact some.inj (some.inj hb)

theorem Code.clash_symm (a b : Code) : a.clash b = b.clash a := by
  simp only [Code.clash, Bool.beq_comm]

/-- The rows stay in their places with their keys, and a code that is consumed stays so. -/
def Kept (rows rows' : List (Option Code)) : Prop :=
  ∀ i row, CodeAt rows i row → ∃ row', CodeAt rows' i row' ∧ row'.id = row.id ∧
    row'.codeHash = row.codeHash ∧ (row.consumedAt ≠ none → row'.consumedAt ≠ none)

theorem Kept.refl (rows) : Kept rows rows :=
  fun _ row hr => ⟨row, hr, rfl, rfl, id⟩

theorem kept_append (rows : List (Option Code)) (inserts : List Code) :
    Kept rows (rows ++ inserts.map some) := by
  intro i row hr
  refine ⟨row, ?_, rfl, rfl, id⟩
  rw [CodeAt, List.getElem?_append_left (List.getElem?_eq_some_iff.1 hr).1]
  exact hr

theorem kept_set {current} (hc : CodeAt rows i current) (now) :
    Kept rows (rows.set i (some { current with consumedAt := some now })) := by
  intro j row hr
  by_cases hij : i = j
  · subst hij
    obtain rfl := hr.eq hc
    refine ⟨{ row with consumedAt := some now }, ?_, rfl, rfl, fun _ => some_ne_none now⟩
    exact List.getElem?_set_self (List.getElem?_eq_some_iff.1 hr).1
  · exact ⟨row, (List.getElem?_set_ne hij).trans hr, rfl, rfl, id⟩

/-- The code with the hash is consumed. -/
def Consumed (rows : List (Option Code)) (codeHash : String) : Prop :=
  ∃ i row, CodeAt rows i row ∧ row.codeHash = codeHash ∧ row.consumedAt ≠ none

theorem Consumed.kept {codeHash} (h : Consumed rows codeHash) (hk : Kept rows rows') :
    Consumed rows' codeHash := by
  obtain ⟨i, row, hr, rfl, hc⟩ := h
  obtain ⟨row', hr', -, hh, hs⟩ := hk i row hr
  exact ⟨i, row', hr', hh, hs hc⟩

/-! ## Calls -/

def Frame.idle : Frame → Bool
  | update .. | commit .. | mintCommit .. => false
  | _ => true

variable (crypto : Crypto) (rows : List (Option Code)) in
/-- What a call has written at the point where it stands. -/
inductive Holds : Task Code Frame → Prop
  | idle {f : Frame} (hf : f.idle = true) : Holds ⟨f, [], []⟩
  | mintCommit {params id code row} : Holds ⟨.mintCommit params id code, [], [row]⟩
  | update {exchange : Exchange} {now} {row : Code} {current i} (hrow : CodeAt rows i current)
      (hid : current.id = row.id) (hhash : current.codeHash = crypto.hashToken exchange.code) :
      Holds ⟨.update exchange now row, [], []⟩
  | commit {exchange : Exchange} {row current i now} (hrow : CodeAt rows i current)
      (hhash : current.codeHash = crypto.hashToken exchange.code)
      (hopen : current.consumedAt = none) : Holds
        ⟨.commit exchange row, [(i, some { current with consumedAt := some now })], []⟩

/-- What the steps of other calls leave of it. -/
theorem Holds.others {task} (h : Holds crypto rows task) (hk : Kept rows rows')
    (hl : ∀ i row, task.Wrote i → rows[i]? = some row → rows'[i]? = some row) :
    Holds crypto rows' task := by
  cases h with
  | idle hf => exact .idle hf
  | mintCommit => exact .mintCommit
  | update hr hid hh =>
    obtain ⟨_, hr', hid', hh', -⟩ := hk _ _ hr
    exact .update hr' (hid'.trans hid) (hh'.trans hh)
  | commit hr hh ho =>
    exact .commit (hl _ _ ⟨_, List.mem_singleton_self _⟩ hr) hh ho

theorem check_eq_ok {exchange now found} (h : check crypto exchange now found = .ok row) :
    found = some row := by
  unfold check at h
  cases found with
  | none => cases h
  | some =>
    dsimp only at h
    repeat' split at h
    all_goals cases h
    rfl

/-- What holds in every state of a run that meets the condition. -/
structure Once (crypto : Crypto) (db : Database Code Frame) : Prop where
  keyed : db.Keyed Code.clash
  exclusive : db.Exclusive
  holds : db.Each (Holds crypto db.rows)
  consumed : ∀ f ∈ db.frames, ∀ code, f.consumes code = true →
    Consumed db.rows (crypto.hashToken code)
  once : ∀ code, db.frames.countP (Frame.consumes code) ≤ 1

namespace Once

variable {crypto : Crypto} {db db' : Database Code Frame} {t : Nat} {task task' : Task Code Frame}
  {act : Act Code Frame}

variable (h : Once crypto db)

include h

variable (htask : db.tasks[t]? = some task)

include htask

/-- A step of one call.  A call that consumes a code is the first one. -/
theorem set (hac : db.Applies Code.clash t task act db')
    (hke : Database.KeepsKeys Code.clash (task.view db.rows) act)
    (ht : db'.tasks = db.tasks.set t task') (hk : Kept db.rows db'.rows)
    (how : Holds crypto db'.rows task')
    (hc : ∀ code, task'.frame.consumes code = true →
      task.frame.consumes code = true ∨ ¬ Consumed db.rows (crypto.hashToken code) ∧
        Consumed db'.rows (crypto.hashToken code)) : Once crypto db' where
  keyed := h.keyed.applies Code.clash_symm h.exclusive htask hke hac
  exclusive := exclusive_applies h.exclusive htask hac
  holds := holds_applies h.exclusive htask hac h.holds ht how fun _ ho =>
    ho.others hk
  consumed := by
    intro f hf code hco
    rcases mem_frames_of_set ht hf with hf | rfl
    · exact (h.consumed f hf code hco).kept hk
    · rcases hc code hco with hb | ⟨-, ha⟩
      · exact (h.consumed task.frame (frame_mem_frames htask) code hb).kept hk
      · exact ha
  once := by
    intro code
    refine countP_frames_le_one htask ht (h.once code) fun hco => ?_
    rcases hc code hco with hb | ⟨hop, -⟩
    · exact .inl hb
    · -- No other call has consumed the code: it would be consumed.
      exact .inr fun f hf hfc => hop (h.consumed f hf code hfc)

/-- A step that ends the call without success. -/
theorem rollback {f} (ha : db.Applies Code.clash t task (.rollback f) db') (hf : f.idle = true)
    (hn : ∀ code, f.consumes code = false) : Once crypto db' := by
  obtain rfl := ha.of_rollback
  refine h.set htask ha trivial rfl (.refl _) (.idle hf) fun code hc => ?_
  cases (hn code).symm.trans hc

theorem next {f} (ha : db.Applies Code.clash t task (.next f) db')
    (ho : Holds crypto db.rows { task with frame := f })
    (hs : ∀ code, f.consumes code = true → task.frame.consumes code = true) :
    Once crypto db' := by
  obtain rfl := ha.of_next
  exact h.set htask ha trivial rfl (.refl _) ho fun code hc => .inl (hs code hc)

omit htask

variable {choice : Choice}

/-- A step that does not fail. -/
theorem execute (hok : unusedWhenMarked db (.run t choice) = true)
    (htask : db.tasks[t]? = some task)
    (ha : db.Applies Code.clash t task
      (execute crypto choice (task.view db.rows) task.frame) db') : Once crypto db' := by
  cases h.holds t task htask with
  | idle hf =>
    rename_i f
    rw [view_nil] at ha
    revert ha
    fun_cases AuthorizationCode.execute crypto choice db.rows f with
    | case1 =>
      intro ha
      have ha' := ha
      cases ha with
      | inserted => exact h.set htask ha' trivial rfl (.refl _) .mintCommit nofun
      | refused => exact h.set htask ha' trivial rfl (.refl _) (.idle rfl) nofun
    | case3 operation error =>
      exact fun ha => h.rollback htask ha rfl (Frame.consumes_error operation error)
    | case4 => exact fun ha => h.next htask ha (.idle rfl) nofun
    | case5 => exact fun ha => h.rollback htask ha rfl fun _ => rfl
    | case6 _ _ _ row hch =>
      obtain ⟨⟨i, current⟩, hs, rfl⟩ := map_eq_some_iff.1 (check_eq_ok hch)
      obtain ⟨hr, hh⟩ := of_selectOne_some hs
      exact fun ha => h.next htask ha (.update hr rfl (beq_iff_eq.1 hh)) nofun
    | case10 => exact fun ha => h.next htask ha (.idle rfl) fun _ hco => hco
    | _ => cases hf
  | mintCommit =>
    obtain rfl := ha.of_commit
    refine h.set htask ha trivial rfl ?_ (.idle rfl) nofun
    rw [view_inserts]
    exact kept_append _ _
  | @update exchange now row current j hr hid hh =>
    rw [view_nil] at ha
    simp only [unusedWhenMarked, htask] at hok
    unfold AuthorizationCode.execute at ha
    split at ha
    · exact h.rollback htask ha rfl fun _ => rfl
    · rename_i i found hs
      obtain ⟨hfo, hfou⟩ := of_selectOne_some hs
      obtain rfl : j = i := h.keyed.rows j i current found hr hfo
        (by simp [Code.clash, hid, beq_iff_eq.1 hfou])
      obtain rfl := hr.eq hfo
      rw [hs] at hok
      obtain ⟨-, rfl⟩ := ha.of_write
      refine h.set htask ha ?_ rfl (.refl _) (.commit hr hh ?_) nofun
      · rw [view_nil]
        exact keepsKeys_update hr fun _ => rfl
      · exact isNone_iff_eq_none.1 hok
  | @commit exchange row current i now hr hh hop =>
    obtain rfl := ha.of_commit
    have hv : Task.view ⟨Frame.commit exchange row,
        [(i, some { current with consumedAt := some now })], []⟩ db.rows =
          db.rows.set i (some { current with consumedAt := some now }) := by
      rw [view_singleton, List.map_nil, List.append_nil]
    refine h.set htask ha trivial rfl ?_ (.idle rfl) ?_
    · rw [hv]
      exact kept_set hr now
    · intro code hco
      rw [show exchange.code = code from beq_iff_eq.1 hco] at hh
      refine .inr ⟨?_, ?_⟩
      · rintro ⟨j, other, ho, hu, hc⟩
        obtain rfl := h.keyed.rows j i other current ho hr (by simp [Code.clash, hu, hh])
        rw [ho.eq hr] at hc
        exact hc hop
      rw [hv]
      refine ⟨i, _, List.getElem?_set_self (List.getElem?_eq_some_iff.1 hr).1, hh, ?_⟩
      exact some_ne_none now

theorem step (hok : unusedWhenMarked db (.run t choice) = true) (htask : db.tasks[t]? = some task)
    (ha : db.Applies Code.clash t task
      (AuthorizationCode.step crypto choice (task.view db.rows) task.frame) db') :
    Once crypto db' := by
  unfold AuthorizationCode.step at ha
  split at ha
  · next operation answer hf =>
      refine h.next htask ha ?_ fun code hc => by rwa [hf]
      rw [← hf]
      exact h.holds t task htask
  · split at ha
    · exact h.rollback htask ha rfl (Frame.consumes_error _ _)
    · exact h.execute hok htask ha

omit h in
theorem init {start} (hu : Unique Code.clash start) : Once crypto ⟨start, []⟩ where
  keyed := keyed_init hu
  exclusive := exclusive_init start
  holds := each_init start
  consumed := by
    intro f hf
    cases hf
  once := fun _ => Nat.zero_le 1

theorem started (operation) : Once crypto ((codes crypto).move db (.start operation)) := by
  have hi : operation.enter.idle = true := by cases operation <;> rfl
  have hn : ∀ code, operation.enter.consumes code = false := by
    intro code
    cases operation <;> rfl
  refine ⟨h.keyed.append _, exclusive_start h.exclusive operation,
    h.holds.append (.idle hi), ?_, ?_⟩
  · intro f hf code hc
    rcases mem_frames_start.1 hf with hf | rfl
    · exact h.consumed f hf code hc
    · cases (hn code).symm.trans hc
  · intro code
    rw [countP_frames_start (hn code)]
    exact h.once code

end Once

/-- In every run in which a code is unused whenever a call marks it, at most one call consumes
the code. -/
theorem code_consumed_once (crypto : Crypto) {start : List (Option Code)}
    (hu : Unique Code.clash start) {moves : List (Move Operation Choice)}
    (hm : Meets (codes crypto).move (fun db m => unusedWhenMarked db m = true) ⟨start, []⟩ moves)
    (code : String) :
    ((codes crypto).run ⟨start, []⟩ moves).frames.countP (Frame.consumes code) ≤ 1 := by
  have h : Once crypto ((codes crypto).run ⟨start, []⟩ moves) := by
    refine run_invariant_of_meets ?_ ?_ (Once.init hu) hm
    · intro db operation h _
      exact h.started operation
    · intro db t choice task db' h hok htask ha
      exact h.step hok htask ha
  exact h.once code

/-! ## Two exchanges -/

def plainCrypto : Crypto := ⟨id, id⟩

def mintParams : MintAuthorizationCode :=
  ⟨1, "client", 7, "callback", "read", "verifier", "S256", "resource"⟩

def codeRows : List (Option Code) := [some (mintParams.row 1 "upc_code" 0)]

def exchange : Exchange :=
  ⟨"upc_code", "client", "callback", "verifier", "resource"⟩

/-- Both calls have read the row before one of them marks it. -/
def exchangeRace : List (Move Operation Choice) :=
  [.start (.verifyAndConsume exchange), .start (.verifyAndConsume exchange), .run 0 {}, .run 1 {},
    .run 0 {}, .run 1 {}, .run 0 {}, .run 0 {}, .run 1 {}, .run 1 {}]

/-- Both return the row. -/
theorem code_consumed_twice :
    let db := (codes plainCrypto).run ⟨codeRows, []⟩ exchangeRace
    db.frames = List.replicate 2 (.returned (.verifyAndConsume exchange)
        (.consumed (mintParams.row 1 "upc_code" 0))) ∧
      db.frames.countP (Frame.consumes "upc_code") = 2 := by
  decide

/-- The second call begins after the first one has committed. -/
def exchangeTurns : List (Move Operation Choice) :=
  [.start (.verifyAndConsume exchange), .start (.verifyAndConsume exchange), .run 0 {}, .run 0 {},
    .run 0 {}, .run 0 {}, .run 1 {}, .run 1 {}]

theorem code_consumed_once_turns :
    let db := (codes plainCrypto).run ⟨codeRows, []⟩ exchangeTurns
    db.frames = [.returned (.verifyAndConsume exchange) (.consumed (mintParams.row 1 "upc_code" 0)),
      .returned (.verifyAndConsume exchange) (.error (.invalidGrant "code_already_used"))] ∧
      db.frames.countP (Frame.consumes "upc_code") ≤ 1 :=
  ⟨by decide, code_consumed_once plainCrypto
    (unique_of_pairwise Code.clash_symm (by decide)) (by decide) "upc_code"⟩

end Uptrakit.Oauth.AuthorizationCode
