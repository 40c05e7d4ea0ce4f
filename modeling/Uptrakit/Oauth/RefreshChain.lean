import Uptrakit.Oauth.RefreshToken
import Mathlib.Data.Finset.Basic

/-!
# The authority of refresh tokens

`mint` and `rotate`, each call as a whole, executed one after another
(`crates/ui/web-api/src/oauth/services/refresh_token.rs`).

What a token may be used for is all of its row but `rotated_at` and `revoked_at`, its *grant*.  A
call never changes a grant, it only adds one: `mint` a first one, `rotate` a successor of a grant
that is there (`Derivation`, `derivation_run`).  So whatever a row passes on to its successor
unchanged or smaller, the minted row bounds for the whole family.
-/

namespace Uptrakit.Oauth.RefreshToken

open List Token

/-! ## The calls -/

def insertRow (row : Token) (rows : List Token) : Option (List Token) :=
  if rows.any row.clash then none else some (rows ++ [row])

structure MintOutcome where
  refreshToken : String
  expiresIn : Int
  familyExpiresAt : Int

section Calls

variable (service : Service)

def mint (choice : Choice) (args : Mint) (rows : List Token) :
    List Token × Except OAuthRefreshError MintOutcome :=
  if choice.fails then (rows, .error .database)
  else
    match insertRow (args.row service choice.now) rows with
    | none => (rows, .error .database)
    | some rows =>
      (rows, .ok ⟨args.token, service.refreshTokenTtlSecs,
        choice.now + service.refreshFamilyMaxTtlSecs⟩)

/-- Revoke the rows of a family that are not revoked. -/
def revokeFamily (familyId : Uuid) (now : Int) (rows : List Token) : List Token :=
  rows.map fun row => if row.active familyId then { row with revokedAt := some now } else row

/-- Set `rotated_at` of a row. -/
def markRotated (id : Uuid) (now : Int) (rows : List Token) : List Token :=
  rows.map fun row => if row.id == id then { row with rotatedAt := some now } else row

/-- Rotate a token.  A statement that fails rolls the transaction back. -/
def rotate (choice : Choice) (call : Rotation) (rows : List Token) : List Token × Answer :=
  if choice.fails then (rows, .error .database)
  else
    match rows.find? (·.tokenHash == service.hashToken call.refreshToken) with
    | none => (rows, .error (.invalidGrant "token_not_found"))
    | some row =>
      if row.revokedAt.isSome || row.rotatedAt.isSome then
        (revokeFamily row.familyId choice.now rows, .error (.invalidGrant "replay_detected"))
      else
        match check call choice.now row with
        | .error error => (rows, .error error)
        | .ok scope =>
          if !choice.consentActive then (rows, .error .consentRevoked)
          else
            match insertRow (successor service call choice.now row scope) rows,
                choice.tenantId with
            | some inserted, some tenantId =>
              (markRotated row.id choice.now inserted,
                -- the transaction is committed before the token is signed
                match mintAccessToken service call choice.now row scope tenantId with
                | none => .error .jwt
                | some accessToken =>
                  .rotated ⟨accessToken, call.newToken, service.accessTokenTtlSecs,
                    newExpiresAt service choice.now row - choice.now, scope⟩)
            | _, _ => (rows, .error .database)

inductive Call
  | mint (choice : Choice) (args : Mint)
  | rotate (choice : Choice) (call : Rotation)

def Call.apply (rows : List Token) : Call → List Token
  | .mint choice args => (RefreshToken.mint service choice args rows).1
  | .rotate choice call => (RefreshToken.rotate service choice call rows).1

def run (calls : List Call) : List Token := calls.foldl (Call.apply service) []

def Call.family : Call → Option Uuid
  | .mint _ args => some args.familyId
  | .rotate _ _ => none

end Calls

/-! ## Grants -/

/-- What a row permits, whether or not it can still be used. -/
def Token.grant (row : Token) : Token := { row with rotatedAt := none, revokedAt := none }

variable (service : Service) in
/-- How grants come about. -/
inductive Derivation : List Token → Prop
  | /-- No grants. -/
    empty : Derivation []
  | /-- The first grant of a new family. -/
    mint {grants : List Token} (now : Int) (args : Mint) : Derivation grants →
      (∀ row ∈ grants, row.familyId ≠ args.familyId) → (∀ row ∈ grants, row.id ≠ args.id) →
      Derivation (grants ++ [args.row service now])
  | /-- A successor of a grant that passes the checks. -/
    rotate {grants : List Token} (now : Int) (call : Rotation) (row : Token) (scope : String) :
      Derivation grants → row ∈ grants → check call now row = .ok scope →
      (∀ row ∈ grants, row.id ≠ call.newId) →
      Derivation (grants ++ [successor service call now row scope])

section Tables

variable (service : Service)

theorem map_grant_revokeFamily (familyId now rows) :
    (revokeFamily familyId now rows).map grant = rows.map grant := by
  rw [revokeFamily, map_map]
  apply map_congr_left
  intro row _
  simp only [Function.comp]
  split <;> rfl

theorem map_grant_markRotated (id now rows) :
    (markRotated id now rows).map grant = rows.map grant := by
  rw [markRotated, map_map]
  apply map_congr_left
  intro row _
  simp only [Function.comp]
  split <;> rfl

variable {row : Token} {scope : String} {grants : List Token}

/-- An insert adds the row, and its identifier is new. -/
theorem of_insertRow {rows rows'} (h : insertRow row rows = some rows') :
    rows' = rows ++ [row] ∧ ∀ other ∈ rows.map grant, other.id ≠ row.id := by
  unfold insertRow at h
  split at h
  · cases h
  · rename_i hc
    refine ⟨(Option.some.inj h).symm, ?_⟩
    intro other hot
    obtain ⟨original, ho, rfl⟩ := mem_map.mp hot
    intro hid
    refine hc (any_eq_true.mpr ⟨original, ho, ?_⟩)
    simp [clash, show original.id = row.id from hid]

/-- What `rotate` does to the grants: nothing, or a successor of one that passes the checks is
added.  If it answers with tokens, the row passes the checks. -/
theorem rotate_cases (choice call rows) :
    ((rotate service choice call rows).1.map grant = rows.map grant ∧
        ∀ outcome, (rotate service choice call rows).2 ≠ .rotated outcome) ∨
      ∃ row ∈ rows, row.tokenHash = service.hashToken call.refreshToken ∧
        ∃ scope, check call choice.now row = .ok scope ∧
          (rotate service choice call rows).1.map grant =
            rows.map grant ++ [successor service call choice.now row scope] ∧
          ∀ other ∈ rows.map grant, other.id ≠ call.newId := by
  fun_cases rotate service choice call rows with
  | case3 => exact .inl ⟨map_grant_revokeFamily _ _ _, by simp⟩
  | case6 _ row hf _ scope hc _ inserted _ _ hi =>
    obtain ⟨rfl, hid⟩ := of_insertRow hi
    have hh : row.tokenHash = service.hashToken call.refreshToken := by
      simpa using find?_some hf
    refine .inr ⟨row, mem_of_find?_eq_some hf, hh, scope, hc, ?_, hid⟩
    rw [map_grant_markRotated, map_append]
    rfl
  | _ => exact .inl ⟨rfl, by simp⟩

/-- Run lemma: the rows are derived, if no family is created twice. -/
theorem derivation_run (calls : List Call) (hf : (calls.filterMap Call.family).Nodup) :
    Derivation service ((run service calls).map grant) ∧
      ∀ row ∈ (run service calls).map grant, row.familyId ∈ calls.filterMap Call.family := by
  -- by induction on the last call, since whether a family is new depends on the calls before
  induction calls using reverseRecOn with
  | nil => exact ⟨.empty, by simp [run]⟩
  | append_singleton calls call ih =>
    have hp : (calls.filterMap Call.family).Nodup := by
      rw [filterMap_append] at hf
      exact hf.of_append_left
    obtain ⟨hd, ho⟩ := ih hp
    have hru : run service (calls ++ [call]) = call.apply service (run service calls) := by
      simp [run]
    have hm : ∀ family ∈ calls.filterMap Call.family,
        family ∈ (calls ++ [call]).filterMap Call.family := by
      intro family hfa
      rw [filterMap_append]
      exact mem_append_left _ hfa
    rw [hru]
    cases call with
    | mint choice args =>
      rw [Call.apply, mint]
      split
      · exact ⟨hd, fun row hr => hm _ (ho row hr)⟩
      cases hi : insertRow (args.row service choice.now) (run service calls) with
      | none => exact ⟨hd, fun row hr => hm _ (ho row hr)⟩
      | some =>
        obtain ⟨rfl, hid⟩ := of_insertRow hi
        have hn : args.familyId ∉ calls.filterMap Call.family := by
          rw [filterMap_append, nodup_append'] at hf
          exact fun hme => hf.2.2 hme (by simp [Call.family])
        rw [map_append]
        refine ⟨.mint choice.now args hd ?_ hid, ?_⟩
        · rintro row hr hfa
          exact hn (hfa ▸ ho row hr)
        · intro row hr
          obtain hr | hr := mem_append.mp hr
          · exact hm _ (ho row hr)
          · obtain rfl : row = args.row service choice.now := mem_singleton.mp hr
            simp [Call.family, Mint.row]
    | rotate choice call =>
      obtain ⟨hs, -⟩ | ⟨row, hr, -, scope, hc, ha, hid⟩ :=
        rotate_cases service choice call (run service calls)
      · rw [Call.apply, hs]
        exact ⟨hd, fun row hr => hm _ (ho row hr)⟩
      · have hg : row.grant ∈ (run service calls).map grant :=
          mem_map_of_mem hr
        rw [Call.apply, ha]
        refine ⟨.rotate choice.now call row.grant scope hd hg hc hid, ?_⟩
        intro other hot
        obtain hot | hot := mem_append.mp hot
        · exact hm _ (ho other hot)
        · obtain rfl : other = successor service call choice.now row scope := by
            simpa using hot
          exact hm _ (ho row.grant hg)

/-! ## What a grant passes on -/

def scopeWords (scope : String) : Finset String := (splitWhitespace scope).toFinset

/-- A new scope has no words but those of the old one. -/
theorem scopeWords_subset {bound requested} (h : effectiveScope bound requested = .ok scope) :
    scopeWords scope ⊆ scopeWords bound := by
  unfold effectiveScope at h
  split at h
  · split at h
    · obtain rfl := Except.ok.inj h
      exact Finset.Subset.refl _
    · split at h
      · rename_i requested _ ha
        obtain rfl := Except.ok.inj h
        intro word hw
        rw [scopeWords, mem_toFinset] at hw ⊢
        simpa using all_eq_true.mp ha word hw
      · cases h
  · obtain rfl := Except.ok.inj h
    exact Finset.Subset.refl _

/-- A row that passes the checks is not expired, nor is its family, and its scope bounds the new
one. -/
theorem of_check {call now} (h : check call now row = .ok scope) :
    now < row.expiresAt ∧ now < row.familyExpiresAt ∧ scopeWords scope ⊆ scopeWords row.scope := by
  revert h
  fun_cases check call now row with
  | case5 he hf =>
    exact fun h => ⟨not_le.mp he, not_le.mp hf, scopeWords_subset h⟩
  | _ => nofun

/-- Two rows of one family with the same client, user, consent, resource and end of the family. -/
structure SameAuthority (row minted : Token) : Prop where
  familyId : row.familyId = minted.familyId
  clientId : row.clientId = minted.clientId
  userId : row.userId = minted.userId
  consentId : row.consentId = minted.consentId
  resource : row.resource = minted.resource
  familyExpiresAt : row.familyExpiresAt = minted.familyExpiresAt

theorem SameAuthority.refl (row) : SameAuthority row row := ⟨rfl, rfl, rfl, rfl, rfl, rfl⟩

/-- What holds of derived grants. -/
structure Bounded (service : Service) (grants : List Token) : Prop where
  ids : ∀ row ∈ grants, ∀ other ∈ grants, row.id = other.id → row = other
  /-- A family begins with a minted row. -/
  minted : ∀ row ∈ grants, ∃ minted ∈ grants, minted.parentId = none ∧
    minted.familyId = row.familyId
  authority : ∀ row ∈ grants, ∀ minted ∈ grants, minted.parentId = none →
    minted.familyId = row.familyId → SameAuthority row minted
  /-- The parent is there. -/
  parent : ∀ row ∈ grants, ∀ parentId, row.parentId = some parentId →
    ∃ parent ∈ grants, parent.id = parentId
  scope : ∀ row ∈ grants, ∀ parent ∈ grants, row.parentId = some parent.id →
    scopeWords row.scope ⊆ scopeWords parent.scope
  /-- A token does not outlive its family; the first one, if tokens live no longer than
  families. -/
  expires : ∀ row ∈ grants, row.parentId ≠ none ∨
    service.refreshTokenTtlSecs ≤ service.refreshFamilyMaxTtlSecs →
      row.expiresAt ≤ row.familyExpiresAt

theorem mem_append_singleton {α : Type*} {P : α → Prop} {l a} (hl : ∀ b ∈ l, P b) (ha : P a) :
    ∀ b ∈ l ++ [a], P b := by
  intro b hb
  obtain hb | hb := mem_append.mp hb
  · exact hl b hb
  · rw [mem_singleton.mp hb]
    exact ha

variable {service}

variable (h : Bounded service grants)

include h

/-- A new row that is the first of its family, or a successor of a row that is there. -/
theorem Bounded.add {new : Token} (hid : ∀ row ∈ grants, row.id ≠ new.id)
    (hmi : ∃ minted ∈ grants ++ [new], minted.parentId = none ∧ minted.familyId = new.familyId)
    (hf : new.parentId = none → ∀ row ∈ grants, row.familyId ≠ new.familyId)
    (ha : ∀ minted ∈ grants, minted.parentId = none → minted.familyId = new.familyId →
      SameAuthority new minted)
    (hp : ∀ parentId, new.parentId = some parentId → ∃ parent ∈ grants, parent.id = parentId)
    (hs : ∀ parent ∈ grants, new.parentId = some parent.id →
      scopeWords new.scope ⊆ scopeWords parent.scope)
    (he : new.parentId ≠ none ∨
      service.refreshTokenTtlSecs ≤ service.refreshFamilyMaxTtlSecs →
        new.expiresAt ≤ new.familyExpiresAt) :
    Bounded service (grants ++ [new]) where
  ids := by
    refine mem_append_singleton (fun row hro => mem_append_singleton (h.ids row hro) ?_)
      (mem_append_singleton ?_ fun _ => rfl)
    · exact fun heq => absurd heq (hid row hro)
    · exact fun row hro heq => absurd heq.symm (hid row hro)
  minted := by
    refine mem_append_singleton ?_ hmi
    intro row hro
    obtain ⟨minted, hme, hr⟩ := h.minted row hro
    exact ⟨minted, mem_append_left _ hme, hr⟩
  authority := by
    refine mem_append_singleton (fun row hro => mem_append_singleton (h.authority row hro) ?_)
      (mem_append_singleton ha fun _ _ => .refl _)
    exact fun hr heq => absurd heq.symm (hf hr row hro)
  parent := by
    have hm : ∀ parentId, (∃ parent ∈ grants, parent.id = parentId) →
        ∃ parent ∈ grants ++ [new], parent.id = parentId := by
      rintro parentId ⟨parent, hme, heq⟩
      exact ⟨parent, mem_append_left _ hme, heq⟩
    exact mem_append_singleton (fun row hro parentId heq => hm _ (h.parent row hro _ heq))
      fun parentId heq => hm _ (hp parentId heq)
  scope := by
    -- the new row is nobody's parent
    have hn : ∀ {row : Token}, (∀ parentId, row.parentId = some parentId →
        ∃ parent ∈ grants, parent.id = parentId) → row.parentId ≠ some new.id := by
      intro row hro heq
      obtain ⟨parent, hme, hsa⟩ := hro new.id heq
      exact hid parent hme hsa
    exact mem_append_singleton (fun row hro => mem_append_singleton (h.scope row hro)
        fun heq => absurd heq (hn (h.parent row hro)))
      (mem_append_singleton hs fun heq => absurd heq (hn hp))
  expires := mem_append_singleton h.expires he

theorem Bounded.mint (now : Int) (args : Mint)
    (hf : ∀ row ∈ grants, row.familyId ≠ args.familyId)
    (hid : ∀ row ∈ grants, row.id ≠ args.id) :
    Bounded service (grants ++ [args.row service now]) := by
  refine h.add hid ⟨_, mem_append_right _ (mem_singleton_self _), rfl, rfl⟩
    (fun _ => hf) ?_ ?_ ?_ ?_
  · exact fun minted hm _ heq => absurd heq (hf minted hm)
  · exact fun _ hp => absurd hp (by simp [Mint.row])
  · exact fun _ _ hp => absurd hp (by simp [Mint.row])
  · rintro (hp | ht)
    · exact absurd rfl hp
    · simp only [Mint.row]
      omega

theorem Bounded.rotate (now call) (hro : row ∈ grants) (hc : check call now row = .ok scope)
    (hid : ∀ row ∈ grants, row.id ≠ call.newId) :
    Bounded service (grants ++ [successor service call now row scope]) := by
  -- the successor is of the family of its row
  obtain ⟨minted, hm, hr⟩ := h.minted row hro
  refine h.add hid ⟨minted, mem_append_left _ hm, hr⟩ ?_ ?_ ?_ ?_ fun _ => ?_
  · intro hp
    cases hp
  · intro minted hm hp hf
    obtain ⟨h₁, h₂, h₃, h₄, h₅, h₆⟩ := h.authority row hro minted hm hp hf
    exact ⟨h₁, h₂, h₃, h₄, h₅, h₆⟩
  · exact fun parentId hp => ⟨row, hro, Option.some.inj hp⟩
  · intro parent hme hp
    obtain rfl := h.ids row hro parent hme (Option.some.inj hp)
    exact (of_check hc).2.2
  · exact min_le_right _ _

omit h

theorem Derivation.bounded (h : Derivation service grants) : Bounded service grants := by
  induction h with
  | empty =>
    refine ⟨?_, ?_, ?_, ?_, ?_, ?_⟩ <;> exact fun row hr => absurd hr not_mem_nil
  | mint now args _ hf hid ih => exact ih.mint now args hf hid
  | rotate now call _ _ _ hr hc hid ih => exact ih.rotate now call hr hc hid

end Tables

/-- After any calls, one after another with any clock readings, every row of a family has the
client, user, consent, resource and end of family of the minted row, a scope within that of its
parent and, if it comes from a rotation, an expiry within that of the family; and `rotate` does
not succeed at or after the end of the family.  Each `mint` draws a new family. -/
theorem refreshAuthority_shrinks (service : Service) (calls : List Call)
    (hfa : (calls.filterMap Call.family).Nodup) :
    (∀ row ∈ run service calls, ∃ minted ∈ run service calls, minted.parentId = none ∧
        minted.familyId = row.familyId) ∧
      (∀ row ∈ run service calls, ∀ minted ∈ run service calls, minted.parentId = none →
        minted.familyId = row.familyId → SameAuthority row minted) ∧
      (∀ row ∈ run service calls, ∀ parentId, row.parentId = some parentId →
        row.expiresAt ≤ row.familyExpiresAt ∧
          (∃ parent ∈ run service calls, parent.id = parentId) ∧
          ∀ parent ∈ run service calls, parent.id = parentId →
            scopeWords row.scope ⊆ scopeWords parent.scope) ∧
      (service.refreshTokenTtlSecs ≤ service.refreshFamilyMaxTtlSecs →
        ∀ row ∈ run service calls, row.expiresAt ≤ row.familyExpiresAt) ∧
      ∀ choice call outcome, (rotate service choice call (run service calls)).2 = .rotated outcome →
        ∃ row ∈ run service calls, row.tokenHash = service.hashToken call.refreshToken ∧
          choice.now < row.familyExpiresAt := by
  have hb := (derivation_run service calls hfa).1.bounded
  have hg : ∀ row ∈ run service calls, row.grant ∈ (run service calls).map grant :=
    fun row hr => mem_map_of_mem hr
  refine ⟨?_, ?_, ?_, ?_, ?_⟩
  · intro row hr
    obtain ⟨minted, hm, hp, hf⟩ := hb.minted row.grant (hg row hr)
    obtain ⟨original, ho, rfl⟩ := mem_map.mp hm
    exact ⟨original, ho, hp, hf⟩
  · intro row hr minted hm hp hf
    obtain ⟨h₁, h₂, h₃, h₄, h₅, h₆⟩ :=
      hb.authority _ (hg row hr) _ (hg minted hm) hp hf
    exact ⟨h₁, h₂, h₃, h₄, h₅, h₆⟩
  · intro row hr parentId hp
    refine ⟨hb.expires row.grant (hg row hr) (.inl (by simp [grant, hp])), ?_, ?_⟩
    · obtain ⟨parent, hme, hid⟩ := hb.parent _ (hg row hr) parentId hp
      obtain ⟨original, ho, rfl⟩ := mem_map.mp hme
      exact ⟨original, ho, hid⟩
    · rintro parent hme rfl
      exact hb.scope row.grant (hg row hr) parent.grant (hg parent hme) hp
  · intro ht row hr
    exact hb.expires row.grant (hg row hr) (.inr ht)
  · intro choice call outcome ha
    obtain ⟨-, hn⟩ | ⟨row, hr, hh, _, hc, -⟩ :=
      rotate_cases service choice call (run service calls)
    · exact absurd ha (hn outcome)
    · exact ⟨row, hr, hh, (of_check hc).2.1⟩

def defaultService : Service :=
  ⟨id, fun _ => some "jwt", "https://uptrakit.example", 900, 2592000, 7776000⟩

/-- A token is minted at time 0 and rotated three times, the first time with a smaller scope and
the last time close to the end of the family. -/
def lateRotation : List Call :=
  [.mint ⟨false, 0, true, some 0⟩ ⟨"client", 1, 2, "read write", "mcp", 10, 20, "first"⟩,
    .rotate ⟨false, 2000000, true, some 0⟩
      ⟨"first", "client", some "read", "mcp", 11, "second", 30⟩,
    .rotate ⟨false, 4000000, true, some 0⟩ ⟨"second", "client", none, "mcp", 12, "third", 31⟩,
    .rotate ⟨false, 6000000, true, some 0⟩ ⟨"third", "client", none, "mcp", 13, "fourth", 32⟩]

/-- The fourth token ends with its family. -/
theorem refreshAuthority_shrinks_lateRotation :
    ((run defaultService lateRotation).map fun row => (row.id, row.expiresAt)) =
        [(10, 2592000), (11, 4592000), (12, 6592000), (13, 7776000)] ∧
      ∀ row ∈ run defaultService lateRotation, row.expiresAt ≤ row.familyExpiresAt :=
  ⟨by decide +kernel,
    (refreshAuthority_shrinks defaultService lateRotation (by decide)).2.2.2.1 (by decide)⟩

end Uptrakit.Oauth.RefreshToken
