import Mathlib.Data.List.Basic

/-!
# Bearer tokens of registries

`RegistryAuth` (`crates/plugins/releases/docker/src/auth.rs`) keeps the token that it has fetched
until 30 seconds before it expires.  A registry can announce so late an expiry that it is no
`Instant`, and the sum panics.
-/

namespace Uptrakit.Plugin.RegistryAuth

open Option

structure TokenResponse where
  token : Option String
  accessToken : Option String
  expiresIn : Option UInt64

inductive DockerError
  | authFailed (message : String)
  | parseResponse (message : String)

/-- Instants are in nanoseconds. -/
structure CachedToken where
  token : String
  expiresAt : Option Int

def expirySafetyMarginSecs : Nat := 30

/-- The sum of an `Instant`, whose seconds are an `i64`, and a `Duration`; `none` is a panic. -/
def addSecs (now : Int) (secs : Nat) : Option Int :=
  if now + secs * 1000000000 < 9223372036854775808000000000 then some (now + secs * 1000000000)
  else none

/-- When a token with this `expires_in` is not used any more. -/
def expiresAt (now : Int) : Option UInt64 → Option (Option Int)
  | none => some none
  | some secs =>
    if expirySafetyMarginSecs < secs.toNat then
      (addSecs now (secs.toNat - expirySafetyMarginSecs)).map some
    else some (some now)

def TokenResponse.bearer (response : TokenResponse) : Option String :=
  response.token.or response.accessToken

/-- `fetch_token`, from the answer of the token endpoint on. -/
def fetchToken (cached : Option CachedToken) (now : Int) :
    Except DockerError TokenResponse → Option (Except DockerError String × Option CachedToken)
  | .error e => some (.error e, cached)
  | .ok response =>
    match response.bearer with
    | none => some (.error (.parseResponse
        "registry token response contained neither 'token' nor 'access_token'"), cached)
    | some token =>
      (expiresAt now response.expiresIn).map fun expiresAt => (.ok token, some ⟨token, expiresAt⟩)

def cachedBearerToken (cached : Option CachedToken) (now : Int) : Option String :=
  cached.bind fun ct => if ct.expiresAt.any (· ≤ now) then none else some ct.token

inductive Call
  | fetchToken (answer : Except DockerError TokenResponse)
  | clearCache

def call (cached : Option CachedToken) : Int × Call → Option (Option CachedToken)
  | (now, .fetchToken answer) => (fetchToken cached now answer).map (·.2)
  | (_, .clearCache) => some none

def announced (last : Option (Int × TokenResponse)) : Int × Call → Option (Int × TokenResponse)
  | (now, .fetchToken (.ok response)) =>
    if response.bearer.isSome then some (now, response) else last
  | (_, .fetchToken (.error _)) => last
  | (_, .clearCache) => none

/-- A token is returned only up to 30 seconds before the expiry that was announced for it. -/
def Timely (cached : Option CachedToken) (last : Option (Int × TokenResponse)) : Prop :=
  ∀ later token, cachedBearerToken cached later = some token → ∃ now response,
    last = some (now, response) ∧ response.bearer = some token ∧ (now ≤ later → ∀ secs,
      response.expiresIn = some secs → later < now + (secs.toNat - 30) * 1000000000)

/-- The announced expiry, less the margin, is an `Instant`. -/
def InRange (now : Int) : Option UInt64 → Prop
  | none => True
  | some secs =>
    secs.toNat ≤ 30 ∨ now + (secs.toNat - 30) * 1000000000 < 9223372036854775808000000000

def Fits : Int × Call → Prop
  | (now, .fetchToken (.ok response)) => response.bearer = none ∨ InRange now response.expiresIn
  | _ => True

theorem expiresAt_cases (now : Int) (expiresIn : Option UInt64) :
    (∃ expires, expiresAt now expiresIn = some expires ∧ InRange now expiresIn ∧
      ∀ later, expires.any (· ≤ later) = false → now ≤ later → ∀ secs, expiresIn = some secs →
        later < now + (secs.toNat - 30) * 1000000000) ∨
      expiresAt now expiresIn = none ∧ ¬ InRange now expiresIn := by
  cases expiresIn with
  | none => exact .inl ⟨none, rfl, trivial, nofun⟩
  | some secs =>
    unfold expiresAt addSecs expirySafetyMarginSecs InRange
    dsimp only
    split
    · split
      · refine .inl ⟨_, rfl, by omega, ?_⟩
        rintro later hl hn _ ⟨⟩
        simp at hl
        omega
      · exact .inr ⟨rfl, by omega⟩
    · refine .inl ⟨_, rfl, by omega, ?_⟩
      rintro later hl hn _ ⟨⟩
      simp at hl
      omega

variable {cached : Option CachedToken} {last : Option (Int × TokenResponse)}

/-- A call that fits does not panic, and what it caches is returned in time. -/
theorem call_cases (h : Timely cached last) (c) :
    (∃ after, call cached c = some after ∧ Fits c ∧ Timely after (announced last c)) ∨
      call cached c = none ∧ ¬ Fits c := by
  obtain ⟨now, (_ | response) | _⟩ := c
  · exact .inl ⟨cached, rfl, trivial, h⟩
  · simp only [call, fetchToken, Fits, announced]
    cases hb : response.bearer with
    | none => simpa using h
    | some token =>
      obtain ⟨expires, hat, hf, hla⟩ | ⟨hat, hf⟩ := expiresAt_cases now response.expiresIn
      · refine .inl ⟨some ⟨token, expires⟩, by simp [hat], .inr hf, ?_⟩
        intro later _ hg
        simp only [cachedBearerToken, bind_some, Option.ite_none_left_eq_some, some.injEq] at hg
        obtain ⟨hl, rfl⟩ := hg
        exact ⟨now, response, rfl, hb, hla later (by simpa using hl)⟩
      · exact .inr ⟨by simp [hat], by simpa using hf⟩
  · exact .inl ⟨none, rfl, trivial, nofun⟩

/-- No call panics, and no token is returned late, exactly if the announced expiries fit. -/
theorem tokens_timely_iff (calls : List (Int × Call)) :
    (∃ cached, calls.foldlM call none = some cached ∧
        Timely cached (calls.foldl announced none)) ↔ ∀ c ∈ calls, Fits c := by
  suffices h : ∀ cached last, Timely cached last → ((∃ after, calls.foldlM call cached =
      some after ∧ Timely after (calls.foldl announced last)) ↔ ∀ c ∈ calls, Fits c) from
    h none none nofun
  induction calls with
  | nil =>
    intro cached last h
    simpa using h
  | cons c calls ih =>
    intro cached last h
    obtain ⟨after, hc, hf, ht⟩ | ⟨hc, hf⟩ := call_cases h c
    · simpa [hc, hf] using ih after _ ht
    · simp [hc, hf]

/-- The largest lifetime a registry can answer with overflows the expiry. -/
theorem fetchToken_panics :
    fetchToken none 0 (.ok ⟨some "token", none, some 18446744073709551615⟩) = none := by
  decide

end Uptrakit.Plugin.RegistryAuth
