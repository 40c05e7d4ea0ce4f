import Uptrakit.Auth.DeviceFlow
import Uptrakit.Data.StoredTime

/-!
# The rate limit of the API

`check_rate_limit` (`crates/ui/web-api-auth/src/auth/rate_limit.rs`) counts a call by an upsert and
decides on the row that it reads back.  What remains of the window is told in whole seconds, rounded
down, and the end of the window still belongs to it, with the times that the database does not tell
from it or takes for earlier ones.  A call that comes back as it was told is therefore limited
again, unless less than a second remained (`honest_iff`).
-/

namespace Uptrakit.Auth.RateLimit

open Function Data

/-- A row of `api_rate_limit`.  Times are in nanoseconds. -/
structure Row where
  requestCount : Int
  windowStart : Int
  expiresAt : Int

inductive RateLimitOutcome
  | allowed
  | limited (retryAfterSecs : Nat)
  deriving DecidableEq

structure Call where
  key : String
  maxRequests : Int
  windowSecs : Int
  now : Int

namespace Call

variable (db : Backend) (c : Call)

def window : Int := c.windowSecs * 1000000000

def opened : Row := ⟨1, db.stored c.now, db.stored (c.now + 2 * c.window)⟩

def upsert : Option Row → Row
  | none => c.opened db
  | some row =>
    if db.le (c.now - c.window) row.windowStart then
      ⟨row.requestCount + 1, row.windowStart, db.stored (c.now + 2 * c.window)⟩
    else c.opened db

def outcome : Option Row → RateLimitOutcome
  | none => .allowed
  | some row =>
    if c.maxRequests < row.requestCount then
      .limited (max (DeviceFlow.wholeSeconds (row.windowStart + c.window - c.now)) 1).toNat
    else .allowed

def count (table : String → Option Row) : String → Option Row :=
  update table c.key (some (c.upsert db (table c.key)))

def checkRateLimit (table : String → Option Row) : RateLimitOutcome :=
  c.outcome (c.count db table c.key)

end Call

inductive Event
  | checkRateLimit (c : Call)
  | cleanupExpired (now : Int)

def Event.after (db : Backend) (table : String → Option Row) : Event → String → Option Row
  | checkRateLimit c => c.count db table
  | cleanupExpired now => fun key => (table key).filter fun row => !db.lt row.expiresAt now

/-- If the call is limited, then it is allowed when it comes back no earlier than it was told and
no other call on its key was made meanwhile. -/
def Honest (db : Backend) (c : Call) (table : String → Option Row) : Prop :=
  ∀ secs, c.checkRateLimit db table = .limited secs →
    ∀ events : List Event, (∀ d, .checkRateLimit d ∈ events → d.key ≠ c.key) →
      ∀ later, c.now + secs * 1000000000 ≤ later →
        { c with now := later }.checkRateLimit db
          (events.foldl (Event.after db) (c.count db table)) = .allowed

variable {db : Backend}

/-- Calls on other keys and the cleanup leave the row of a key, or remove it. -/
theorem foldl_after_eq_some {table : String → Option Row} {events : List Event} {key row}
    (ho : ∀ d, .checkRateLimit d ∈ events → d.key ≠ key)
    (h : events.foldl (Event.after db) table key = some row) : table key = some row := by
  induction events generalizing table with
  | nil => exact h
  | cons event events ih =>
    have hk := ih (fun d hd => ho d (.tail _ hd)) h
    cases event with
    | checkRateLimit d =>
      rwa [Event.after, Call.count, update_of_ne (ho d (.head _)).symm] at hk
    | cleanupExpired => exact (Option.filter_eq_some_iff.1 hk).1

variable {c : Call} (hmax : 1 ≤ c.maxRequests) (table : String → Option Row)

include hmax

/-- A call is limited exactly if it is counted in a window that has had its requests. -/
theorem checkRateLimit_cases (db : Backend) :
    (∃ row secs, table c.key = some row ∧ db.le (c.now - c.window) row.windowStart = true ∧
      c.maxRequests ≤ row.requestCount ∧ c.checkRateLimit db table = .limited secs ∧
        (∃ expiresAt, c.count db table c.key =
          some ⟨row.requestCount + 1, row.windowStart, expiresAt⟩) ∧
        1 ≤ secs ∧ (secs = 1 ∨ secs * 1000000000 ≤ row.windowStart + c.window - c.now)) ∨
      (∀ row, table c.key = some row → db.le (c.now - c.window) row.windowStart = true →
        row.requestCount < c.maxRequests) ∧ c.checkRateLimit db table = .allowed := by
  have ho : c.outcome (some (c.opened db)) = .allowed := if_neg (Int.not_lt.2 hmax)
  simp only [Call.checkRateLimit, Call.count, update_self]
  cases table c.key with
  | none => exact .inr ⟨nofun, ho⟩
  | some row =>
    simp only [Call.upsert]
    split
    · next hi =>
      by_cases hc : row.requestCount < c.maxRequests
      · exact .inr ⟨fun _ hro _ => Option.some.inj hro ▸ hc, if_neg (Int.not_lt.2 hc)⟩
      · have hm := Int.not_lt.1 hc
        refine .inl ⟨row, _, rfl, hi, hm, if_pos (Int.lt_add_one_of_le hm), ⟨_, rfl⟩,
          by omega, ?_⟩
        dsimp only
        rw [DeviceFlow.wholeSeconds]
        by_cases hr : 0 ≤ row.windowStart + c.window - c.now
        · rw [Int.tdiv_eq_ediv_of_nonneg hr]
          omega
        · rw [← Int.neg_neg (row.windowStart + c.window - c.now), Int.neg_tdiv,
            Int.tdiv_eq_ediv_of_nonneg (by omega)]
          omega
    · next hou =>
      exact .inr ⟨fun _ hro hi => absurd (Option.some.inj hro ▸ hi) hou, ho⟩

/-- The time told is honest exactly if, when the call is limited, less than a second remains up to
the time from which on all times are outside of the window. -/
theorem honest_iff : Honest db c table ↔ ∀ row, table c.key = some row →
    db.le (c.now - c.window) row.windowStart = true → c.maxRequests ≤ row.requestCount →
      db.next row.windowStart + c.window - c.now ≤ 1000000000 := by
  have hag := fun later table => checkRateLimit_cases (c := { c with now := later }) hmax table db
  obtain ⟨row, secs, hro, hi, hc, hl, ⟨_, hco⟩, hs, ht⟩ |
    ⟨hf, ha⟩ := checkRateLimit_cases hmax table db
  · have hn := db.lt_next row.windowStart
    constructor
    · intro h row' hro' _ _
      cases hro.symm.trans hro'
      by_contra hr
      -- The call that comes back is counted in the same window.
      let later := max (row.windowStart + c.window) (c.now + secs * 1000000000)
      have hla : db.le (later - c.window) row.windowStart = true := by
        rw [Backend.le_iff_of_le (by omega)]
        omega
      obtain ⟨_, _, -, -, -, hl', -⟩ | ⟨hf, -⟩ := hag later (c.count db table)
      · cases hl'.symm.trans (h secs hl [] nofun later (by omega))
      · have hle : row.requestCount + 1 < c.maxRequests := hf _ hco hla
        omega
    · intro h secs' hs' events ho later hla
      cases hl.symm.trans hs'
      have hr := h row hro hi hc
      obtain ⟨row', _, hro', hi', -⟩ | ⟨-, ha⟩ :=
        hag later (events.foldl (Event.after db) (c.count db table))
      · cases hco.symm.trans (foldl_after_eq_some ho hro')
        have hlat := (Backend.le_iff_of_le (by simp only [Call.window] at *; omega)).1 hi'
        simp only [Call.window] at *
        omega
      · exact ha
  · constructor
    · intro _ row hro hi hc
      exact absurd (hf row hro hi) (Int.not_lt.2 hc)
    · intro _ secs hl
      cases ha.symm.trans hl

omit hmax

def loginAt (now : Int) : Call := ⟨"/login:127.0.0.1", 10, 60, now⟩

def fullWindow (start : Int) (_ : String) : Option Row := some ⟨10, start, start + 120000000000⟩

/-- Ten seconds before the end of the window, the time told is ten seconds. -/
theorem limited_again :
    let told db := (loginAt 50000000000).checkRateLimit db (fullWindow 0)
    let again db := (loginAt 60000000000).checkRateLimit db
      ((loginAt 50000000000).count db (fullWindow 0))
    (told .sqlite = .limited 10 ∧ again .sqlite = .limited 1) ∧
      told .postgres = .limited 10 ∧ again .postgres = .limited 1 := by
  decide +kernel

/-- Half a second before the end, in microseconds and in a text with all digits. -/
theorem honest_at_end : Honest .postgres (loginAt 59500000000) (fullWindow 0) ∧
    Honest .sqlite (loginAt 59500000000) (fullWindow 123456789) := by
  refine ⟨(honest_iff (by decide) _).2 ?_, (honest_iff (by decide) _).2 ?_⟩
  · rintro _ ⟨⟩
    decide
  · rintro _ ⟨⟩
    decide +kernel

end Uptrakit.Auth.RateLimit
