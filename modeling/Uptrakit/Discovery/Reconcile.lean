import Mathlib.Algebra.Group.Int.Defs
import Uptrakit.Discovery.Items

/-!
# Reconciliation of uninstalled software

After the discoveries of an entry have been stored, the links that its plugin type has
discovered are compared with the identifiers of the entry
(`crates/ui/web-api-queries/src/queries/autodiscovery/{mod,reconcile}.rs`): a link that
is absent is marked as missing, and deactivated if it is still absent an hour later.
The entry is taken for the whole inventory of the plugin type.

Reconciliation runs in a transaction, and its statements cannot break a constraint, so
it is a function on the tables.
-/

namespace Uptrakit.Discovery

open Concurrent Data Wire List Bool
open Update (Uuid Time)

/-- Minimum age of `missing_since` before a link is deactivated: one hour. -/
def reconcileMinMissingAge : Time := 3600 * 10 ^ 9

def uninstalledUpdateOutput : String := "software no longer installed on host"

def effectiveIdentifierSet (result : DiscoveryPluginResult) : List (String × Option String) :=
  result.discoveries.flatMap fun item =>
    if item.targets.isEmpty then
      [(item.pluginPackageIdentifier.getD item.packageIdentifier, item.qualifier)]
    else item.targets.map fun target =>
      (item.pluginPackageIdentifier.getD (target.packageIdentifier.getD item.packageIdentifier),
        item.qualifier)

def Link.isCandidate (hostId : Uuid) (pluginType : PluginTypeId) (link : Link) : Bool :=
  decide (link.hostId = hostId) && link.deactivatedAt.isNone &&
    decide (link.discoverySource = some pluginType) && link.lastDiscoveredAt.isSome

def Link.presentIn (ids : List (String × Option String)) (link : Link) : Bool :=
  link.packageIdentifier.any fun identifier => ids.contains (identifier, link.qualifier)

/-! ## Writes -/

inductive LinkWrite
  | found (now : Time)
  | missed (now : Time)
  | deactivate (now : Time)

def LinkWrite.row : LinkWrite → Link → Link
  | found now, link => { link with missingSince := none, lastDiscoveredAt := some now }
  | missed now, link => { link with missingSince := some now }
  | deactivate now, link => { link with deactivatedAt := some now }

@[simp] theorem LinkWrite.id_row (w : LinkWrite) (l : Link) : (w.row l).id = l.id := by
  cases w <;> rfl

variable {id : Uuid} {now : Time} {result : DiscoveryPluginResult}

/-- The write changes no key and activates no link. -/
theorem LinkWrite.clash_of_row {w : LinkWrite} {a : Link} {b : Link}
    (h : (if a.id = id then w.row a else a).Clash (if b.id = id then w.row b else b)) :
    a.Clash b := by
  have hk : ∀ l : Link, (if l.id = id then w.row l else l).id = l.id ∧
      (if l.id = id then w.row l else l).hostId = l.hostId ∧
      (if l.id = id then w.row l else l).softwareItemId = l.softwareItemId ∧
      (if l.id = id then w.row l else l).qualifier = l.qualifier ∧
      ((if l.id = id then w.row l else l).deactivatedAt = none → l.deactivatedAt = none) := by
    intro l
    split
    · cases w <;> simp [LinkWrite.row]
    · simp
  obtain ⟨hid, hh, hi, hqa, hac⟩ := hk a
  obtain ⟨hidb, hho, hit, hqb, hact⟩ := hk b
  obtain h | ⟨hhos, hite, hq, ha, hb⟩ := h
  · exact .inl (by rw [← hid, ← hidb, h])
  · exact .inr ⟨by rw [← hh, ← hho, hhos], by rw [← hi, ← hit, hite],
      by rw [← hqa, ← hqb, hq], hac ha, hact hb⟩

def Store.writeLink (s : Store) (id : Uuid) (w : LinkWrite) : Store where
  __ := s
  links := s.links.rewrite (fun l => if l.id = id then w.row l else l)
    fun _ _ => LinkWrite.clash_of_row

def SoftwareItem.deactivate (id : Uuid) (now : Time) (item : SoftwareItem) : SoftwareItem :=
  if item.id = id then { item with deactivatedAt := some now } else item

theorem SoftwareItem.clash_of_deactivate {a : SoftwareItem} {b : SoftwareItem}
    (h : (a.deactivate id now).Clash (b.deactivate id now)) : a.Clash b := by
  have hk : ∀ i : SoftwareItem, (i.deactivate id now).id = i.id ∧
      (i.deactivate id now).tenantId = i.tenantId ∧ (i.deactivate id now).name = i.name ∧
      ((i.deactivate id now).deactivatedAt = none → i.deactivatedAt = none) := by
    intro i
    unfold SoftwareItem.deactivate
    split <;> simp
  obtain ⟨hi, ht, hn, hac⟩ := hk a
  obtain ⟨hid, hte, hna, hact⟩ := hk b
  obtain h | ⟨hten, hnam, ha, hb⟩ := h
  · exact .inl (by rw [← hi, ← hid, h])
  · exact .inr ⟨by rw [← ht, ← hte, hten], by rw [← hn, ← hna, hnam], hac ha, hact hb⟩

def Store.deactivateItem (s : Store) (id : Uuid) (now : Time) : Store where
  __ := s
  items := s.items.rewrite (SoftwareItem.deactivate id now)
    fun _ _ => SoftwareItem.clash_of_deactivate

def terminateUninstalled (now : Time) (r : Update.Row) : Update.Row :=
  ({ r with status := .failed, completedAt := some now }).withOutput uninstalledUpdateOutput

/-- Deactivate a link, its software item if no active link is left, and fail its
unfinished updates. -/
def Store.deactivateLink (s : Store) (link : Link) (now : Time) : Store :=
  let s := s.writeLink link.id (.deactivate now)
  let remaining := s.links.rows.countP fun l =>
    decide (l.softwareItemId = link.softwareItemId) && l.deactivatedAt.isNone
  let s := if remaining = 0 then s.deactivateItem link.softwareItemId now else s
  { s with updates := s.updates.map fun r =>
      if r.hostSoftwareItemId = some link.id && r.status.unfinished then
        terminateUninstalled now r
      else r }

/-! ## The pass over the links -/

/-- What happens to a link: it is present, deferred while an update is active, or
absent for the first time, for too long, or not yet for long enough. -/
def verdict (now : Time) (ids : List (String × Option String)) (activeUpdateIds : List Uuid)
    (link : Link) : Option LinkWrite :=
  if link.presentIn ids then
    if link.missingSince.isSome then some (.found now) else none
  else if activeUpdateIds.contains link.id then none
  else match link.missingSince with
    | none => some (.missed now)
    | some since => if reconcileMinMissingAge ≤ now - since then some (.deactivate now) else none

def reconcileLink (now : Time) (ids : List (String × Option String)) (activeUpdateIds : List Uuid)
    (s : Store) (link : Link) : Store :=
  match verdict now ids activeUpdateIds link with
  | none => s
  | some (.deactivate now) => s.deactivateLink link now
  | some w => s.writeLink link.id w

def Store.candidates (s : Store) (hostId : Uuid) (pluginType : PluginTypeId) : List Link :=
  s.links.rows.filter (Link.isCandidate hostId pluginType)

def Store.activeUpdateIds (s : Store) (hostId : Uuid) (pluginType : PluginTypeId) : List Uuid :=
  (s.updates.filter fun r =>
    (r.hostSoftwareItemId.any fun id =>
      ((s.candidates hostId pluginType).map (·.id)).contains id) &&
    (r.status == .inProgress || r.status == .pending || r.status == .queued)).filterMap
      (·.hostSoftwareItemId)

def reconcilePluginResult (hostId : Uuid) (now : Time) (result : DiscoveryPluginResult)
    (ids : List (String × Option String)) (s : Store) : Store :=
  (s.candidates hostId result.pluginType).foldl
    (reconcileLink now ids (s.activeUpdateIds hostId result.pluginType)) s

/-! ## What reconciliation does to a link -/

section

variable {now : Time} {ids : List (String × Option String)} {active : List Uuid}

variable {l : Link}

/-- A link that is missing afterwards is absent; it was missing before, or is marked now. -/
theorem of_missingSince_verdict {t}
    (h : ((verdict now ids active l).elim l (·.row l)).missingSince = some t) :
    l.presentIn ids = false ∧
      (l.missingSince = some t ∨ now = t ∧ active.contains l.id = false) := by
  revert h
  fun_cases verdict now ids active l with
  | case1 => nofun
  | case2 _ hm =>
    intro (h : l.missingSince = some t)
    simp [h] at hm
  | case4 hp hi =>
    rintro ⟨⟩
    exact ⟨eq_false_iff.mpr hp, .inr ⟨rfl, eq_false_iff.mpr hi⟩⟩
  | case3 hp | case5 hp | case6 hp =>
    exact fun h => ⟨eq_false_iff.mpr hp, .inl h⟩

theorem of_verdict_deactivate {t} (h : verdict now ids active l = some (.deactivate t)) :
    l.presentIn ids = false ∧ active.contains l.id = false ∧
      ∃ since, l.missingSince = some since ∧ reconcileMinMissingAge ≤ now - since := by
  revert h
  fun_cases verdict now ids active l with
  | case5 hp hi since hs ha =>
    exact fun _ => ⟨eq_false_iff.mpr hp, eq_false_iff.mpr hi, since, hs, ha⟩
  | _ => nofun

/-- Only one verdict deactivates a link. -/
theorem deactivatedAt_verdict (h : ∀ t, verdict now ids active l ≠ some (.deactivate t)) :
    ((verdict now ids active l).elim l (·.row l)).deactivatedAt = l.deactivatedAt := by
  cases hv : verdict now ids active l with
  | none => rfl
  | some w =>
    cases w with
    | found | missed => rfl
    | deactivate t => exact absurd hv (h t)

theorem rows_reconcileLink (s link) :
    (reconcileLink now ids active s link).links.rows = s.links.rows.map fun l =>
      if l.id = link.id then (verdict now ids active link).elim l (·.row l) else l := by
  unfold reconcileLink
  split <;> rename_i h <;> rw [h]
  · simp
  · unfold Store.deactivateLink
    dsimp only
    split <;> rfl
  · rfl

/-- The loop over links with different ids writes each of them once. -/
theorem foldl_reconcileLink {w : Link → Option LinkWrite} {links : List Link}
    (hli : links.Pairwise fun a b => a.id ≠ b.id) (hl : ∀ c ∈ links, c.id = l.id → c = l) :
    links.foldl (fun k c => if k.id = c.id then (w c).elim k (·.row k) else k) l =
      if l ∈ links then (w l).elim l (·.row l) else l := by
  -- once the link is written, none of the remaining ids is its own
  have hr : ∀ (links : List Link) (k : Link), (∀ c ∈ links, c.id ≠ k.id) →
      links.foldl (fun k c => if k.id = c.id then (w c).elim k (·.row k) else k) k = k := by
    intro links k hk
    induction links with
    | nil => rfl
    | cons c _ ih =>
      rw [foldl_cons, if_neg (hk c mem_cons_self).symm]
      exact ih fun d hd => hk d (mem_cons_of_mem _ hd)
  have hid : ∀ k : Link, ((w l).elim k (·.row k)).id = k.id := by
    cases w l <;> simp
  induction links with
  | nil => rfl
  | cons c _ ih =>
    obtain ⟨hc, hli⟩ := pairwise_cons.mp hli
    rw [foldl_cons]
    by_cases h : c.id = l.id
    · obtain rfl := hl c mem_cons_self h
      rw [if_pos rfl, if_pos mem_cons_self, hr]
      intro d hd
      rw [hid]
      exact (hc d hd).symm
    · have hne : l ≠ c := fun heq => h (heq ▸ rfl)
      rw [if_neg (Ne.symm h), ih hli fun d hd => hl d (mem_cons_of_mem _ hd)]
      simp [hne]

theorem rows_foldl_reconcileLink (links : List Link) (s : Store) :
    (links.foldl (reconcileLink now ids active) s).links.rows = s.links.rows.map fun l =>
      links.foldl (fun k c =>
        if k.id = c.id then (verdict now ids active c).elim k (·.row k) else k) l := by
  induction links generalizing s with
  | nil => simp
  | cons _ _ ih =>
    rw [foldl_cons, ih, rows_reconcileLink, map_map]
    rfl

end

theorem rows_reconcilePluginResult (hostId now result ids s) :
    (reconcilePluginResult hostId now result ids s).links.rows = s.links.rows.map fun l =>
      if l.isCandidate hostId result.pluginType then
        (verdict now ids (s.activeUpdateIds hostId result.pluginType) l).elim l (·.row l)
      else l := by
  rw [reconcilePluginResult, Store.candidates, rows_foldl_reconcileLink]
  refine map_congr_left fun l hl => ?_
  have hp : s.links.rows.Pairwise fun a b => a.id ≠ b.id :=
    s.links.valid.imp fun h hid => h (.inl hid)
  rw [foldl_reconcileLink (hp.filter _)
    fun c hc hid => s.link_eq_of_id (mem_of_mem_filter hc) hl hid]
  simp [hl]

def Store.updatesOf (s : Store) (id : Uuid) : List Update.Row :=
  s.updates.filter fun r => decide (r.hostSoftwareItemId = some id)

theorem updatesOf_deactivateLink {s : Store} {link : Link} (h : link.id ≠ id) :
    (s.deactivateLink link now).updatesOf id = s.updatesOf id := by
  have hu : (s.deactivateLink link now).updates = s.updates.map fun r =>
      if r.hostSoftwareItemId = some link.id && r.status.unfinished then
        terminateUninstalled now r
      else r := by
    unfold Store.deactivateLink
    dsimp only
    split <;> rfl
  rw [Store.updatesOf, hu, Store.updatesOf]
  induction s.updates with
  | nil => rfl
  | cons r _ ih =>
    rw [map_cons, filter_cons, filter_cons, ih]
    by_cases hr : r.hostSoftwareItemId = some id
    · have hne : r.hostSoftwareItemId ≠ some link.id := by
        rw [hr]
        exact fun heq => h (Option.some.inj heq).symm
      simp [hne]
    · split
      · simp [terminateUninstalled, Update.Row.withOutput, hr]
      · rfl

theorem updatesOf_reconcilePluginResult {hostId ids} {s : Store}
    (h : ∀ l ∈ s.links.rows, l.id = id → l.isCandidate hostId result.pluginType →
      ∀ t, verdict now ids (s.activeUpdateIds hostId result.pluginType) l ≠ some (.deactivate t)) :
    (reconcilePluginResult hostId now result ids s).updatesOf id = s.updatesOf id := by
  have hca : ∀ c ∈ s.candidates hostId result.pluginType, c.id = id →
      ∀ t, verdict now ids (s.activeUpdateIds hostId result.pluginType) c ≠
        some (.deactivate t) := by
    intro c hc hid
    obtain ⟨hc, hcan⟩ := mem_filter.mp hc
    exact h c hc hid hcan
  rw [reconcilePluginResult]
  generalize s.activeUpdateIds _ _ = active at hca ⊢
  generalize s.candidates _ _ = candidates at hca ⊢
  clear h
  induction candidates generalizing s with
  | nil => rfl
  | cons c _ ih =>
    rw [foldl_cons, ih fun d hd => hca d (mem_cons_of_mem _ hd)]
    unfold reconcileLink
    split
    · rfl
    · rename_i t hv
      refine updatesOf_deactivateLink fun hid => ?_
      exact hca c mem_cons_self hid t hv
    · rfl

/-! ## Processing a page -/

def storeDiscoveries (env : Env) (now : Time) (ignoreSet : List String)
    (result : DiscoveryPluginResult) : DbQuery Unit :=
  if !result.discoveries.isEmpty then processPluginResult env now ignoreSet result else pure ()

theorem guarantees_storeDiscoveries {env ignoreSet} :
    Guarantees Refreshes (storeDiscoveries env now ignoreSet result) := by
  unfold storeDiscoveries
  split
  · exact guarantees_processPluginResult
  · exact .pure _

/-- Store and reconcile the error-free entries of a page one after the other.  An error
while an entry is stored ends the page. -/
def processDiscoveryResults (env : Env) (now : Time) (ignoreSet : List String) :
    List DiscoveryPluginResult → DbQuery Unit
  | [] => pure ()
  | result :: results =>
    if result.error.isSome then processDiscoveryResults env now ignoreSet results
    else do
      storeDiscoveries env now ignoreSet result
      modify (reconcilePluginResult env.hostId now result (effectiveIdentifierSet result))
      processDiscoveryResults env now ignoreSet results

end Uptrakit.Discovery
