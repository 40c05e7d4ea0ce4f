import Uptrakit.Discovery.Reconcile

/-!
# Installed software stays

A run of discovery as the actions that the pages of the reports perform on the tables:
an entry is stored, an entry is reconciled, and in between the rest of the controller
changes the updates.

A link is deactivated if it is absent from two reconciled entries of its plugin type an
hour apart and from all in between.  Because each entry is reconciled alone, being in
every report is not enough: a plugin with more than a thousand discoveries reports in
several entries, and the link may be in the first entry of one report and in the last
entry of the next.  If between two absences an hour apart some entry has the link, the
link stays (`link_spared`).
-/

namespace Uptrakit.Discovery

open Concurrent Data Wire List
open Update (Uuid Time)

inductive Action
  /-- The discoveries of an entry are stored. -/
  | store (now : Time) (ignoreSet : List String) (result : DiscoveryPluginResult)
  | reconcile (now : Time) (result : DiscoveryPluginResult)
  /-- The rest of the controller changes the updates. -/
  | updates (change : List Update.Row → List Update.Row)

section

variable (env : Env)

def act (s : Store) : Action → Store
  | .store now ignoreSet result => ((storeDiscoveries env now ignoreSet result).exec s).2
  | .reconcile now result =>
    reconcilePluginResult env.hostId now result (effectiveIdentifierSet result) s
  | .updates change => { s with updates := change s.updates }

def run (s : Store) (actions : List Action) : Store := actions.foldl (act env) s

theorem run_append (s as bs) : run env s (as ++ bs) = run env (run env s as) bs := foldl_append

/-! ## The actions of a report -/

def pageActions (now : Time) (ignoreSet : List String) :
    Store → List DiscoveryPluginResult → List Action
  | _, [] => []
  | s, result :: results =>
    if result.error.isSome then pageActions now ignoreSet s results
    else match (storeDiscoveries env now ignoreSet result).exec s with
      | (.error _, _) => [.store now ignoreSet result]
      | (.ok _, s') => .store now ignoreSet result :: .reconcile now result ::
          pageActions now ignoreSet
            (reconcilePluginResult env.hostId now result (effectiveIdentifierSet result) s')
            results

theorem run_pageActions (now ignoreSet s results) :
    run env s (pageActions env now ignoreSet s results) =
      ((processDiscoveryResults env now ignoreSet results).exec s).2 := by
  induction results generalizing s with
  | nil => rfl
  | cons result _ ih =>
    rw [pageActions, processDiscoveryResults]
    split
    · exact ih s
    · rw [Query.exec_bind]
      cases h : (storeDiscoveries env now ignoreSet result).exec s with
      | mk outcome s' =>
        have hs : act env s (.store now ignoreSet result) = s' := congrArg Prod.snd h
        cases outcome with
        | error => exact hs
        | ok =>
          rw [run, foldl_cons, hs]
          exact ih _

inductive Step
  | page (now : Time) (ignoreSet : List String) (results : List DiscoveryPluginResult)
  | updates (change : List Update.Row → List Update.Row)

def Step.exec (s : Store) : Step → Store
  | page now ignoreSet results => ((processDiscoveryResults env now ignoreSet results).exec s).2
  | updates change => { s with updates := change s.updates }

def Step.actions (s : Store) : Step → List Action
  | page now ignoreSet results => pageActions env now ignoreSet s results
  | updates change => [.updates change]

def actions : Store → List Step → List Action
  | _, [] => []
  | s, step :: steps => step.actions env s ++ actions (step.exec env s) steps

theorem run_actions (s steps) :
    run env s (actions env s steps) = steps.foldl (Step.exec env) s := by
  induction steps generalizing s with
  | nil => rfl
  | cons step _ ih =>
    have hs : run env s (step.actions env s) = step.exec env s := by
      cases step with
      | page now ignoreSet results => exact run_pageActions env now ignoreSet s results
      | updates => rfl
    rw [actions, run_append, hs, foldl_cons, ih]

end

/-- A report: its payload, the limits for its pages, and for each page when it is
processed, the ignored names and what becomes of the updates before it. -/
structure Report where
  payload : DiscoveryResultsPayload
  maxItems : Nat
  reportId : Uuid
  now : Nat → Time
  ignoreSet : Nat → List String
  updates : Nat → List Update.Row → List Update.Row

def Report.steps (len : JsonLen) (report : Report) : List Step :=
  (paginatePayload len report.maxItems report.reportId report.payload).zipIdx.flatMap
    fun (page, i) =>
      [.updates (report.updates i), .page (report.now i) (report.ignoreSet i) page.payload.results]

/-! ## Absence and presence -/

section

variable (env : Env) (id : Uuid)

def Action.finds (s : Store) : Action → Bool
  | reconcile _ result => s.links.rows.any fun l => decide (l.id = id) &&
      l.isCandidate env.hostId result.pluginType && l.presentIn (effectiveIdentifierSet result)
  | store .. | updates _ => false

/-- An entry of the plugin type of the link is reconciled and does not have it, while no
update is rewriting the link. -/
def Action.misses (s : Store) : Action → Bool
  | reconcile _ result => s.links.rows.any fun l => decide (l.id = id) &&
      l.isCandidate env.hostId result.pluginType && !l.presentIn (effectiveIdentifierSet result) &&
      !(s.activeUpdateIds env.hostId result.pluginType).contains l.id
  | store .. | updates _ => false

/-- The times of the absences since an entry had the link, after an action. -/
def Action.absences (s : Store) (since : List Time) : Action → List Time
  | reconcile now result =>
    if (reconcile now result).finds env id s then []
    else if (reconcile now result).misses env id s then now :: since
    else since
  | store .. | updates _ => since

/-- No absence comes an hour after another one, unless an entry in between has the link.
The times are those of the absences so far, since an entry had the link. -/
def Covered : Store → List Time → List Action → Prop
  | _, _, [] => True
  | s, since, a :: as =>
    (match a with
      | .reconcile now _ => a.misses env id s →
          ∀ t ∈ since, now - t < reconcileMinMissingAge
      | .store .. | .updates _ => True) ∧
    Covered (act env s a) (a.absences env id s since) as

instance decidableCovered : ∀ s since as, Decidable (Covered env id s since as)
  | _, _, [] => inferInstanceAs (Decidable True)
  | s, since, a :: as =>
    have := decidableCovered (act env s a) (a.absences env id s since) as
    match a with
    | .reconcile _ _ => inferInstanceAs (Decidable ((_ → _) ∧ _))
    | .store .. => inferInstanceAs (Decidable (True ∧ _))
    | .updates _ => inferInstanceAs (Decidable (True ∧ _))

/-- The link is active. -/
def Active (s : Store) : Prop := ∀ l ∈ s.links.rows, l.id = id → l.deactivatedAt = none

instance (s : Store) : Decidable (Active id s) := inferInstanceAs (Decidable (∀ _ ∈ _, _))

/-- The action does not deactivate the link, and reconciliation fails none of its
updates. -/
def Spares (s : Store) (a : Action) : Prop :=
  Active id (act env s a) ∧ match a with
    | .reconcile _ _ => (act env s a).updatesOf id = s.updatesOf id
    | .store .. | .updates _ => True

/-- The invariant: the link is active, and it is missing since one of the absences. -/
def Kept (s : Store) (since : List Time) : Prop :=
  ∀ l ∈ s.links.rows, l.id = id →
    l.deactivatedAt = none ∧ ∀ t, l.missingSince = some t → t ∈ since

variable {env id} {s : Store} {since : List Time}

variable {l : Link} {result : DiscoveryPluginResult} {as : List Action}

/-- What is said of the rows of a link is said of its row. -/
theorem any_link (hl : l ∈ s.links.rows) (hid : l.id = id) (p : Link → Bool) :
    (s.links.rows.any fun k => decide (k.id = id) && p k) = p l := by
  rw [Bool.eq_iff_iff, any_eq_true]
  constructor
  · rintro ⟨k, hk, h⟩
    rw [Bool.and_eq_true, decide_eq_true_eq] at h
    obtain rfl := s.link_eq_of_id hk hl (h.1.trans hid.symm)
    exact h.2
  · intro h
    exact ⟨l, hl, by simpa [hid] using h⟩

theorem misses_reconcile (hl : l ∈ s.links.rows) (hid : l.id = id) (now result) :
    (Action.reconcile now result).misses env id s =
      (l.isCandidate env.hostId result.pluginType &&
        (!l.presentIn (effectiveIdentifierSet result) &&
          !(s.activeUpdateIds env.hostId result.pluginType).contains l.id)) := by
  simp only [Action.misses, Bool.and_assoc]
  exact any_link hl hid _

variable (h : Kept id s since)

include h

theorem Kept.store (now ignoreSet result) :
    Kept id (act env s (.store now ignoreSet result)) since := by
  obtain ⟨-, hli⟩ := @guarantees_storeDiscoveries now result env ignoreSet s
  intro l hl hid
  obtain hl | ⟨hm, ha⟩ := hli l hl
  · exact h l hl hid
  · refine ⟨ha, fun t ht => ?_⟩
    rw [hm] at ht
    cases ht

/-- A link that is missing since one of the absences is not deactivated. -/
theorem Kept.verdict_ne {now} (hco : (Action.reconcile now result).misses env id s →
      ∀ t ∈ since, now - t < reconcileMinMissingAge) (hl : l ∈ s.links.rows) (hid : l.id = id)
    (hc : l.isCandidate env.hostId result.pluginType = true) (t) :
    verdict now (effectiveIdentifierSet result)
      (s.activeUpdateIds env.hostId result.pluginType) l ≠ some (.deactivate t) := by
  intro hv
  obtain ⟨hp, hi, start, hs, ha⟩ := of_verdict_deactivate hv
  have hm : (Action.reconcile now result).misses env id s = true := by
    rw [misses_reconcile hl hid, hc, hp, hi]
    rfl
  have hlt := hco hm start ((h l hl hid).2 start hs)
  exact absurd ha (Int.not_le.mpr hlt)

theorem Kept.reconcile {now} (hco : (Action.reconcile now result).misses env id s →
    ∀ t ∈ since, now - t < reconcileMinMissingAge) : Kept id (act env s (.reconcile now result))
      ((Action.reconcile now result).absences env id s since) := by
  intro k hk hki
  rw [act, rows_reconcilePluginResult] at hk
  obtain ⟨l, hl, rfl⟩ := mem_map.mp hk
  have hid : l.id = id := by
    rw [← hki]
    split
    · cases verdict _ _ _ l <;> simp
    · rfl
  obtain ⟨ha, hm⟩ := h l hl hid
  rw [Action.absences, misses_reconcile hl hid]
  simp only [Action.finds, Bool.and_assoc, any_link hl hid]
  cases hc : l.isCandidate env.hostId result.pluginType with
  | false => simpa using ⟨ha, hm⟩
  | true =>
    rw [if_pos rfl]
    refine ⟨?_, fun t ht => ?_⟩
    · rw [deactivatedAt_verdict (h.verdict_ne hco hl hid hc), ha]
    · obtain ⟨hp, hs⟩ := of_missingSince_verdict ht
      rw [hp, Bool.and_false, if_neg Bool.false_ne_true]
      obtain hb | ⟨rfl, hi⟩ := hs
      · split
        · exact mem_cons_of_mem _ (hm t hb)
        · exact hm t hb
      · rw [hi]
        exact mem_cons_self

/-- One action keeps the invariant, and spares the link. -/
theorem Kept.act {a} (hc : Covered env id s since (a :: as)) :
    Kept id (act env s a) (a.absences env id s since) ∧ Spares env id s a := by
  cases a with
  | store now ignoreSet result =>
    have hk := @Kept.store env id s since h now ignoreSet result
    exact ⟨hk, fun l hl hid => (hk l hl hid).1, trivial⟩
  | reconcile =>
    have hk := h.reconcile hc.1
    refine ⟨hk, fun l hl hid => (hk l hl hid).1, ?_⟩
    exact updatesOf_reconcilePluginResult fun l hl hid hca t =>
      h.verdict_ne hc.1 hl hid hca t
  | updates => exact ⟨h, fun l hl hid => (h l hl hid).1, trivial⟩

theorem Kept.spares (hc : Covered env id s since as) {pre a post}
    (has : as = pre ++ a :: post) :
    Active id (run env s pre) ∧ Spares env id (run env s pre) a := by
  induction as generalizing s since pre with
  | nil => simp at has
  | cons _ _ ih =>
    obtain ⟨hk, hs⟩ := h.act hc
    cases pre with
    | nil =>
      obtain ⟨rfl, -⟩ := cons.inj has
      exact ⟨fun l hl hid => (h l hl hid).1, hs⟩
    | cons =>
      rw [cons_append, cons.injEq] at has
      obtain ⟨rfl, has⟩ := has
      exact ih hk hc.2 has

end

def Store.missingTimes (s : Store) (id : Uuid) : List Time :=
  (s.links.rows.filter fun l => decide (l.id = id)).filterMap (·.missingSince)

-- the runs below are evaluated by the kernel only
attribute [irreducible] Covered actions

def exampleEnv : Env where
  tenantId := 1
  hostId := 1
  one := List.head?
  one_mem := mem_of_mem_head?
  one_eq_none := head?_eq_none_iff.mp
  newId s := 100 + s.items.rows.length + s.links.rows.length + s.pluginLinks.rows.length
  hasSentinel _ _ := false

def waitingUpdate : Update.Row :=
  { id := 40, tenantId := 1, hostId := 1, softwareItemId := 10, hostSoftwareItemId := some 20
    fromVersion := some "1.0", toVersion := some "1.1", status := .awaitingRestart, output := ""
    outputBytes := 0, executionOwnerServiceId := none, executionOwnerInstanceId := none
    startedAt := some 0, completedAt := none, awaitingRestartSince := some 0, createdAt := 0
    batchId := none, interactive := false, outputTruncated := false
    preUpdateProtectionStatus := none, preUpdateProtectionSummary := none, recoveryHint := none
    timeoutSeconds := none }

def nginxStore : Store where
  items := ⟨[⟨10, 1, "nginx", none⟩], by decide⟩
  links := ⟨[⟨20, 1, 10, none, some "nginx", some "1.0", some 0, none, some 0,
    some "package-manager.apt", none, none⟩], by decide⟩
  pluginLinks := ⟨[⟨30, 1, 10, 20, none, "package-manager.apt", .detectVersion, 0, "nginx"⟩],
    by decide⟩
  configs := ⟨[], by decide⟩
  updates := [waitingUpdate]

def nginx : DiscoveredSoftware :=
  ⟨"nginx", "nginx", "1.0", [⟨"package-manager.apt", "", "", [.detectVersion], none⟩], none, none,
    none⟩

def ignoredPackage : DiscoveredSoftware := ⟨"lib", "lib", "1.0", [], none, none, none⟩

def aptReport (now : Time) (discoveries : List DiscoveredSoftware) : Report where
  payload := ⟨"machine", [⟨none, "package-manager.apt", discoveries, none⟩]⟩
  maxItems := 50
  reportId := 0
  now _ := now
  ignoreSet _ := ["lib"]
  updates _ rows := rows

def shortJson : JsonLen := ⟨fun _ => 0, fun _ => 0⟩

/-- Two reports an hour apart in two entries each: the package is always in the first. -/
def orderedReports : List Report :=
  [aptReport 0 (nginx :: List.replicate 1000 ignoredPackage),
    aptReport reconcileMinMissingAge (nginx :: List.replicate 1000 ignoredPackage)]

/-- Two reports an hour apart: the package comes first, then last. -/
def movedReports : List Report :=
  [aptReport 0 (nginx :: List.replicate 1000 ignoredPackage),
    aptReport reconcileMinMissingAge (List.replicate 1000 ignoredPackage ++ [nginx])]

def afterMoved (n : Nat) : Store :=
  run exampleEnv nginxStore
    ((actions exampleEnv nginxStore (movedReports.flatMap (Report.steps shortJson))).take n)

structure Call (pluginType : PluginTypeId) where
  now : Time
  result : DiscoveryPluginResult
  source : result.pluginType = pluginType
  effectiveIdentifiers : List (String × Option String)
  /-- The updates that the call finds. -/
  updates : List Update.Row

section

variable {pluginType : PluginTypeId} {hostId : Uuid} {now t : Time} {s : Store}
  {ids : List (String × Option String)} {active : List Uuid} {l k : Link}
  {c : Call pluginType} {calls : List (Call pluginType)}

def Call.exec (hostId : Uuid) (s : Store) (c : Call pluginType) : Store :=
  reconcilePluginResult hostId c.now c.result c.effectiveIdentifiers { s with updates := c.updates }

/-- The links that an update is rewriting when the call is made. -/
def Call.activeUpdateIds (hostId : Uuid) (s : Store) (c : Call pluginType) : List Uuid :=
  Store.activeUpdateIds { s with updates := c.updates } hostId pluginType

/-- The call does not report the link. -/
def Call.absent (c : Call pluginType) (l : Link) : Prop :=
  l.presentIn c.effectiveIdentifiers = false

/-- The call does not report the link, and the link has no update that is queued, pending or
in progress. -/
def Call.misses (c : Call pluginType) (l : Link) : Prop :=
  c.absent l ∧ ∀ r ∈ c.updates, r.hostSoftwareItemId = some l.id →
    r.status ≠ .queued ∧ r.status ≠ .pending ∧ r.status ≠ .inProgress

/-- One of the calls, at the given time, misses the link, and those after it do not report it. -/
def MissedSince (calls : List (Call pluginType)) (l : Link) (t : Time) : Prop :=
  ∃ before c between, calls = before ++ c :: between ∧ c.now = t ∧ c.misses l ∧
    ∀ d ∈ between, d.absent l

/-- No link of the item is active. -/
def Store.Unlinked (s : Store) (itemId : Uuid) : Prop :=
  ∀ l ∈ s.links.rows, l.softwareItemId = itemId → l.deactivatedAt ≠ none

/-- What is not among the active updates of the candidates has none of them. -/
theorem Call.misses_of_contains (hl : l ∈ s.links.rows)
    (hc : l.isCandidate hostId pluginType = true) (ha : c.absent l)
    (h : (c.activeUpdateIds hostId s).contains l.id = false) : c.misses l := by
  refine ⟨ha, fun r hr hli => ?_⟩
  by_contra hs
  rw [← Bool.not_eq_true, contains_iff_mem] at h
  refine h (mem_filterMap.mpr ⟨r, mem_filter.mpr ⟨hr, ?_⟩, hli⟩)
  have hm : l.id ∈ (s.candidates hostId pluginType).map (·.id) :=
    mem_map_of_mem (mem_filter.mpr ⟨hl, hc⟩)
  rw [hli, Bool.and_eq_true]
  refine ⟨contains_iff_mem.mpr hm, ?_⟩
  cases hr : r.status <;> simp_all

theorem Call.rows_exec (c : Call pluginType) : (c.exec hostId s).links.rows =
    s.links.rows.map fun l => if l.isCandidate hostId pluginType then
      (verdict c.now c.effectiveIdentifiers (c.activeUpdateIds hostId s) l).elim l (·.row l)
    else l := by
  obtain ⟨_, _, rfl, _, _⟩ := c
  exact rows_reconcilePluginResult ..

/-- A link that the calls compare and that is marked as missing was missed when it was marked. -/
def Recorded (hostId : Uuid) (calls : List (Call pluginType)) (s : Store) : Prop :=
  ∀ l ∈ s.links.rows, l.isCandidate hostId pluginType = true → ∀ t, l.missingSince = some t →
    MissedSince calls l t

theorem Recorded.exec (h : Recorded hostId calls s) (c) :
    Recorded hostId (calls ++ [c]) (c.exec hostId s) := by
  intro k hk hco t ht
  rw [Call.rows_exec] at hk
  obtain ⟨l, hl, rfl⟩ := mem_map.mp hk
  by_cases hc : l.isCandidate hostId pluginType = true
  · rw [if_pos hc] at hco ht ⊢
    obtain ⟨ha, hs⟩ := of_missingSince_verdict ht
    have hm : MissedSince (calls ++ [c]) l t := by
      obtain hbe | ⟨hn, hi⟩ := hs
      · obtain ⟨before, first, between, rfl, hf, hmi, hb⟩ :=
          h l hl hc t hbe
        refine ⟨before, first, between ++ [c], by simp, hf, hmi, fun d hd => ?_⟩
        obtain hd | hd := mem_append.mp hd
        · exact hb d hd
        · exact mem_singleton.mp hd ▸ ha
      · refine ⟨calls, c, [], rfl, hn, ?_, by simp⟩
        exact Call.misses_of_contains hl hc ha hi
    -- the write keeps what the calls compare, unless it ends the mark or the link
    cases hv : verdict c.now c.effectiveIdentifiers (c.activeUpdateIds hostId s) l with
    | none => exact hm
    | some w =>
      rw [hv] at hco ht
      cases w with
      | found => cases ht
      | missed => exact hm
      | deactivate => simp [Link.isCandidate, LinkWrite.row] at hco
  · rw [if_neg hc] at hco
    exact absurd hco hc

theorem recorded_foldl
    (h : ∀ l ∈ s.links.rows, l.isCandidate hostId pluginType = true → l.missingSince = none)
    (calls : List (Call pluginType)) :
    Recorded hostId calls (calls.foldl (Call.exec hostId) s) := by
  induction calls using List.reverseRecOn with
  | nil =>
    intro l hl hc t ht
    rw [h l hl hc] at ht
    cases ht
  | append_singleton _ c ih =>
    rw [foldl_append]
    exact ih.exec c

/-! ### Software items -/

variable {link : Link} {i : SoftwareItem}

theorem Store.Unlinked.reconcileLink {itemId} (h : s.Unlinked itemId) (link : Link) :
    (reconcileLink now ids active s link).Unlinked itemId := by
  intro k hk
  rw [rows_reconcileLink] at hk
  obtain ⟨l, hl, rfl⟩ := mem_map.mp hk
  have hli := h l hl
  split
  · cases verdict now ids active link with
    | none => exact hli
    | some w =>
      cases w with
      | found | missed => exact hli
      | deactivate => exact fun _ => Option.some_ne_none _
  · exact hli

theorem items_reconcileLink (h : i ∈ (reconcileLink now ids active s link).items.rows) :
    i ∈ s.items.rows ∨ (reconcileLink now ids active s link).Unlinked i.id := by
  unfold reconcileLink at h ⊢
  split at h
  · exact .inl h
  · unfold Store.deactivateLink at h ⊢
    dsimp only at h ⊢
    split at h
    · rename_i hr
      obtain ⟨item, hi, rfl⟩ := mem_map.mp h
      unfold SoftwareItem.deactivate
      split
      · right
        intro l hl hli ha
        refine countP_eq_zero.mp hr l hl ?_
        simp_all
      · exact .inl hi
    · exact .inl h
  · exact .inl h

theorem items_foldl_reconcileLink (links : List Link)
    (h : i ∈ (links.foldl (reconcileLink now ids active) s).items.rows) :
    i ∈ s.items.rows ∨ (links.foldl (reconcileLink now ids active) s).Unlinked i.id := by
  induction links using List.reverseRecOn with
  | nil => exact .inl h
  | append_singleton links link ih =>
    rw [foldl_append] at h ⊢
    obtain h | h := items_reconcileLink h
    · exact (ih h).imp_right fun h => h.reconcileLink link
    · exact .inr h

end

/-- A call after other calls: a link that it deactivates is missed by it and by an earlier call
an hour before, and is absent in between; an item that it deactivates has no active link; the
links of other hosts and of other sources stay as they are. -/
structure DeactivatesAbsent {pluginType : PluginTypeId} (hostId : Uuid)
    (calls : List (Call pluginType)) (s : Store) (c : Call pluginType) : Prop where
  link : ∀ l ∈ s.links.rows, ∀ k ∈ (c.exec hostId s).links.rows, k.id = l.id →
    l.deactivatedAt = none → k.deactivatedAt ≠ none →
      c.misses l ∧ ∃ t, reconcileMinMissingAge ≤ c.now - t ∧ MissedSince calls l t
  item : ∀ i ∈ (c.exec hostId s).items.rows,
    i ∈ s.items.rows ∨ (c.exec hostId s).Unlinked i.id
  untouched : ∀ l ∈ s.links.rows, l.hostId ≠ hostId ∨ l.discoverySource ≠ some pluginType →
    l ∈ (c.exec hostId s).links.rows

def emptyCall (now : Time) : Call "package-manager.apt" :=
  ⟨now, ⟨none, "package-manager.apt", [], none⟩, rfl, [], [waitingUpdate]⟩

end Uptrakit.Discovery
