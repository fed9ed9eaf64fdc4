import OpenMetrics.Informer.Ticks

namespace OpenMetrics.Informer
open Library KubeLib

def DeclaresName (rules : List OpenMetricsRule) (t name : String) : Prop :=
  ∃ g ∈ declared rules t, g.name = name

def RulerStore.HoldsName (ruler : RulerStore) (t name : String) : Prop :=
  ∃ g ∈ ruler.groups t, g.name = name

structure Implements (skip : Bool) (rules : List OpenMetricsRule) (before after : RulerStore) :
    Prop where
  names : ∀ t ∈ discoverTenantIds rules, ∀ name, after.HoldsName t name ↔
    DeclaresName rules t name ∨ skip = true ∧ before.HoldsName t name
  contents : ∀ t, ∀ g ∈ after.groups t, DeclaresName rules t g.name → g ∈ declared rules t
  kept : skip = true → ∀ t, ∀ g ∈ before.groups t, ¬ DeclaresName rules t g.name →
    g ∈ after.groups t
  others : ∀ t ∉ discoverTenantIds rules, after.groups t = before.groups t

theorem mem_discover_of_declared {rules : List OpenMetricsRule} {t : String} {g : GroupSpec}
    (member : g ∈ declared rules t) : t ∈ discoverTenantIds rules := by
  obtain ⟨rule, listed, names, -⟩ := mem_declared.mp member
  exact mem_discoverTenantIds.mpr ⟨rule, listed, names⟩

theorem RulerStore.holdsName_iff {ruler : RulerStore} {t name : String} :
    ruler.HoldsName t name ↔ (ruler.find (t, name)).isSome := by
  rw [Option.isSome_iff_exists]
  exact exists_congr fun g => RulerStore.find_eq_some.symm

def slotOf (p : String × GroupSpec × Int) : String × String := (p.1, p.2.1.name)

namespace Live

variable {live : Live} {o : TickOrders} {w : World} {r : TenantGroups} {rules : List OpenMetricsRule}
  {ruler : RulerStore} {skip : Bool}

@[simp] theorem upload_ruler (w : World) (p : String × GroupSpec × Int) :
    (live.upload rules w p).ruler = w.ruler.post (live.groupPlace w) p.1 p.2.1 := by
  unfold upload
  cases rules[p.2.2.toNat]? <;> rfl

theorem content_updaterTick (skip : Bool) (name : String) :
    (live.updaterTick o skip r w).content name = w.content name := by
  have uploaded : ∀ l : List (String × GroupSpec × Int), ∀ name,
      (l.foldl (live.upload w.cluster.rules) w).content name = w.content name := by
    intro l
    refine List.foldlRecOn (motive := fun w' : World => ∀ name, w'.content name = w.content name)
      l _ (fun _ => rfl) fun w' same p _ name => ?_
    unfold upload
    cases found : w.cluster.rules[p.2.2.toNat]? with
    | none => exact same name
    | some rule =>
        have member := List.mem_of_getElem? found
        obtain ⟨resourceName, named, -⟩ := Cluster.find_of_mem member
        simp only [named, Option.getD_some]
        rw [content_patch]
        by_cases here : name = resourceName
        · rw [if_pos here, here, World.content_of_mem member named]
          rfl
        · rw [if_neg here]
          exact same name
  cases skip with
  | true => exact uploaded _ name
  | false =>
      refine List.foldlRecOn (motive := fun w' : World => w'.content name = w.content name) _ _
        (uploaded _ name) fun w' same p _ => same

theorem mem_declared_updaterTick {t : String} {g : GroupSpec} :
    g ∈ declared (live.updaterTick o skip r w).cluster.rules t ↔
      g ∈ declared w.cluster.rules t := by
  simp only [World.mem_declared, content_updaterTick]

theorem declaresName_updaterTick {t name : String} :
    DeclaresName (live.updaterTick o skip r w).cluster.rules t name ↔
      DeclaresName w.cluster.rules t name := by
  simp only [DeclaresName, mem_declared_updaterTick]

theorem asked_updaterTick {t : String} :
    t ∈ discoverTenantIds (live.updaterTick o skip r w).cluster.rules ↔
      t ∈ discoverTenantIds w.cluster.rules := by
  simp only [World.mem_discoverTenantIds, content_updaterTick]

def ReadFor (rules : List OpenMetricsRule) (ruler : RulerStore) (r : TenantGroups) : Prop :=
  ∀ t, groupsOf r t = if t ∈ discoverTenantIds rules then ruler.groups t else []

section
variable (read : ReadFor rules ruler r)
include read

theorem update_iff {t : String} {g : GroupSpec} :
    (∃ k, (t, g, k) ∈ o.updatesOf r (getTenantMapFromRulesList rules)) ↔
      g ∈ declared rules t ∧ ruler.find (t, g.name) ≠ some g := by
  have same (declares : g ∈ declared rules t) :
      groupNamed (groupsOf r t) g.name = ruler.find (t, g.name) := by
    rw [read, if_pos (mem_discover_of_declared declares)]
    rfl
  rw [TickOrders.exists_mem_updatesOf, groupsOf_tenantMap]
  exact and_congr_right fun declares => by rw [same declares]

theorem removal_iff {t : String} {g : GroupSpec} :
    (∃ k, (t, g, k) ∈ o.removalsOf r (getTenantMapFromRulesList rules)) ↔
      t ∈ discoverTenantIds rules ∧ g ∈ ruler.groups t ∧ ¬ DeclaresName rules t g.name := by
  rw [TickOrders.exists_mem_removalsOf, groupsOf_tenantMap, read, groupNamed, Keyed.find_eq_none]
  by_cases asked : t ∈ discoverTenantIds rules <;> simp [asked, DeclaresName]

end

theorem uploads_find (rules : List OpenMetricsRule) (l : List (String × GroupSpec × Int))
    (w : World) (slot : String × String) :
    ((∀ p ∈ l, slotOf p ≠ slot) ∧
      (l.foldl (live.upload rules) w).ruler.find slot = w.ruler.find slot) ∨
    ∃ p ∈ l, slotOf p = slot ∧
      (l.foldl (live.upload rules) w).ruler.find slot = some p.2.1 := by
  have law : ∀ p ∈ l, ∀ w : World, True → True ∧ ∀ slot, (live.upload rules w p).ruler.find slot =
      if slot = slotOf p then some p.2.1 else w.ruler.find slot := by
    refine fun p _ w _ => ⟨trivial, fun slot => ?_⟩
    rw [upload_ruler, RulerStore.find_post]
    rfl
  exact (Keyed.view_writes (fun w : World => w.ruler.find) _ _ law trivial).2 slot

theorem deletes_find (l : List (String × GroupSpec × Int)) (w : World) (slot : String × String) :
    (l.foldl live.removeGroup w).ruler.find slot =
      if ∃ p ∈ l, slot.1 = p.1 ∧ live.addresses (live.groupUrl p.2.1.name) slot.2 then none
      else w.ruler.find slot :=
  (Keyed.view_deletions (fun w : World => w.ruler.find) (fun _ => True)
    (fun (p : String × GroupSpec × Int) slot =>
      slot.1 = p.1 ∧ live.addresses (live.groupUrl p.2.1.name) slot.2)
    (fun p _ w _ => ⟨trivial, fun slot => w.ruler.find_delete _ p.1 slot⟩) trivial).2 slot

variable (live) in
def Takes (w : World) (t name : String) : Prop :=
  ∃ g ∈ w.ruler.groups t, ¬ DeclaresName w.cluster.rules t g.name ∧
    live.addresses (live.groupUrl g.name) name

variable (live) in
/-- A removal of a group that the resources do not declare takes this group alone. -/
def RemovesByName (w : World) : Prop :=
  ∀ t ∈ discoverTenantIds w.cluster.rules, ∀ g ∈ w.ruler.groups t,
    ¬ DeclaresName w.cluster.rules t g.name → live.Addressed g.name

theorem RemovesByName.takes_iff {t name : String} (byName : live.RemovesByName w)
    (asked : t ∈ discoverTenantIds w.cluster.rules) : live.Takes w t name ↔
      w.ruler.HoldsName t name ∧ ¬ DeclaresName w.cluster.rules t name := by
  constructor
  · intro takes
    rcases takes with ⟨g, holds, undeclared, addressed⟩
    obtain rfl := (byName t asked g holds undeclared name).mp addressed
    exact ⟨⟨g, holds, rfl⟩, undeclared⟩
  · intro left
    rcases left with ⟨⟨g, holds, rfl⟩, undeclared⟩
    exact ⟨g, holds, undeclared, (byName t asked g holds undeclared g.name).mpr rfl⟩

section
variable (read : ReadFor w.cluster.rules w.ruler r) {t name : String}
include read

variable (live o) in
theorem uploads_declared (declares : DeclaresName w.cluster.rules t name) :
    ∃ g ∈ declared w.cluster.rules t, g.name = name ∧
      ((o.updatesOf r (getTenantMapFromRulesList w.cluster.rules)).foldl
        (live.upload w.cluster.rules) w).ruler.find (t, name) = some g := by
  obtain ⟨g₀, declares₀, rfl⟩ := declares
  cases uploads_find w.cluster.rules _ w (t, g₀.name) with
  | inl kept =>
      obtain ⟨untouched, same⟩ := kept
      refine ⟨g₀, declares₀, rfl, same.trans ?_⟩
      -- a declared group that is not uploaded is held already
      by_contra differs
      obtain ⟨k, update⟩ := (update_iff read).mpr ⟨declares₀, differs⟩
      exact untouched _ update rfl
  | inr posted =>
      obtain ⟨⟨t', g, k⟩, update, slot, shown⟩ := posted
      obtain ⟨rfl, named⟩ := Prod.mk.inj slot
      exact ⟨g, ((update_iff read).mp ⟨k, update⟩).1, named, shown⟩

variable (live o) in
theorem uploads_undeclared (undeclared : ¬ DeclaresName w.cluster.rules t name) :
    ((o.updatesOf r (getTenantMapFromRulesList w.cluster.rules)).foldl
      (live.upload w.cluster.rules) w).ruler.find (t, name) = w.ruler.find (t, name) := by
  cases uploads_find w.cluster.rules _ w (t, name) with
  | inl kept => exact kept.2
  | inr posted =>
      obtain ⟨⟨t', g, k⟩, update, slot, -⟩ := posted
      obtain ⟨rfl, rfl⟩ := Prod.mk.inj slot
      exact absurd ⟨g, ((update_iff read).mp ⟨k, update⟩).1, rfl⟩ undeclared

open Classical in
variable (live o) in
theorem find_removing : (live.updaterTick o false r w).ruler.find (t, name) =
    if t ∈ discoverTenantIds w.cluster.rules ∧ live.Takes w t name then none
    else ((o.updatesOf r (getTenantMapFromRulesList w.cluster.rules)).foldl
      (live.upload w.cluster.rules) w).ruler.find (t, name) := by
  rw [updaterTick, if_neg Bool.false_ne_true, deletes_find]
  refine if_congr ?_ rfl rfl
  constructor
  · intro hit
    rcases hit with ⟨⟨t', g, k⟩, removal, rfl, addressed⟩
    obtain ⟨asked, holds, undeclared⟩ := (removal_iff read).mp ⟨k, removal⟩
    exact ⟨asked, g, holds, undeclared, addressed⟩
  · intro taken
    rcases taken with ⟨asked, g, holds, undeclared, addressed⟩
    obtain ⟨k, removal⟩ := (removal_iff (o := o) read).mpr ⟨asked, holds, undeclared⟩
    exact ⟨_, removal, rfl, addressed⟩

variable (live o) in
theorem find_declared (byName : skip = false → live.RemovesByName w)
    (declares : DeclaresName w.cluster.rules t name) :
    ∃ g ∈ declared w.cluster.rules t, g.name = name ∧
      (live.updaterTick o skip r w).ruler.find (t, name) = some g := by
  obtain ⟨g, member, named, shown⟩ := uploads_declared live o read declares
  refine ⟨g, member, named, ?_⟩
  cases skip with
  | true => exact shown
  | false =>
      rw [find_removing live o read, if_neg, shown]
      intro taken
      exact (((byName rfl).takes_iff taken.1).mp taken.2).2 declares

variable (live o) in
theorem find_undeclared (byName : skip = false → live.RemovesByName w)
    (undeclared : ¬ DeclaresName w.cluster.rules t name) :
    (live.updaterTick o skip r w).ruler.find (t, name) =
      if skip = true ∨ t ∉ discoverTenantIds w.cluster.rules then w.ruler.find (t, name)
      else none := by
  have uploaded := uploads_undeclared live o read undeclared
  cases skip with
  | true => rw [updaterTick, if_pos rfl, if_pos (Or.inl rfl), uploaded]
  | false =>
      rw [find_removing live o read, uploaded]
      by_cases asked : t ∈ discoverTenantIds w.cluster.rules
      · simp only [asked, not_true_eq_false, or_false, Bool.false_eq_true, if_false, true_and,
          ite_eq_left_iff, (byName rfl).takes_iff asked, not_and_not_right]
        intro left
        rw [← Option.not_isSome_iff_eq_none, ← RulerStore.holdsName_iff]
        exact fun holds => undeclared (left holds)
      · simp [asked]

variable (live o) in
theorem groups_unnamed (skip : Bool) (unnamed : t ∉ discoverTenantIds w.cluster.rules) :
    (live.updaterTick o skip r w).ruler.groups t = w.ruler.groups t := by
  have uploaded : ((o.updatesOf r (getTenantMapFromRulesList w.cluster.rules)).foldl
      (live.upload w.cluster.rules) w).ruler.groups t = w.ruler.groups t := by
    refine List.foldlRecOn (motive := fun w' : World => w'.ruler.groups t = w.ruler.groups t) _ _
      rfl ?_
    intro w' same slot update
    rcases slot with ⟨t', g, k⟩
    have other : t ≠ t' := fun h => unnamed
      (mem_discover_of_declared (h ▸ ((update_iff read).mp ⟨k, update⟩).1))
    rw [upload_ruler, ← same]
    exact if_neg other
  cases skip with
  | true => exact uploaded
  | false =>
      refine List.foldlRecOn (motive := fun w' : World => w'.ruler.groups t = w.ruler.groups t) _ _
        uploaded ?_
      intro w' same slot removal
      rcases slot with ⟨t', g, k⟩
      have other : t ≠ t' := fun h => unnamed (h ▸ ((removal_iff read).mp ⟨k, removal⟩).1)
      rw [← same]
      exact if_neg other

theorem updaterTick_implements (byName : skip = false → live.RemovesByName w) :
    Implements skip w.cluster.rules w.ruler (live.updaterTick o skip r w).ruler where
  names t asked name := by
    rw [RulerStore.holdsName_iff, RulerStore.holdsName_iff]
    by_cases declares : DeclaresName w.cluster.rules t name
    · obtain ⟨g, -, -, found⟩ := find_declared live o read byName declares
      simp [found, declares]
    · rw [find_undeclared live o read byName declares]
      by_cases keeps : skip = true <;> simp [keeps, declares, asked]
  contents t g member declares := by
    obtain ⟨g', declared', -, found⟩ := find_declared live o read byName declares
    rw [RulerStore.find_of_mem member] at found
    obtain rfl := Option.some.inj found
    exact declared'
  kept keeps t g member undeclared := by
    have found := find_undeclared live o read byName undeclared
    rw [if_pos (Or.inl keeps), RulerStore.find_of_mem member] at found
    exact (RulerStore.find_eq_some.mp found).1
  others t unnamed := groups_unnamed live o read skip unnamed

end

end Live

theorem updater_implements (live : Live) (userIds : List String) (o : TickOrders) (skip : Bool)
    (w : World) (byName : skip = false → live.RemovesByName w) :
    ∃ w', (live.setup userIds).updater o skip w = some ((), w') ∧
      Implements skip w.cluster.rules w.ruler w'.ruler := by
  obtain ⟨r, run, read⟩ := live.updater_apply userIds o skip w
  exact ⟨_, run, Live.updaterTick_implements read byName⟩

def stray : World where
  cluster := .single "rules" ["a"] [bareGroup "alerts"]
  ruler := .single "a" [bareGroup "alerts", bareGroup "disk"] (by decide)
  log := []

theorem stray_byName (sha1 : String → String) : (Live.localhost sha1).RemovesByName stray := by
  intro t asked g holds _
  obtain rfl : t = "a" := by
    simpa [mem_discoverTenantIds, stray, Cluster.single, OpenMetricsRule.new] using asked
  have words : ∀ g ∈ stray.ruler.groups "a", g.name.toList.all Url.isWord := by decide
  exact Live.localhost_addressed sha1 (words g holds)

theorem updater_implements_removal :
    (Live.localhost id).RemovesByName stray ∧
    ∃ w', ((Live.localhost id).setup []).updater .sorted false stray = some ((), w') ∧
      Implements false stray.cluster.rules stray.ruler w'.ruler ∧
      ¬ w'.ruler.HoldsName "a" "disk" := by
  have byName := stray_byName id
  obtain ⟨w', run, implements⟩ :=
    updater_implements (Live.localhost id) [] .sorted false stray fun _ => byName
  refine ⟨byName, w', run, implements, fun holds => ?_⟩
  have declares := (implements.names "a" (by decide) "disk").mp holds
  simp [DeclaresName, mem_declared, stray, Cluster.single, OpenMetricsRule.new, bareGroup]
    at declares

end OpenMetrics.Informer
