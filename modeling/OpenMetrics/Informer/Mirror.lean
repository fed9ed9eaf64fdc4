import OpenMetrics.Informer.Ticks
import Mathlib.Data.Set.Function

namespace OpenMetrics.Informer
open Library KubeLib

def dashed (name : String) : String := Text.replace '_' '-' name

theorem computedName_inj {sha1 : String → String} {t name t' name' : String}
    (same : computedName sha1 t name = computedName sha1 t' name')
    (length : (sha1 (dashed name)).length = (sha1 (dashed name')).length) :
    t = t' ∧ sha1 (dashed name) = sha1 (dashed name') := by
  have lists := congrArg String.toList same
  simp only [computedName, String.toList_append] at lists
  obtain ⟨tenants, digests⟩ := List.append_inj' lists
    (by rw [String.length_toList, String.length_toList]; exact length)
  obtain ⟨tenants, -⟩ := List.append_inj' tenants rfl
  exact ⟨String.toList_inj.mp tenants, String.toList_inj.mp digests⟩

namespace World

def Stores (sha1 : String → String) (w : World) (t : String) (g : GroupSpec) : Prop :=
  w.content (computedName sha1 t g.name) = some ([t], [g])

/-- Every resource holds one group of one tenant under the computed name. The group names come
from a set. -/
def Owned (sha1 : String → String) (names : Set String) (w : World) : Prop :=
  ∀ name x, w.content name = some x →
    ∃ t g, x = ([t], [g]) ∧ name = computedName sha1 t g.name ∧ g.name ∈ names

variable {sha1 : String → String} {names : Set String} {w : World}

theorem Owned.rule (owned : w.Owned sha1 names) {rule : OpenMetricsRule}
    (member : rule ∈ w.cluster.rules) :
    ∃ t g, rule.spec.tenants = [t] ∧ rule.spec.groups = [g] ∧
      nameOf rule = some (computedName sha1 t g.name) ∧ g.name ∈ names ∧ w.Stores sha1 t g := by
  obtain ⟨name, named, -⟩ := Cluster.find_of_mem member
  have here := content_of_mem member named
  obtain ⟨t, g, spec, rfl, inside⟩ := owned name _ here
  obtain ⟨tenants, groups⟩ := Prod.mk.inj spec
  exact ⟨t, g, tenants, groups, named, inside, by rw [Stores, here, tenants, groups]⟩

theorem Owned.mem_declared (owned : w.Owned sha1 names) {t : String} {g : GroupSpec} :
    g ∈ declared w.cluster.rules t ↔ w.Stores sha1 t g := by
  rw [Informer.mem_declared]
  constructor
  · intro declares
    rcases declares with ⟨rule, listed, tenant, group⟩
    obtain ⟨t', g', tenants, groups, -, -, stores⟩ := owned.rule listed
    rw [tenants, List.mem_singleton] at tenant
    rw [groups, List.mem_singleton] at group
    rwa [tenant, group]
  · intro stores
    obtain ⟨rule, found, spec⟩ := Option.map_eq_some_iff.mp stores
    obtain ⟨tenants, groups⟩ := Prod.mk.inj spec
    exact ⟨rule, (Cluster.find_eq_some.mp found).1, by simp [tenants], by simp [groups]⟩

theorem Stores.unique {t : String} {g g' : GroupSpec} (first : w.Stores sha1 t g)
    (second : w.Stores sha1 t g') (same : g.name = g'.name) : g = g' := by
  rw [Stores, same] at first
  have spec := Option.some.inj (first.symm.trans second)
  exact List.singleton_inj.mp (Prod.mk.inj spec).2

theorem Owned.groupNamed_eq_some (owned : w.Owned sha1 names) {t : String} {g : GroupSpec} :
    groupNamed (declared w.cluster.rules t) g.name = some g ↔ w.Stores sha1 t g := by
  constructor
  · exact fun found => owned.mem_declared.mp (Keyed.mem_of_find found)
  · intro stores
    cases found : groupNamed (declared w.cluster.rules t) g.name with
    | none => exact absurd rfl (Keyed.find_eq_none.mp found g (owned.mem_declared.mpr stores))
    | some g' =>
        have stores' := owned.mem_declared.mp (Keyed.mem_of_find found)
        rw [stores'.unique stores (Keyed.find_key found)]

theorem Owned.firstHolder (owned : w.Owned sha1 names) {t name : String} {rule : OpenMetricsRule}
    (found : firstHolder t name w.cluster.rules = some rule) :
    ∃ g, rule.spec.tenants = [t] ∧ rule.spec.groups = [g] ∧ g.name = name ∧
      nameOf rule = some (computedName sha1 t name) ∧ w.Stores sha1 t g := by
  obtain ⟨t', g, tenants, groups, named, -, stores⟩ := owned.rule (firstHolder_mem found)
  obtain ⟨lists, g', member, rfl⟩ := firstHolder_holds found
  rw [tenants, List.mem_singleton] at lists
  rw [groups, List.mem_singleton] at member
  subst lists member
  exact ⟨g', tenants, groups, rfl, named, stores⟩

end World

namespace Live

variable {live : Live} {names : Set String} {w : World} {t : String}

theorem content_put (owned : w.Owned live.sha1 names) (g : GroupSpec) (name : String) :
    (live.put t g w).content name =
      if name = computedName live.sha1 t g.name then some ([t], [g]) else w.content name := by
  unfold put
  cases found : firstHolder t g.name w.cluster.rules with
  | none =>
      rw [content_patch]
      rfl
  | some rule =>
      obtain ⟨g', tenants, groups, -, named, -⟩ := owned.firstHolder found
      have index : (groupIndex g.name rule).toNat = 0 := by
        have inside := groupIndex_lt (firstHolder_holds found)
        rw [groups, List.length_singleton] at inside
        omega
      have written : (renewed (setGroup rule (groupIndex g.name rule) g)).spec.groups = [g] := by
        simp [renewed, setGroup, index, groups]
      simp only [named, Option.getD_some]
      rw [content_patch, written, ← tenants]
      rfl

theorem put_owned (owned : w.Owned live.sha1 names) {g : GroupSpec} (inside : g.name ∈ names) :
    (live.put t g w).Owned live.sha1 names := by
  intro name x here
  rw [content_put owned] at here
  split_ifs at here with same
  · exact ⟨t, g, (Option.some.inj here).symm, same, inside⟩
  · exact owned name x here

theorem stores_remove (owned : w.Owned live.sha1 names) (name t' : String) (g' : GroupSpec) :
    (live.remove t name w).Stores live.sha1 t' g' ↔
      w.Stores live.sha1 t' g' ∧ ¬ (t = t' ∧ name = g'.name) := by
  unfold remove
  cases found : firstHolder t name w.cluster.rules with
  | none =>
      refine (and_iff_left_of_imp ?_).symm
      rintro stores ⟨rfl, rfl⟩
      exact firstHolder_of_declared (owned.mem_declared.mpr stores) found
  | some rule =>
      obtain ⟨g, tenants, groups, rfl, named, stores⟩ := owned.firstHolder found
      have single : rule.spec.groups.length = 1 := by rw [groups, List.length_singleton]
      simp only [named, Option.getD_some]
      rw [if_pos single, World.Stores, World.Stores, World.content_deleteResource]
      by_cases same : computedName live.sha1 t' g'.name = computedName live.sha1 t g.name
      · rw [if_pos same]
        apply iff_of_false (by simp)
        intro survives
        rcases survives with ⟨stores', apart⟩
        rw [same, stores] at stores'
        simp only [Option.some.injEq, Prod.mk.injEq, List.cons.injEq, and_true] at stores'
        obtain ⟨rfl, rfl⟩ := stores'
        exact apart ⟨rfl, rfl⟩
      · rw [if_neg same]
        refine (and_iff_left_of_imp ?_).symm
        rintro - ⟨rfl, named⟩
        exact same (by rw [named])

theorem remove_owned (owned : w.Owned live.sha1 names) (name : String) :
    (live.remove t name w).Owned live.sha1 names := by
  unfold remove
  cases found : firstHolder t name w.cluster.rules with
  | none => exact owned
  | some rule =>
      obtain ⟨g, -, groups, -⟩ := owned.firstHolder found
      have single : rule.spec.groups.length = 1 := by rw [groups, List.length_singleton]
      simp only [if_pos single]
      intro name' x here
      rw [World.content_deleteResource] at here
      split_ifs at here
      exact owned name' x here

variable {o : TickOrders} {r : TenantGroups}

def resourceOf (sha1 : String → String) (p : String × GroupSpec × Int) : String :=
  computedName sha1 p.1 p.2.1.name

theorem puts_content (owned : w.Owned live.sha1 names) {l : List (String × GroupSpec × Int)}
    (inside : ∀ p ∈ l, p.2.1.name ∈ names) :
    (l.foldl (fun w p => live.put p.1 p.2.1 w) w).Owned live.sha1 names ∧ ∀ name,
      ((∀ p ∈ l, resourceOf live.sha1 p ≠ name) ∧
        (l.foldl (fun w p => live.put p.1 p.2.1 w) w).content name = w.content name) ∨
      ∃ p ∈ l, resourceOf live.sha1 p = name ∧
        (l.foldl (fun w p => live.put p.1 p.2.1 w) w).content name = some ([p.1], [p.2.1]) := by
  have law : ∀ p ∈ l, ∀ w : World, w.Owned live.sha1 names →
      (live.put p.1 p.2.1 w).Owned live.sha1 names ∧ ∀ name,
        (live.put p.1 p.2.1 w).content name =
          if name = resourceOf live.sha1 p then some ([p.1], [p.2.1]) else w.content name :=
    fun p member w owned => ⟨put_owned owned (inside p member), content_put owned p.2.1⟩
  exact Keyed.view_writes World.content _ _ law owned

theorem removes_stores (owned : w.Owned live.sha1 names) (l : List (String × GroupSpec × Int)) :
    (l.foldl (fun w p => live.remove p.1 p.2.1.name w) w).Owned live.sha1 names ∧ ∀ t g,
      (l.foldl (fun w p => live.remove p.1 p.2.1.name w) w).Stores live.sha1 t g ↔
        w.Stores live.sha1 t g ∧ ∀ p ∈ l, ¬ (p.1 = t ∧ p.2.1.name = g.name) := by
  induction l generalizing w with
  | nil => exact ⟨owned, by simp⟩
  | cons p rest ih =>
      obtain ⟨kept, stores⟩ := ih (remove_owned owned p.2.1.name (t := p.1))
      refine ⟨kept, fun t g => ?_⟩
      rw [List.foldl_cons, stores, stores_remove owned, List.forall_mem_cons, and_assoc]

end Live

structure Mirrors (sha1 : String → String) (r : TenantGroups) (rules : List OpenMetricsRule) :
    Prop where
  owned : ∀ rule ∈ rules, ∃ t g, rule.spec.tenants = [t] ∧ rule.spec.groups = [g] ∧
    nameOf rule = some (computedName sha1 t g.name)
  unique : ∀ rule ∈ rules, ∀ rule' ∈ rules, ∀ t name, Holds t name rule → Holds t name rule' →
    rule = rule'
  sound : ∀ t, ∀ g ∈ declared rules t, g ∈ groupsOf r t
  complete : ∀ t, ∀ g ∈ groupsOf r t, ∃ rule ∈ rules, t ∈ rule.spec.tenants ∧
    ∃ g' ∈ rule.spec.groups, dashed g'.name = dashed g.name

section
variable {live : Live} {names : Set String} {w : World} {o : TickOrders} {r : TenantGroups}
  (owned : w.Owned live.sha1 names)
include owned

theorem mirror_update_iff {t : String} {g : GroupSpec} :
    (∃ k, (t, g, k) ∈ o.updatesOf (getTenantMapFromRulesList w.cluster.rules) r) ↔
      g ∈ groupsOf r t ∧ ¬ w.Stores live.sha1 t g := by
  rw [TickOrders.exists_mem_updatesOf, groupsOf_tenantMap, ne_eq, owned.groupNamed_eq_some]

theorem mirror_removal_iff {t : String} {g : GroupSpec} :
    (∃ k, (t, g, k) ∈ o.removalsOf (getTenantMapFromRulesList w.cluster.rules) r) ↔
      w.Stores live.sha1 t g ∧ ∀ g' ∈ groupsOf r t, g'.name ≠ g.name := by
  rw [TickOrders.exists_mem_removalsOf, groupsOf_tenantMap, owned.mem_declared, groupNamed,
    Keyed.find_eq_none]

theorem owned_unique {rule rule' : OpenMetricsRule} (listed : rule ∈ w.cluster.rules)
    (listed' : rule' ∈ w.cluster.rules) {t name : String} (holds : Holds t name rule)
    (holds' : Holds t name rule') : rule = rule' := by
  have same (rule : OpenMetricsRule) (listed : rule ∈ w.cluster.rules) (holds : Holds t name rule) :
      nameOf rule = some (computedName live.sha1 t name) := by
    obtain ⟨t', g, tenants, groups, named, -⟩ := owned.rule listed
    obtain ⟨lists, g', member, rfl⟩ := holds
    rw [tenants, List.mem_singleton] at lists
    rw [groups, List.mem_singleton] at member
    rw [named, lists, member]
  exact List.inj_on_of_nodup_map w.cluster.nodup listed listed'
    ((same rule listed holds).trans (same rule' listed' holds').symm)

theorem update_inside (inside : ∀ t, ∀ g ∈ groupsOf r t, g.name ∈ names) :
    ∀ p ∈ o.updatesOf (getTenantMapFromRulesList w.cluster.rules) r, p.2.1.name ∈ names := by
  intro slot update
  rcases slot with ⟨t, g, k⟩
  exact inside t g ((mirror_update_iff owned).mp ⟨k, update⟩).1

variable (inside : ∀ t, ∀ g ∈ groupsOf r t, g.name ∈ names)
include inside

theorem tick_owned : (live.trackerTick o r w).Owned live.sha1 names :=
  (Live.removes_stores (Live.puts_content owned (update_inside owned inside)).1 _).1

theorem tick_sound {t : String} {g : GroupSpec}
    (stores : (live.trackerTick o r w).Stores live.sha1 t g) : g ∈ groupsOf r t := by
  obtain ⟨owned₁, written⟩ := Live.puts_content owned (update_inside owned inside)
  obtain ⟨stores₁, kept⟩ := ((Live.removes_stores owned₁ _).2 t g).mp stores
  cases written (computedName live.sha1 t g.name) with
  | inl unwritten =>
      obtain ⟨untouched, same⟩ := unwritten
      have before : w.Stores live.sha1 t g := same.symm.trans stores₁
      -- a group that the tick neither wrote nor removed is one of the ruler
      have named : ∃ g' ∈ groupsOf r t, g'.name = g.name := by
        by_contra missing
        push Not at missing
        obtain ⟨k, removal⟩ := (mirror_removal_iff owned).mpr ⟨before, missing⟩
        exact kept _ removal ⟨rfl, rfl⟩
      obtain ⟨g', member, named⟩ := named
      by_cases known : w.Stores live.sha1 t g'
      · rwa [← known.unique before named]
      · obtain ⟨k, update⟩ := (mirror_update_iff owned).mpr ⟨member, known⟩
        exact absurd (congrArg (computedName live.sha1 t) named) (untouched _ update)
  | inr rewritten =>
      obtain ⟨p, update, -, here⟩ := rewritten
      obtain ⟨t', g', k⟩ := p
      have spec := Option.some.inj (here.symm.trans stores₁)
      simp only [Prod.mk.injEq, List.cons.injEq, and_true] at spec
      obtain ⟨rfl, rfl⟩ := spec
      exact ((mirror_update_iff owned).mp ⟨k, update⟩).1

theorem tick_complete (length : ∀ s s', (live.sha1 s).length = (live.sha1 s').length)
    (injective : Set.InjOn live.sha1 (dashed '' names)) {t : String} {g : GroupSpec}
    (member : g ∈ groupsOf r t) :
    ∃ g', (live.trackerTick o r w).Stores live.sha1 t g' ∧ dashed g'.name = dashed g.name := by
  obtain ⟨owned₁, written⟩ := Live.puts_content owned (update_inside owned inside)
  have stays {g' : GroupSpec} (member' : g' ∈ groupsOf r t)
      (stores₁ : ((o.updatesOf (getTenantMapFromRulesList w.cluster.rules) r).foldl
        (fun w p => live.put p.1 p.2.1 w) w).Stores live.sha1 t g') :
      (live.trackerTick o r w).Stores live.sha1 t g' := by
    refine ((Live.removes_stores owned₁ _).2 t g').mpr ⟨stores₁, ?_⟩
    rintro ⟨t', g₀, k⟩ removal ⟨rfl, named⟩
    exact ((mirror_removal_iff owned).mp ⟨k, removal⟩).2 g' member' named.symm
  cases written (computedName live.sha1 t g.name) with
  | inl unwritten =>
      obtain ⟨untouched, same⟩ := unwritten
      refine ⟨g, stays member ?_, rfl⟩
      by_contra missing
      have unknown : ¬ w.Stores live.sha1 t g := fun known => missing (same.trans known)
      obtain ⟨k, update⟩ := (mirror_update_iff owned).mpr ⟨member, unknown⟩
      exact untouched _ update rfl
  | inr rewritten =>
      obtain ⟨p, update, slot, here⟩ := rewritten
      obtain ⟨t', g', k⟩ := p
      rw [← slot] at here
      obtain ⟨rfl, digests⟩ := computedName_inj slot (length _ _)
      have member' := ((mirror_update_iff owned).mp ⟨k, update⟩).1
      refine ⟨g', stays member' here, ?_⟩
      exact injective ⟨g'.name, inside t' g' member', rfl⟩ ⟨g.name, inside t' g member, rfl⟩ digests

theorem tick_mirrors (length : ∀ s s', (live.sha1 s).length = (live.sha1 s').length)
    (injective : Set.InjOn live.sha1 (dashed '' names)) :
    Mirrors live.sha1 r (live.trackerTick o r w).cluster.rules where
  owned rule listed := by
    obtain ⟨t, g, tenants, groups, named, -⟩ := (tick_owned owned inside).rule listed
    exact ⟨t, g, tenants, groups, named⟩
  unique rule listed rule' listed' t name :=
    owned_unique (tick_owned owned inside) listed listed'
  sound t g declares :=
    tick_sound owned inside ((tick_owned owned inside).mem_declared.mp declares)
  complete t g member := by
    obtain ⟨g', stores, same⟩ := tick_complete (o := o) owned inside length injective member
    obtain ⟨rule, listed, tenant, group⟩ :=
      mem_declared.mp ((tick_owned owned inside).mem_declared.mpr stores)
    exact ⟨rule, listed, tenant, g', group, same⟩

end

def namesOf (ticks : List (TickOrders × TenantGroups)) : Set String :=
  { name | ∃ tick ∈ ticks, ∃ t, ∃ g ∈ groupsOf tick.2 t, g.name = name }

theorem ticks_apply (live : Live) (userIds : List String) {names : Set String}
    {ticks : List (TickOrders × TenantGroups)} (inside : namesOf ticks ⊆ names) {w : World}
    (owned : w.Owned live.sha1 names) :
    ticks.forM (fun tick => (live.setup userIds).syncToK8s tick.1 tick.2) w =
        some ((), ticks.foldl (fun w tick => live.trackerTick tick.1 tick.2 w) w) ∧
      (ticks.foldl (fun w tick => live.trackerTick tick.1 tick.2 w) w).Owned live.sha1 names := by
  have returns : ∀ tick ∈ ticks, ∀ w, w.Owned live.sha1 names →
      (live.setup userIds).syncToK8s tick.1 tick.2 w =
        some ((), live.trackerTick tick.1 tick.2 w) :=
    fun tick _ w _ => Live.syncToK8s_apply tick.2 w
  have preserved : ∀ tick ∈ ticks, ∀ w : World, w.Owned live.sha1 names →
      (live.trackerTick tick.1 tick.2 w).Owned live.sha1 names :=
    fun tick member w owned => tick_owned owned fun t g group =>
      inside ⟨tick, member, t, g, group, rfl⟩
  have loop := Act.forM_apply (fun tick => (live.setup userIds).syncToK8s tick.1 tick.2)
    (fun w tick => live.trackerTick tick.1 tick.2 w) (fun w => w.Owned live.sha1 names) ticks
  exact loop returns preserved owned

theorem tracker_mirrors (live : Live) (userIds : List String) (w₀ : World)
    (empty : w₀.cluster.rules = []) (ticks : List (TickOrders × TenantGroups)) (o : TickOrders)
    (r : TenantGroups) (length : ∀ s s', (live.sha1 s).length = (live.sha1 s').length)
    (injective : Set.InjOn live.sha1 (dashed '' namesOf (ticks ++ [(o, r)]))) :
    ∃ w, (ticks ++ [(o, r)]).forM (fun tick => (live.setup userIds).syncToK8s tick.1 tick.2) w₀ =
      some ((), w) ∧ Mirrors live.sha1 r w.cluster.rules := by
  have start : w₀.Owned live.sha1 (namesOf (ticks ++ [(o, r)])) := by
    intro name x here
    simp [World.content, Cluster.find, Keyed.find, empty] at here
  have before : namesOf ticks ⊆ namesOf (ticks ++ [(o, r)]) := by
    intro name met
    rcases met with ⟨tick, member, rest⟩
    exact ⟨tick, by simp [member], rest⟩
  have run := (ticks_apply live userIds (le_refl _) start).1
  rw [List.foldl_append] at run
  have owned := (ticks_apply live userIds before start).2
  exact ⟨_, run, tick_mirrors owned (fun t g member => ⟨(o, r), by simp, t, g, member, rfl⟩) length
    injective⟩

theorem groupsOf_singleton (t : String) (l : List (GroupSpec × Int)) (t' : String) :
    groupsOf (Finmap.singleton t l) t' = if t' = t then l.map Prod.fst else [] := by
  by_cases same : t' = t
  · subst same
    rw [groupsOf, entriesOf, Finmap.lookup_singleton_eq, Option.getD_some, if_pos rfl]
  · have absent : t' ∉ (Finmap.singleton t l : TenantGroups) := by
      simpa [Finmap.mem_singleton] using same
    rw [groupsOf, entriesOf_of_not_mem absent, if_neg same, List.map_nil]

/-- The digests of the names that are hashed below, and of the empty text. -/
def sampleSha1 (s : String) : String :=
  if s = "alerts" then "338908d77d67d38558ef234c32233b9c7aaf29cd"
  else if s = "disk" then "a07bdcbcbb025d14688be45f90b3b7128d4f9170"
  else if s = "a-b" then "34fafddda8f42376094beb762e514a67b6f019e7"
  else "da39a3ee5e6b4b0d3255bfef95601890afd80709"

theorem sampleSha1_length (s s' : String) :
    (sampleSha1 s).length = (sampleSha1 s').length := by
  have fixed (s : String) : (sampleSha1 s).length = 40 := by
    unfold sampleSha1
    split_ifs <;> decide
  rw [fixed, fixed]

theorem sampleSha1_injOn {names : Set String}
    (sampled : ∀ name ∈ names, dashed name ∈ ["alerts", "disk", "a-b"]) :
    Set.InjOn sampleSha1 (dashed '' names) := by
  intro s member s' member' same
  obtain ⟨name, inside, rfl⟩ := member
  obtain ⟨name', inside', rfl⟩ := member'
  have distinct : (["alerts", "disk", "a-b"].map sampleSha1).Nodup := by decide
  exact List.inj_on_of_nodup_map distinct (sampled name inside) (sampled name' inside') same

theorem tracker_mirrors_two_ticks :
    let live := Live.localhost sampleSha1
    let w₀ : World := { cluster := .empty, ruler := .empty, log := [] }
    let first : TenantGroups :=
      Finmap.singleton "a" [(bareGroup "alerts", -1), (bareGroup "disk", -1)]
    let second : TenantGroups :=
      Finmap.singleton "a" [({ name := "alerts", interval := some "1m", rules := [] }, -1)]
    ∃ w, ([(TickOrders.sorted, first)] ++ [(TickOrders.sorted, second)]).forM
        (fun tick => (live.setup []).syncToK8s tick.1 tick.2) w₀ = some ((), w) ∧
      Mirrors live.sha1 second w.cluster.rules := by
  intro live w₀ first second
  refine tracker_mirrors live [] w₀ rfl _ TickOrders.sorted second sampleSha1_length
    (sampleSha1_injOn fun name met => ?_)
  obtain ⟨tick, listed, t, g, group, rfl⟩ := met
  simp only [List.singleton_append, List.mem_cons, List.not_mem_nil, or_false] at listed
  rcases listed with rfl | rfl
  · rw [groupsOf_singleton] at group
    split_ifs at group
    · have names : ∀ g ∈ [bareGroup "alerts", bareGroup "disk"],
          dashed g.name ∈ ["alerts", "disk", "a-b"] := by decide
      exact names g group
    · cases group
  · rw [groupsOf_singleton] at group
    split_ifs at group
    · obtain rfl := List.mem_singleton.mp group
      decide
    · cases group

def stale : World where
  cluster :=
    { rules :=
        [.new "a-338908d77d67d38558ef234c32233b9c7aaf29cd"
            ⟨["a"], none, [⟨"alerts", some "1m", []⟩]⟩,
          .new "a-a07bdcbcbb025d14688be45f90b3b7128d4f9170" ⟨["a"], none, [bareGroup "disk"]⟩]
      named := by decide
      nodup := by decide }
  ruler := .single "a" [bareGroup "alerts", bareGroup "a_b"] (by decide)
  log := []

end OpenMetrics.Informer
