import OpenMetrics.Informer.Agreement
import Mathlib.Data.List.Chain

namespace OpenMetrics.Informer
open Library KubeLib

def removalRun (live : Live) (userIds : List String) (ticks : List (Cluster × TickOrders)) :
    Act World Unit :=
  ticks.forM fun tick w => (live.setup userIds).updater tick.2 false { w with cluster := tick.1 }

def NoOrphans (rules : List OpenMetricsRule) (ruler : RulerStore) : Prop :=
  ∀ t, ∀ g ∈ ruler.groups t, g ∈ declared rules t

/-- What a list owes to the list before it: whoever had a group declared is named by a resource, and
a group that is dropped has a plain name. -/
structure Succeeds (standard : Url.Standard) (earlier later : Cluster) : Prop where
  named : ∀ t, declared earlier.rules t ≠ [] → t ∈ discoverTenantIds later.rules
  plain : ∀ t, ∀ g ∈ declared earlier.rules t, ¬ DeclaresName later.rules t g.name →
    Url.Plain standard g.name.toList

def Removable (standard : Url.Standard) (rules : List OpenMetricsRule) (ruler : RulerStore) : Prop :=
  ∀ t, ∀ g ∈ ruler.groups t, t ∈ discoverTenantIds rules ∧
    (¬ DeclaresName rules t g.name → Url.Plain standard g.name.toList)

structure Reflects (rules : List OpenMetricsRule) (ruler : RulerStore) : Prop where
  clean : NoOrphans rules ruler
  full : ∀ t, ∀ g ∈ declared rules t, ruler.HoldsName t g.name

theorem Reflects.removable_iff {standard : Url.Standard} {earlier later : Cluster}
    {ruler : RulerStore} (reflects : Reflects earlier.rules ruler) :
    Removable standard later.rules ruler ↔ Succeeds standard earlier later := by
  constructor
  · intro removable
    refine ⟨fun t grouped => ?_, fun t g declares dropped => ?_⟩
    · obtain ⟨g, declares⟩ := List.exists_mem_of_ne_nil _ grouped
      obtain ⟨g', holds, -⟩ := reflects.full t g declares
      exact (removable t g' holds).1
    · obtain ⟨g', holds, same⟩ := reflects.full t g declares
      rw [← same] at dropped ⊢
      exact (removable t g' holds).2 dropped
  · intro succeeds t g holds
    have declares := reflects.clean t g holds
    exact ⟨succeeds.named t (List.ne_nil_of_mem declares), succeeds.plain t g declares⟩

namespace RulerSite

variable {standard : Url.Standard} (site : RulerSite standard) {live : Live} {o : TickOrders}
  {w : World} {r : TenantGroups} (read : Live.ReadFor w.cluster.rules w.ruler r)

theorem removesByName_of_plain (plain : ∀ t ∈ discoverTenantIds w.cluster.rules,
    ∀ g ∈ w.ruler.groups t, ¬ DeclaresName w.cluster.rules t g.name →
      Url.Plain standard g.name.toList) : (site.serves live).RemovesByName w :=
  fun t asked g holds undeclared => addressed_of_plain (plain t asked g holds undeclared)

include read

/-- A tenant can be cleared of its undeclared groups only if all their names are plain: the URL of
one that is not takes a shorter name, and of the names that are not plain one is the longest. -/
theorem plain_of_cleared {t : String}
    (cleared : ∀ g ∈ ((site.serves live).updaterTick o false r w).ruler.groups t,
      DeclaresName w.cluster.rules t g.name) :
    ∀ g ∈ w.ruler.groups t, ¬ DeclaresName w.cluster.rules t g.name →
      Url.Plain standard g.name.toList := by
  classical
  have addressed : ∀ name ∈ ((w.ruler.groups t).map GroupSpec.name).filter
      fun name => ¬ DeclaresName w.cluster.rules t name,
      ∃ other ∈ ((w.ruler.groups t).map GroupSpec.name).filter
        fun name => ¬ DeclaresName w.cluster.rules t name,
        site.addresses (site.groupUrl other) name := by
    intro name left
    obtain ⟨held, undeclared⟩ := List.mem_filter.mp left
    obtain ⟨g, holds, rfl⟩ := List.mem_map.mp held
    have undeclared : ¬ DeclaresName w.cluster.rules t g.name := of_decide_eq_true undeclared
    have gone : ((site.serves live).updaterTick o false r w).ruler.find (t, g.name) = none := by
      rw [← Option.not_isSome_iff_eq_none, ← RulerStore.holdsName_iff]
      intro stays
      obtain ⟨g', holds', same⟩ := stays
      exact undeclared (same ▸ cleared g' holds')
    rw [Live.find_removing _ o read, Live.uploads_undeclared _ o read undeclared] at gone
    split_ifs at gone with taken
    · obtain ⟨-, g', holds', undeclared', addresses⟩ := taken
      exact ⟨g'.name, List.mem_filter.mpr
        ⟨List.mem_map_of_mem holds', decide_eq_true undeclared'⟩, addresses⟩
    · rw [RulerStore.find_of_mem holds] at gone
      cases gone
  intro g holds undeclared
  exact plain_of_all_addressed addressed g.name
    (List.mem_filter.mpr ⟨List.mem_map_of_mem holds, decide_eq_true undeclared⟩)

theorem clean_iff : NoOrphans w.cluster.rules ((site.serves live).updaterTick o false r w).ruler ↔
    Removable standard w.cluster.rules w.ruler := by
  constructor
  · intro clean t g holds
    have asked : t ∈ discoverTenantIds w.cluster.rules := by
      by_contra unnamed
      rw [← Live.groups_unnamed (site.serves live) o read false unnamed] at holds
      exact unnamed (mem_discover_of_declared (clean t g holds))
    exact ⟨asked, site.plain_of_cleared read (fun g' holds' => ⟨g', clean t g' holds', rfl⟩)
      g holds⟩
  · intro removable t g holds
    have implements : Implements false w.cluster.rules w.ruler
        ((site.serves live).updaterTick o false r w).ruler :=
      Live.updaterTick_implements read fun _ =>
        site.removesByName_of_plain fun t _ g holds => (removable t g holds).2
    by_cases asked : t ∈ discoverTenantIds w.cluster.rules
    · have declares := (implements.names t asked g.name).mp ⟨g, holds, rfl⟩
      simp only [Bool.false_eq_true, false_and, or_false] at declares
      exact implements.contents t g holds declares
    · rw [implements.others t asked] at holds
      exact absurd (removable t g holds).1 asked

theorem reflects_of_removable (removable : Removable standard w.cluster.rules w.ruler) :
    Reflects w.cluster.rules ((site.serves live).updaterTick o false r w).ruler := by
  refine ⟨(site.clean_iff read).mpr removable, fun t g declares => ?_⟩
  obtain ⟨g', -, named, found⟩ : ∃ g' ∈ declared w.cluster.rules t, g'.name = g.name ∧
      ((site.serves live).updaterTick o false r w).ruler.find (t, g.name) = some g' :=
    Live.find_declared (site.serves live) o read
      (fun _ => site.removesByName_of_plain fun t _ g holds => (removable t g holds).2)
      ⟨g, declares, rfl⟩
  exact ⟨g', (RulerStore.find_eq_some.mp found).1, named⟩

end RulerSite

section
variable {standard : Url.Standard} (site : RulerSite standard) (live : Live)
  (userIds : List String)

theorem removalRun_append (front : List (Cluster × TickOrders)) (last : Cluster × TickOrders)
    {w₀ w : World} (run : removalRun (site.serves live) userIds front w₀ = some ((), w)) :
    ∃ w', removalRun (site.serves live) userIds (front ++ [last]) w₀ = some ((), w') ∧
      (NoOrphans last.1.rules w'.ruler ↔ Removable standard last.1.rules w.ruler) ∧
      (NoOrphans last.1.rules w'.ruler → Reflects last.1.rules w'.ruler) := by
  obtain ⟨r, tick, read⟩ :=
    (site.serves live).updater_apply userIds last.2 false { w with cluster := last.1 }
  have clean : NoOrphans last.1.rules ((site.serves live).updaterTick last.2 false r
      { w with cluster := last.1 }).ruler ↔ Removable standard last.1.rules w.ruler :=
    site.clean_iff read
  refine ⟨_, ?_, clean, fun noOrphans => site.reflects_of_removable read (clean.mp noOrphans)⟩
  rw [removalRun] at run
  rw [removalRun, Act.forM_append, run, Option.bind_some, Act.forM_cons, tick]
  rfl

theorem removalRun_returns (ticks : List (Cluster × TickOrders)) (w₀ : World) :
    ∃ w, removalRun (site.serves live) userIds ticks w₀ = some ((), w) := by
  induction ticks using List.reverseRecOn with
  | nil => exact ⟨w₀, rfl⟩
  | append_singleton front last ih =>
      obtain ⟨w, run⟩ := ih
      obtain ⟨w', runs, -⟩ := removalRun_append site live userIds front last run
      exact ⟨w', runs⟩

theorem noOrphans_iff (w₀ : World) (empty : ∀ t, w₀.ruler.groups t = [])
    (ticks : List (Cluster × TickOrders)) :
    (∀ front last, front ++ [last] <+: ticks →
      ∃ w, removalRun (site.serves live) userIds (front ++ [last]) w₀ = some ((), w) ∧
        NoOrphans last.1.rules w.ruler) ↔
    ticks.IsChain fun earlier later => Succeeds standard earlier.1 later.1 := by
  rw [List.isChain_iff_forall_rel_of_append_cons_cons]
  constructor
  · intro clean earlier later front back split
    obtain ⟨w, run⟩ := removalRun_returns site live userIds front w₀
    obtain ⟨w₁, run₁, -, reflects⟩ := removalRun_append site live userIds front earlier run
    obtain ⟨w₂, run₂, removable, -⟩ :=
      removalRun_append site live userIds (front ++ [earlier]) later run₁
    obtain ⟨w', run', noOrphans⟩ := clean front earlier ⟨later :: back, by simp [split]⟩
    obtain rfl := (Prod.mk.inj (Option.some.inj (run₁.symm.trans run'))).2
    obtain ⟨w'', run'', noOrphans'⟩ := clean (front ++ [earlier]) later ⟨back, by simp [split]⟩
    obtain rfl := (Prod.mk.inj (Option.some.inj (run₂.symm.trans run''))).2
    exact (reflects noOrphans).removable_iff.mp (removable.mp noOrphans')
  · intro chain front
    induction front using List.reverseRecOn with
    | nil =>
        intro last _
        have first : removalRun (site.serves live) userIds [] w₀ = some ((), w₀) := rfl
        obtain ⟨w, run, removable, -⟩ := removalRun_append site live userIds [] last first
        refine ⟨w, run, removable.mpr fun t g holds => ?_⟩
        rw [empty t] at holds
        cases holds
    | append_singleton front earlier ih =>
        intro last later
        rcases later with ⟨back, split⟩
        have split : ticks = front ++ earlier :: last :: back := by simp [← split]
        obtain ⟨w, run⟩ := removalRun_returns site live userIds front w₀
        obtain ⟨w₁, run₁, -, reflects⟩ := removalRun_append site live userIds front earlier run
        obtain ⟨w₂, run₂, removable, -⟩ :=
          removalRun_append site live userIds (front ++ [earlier]) last run₁
        obtain ⟨w', run', noOrphans⟩ := ih earlier ⟨last :: back, by simp [split]⟩
        obtain rfl := (Prod.mk.inj (Option.some.inj (run₁.symm.trans run'))).2
        exact ⟨w₂, run₂, removable.mpr ((reflects noOrphans).removable_iff.mpr (chain split))⟩

end

theorem noOrphans_dropped :
    let first : Cluster := .single "rules" ["a"] [bareGroup "alerts", bareGroup "disk"]
    let second : Cluster := .single "rules" ["a"] [bareGroup "alerts"]
    let ticks : List (Cluster × TickOrders) := [(first, .sorted), (second, .sorted)]
    let w₀ : World := { cluster := first, ruler := .empty, log := [] }
    (∀ t, w₀.ruler.groups t = []) ∧
    ∀ front last, front ++ [last] <+: ticks →
      ∃ w, removalRun (Live.localhost id) [] (front ++ [last]) w₀ = some ((), w) ∧
        NoOrphans last.1.rules w.ruler := by
  intro first second ticks w₀
  have empty : ∀ t, w₀.ruler.groups t = [] := fun _ => rfl
  have only {t : String} {g : GroupSpec} (declares : g ∈ declared first.rules t) :
      t = "a" ∧ (g = bareGroup "alerts" ∨ g = bareGroup "disk") := by
    simpa [mem_declared, first, Cluster.single, OpenMetricsRule.new] using declares
  have succeeds : Succeeds .whatwg first second := by
    refine ⟨fun t grouped => ?_, fun t g declares _ => ?_⟩
    · obtain ⟨g, declares⟩ := List.exists_mem_of_ne_nil _ grouped
      rw [(only declares).1]
      decide
    · obtain rfl | rfl := (only declares).2
      · exact Url.plain_of_words (by decide)
      · exact Url.plain_of_words (by decide)
  exact ⟨empty, (noOrphans_iff (localSite .whatwg) (Live.localhost id) [] w₀ empty ticks).mpr
    (List.isChain_pair.mpr succeeds)⟩

theorem orphans_tenant_gone :
    let first : Cluster := (oneTenant "a").cluster
    let second : Cluster := .empty
    let w₀ : World := { cluster := first, ruler := .empty, log := [] }
    ∃ w, removalRun (Live.localhost id) [] [(first, .sorted), (second, .sorted)] w₀ = some ((), w) ∧
      ¬ NoOrphans second.rules w.ruler := by
  intro first second w₀
  have kept : (removalRun (Live.localhost id) [] [(first, .sorted), (second, .sorted)] w₀).map
      (fun r => r.2.ruler.groups "a") = some [alertGroup] := by decide
  obtain ⟨⟨_, w⟩, run, groups⟩ := Option.map_eq_some_iff.mp kept
  refine ⟨w, run, fun clean => ?_⟩
  have declares := clean "a" alertGroup (by simp [show w.ruler.groups "a" = [alertGroup] from groups])
  simp [second, Cluster.empty, declared] at declares

end OpenMetrics.Informer
