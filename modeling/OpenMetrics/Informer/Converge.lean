import OpenMetrics.Informer.Agreement
import OpenMetrics.Informer.Writes

namespace OpenMetrics.Informer
open Library KubeLib

def Call.posted : Call → Option (String × GroupSpec)
  | .post tenantId group => some (tenantId, group)
  | .patch _ _ | .deleteResource _ | .deleteGroup _ _ => none

def World.posts (w : World) : List (String × GroupSpec) := w.log.filterMap Call.posted

def Consistent (rules : List OpenMetricsRule) : Prop :=
  ∀ t, ∀ g ∈ declared rules t, ∀ g' ∈ declared rules t, g.name = g'.name → g = g'

def Settled (w : World) : Prop :=
  ∀ t, ∀ g ∈ declared w.cluster.rules t, w.ruler.find (t, g.name) = some g

theorem Settled.consistent {w : World} (settled : Settled w) : Consistent w.cluster.rules := by
  intro t g declares g' declares' named
  have held := settled t g declares
  rw [named, settled t g' declares'] at held
  exact (Option.some.inj held).symm

namespace Live

variable {live : Live} {o : TickOrders} {w : World} {r : TenantGroups} {skip : Bool}

theorem posts_upload (rules : List OpenMetricsRule) (w : World) (p : String × GroupSpec × Int) :
    (live.upload rules w p).posts = w.posts ++ [(p.1, p.2.1)] := by
  unfold upload
  cases rules[p.2.2.toNat]? <;> simp [World.posts, patch, post, List.filterMap_append, Call.posted]

theorem posts_updaterTick :
    (live.updaterTick o skip r w).posts = w.posts ++
      (o.updatesOf r (getTenantMapFromRulesList w.cluster.rules)).map fun p => (p.1, p.2.1) := by
  have uploads (l : List (String × GroupSpec × Int)) (w' : World) :
      (l.foldl (live.upload w.cluster.rules) w').posts =
        w'.posts ++ l.map fun p => (p.1, p.2.1) := by
    induction l generalizing w' with
    | nil => simp
    | cons p rest ih => rw [List.foldl_cons, ih, posts_upload, List.map_cons, List.append_assoc]; rfl
  have deletes (l : List (String × GroupSpec × Int)) (w' : World) :
      (l.foldl live.removeGroup w').posts = w'.posts := by
    refine List.foldlRecOn (motive := fun w : World => w.posts = w'.posts) l _ rfl
      fun w same p _ => ?_
    rw [← same]
    simp [World.posts, removeGroup, deleteGroup, Call.posted]
  cases skip with
  | true => exact uploads _ w
  | false => exact (deletes _ _).trans (uploads _ w)

section
variable (read : ReadFor w.cluster.rules w.ruler r)
include read

theorem quiet_iff : (live.updaterTick o skip r w).posts = w.posts ↔ Settled w := by
  rw [posts_updaterTick, List.append_right_eq_self, List.map_eq_nil_iff,
    List.eq_nil_iff_forall_not_mem]
  constructor
  · intro quiet t g declares
    by_contra differs
    obtain ⟨k, update⟩ := (update_iff (o := o) read).mpr ⟨declares, differs⟩
    exact quiet _ update
  · intro settled p update
    rcases p with ⟨t, g, k⟩
    obtain ⟨declares, differs⟩ := (update_iff (o := o) read).mp ⟨k, update⟩
    exact differs (settled t g declares)

variable (live o) in
theorem settled_updaterTick (byName : skip = false → live.RemovesByName w) :
    Settled (live.updaterTick o skip r w) ↔ Consistent w.cluster.rules := by
  constructor
  · intro settled t g declares g' declares' named
    rw [← mem_declared_updaterTick] at declares declares'
    exact settled.consistent t g declares g' declares' named
  · intro consistent t g declares
    rw [mem_declared_updaterTick] at declares
    obtain ⟨g', declares', named, found⟩ := find_declared live o read byName ⟨g, declares, rfl⟩
    rw [found, consistent t g declares g' declares' named.symm]

variable (o skip) in
theorem RemovesByName.updaterTick (byName : live.RemovesByName w) :
    live.RemovesByName (live.updaterTick o skip r w) := by
  intro t asked g holds undeclared
  rw [asked_updaterTick] at asked
  rw [declaresName_updaterTick] at undeclared
  -- an undeclared group that is left was there before
  have found := RulerStore.find_of_mem holds
  rw [find_undeclared live o read (fun _ => byName) undeclared] at found
  split_ifs at found
  exact byName t asked g (RulerStore.find_eq_some.mp found).1 undeclared

end

end Live

def updaterRun (live : Live) (userIds : List String) (ticks : List (TickOrders × Bool)) :
    Act World Unit :=
  ticks.forM fun tick => (live.setup userIds).updater tick.1 tick.2

theorem updaterRun_quiet (live : Live) (userIds : List String) (ticks : List (TickOrders × Bool))
    {w : World} (byName : live.RemovesByName w) (settled : Settled w) :
    ∃ w', updaterRun live userIds ticks w = some ((), w') ∧ w'.posts = w.posts := by
  induction ticks generalizing w with
  | nil => exact ⟨w, rfl, rfl⟩
  | cons tick rest ih =>
      obtain ⟨o, skip⟩ := tick
      obtain ⟨r, run, read⟩ := live.updater_apply userIds o skip w
      have settled' : Settled (live.updaterTick o skip r w) :=
        (Live.settled_updaterTick live o read fun _ => byName).mpr settled.consistent
      obtain ⟨w', runs, quiet⟩ := ih (byName.updaterTick o skip read) settled'
      refine ⟨w', ?_, quiet.trans ((Live.quiet_iff read).mpr settled)⟩
      rw [updaterRun, Act.forM_cons, run]
      exact runs

theorem updater_quiescent_iff (live : Live) (userIds : List String) (o : TickOrders) (skip : Bool)
    (w : World) (byName : live.RemovesByName w) :
    ∃ w₁, (live.setup userIds).updater o skip w = some ((), w₁) ∧
      ((∀ ticks, ∃ w₂, updaterRun live userIds ticks w₁ = some ((), w₂) ∧ w₂.posts = w₁.posts) ↔
        Consistent w.cluster.rules) := by
  obtain ⟨r, run, read⟩ := live.updater_apply userIds o skip w
  refine ⟨_, run, ?_⟩
  have settled : Settled (live.updaterTick o skip r w) ↔ Consistent w.cluster.rules :=
    live.settled_updaterTick o read fun _ => byName
  rw [← settled]
  constructor
  · intro quiet
    obtain ⟨w₂, runs, same⟩ := quiet [(o, skip)]
    obtain ⟨r', run', read'⟩ := live.updater_apply userIds o skip (live.updaterTick o skip r w)
    rw [updaterRun, Act.forM_cons, run', Option.bind_some, Act.forM_nil] at runs
    obtain rfl := (Prod.mk.inj (Option.some.inj runs)).2
    exact (Live.quiet_iff read').mp same
  · exact fun settled ticks =>
      updaterRun_quiet live userIds ticks (byName.updaterTick o skip read) settled

theorem updater_quiescent_stray :
    (Live.localhost id).RemovesByName stray ∧
    ∃ w₁, ((Live.localhost id).setup []).updater .sorted true stray = some ((), w₁) ∧
      ∀ ticks, ∃ w₂, updaterRun (Live.localhost id) [] ticks w₁ = some ((), w₂) ∧
        w₂.posts = w₁.posts := by
  have byName := stray_byName id
  obtain ⟨w₁, run, quiet⟩ :=
    updater_quiescent_iff (Live.localhost id) [] .sorted true stray byName
  refine ⟨byName, w₁, run, quiet.mpr fun t g declares g' declares' _ => ?_⟩
  have only (g : GroupSpec) (declares : g ∈ declared stray.cluster.rules t) :
      g = bareGroup "alerts" := by
    obtain ⟨rule, member, -, group⟩ := mem_declared.mp declares
    simp only [stray, Cluster.single, List.mem_singleton] at member
    subst member
    exact List.mem_singleton.mp group
  rw [only g declares, only g' declares']

theorem updater_posts_duplicates_again :
    ∃ w₁ w₂, ((Live.localhost id).setup []).updater .sorted true duplicates = some ((), w₁) ∧
      updaterRun (Live.localhost id) [] [(.sorted, true)] w₁ = some ((), w₂) ∧
      w₂.posts ≠ w₁.posts := by
  have again : ((((Live.localhost id).setup []).updater .sorted true duplicates).bind fun r₁ =>
      (updaterRun (Live.localhost id) [] [(.sorted, true)] r₁.2).map fun r₂ =>
        decide (r₂.2.posts ≠ r₁.2.posts)) = some true := by decide
  obtain ⟨⟨_, w₁⟩, first, rest⟩ := Option.bind_eq_some_iff.mp again
  obtain ⟨⟨_, w₂⟩, second, posts⟩ := Option.map_eq_some_iff.mp rest
  exact ⟨w₁, w₂, first, second, of_decide_eq_true posts⟩

end OpenMetrics.Informer
