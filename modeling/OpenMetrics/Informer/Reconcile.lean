import OpenMetrics.Informer.Converge
import OpenMetrics.Informer.Orphans
import OpenMetrics.Informer.Mirror

namespace OpenMetrics.Informer
open Library KubeLib

inductive Round where
  | tracker (o : TickOrders)
  | updater (o : TickOrders)

def Setup.round {σ : Type} (i : Setup σ) (skip : Bool) : Round → Act σ Unit
  | .tracker o => i.tracker o
  | .updater o => i.updater o skip

def informerRun (live : Live) (userIds : List String) (skip : Bool) (rounds : List Round) :
    Act World Unit :=
  rounds.forM ((live.setup userIds).round skip)

structure Reconciled (skip : Bool) (userIds : List String) (w : World) : Prop where
  settled : Settled w
  visible : ∀ t, declared w.cluster.rules t ≠ [] → Visible userIds t
  covered : ∀ t, Visible userIds t ∨ skip = false ∧ t ∈ discoverTenantIds w.cluster.rules →
    ∀ g ∈ w.ruler.groups t, g ∈ declared w.cluster.rules t

variable {w : World} {userIds : List String} {skip : Bool}

theorem Settled.mem (settled : Settled w) {t : String} {g : GroupSpec}
    (declares : g ∈ declared w.cluster.rules t) : g ∈ w.ruler.groups t :=
  (RulerStore.find_eq_some.mp (settled t g declares)).1

theorem Settled.eq_of_name (settled : Settled w) {t : String} {g g' : GroupSpec}
    (declares : g ∈ declared w.cluster.rules t) (holds : g' ∈ w.ruler.groups t)
    (named : g.name = g'.name) : g = g' := by
  have held := settled t g declares
  rw [named, RulerStore.find_of_mem holds] at held
  exact (Option.some.inj held).symm

theorem Settled.groupNamed (settled : Settled w) {t : String} {g : GroupSpec}
    (declares : g ∈ declared w.cluster.rules t) :
    groupNamed (declared w.cluster.rules t) g.name = some g := by
  cases found : Informer.groupNamed (declared w.cluster.rules t) g.name with
  | none => exact absurd rfl (Keyed.find_eq_none.mp found g declares)
  | some g' =>
      rw [settled.eq_of_name (Keyed.mem_of_find found) (settled.mem declares)
        (Keyed.find_key found)]

namespace Live

variable {live : Live} {o : TickOrders} {r : TenantGroups}

variable (live) in
theorem put_log_lt (t : String) (g : GroupSpec) (w : World) :
    w.log.length < (live.put t g w).log.length := by
  unfold put
  cases firstHolder t g.name w.cluster.rules <;> simp [patch]

theorem put_ruler (t : String) (g : GroupSpec) (w : World) : (live.put t g w).ruler = w.ruler := by
  unfold put
  cases firstHolder t g.name w.cluster.rules <;> rfl

theorem remove_ruler (t name : String) (w : World) : (live.remove t name w).ruler = w.ruler := by
  unfold remove
  cases firstHolder t name w.cluster.rules with
  | none => rfl
  | some rule =>
      dsimp only
      split_ifs <;> rfl

theorem trackerTick_ruler : (live.trackerTick o r w).ruler = w.ruler := by
  refine List.foldlRecOn (motive := fun w' : World => w'.ruler = w.ruler) _ _ ?_ fun w' same p _ =>
    (remove_ruler p.1 p.2.1.name w').trans same
  exact List.foldlRecOn (motive := fun w' : World => w'.ruler = w.ruler) _ _ rfl fun w' same p _ =>
    (put_ruler p.1 p.2.1 w').trans same

variable (live) in
theorem puts_log_iff (l : List (String × GroupSpec × Int)) (w : World) :
    w.log.length ≤ (l.foldl (fun w p => live.put p.1 p.2.1 w) w).log.length ∧
      ((l.foldl (fun w p => live.put p.1 p.2.1 w) w).log.length ≤ w.log.length ↔ l = []) := by
  induction l generalizing w with
  | nil => exact ⟨le_rfl, iff_of_true le_rfl rfl⟩
  | cons p rest ih =>
      have first := put_log_lt live p.1 p.2.1 w
      have more := (ih (live.put p.1 p.2.1 w)).1
      rw [List.foldl_cons]
      exact ⟨first.le.trans more, iff_of_false (by omega) (List.cons_ne_nil p rest)⟩

theorem trackerTick_writes_iff : (live.trackerTick o r w).log = w.log ↔
    o.updatesOf (getTenantMapFromRulesList w.cluster.rules) r = [] ∧
      o.removalsOf (getTenantMapFromRulesList w.cluster.rules) r = [] := by
  have held : ∀ p ∈ o.removalsOf (getTenantMapFromRulesList w.cluster.rules) r,
      firstHolder p.1 p.2.1.name w.cluster.rules ≠ none := by
    intro slot removal
    rcases slot with ⟨t, g, k⟩
    obtain ⟨declares, -⟩ := TickOrders.exists_mem_removalsOf.mp ⟨k, removal⟩
    rw [groupsOf_tenantMap] at declares
    exact firstHolder_of_declared declares
  obtain ⟨grows, quiet⟩ := puts_log_iff live
    (o.updatesOf (getTenantMapFromRulesList w.cluster.rules) r) w
  constructor
  · intro same
    have removes := removes_log_le live
      (o.removalsOf (getTenantMapFromRulesList w.cluster.rules) r)
      ((o.updatesOf (getTenantMapFromRulesList w.cluster.rules) r).foldl
        (fun w p => live.put p.1 p.2.1 w) w)
    have updates := quiet.mp (removes.trans (congrArg List.length same).le)
    refine ⟨updates, ?_⟩
    rw [trackerTick, updates, List.foldl_nil] at same
    exact (removes_log_iff held).mp same
  · intro idle
    rcases idle with ⟨updates, removals⟩
    rw [trackerTick, updates, removals]
    rfl

section
variable (read : ∀ t, groupsOf r t = if t ∈ userIds ∧ t ≠ "0" then w.ruler.groups t else [])
include read

theorem tracker_updates_nil_iff :
    o.updatesOf (getTenantMapFromRulesList w.cluster.rules) r = [] ↔
      ∀ t, Visible userIds t → ∀ g ∈ w.ruler.groups t,
        groupNamed (declared w.cluster.rules t) g.name = some g := by
  rw [List.eq_nil_iff_forall_not_mem]
  constructor
  · intro idle t visible g holds
    by_contra differs
    rw [← groupsOf_tenantMap] at differs
    have member : g ∈ groupsOf r t := by rwa [read, if_pos visible]
    obtain ⟨k, update⟩ := (TickOrders.exists_mem_updatesOf (o := o)).mpr ⟨member, differs⟩
    exact idle _ update
  · intro same slot update
    rcases slot with ⟨t, g, k⟩
    obtain ⟨member, differs⟩ := TickOrders.exists_mem_updatesOf.mp ⟨k, update⟩
    rw [groupsOf_tenantMap] at differs
    rw [read] at member
    split_ifs at member with visible
    · exact differs (same t visible g member)
    · cases member

theorem tracker_removals_nil_iff :
    o.removalsOf (getTenantMapFromRulesList w.cluster.rules) r = [] ↔
      ∀ t, ∀ g ∈ declared w.cluster.rules t,
        Visible userIds t ∧ groupNamed (w.ruler.groups t) g.name ≠ none := by
  rw [List.eq_nil_iff_forall_not_mem]
  constructor
  · intro idle t g declares
    by_contra missing
    rw [← groupsOf_tenantMap] at declares
    have absent : groupNamed (groupsOf r t) g.name = none := by
      rw [read]
      split_ifs with visible
      · exact not_not.mp fun held => missing ⟨visible, held⟩
      · rfl
    obtain ⟨k, removal⟩ := (TickOrders.exists_mem_removalsOf (o := o)).mpr ⟨declares, absent⟩
    exact idle _ removal
  · intro held slot removal
    rcases slot with ⟨t, g, k⟩
    obtain ⟨declares, absent⟩ := TickOrders.exists_mem_removalsOf.mp ⟨k, removal⟩
    rw [groupsOf_tenantMap] at declares
    obtain ⟨visible, held⟩ := held t g declares
    rw [read, if_pos visible] at absent
    exact held absent

end

section
variable (read : ReadFor w.cluster.rules w.ruler r)
include read

theorem updater_updates_nil_iff :
    o.updatesOf r (getTenantMapFromRulesList w.cluster.rules) = [] ↔ Settled w := by
  rw [List.eq_nil_iff_forall_not_mem]
  constructor
  · intro idle t g declares
    by_contra differs
    obtain ⟨k, update⟩ := (update_iff (o := o) read).mpr ⟨declares, differs⟩
    exact idle _ update
  · intro settled slot update
    rcases slot with ⟨t, g, k⟩
    obtain ⟨declares, differs⟩ := (update_iff read).mp ⟨k, update⟩
    exact differs (settled t g declares)

theorem updater_removals_nil_iff :
    o.removalsOf r (getTenantMapFromRulesList w.cluster.rules) = [] ↔
      ∀ t ∈ discoverTenantIds w.cluster.rules, ∀ g ∈ w.ruler.groups t,
        DeclaresName w.cluster.rules t g.name := by
  rw [List.eq_nil_iff_forall_not_mem]
  constructor
  · intro idle t asked g holds
    by_contra undeclared
    obtain ⟨k, removal⟩ := (removal_iff (o := o) read).mpr ⟨asked, holds, undeclared⟩
    exact idle _ removal
  · intro declares slot removal
    rcases slot with ⟨t, g, k⟩
    obtain ⟨asked, holds, undeclared⟩ := (removal_iff read).mp ⟨k, removal⟩
    exact undeclared (declares t asked g holds)

theorem updaterTick_writes_iff : (live.updaterTick o skip r w).log = w.log ↔
    o.updatesOf r (getTenantMapFromRulesList w.cluster.rules) = [] ∧
      (skip = false → o.removalsOf r (getTenantMapFromRulesList w.cluster.rules) = []) := by
  have deletes (l : List (String × GroupSpec × Int)) (w' : World) :
      (l.foldl live.removeGroup w').log =
        w'.log ++ l.map fun p => .deleteGroup p.1 (live.groupUrl p.2.1.name) := by
    induction l generalizing w' with
    | nil => simp
    | cons p rest ih =>
        rw [List.foldl_cons, ih, List.map_cons, removeGroup, deleteGroup, List.append_assoc]
        rfl
  constructor
  · intro same
    have posts := congrArg (List.filterMap Call.posted) same
    have updates := (updater_updates_nil_iff (o := o) read).mpr
      ((quiet_iff read).mp posts)
    refine ⟨updates, fun removing => ?_⟩
    rw [updaterTick, updates, removing, if_neg Bool.false_ne_true, List.foldl_nil, deletes,
      List.append_right_eq_self, List.map_eq_nil_iff] at same
    exact same
  · intro idle
    rcases idle with ⟨updates, removals⟩
    rw [updaterTick, updates]
    cases skip with
    | true => rfl
    | false =>
        rw [removals rfl]
        rfl

end

end Live

section
variable {live : Live} {o : TickOrders}

theorem Reconciled.round (reconciled : Reconciled skip userIds w) (round : Round) :
    (live.setup userIds).round skip round w = some ((), w) := by
  have settled := reconciled.settled
  cases round with
  | tracker o =>
      obtain ⟨r, run, read⟩ := live.tracker_apply userIds o w
      have updates := (Live.tracker_updates_nil_iff (o := o) read).mpr
        fun t visible g holds => settled.groupNamed (reconciled.covered t (Or.inl visible) g holds)
      have removals := (Live.tracker_removals_nil_iff (o := o) read).mpr fun t g declares =>
        ⟨reconciled.visible t (List.ne_nil_of_mem declares), fun missing =>
          absurd rfl (Keyed.find_eq_none.mp missing g (settled.mem declares))⟩
      rw [Live.trackerTick, updates, removals] at run
      exact run
  | updater o =>
      obtain ⟨r, run, read⟩ := live.updater_apply userIds o skip w
      have updates := (Live.updater_updates_nil_iff (o := o) read).mpr settled
      rw [Live.updaterTick, updates] at run
      cases skip with
      | true => exact run
      | false =>
          have removals := (Live.updater_removals_nil_iff (o := o) read).mpr fun t asked g holds =>
            ⟨g, reconciled.covered t (Or.inr ⟨rfl, asked⟩) g holds, rfl⟩
          rw [removals] at run
          exact run

theorem reconciled_of_quiet
    (track : ∃ w', (live.setup userIds).tracker o w = some ((), w') ∧ w'.log = w.log)
    (update : ∃ w', (live.setup userIds).updater o skip w = some ((), w') ∧ w'.log = w.log) :
    Reconciled skip userIds w := by
  obtain ⟨w₁, track, same₁⟩ := track
  obtain ⟨r, run, readUsers⟩ := live.tracker_apply userIds o w
  obtain rfl := (Prod.mk.inj (Option.some.inj (run.symm.trans track))).2
  obtain ⟨added, dropped⟩ := Live.trackerTick_writes_iff.mp same₁
  rw [Live.tracker_updates_nil_iff readUsers] at added
  rw [Live.tracker_removals_nil_iff readUsers] at dropped
  obtain ⟨w₂, update, same₂⟩ := update
  obtain ⟨r', run', read⟩ := live.updater_apply userIds o skip w
  obtain rfl := (Prod.mk.inj (Option.some.inj (run'.symm.trans update))).2
  obtain ⟨posted, deleted⟩ := (Live.updaterTick_writes_iff read).mp same₂
  have settled := (Live.updater_updates_nil_iff read).mp posted
  refine ⟨settled, fun t grouped => ?_, fun t seen g holds => ?_⟩
  · obtain ⟨g, declares⟩ := List.exists_mem_of_ne_nil _ grouped
    exact (dropped t g declares).1
  · cases seen with
    | inl visible => exact Keyed.mem_of_find (added t visible g holds)
    | inr removing =>
        obtain ⟨removing, asked⟩ := removing
        have declares := (Live.updater_removals_nil_iff read).mp (deleted removing)
        obtain ⟨g', declares', named⟩ := declares t asked g holds
        rwa [← settled.eq_of_name declares' holds named]

end

theorem informer_stays_iff (live : Live) (userIds : List String) (skip : Bool) (w : World) :
    (∀ rounds, informerRun live userIds skip rounds w = some ((), w)) ↔
      Reconciled skip userIds w := by
  constructor
  · intro stays
    have one (round : Round) : (live.setup userIds).round skip round w = some ((), w) := by
      have run := stays [round]
      rw [informerRun, Act.forM_cons] at run
      obtain ⟨⟨_, w'⟩, here, rest⟩ := Option.bind_eq_some_iff.mp run
      rw [Act.forM_nil] at rest
      obtain rfl := (Prod.mk.inj (Option.some.inj rest)).2
      exact here
    exact reconciled_of_quiet ⟨w, one (.tracker .sorted), rfl⟩ ⟨w, one (.updater .sorted), rfl⟩
  · intro reconciled rounds
    induction rounds with
    | nil => rfl
    | cons round rest ih =>
        rw [informerRun, Act.forM_cons, reconciled.round round]
        exact ih

theorem covered_updaterTick_iff {live : Live} {userIds : List String} {o : TickOrders} {skip : Bool}
    {r : TenantGroups} {w : World} (read : ∀ t, groupsOf r t =
      if t ∈ discoverTenantIds w.cluster.rules then w.ruler.groups t else [])
    (byName : skip = false → live.RemovesByName w) :
    (∀ t, Visible userIds t ∨ skip = false ∧ t ∈ discoverTenantIds w.cluster.rules →
      ∀ g ∈ (live.updaterTick o skip r w).ruler.groups t, g ∈ declared w.cluster.rules t) ↔
    ∀ t, Visible userIds t → ∀ g ∈ w.ruler.groups t, DeclaresName w.cluster.rules t g.name ∨
      skip = false ∧ t ∈ discoverTenantIds w.cluster.rules := by
  have implements : Implements skip w.cluster.rules w.ruler
      (live.updaterTick o skip r w).ruler := Live.updaterTick_implements read byName
  constructor
  · intro covered t visible g holds
    by_contra left
    obtain ⟨undeclared, kept⟩ := not_or.mp left
    -- such a group is still there after the tick
    have holds' : g ∈ (live.updaterTick o skip r w).ruler.groups t := by
      by_cases asked : t ∈ discoverTenantIds w.cluster.rules
      · cases skip with
        | true => exact implements.kept rfl t g holds undeclared
        | false => exact absurd ⟨rfl, asked⟩ kept
      · rwa [implements.others t asked]
    exact undeclared ⟨g, covered t (Or.inl visible) g holds', rfl⟩
  · intro seen t watched g holds
    by_cases declared' : DeclaresName w.cluster.rules t g.name
    · exact implements.contents t g holds declared'
    · exfalso
      by_cases asked : t ∈ discoverTenantIds w.cluster.rules
      · cases (implements.names t asked g.name).mp ⟨g, holds, rfl⟩ with
        | inl known => exact declared' known
        | inr kept =>
            obtain ⟨skips, g', holds', same⟩ := kept
            have removing : ¬ (skip = false ∧ t ∈ discoverTenantIds w.cluster.rules) := by
              simp [skips]
            have known := (seen t (watched.resolve_right removing) g' holds').resolve_right removing
            exact declared' (same ▸ known)
      · have removing : ¬ (skip = false ∧ t ∈ discoverTenantIds w.cluster.rules) :=
          fun h => asked h.2
        rw [implements.others t asked] at holds
        exact declared' ((seen t (watched.resolve_right removing) g holds).resolve_right removing)

/-- After an updater tick nothing is left to do, for good, just when the resources do not contradict
each other, the tracker sees every tenant with a group, every group that it sees beside those
declared is one that the tick removes, and the groups that the tick removes have plain names. -/
theorem informer_converges_iff {standard : Url.Standard} (site : RulerSite standard) (live : Live)
    (userIds : List String) (o : TickOrders) (skip : Bool) (w : World) :
    ∃ w₁, ((site.serves live).setup userIds).updater o skip w = some ((), w₁) ∧
      ((∀ rounds, informerRun (site.serves live) userIds skip rounds w₁ = some ((), w₁)) ↔
        Consistent w.cluster.rules ∧
        (∀ t, declared w.cluster.rules t ≠ [] → Visible userIds t) ∧
        (∀ t, Visible userIds t → ∀ g ∈ w.ruler.groups t, DeclaresName w.cluster.rules t g.name ∨
          skip = false ∧ t ∈ discoverTenantIds w.cluster.rules) ∧
        (skip = false → ∀ t ∈ discoverTenantIds w.cluster.rules, ∀ g ∈ w.ruler.groups t,
          ¬ DeclaresName w.cluster.rules t g.name → Url.Plain standard g.name.toList)) := by
  obtain ⟨r, run, read⟩ := (site.serves live).updater_apply userIds o skip w
  have grouped (t : String) :
      declared ((site.serves live).updaterTick o skip r w).cluster.rules t = [] ↔
        declared w.cluster.rules t = [] := by
    simp only [List.eq_nil_iff_forall_not_mem, Live.mem_declared_updaterTick]
  refine ⟨_, run, ?_⟩
  rw [informer_stays_iff]
  constructor
  · intro reconciled
    have covered : ∀ t, Visible userIds t ∨ skip = false ∧ t ∈ discoverTenantIds w.cluster.rules →
        ∀ g ∈ ((site.serves live).updaterTick o skip r w).ruler.groups t,
          g ∈ declared w.cluster.rules t := by
      intro t seen g holds
      rw [← Live.mem_declared_updaterTick]
      exact reconciled.covered t (seen.imp_right (And.imp_right Live.asked_updaterTick.mpr)) g holds
    have plain : skip = false → ∀ t ∈ discoverTenantIds w.cluster.rules, ∀ g ∈ w.ruler.groups t,
        ¬ DeclaresName w.cluster.rules t g.name → Url.Plain standard g.name.toList := by
      intro removing t asked
      subst removing
      exact site.plain_of_cleared read fun g holds =>
        ⟨g, covered t (Or.inr ⟨rfl, asked⟩) g holds, rfl⟩
    have byName : skip = false → (site.serves live).RemovesByName w :=
      fun removing => site.removesByName_of_plain (plain removing)
    refine ⟨(Live.settled_updaterTick _ o read byName).mp reconciled.settled, fun t some => ?_,
      (covered_updaterTick_iff read byName).mp covered, plain⟩
    exact reconciled.visible t fun none => some ((grouped t).mp none)
  · intro met
    obtain ⟨consistent, visible, seen, plain⟩ := met
    have byName : skip = false → (site.serves live).RemovesByName w :=
      fun removing => site.removesByName_of_plain (plain removing)
    refine ⟨(Live.settled_updaterTick _ o read byName).mpr consistent, fun t some => ?_,
      fun t watched g holds => ?_⟩
    · exact visible t fun none => some ((grouped t).mpr none)
    · rw [Live.mem_declared_updaterTick]
      rw [Live.asked_updaterTick] at watched
      exact (covered_updaterTick_iff read byName).mpr seen t watched g holds

theorem tracker_converges_iff (live : Live) (userIds : List String) (o : TickOrders) (skip : Bool)
    {names : Set String} (owned : w.Owned live.sha1 names)
    (inside : ∀ t, Visible userIds t → ∀ g ∈ w.ruler.groups t, g.name ∈ names)
    (length : ∀ s s', (live.sha1 s).length = (live.sha1 s').length)
    (injective : Set.InjOn live.sha1 (dashed '' names)) :
    ∃ w₁, (live.setup userIds).tracker o w = some ((), w₁) ∧
      ((∀ rounds, informerRun live userIds skip rounds w₁ = some ((), w₁)) ↔
        ∀ t, Visible userIds t → ∀ g ∈ w.ruler.groups t, ∀ g' ∈ w.ruler.groups t,
          dashed g.name = dashed g'.name → g = g') := by
  obtain ⟨r, run, read⟩ := live.tracker_apply userIds o w
  have mem_read := Live.mem_groupsOf_read read
  have inside' : ∀ t, ∀ g ∈ groupsOf r t, g.name ∈ names := fun t g member =>
    inside t ((mem_read t g).mp member).1 g ((mem_read t g).mp member).2
  have owned₁ := tick_owned (o := o) owned inside'
  have sound (t : String) (g : GroupSpec)
      (declares : g ∈ declared (live.trackerTick o r w).cluster.rules t) :
      Visible userIds t ∧ g ∈ w.ruler.groups t :=
    (mem_read t g).mp (tick_sound owned inside' (owned₁.mem_declared.mp declares))
  refine ⟨_, run, ?_⟩
  rw [informer_stays_iff]
  constructor
  · intro reconciled t visible g holds g' holds' same
    have stores {g : GroupSpec} (holds : g ∈ w.ruler.groups t) :
        (live.trackerTick o r w).Stores live.sha1 t g := by
      have covered := reconciled.covered t (Or.inl visible) g
      rw [Live.trackerTick_ruler] at covered
      exact owned₁.mem_declared.mp (covered holds)
    have slot : computedName live.sha1 t g.name = computedName live.sha1 t g'.name :=
      congrArg (fun d => t ++ "-" ++ live.sha1 d) same
    have here := stores holds
    rw [World.Stores, slot, stores holds'] at here
    exact (List.singleton_inj.mp (Prod.mk.inj (Option.some.inj here)).2).symm
  · intro distinct
    refine ⟨fun t g declares => ?_, fun t grouped => ?_, fun t seen g holds => ?_⟩
    · rw [Live.trackerTick_ruler]
      exact RulerStore.find_of_mem (sound t g declares).2
    · obtain ⟨g, declares⟩ := List.exists_mem_of_ne_nil _ grouped
      exact (sound t g declares).1
    · have visible : Visible userIds t := by
        cases seen with
        | inl visible => exact visible
        | inr named =>
            obtain ⟨rule, listed, lists⟩ := KubeLib.mem_discoverTenantIds.mp named.2
            obtain ⟨t', g₀, tenants, groups, -⟩ := owned₁.rule listed
            exact (sound t g₀ (mem_declared.mpr ⟨rule, listed, lists, by simp [groups]⟩)).1
      rw [Live.trackerTick_ruler] at holds
      obtain ⟨g', stores, same⟩ :=
        tick_complete (o := o) owned inside' length injective ((mem_read t g).mpr ⟨visible, holds⟩)
      have declares := owned₁.mem_declared.mpr stores
      rwa [distinct t visible g holds g' (sound t g' declares).2 same.symm]

theorem stale_owned : stale.Owned sampleSha1 {"alerts", "disk", "a_b"} := by
  intro name x here
  obtain ⟨rule, found, rfl⟩ := Option.map_eq_some_iff.mp here
  obtain ⟨member, named⟩ := Cluster.find_eq_some.mp found
  simp only [stale, List.mem_cons, List.not_mem_nil, or_false] at member
  rcases member with rfl | rfl
  · obtain rfl := Option.some.inj named
    exact ⟨"a", ⟨"alerts", some "1m", []⟩, rfl, by decide, by simp⟩
  · obtain rfl := Option.some.inj named
    exact ⟨"a", bareGroup "disk", rfl, by decide, by simp [bareGroup]⟩

theorem tracker_converges_stale :
    let live := Live.localhost sampleSha1
    ∃ w₁, (live.setup ["a"]).tracker .sorted stale = some ((), w₁) ∧
      ∀ rounds, informerRun live ["a"] true rounds w₁ = some ((), w₁) := by
  intro live
  have held : ∀ t, Visible ["a"] t → ∀ g ∈ stale.ruler.groups t,
      g = bareGroup "alerts" ∨ g = bareGroup "a_b" := by
    intro t visible g holds
    obtain rfl := List.mem_singleton.mp visible.1
    simpa [stale, RulerStore.single] using holds
  have inside : ∀ t, Visible ["a"] t → ∀ g ∈ stale.ruler.groups t,
      g.name ∈ ({"alerts", "disk", "a_b"} : Set String) := by
    intro t visible g holds
    rcases held t visible g holds with rfl | rfl <;> simp [bareGroup]
  have sampled : ∀ name ∈ ({"alerts", "disk", "a_b"} : Set String),
      dashed name ∈ ["alerts", "disk", "a-b"] := by
    intro name member
    rcases member with rfl | rfl | rfl <;> decide
  obtain ⟨w₁, run, stays⟩ := tracker_converges_iff live ["a"] .sorted true stale_owned inside
    sampleSha1_length (sampleSha1_injOn sampled)
  refine ⟨w₁, run, stays.mpr fun t visible g holds g' holds' same => ?_⟩
  rcases held t visible g holds with rfl | rfl <;>
    rcases held t visible g' holds' with rfl | rfl
  · rfl
  · exact absurd same (by decide)
  · exact absurd same (by decide)
  · rfl

end OpenMetrics.Informer
