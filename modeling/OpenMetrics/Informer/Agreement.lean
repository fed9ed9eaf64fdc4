import OpenMetrics.Informer.Implement

namespace OpenMetrics.Informer
open Library KubeLib

def Agrees (w : World) : Prop :=
  ∀ t g, g ∈ declared w.cluster.rules t ↔ g ∈ w.ruler.groups t

variable {w : World}

theorem Agrees.groupNamed_declared (agrees : Agrees w) {t : String} {g : GroupSpec}
    (holds : g ∈ w.ruler.groups t) : groupNamed (declared w.cluster.rules t) g.name = some g := by
  cases found : groupNamed (declared w.cluster.rules t) g.name with
  | none => exact absurd rfl (Keyed.find_eq_none.mp found g ((agrees t g).mpr holds))
  | some g' =>
      have holds' := (agrees t g').mp (Keyed.mem_of_find found)
      rw [List.inj_on_of_nodup_map (w.ruler.nodup t) holds' holds (Keyed.find_key found)]

theorem Agrees.declaresName (agrees : Agrees w) {t : String} {g : GroupSpec}
    (holds : g ∈ w.ruler.groups t) : DeclaresName w.cluster.rules t g.name :=
  ⟨g, (agrees t g).mpr holds, rfl⟩

namespace Live

variable {live : Live} {o : TickOrders} {r : TenantGroups}

theorem remove_log_le (t name : String) (w : World) :
    w.log.length ≤ (live.remove t name w).log.length := by
  unfold remove
  cases firstHolder t name w.cluster.rules with
  | none => exact le_refl _
  | some rule =>
      dsimp only
      split_ifs <;> simp [World.deleteResource, patch]

theorem remove_log_lt {t name : String} {rule : OpenMetricsRule} (w : World)
    (held : firstHolder t name w.cluster.rules = some rule) :
    w.log.length < (live.remove t name w).log.length := by
  unfold remove
  rw [held]
  dsimp only
  split_ifs <;> simp [World.deleteResource, patch]

variable (live) in
theorem removes_log_le (l : List (String × GroupSpec × Int)) (w : World) :
    w.log.length ≤ (l.foldl (fun w p => live.remove p.1 p.2.1.name w) w).log.length :=
  List.foldlRecOn (motive := fun w' : World => w.log.length ≤ w'.log.length) l _ (le_refl _)
    fun w' before p _ => before.trans (remove_log_le p.1 p.2.1.name w')

theorem removes_log_iff {l : List (String × GroupSpec × Int)} {w : World}
    (held : ∀ p ∈ l, firstHolder p.1 p.2.1.name w.cluster.rules ≠ none) :
    (l.foldl (fun w p => live.remove p.1 p.2.1.name w) w).log = w.log ↔ l = [] := by
  cases l with
  | nil => simp
  | cons p rest =>
      refine iff_of_false (fun same => ?_) (List.cons_ne_nil p rest)
      obtain ⟨rule, found⟩ := Option.ne_none_iff_exists'.mp (held p (by simp))
      have first : w.log.length < (live.remove p.1 p.2.1.name w).log.length := remove_log_lt w found
      have more := first.trans_le (removes_log_le live rest _)
      rw [List.foldl_cons] at same
      rw [same] at more
      exact lt_irrefl _ more

section
variable {userIds : List String} (agrees : Agrees w)
  (read : ∀ t, groupsOf r t = if t ∈ userIds ∧ t ≠ "0" then w.ruler.groups t else [])
include agrees read

theorem tracker_updates_nil : o.updatesOf (getTenantMapFromRulesList w.cluster.rules) r = [] := by
  rw [List.eq_nil_iff_forall_not_mem]
  intro slot update
  rcases slot with ⟨t, g, k⟩
  obtain ⟨member, differs⟩ := TickOrders.exists_mem_updatesOf.mp ⟨k, update⟩
  have holds : g ∈ w.ruler.groups t := by
    rw [read] at member
    split_ifs at member
    · exact member
    · simp at member
  rw [groupsOf_tenantMap] at differs
  exact differs (agrees.groupNamed_declared holds)

theorem tracker_removal_iff {t : String} {g : GroupSpec} :
    (∃ k, (t, g, k) ∈ o.removalsOf (getTenantMapFromRulesList w.cluster.rules) r) ↔
      g ∈ declared w.cluster.rules t ∧ ¬ (t ∈ userIds ∧ t ≠ "0") := by
  rw [TickOrders.exists_mem_removalsOf, groupsOf_tenantMap]
  refine and_congr_right fun declares => ?_
  rw [read]
  by_cases asked : t ∈ userIds ∧ t ≠ "0"
  · have found : groupNamed (w.ruler.groups t) g.name = some g :=
      RulerStore.find_of_mem ((agrees t g).mp declares)
    simp [asked, found]
  · rw [if_neg asked]
    exact iff_of_true rfl asked

variable (live o) in
theorem trackerTick_log_iff : (live.trackerTick o r w).log = w.log ↔
    ∀ t, declared w.cluster.rules t ≠ [] → t ∈ userIds ∧ t ≠ "0" := by
  have held : ∀ p ∈ o.removalsOf (getTenantMapFromRulesList w.cluster.rules) r,
      firstHolder p.1 p.2.1.name w.cluster.rules ≠ none := by
    intro slot removal
    rcases slot with ⟨t, g, k⟩
    exact firstHolder_of_declared ((tracker_removal_iff agrees read).mp ⟨k, removal⟩).1
  rw [trackerTick, tracker_updates_nil agrees read, List.foldl_nil, removes_log_iff held,
    List.eq_nil_iff_forall_not_mem]
  constructor
  · intro quiet t grouped
    by_contra unasked
    obtain ⟨g, declares⟩ := List.exists_mem_of_ne_nil _ grouped
    obtain ⟨k, removal⟩ := (tracker_removal_iff agrees read).mpr ⟨declares, unasked⟩
    exact quiet _ removal
  · intro asked slot removal
    rcases slot with ⟨t, g, k⟩
    obtain ⟨declares, unasked⟩ := (tracker_removal_iff agrees read).mp ⟨k, removal⟩
    exact unasked (asked t (List.ne_nil_of_mem declares))

end

theorem updaterTick_eq (agrees : Agrees w) (read : ReadFor w.cluster.rules w.ruler r)
    (skip : Bool) : live.updaterTick o skip r w = w := by
  have updates : o.updatesOf r (getTenantMapFromRulesList w.cluster.rules) = [] := by
    rw [List.eq_nil_iff_forall_not_mem]
    intro slot update
    rcases slot with ⟨t, g, k⟩
    obtain ⟨declares, differs⟩ := (update_iff read).mp ⟨k, update⟩
    exact differs (RulerStore.find_of_mem ((agrees t g).mp declares))
  have removals : o.removalsOf r (getTenantMapFromRulesList w.cluster.rules) = [] := by
    rw [List.eq_nil_iff_forall_not_mem]
    intro slot removal
    rcases slot with ⟨t, g, k⟩
    obtain ⟨-, holds, undeclared⟩ := (removal_iff read).mp ⟨k, removal⟩
    exact undeclared (agrees.declaresName holds)
  rw [updaterTick, updates, removals]
  exact ite_self _

end Live

theorem agreement_fixed_iff (live : Live) (userIds : List String) (o o' : TickOrders) (skip : Bool)
    (w : World) (agrees : Agrees w) :
    ((∃ w', (live.setup userIds).tracker o w = some ((), w') ∧ w'.log = w.log) ∧
      ∃ w', (live.setup userIds).updater o' skip w = some ((), w') ∧ w'.log = w.log) ↔
    ∀ t, declared w.cluster.rules t ≠ [] → t ∈ userIds ∧ t ≠ "0" := by
  obtain ⟨r, track, readUsers⟩ := live.tracker_apply userIds o w
  obtain ⟨r', update, read⟩ := live.updater_apply userIds o' skip w
  rw [Live.updaterTick_eq agrees read] at update
  rw [← Live.trackerTick_log_iff live o agrees readUsers]
  constructor
  · intro quiet
    rcases quiet with ⟨⟨w', run, quiet⟩, -⟩
    rw [track] at run
    obtain rfl := (Prod.mk.inj (Option.some.inj run)).2
    exact quiet
  · exact fun quiet => ⟨⟨_, track, quiet⟩, ⟨w, update, rfl⟩⟩

def alertGroup : GroupSpec := { name := "alerts", interval := none, rules := [] }

def oneTenant (t : String) : World where
  cluster :=
    { rules := [.new "rules" { tenants := [t], description := none, groups := [alertGroup] }]
      named := by simp [nameOf, OpenMetricsRule.new]
      nodup := by simp }
  ruler :=
    { groups := fun t' => if t' = t then [alertGroup] else []
      nodup := fun t' => by split_ifs <;> simp }
  log := []

theorem oneTenant_agrees (t : String) : Agrees (oneTenant t) := by
  intro t' g
  rw [mem_declared]
  by_cases same : t' = t <;> simp [oneTenant, OpenMetricsRule.new, same]

theorem agreement_fixed_one_user :
    Agrees (oneTenant "1") ∧
    (((∃ w', ((Live.localhost id).setup ["1"]).tracker TickOrders.sorted (oneTenant "1") =
          some ((), w') ∧ w'.log = (oneTenant "1").log) ∧
        ∃ w', ((Live.localhost id).setup ["1"]).updater TickOrders.sorted false (oneTenant "1") =
          some ((), w') ∧ w'.log = (oneTenant "1").log) ↔
      ∀ t, declared (oneTenant "1").cluster.rules t ≠ [] → t ∈ ["1"] ∧ t ≠ "0") :=
  ⟨oneTenant_agrees "1",
    agreement_fixed_iff (Live.localhost id) ["1"] TickOrders.sorted TickOrders.sorted
    false (oneTenant "1") (oneTenant_agrees "1")⟩

theorem agreement_not_fixed_zero :
    Agrees (oneTenant "0") ∧
      ∃ w', ((Live.localhost id).setup ["0"]).tracker TickOrders.sorted (oneTenant "0") =
        some ((), w') ∧ w'.log ≠ (oneTenant "0").log := by
  have agrees := oneTenant_agrees "0"
  obtain ⟨r, track, read⟩ := (Live.localhost id).tracker_apply ["0"] TickOrders.sorted (oneTenant "0")
  refine ⟨agrees, _, track, fun quiet => ?_⟩
  have asked := (Live.trackerTick_log_iff _ _ agrees read).mp quiet "0" (by decide)
  exact asked.2 rfl

end OpenMetrics.Informer
