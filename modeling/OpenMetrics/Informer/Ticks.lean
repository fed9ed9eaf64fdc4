import OpenMetrics.Informer.World

namespace OpenMetrics.Informer
open Library KubeLib

def flatten (order : HashOrder String) (m : TenantGroups) : List (String × GroupSpec × Int) :=
  (order.iter m).flatMap fun entry => entry.2.map (entry.1, ·)

theorem mem_flatten {order : HashOrder String} {m : TenantGroups} {t : String}
    {e : GroupSpec × Int} : (t, e) ∈ flatten order m ↔ e ∈ entriesOf m t := by
  simp only [flatten, List.mem_flatMap, List.mem_map, Prod.mk.injEq, entriesOf]
  constructor
  · intro listed
    rcases listed with ⟨⟨t', l⟩, entry, _, member, rfl, rfl⟩
    rw [order.mem_iter.mp entry]
    exact member
  · intro member
    cases found : m.lookup t with
    | none => simp [found] at member
    | some l =>
        rw [found] at member
        exact ⟨(t, l), order.mem_iter.mpr found, e, member, rfl, rfl⟩

theorem forM_entries {σ : Type} (order : HashOrder String) (m : TenantGroups)
    (body : String → GroupSpec × Int → Act σ Unit) (next : σ → String × GroupSpec × Int → σ)
    (returns : ∀ p ∈ flatten order m, ∀ s, body p.1 p.2 s = some ((), next s p)) (s : σ) :
    ((order.iter m).forM fun entry => entry.2.forM (body entry.1)) s =
      some ((), (flatten order m).foldl next s) := by
  have inner : ∀ entry ∈ order.iter m, ∀ s, entry.2.forM (body entry.1) s =
      some ((), (entry.2.map (entry.1, ·)).foldl next s) := by
    intro entry listed s
    rw [List.foldl_map]
    refine (Act.forM_apply _ (fun s e => next s (entry.1, e)) (fun _ => True) entry.2 ?_
      (fun _ _ _ _ => trivial) trivial).1
    intro e member s _
    exact returns (entry.1, e) (List.mem_flatMap.mpr ⟨entry, listed, List.mem_map_of_mem member⟩) s
  rw [flatten, List.foldl_flatMap]
  exact (Act.forM_apply _ (fun s entry => (entry.2.map (entry.1, ·)).foldl next s) (fun _ => True)
    _ (fun entry listed s _ => inner entry listed s) (fun _ _ _ _ => trivial) trivial).1

abbrev Visible (userIds : List String) (t : String) : Prop := t ∈ userIds ∧ t ≠ "0"

namespace TickOrders

def sorted : TickOrders where
  tenants := .sorted String
  namespaces _ := .sorted String
  origin := .sorted String
  target := .sorted String
  updates := .sorted String
  removals := .sorted String

variable (o : TickOrders) (target origin : TenantGroups)

def updatesOf : List (String × GroupSpec × Int) :=
  flatten o.updates (diffRuleGroups o.origin o.target target origin).1

def removalsOf : List (String × GroupSpec × Int) :=
  flatten o.removals (diffRuleGroups o.origin o.target target origin).2

variable {o target origin} {t : String} {e : GroupSpec × Int}

theorem mem_updatesOf : (t, e) ∈ o.updatesOf target origin ↔
    e ∈ entriesOf origin t ∧ groupNamed (groupsOf target t) e.1.name ≠ some e.1 := by
  simp [updatesOf, mem_flatten, entriesOf_updates, updatesFor]

theorem mem_removalsOf : (t, e) ∈ o.removalsOf target origin ↔
    e ∈ entriesOf target t ∧ groupNamed (groupsOf origin t) e.1.name = none := by
  simp [removalsOf, mem_flatten, entriesOf_removals, removalsFor]

theorem exists_mem_updatesOf {g : GroupSpec} : (∃ k, (t, g, k) ∈ o.updatesOf target origin) ↔
    g ∈ groupsOf origin t ∧ groupNamed (groupsOf target t) g.name ≠ some g := by
  simp [mem_updatesOf, groupsOf]

theorem exists_mem_removalsOf {g : GroupSpec} : (∃ k, (t, g, k) ∈ o.removalsOf target origin) ↔
    g ∈ groupsOf target t ∧ groupNamed (groupsOf origin t) g.name = none := by
  simp [mem_removalsOf, groupsOf]

theorem exists_listed {rules : List OpenMetricsRule} {r : TenantGroups}
    {p : String × GroupSpec × Int} (update : p ∈ o.updatesOf r (getTenantMapFromRulesList rules)) :
    ∃ i : Nat, p.2.2 = i ∧ ∃ rule, rules[i]? = some rule := by
  obtain ⟨i, rule, index, found, -⟩ := exists_declaring (mem_flatten.mp update)
  exact ⟨i, index, rule, found⟩

end TickOrders

namespace Setup

variable {σ : Type} {i : Setup σ} {o : TickOrders} {skip : Bool} {rules : List OpenMetricsRule}
  {r : TenantGroups} {s : σ}

theorem updater_reads
    (listed : discoverOpenMetricsRules i.k8sClient i.namespace_ i.fuel s = some (.ok rules, s))
    (discovered : discoverRulerRules o.namespaces (o.tenants.keys (discoverTenantIds rules))
      i.rulerClient i.rulerApiUrl i.namespace_ s = some (.ok r, s)) :
    i.updater o skip s = i.syncToRuler o skip rules r s := by
  rw [updater, Act.bind_apply, listed, Option.bind_some]
  simp only [Act.bind_apply]
  rw [discovered, Option.bind_some]

theorem updater_gives_up {e : String}
    (listed : discoverOpenMetricsRules i.k8sClient i.namespace_ i.fuel s = some (.ok rules, s))
    (failed : discoverRulerRules o.namespaces (o.tenants.keys (discoverTenantIds rules))
      i.rulerClient i.rulerApiUrl i.namespace_ s = some (.error e, s)) :
    i.updater o skip s = some ((), s) := by
  rw [updater, Act.bind_apply, listed, Option.bind_some]
  simp only [Act.bind_apply]
  rw [failed, Option.bind_some]
  rfl

theorem uploadGroup_listed (i : Setup σ) (named : ∀ rule ∈ rules, (nameOf rule).isSome)
    {p : String × GroupSpec × Int}
    (update : p ∈ o.updatesOf r (getTenantMapFromRulesList rules)) :
    ∃ rule, rules[p.2.2.toNat]? = some rule ∧
      i.uploadGroup rules p.1 p.2 =
        (updateRulerRule i.rulerClient i.rulerApiUrl p.1 i.namespace_ p.2.1 >>= fun _ =>
          resourceUpdated i.k8sClient i.namespace_ ((nameOf rule).getD "") rule) := by
  obtain ⟨k, index, rule, found⟩ := TickOrders.exists_listed update
  obtain ⟨name, isSome⟩ := Option.isSome_iff_exists.mp (named rule (List.mem_of_getElem? found))
  have unwrapped : rule.metadata.name = some name := isSome
  refine ⟨rule, by rw [index]; exact found, ?_⟩
  simp only [uploadGroup, index, Int.natCast_nonneg, if_true, Int.toNat_natCast, found, unwrapped,
    isSome, Act.unwrap_some, pure_bind, Option.getD_some]

variable (skip) in
theorem syncToRuler_writes (upload delete : σ → String × GroupSpec × Int → σ)
    (uploads : ∀ p ∈ o.updatesOf r (getTenantMapFromRulesList rules), ∀ s,
      i.uploadGroup rules p.1 p.2 s = some ((), upload s p))
    (deletes : ∀ (p : String × GroupSpec × Int) s,
      removeRulerRule i.rulerClient i.rulerApiUrl p.1 i.namespace_ p.2.1 s =
        some ((), delete s p)) :
    i.syncToRuler o skip rules r s =
      some ((), if skip then (o.updatesOf r (getTenantMapFromRulesList rules)).foldl upload s
        else (o.removalsOf r (getTenantMapFromRulesList rules)).foldl delete
          ((o.updatesOf r (getTenantMapFromRulesList rules)).foldl upload s)) := by
  have uploaded := forM_entries o.updates
    (diffRuleGroups o.origin o.target r (getTenantMapFromRulesList rules)).1
    (fun t e => i.uploadGroup rules t e) upload uploads s
  have deleted (s : σ) := forM_entries o.removals
    (diffRuleGroups o.origin o.target r (getTenantMapFromRulesList rules)).2
    (fun t e => removeRulerRule i.rulerClient i.rulerApiUrl t i.namespace_ e.1) delete
    (fun p _ => deletes p) s
  simp only [syncToRuler, Act.bind_apply]
  rw [uploaded, Option.bind_some]
  cases skip with
  | true => rfl
  | false => exact deleted _

end Setup

namespace Live

variable {live : Live} {userIds : List String} {o : TickOrders} {w : World}

def reported (groups : List GroupSpec) : Option (List GroupSpec) :=
  if groups = [] then none else some groups

theorem rulerReply_conclusive (groups : List GroupSpec) :
    Conclusive (live.rulerReply groups) (reported groups) := by
  unfold rulerReply reported
  split_ifs
  · exact .noGroups _ (by decide)
  · exact .groups _ _ _

theorem groupsOf_eq {m : TenantGroups} {t : String} {groups : List GroupSpec}
    (found : m.lookup t = (reported groups).map unindexed) : groupsOf m t = groups := by
  rw [groupsOf, entriesOf, found, reported]
  split_ifs with empty
  · simp [empty]
  · simp [unindexed, Function.comp_def]

theorem discoverRulerRules_answered {σ : Type} {rulerClient : RulerClient σ} {ruler : RulerStore}
    {s : σ} {tenants : List String} (namespaces : Nat → HashOrder String)
    (gets : ∀ t ∈ tenants, rulerClient.get (rulesUrl live.rulerApiUrl live.namespace_) t s =
      some (live.rulerReply (ruler.groups t), s)) :
    ∃ r, discoverRulerRules namespaces tenants rulerClient live.rulerApiUrl live.namespace_ s =
        some (.ok r, s) ∧
      ∀ t, groupsOf r t = if t ∈ tenants then ruler.groups t else [] := by
  obtain ⟨r, run, lookups⟩ := discoverRulerRules_reported namespaces gets
    fun t _ result order => readReply_conclusive (rulerReply_conclusive (ruler.groups t)) order t result
  refine ⟨r, run, fun t => ?_⟩
  have found := lookups t
  split_ifs at found ⊢
  · exact groupsOf_eq found
  · rw [groupsOf, entriesOf, found]
    rfl

variable (live) in
theorem discoverRulerRules_apply (namespaces : Nat → HashOrder String) (tenants : List String)
    (w : World) :
    ∃ r, discoverRulerRules namespaces tenants live.rulerClient live.rulerApiUrl live.namespace_ w =
        some (.ok r, w) ∧
      ∀ t, groupsOf r t = if t ∈ tenants then w.ruler.groups t else [] :=
  discoverRulerRules_answered namespaces fun _ _ => rfl

variable (live o) in
def trackerTick (r : TenantGroups) (w : World) : World :=
  (o.removalsOf (getTenantMapFromRulesList w.cluster.rules) r).foldl
    (fun w p => live.remove p.1 p.2.1.name w)
    ((o.updatesOf (getTenantMapFromRulesList w.cluster.rules) r).foldl
      (fun w p => live.put p.1 p.2.1 w) w)

theorem syncToK8s_apply (r : TenantGroups) (w : World) :
    (live.setup userIds).syncToK8s o r w = some ((), live.trackerTick o r w) := by
  rw [Setup.syncToK8s, Act.bind_apply, setup, discover_apply, Option.bind_some]
  simp only [Act.bind_apply]
  have puts := forM_entries o.updates (diffRuleGroups o.origin o.target
      (getTenantMapFromRulesList w.cluster.rules) r).1
    (fun t e => createOrUpdateK8sResource live.k8sClient 0 live.sha1 t live.namespace_ e.1)
    (fun w p => live.put p.1 p.2.1 w)
    (fun p _ w => createOrUpdate_apply 0 p.1 live.namespace_ p.2.1) w
  rw [puts, Option.bind_some]
  exact forM_entries o.removals _
    (fun t e => removeK8sResource live.k8sClient 0 t live.namespace_ e.1)
    (fun w p => live.remove p.1 p.2.1.name w)
    (fun p _ w => removeK8s_apply 0 p.1 live.namespace_ p.2.1) _

variable (live) in
theorem readRuler_apply (userIds : List String) (o : TickOrders) (w : World) :
    ∃ r, (live.setup userIds).readRuler o w = some (.ok r, w) ∧
      ∀ t, groupsOf r t = if Visible userIds t then w.ruler.groups t else [] := by
  obtain ⟨r, read, groups⟩ := discoverRulerRules_apply live o.namespaces
    (userIds.filter fun id => id ≠ "0") w
  refine ⟨r, ?_, fun t => by simpa using groups t⟩
  have tenants : userIds.map (UserStat.userId ∘ UserStat.mk) = userIds := List.map_id _
  simpa [Setup.readRuler, loadTenantsFromDistributor, setup, extractTenants, tenants] using read

theorem mem_groupsOf_read {r : TenantGroups}
    (read : ∀ t, groupsOf r t = if Visible userIds t then w.ruler.groups t else []) (t : String)
    (g : GroupSpec) : g ∈ groupsOf r t ↔ Visible userIds t ∧ g ∈ w.ruler.groups t := by
  rw [read]
  split_ifs with visible
  · exact (and_iff_right visible).symm
  · exact iff_of_false List.not_mem_nil fun seen => visible seen.1

theorem tracker_of_read {r : TenantGroups}
    (read : (live.setup userIds).readRuler o w = some (.ok r, w)) :
    (live.setup userIds).tracker o w = some ((), live.trackerTick o r w) := by
  simp [Setup.tracker, read, syncToK8s_apply]

variable (live) in
theorem tracker_apply (userIds : List String) (o : TickOrders) (w : World) :
    ∃ r, (live.setup userIds).tracker o w = some ((), live.trackerTick o r w) ∧
      ∀ t, groupsOf r t = if Visible userIds t then w.ruler.groups t else [] := by
  obtain ⟨r, read, groups⟩ := live.readRuler_apply userIds o w
  exact ⟨r, tracker_of_read read, groups⟩

variable (live) in
def upload (rules : List OpenMetricsRule) (w : World) (p : String × GroupSpec × Int) : World :=
  match rules[p.2.2.toNat]? with
  | some rule => live.patch ((nameOf rule).getD "") (renewed rule) (live.post p.1 p.2.1 w)
  | none => live.post p.1 p.2.1 w

variable (live) in
def removeGroup (w : World) (p : String × GroupSpec × Int) : World :=
  live.deleteGroup (live.groupUrl p.2.1.name) p.1 w

variable (live o) in
def updaterTick (skip : Bool) (r : TenantGroups) (w : World) : World :=
  let w' := (o.updatesOf r (getTenantMapFromRulesList w.cluster.rules)).foldl
    (live.upload w.cluster.rules) w
  if skip then w'
  else (o.removalsOf r (getTenantMapFromRulesList w.cluster.rules)).foldl live.removeGroup w'

theorem uploadGroup_apply {rules : List OpenMetricsRule}
    (named : ∀ rule ∈ rules, (nameOf rule).isSome) {r : TenantGroups}
    {p : String × GroupSpec × Int}
    (update : p ∈ o.updatesOf r (getTenantMapFromRulesList rules)) (w : World) :
    (live.setup userIds).uploadGroup rules p.1 p.2 w = some ((), live.upload rules w p) := by
  obtain ⟨rule, found, code⟩ := (live.setup userIds).uploadGroup_listed named update
  rw [code, upload, found]
  simp [setup]

theorem syncToRuler_apply (skip : Bool) (r : TenantGroups) (w : World) :
    (live.setup userIds).syncToRuler o skip w.cluster.rules r w =
      some ((), live.updaterTick o skip r w) :=
  Setup.syncToRuler_writes skip (live.upload w.cluster.rules) live.removeGroup
    (fun _ update w' => uploadGroup_apply w.cluster.named update w')
    (fun p _ => removeRulerRule_apply p.1 p.2.1)

variable (live) in
theorem updater_apply (userIds : List String) (o : TickOrders) (skip : Bool) (w : World) :
    ∃ r, (live.setup userIds).updater o skip w = some ((), live.updaterTick o skip r w) ∧
      ∀ t, groupsOf r t =
        if t ∈ discoverTenantIds w.cluster.rules then w.ruler.groups t else [] := by
  obtain ⟨r, read, groups⟩ := discoverRulerRules_apply live o.namespaces
    (o.tenants.keys (discoverTenantIds w.cluster.rules)) w
  refine ⟨r, ?_, fun t => by simpa using groups t⟩
  have sync : (live.setup userIds).updater o skip w =
      (live.setup userIds).syncToRuler o skip w.cluster.rules r w :=
    Setup.updater_reads (discover_apply _ _) read
  rw [sync]
  exact syncToRuler_apply skip r w

end Live

end OpenMetrics.Informer
