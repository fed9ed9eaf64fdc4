import OpenMetrics.Informer.World

namespace OpenMetrics.Informer
open Library KubeLib

def FirstNamed (name : String) (groups front : List GroupSpec) (old : GroupSpec)
    (back : List GroupSpec) : Prop :=
  groups = front ++ old :: back ∧ (∀ g ∈ front, g.name ≠ name) ∧ old.name = name

theorem groupNamed_append (front back : List GroupSpec) (name : String) :
    groupNamed (front ++ back) name = (groupNamed front name).or (groupNamed back name) :=
  List.find?_append

theorem FirstNamed.length {name : String} {rule : OpenMetricsRule} {front back : List GroupSpec}
    {old : GroupSpec} (first : FirstNamed name rule.spec.groups front old back) :
    groupPosition name rule = front.length := by
  obtain ⟨split, apart, named⟩ := first
  rw [groupPosition, split, List.findIdx_append,
    List.findIdx_eq_length_of_false (by simpa using apart)]
  simp [List.findIdx_cons, named]

theorem exists_firstNamed {t name : String} {rule : OpenMetricsRule} (holds : Holds t name rule) :
    ∃ front old back, FirstNamed name rule.spec.groups front old back := by
  obtain ⟨front, old, back, split, apart, named, -⟩ := groups_split holds
  exact ⟨front, old, back, split, apart, named⟩

/-- The write puts the group in front of every other group of its name, even where the index has
wrapped. -/
theorem groupNamed_setGroup {t : String} {g : GroupSpec} {rule : OpenMetricsRule}
    (holds : Holds t g.name rule) :
    groupNamed (setGroup rule (groupIndex g.name rule) g).spec.groups g.name = some g := by
  obtain ⟨front, old, back, split, apart, named⟩ := exists_firstNamed holds
  have position : (groupIndex g.name rule).toNat ≤ front.length := by
    rw [groupIndex, UInt32.toNat_ofNat', FirstNamed.length ⟨split, apart, named⟩]
    exact Nat.mod_le _ _
  have before : groupNamed (rule.spec.groups.take (groupIndex g.name rule).toNat) g.name = none := by
    refine Keyed.find_eq_none.mpr fun g' member => apart g' ?_
    rw [split, List.take_append_of_le_length position] at member
    exact List.mem_of_mem_take member
  simp only [setGroup]
  rw [List.set_eq_take_append_cons_drop, if_pos (groupIndex_lt holds), groupNamed_append, before,
    Option.none_or]
  simp [groupNamed, Keyed.find]

theorem groupNamed_declared {t name : String} {front back : List OpenMetricsRule}
    {rule : OpenMetricsRule} {g : GroupSpec} (apart : ∀ r ∈ front, ¬ Holds t name r)
    (lists : t ∈ rule.spec.tenants) (found : groupNamed rule.spec.groups name = some g) :
    groupNamed (declared (front ++ rule :: back) t) name = some g := by
  have before : groupNamed (declared front t) name = none := by
    apply Keyed.find_eq_none.mpr
    intro g' declares named
    obtain ⟨r, member, names, group⟩ := mem_declared.mp declares
    exact apart r member ⟨names, g', group, named⟩
  obtain ⟨n, copies⟩ := Nat.exists_eq_succ_of_ne_zero (List.count_pos_iff.mpr lists).ne'
  rw [declared_append, groupNamed_append, before, Option.none_or, declared, List.flatMap_cons, copies,
    List.replicate_succ, List.flatten_cons, groupNamed_append, groupNamed_append, found]
  rfl

namespace Live

variable {live : Live}

variable (live) in
theorem put_found_rules {t : String} {g : GroupSpec} {w : World} {rule : OpenMetricsRule}
    (found : firstHolder t g.name w.cluster.rules = some rule) :
    ∃ front back after, w.cluster.rules = front ++ rule :: back ∧
      (∀ r ∈ front, ¬ Holds t g.name r) ∧
      (live.put t g w).cluster.rules = front ++ after :: back ∧
      after.spec.tenants = rule.spec.tenants ∧
      after.spec.groups = rule.spec.groups.set (groupIndex g.name rule).toNat g := by
  obtain ⟨front, back, split, apart⟩ := firstHolder_split found
  obtain ⟨name, named, -⟩ := Cluster.find_of_mem (firstHolder_mem found)
  unfold put
  rw [found]
  simp only [named, Option.getD_some]
  exact ⟨front, back, _, split, apart, Cluster.apply_over split named _ _, rfl, rfl⟩

variable (live) in
theorem put_missing_rules {t : String} {g : GroupSpec} {w : World}
    (missing : firstHolder t g.name w.cluster.rules = none) :
    ∃ front replaced back after, w.cluster.rules = front ++ (replaced ++ back) ∧
      (∀ r ∈ replaced, nameOf r = some (computedName live.sha1 t g.name)) ∧
      (live.put t g w).cluster.rules = front ++ after :: back ∧
      after.spec.tenants = [t] ∧ after.spec.groups = [g] := by
  unfold put
  rw [missing]
  cases old : w.cluster.find (computedName live.sha1 t g.name) with
  | some rule =>
      obtain ⟨member, named⟩ := Cluster.find_eq_some.mp old
      obtain ⟨front, back, split⟩ := List.append_of_mem member
      exact ⟨front, [rule], back, _, split, by simpa using named,
        Cluster.apply_over split named _ _, rfl, rfl⟩
  | none =>
      obtain ⟨front, back, split, after⟩ := Cluster.apply_new old (live.resourcePlace w)
        (renewed (sourcedRule (computedName live.sha1 t g.name) t g))
      exact ⟨front, [], back, _, split, by simp, after, rfl, rfl⟩

variable (live) in
theorem put_rules (t : String) (g : GroupSpec) (w : World) :
    ∃ front rule back, (live.put t g w).cluster.rules = front ++ rule :: back ∧
      (∀ r ∈ front, ¬ Holds t g.name r) ∧ t ∈ rule.spec.tenants ∧
      groupNamed rule.spec.groups g.name = some g := by
  cases found : firstHolder t g.name w.cluster.rules with
  | some rule =>
      have holds := firstHolder_holds found
      obtain ⟨front, back, after, -, apart, rules, tenants, groups⟩ :=
        put_found_rules live found
      refine ⟨front, after, back, rules, apart, tenants ▸ holds.1, ?_⟩
      rw [groups]
      exact groupNamed_setGroup holds
  | none =>
      have unheld := firstHolder_eq_none.mp found
      obtain ⟨front, replaced, back, after, split, -, rules, tenants, groups⟩ :=
        put_missing_rules live found
      refine ⟨front, after, back, rules, fun r inFront => unheld r (by simp [split, inFront]),
        by simp [tenants], ?_⟩
      simp [groups, groupNamed, Keyed.find]

variable (live) in
theorem groupNamed_put (t : String) (g : GroupSpec) (w : World) :
    groupNamed (declared (live.put t g w).cluster.rules t) g.name = some g := by
  obtain ⟨front, rule, back, rules, apart, lists, found⟩ := put_rules live t g w
  rw [rules]
  exact groupNamed_declared apart lists found

end Live

theorem no_update_of_declared {rules : List OpenMetricsRule} {t : String} {g : GroupSpec}
    (found : groupNamed (declared rules t) g.name = some g) {r : TenantGroups}
    (holds : g ∈ groupsOf r t) (unique : ((groupsOf r t).map GroupSpec.name).Nodup)
    (o p : HashOrder String) :
    ∀ e ∈ entriesOf (diffRuleGroups o p (getTenantMapFromRulesList rules) r).1 t,
      e.1.name ≠ g.name := by
  intro e update named
  rw [entriesOf_updates, updatesFor, List.mem_filter, decide_eq_true_eq, groupsOf_tenantMap] at update
  obtain ⟨entry, differs⟩ := update
  have same : e.1 = g :=
    List.inj_on_of_nodup_map unique (List.mem_map_of_mem entry) holds named
  rw [same] at differs
  exact differs found

theorem createOrUpdate_readBack (live : Live) (fuel : Nat) (t ns : String) (g : GroupSpec)
    (w : World) :
    ∃ w', createOrUpdateK8sResource live.k8sClient fuel live.sha1 t ns g w = some ((), w') ∧
      (findGroupNamed (entriesOf (getTenantMapFromRulesList w'.cluster.rules) t) g.name).2.1 =
        some g ∧
      ∀ r : TenantGroups, g ∈ groupsOf r t → ((groupsOf r t).map GroupSpec.name).Nodup →
        ∀ o p, ∀ e ∈ entriesOf (diffRuleGroups o p (getTenantMapFromRulesList w'.cluster.rules) r).1 t,
          e.1.name ≠ g.name := by
  have found := Live.groupNamed_put live t g w
  refine ⟨_, Live.createOrUpdate_apply fuel t ns g, ?_, fun r holds unique =>
    no_update_of_declared found holds unique⟩
  rw [findGroupNamed_group, ← groupsOf, groupsOf_tenantMap]
  exact found

def duplicates : World where
  cluster :=
    { rules :=
        [.new "first" { tenants := ["a", "a"], description := none, groups := [⟨"g", none, []⟩] },
          .new "second" { tenants := ["a"], description := none, groups := [⟨"g", some "1m", []⟩] }]
      named := by decide
      nodup := by decide }
  ruler := .empty
  log := []

theorem createOrUpdate_readBack_duplicates :
    let g : GroupSpec := ⟨"g", some "5m", []⟩
    let r : TenantGroups := Finmap.singleton "a" [(g, -1)]
    (g ∈ groupsOf r "a" ∧ ((groupsOf r "a").map GroupSpec.name).Nodup) ∧
    ∃ w', createOrUpdateK8sResource (Live.localhost id).k8sClient 0 id "a" "default" g duplicates =
        some ((), w') ∧
      ∀ o p, ∀ e ∈ entriesOf (diffRuleGroups o p
        (getTenantMapFromRulesList w'.cluster.rules) r).1 "a", e.1.name ≠ g.name := by
  intro g r
  have listed : groupsOf r "a" = [g] := by simp [groupsOf, entriesOf, r]
  have holds : g ∈ groupsOf r "a" := by simp [listed]
  have unique : ((groupsOf r "a").map GroupSpec.name).Nodup := by simp [listed]
  obtain ⟨w', run, -, diff⟩ :=
    createOrUpdate_readBack (Live.localhost id) 0 "a" "default" g duplicates
  exact ⟨⟨holds, unique⟩, w', run, diff r holds unique⟩

def edited (rule : OpenMetricsRule) (groups : List GroupSpec) : OpenMetricsRule :=
  renewed { rule with spec := { rule.spec with groups := groups } }

def PutsExactly (rule : OpenMetricsRule) (g : GroupSpec) (w w' : World) : Prop :=
  ∃ name front old back, nameOf rule = some name ∧
    FirstNamed g.name rule.spec.groups front old back ∧
    w'.log = w.log ++ [.patch name (edited rule (front ++ g :: back))]

def RemovesExactly (rule : OpenMetricsRule) (n : String) (w w' : World) : Prop :=
  ∃ name front old back, nameOf rule = some name ∧
    FirstNamed n rule.spec.groups front old back ∧
    (rule.spec.groups.length = 1 ↔ front ++ back = []) ∧
    w'.log = w.log ++ [if rule.spec.groups.length = 1 then .deleteResource name
      else .patch name (edited rule (front ++ back))]

structure ExactEdits (live : Live) (fuel : Nat) (t ns : String) (g : GroupSpec) (w : World) :
    Prop where
  put : ∀ rule, firstHolder t g.name w.cluster.rules = some rule →
    ∃ w', createOrUpdateK8sResource live.k8sClient fuel live.sha1 t ns g w = some ((), w') ∧
      PutsExactly rule g w w'
  remove : ∀ rule, firstHolder t g.name w.cluster.rules = some rule →
    ∃ w', removeK8sResource live.k8sClient fuel t ns g w = some ((), w') ∧
      RemovesExactly rule g.name w w'
  inside : ∀ rule idx, searchGroup t g.name w.cluster.rules = some (rule, idx) →
    idx.toNat < rule.spec.groups.length
  nothing : firstHolder t g.name w.cluster.rules = none →
    removeK8sResource live.k8sClient fuel t ns g w = some ((), w)

section
variable {live : Live} {t : String} {g : GroupSpec} {w : World} {rule : OpenMetricsRule}
  (found : firstHolder t g.name w.cluster.rules = some rule)
include found

theorem put_log {name : String} (named : nameOf rule = some name) :
    (live.put t g w).log = w.log ++
      [.patch name (edited rule (rule.spec.groups.set (groupIndex g.name rule).toNat g))] := by
  unfold Live.put
  rw [found]
  simp only [named, Option.getD_some]
  rfl

theorem remove_log {name : String} (named : nameOf rule = some name) :
    (live.remove t g.name w).log = w.log ++ [if rule.spec.groups.length = 1 then .deleteResource name
      else .patch name (edited rule (rule.spec.groups.eraseIdx (groupIndex g.name rule).toNat))] := by
  unfold Live.remove
  rw [found]
  simp only [named, Option.getD_some]
  split_ifs <;> rfl

theorem putsExactly_iff :
    PutsExactly rule g w (live.put t g w) ↔ groupPosition g.name rule < 2 ^ 32 := by
  obtain ⟨name, named, -⟩ := Cluster.find_of_mem (firstHolder_mem found)
  constructor
  · intro puts
    rcases puts with ⟨name', front, old, back, named', ⟨split, apart, isNamed⟩, written⟩
    obtain rfl := Option.some.inj (named.symm.trans named')
    rw [put_log found named, List.append_cancel_left_eq] at written
    have groups : rule.spec.groups.set (groupIndex g.name rule).toNat g = front ++ g :: back :=
      congrArg (fun r => r.spec.groups) (Call.patch.inj (List.singleton_inj.mp written)).2
    have position := FirstNamed.length ⟨split, apart, isNamed⟩
    by_contra wrapped
    -- the group was written in front of its position
    have early : (groupIndex g.name rule).toNat < front.length := by
      rw [groupIndex, UInt32.toNat_ofNat', position]
      exact (Nat.mod_lt _ (Nat.two_pow_pos 32)).trans_le (by omega)
    have here := congrArg (fun l => l[(groupIndex g.name rule).toNat]?) groups
    simp only [List.getElem?_set_self (groupIndex_lt (firstHolder_holds found)),
      List.getElem?_append_left early] at here
    exact apart g (List.mem_of_getElem? here.symm) rfl
  · intro fits
    obtain ⟨front, old, back, first⟩ := exists_firstNamed (firstHolder_holds found)
    refine ⟨name, front, old, back, named, first, ?_⟩
    have index : (groupIndex g.name rule).toNat = front.length := by
      rw [groupIndex, UInt32.toNat_ofNat', Nat.mod_eq_of_lt fits, first.length]
    rw [put_log found named, index, first.1, List.set_append_right _ _ (le_refl _), Nat.sub_self,
      List.set_cons_zero]

theorem removesExactly (fits : groupPosition g.name rule < 2 ^ 32) :
    RemovesExactly rule g.name w (live.remove t g.name w) := by
  obtain ⟨name, named, -⟩ := Cluster.find_of_mem (firstHolder_mem found)
  obtain ⟨front, old, back, first⟩ := exists_firstNamed (firstHolder_holds found)
  have index : (groupIndex g.name rule).toNat = front.length := by
    rw [groupIndex, UInt32.toNat_ofNat', Nat.mod_eq_of_lt fits, first.length]
  refine ⟨name, front, old, back, named, first, ?_, ?_⟩
  · rw [first.1, List.append_eq_nil_iff, List.length_append, List.length_cons,
      ← List.length_eq_zero_iff, ← List.length_eq_zero_iff]
    omega
  · rw [remove_log found named, index, first.1, List.eraseIdx_append_of_length_le (le_refl _),
      Nat.sub_self, List.eraseIdx_cons_zero]

end

theorem exactEdits_iff (live : Live) (fuel : Nat) (t ns : String) (g : GroupSpec) (w : World) :
    ExactEdits live fuel t ns g w ↔
      ∀ rule, firstHolder t g.name w.cluster.rules = some rule →
        groupPosition g.name rule < 2 ^ 32 := by
  constructor
  · intro exact rule found
    obtain ⟨w', run, puts⟩ := exact.put rule found
    rw [Live.createOrUpdate_apply] at run
    obtain rfl := (Prod.mk.inj (Option.some.inj run)).2
    exact (putsExactly_iff found).mp puts
  · intro fits
    constructor
    · exact fun rule found =>
        ⟨_, Live.createOrUpdate_apply fuel t ns g, (putsExactly_iff found).mpr (fits rule found)⟩
    · exact fun rule found =>
        ⟨_, Live.removeK8s_apply fuel t ns g, removesExactly found (fits rule found)⟩
    · intro rule idx search
      rw [searchGroup_eq, Option.map_eq_some_iff] at search
      obtain ⟨holder, found, pair⟩ := search
      obtain ⟨rfl, rfl⟩ := Prod.mk.inj pair
      exact groupIndex_lt (firstHolder_holds found)
    · intro missing
      rw [Live.removeK8s_apply, Live.remove, missing]

def longRule (others : List GroupSpec) : OpenMetricsRule :=
  .new "long"
    { tenants := ["a"], description := none, groups := others ++ [⟨"g", none, []⟩] }

def longWorld (others : List GroupSpec) : World where
  cluster :=
    { rules := [longRule others]
      named := fun _ member => by rw [List.mem_singleton.mp member]; rfl
      nodup := List.nodup_singleton _ }
  ruler := .empty
  log := []

theorem not_exactEdits_long {others : List GroupSpec} (apart : ∀ g ∈ others, g.name ≠ "g")
    (long : 2 ^ 32 ≤ others.length) (live : Live) (fuel : Nat) (ns : String) {g : GroupSpec}
    (named : g.name = "g") : ¬ ExactEdits live fuel "a" ns g (longWorld others) := by
  intro exact
  have first : FirstNamed g.name (longRule others).spec.groups others ⟨"g", none, []⟩ [] :=
    ⟨rfl, named ▸ apart, named.symm⟩
  have holds : Holds "a" g.name (longRule others) :=
    ⟨List.mem_singleton_self _, _, List.mem_append_right _ (List.mem_singleton_self _), named.symm⟩
  have found : firstHolder "a" g.name (longWorld others).cluster.rules = some (longRule others) :=
    List.find?_cons_of_pos (decide_eq_true holds)
  obtain ⟨w', run, puts⟩ := exact.put _ found
  rw [Live.createOrUpdate_apply] at run
  obtain rfl := (Prod.mk.inj (Option.some.inj run)).2
  have fits := (putsExactly_iff found).mp puts
  rw [first.length] at fits
  omega

theorem exactEdits_fails_wrapped :
    ¬ ExactEdits (Live.localhost id) 0 "a" "default" ⟨"g", some "5m", []⟩
      (longWorld (List.replicate (2 ^ 32) ⟨"other", none, []⟩)) := by
  refine not_exactEdits_long (fun g member => ?_) ?_ _ _ _ rfl
  · rw [(List.mem_replicate.mp member).2]
    decide
  · rw [List.length_replicate]

end OpenMetrics.Informer
