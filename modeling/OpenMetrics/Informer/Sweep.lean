import OpenMetrics.Informer.Survival
import OpenMetrics.Informer.Writes

namespace OpenMetrics.Informer
open Library KubeLib

def World.OneTenant (w : World) : Prop :=
  ∀ rule ∈ w.cluster.rules, ∃ t, rule.spec.tenants = [t]

def namesIn (rule : OpenMetricsRule) : List String := rule.spec.groups.map GroupSpec.name

def declaredNames (rules : List OpenMetricsRule) (t : String) : List String :=
  (declared rules t).map GroupSpec.name

def ofTenant (t : String) (rules : List OpenMetricsRule) : List OpenMetricsRule :=
  rules.filter fun rule => t ∈ rule.spec.tenants

section
variable {t : String} {rule : OpenMetricsRule}

theorem declared_cons_own (tenants : rule.spec.tenants = [t]) (rest : List OpenMetricsRule) :
    declared (rule :: rest) t = rule.spec.groups ++ declared rest t := by
  simp [declared, tenants]

theorem declared_cons_other (unlisted : t ∉ rule.spec.tenants) (rest : List OpenMetricsRule) :
    declared (rule :: rest) t = declared rest t := by
  simp [declared, List.count_eq_zero.mpr unlisted]

theorem declared_ofTenant (t : String) (rules : List OpenMetricsRule) :
    declared (ofTenant t rules) t = declared rules t := by
  induction rules with
  | nil => rfl
  | cons rule rest ih =>
      by_cases listed : t ∈ rule.spec.tenants
      · have own : ofTenant t (rule :: rest) = rule :: ofTenant t rest :=
          List.filter_cons_of_pos (decide_eq_true listed)
        rw [own, declared, List.flatMap_cons]
        exact congrArg _ ih
      · have other : ofTenant t (rule :: rest) = ofTenant t rest :=
          List.filter_cons_of_neg (by simpa using listed)
        rw [other, declared_cons_other listed, ih]

end

namespace Live

variable {live : Live} {w : World} {t : String}

variable (live t) in
def removeAll (names : List String) (w : World) : World :=
  names.foldl (fun w n => live.remove t n w) w

variable (live) in
theorem remove_rules {front back : List OpenMetricsRule} {rule : OpenMetricsRule}
    {kept rest : List GroupSpec} {g : GroupSpec}
    (split : w.cluster.rules = front ++ rule :: back) (lists : t ∈ rule.spec.tenants)
    (groups : rule.spec.groups = kept ++ g :: rest) (apart : ∀ r ∈ front, ¬ Holds t g.name r)
    (fresh : ∀ g' ∈ kept, g'.name ≠ g.name) (fits : kept.length < 2 ^ 32) :
    ((kept = [] ∧ rest = []) ∧ (live.remove t g.name w).cluster.rules = front ++ back) ∨
    ∃ rule', (live.remove t g.name w).cluster.rules = front ++ rule' :: back ∧
      rule'.spec.tenants = rule.spec.tenants ∧ rule'.spec.groups = kept ++ rest := by
  have holds : Holds t g.name rule := ⟨lists, g, by simp [groups], rfl⟩
  have found : firstHolder t g.name w.cluster.rules = some rule :=
    List.find?_eq_some_iff_append.mpr
      ⟨decide_eq_true holds, front, back, split, fun r inFront => by simpa using apart r inFront⟩
  have index : (groupIndex g.name rule).toNat = kept.length := by
    have position : groupPosition g.name rule = kept.length :=
      FirstNamed.length ⟨groups, fresh, rfl⟩
    rw [groupIndex, UInt32.toNat_ofNat', position, Nat.mod_eq_of_lt fits]
  obtain ⟨name, named, -⟩ := Cluster.find_of_mem (firstHolder_mem found)
  unfold remove
  rw [found]
  simp only [named, Option.getD_some]
  by_cases single : rule.spec.groups.length = 1
  · rw [if_pos single]
    have alone : kept = [] ∧ rest = [] := by
      rw [groups, List.length_append, List.length_cons] at single
      exact ⟨List.length_eq_zero_iff.mp (by omega), List.length_eq_zero_iff.mp (by omega)⟩
    exact Or.inl ⟨alone, Cluster.delete_split split named⟩
  · rw [if_neg single]
    refine Or.inr ⟨_, Cluster.apply_over split named _ _, rfl, ?_⟩
    show rule.spec.groups.eraseIdx _ = _
    rw [index, groups, List.eraseIdx_append_of_length_le le_rfl, Nat.sub_self]
    rfl

variable {good : String → Prop} [DecidablePred good]

variable (live good) in
theorem sweep_rule {front back : List OpenMetricsRule} {rule : OpenMetricsRule}
    {kept rest : List GroupSpec} (split : w.cluster.rules = front ++ rule :: back)
    (tenants : rule.spec.tenants = [t]) (groups : rule.spec.groups = kept ++ rest)
    (clean : ∀ r ∈ front, ∀ n, ¬ good n → ¬ Holds t n r) (before : ∀ g ∈ kept, good g.name)
    (fits : ∀ a n b, rest.map GroupSpec.name = a ++ n :: b → ¬ good n →
      kept.length + (a.filter (good ·)).length < 2 ^ 32) :
    ∃ swept, (live.removeAll t ((rest.map GroupSpec.name).filter (¬ good ·)) w).cluster.rules =
        front ++ (swept ++ back) ∧ (∀ r ∈ swept, r.spec.tenants = [t]) ∧
      declared swept t = kept ++ rest.filter fun g => good g.name := by
  induction rest generalizing w rule kept with
  | nil =>
      refine ⟨[rule], split, by simpa using tenants, ?_⟩
      rw [declared_cons_own tenants, groups]
      simp [declared]
  | cons g rest ih =>
      by_cases keep : good g.name
      · obtain ⟨swept, rules, own, left⟩ := ih split tenants
          (by simpa using groups : rule.spec.groups = (kept ++ [g]) ++ rest)
          (by simpa [or_imp, forall_and, keep] using before) (by
            intro a n b same bad
            have fits := fits (g.name :: a) n b (by rw [List.map_cons, same]; rfl) bad
            rw [List.filter_cons_of_pos (by simpa using keep)] at fits
            simp only [List.length_append, List.length_cons, List.length_nil] at fits ⊢
            omega)
        refine ⟨swept, ?_, own, by simpa [List.filter_cons, keep] using left⟩
        rw [List.map_cons, List.filter_cons_of_neg (by simpa using keep)]
        exact rules
      · have names : ((g :: rest).map GroupSpec.name).filter (¬ good ·) =
            g.name :: (rest.map GroupSpec.name).filter (¬ good ·) := by simp [keep]
        have fresh : ∀ g' ∈ kept, g'.name ≠ g.name := fun g' member same =>
          keep (same ▸ before g' member)
        have room : kept.length < 2 ^ 32 := by simpa using fits [] g.name _ rfl keep
        rw [names, removeAll, List.foldl_cons, List.filter_cons_of_neg (by simpa using keep)]
        rcases live.remove_rules split (by simp [tenants]) groups
          (fun r inFront => clean r inFront g.name keep) fresh room with
          ⟨⟨rfl, rfl⟩, rules⟩ | ⟨rule', rules, tenants', groups'⟩
        · exact ⟨[], rules, by simp, rfl⟩
        · apply ih rules (tenants'.trans tenants) groups' before
          intro a n b same bad
          have fits := fits (g.name :: a) n b (by rw [List.map_cons, same]; rfl) bad
          simpa [List.filter_cons, keep] using fits

variable (good) in
/-- A bad group stands at a position of a `u32` once the bad ones before it are gone. -/
def SweepFits (t : String) (rules : List OpenMetricsRule) : Prop :=
  ∀ rule ∈ rules, t ∈ rule.spec.tenants → ∀ front n back, namesIn rule = front ++ n :: back →
    ¬ good n → (front.filter (good ·)).length < 2 ^ 32

variable (good) in
structure Swept (t : String) (before after : List OpenMetricsRule) : Prop where
  one : ∀ r ∈ after, ∃ t', r.spec.tenants = [t']
  own : declared after t = (declared before t).filter fun g => good g.name
  others : ∀ t', t' ≠ t → ofTenant t' after = ofTenant t' before

theorem Swept.cons_own {rule : OpenMetricsRule} {mid back swept : List OpenMetricsRule}
    (done : Swept good t back swept) (tenants : rule.spec.tenants = [t])
    (tenantsMid : ∀ r ∈ mid, r.spec.tenants = [t])
    (groupsMid : declared mid t = rule.spec.groups.filter fun g => good g.name) :
    Swept good t (rule :: back) (mid ++ swept) where
  one r member := by
    cases List.mem_append.mp member with
    | inl inMid => exact ⟨t, tenantsMid r inMid⟩
    | inr inSwept => exact done.one r inSwept
  own := by
    rw [declared_append, groupsMid, done.own, declared_cons_own tenants, List.filter_append]
  others t' other := by
    have absent : ofTenant t' mid = [] := by
      apply List.filter_eq_nil_iff.mpr
      intro r inMid
      simpa [tenantsMid r inMid] using other
    have unlisted : t' ∉ rule.spec.tenants := by simpa [tenants] using other
    rw [ofTenant] at absent
    rw [ofTenant, List.filter_append, absent, List.nil_append, ofTenant,
      List.filter_cons_of_neg (by simpa using unlisted)]
    exact done.others t' other

theorem Swept.cons_other {rule : OpenMetricsRule} {back swept : List OpenMetricsRule} {t' : String}
    (done : Swept good t back swept) (tenants : rule.spec.tenants = [t']) (other : t' ≠ t) :
    Swept good t (rule :: back) (rule :: swept) where
  one r member := by
    cases List.mem_cons.mp member with
    | inl here => exact ⟨t', here ▸ tenants⟩
    | inr inSwept => exact done.one r inSwept
  own := by
    have unlisted : t ∉ rule.spec.tenants := by simpa [tenants] using Ne.symm other
    rw [declared_cons_other unlisted, declared_cons_other unlisted, done.own]
  others t'' apart := by
    have rest := done.others t'' apart
    simp only [ofTenant, List.filter_cons] at rest ⊢
    rw [rest]

variable (live) in
theorem sweep_tenant {front back : List OpenMetricsRule}
    (split : w.cluster.rules = front ++ back) (one : ∀ r ∈ back, ∃ t', r.spec.tenants = [t'])
    (clean : ∀ r ∈ front, ∀ n, ¬ good n → ¬ Holds t n r) (fits : SweepFits good t back) :
    ∃ swept, (live.removeAll t ((declaredNames back t).filter (¬ good ·)) w).cluster.rules =
        front ++ swept ∧ Swept good t back swept := by
  induction back generalizing front w with
  | nil => exact ⟨[], split, ⟨by simp, rfl, fun _ _ => rfl⟩⟩
  | cons rule back ih =>
      have later : ∀ r ∈ back, ∃ t', r.spec.tenants = [t'] :=
        fun r member => one r (List.mem_cons_of_mem _ member)
      have fitsLater : SweepFits good t back :=
        fun r member => fits r (List.mem_cons_of_mem _ member)
      obtain ⟨t', tenants⟩ := one rule List.mem_cons_self
      by_cases own : t' = t
      · subst own
        obtain ⟨mid, rules, tenantsMid, groupsMid⟩ := live.sweep_rule good split tenants
          (List.nil_append _).symm clean (by simp)
          (by simpa [namesIn] using fits rule List.mem_cons_self (by simp [tenants]))
        have cleanMid : ∀ r ∈ front ++ mid, ∀ n, ¬ good n → ¬ Holds t' n r := by
          intro r member n bad holds
          cases List.mem_append.mp member with
          | inl inFront => exact clean r inFront n bad holds
          | inr inMid =>
              obtain ⟨-, g, group, rfl⟩ := holds
              have declares : g ∈ declared mid t' :=
                mem_declared.mpr ⟨r, inMid, by simp [tenantsMid r inMid], group⟩
              rw [groupsMid, List.nil_append, List.mem_filter] at declares
              exact bad (of_decide_eq_true declares.2)
        obtain ⟨swept, after, done⟩ := ih (rules.trans (List.append_assoc _ _ _).symm) later
          cleanMid fitsLater
        refine ⟨mid ++ swept, ?_, done.cons_own tenants tenantsMid groupsMid⟩
        rw [declaredNames, declared_cons_own tenants, List.map_append, List.filter_append,
          removeAll, List.foldl_append, ← List.append_assoc]
        exact after
      · have unlisted : t ∉ rule.spec.tenants := by simpa [tenants] using Ne.symm own
        have cleanRule : ∀ r ∈ front ++ [rule], ∀ n, ¬ good n → ¬ Holds t n r := by
          intro r member n bad holds
          cases List.mem_append.mp member with
          | inl inFront => exact clean r inFront n bad holds
          | inr here =>
              rw [List.mem_singleton.mp here] at holds
              exact unlisted holds.1
        obtain ⟨swept, after, done⟩ :=
          ih (by simpa using split : w.cluster.rules = (front ++ [rule]) ++ back) later cleanRule
            fitsLater
        refine ⟨rule :: swept, ?_, done.cons_other tenants own⟩
        rw [declaredNames, declared_cons_other unlisted]
        simpa [declaredNames] using after

end Live

theorem declared_congr {t : String} {rules rules' : List OpenMetricsRule}
    (same : ofTenant t rules' = ofTenant t rules) : declared rules' t = declared rules t := by
  rw [← declared_ofTenant, same, declared_ofTenant]

theorem Live.SweepFits.congr {good : String → Prop} [DecidablePred good] {t : String}
    {rules rules' : List OpenMetricsRule} (same : ofTenant t rules' = ofTenant t rules)
    (fits : SweepFits good t rules) : SweepFits good t rules' := by
  intro rule member lists
  have inside : rule ∈ ofTenant t rules' := List.mem_filter.mpr ⟨member, decide_eq_true lists⟩
  rw [same] at inside
  exact fits rule (List.mem_of_mem_filter inside) lists

abbrev Known (r : TenantGroups) (t name : String) : Prop := name ∈ (groupsOf r t).map GroupSpec.name

theorem groupNamed_known {r : TenantGroups} {t name : String} :
    groupNamed (groupsOf r t) name = none ↔ ¬ Known r t name := by
  rw [groupNamed, Keyed.find_eq_none, Known, List.mem_map]
  simp only [not_exists, not_and]

namespace Live

variable {live : Live} {w : World} {r : TenantGroups}

variable (live) in
theorem sweep_entries {entries : List (String × List (GroupSpec × Int))}
    (nodup : (entries.map Prod.fst).Nodup) (single : w.OneTenant)
    (fits : ∀ t, SweepFits (Known r t) t w.cluster.rules)
    (names : ∀ e ∈ entries, e.2.map (fun g => g.1.name) =
      (declaredNames w.cluster.rules e.1).filter (¬ Known r e.1 ·)) :
    ∃ w', entries.foldl (fun w e => live.removeAll e.1 (e.2.map fun g => g.1.name) w) w = w' ∧
      (∀ e ∈ entries, declared w'.cluster.rules e.1 =
        (declared w.cluster.rules e.1).filter fun g => Known r e.1 g.name) ∧
      ∀ t ∉ entries.map Prod.fst, ofTenant t w'.cluster.rules = ofTenant t w.cluster.rules := by
  induction entries generalizing w with
  | nil => exact ⟨w, rfl, by simp, fun _ _ => rfl⟩
  | cons e rest ih =>
      obtain ⟨t, l⟩ := e
      obtain ⟨fresh, nodup⟩ := List.nodup_cons.mp nodup
      obtain ⟨swept, after, done⟩ := live.sweep_tenant (List.nil_append _).symm single
        (by simp) (fits t)
      rw [← names (t, l) List.mem_cons_self, List.nil_append] at after
      rw [List.foldl_cons]
      rw [← after] at done
      have apart (e : String × List (GroupSpec × Int)) (member : e ∈ rest) : e.1 ≠ t := by
        have listed : e.1 ∈ rest.map Prod.fst := List.mem_map_of_mem member
        intro same
        rw [same] at listed
        exact fresh listed
      have fits' : ∀ t', SweepFits (Known r t') t'
          (live.removeAll t (l.map fun g => g.1.name) w).cluster.rules := by
        intro t'
        by_cases same : t' = t
        · subst same
          intro rule member lists front n back split bad
          have named : n ∈ namesIn rule := by simp [split]
          obtain ⟨g, group, rfl⟩ := List.mem_map.mp named
          have declares := mem_declared.mpr ⟨rule, member, lists, group⟩
          rw [done.own, List.mem_filter] at declares
          exact absurd (of_decide_eq_true declares.2) bad
        · exact (fits t').congr (done.others t' same)
      obtain ⟨w', run, own, others⟩ := ih nodup done.one fits' (by
        intro e member
        rw [names e (List.mem_cons_of_mem _ member), declaredNames, declaredNames,
          declared_congr (done.others e.1 (apart e member))])
      refine ⟨w', run, fun e member => ?_, fun t' unlisted => ?_⟩
      · cases List.mem_cons.mp member with
        | inl here =>
            subst here
            rw [declared_congr (others t fresh), done.own]
        | inr inRest =>
            rw [own e inRest, declared_congr (done.others e.1 (apart e inRest))]
      · rw [List.map_cons, List.mem_cons, not_or] at unlisted
        rw [others t' unlisted.2, done.others t' unlisted.1]

variable {o : TickOrders} {rules : List OpenMetricsRule}

theorem removals_declared (single : w.OneTenant)
    (fits : ∀ t, SweepFits (Known r t) t w.cluster.rules)
    (same : ∀ t, (declaredNames w.cluster.rules t).filter (¬ Known r t ·) =
      (declaredNames rules t).filter (¬ Known r t ·)) (t : String) :
    declared ((o.removalsOf (getTenantMapFromRulesList rules) r).foldl
        (fun w p => live.remove p.1 p.2.1.name w) w).cluster.rules t =
      (declared w.cluster.rules t).filter fun g => Known r t g.name := by
  have listed (t : String) : (entriesOf (diffRuleGroups o.origin o.target
      (getTenantMapFromRulesList rules) r).2 t).map (fun g => g.1.name) =
      (declaredNames w.cluster.rules t).filter (¬ Known r t ·) := by
    rw [same, entriesOf_removals, removalsFor, declaredNames, ← groupsOf_tenantMap]
    show _ = (((entriesOf _ t).map Prod.fst).map GroupSpec.name).filter _
    rw [List.map_map, List.filter_map]
    congr 1
    exact List.filter_congr fun g _ => decide_eq_decide.mpr groupNamed_known
  have entry {e : String × List (GroupSpec × Int)} (member : e ∈ o.removals.iter
      (diffRuleGroups o.origin o.target (getTenantMapFromRulesList rules) r).2) :
      e.2 = entriesOf (diffRuleGroups o.origin o.target (getTenantMapFromRulesList rules) r).2 e.1 := by
    rw [entriesOf, o.removals.mem_iter.mp member, Option.getD_some]
  obtain ⟨w', run, own, others⟩ := live.sweep_entries (o.removals.nodup_iter _) single fits
    fun e member => (congrArg _ (entry member)).trans (listed e.1)
  have fold : (o.removalsOf (getTenantMapFromRulesList rules) r).foldl
      (fun w p => live.remove p.1 p.2.1.name w) w = w' := by
    rw [← run, TickOrders.removalsOf, flatten, List.foldl_flatMap]
    simp only [removeAll, List.foldl_map]
  rw [fold]
  by_cases swept : t ∈ (o.removals.iter (diffRuleGroups o.origin o.target
      (getTenantMapFromRulesList rules) r).2).map Prod.fst
  · obtain ⟨e, member, rfl⟩ := List.mem_map.mp swept
    exact own e member
  · have none : entriesOf (diffRuleGroups o.origin o.target
        (getTenantMapFromRulesList rules) r).2 t = [] := by
      refine entriesOf_of_not_mem fun member => swept ?_
      obtain ⟨l, found⟩ := Option.isSome_iff_exists.mp (Finmap.lookup_isSome.mpr member)
      exact List.mem_map_of_mem (f := Prod.fst) (o.removals.mem_iter (k := t).mpr found)
    have known := listed t
    rw [none, List.map_nil, eq_comm, List.filter_eq_nil_iff] at known
    rw [declared_congr (others t swept), List.filter_eq_self.mpr]
    intro g declares
    simpa using known g.name (List.mem_map_of_mem declares)

end Live

end OpenMetrics.Informer
