import OpenMetrics.Informer.World

namespace OpenMetrics.Informer
open Library KubeLib

def Frame (t : String) (w w' : World) : Prop :=
  ∀ t', t' ≠ t → groupsOf (getTenantMapFromRulesList w'.cluster.rules) t' =
    groupsOf (getTenantMapFromRulesList w.cluster.rules) t'

def Unshared (t : String) (rule : OpenMetricsRule) : Prop := ∀ t' ∈ rule.spec.tenants, t' = t

variable {t : String} {w w' : World}

theorem frame_exchange {front back : List OpenMetricsRule} (part part' : List OpenMetricsRule)
    (before : w.cluster.rules = front ++ part ++ back)
    (after : w'.cluster.rules = front ++ part' ++ back) :
    Frame t w w' ↔ ∀ t', t' ≠ t → declared part' t' = declared part t' := by
  simp [Frame, groupsOf_tenantMap, before, after, declared_append]

theorem declared_unshared {rule : OpenMetricsRule} (unshared : Unshared t rule) {t' : String}
    (other : t' ≠ t) : declared [rule] t' = [] := by
  have absent : t' ∉ rule.spec.tenants := fun listed => other (unshared t' listed)
  simp [declared, List.count_eq_zero.mpr absent]

theorem flatten_replicate_inj {α : Type} {n : Nat} (positive : n ≠ 0) {l l' : List α} :
    (List.replicate n l).flatten = (List.replicate n l').flatten ↔ l = l' := by
  refine ⟨fun same => ?_, fun same => same ▸ rfl⟩
  have lengths := congrArg List.length same
  simp only [List.length_flatten, List.map_replicate, List.sum_replicate_nat] at lengths
  obtain ⟨m, rfl⟩ := Nat.exists_eq_succ_of_ne_zero positive
  rw [List.replicate_succ, List.replicate_succ, List.flatten_cons, List.flatten_cons] at same
  exact List.append_inj_left same (Nat.eq_of_mul_eq_mul_left (Nat.succ_pos m) lengths)

theorem declared_single_iff (rule rule' : OpenMetricsRule)
    (tenants : rule'.spec.tenants = rule.spec.tenants) :
    (∀ t', t' ≠ t → declared [rule'] t' = declared [rule] t') ↔
      Unshared t rule ∨ rule'.spec.groups = rule.spec.groups := by
  constructor
  · intro same
    by_cases unshared : Unshared t rule
    · exact Or.inl unshared
    · rw [Unshared] at unshared
      push Not at unshared
      obtain ⟨t', listed, other⟩ := unshared
      have copies := same t' other
      simp only [declared, List.flatMap_cons, List.flatMap_nil, List.append_nil, tenants] at copies
      exact Or.inr ((flatten_replicate_inj (List.count_pos_iff.mpr listed).ne').mp copies)
  · intro spares t' other
    cases spares with
    | inl unshared =>
        have unshared' : Unshared t rule' := fun t' listed => unshared t' (tenants ▸ listed)
        rw [declared_unshared unshared other, declared_unshared unshared' other]
    | inr groups => simp [declared, tenants, groups]

theorem declared_gone_iff {rule : OpenMetricsRule} :
    (∀ t', t' ≠ t → [] = declared [rule] t') ↔ Unshared t rule ∨ rule.spec.groups = [] := by
  constructor
  · intro same
    by_cases unshared : Unshared t rule
    · exact Or.inl unshared
    · rw [Unshared] at unshared
      push Not at unshared
      obtain ⟨t', listed, other⟩ := unshared
      refine Or.inr (List.eq_nil_iff_forall_not_mem.mpr fun g member => ?_)
      have declares : g ∈ declared [rule] t' := mem_declared.mpr ⟨rule, by simp, listed, member⟩
      rw [← same t' other] at declares
      exact List.not_mem_nil declares
  · intro spares t' other
    cases spares with
    | inl unshared => rw [declared_unshared unshared other]
    | inr groups => simp [declared, groups]

/-- When a create or update for one group keeps the frame. Where a resource of the tenant holds a
group of the name, that resource must be unshared, or the group that is written over must be the
new one already; else what stands under the computed name must be unshared or empty. -/
def PutSpares (sha1 : String → String) (t : String) (g : GroupSpec)
    (rules : List OpenMetricsRule) : Prop :=
  match firstHolder t g.name rules with
  | some rule => Unshared t rule ∨ rule.spec.groups[(groupIndex g.name rule).toNat]? = some g
  | none => ∀ rule ∈ rules, nameOf rule = some (computedName sha1 t g.name) →
      Unshared t rule ∨ rule.spec.groups = []

def RemoveSpares (t name : String) (rules : List OpenMetricsRule) : Prop :=
  ∀ rule, firstHolder t name rules = some rule → Unshared t rule

variable {live : Live}

theorem apply_frame_iff {name : String} {rule : OpenMetricsRule} {place : Nat}
    (after : w'.cluster = w.cluster.apply place name rule)
    (unshared : Unshared t (Cluster.applied name rule)) :
    Frame t w w' ↔ ∀ old ∈ w.cluster.rules, nameOf old = some name →
      Unshared t old ∨ old.spec.groups = [] := by
  cases found : w.cluster.find name with
  | none =>
      obtain ⟨front, back, before, written⟩ := Cluster.apply_new found place rule
      rw [frame_exchange [] [_] (by simpa using before) (by simpa [after] using written)]
      refine iff_of_true (fun t' other => declared_unshared unshared other) ?_
      intro old member named
      rw [Cluster.find_eq_some.mpr ⟨member, named⟩] at found
      cases found
  | some old =>
      obtain ⟨member, named⟩ := Cluster.find_eq_some.mp found
      obtain ⟨front, back, split⟩ := List.append_of_mem member
      have written := Cluster.apply_over split named place rule
      rw [frame_exchange [old] [_] (by simpa using split) (by simpa [after] using written)]
      have only : (∀ old' ∈ w.cluster.rules, nameOf old' = some name →
          Unshared t old' ∨ old'.spec.groups = []) ↔ Unshared t old ∨ old.spec.groups = [] := by
        refine ⟨fun all => all old member named, fun here old' member' named' => ?_⟩
        obtain rfl := Option.some.inj
          (found.symm.trans (Cluster.find_eq_some.mpr ⟨member', named'⟩))
        exact here
      rw [only, ← declared_gone_iff]
      exact forall₂_congr fun t' other => by rw [declared_unshared unshared other]

theorem put_frame_iff (g : GroupSpec) :
    Frame t w (live.put t g w) ↔ PutSpares live.sha1 t g w.cluster.rules := by
  unfold Live.put PutSpares
  cases found : firstHolder t g.name w.cluster.rules with
  | some rule =>
      obtain ⟨front, back, split, -⟩ := firstHolder_split found
      obtain ⟨name, named⟩ := Option.isSome_iff_exists.mp
        (w.cluster.named rule (firstHolder_mem found))
      have after := Cluster.apply_over split named (live.resourcePlace w)
        (renewed (setGroup rule (groupIndex g.name rule) g))
      simp only [named, Option.getD_some]
      rw [frame_exchange [rule] [_] (by simpa using split) (by simpa using after),
        ← set_eq_self_iff (groupIndex_lt (firstHolder_holds found))]
      exact declared_single_iff rule _ rfl
  | none =>
      apply apply_frame_iff (live.patch_cluster _ _ _)
      exact fun t' listed => List.mem_singleton.mp listed

theorem remove_frame_iff (name : String) :
    Frame t w (live.remove t name w) ↔ RemoveSpares t name w.cluster.rules := by
  unfold Live.remove RemoveSpares
  cases found : firstHolder t name w.cluster.rules with
  | none => exact iff_of_true (fun _ _ => rfl) (by simp)
  | some rule =>
      obtain ⟨front, back, split, -⟩ := firstHolder_split found
      obtain ⟨resourceName, named⟩ := Option.isSome_iff_exists.mp
        (w.cluster.named rule (firstHolder_mem found))
      have inside := groupIndex_lt (firstHolder_holds found)
      simp only [named, Option.getD_some, Option.some.injEq, forall_eq']
      by_cases single : rule.spec.groups.length = 1
      · have after := Cluster.delete_split split named
        have some : rule.spec.groups ≠ [] := fun empty => by simp [empty] at single
        rw [if_pos single, frame_exchange [rule] [] (by simpa using split) (by simpa using after)]
        exact declared_gone_iff.trans (or_iff_left some)
      · have after := Cluster.apply_over split named (live.resourcePlace w)
          (renewed (eraseGroup rule (groupIndex name rule)))
        have shorter : (eraseGroup rule (groupIndex name rule)).spec.groups ≠ rule.spec.groups :=
          fun same => absurd (List.eraseIdx_eq_self.mp same) (Nat.not_le.mpr inside)
        rw [if_neg single, frame_exchange [rule] [_] (by simpa using split) (by simpa using after)]
        exact (declared_single_iff rule (Cluster.applied resourceName
          (renewed (eraseGroup rule (groupIndex name rule)))) rfl).trans (or_iff_left shorter)

theorem tenantFrame_iff (live : Live) (fuel : Nat) (t ns : String) (g : GroupSpec) (w : World) :
    (∃ w', createOrUpdateK8sResource live.k8sClient fuel live.sha1 t ns g w = some ((), w') ∧
      (Frame t w w' ↔ PutSpares live.sha1 t g w.cluster.rules)) ∧
    ∃ w', removeK8sResource live.k8sClient fuel t ns g w = some ((), w') ∧
      (Frame t w w' ↔ RemoveSpares t g.name w.cluster.rules) :=
  ⟨⟨_, Live.createOrUpdate_apply fuel t ns g, put_frame_iff g⟩,
    ⟨_, Live.removeK8s_apply fuel t ns g, remove_frame_iff g.name⟩⟩

def sharedRule : OpenMetricsRule :=
  .new "openmetricsrule"
    { tenants := ["backoffice", "frontend"]
      description := none
      groups := [{ name := "backoffice", interval := none, rules := [] }] }

def sharedWorld : World where
  cluster := { rules := [sharedRule], named := by decide, nodup := by decide }
  ruler := { groups := fun _ => [], nodup := by simp }
  log := []

theorem tenantFrame_fails_shared :
    ∃ w', removeK8sResource (Live.localhost id).k8sClient 0 "backoffice" "default"
        { name := "backoffice", interval := none, rules := [] } sharedWorld = some ((), w') ∧
      ¬ Frame "backoffice" sharedWorld w' := by
  refine ⟨_, Live.removeK8s_apply 0 "backoffice" "default" _, fun frame => ?_⟩
  have lost := frame "frontend" (by decide)
  revert lost
  decide

end OpenMetrics.Informer
