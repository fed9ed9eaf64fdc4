import OpenMetrics.Informer.Ticks

namespace OpenMetrics.Informer
open Library KubeLib

variable {σ : Type}

structure Upload (rules : List OpenMetricsRule) where
  tenantId : String
  group : GroupSpec
  rule : OpenMetricsRule
  resourceName : String
  listed : rule ∈ rules
  tenant : tenantId ∈ rule.spec.tenants
  declares : group ∈ rule.spec.groups
  named : nameOf rule = some resourceName

def Upload.calls {rules : List OpenMetricsRule} (upload : Upload rules) : List Call :=
  [.post upload.tenantId upload.group, .patch upload.resourceName (renewed upload.rule)]

def Uploaded (rules : List OpenMetricsRule) (log : List Call) : Prop :=
  ∃ uploads : List (Upload rules), log = uploads.flatMap Upload.calls

namespace Setup

def recorded (i : Setup σ) : Setup (σ × List Call) where
  k8sClient :=
    { list := fun ns token => Act.logged [] (i.k8sClient.list ns token)
      patch := fun ns name rule => Act.logged [.patch name rule] (i.k8sClient.patch ns name rule)
      delete := fun ns name => Act.logged [.deleteResource name] (i.k8sClient.delete ns name) }
  rulerClient :=
    { get := fun url t => Act.logged [] (i.rulerClient.get url t)
      post := fun url t g => Act.logged [.post t g] (i.rulerClient.post url t g)
      delete := fun url t => Act.logged [] (i.rulerClient.delete url t) }
  distributorClient := { get := fun url => Act.logged [] (i.distributorClient.get url) }
  rulerApiUrl := i.rulerApiUrl
  distributorApiUrl := i.distributorApiUrl
  namespace_ := i.namespace_
  sha1 := i.sha1
  fuel := i.fuel

structure Answers (i : Setup σ) : Prop where
  post : ∀ url t g, Act.Returns (i.rulerClient.post url t g)
  deleteGroup : ∀ url t, Act.Returns (i.rulerClient.delete url t)
  patch : ∀ ns name rule, Act.Returns (i.k8sClient.patch ns name rule)

variable {i : Setup σ} {o : TickOrders} {rules : List OpenMetricsRule} {r : TenantGroups}

theorem syncToRuler_induction (P : Act σ Unit → Prop) (done : P (pure ()))
    (chain : ∀ x y, P x → P y → P (x >>= fun _ => y))
    (loop : ∀ (α : Type) (body : α → Act σ Unit) (l : List α), (∀ a ∈ l, P (body a)) →
      P (l.forM body))
    (uploads : ∀ p ∈ o.updatesOf r (getTenantMapFromRulesList rules),
      P (i.uploadGroup rules p.1 p.2))
    (removals : ∀ t g, P (removeRulerRule i.rulerClient i.rulerApiUrl t i.namespace_ g))
    (skip : Bool) : P (i.syncToRuler o skip rules r) := by
  unfold syncToRuler
  apply chain
  · apply loop
    intro entry listed
    apply loop
    intro e member
    exact uploads (entry.1, e) (List.mem_flatMap.mpr ⟨entry, listed, List.mem_map_of_mem member⟩)
  · cases skip with
    | true => exact done
    | false =>
        apply loop
        intro entry _
        apply loop
        intro e _
        exact removals entry.1 e.1

theorem syncToRuler_returns (answers : i.Answers) (named : ∀ rule ∈ rules, (nameOf rule).isSome)
    (skip : Bool) : Act.Returns (i.syncToRuler o skip rules r) := by
  apply syncToRuler_induction Act.Returns
  · exact fun _ => rfl
  · exact fun x y first rest => Act.returns_bind first fun _ => rest
  · exact fun _ _ _ => Act.returns_forM
  · intro p update
    obtain ⟨rule, -, code⟩ := i.uploadGroup_listed named update
    rw [code]
    apply Act.returns_bind
    · exact Act.returns_bind (answers.post _ _ _) fun _ _ => rfl
    · exact fun _ => Act.returns_bind (answers.patch _ _ _) fun _ _ => rfl
  · exact fun t g => Act.returns_bind (answers.deleteGroup _ _) fun _ _ => rfl

theorem uploadGroup_follows (i : Setup σ) (rules : List OpenMetricsRule) (t : String)
    (e : GroupSpec × Int) :
    Act.Follows (i.recorded.uploadGroup rules t e) (i.uploadGroup rules t e) := by
  apply Act.follows_bind
  · exact Act.follows_bind (Act.follows_logged _ _) fun _ => Act.follows_pure ()
  · intro _
    by_cases indexed : 0 ≤ e.2
    · simp only [indexed, if_true]
      refine Act.follows_bind (Act.follows_unwrap _) fun rule => ?_
      refine Act.follows_bind (Act.follows_unwrap _) fun name => ?_
      exact Act.follows_bind (Act.follows_logged _ _) fun _ => Act.follows_pure ()
    · simp only [indexed, if_false]
      exact Act.follows_pure ()

theorem syncToRuler_follows (i : Setup σ) (o : TickOrders) (skip : Bool)
    (rules : List OpenMetricsRule) (r : TenantGroups) :
    Act.Follows (i.recorded.syncToRuler o skip rules r) (i.syncToRuler o skip rules r) := by
  unfold syncToRuler
  apply Act.follows_bind
  · apply Act.follows_forM
    intro entry _
    apply Act.follows_forM
    intro e _
    exact uploadGroup_follows i rules entry.1 e
  · intro _
    cases skip with
    | true => exact Act.follows_pure ()
    | false =>
        apply Act.follows_forM
        intro entry _
        apply Act.follows_forM
        intro e _
        exact Act.follows_bind (Act.follows_logged _ _) fun _ => Act.follows_pure ()

theorem uploadGroup_recorded {p : String × GroupSpec × Int}
    (update : p ∈ o.updatesOf r (getTenantMapFromRulesList rules)) :
    Act.Keeps (fun s : σ × List Call => Uploaded rules s.2)
      (i.recorded.uploadGroup rules p.1 p.2) := by
  intro s result before run
  rcases before with ⟨uploads, earlier⟩
  obtain ⟨k, rule, index, found, tenant, declares⟩ := exists_declaring (mem_flatten.mp update)
  rw [uploadGroup, Act.bind_apply, Option.bind_eq_some_iff] at run
  obtain ⟨posted, post, run⟩ := run
  simp only [index, Int.natCast_nonneg, if_true, Int.toNat_natCast, found, Act.unwrap_some,
    pure_bind] at run
  cases named : rule.metadata.name with
  | none =>
      rw [named] at run
      exact absurd run.symm (Option.some_ne_none _)
  | some name =>
      rw [named, Act.unwrap_some, pure_bind] at run
      have afterPost : posted.2.2 = s.2 ++ [.post p.1 p.2.1] := Act.logged_log post
      have afterPatch : result.2.2 = posted.2.2 ++ [.patch name (renewed rule)] :=
        Act.logged_log run
      let upload : Upload rules :=
        ⟨p.1, p.2.1, rule, name, List.mem_of_getElem? found, tenant, declares, named⟩
      refine ⟨uploads ++ [upload], ?_⟩
      rw [afterPatch, afterPost, earlier, List.flatMap_append, List.append_assoc]
      rfl

theorem syncToRuler_recorded (i : Setup σ) (o : TickOrders) (skip : Bool)
    (rules : List OpenMetricsRule) (r : TenantGroups) :
    Act.Keeps (fun s : σ × List Call => Uploaded rules s.2)
      (i.recorded.syncToRuler o skip rules r) := by
  apply syncToRuler_induction (Act.Keeps fun s : σ × List Call => Uploaded rules s.2)
  · exact Act.keeps_pure ()
  · exact fun x y first rest => Act.keeps_bind first fun _ => rest
  · exact fun _ _ _ => Act.keeps_forM
  · exact fun p update => uploadGroup_recorded update
  · intro t g s result before run
    have afterDelete : result.2.2 = s.2 ++ [] := Act.logged_log run
    rw [afterDelete, List.append_nil]
    exact before

end Setup

theorem resource_indices_survive (i : Setup σ) (o : TickOrders) (skip : Bool)
    (rules : List OpenMetricsRule) (r : TenantGroups) :
    (∀ t g idx, (g, idx) ∈ entriesOf (diffRuleGroups o.origin o.target r
        (getTenantMapFromRulesList rules)).1 t →
      0 ≤ idx ∧ idx < rules.length ∧ ∃ rule, rules[idx.toNat]? = some rule ∧
        t ∈ rule.spec.tenants ∧ g ∈ rule.spec.groups) ∧
    (i.Answers → (∀ rule ∈ rules, (nameOf rule).isSome) →
      Act.Returns (i.syncToRuler o skip rules r)) ∧
    (∀ s s', i.syncToRuler o skip rules r s = some ((), s') → ∃ uploads : List (Upload rules),
      i.recorded.syncToRuler o skip rules r (s, []) =
        some ((), s', uploads.flatMap Upload.calls)) := by
  refine ⟨?_, fun answers named => Setup.syncToRuler_returns answers named skip, ?_⟩
  · intro t g idx update
    obtain ⟨k, rule, index, found, tenant, declares⟩ := exists_declaring update
    obtain ⟨inside, -⟩ := List.getElem?_eq_some_iff.mp found
    have position : idx = k := index
    subst position
    exact ⟨Int.natCast_nonneg k, Int.ofNat_lt.mpr inside, rule, found, tenant, declares⟩
  · intro s s' run
    rw [← Setup.syncToRuler_follows i o skip rules r s []] at run
    obtain ⟨result, recorded, same⟩ := Option.map_eq_some_iff.mp run
    obtain ⟨uploads, log⟩ : Uploaded rules result.2.2 :=
      Setup.syncToRuler_recorded i o skip rules r (s, []) result ⟨[], rfl⟩ recorded
    refine ⟨uploads, recorded.trans ?_⟩
    rw [← log, ← (Prod.mk.inj same).2]

end OpenMetrics.Informer
