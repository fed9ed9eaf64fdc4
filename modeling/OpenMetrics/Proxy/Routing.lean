import OpenMetrics.Proxy.Main
import Mathlib.Data.Fintype.EquivFin
import Mathlib.Data.String.Basic

namespace OpenMetrics.Proxy
open Library IngestionTenantController OpenMetricsProxyArgs

variable {κ : Type}

def Allowed (args : OpenMetricsProxyArgs) (tenantLabels : List String) (found : Finset String)
    (t : String) (timeSeries : TimeSeries) : Prop :=
  t ∈ args.replicateTo ∨
    (t ∈ args.replicateTo ∨ t ∈ args.allowedTenants ∨ t ∈ found) ∧ Names tenantLabels timeSeries t

/-- The requests hold the series of the batch for the tenants that may have them, and no tenant
has a request without such a series. -/
def RoutesAllowed (args : OpenMetricsProxyArgs) (tenantLabels : List String)
    (found : Finset String) (batch : List TimeSeries) (tenantData : TenantData) : Prop :=
  ∀ t, (∀ s, (∃ request, tenantData.lookup t = some request ∧ s ∈ request.timeseries) ↔
      s ∈ batch ∧ Allowed args tenantLabels found t s) ∧
    (t ∈ tenantData → ∃ s ∈ batch, Allowed args tenantLabels found t s)

def requests (args : OpenMetricsProxyArgs) (tenantLabels : List String)
    (c : IngestionTenantController κ) (batch : List TimeSeries) : TenantData :=
  aggregate tenantLabels c.getTenants args.usesAllowListing args.replicateTo batch ∅

theorem copies_allowing_ne_zero {tenantLabels allow replicateTo : List String}
    {s : TimeSeries} {t : String} :
    copies tenantLabels allow true replicateTo s t ≠ 0 ↔
      t ∈ replicateTo ∨ t ∈ allow ∧ Names tenantLabels s t := by
  by_cases labelled : t ∈ allow ∧ Names tenantLabels s t
  · simp [copies, labelled]
  · rw [copies, if_pos rfl, if_neg labelled, Nat.zero_add, ← Nat.pos_iff_ne_zero,
      List.count_pos_iff]
    exact ⟨Or.inl, fun h => h.resolve_right labelled⟩

theorem mem_forwarded {tenantData : TenantData} {t : String} {s : TimeSeries} :
    s ∈ forwarded tenantData t ↔
      ∃ request, tenantData.lookup t = some request ∧ s ∈ request.timeseries := by
  cases h : tenantData.lookup t <;> simp [forwarded, h]

theorem mem_forwarded_requests {args : OpenMetricsProxyArgs} {tenantLabels : List String}
    {c : IngestionTenantController κ} {batch : List TimeSeries} {t : String} {s : TimeSeries} :
    s ∈ forwarded (requests args tenantLabels c batch) t ↔
      s ∈ batch ∧ (t ∈ args.replicateTo ∨ t ∈ c.getTenants ∧ Names tenantLabels s t) := by
  rw [requests, forwarded_aggregate, usesAllowListing_eq_true, streamOf, mem_repeated,
    copies_allowing_ne_zero]

theorem routesAllowed_of_allows {args : OpenMetricsProxyArgs} (tenantLabels : List String)
    {c : IngestionTenantController κ} {found : Finset String}
    (allows : Allows c (args.replicateTo ++ args.allowedTenants).toFinset found)
    (batch : List TimeSeries) :
    RoutesAllowed args tenantLabels found batch (requests args tenantLabels c batch) := by
  have reaches (t : String) (s : TimeSeries) :
      s ∈ forwarded (requests args tenantLabels c batch) t ↔
        s ∈ batch ∧ Allowed args tenantLabels found t s := by
    rw [mem_forwarded_requests, allows.mem_getTenants, Allowed]
    simp only [List.toFinset_append, Finset.mem_union, List.mem_toFinset, or_assoc]
  intro t
  refine ⟨fun s => mem_forwarded.symm.trans (reaches t s), fun entry => ?_⟩
  rw [requests, mem_aggregate] at entry
  obtain ⟨s, member⟩ := List.exists_mem_of_ne_nil _ entry
  rw [← forwarded_aggregate] at member
  exact ⟨s, (reaches t s).mp member⟩

theorem routing_contract (args : OpenMetricsProxyArgs) (tenantLabels : List String)
    (order : HashOrder String) (variable_ : Option String) (connect : Option κ)
    (polls : List Poll)
    (connected : polls ≠ [] → 0 < args.kubernetesPollIntervalSeconds ∧ connect.isSome)
    (fits : FitsCounter (args.replicateTo ++ args.allowedTenants).toFinset ∅ polls)
    (batch : List TimeSeries) :
    ∃ c, runPolls polls (startController args order variable_ connect) = some c ∧
      RoutesAllowed args tenantLabels (lastFound ∅ polls) batch
        (requests args tenantLabels c batch) := by
  have client : polls ≠ [] → (startController args order variable_ connect).k8sClient.isSome := by
    intro polled
    obtain ⟨polling, isSome⟩ := connected polled
    simp [startController, polling, isSome]
  obtain ⟨c, run, allows⟩ := runPolls_allows polls
    (startController_allows args order variable_ connect) client fits
  exact ⟨c, run, routesAllowed_of_allows tenantLabels allows batch⟩

theorem routing_contract_two_polls :
    let order := HashOrder.sorted String
    let args : OpenMetricsProxyArgs := { kubernetesPollIntervalSeconds := 120 }
    let polls : List Poll := [⟨.ok {"a"}, order, order⟩, ⟨.ok ∅, order, order⟩]
    let batch : List TimeSeries := [⟨[⟨"tenant_id", "a"⟩], []⟩]
    (0 < args.kubernetesPollIntervalSeconds ∧ (some ()).isSome) ∧
    FitsCounter (args.replicateTo ++ args.allowedTenants).toFinset ∅ polls ∧
    ∃ c, runPolls polls (startController args order none (some ())) = some c ∧
      RoutesAllowed args ["tenant_id"] ∅ batch (requests args ["tenant_id"] c batch) := by
  intro order args polls batch
  have fits : FitsCounter (args.replicateTo ++ args.allowedTenants).toFinset ∅ polls :=
    ⟨by decide, by decide, trivial⟩
  exact ⟨by decide, fits,
    routing_contract args ["tenant_id"] order none (some ()) polls (fun _ => by decide) fits batch⟩

theorem exists_kept_tenant {c : IngestionTenantController κ} {initial first : Finset String}
    (start : Allows c initial ∅) (fresh : c.tenants = ∅) (apart : Disjoint first initial)
    (size : 2 ^ 32 < first.card) (order : HashOrder String) :
    ∃ t ∈ first,
      t ∈ ((c.observe order order first).observe order order (first.erase t)).tenantsVec := by
  obtain ⟨coherent, nodup, members⟩ := observeAdded_spec order start.coherent first
  obtain ⟨rest, vector⟩ := observeAdded_extends order c first
  generalize added : c.observeAdded order first = c₁ at coherent nodup members vector
  have settings : c₁.initialTenants = initial := by
    rw [← added, (observeAdded_edits order c first).initialTenants, start.initialTenants]
  have tenants : c₁.tenants = first := by
    ext t
    rw [members, fresh, start.initialTenants]
    simpa using fun found => Finset.disjoint_left.mp apart found
  have observed : c.observe order order first = c₁ := by
    rw [observe, added, observeRemoved_subset order tenants.le]
  have size₁ : c₁.tenantsVec.length = initial.card + first.card := by
    rw [← List.toFinset_card_of_nodup (nodup start.nodup), coherent.toFinset_tenantsVec, settings,
      tenants, Finset.card_union_of_disjoint apart.symm]
  have size₀ : c.tenantsVec.length = initial.card := by
    rw [start.length_tenantsVec, Finset.union_empty]
  -- the last tenant added stands past the counter
  rcases List.eq_nil_or_concat rest with rfl | ⟨front, t, rfl⟩
  · rw [← vector, List.append_nil] at size₁
    omega
  rw [List.concat_eq_append, ← List.append_assoc] at vector
  have long : 2 ^ 32 ≤ (c.tenantsVec ++ front).length := by
    rw [← vector] at size₁
    simp only [List.length_append, List.length_singleton] at size₁ ⊢
    omega
  have notInitial : t ∉ initial := by
    intro isInitial
    have before : t ∈ c.tenantsVec :=
      start.coherent.initial_listed t (start.initialTenants ▸ isInitial)
    have apart₁ := List.nodup_append.mp (vector ▸ nodup start.nodup)
    exact apart₁.2.2 t (List.mem_append_left _ before) t (List.mem_singleton_self t) rfl
  have found : t ∈ first := by
    have listed : t ∈ c₁.tenantsVec := vector ▸ List.mem_append_right _ (List.mem_singleton_self t)
    rw [coherent.mem_tenantsVec, settings, tenants] at listed
    exact listed.resolve_left notInitial
  refine ⟨t, found, ?_⟩
  rw [observed, ← tenants, observe_erase order order (tenants ▸ found)]
  exact mem_removeTenant_wrapped (settings ▸ notInitial) (tenants ▸ found) vector.symm long

theorem routing_contract_overflow :
    ¬ ∀ (args : OpenMetricsProxyArgs) (tenantLabels : List String) (order : HashOrder String)
      (variable_ : Option String) (connect : Option Unit) (polls : List Poll),
      (polls ≠ [] → 0 < args.kubernetesPollIntervalSeconds ∧ connect.isSome) →
      ∀ batch, ∃ c, runPolls polls (startController args order variable_ connect) = some c ∧
        RoutesAllowed args tenantLabels (lastFound ∅ polls) batch
          (requests args tenantLabels c batch) := by
  intro contract
  let args : OpenMetricsProxyArgs := { kubernetesPollIntervalSeconds := 120 }
  let order := HashOrder.sorted String
  let initial := (args.replicateTo ++ args.allowedTenants).toFinset
  let start := startController args order none (some ())
  have allows : Allows start initial ∅ := startController_allows args order none (some ())
  obtain ⟨all, inside, size⟩ :=
    Infinite.exists_superset_card_eq initial (initial.card + (2 ^ 32 + 1)) (Nat.le_add_right _ _)
  obtain ⟨t, found, kept⟩ := exists_kept_tenant allows
    (startController_tenants args order none (some ())) Finset.sdiff_disjoint
    (by rw [Finset.card_sdiff_of_subset inside, size]; omega) order
  -- the second poll misses `t`, which the vector keeps
  have notInitial : t ∉ initial := (Finset.mem_sdiff.mp found).2
  let polls : List Poll :=
    [⟨.ok (all \ initial), order, order⟩, ⟨.ok ((all \ initial).erase t), order, order⟩]
  let series : TimeSeries := ⟨[⟨"tenant_id", t⟩], []⟩
  obtain ⟨c, run, routes⟩ := contract args ["tenant_id"] order none (some ()) polls
    (fun _ => ⟨by decide, rfl⟩) [series]
  have client : start.k8sClient = some () := rfl
  have ran : runPolls polls start =
      some ((start.observe order order (all \ initial)).observe order order
        ((all \ initial).erase t)) := by
    have edits := observe_edits order order start (all \ initial)
    simp [polls, runPolls, runPoll, controllerIteration, allows.running, client, edits.stopping,
      edits.k8sClient]
  have leaked : series ∈ forwarded (requests args ["tenant_id"] c [series]) t := by
    obtain rfl := Option.some.inj (ran.symm.trans run)
    rw [mem_forwarded_requests]
    exact ⟨by simp, Or.inr ⟨kept, by simp [Names, series]⟩⟩
  obtain ⟨-, allowed⟩ := ((routes t).1 series).mp (mem_forwarded.mp leaked)
  simp only [initial, List.toFinset_append, Finset.mem_union, List.mem_toFinset, not_or]
    at notInitial
  rcases allowed with replicates | ⟨replicates | listed | observed, -⟩
  · exact notInitial.1 replicates
  · exact notInitial.1 replicates
  · exact notInitial.2 listed
  · exact Finset.notMem_erase t _ observed

def ExactlyOnce (tenantLabels allow replicateTo : List String) (batch : List TimeSeries) : Prop :=
  ∀ t, forwarded (aggregate tenantLabels allow true replicateTo batch ∅) t =
    batch.filter fun s => t ∈ replicateTo ∨ t ∈ allow ∧ Names tenantLabels s t

theorem exactlyOnce_iff {tenantLabels allow replicateTo : List String} (batch : List TimeSeries)
    (contains : replicateTo ⊆ allow) :
    ExactlyOnce tenantLabels allow replicateTo batch ↔
      ∀ s ∈ batch, replicateTo.Nodup ∧ ∀ t ∈ replicateTo, ¬ Names tenantLabels s t := by
  have reaches (t : String) : forwarded (aggregate tenantLabels allow true replicateTo batch ∅) t =
        (batch.filter fun s => t ∈ replicateTo ∨ t ∈ allow ∧ Names tenantLabels s t) ↔
      ∀ s ∈ batch, copies tenantLabels allow true replicateTo s t =
        if t ∈ replicateTo ∨ t ∈ allow ∧ Names tenantLabels s t then 1 else 0 := by
    rw [forwarded_aggregate, streamOf, repeated_eq_filter]
    · simp
    · intro s _ authorised
      exact copies_allowing_ne_zero.mpr (by simpa using authorised)
  rw [ExactlyOnce, forall_congr' reaches]
  constructor
  · intro once s member
    have count (t : String) (replicates : t ∈ replicateTo) :
        replicateTo.count t = 1 ∧ ¬ Names tenantLabels s t := by
      have copied := once t s member
      have positive := List.count_pos_iff.mpr replicates
      simp only [copies, if_true, contains replicates, replicates, true_and, true_or] at copied
      by_cases named : Names tenantLabels s t
      · rw [if_pos named] at copied
        omega
      · rw [if_neg named] at copied
        exact ⟨by omega, named⟩
    exact ⟨List.nodup_iff_count_eq_one.mpr fun t replicates => (count t replicates).1,
      fun t replicates => (count t replicates).2⟩
  · intro apart t s member
    obtain ⟨nodup, unnamed⟩ := apart s member
    by_cases replicates : t ∈ replicateTo
    · simp [copies, replicates, unnamed t replicates, nodup.count]
    · simp [copies, replicates, List.count_eq_zero]

theorem exactlyOnce_fails_default :
    ["0"] ⊆ ["0", ""] ∧
      ¬ ExactlyOnce ["tenant_id"] ["0", ""] ["0"] [⟨[⟨"tenant_id", "0"⟩], []⟩] := by
  refine ⟨by decide, fun once => ?_⟩
  have twice := once "0"
  revert twice
  decide

theorem exactlyOnce_label_only :
    ["0"] ⊆ ["0", "a"] ∧
      (ExactlyOnce ["tenant_id"] ["0", "a"] ["0"] [⟨[⟨"tenant_id", "a"⟩], []⟩] ↔
        ∀ s ∈ [(⟨[⟨"tenant_id", "a"⟩], []⟩ : TimeSeries)],
          ["0"].Nodup ∧ ∀ t ∈ ["0"], ¬ Names ["tenant_id"] s t) :=
  ⟨by decide, exactlyOnce_iff _ (by decide)⟩

def ProxiesAll (args : OpenMetricsProxyArgs) (c : IngestionTenantController κ)
    (batch : List TimeSeries) : Prop :=
  ∀ s ∈ batch, ∀ t, t ∈ args.replicateTo ∨ Names args.tenantLabels s t →
    s ∈ forwarded (requests args args.tenantLabels c batch) t

/-- With `--allow-listed-tenants` left empty and no polling, all tenants are proxied just when the
labels name none but the default tenants and the tenant with the empty name. -/
theorem proxiesAll_iff (tenantLabelList defaultTenantList : String)
    (disableFullReplication : Bool) (order : HashOrder String) (variable_ : Option String)
    (connect : Option κ) (batch : List TimeSeries) :
    let args : OpenMetricsProxyArgs :=
      { tenantLabelList, defaultTenantList, disableFullReplication }
    ProxiesAll args (startController args order variable_ connect) batch ↔
      ∀ s ∈ batch, ∀ t, Names args.tenantLabels s t → t ∈ args.replicateTo ∨ t = "" := by
  intro args
  have allows := startController_allows args order variable_ connect
  have listed (t : String) : t ∈ (startController args order variable_ connect).getTenants ↔
      t ∈ args.replicateTo ∨ t = "" := by
    have onlyEmpty : args.allowedTenants = [""] := Text.split_empty ','
    rw [allows.mem_getTenants, onlyEmpty]
    simp [or_comm]
  constructor
  · intro all s member t named
    have sent := all s member t (Or.inr named)
    rw [mem_forwarded_requests, listed] at sent
    exact sent.2.elim Or.inl And.left
  · intro only s member t wanted
    rw [mem_forwarded_requests, listed]
    refine ⟨member, ?_⟩
    cases wanted with
    | inl replicates => exact Or.inl replicates
    | inr named => exact Or.inr ⟨only s member t named, named⟩

theorem proxiesAll_fails_default :
    ¬ ProxiesAll {} (startController {} (HashOrder.sorted String) none (none : Option Unit))
      [⟨[⟨"tenant_id", "a"⟩], []⟩] := by
  intro all
  have sent := all ⟨[⟨"tenant_id", "a"⟩], []⟩ (by decide) "a" (Or.inr (by decide))
  revert sent
  decide

end OpenMetrics.Proxy
