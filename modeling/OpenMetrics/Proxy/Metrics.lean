import OpenMetrics.Library.HashOrder
import Mathlib.Data.UInt

/-! `proxy/src/metrics/metrics.rs` -/

namespace OpenMetrics.Proxy
open Library

structure Label where
  name : String
  value : String
  deriving DecidableEq, Repr

/-- The proxy only copies samples, so the value is kept as the bits of the double. -/
structure Sample where
  value : UInt64
  timestamp : Int64
  deriving DecidableEq

structure TimeSeries where
  labels : List Label
  samples : List Sample
  deriving DecidableEq

inductive MetricType where
  | unknown | counter | gauge | histogram | gaugehistogram | summary | info | stateset
  deriving DecidableEq, Repr

structure MetricMetadata where
  type : MetricType
  metricFamilyName : String
  help : String
  unit : String
  deriving DecidableEq, Repr

structure WriteRequest where
  timeseries : List TimeSeries := []
  metadata : List MetricMetadata := []
  deriving DecidableEq

abbrev TenantData := HashMap String WriteRequest

def processTimeSerieForTenant (timeSeries : TimeSeries) (tenantId : String)
    (tenantData : TenantData) (visitedTenants : List String) : TenantData × List String :=
  let tenantData :=
    if tenantId ∈ tenantData then tenantData else tenantData.insert tenantId {}
  let request := (tenantData.lookup tenantId).getD {}
  (tenantData.insert tenantId { request with timeseries := request.timeseries ++ [timeSeries] },
    visitedTenants ++ [tenantId])

structure LabelScan where
  labelTenants : List String := []
  tenantsDetected : UInt16 := 0
  labelsDetected : UInt16 := 0

def scanLabel (label : Label) (scan : LabelScan) (tenantLabel : String) : LabelScan :=
  let scan := { scan with labelsDetected := scan.labelsDetected + 1 }
  if tenantLabel = label.name then
    { scan with
      labelTenants := scan.labelTenants ++ [label.value]
      tenantsDetected := scan.tenantsDetected + 1 }
  else scan

def scanLabels (tenantLabels : List String) (labels : List Label) : LabelScan :=
  labels.foldl (fun scan label => tenantLabels.foldl (scanLabel label) scan) {}

/-- The three tenant loops of `process_time_serie`, which differ in the test they make before they
forward. -/
def forwardTo (timeSeries : TimeSeries) (keep : String → List String → Bool)
    (acc : TenantData × List String) (tenants : List String) : TenantData × List String :=
  tenants.foldl (fun acc tenantId =>
    if keep tenantId acc.2 then processTimeSerieForTenant timeSeries tenantId acc.1 acc.2
    else acc) acc

def processTimeSerie (timeSeries : TimeSeries) (tenantLabels allowListedTenants : List String)
    (doesAllowList : Bool) (replicateTo : List String) (tenantData : TenantData) :
    TenantData × UInt16 × UInt16 :=
  let scan := scanLabels tenantLabels timeSeries.labels
  let forwarded :=
    if doesAllowList then
      let labelled := forwardTo timeSeries
        (fun tenantId visited => tenantId ∈ scan.labelTenants ∧ tenantId ∉ visited)
        (tenantData, []) allowListedTenants
      -- the replication loop pushes without a look at the visited tenants
      forwardTo timeSeries (fun _ _ => true) labelled replicateTo
    else
      forwardTo timeSeries (fun tenantId visited => tenantId ∉ visited) (tenantData, [])
        (replicateTo ++ scan.labelTenants)
  (forwarded.1, scan.tenantsDetected, scan.labelsDetected)

def Names (tenantLabels : List String) (timeSeries : TimeSeries) (tenantId : String) : Prop :=
  ∃ label ∈ timeSeries.labels, label.name ∈ tenantLabels ∧ label.value = tenantId

instance (tenantLabels : List String) (timeSeries : TimeSeries) (tenantId : String) :
    Decidable (Names tenantLabels timeSeries tenantId) :=
  inferInstanceAs (Decidable (∃ label ∈ timeSeries.labels, _))

theorem scanLabel_foldl_labelTenants (label : Label) (tenantLabels : List String)
    (scan : LabelScan) :
    (tenantLabels.foldl (scanLabel label) scan).labelTenants =
      scan.labelTenants ++ (tenantLabels.filter (· = label.name)).map fun _ => label.value := by
  induction tenantLabels generalizing scan with
  | nil => simp
  | cons tenantLabel rest ih =>
      rw [List.foldl_cons, ih]
      by_cases same : tenantLabel = label.name <;> simp [scanLabel, same]

theorem scanLabels_labelTenants (tenantLabels : List String) (labels : List Label) :
    (scanLabels tenantLabels labels).labelTenants =
      labels.flatMap fun label =>
        (tenantLabels.filter (· = label.name)).map fun _ => label.value := by
  have scanned (scan : LabelScan) :
      (labels.foldl (fun scan label => tenantLabels.foldl (scanLabel label) scan) scan).labelTenants =
        scan.labelTenants ++ labels.flatMap fun label =>
          (tenantLabels.filter (· = label.name)).map fun _ => label.value := by
    induction labels generalizing scan with
    | nil => simp
    | cons label rest ih =>
        rw [List.foldl_cons, ih, scanLabel_foldl_labelTenants, List.flatMap_cons, List.append_assoc]
  exact scanned {}

theorem mem_labelTenants {tenantLabels : List String} {timeSeries : TimeSeries} {t : String} :
    t ∈ (scanLabels tenantLabels timeSeries.labels).labelTenants ↔ Names tenantLabels timeSeries t := by
  simp only [scanLabels_labelTenants, List.mem_flatMap, List.mem_map, List.mem_filter,
    decide_eq_true_eq, Names]
  constructor
  · intro found
    rcases found with ⟨label, member, _, ⟨listed, rfl⟩, value⟩
    exact ⟨label, member, listed, value⟩
  · intro names
    rcases names with ⟨label, member, listed, value⟩
    exact ⟨label, member, label.name, ⟨listed, rfl⟩, value⟩

def deliver (request : Option WriteRequest) (series : List TimeSeries) : Option WriteRequest :=
  if series = [] then request
  else some { request.getD {} with timeseries := (request.getD {}).timeseries ++ series }

@[simp] theorem deliver_nil (request : Option WriteRequest) : deliver request [] = request :=
  if_pos rfl

theorem deliver_append (request : Option WriteRequest) (first second : List TimeSeries) :
    deliver (deliver request first) second = deliver request (first ++ second) := by
  cases first <;> cases second <;> simp [deliver]

def Forwarded (timeSeries : TimeSeries) (base : TenantData) (acc : TenantData × List String) : Prop :=
  ∀ t, acc.1.lookup t = deliver (base.lookup t) (List.replicate (acc.2.count t) timeSeries)

theorem Forwarded.forTenant {timeSeries : TimeSeries} {base : TenantData}
    {acc : TenantData × List String} (h : Forwarded timeSeries base acc) (tenantId : String) :
    Forwarded timeSeries base (processTimeSerieForTenant timeSeries tenantId acc.1 acc.2) := by
  intro t
  by_cases same : t = tenantId
  · subst same
    have pushed : (processTimeSerieForTenant timeSeries t acc.1 acc.2).1.lookup t =
        deliver (acc.1.lookup t) [timeSeries] := by
      by_cases known : t ∈ acc.1 <;>
        simp [processTimeSerieForTenant, deliver, known, Finmap.lookup_eq_none.mpr]
    rw [pushed, h t, deliver_append]
    simp [processTimeSerieForTenant, List.count_append, List.replicate_add]
  · have other : (processTimeSerieForTenant timeSeries tenantId acc.1 acc.2).1.lookup t =
        acc.1.lookup t := by
      by_cases known : tenantId ∈ acc.1 <;>
        simp [processTimeSerieForTenant, known, Finmap.lookup_insert_of_ne _ same]
    rw [other, h t]
    simp [processTimeSerieForTenant, List.count_append, Ne.symm same]

@[simp] theorem forwardTo_nil (timeSeries : TimeSeries) (keep : String → List String → Bool)
    (acc : TenantData × List String) : forwardTo timeSeries keep acc [] = acc := rfl

@[simp] theorem forwardTo_cons (timeSeries : TimeSeries) (keep : String → List String → Bool)
    (acc : TenantData × List String) (tenantId : String) (rest : List String) :
    forwardTo timeSeries keep acc (tenantId :: rest) =
      forwardTo timeSeries keep (if keep tenantId acc.2 then
        processTimeSerieForTenant timeSeries tenantId acc.1 acc.2 else acc) rest := rfl

theorem Forwarded.forwardTo {timeSeries : TimeSeries} {base : TenantData}
    {acc : TenantData × List String} (h : Forwarded timeSeries base acc)
    (keep : String → List String → Bool) (tenants : List String) :
    Forwarded timeSeries base (forwardTo timeSeries keep acc tenants) := by
  induction tenants generalizing acc with
  | nil => exact h
  | cons tenantId rest ih =>
      rw [forwardTo_cons]
      apply ih
      split
      · exact h.forTenant tenantId
      · exact h

theorem forwardTo_visited_all (timeSeries : TimeSeries) (acc : TenantData × List String)
    (tenants : List String) :
    (forwardTo timeSeries (fun _ _ => true) acc tenants).2 = acc.2 ++ tenants := by
  induction tenants generalizing acc with
  | nil => simp
  | cons tenantId rest ih =>
      rw [forwardTo_cons, if_pos rfl, ih]
      simp [processTimeSerieForTenant]

theorem forwardTo_visited_new (timeSeries : TimeSeries) (wanted : String → Prop)
    [DecidablePred wanted] (acc : TenantData × List String) (tenants : List String)
    (nodup : acc.2.Nodup) :
    let visited := (forwardTo timeSeries (fun t seen => wanted t ∧ t ∉ seen) acc tenants).2
    visited.Nodup ∧ ∀ t, t ∈ visited ↔ t ∈ acc.2 ∨ t ∈ tenants ∧ wanted t := by
  induction tenants generalizing acc with
  | nil => simpa using nodup
  | cons tenantId rest ih =>
      rw [forwardTo_cons]
      by_cases new : wanted tenantId ∧ tenantId ∉ acc.2
      · rw [if_pos (decide_eq_true new)]
        have fresh : (acc.2 ++ [tenantId]).Nodup := by
          rw [← List.concat_eq_append]
          exact nodup.concat new.2
        obtain ⟨nodup', visited⟩ :=
          ih (processTimeSerieForTenant timeSeries tenantId acc.1 acc.2) fresh
        refine ⟨nodup', fun t => (visited t).trans ?_⟩
        simp only [processTimeSerieForTenant, List.mem_append, List.mem_cons, List.not_mem_nil,
          or_false]
        constructor
        · intro either
          rcases either with (seen | rfl) | later
          · exact Or.inl seen
          · exact Or.inr ⟨Or.inl rfl, new.1⟩
          · exact Or.inr ⟨Or.inr later.1, later.2⟩
        · intro either
          rcases either with seen | ⟨rfl | later, test⟩
          · exact Or.inl (Or.inl seen)
          · exact Or.inl (Or.inr rfl)
          · exact Or.inr ⟨later, test⟩
      · rw [if_neg (by simpa using new)]
        obtain ⟨nodup', visited⟩ := ih acc nodup
        refine ⟨nodup', fun t => (visited t).trans ?_⟩
        simp only [List.mem_cons]
        constructor
        · intro either
          rcases either with seen | later
          · exact Or.inl seen
          · exact Or.inr ⟨Or.inr later.1, later.2⟩
        · intro either
          rcases either with seen | ⟨rfl | later, test⟩
          · exact Or.inl seen
          · exact Or.inl (by_contra fun unseen => new ⟨test, unseen⟩)
          · exact Or.inr ⟨later, test⟩

theorem forwardTo_count_new (timeSeries : TimeSeries) (wanted : String → Prop)
    [DecidablePred wanted] (tenantData : TenantData) (tenants : List String) (t : String) :
    (forwardTo timeSeries (fun t seen => wanted t ∧ t ∉ seen) (tenantData, []) tenants).2.count t =
      if t ∈ tenants ∧ wanted t then 1 else 0 := by
  obtain ⟨nodup, visited⟩ :=
    forwardTo_visited_new timeSeries wanted (tenantData, []) tenants List.nodup_nil
  simp only [nodup.count, visited, List.not_mem_nil, false_or]

def copies (tenantLabels allowListedTenants : List String) (doesAllowList : Bool)
    (replicateTo : List String) (timeSeries : TimeSeries) (t : String) : Nat :=
  if doesAllowList then
    (if t ∈ allowListedTenants ∧ Names tenantLabels timeSeries t then 1 else 0) + replicateTo.count t
  else if t ∈ replicateTo ∨ Names tenantLabels timeSeries t then 1 else 0

theorem processTimeSerie_lookup (timeSeries : TimeSeries)
    (tenantLabels allowListedTenants : List String) (doesAllowList : Bool)
    (replicateTo : List String) (tenantData : TenantData) (t : String) :
    (processTimeSerie timeSeries tenantLabels allowListedTenants doesAllowList replicateTo
      tenantData).1.lookup t =
    deliver (tenantData.lookup t) (List.replicate
      (copies tenantLabels allowListedTenants doesAllowList replicateTo timeSeries t) timeSeries) := by
  have start : Forwarded timeSeries tenantData (tenantData, []) := fun t => by simp
  cases doesAllowList with
  | true =>
      have labelled := start.forwardTo (fun t visited =>
        t ∈ (scanLabels tenantLabels timeSeries.labels).labelTenants ∧ t ∉ visited)
        allowListedTenants
      have replicated := labelled.forwardTo (fun _ _ => true) replicateTo t
      rw [forwardTo_visited_all, List.count_append, forwardTo_count_new timeSeries
        (· ∈ (scanLabels tenantLabels timeSeries.labels).labelTenants)] at replicated
      simp only [copies, if_true, ← mem_labelTenants]
      exact replicated
  | false =>
      have chained := start.forwardTo (fun t visited => True ∧ t ∉ visited)
        (replicateTo ++ (scanLabels tenantLabels timeSeries.labels).labelTenants) t
      rw [forwardTo_count_new timeSeries fun _ => True] at chained
      simp only [true_and, and_true, List.mem_append, mem_labelTenants] at chained
      exact chained

def labelPairs (tenantLabels : List String) (labels : List Label) : List (Label × String) :=
  labels ×ˢ tenantLabels

def namedPairs (tenantLabels : List String) (labels : List Label) : List (Label × String) :=
  (labelPairs tenantLabels labels).filter fun pair => pair.2 = pair.1.name

theorem scanLabel_foldl_counters (label : Label) (tenantLabels : List String) (scan : LabelScan) :
    (tenantLabels.foldl (scanLabel label) scan).tenantsDetected =
        scan.tenantsDetected + UInt16.ofNat (tenantLabels.filter (· = label.name)).length ∧
      (tenantLabels.foldl (scanLabel label) scan).labelsDetected =
        scan.labelsDetected + UInt16.ofNat tenantLabels.length := by
  induction tenantLabels generalizing scan with
  | nil => simp
  | cons tenantLabel rest ih =>
      obtain ⟨tenants, labels⟩ := ih (scanLabel label scan tenantLabel)
      rw [List.foldl_cons, tenants, labels, List.length_cons, UInt16.ofNat_add]
      by_cases same : tenantLabel = label.name
      · rw [List.filter_cons_of_pos (by simpa using same), List.length_cons, UInt16.ofNat_add]
        simp only [scanLabel, same, if_true]
        exact ⟨by ac_rfl, by ac_rfl⟩
      · rw [List.filter_cons_of_neg (by simpa using same)]
        simp only [scanLabel, same, if_false]
        exact ⟨trivial, by ac_rfl⟩

theorem scanLabels_counters (tenantLabels : List String) (labels : List Label) :
    (scanLabels tenantLabels labels).tenantsDetected =
        UInt16.ofNat (namedPairs tenantLabels labels).length ∧
      (scanLabels tenantLabels labels).labelsDetected =
        UInt16.ofNat (labelPairs tenantLabels labels).length := by
  have scanned (scan : LabelScan) :
      let result := labels.foldl (fun scan label => tenantLabels.foldl (scanLabel label) scan) scan
      result.tenantsDetected =
          scan.tenantsDetected + UInt16.ofNat (namedPairs tenantLabels labels).length ∧
        result.labelsDetected =
          scan.labelsDetected + UInt16.ofNat (labelPairs tenantLabels labels).length := by
    induction labels generalizing scan with
    | nil => simp [namedPairs, labelPairs]
    | cons label rest ih =>
        have pairs : labelPairs tenantLabels (label :: rest) =
            tenantLabels.map (label, ·) ++ labelPairs tenantLabels rest := List.product_cons ..
        have named : namedPairs tenantLabels (label :: rest) =
            (tenantLabels.filter (· = label.name)).map (label, ·) ++
              namedPairs tenantLabels rest := by
          rw [namedPairs, pairs, List.filter_append, List.filter_map]
          rfl
        obtain ⟨tenants, detected⟩ := scanLabel_foldl_counters label tenantLabels scan
        obtain ⟨tenants', detected'⟩ := ih (tenantLabels.foldl (scanLabel label) scan)
        rw [named, pairs, List.length_append, List.length_append, List.length_map, List.length_map,
          UInt16.ofNat_add, UInt16.ofNat_add, ← UInt16.add_assoc, ← UInt16.add_assoc, ← tenants,
          ← detected]
        exact ⟨tenants', detected'⟩
  simpa [scanLabels] using scanned {}

theorem processTimeSerie_counters (timeSeries : TimeSeries)
    (tenantLabels allowListedTenants : List String) (doesAllowList : Bool)
    (replicateTo : List String) (tenantData : TenantData) :
    (processTimeSerie timeSeries tenantLabels allowListedTenants doesAllowList replicateTo
      tenantData).2 = (UInt16.ofNat (namedPairs tenantLabels timeSeries.labels).length,
        UInt16.ofNat (labelPairs tenantLabels timeSeries.labels).length) := by
  obtain ⟨tenants, labels⟩ := scanLabels_counters tenantLabels timeSeries.labels
  rw [← tenants, ← labels]
  rfl

theorem toNat_ofNat_eq {n : Nat} : (UInt16.ofNat n).toNat = n ↔ n < 2 ^ 16 := by
  rw [UInt16.toNat_ofNat']
  exact Nat.mod_eq_iff_lt (Nat.two_pow_pos 16).ne'

theorem counters_exact_iff (timeSeries : TimeSeries) (tenantLabels allowListedTenants : List String)
    (doesAllowList : Bool) (replicateTo : List String) (tenantData : TenantData) :
    let counters := (processTimeSerie timeSeries tenantLabels allowListedTenants doesAllowList
      replicateTo tenantData).2
    counters.1.toNat = (namedPairs tenantLabels timeSeries.labels).length ∧
        counters.2.toNat = (labelPairs tenantLabels timeSeries.labels).length ↔
      timeSeries.labels.length * tenantLabels.length < 2 ^ 16 := by
  intro counters
  have all : (labelPairs tenantLabels timeSeries.labels).length =
      timeSeries.labels.length * tenantLabels.length := List.length_product ..
  have fewer : (namedPairs tenantLabels timeSeries.labels).length ≤
      (labelPairs tenantLabels timeSeries.labels).length := List.length_filter_le ..
  rw [show counters = _ from processTimeSerie_counters .., toNat_ofNat_eq, toNat_ofNat_eq, ← all]
  exact ⟨fun fit => fit.2, fun fits => ⟨fewer.trans_lt fits, fits⟩⟩

theorem counters_wrapped :
    let timeSeries : TimeSeries := ⟨List.replicate 65536 ⟨"job", "node"⟩, []⟩
    let counters := (processTimeSerie timeSeries ["tenant_id"] [] false [] ∅).2
    counters.2.toNat = 0 ∧
      ¬ (counters.1.toNat = (namedPairs ["tenant_id"] timeSeries.labels).length ∧
        counters.2.toNat = (labelPairs ["tenant_id"] timeSeries.labels).length) := by
  intro timeSeries counters
  have pairs : (labelPairs ["tenant_id"] timeSeries.labels).length = 65536 := by
    rw [labelPairs, List.length_product, List.length_replicate, List.length_singleton]
  have wrapped : counters.2.toNat = 0 := by
    rw [show counters = _ from processTimeSerie_counters .., pairs]
    rfl
  refine ⟨wrapped, fun right => ?_⟩
  rw [wrapped, pairs] at right
  exact absurd right.2 (Nat.succ_ne_zero 65535).symm

end OpenMetrics.Proxy
