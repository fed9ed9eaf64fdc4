import OpenMetrics.Library.Multiplicity
import OpenMetrics.Proxy.Metrics
import Mathlib.Data.String.Basic

/-! `proxy/src/forward/forward.rs`. `aggregate` and `appendMetadata` are the first two loops of
`process_proxy_payload`. -/

namespace OpenMetrics.Proxy
open Library

def aggregate (tenantLabels allowListedTenants : List String) (doesAllowList : Bool)
    (replicateTo : List String) (batch : List TimeSeries) (tenantData : TenantData) : TenantData :=
  batch.foldl (fun tenantData timeSeries =>
    (processTimeSerie timeSeries tenantLabels allowListedTenants doesAllowList replicateTo
      tenantData).1) tenantData

def pushMetadata (metadata : MetricMetadata) (req : WriteRequest) : WriteRequest :=
  { req with metadata := req.metadata ++ [metadata] }

/-- `order` is that of `tenant_data.values_mut()`. -/
def appendMetadata (order : HashOrder String) (metadata : List MetricMetadata)
    (tenantData : TenantData) : TenantData :=
  metadata.foldl (fun tenantData metadata =>
    (order.iter tenantData).foldl (fun tenantData entry =>
      tenantData.insert entry.1 (pushMetadata metadata entry.2)) tenantData) tenantData

def writeRequests (order : HashOrder String) (tenantLabels allowListedTenants : List String)
    (doesAllowList : Bool) (replicateTo : List String) (writeRequest : WriteRequest) : TenantData :=
  appendMetadata order writeRequest.metadata
    (aggregate tenantLabels allowListedTenants doesAllowList replicateTo writeRequest.timeseries ∅)

section
variable (tenantLabels allowListedTenants : List String) (doesAllowList : Bool)
  (replicateTo : List String)

def streamOf (batch : List TimeSeries) (t : String) : List TimeSeries :=
  repeated (fun timeSeries =>
    copies tenantLabels allowListedTenants doesAllowList replicateTo timeSeries t) batch

theorem aggregate_lookup (batch : List TimeSeries) (tenantData : TenantData) (t : String) :
    (aggregate tenantLabels allowListedTenants doesAllowList replicateTo batch tenantData).lookup t =
      deliver (tenantData.lookup t)
        (streamOf tenantLabels allowListedTenants doesAllowList replicateTo batch t) := by
  induction batch generalizing tenantData with
  | nil => rfl
  | cons timeSeries rest ih =>
      have step := ih (processTimeSerie timeSeries tenantLabels allowListedTenants doesAllowList
        replicateTo tenantData).1
      rw [processTimeSerie_lookup, deliver_append] at step
      exact step

def forwarded (tenantData : TenantData) (t : String) : List TimeSeries :=
  ((tenantData.lookup t).map WriteRequest.timeseries).getD []

theorem forwarded_aggregate (batch : List TimeSeries) (t : String) :
    forwarded (aggregate tenantLabels allowListedTenants doesAllowList replicateTo batch ∅) t =
      streamOf tenantLabels allowListedTenants doesAllowList replicateTo batch t := by
  rw [forwarded, aggregate_lookup, Finmap.lookup_empty]
  by_cases empty : streamOf tenantLabels allowListedTenants doesAllowList replicateTo batch t = []
  · simp [empty]
  · simp [deliver, empty]

theorem mem_aggregate {batch : List TimeSeries} {t : String} :
    t ∈ aggregate tenantLabels allowListedTenants doesAllowList replicateTo batch ∅ ↔
      streamOf tenantLabels allowListedTenants doesAllowList replicateTo batch t ≠ [] := by
  rw [← Finmap.lookup_isSome, aggregate_lookup, Finmap.lookup_empty]
  by_cases empty : streamOf tenantLabels allowListedTenants doesAllowList replicateTo batch t = []
  · simp [empty]
  · simp [deliver, empty]

end

theorem appendMetadata_lookup (order : HashOrder String) (metadata : List MetricMetadata)
    (tenantData : TenantData) (t : String) :
    (appendMetadata order metadata tenantData).lookup t =
      (tenantData.lookup t).map fun req => { req with metadata := req.metadata ++ metadata } := by
  induction metadata generalizing tenantData with
  | nil => simp [appendMetadata]
  | cons first rest ih =>
      have pushed := ih ((order.iter tenantData).foldl (fun tenantData entry =>
        tenantData.insert entry.1 (pushMetadata first entry.2)) tenantData)
      have values := order.lookup_merge_all (fun _ req => pushMetadata first req) tenantData
        tenantData t
      refine (pushed.trans (congrArg (Option.map _) values)).trans ?_
      cases tenantData.lookup t <;> simp [pushMetadata]

theorem mem_writeRequests {order : HashOrder String} {tenantLabels allow replicateTo : List String}
    {doesAllowList : Bool} {writeRequest : WriteRequest} {t : String} :
    t ∈ writeRequests order tenantLabels allow doesAllowList replicateTo writeRequest ↔
      ∃ s ∈ writeRequest.timeseries, copies tenantLabels allow doesAllowList replicateTo s t ≠ 0 := by
  rw [← Finmap.lookup_isSome, writeRequests, appendMetadata_lookup, Option.isSome_map,
    Finmap.lookup_isSome, mem_aggregate, streamOf, ← List.length_pos_iff,
    List.length_pos_iff_exists_mem]
  exact exists_congr fun s => mem_repeated

def Addressed (tenantLabels replicateTo : List String) (t : String) (timeSeries : TimeSeries) :
    Prop :=
  t ∈ replicateTo ∨ Names tenantLabels timeSeries t

instance (tenantLabels replicateTo : List String) (t : String) :
    DecidablePred (Addressed tenantLabels replicateTo t) :=
  fun _ => inferInstanceAs (Decidable (_ ∨ _))

def addressedTo (tenantLabels replicateTo : List String) (t : String) (batch : List TimeSeries) :
    List TimeSeries :=
  batch.filter fun timeSeries => Addressed tenantLabels replicateTo t timeSeries

section
variable {tenantLabels replicateTo : List String} {doesAllowList : Bool} {t : String}

theorem addressed_of_copies {allow : List String} {timeSeries : TimeSeries}
    (pushed : copies tenantLabels allow doesAllowList replicateTo timeSeries t ≠ 0) :
    Addressed tenantLabels replicateTo t timeSeries := by
  by_contra apart
  obtain ⟨unreplicated, unnamed⟩ := not_or.mp apart
  apply pushed
  simp [copies, unreplicated, unnamed, List.count_eq_zero.mpr unreplicated]

theorem copies_agree {allow allow' : List String} (agree : t ∈ allow ↔ t ∈ allow')
    (timeSeries : TimeSeries) :
    copies tenantLabels allow doesAllowList replicateTo timeSeries t =
      copies tenantLabels allow' doesAllowList replicateTo timeSeries t := by
  simp only [copies, agree]

theorem streamOf_agree {allow allow' : List String} {batch batch' : List TimeSeries}
    (agree : t ∈ allow ↔ t ∈ allow')
    (same : addressedTo tenantLabels replicateTo t batch =
      addressedTo tenantLabels replicateTo t batch') :
    streamOf tenantLabels allow doesAllowList replicateTo batch t =
      streamOf tenantLabels allow' doesAllowList replicateTo batch' t := by
  have own (allow : List String) (batch : List TimeSeries) :
      streamOf tenantLabels allow doesAllowList replicateTo batch t =
        streamOf tenantLabels allow doesAllowList replicateTo
          (addressedTo tenantLabels replicateTo t batch) t :=
    (repeated_filter (fun _ pushed => decide_eq_true (addressed_of_copies pushed)) batch).symm
  rw [own, own allow', same]
  exact repeated_congr fun timeSeries _ => copies_agree agree timeSeries

end

theorem tenant_noninterference (order order' : HashOrder String)
    (tenantLabels replicateTo : List String) (doesAllowList : Bool) (t : String)
    (writeRequest writeRequest' : WriteRequest) (allow allow' : List String)
    (metadata : writeRequest.metadata = writeRequest'.metadata)
    (same : addressedTo tenantLabels replicateTo t writeRequest.timeseries =
      addressedTo tenantLabels replicateTo t writeRequest'.timeseries)
    (agree : t ∈ allow ↔ t ∈ allow') :
    (writeRequests order tenantLabels allow doesAllowList replicateTo writeRequest).lookup t =
      (writeRequests order' tenantLabels allow' doesAllowList replicateTo writeRequest').lookup t := by
  simp only [writeRequests, appendMetadata_lookup, aggregate_lookup]
  rw [streamOf_agree agree same, metadata]

theorem tenant_noninterference_other_tenant :
    let order := HashOrder.sorted String
    let own : TimeSeries := ⟨[⟨"tenant_id", "a"⟩], []⟩
    let other : TimeSeries := ⟨[⟨"tenant_id", "b"⟩], []⟩
    let labels := ["tenant_id"]
    (addressedTo labels [] "a" [other, own] = addressedTo labels [] "a" [own]) ∧
    ("a" ∈ ["b", "a"] ↔ "a" ∈ ["a"]) ∧
    (writeRequests order labels ["b", "a"] true [] { timeseries := [other, own] }).lookup "a" =
      (writeRequests order labels ["a"] true [] { timeseries := [own] }).lookup "a" := by
  intro order own other labels
  exact ⟨by decide, by decide, tenant_noninterference order order labels [] true "a"
    { timeseries := [other, own] } { timeseries := [own] } ["b", "a"] ["a"] rfl (by decide)
    (by decide)⟩

theorem routing_exact (order : HashOrder String) (tenantLabels allow replicateTo : List String)
    (writeRequest : WriteRequest) (t : String) :
    (writeRequests order tenantLabels allow false replicateTo writeRequest).lookup t =
      if addressedTo tenantLabels replicateTo t writeRequest.timeseries = [] then none
      else some
        { timeseries := addressedTo tenantLabels replicateTo t writeRequest.timeseries
          metadata := writeRequest.metadata } := by
  have stream : streamOf tenantLabels allow false replicateTo writeRequest.timeseries t =
      addressedTo tenantLabels replicateTo t writeRequest.timeseries := by
    rw [addressedTo, filter_eq_repeated]
    apply repeated_congr
    intro timeSeries _
    simp only [decide_eq_true_eq, copies, Bool.false_eq_true, if_false]
    rfl
  rw [writeRequests, appendMetadata_lookup, aggregate_lookup, Finmap.lookup_empty, stream, deliver]
  split_ifs with empty
  · rfl
  · simp

theorem names_congr {tenantLabels tenantLabels' : List String}
    (labels : ∀ name, name ∈ tenantLabels ↔ name ∈ tenantLabels') (timeSeries : TimeSeries)
    (t : String) : Names tenantLabels timeSeries t ↔ Names tenantLabels' timeSeries t := by
  simp only [Names, labels]

theorem copies_congr {tenantLabels tenantLabels' allow allow' replicateTo replicateTo' : List String}
    (labels : ∀ name, name ∈ tenantLabels ↔ name ∈ tenantLabels')
    (allowed : ∀ t, t ∈ allow ↔ t ∈ allow') (replicas : replicateTo.Perm replicateTo')
    (doesAllowList : Bool) (timeSeries : TimeSeries) (t : String) :
    copies tenantLabels allow doesAllowList replicateTo timeSeries t =
      copies tenantLabels' allow' doesAllowList replicateTo' timeSeries t := by
  simp only [copies, names_congr labels timeSeries t, allowed t, replicas.count_eq t,
    replicas.mem_iff]

theorem routing_unordered
    {tenantLabels tenantLabels' allow allow' replicateTo replicateTo' : List String}
    (labels : ∀ name, name ∈ tenantLabels ↔ name ∈ tenantLabels')
    (allowed : ∀ t, t ∈ allow ↔ t ∈ allow') (replicas : replicateTo.Perm replicateTo')
    (doesAllowList : Bool) (batch : List TimeSeries) (tenantData : TenantData) :
    aggregate tenantLabels allow doesAllowList replicateTo batch tenantData =
      aggregate tenantLabels' allow' doesAllowList replicateTo' batch tenantData := by
  apply Finmap.ext_lookup
  intro t
  have streams : streamOf tenantLabels allow doesAllowList replicateTo batch t =
      streamOf tenantLabels' allow' doesAllowList replicateTo' batch t :=
    repeated_congr fun timeSeries _ =>
      copies_congr labels allowed replicas doesAllowList timeSeries t
  rw [aggregate_lookup, aggregate_lookup, streams]

theorem routing_unordered_repeated :
    let batch : List TimeSeries := [⟨[⟨"tenant_id", "a"⟩, ⟨"team", "b"⟩], []⟩]
    (∀ name, name ∈ ["tenant_id", "team"] ↔ name ∈ ["team", "tenant_id", "team"]) ∧
    (∀ t, t ∈ ["a", "b"] ↔ t ∈ ["b", "a", "b"]) ∧ ["x", "y", "x"].Perm ["x", "x", "y"] ∧
    aggregate ["tenant_id", "team"] ["a", "b"] true ["x", "y", "x"] batch ∅ =
      aggregate ["team", "tenant_id", "team"] ["b", "a", "b"] true ["x", "x", "y"] batch ∅ := by
  intro batch
  have labels (name : String) :
      name ∈ ["tenant_id", "team"] ↔ name ∈ ["team", "tenant_id", "team"] := by
    simp only [List.mem_cons, List.not_mem_nil]
    tauto
  have allowed (t : String) : t ∈ ["a", "b"] ↔ t ∈ ["b", "a", "b"] := by
    simp only [List.mem_cons, List.not_mem_nil]
    tauto
  have replicas : ["x", "y", "x"].Perm ["x", "x", "y"] := by decide
  exact ⟨labels, allowed, replicas, routing_unordered labels allowed replicas true batch ∅⟩

end OpenMetrics.Proxy
