import OpenMetrics.Library.HashOrder

/-! `kube-metrics-multi-tenancy-lib/src/lib.rs` -/

namespace OpenMetrics.KubeLib
open Library

structure RuleSpec where
  alert : Option String
  annotations : Option (HashMap String String)
  labels : Option (HashMap String String)
  record : Option String
  for_ : Option String
  expr : String
  deriving DecidableEq

structure GroupSpec where
  name : String
  interval : Option String
  rules : List RuleSpec
  deriving DecidableEq

structure OpenMetricsRuleSpec where
  tenants : List String
  description : Option String
  groups : List GroupSpec
  deriving DecidableEq

structure OpenMetricsRuleStatus where
  rulerUpdated : Bool
  deriving DecidableEq

structure ManagedFieldsEntry where
  manager : Option String
  operation : Option String
  deriving DecidableEq

structure ObjectMeta where
  name : Option String
  managedFields : Option (List ManagedFieldsEntry)
  deriving DecidableEq

structure OpenMetricsRule where
  metadata : ObjectMeta
  spec : OpenMetricsRuleSpec
  status : Option OpenMetricsRuleStatus
  deriving DecidableEq

def OpenMetricsRule.new (name : String) (spec : OpenMetricsRuleSpec) : OpenMetricsRule where
  metadata := { name := some name, managedFields := none }
  spec := spec
  status := none

def discoverTenantIds (tenantsRules : List OpenMetricsRule) : Finset String :=
  tenantsRules.foldl (fun ids rule =>
    rule.spec.tenants.foldl (fun ids t => insert t ids) ids) ∅

theorem mem_discoverTenantIds {rules : List OpenMetricsRule} {t : String} :
    t ∈ discoverTenantIds rules ↔ ∃ rule ∈ rules, t ∈ rule.spec.tenants := by
  have loop (ids : Finset String) :
      t ∈ rules.foldl (fun ids rule =>
        rule.spec.tenants.foldl (fun ids t => insert t ids) ids) ids ↔
        t ∈ ids ∨ ∃ rule ∈ rules, t ∈ rule.spec.tenants := by
    induction rules generalizing ids with
    | nil => simp
    | cons rule rest ih => rw [List.foldl_cons, ih, foldl_insert]; simp [or_assoc]
  rw [discoverTenantIds, loop]
  simp

end OpenMetrics.KubeLib
