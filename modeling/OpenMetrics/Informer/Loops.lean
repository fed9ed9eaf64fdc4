import OpenMetrics.Informer.Crud

/-! One tick of each loop (`informer/src/tracker/tracker.rs`, `informer/src/updater/updater.rs`).
`TickOrders` are the orders of the hash sets and maps that a tick goes through. -/

namespace OpenMetrics.Informer
open Library KubeLib

variable {σ : Type}

/-- What `main` hands to both loops. `fuel` bounds the pages of one listing. -/
structure Setup (σ : Type) where
  k8sClient : KubeClient σ
  rulerClient : RulerClient σ
  distributorClient : DistributorClient σ
  rulerApiUrl : String
  distributorApiUrl : String
  namespace_ : String
  sha1 : String → String
  fuel : Nat

structure TickOrders where
  tenants : HashOrder String
  namespaces : Nat → HashOrder String
  origin : HashOrder String
  target : HashOrder String
  updates : HashOrder String
  removals : HashOrder String

namespace Setup

def syncToK8s (i : Setup σ) (o : TickOrders) (r : TenantGroups) : Act σ Unit := do
  match ← discoverOpenMetricsRules i.k8sClient i.namespace_ i.fuel with
  | .ok k8sRules => do
      let tenantK8sSpecs := getTenantMapFromRulesList k8sRules
      let (updates, removals) := diffRuleGroups o.origin o.target tenantK8sSpecs r
      (o.updates.iter updates).forM fun (tenantId, updateGroups) =>
        updateGroups.forM fun (group, _) =>
          createOrUpdateK8sResource i.k8sClient i.fuel i.sha1 tenantId i.namespace_ group
      (o.removals.iter removals).forM fun (tenantId, removeGroups) =>
        removeGroups.forM fun (group, _) =>
          removeK8sResource i.k8sClient i.fuel tenantId i.namespace_ group
  | .error _ => pure ()

def readRuler (i : Setup σ) (o : TickOrders) : Act σ (Except String TenantGroups) := do
  match ← loadTenantsFromDistributor i.distributorClient i.distributorApiUrl with
  | .ok tenantVec =>
      discoverRulerRules o.namespaces tenantVec i.rulerClient i.rulerApiUrl i.namespace_
  | .error msg => pure (.error msg)

def tracker (i : Setup σ) (o : TickOrders) : Act σ Unit := do
  match ← i.readRuler o with
  | .ok r => i.syncToK8s o r
  | .error _ => pure ()

def uploadGroup (i : Setup σ) (rules : List OpenMetricsRule) (tenantId : String)
    (update : GroupSpec × Int) : Act σ Unit := do
  updateRulerRule i.rulerClient i.rulerApiUrl tenantId i.namespace_ update.1
  if 0 ≤ update.2 then do
    let ruleUpdated ← Act.unwrap rules[update.2.toNat]?
    let resourceName ← Act.unwrap ruleUpdated.metadata.name
    resourceUpdated i.k8sClient i.namespace_ resourceName ruleUpdated

def syncToRuler (i : Setup σ) (o : TickOrders) (skipRulerGroupRemoval : Bool)
    (rules : List OpenMetricsRule) (tenantSpecsRuler : TenantGroups) : Act σ Unit := do
  let (updates, removals) :=
    diffRuleGroups o.origin o.target tenantSpecsRuler (getTenantMapFromRulesList rules)
  (o.updates.iter updates).forM fun (tenantId, updateGroups) =>
    updateGroups.forM fun update => i.uploadGroup rules tenantId update
  if !skipRulerGroupRemoval then
    (o.removals.iter removals).forM fun (tenantId, removeGroups) =>
      removeGroups.forM fun (group, _) =>
        removeRulerRule i.rulerClient i.rulerApiUrl tenantId i.namespace_ group

def updater (i : Setup σ) (o : TickOrders) (skipRulerGroupRemoval : Bool) : Act σ Unit := do
  match ← discoverOpenMetricsRules i.k8sClient i.namespace_ i.fuel with
  | .ok k8sRules => do
      let tenants := o.tenants.keys (discoverTenantIds k8sRules)
      match ← discoverRulerRules o.namespaces tenants i.rulerClient i.rulerApiUrl i.namespace_ with
      | .ok tenantSpecsRuler => i.syncToRuler o skipRulerGroupRemoval k8sRules tenantSpecsRuler
      | .error _ => pure ()
  | .error _ => pure ()

end Setup

end OpenMetrics.Informer
