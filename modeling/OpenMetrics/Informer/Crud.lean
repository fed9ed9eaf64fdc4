import OpenMetrics.Informer.Rules
import OpenMetrics.KubeLib.Listing

/-! `informer/src/crud/crud.rs`. The replies to writes are only logged, so nothing here depends on
them. -/

namespace OpenMetrics.Informer
open Library KubeLib

variable {σ : Type}

structure UserStat where
  userId : String

/-- The distributor's answer; the body is parsed whatever the status is. -/
inductive StatsReply where
  | transportError (msg : String)
  | response (status : UInt16) (json : Except String (List UserStat))

structure DistributorClient (σ : Type) where
  get : String → Act σ StatsReply

def extractTenants : StatsReply → Except String (List String)
  | .response _ (.ok userStats) =>
      .ok ((userStats.map UserStat.userId).filter fun id => id ≠ "0")
  | .response _ (.error e) => .error e
  | .transportError e => .error e

def loadTenantsFromDistributor (client : DistributorClient σ) (distributorApiUrl : String) :
    Act σ (Except String (List String)) := do
  let response ← client.get (distributorApiUrl ++ "distributor/all_user_stats")
  pure (extractTenants response)

def updateRulerRule (client : RulerClient σ) (rulerApiUrl tenantId ns : String)
    (ruleGroup : GroupSpec) : Act σ Unit := do
  let _ ← client.post (rulesUrl rulerApiUrl ns) tenantId ruleGroup

def removeRulerRule (client : RulerClient σ) (rulerApiUrl tenantId ns : String)
    (ruleGroup : GroupSpec) : Act σ Unit := do
  let _ ← client.delete (rulesUrl rulerApiUrl ns ++ "/" ++ ruleGroup.name) tenantId

def renewed (openMetricsRule : OpenMetricsRule) : OpenMetricsRule :=
  { openMetricsRule with
    metadata := { openMetricsRule.metadata with managedFields := none }
    status := some { rulerUpdated := true } }

def resourceUpdated (api : KubeClient σ) (ns resourceName : String)
    (openMetricsRule : OpenMetricsRule) : Act σ Unit := do
  let _ ← api.patch ns resourceName (renewed openMetricsRule)

def removeResource (api : KubeClient σ) (ns resourceName : String) : Act σ Unit := do
  let _ ← api.delete ns resourceName

/-- The search that `create_or_update_k8s_resource` and `remove_k8s_resource` share: the first
resource that lists the tenant and holds a group of the name, with the index of the group. -/
def searchGroup (tenantId groupName : String) :
    List OpenMetricsRule → Option (OpenMetricsRule × UInt32)
  | [] => none
  | rule :: rest =>
      if tenantId ∈ rule.spec.tenants then
        match findGroupNamed (rule.spec.groups.map fun g => (g, -1)) groupName with
        | (idx, some _, _) => some (rule, idx)
        | (_, none, _) => searchGroup tenantId groupName rest
      else searchGroup tenantId groupName rest

/-- The name of the resource that a group of the ruler is written to; `sha1` gives the digest in
hexadecimal. -/
def computedName (sha1 : String → String) (tenantId groupName : String) : String :=
  tenantId ++ "-" ++ sha1 (Text.replace '_' '-' groupName)

def setGroup (rule : OpenMetricsRule) (idx : UInt32) (group : GroupSpec) :
    OpenMetricsRule :=
  { rule with spec := { rule.spec with groups := rule.spec.groups.set idx.toNat group } }

def eraseGroup (rule : OpenMetricsRule) (idx : UInt32) : OpenMetricsRule :=
  { rule with spec := { rule.spec with groups := rule.spec.groups.eraseIdx idx.toNat } }

def sourcedRule (resourceName tenantId : String) (ruleGroup : GroupSpec) : OpenMetricsRule :=
  .new resourceName
    { tenants := [tenantId]
      description := some "open-metrics-multi-tenancy-kit-sourced-rule"
      groups := [ruleGroup] }

def createOrUpdateK8sResource (k8sClient : KubeClient σ) (fuel : Nat) (sha1 : String → String)
    (tenantId ns : String) (ruleGroup : GroupSpec) : Act σ Unit := do
  match ← discoverOpenMetricsRules k8sClient ns fuel with
  | .ok ruleVec =>
      match searchGroup tenantId ruleGroup.name ruleVec with
      | some (rule, idx) => do
          let resourceName ← Act.unwrap rule.metadata.name
          resourceUpdated k8sClient ns resourceName (setGroup rule idx ruleGroup)
      | none =>
          let resourceName := computedName sha1 tenantId ruleGroup.name
          resourceUpdated k8sClient ns resourceName (sourcedRule resourceName tenantId ruleGroup)
  | .error _ => pure ()

def removeK8sResource (k8sClient : KubeClient σ) (fuel : Nat) (tenantId ns : String)
    (ruleGroup : GroupSpec) : Act σ Unit := do
  match ← discoverOpenMetricsRules k8sClient ns fuel with
  | .ok ruleVec =>
      match searchGroup tenantId ruleGroup.name ruleVec with
      | some (rule, idx) => do
          let resourceName ← Act.unwrap rule.metadata.name
          if rule.spec.groups.length = 1 then removeResource k8sClient ns resourceName
          else resourceUpdated k8sClient ns resourceName (eraseGroup rule idx)
      | none => pure ()
  | .error _ => pure ()

end OpenMetrics.Informer
