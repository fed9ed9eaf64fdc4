import OpenMetrics.KubeLib.Resources
import OpenMetrics.Library.Act
import OpenMetrics.Library.Text

/-! `informer/src/rules/rules.rs`. `readReply` is the body of the loop of `discover_ruler_rules`;
`updateTenant` and `removeTenantGroups` are the rounds of the two passes of `diff_rule_groups`. -/

namespace OpenMetrics.Informer
open Library KubeLib

variable {σ : Type}

/-- A map from tenants to groups; the index is the position of the resource that declares the
group, or -1 for a group of the ruler. -/
abbrev TenantGroups := HashMap String (List (GroupSpec × Int))

structure Body where
  text : String
  yaml : Except String (HashMap String (List GroupSpec))

inductive RulerReply where
  | transportError
  | response (status : UInt16) (body : Option Body)

inductive WriteReply where
  | transportError
  | response (status : UInt16) (text : Option String)

/-- Requests to the ruler take the URL and the tenant of the `X-Scope-OrgID` header. The body of
a `post` is the YAML of the group. -/
structure RulerClient (σ : Type) where
  get : String → String → Act σ RulerReply
  post : String → String → GroupSpec → Act σ WriteReply
  delete : String → String → Act σ WriteReply

def rulesUrl (rulerApiUrl ns : String) : String := rulerApiUrl ++ "api/v1/rules/" ++ ns

def readReply (namespaces : HashOrder String) (tenantId : String) (reply : RulerReply)
    (result : TenantGroups) : TenantGroups × Bool :=
  match reply with
  | .transportError => (result, false)
  | .response status body =>
      if status = 200 then
        match body with
        | none => (result, false)
        | some body => match body.yaml with
            | .ok groups =>
                if 0 < groups.keys.card then
                  ((namespaces.iter groups).foldl (fun result namespaceGroups =>
                    result.insert tenantId (namespaceGroups.2.map fun group => (group, -1))) result,
                    false)
                else (result, false)
            | .error _ => (result, true)
      else if status = 404 then
        let text := match body with
          | some body => body.text
          | none => ""
        if Text.trim text = "no rule groups found" then (result, false) else (result, true)
      else (result, true)

/-- Every reply has a map of its own: `namespaces` gives its order by the number of tenants that
are asked about later. -/
def discoverLoop (rulerClient : RulerClient σ) (url : String) (namespaces : Nat → HashOrder String) :
    List String → TenantGroups → Act σ (TenantGroups × Bool)
  | [], result => pure (result, false)
  | tenantId :: rest, result => do
      let reply ← rulerClient.get url tenantId
      match readReply (namespaces rest.length) tenantId reply result with
      | (result, true) => pure (result, true)
      | (result, false) => discoverLoop rulerClient url namespaces rest result

def discoverRulerRules (namespaces : Nat → HashOrder String) (tenants : List String)
    (rulerClient : RulerClient σ) (rulerApiUrl ns : String) :
    Act σ (Except String TenantGroups) := do
  let (result, failed) ←
    discoverLoop rulerClient (rulesUrl rulerApiUrl ns) namespaces tenants ∅
  if !failed then pure (.ok result) else pure (.error "failed to retrieve rules")

def findGroupFrom (idx : UInt32) (groupName : String) :
    List (GroupSpec × Int) → UInt32 × Option GroupSpec × Int
  | [] => (0, none, -1)
  | (group, s) :: rest =>
      if group.name = groupName then (idx, some group, s)
      else findGroupFrom (idx + 1) groupName rest

def findGroupNamed (groupList : List (GroupSpec × Int)) (groupName : String) :
    UInt32 × Option GroupSpec × Int :=
  findGroupFrom 0 groupName groupList

def areGroupsEqual (original copy : GroupSpec) : Bool := original = copy

def getOrCreateAction (tenantId : String) (groupsTenantHashmap : TenantGroups) :
    List (GroupSpec × Int) :=
  if tenantId ∈ groupsTenantHashmap then (groupsTenantHashmap.lookup tenantId).getD [] else []

def updateTenant (targetRules originRules updates : TenantGroups) (tenantId : String) :
    TenantGroups :=
  let originRuleGroupsList := (originRules.lookup tenantId).getD []
  let updatesVec := getOrCreateAction tenantId updates
  let updatesVec :=
    if tenantId ∉ targetRules then updatesVec ++ originRuleGroupsList
    else
      let targetRuleGroupsList := (targetRules.lookup tenantId).getD []
      originRuleGroupsList.foldl (fun updatesVec origin =>
        match findGroupNamed targetRuleGroupsList origin.1.name with
        | (_, some g, _) =>
            if !areGroupsEqual origin.1 g then updatesVec ++ [origin] else updatesVec
        | (_, none, _) => updatesVec ++ [origin]) updatesVec
  if 0 < updatesVec.length then updates.insert tenantId updatesVec else updates

def removeTenantGroups (targetRules originRules removals : TenantGroups) (tenantId : String) :
    TenantGroups :=
  let targetRuleGroupsList := (targetRules.lookup tenantId).getD []
  let removalsVec := getOrCreateAction tenantId removals
  let removalsVec :=
    if tenantId ∉ originRules then removalsVec ++ targetRuleGroupsList
    else
      let originRuleGroupsList := (originRules.lookup tenantId).getD []
      targetRuleGroupsList.foldl (fun removalsVec target =>
        match findGroupNamed originRuleGroupsList target.1.name with
        | (_, some _, _) => removalsVec
        | (_, none, _) => removalsVec ++ [target]) removalsVec
  if 0 < removalsVec.length then removals.insert tenantId removalsVec else removals

def diffRuleGroups (origin target : HashOrder String) (targetRules originRules : TenantGroups) :
    TenantGroups × TenantGroups :=
  ((origin.keys originRules.keys).foldl (updateTenant targetRules originRules) ∅,
    (target.keys targetRules.keys).foldl (removeTenantGroups targetRules originRules) ∅)

def addRule (acc : TenantGroups × Int) (rule : OpenMetricsRule) : TenantGroups × Int :=
  (rule.spec.tenants.foldl (fun tenantSpecs tenantId =>
    let tenantSpecs :=
      if tenantId ∉ tenantSpecs then tenantSpecs.insert tenantId [] else tenantSpecs
    let specVec := (tenantSpecs.lookup tenantId).getD []
    tenantSpecs.insert tenantId (specVec ++ rule.spec.groups.map fun group => (group, acc.2)))
    acc.1, acc.2 + 1)

def getTenantMapFromRulesList (openMetricsRules : List OpenMetricsRule) : TenantGroups :=
  (openMetricsRules.foldl addRule (∅, 0)).1

end OpenMetrics.Informer
