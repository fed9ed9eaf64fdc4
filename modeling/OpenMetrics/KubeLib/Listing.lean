import OpenMetrics.KubeLib.Resources
import OpenMetrics.Library.Act

/-! The listing of `kube-metrics-multi-tenancy-lib/src/lib.rs`. The rounds of the loop over the
continuation pages are bounded by `fuel`: with too little of it the listing has no result yet. -/

namespace OpenMetrics.KubeLib
open Library

variable {σ : Type}

structure ListPage where
  items : List OpenMetricsRule
  continue_ : Option String

structure KubeClient (σ : Type) where
  list : String → Option String → Act σ (Except String ListPage)
  patch : String → String → OpenMetricsRule → Act σ (Except String Unit)
  delete : String → String → Act σ (Except String Unit)

def refreshOpenMetricsRules (k8sClient : KubeClient σ) (continueToken : Option String)
    (ns : String) : Act σ (Bool × List OpenMetricsRule × Option String) := do
  match ← k8sClient.list ns continueToken with
  | .ok tl => pure (true, tl.items, tl.continue_)
  | .error _ => pure (false, [], none)

def retrieveRest (k8sClient : KubeClient σ) (ns : String) :
    Nat → String → List OpenMetricsRule → Act σ (List OpenMetricsRule)
  | 0, _, _ => fun _ => none
  | fuel + 1, token, foundRules => do
      -- whether this page came is not looked at
      let (_, rulesPortion, next) ← refreshOpenMetricsRules k8sClient (some token) ns
      match next with
      | none => pure (foundRules ++ rulesPortion)
      | some t => retrieveRest k8sClient ns fuel t (foundRules ++ rulesPortion)

def discoverOpenMetricsRules (k8sClient : KubeClient σ) (ns : String) (fuel : Nat) :
    Act σ (Except String (List OpenMetricsRule)) := do
  let (tenantsAcquired, rulesPortion, nextToken) ← refreshOpenMetricsRules k8sClient none ns
  let foundRules ← match nextToken with
    | some tokenInit =>
        if tokenInit ≠ "" then retrieveRest k8sClient ns fuel tokenInit rulesPortion
        else pure rulesPortion
    | none => pure rulesPortion
  if tenantsAcquired then pure (.ok foundRules)
  else pure (.error "k8s communication failure")

def getTenantIds (k8sClient : KubeClient σ) (ns : String) (fuel : Nat) :
    Act σ (Except String (Finset String)) := do
  match ← discoverOpenMetricsRules k8sClient ns fuel with
  | .ok tenantsRules => pure (.ok (discoverTenantIds tenantsRules))
  | .error msg => pure (.error msg)

def retrieve (k8sClient : KubeClient σ) (ns : String) (fuel : Nat)
    (rulesPortion : List OpenMetricsRule) : Option String → Act σ (List OpenMetricsRule)
  | none => pure rulesPortion
  | some token =>
      if token ≠ "" then retrieveRest k8sClient ns fuel token rulesPortion else pure rulesPortion

def acquired (tenantsAcquired : Bool) (foundRules : List OpenMetricsRule) :
    Except String (List OpenMetricsRule) :=
  if tenantsAcquired then .ok foundRules else .error "k8s communication failure"

theorem acquired_eq_ok {tenantsAcquired : Bool} {foundRules rules : List OpenMetricsRule}
    (ok : acquired tenantsAcquired foundRules = .ok rules) : foundRules = rules := by
  cases tenantsAcquired with
  | true => exact Except.ok.inj ok
  | false => cases ok

theorem discover_eq (k8sClient : KubeClient σ) (ns : String) (fuel : Nat) :
    discoverOpenMetricsRules k8sClient ns fuel =
      (refreshOpenMetricsRules k8sClient none ns >>= fun portion =>
        retrieve k8sClient ns fuel portion.2.1 portion.2.2 >>= fun foundRules =>
          pure (acquired portion.1 foundRules)) := by
  refine bind_congr fun portion => ?_
  obtain ⟨tenantsAcquired, rulesPortion, nextToken⟩ := portion
  cases nextToken with
  | none => cases tenantsAcquired <;> rfl
  | some token =>
      by_cases more : token ≠ ""
      · simp only [retrieve, if_pos more]
        cases tenantsAcquired <;> rfl
      · simp only [retrieve, if_neg more]
        cases tenantsAcquired <;> rfl

end OpenMetrics.KubeLib
