import OpenMetrics.Library.Text
import OpenMetrics.Proxy.Controller
import OpenMetrics.Proxy.Forward

/-! The start of the proxy (`proxy/src/main.rs`) -/

namespace OpenMetrics.Proxy
open Library

variable {κ : Type}

structure OpenMetricsProxyArgs where
  tenantLabelList : String := "tenant_id"
  disableFullReplication : Bool := false
  defaultTenantList : String := "0"
  allowListedTenants : String := ""
  kubernetesPollIntervalSeconds : UInt32 := 0

namespace OpenMetricsProxyArgs

def tenantLabels (args : OpenMetricsProxyArgs) : List String := Text.split ',' args.tenantLabelList

def replicateTo (args : OpenMetricsProxyArgs) : List String :=
  if args.disableFullReplication then [] else Text.split ',' args.defaultTenantList

def allowedTenants (args : OpenMetricsProxyArgs) : List String :=
  Text.split ',' args.allowListedTenants

def usesAllowListing (args : OpenMetricsProxyArgs) : Bool := !args.allowedTenants.isEmpty

def initialAllowedTenants (args : OpenMetricsProxyArgs) : List String :=
  if args.usesAllowListing then args.replicateTo ++ args.allowedTenants else args.allowedTenants

@[simp] theorem usesAllowListing_eq_true (args : OpenMetricsProxyArgs) :
    args.usesAllowListing = true := by
  simp [usesAllowListing, allowedTenants, Text.split_ne_nil]

@[simp] theorem initialAllowedTenants_eq (args : OpenMetricsProxyArgs) :
    args.initialAllowedTenants = args.replicateTo ++ args.allowedTenants := by
  simp [initialAllowedTenants]

end OpenMetricsProxyArgs

open IngestionTenantController OpenMetricsProxyArgs

/-- The controller as `main` starts it. `connect` is what `Client::try_default` gives and
`variable_` the namespace variable. -/
def startController (args : OpenMetricsProxyArgs) (order : HashOrder String)
    (variable_ : Option String) (connect : Option κ) : IngestionTenantController κ :=
  let k8sClient := if args.kubernetesPollIntervalSeconds > 0 then connect else none
  let c := ((new variable_).setInitialAllowedTenants order args.initialAllowedTenants).setK8sPollDelay
    (args.kubernetesPollIntervalSeconds * 1000).toUInt64
  if k8sClient.isSome then { c with k8sClient := k8sClient } else c

structure Poll where
  answer : Except String (Finset String)
  found : HashOrder String
  existing : HashOrder String

def runPoll (c : IngestionTenantController κ) (poll : Poll) :
    Option (IngestionTenantController κ) :=
  let iteration : Act Unit (Bool × IngestionTenantController κ) :=
    controllerIteration (fun _ _ => pure poll.answer) poll.found poll.existing c
  (iteration ()).map fun r => r.1.2

def runPolls (polls : List Poll) (c : IngestionTenantController κ) :
    Option (IngestionTenantController κ) :=
  polls.foldlM runPoll c

def lastFound (found : Finset String) : List Poll → Finset String
  | [] => found
  | poll :: rest => match poll.answer with
      | .ok foundTenants => lastFound foundTenants rest
      | .error _ => lastFound found rest

def FitsCounter (initial found : Finset String) : List Poll → Prop
  | [] => True
  | poll :: rest => match poll.answer with
      | .ok foundTenants => (initial ∪ found).card ≤ 2 ^ 32 ∧ FitsCounter initial foundTenants rest
      | .error _ => FitsCounter initial found rest

structure Allows (c : IngestionTenantController κ) (initial found : Finset String) : Prop where
  coherent : c.Coherent
  initialTenants : c.initialTenants = initial
  observed : ∀ t ∉ initial, t ∈ c.tenants ↔ t ∈ found
  nodup : c.tenantsVec.Nodup
  running : c.stopping = none

theorem Allows.mem_getTenants {c : IngestionTenantController κ} {initial found : Finset String}
    (h : Allows c initial found) {t : String} : t ∈ c.getTenants ↔ t ∈ initial ∨ t ∈ found := by
  rw [getTenants, h.coherent.mem_tenantsVec, h.initialTenants]
  by_cases isInitial : t ∈ initial
  · simp [isInitial]
  · simp [isInitial, h.observed t isInitial]

theorem startController_tenants (args : OpenMetricsProxyArgs) (order : HashOrder String)
    (variable_ : Option String) (connect : Option κ) :
    (startController args order variable_ connect).tenants = ∅ := by
  simp only [startController, apply_ite IngestionTenantController.tenants]
  simp [setInitialAllowedTenants, setK8sPollDelay, new]

theorem startController_allows (args : OpenMetricsProxyArgs) (order : HashOrder String)
    (variable_ : Option String) (connect : Option κ) :
    Allows (startController args order variable_ connect)
      (args.replicateTo ++ args.allowedTenants).toFinset ∅ := by
  have initial : (startController args order variable_ connect).initialTenants =
      (args.replicateTo ++ args.allowedTenants).toFinset := by
    simp only [startController, apply_ite IngestionTenantController.initialTenants]
    simp [setInitialAllowedTenants, setK8sPollDelay, new, foldl_insert]
  have vector : (startController args order variable_ connect).tenantsVec =
      order.keys (args.replicateTo ++ args.allowedTenants).toFinset := by
    simp only [startController, apply_ite IngestionTenantController.tenantsVec]
    simp [setInitialAllowedTenants, setK8sPollDelay, new, foldl_insert]
  have tenants := startController_tenants args order variable_ connect
  have stopping : (startController args order variable_ connect).stopping = none := by
    simp only [startController, apply_ite IngestionTenantController.stopping]
    simp [setInitialAllowedTenants, setK8sPollDelay, new]
  refine ⟨⟨?_, ?_⟩, initial, by simp [tenants], vector ▸ order.nodup_keys _, stopping⟩
  · intro t member
    rw [vector, HashOrder.mem_keys_iff, ← initial]
    exact member
  · intro t notInitial
    rw [initial] at notInitial
    rw [vector, tenants, if_neg (Finset.notMem_empty t)]
    exact List.count_eq_zero.mpr fun listed => notInitial (order.mem_keys_iff.mp listed)

theorem Allows.length_tenantsVec {c : IngestionTenantController κ} {initial found : Finset String}
    (h : Allows c initial found) : c.tenantsVec.length = (initial ∪ found).card := by
  have listed : c.tenantsVec.toFinset = initial ∪ found := by
    ext t
    rw [List.mem_toFinset, Finset.mem_union]
    exact h.mem_getTenants
  rw [← List.toFinset_card_of_nodup h.nodup, listed]

theorem Allows.observe {c : IngestionTenantController κ} {initial found : Finset String}
    (h : Allows c initial found) (foundOrder existing : HashOrder String)
    (foundTenants : Finset String) (fits : (initial ∪ found).card ≤ 2 ^ 32) :
    Allows (c.observe foundOrder existing foundTenants) initial foundTenants := by
  have short : c.tenantsVec.length ≤ 2 ^ 32 := h.length_tenantsVec.le.trans fits
  obtain ⟨coherent, nodup, -, members⟩ :=
    observe_spec foundOrder existing h.coherent foundTenants short
  have edits := observe_edits foundOrder existing c foundTenants
  exact ⟨coherent, edits.initialTenants.trans h.initialTenants,
    fun t notInitial => members t (h.initialTenants ▸ notInitial), nodup h.nodup,
    edits.stopping.trans h.running⟩

theorem runPolls_allows (polls : List Poll) {c : IngestionTenantController κ}
    {initial found : Finset String} (h : Allows c initial found)
    (connected : polls ≠ [] → c.k8sClient.isSome) (fits : FitsCounter initial found polls) :
    ∃ c', runPolls polls c = some c' ∧ Allows c' initial (lastFound found polls) := by
  induction polls generalizing c found with
  | nil => exact ⟨c, rfl, h⟩
  | cons poll rest ih =>
      obtain ⟨cli, client⟩ := Option.isSome_iff_exists.mp (connected (by simp))
      obtain ⟨answer, foundOrder, existing⟩ := poll
      cases answer with
      | error msg =>
          obtain ⟨c', run, allows⟩ := ih h (fun _ => by simp [client]) fits
          refine ⟨c', ?_, allows⟩
          simpa [runPolls, runPoll, controllerIteration, h.running, client] using run
      | ok foundTenants =>
          have client' : (c.observe foundOrder existing foundTenants).k8sClient = some cli := by
            rw [(observe_edits foundOrder existing c foundTenants).k8sClient, client]
          obtain ⟨c', run, allows⟩ := ih (h.observe foundOrder existing foundTenants fits.1)
            (fun _ => by simp [client']) fits.2
          refine ⟨c', ?_, allows⟩
          simpa [runPolls, runPoll, controllerIteration, h.running, client] using run

end OpenMetrics.Proxy
