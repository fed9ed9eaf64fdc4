import OpenMetrics.Proxy.Controller
import Mathlib.Data.String.Basic

namespace OpenMetrics.Proxy
open Library IngestionTenantController

variable {κ : Type}

inductive Operation (κ : Type) where
  | setInitialAllowedTenants (order : HashOrder String) (initialAllowedTenants : List String)
  | observe (found existing : HashOrder String) (foundTenants : Finset String)
  | setK8sPollDelay (k8sPollMs : UInt64)
  | initK8s (cli : Option κ)
  | clean

def perform (c : IngestionTenantController κ) : Operation κ → IngestionTenantController κ
  | .setInitialAllowedTenants order initialAllowedTenants =>
      c.setInitialAllowedTenants order initialAllowedTenants
  | .observe found existing foundTenants => c.observe found existing foundTenants
  | .setK8sPollDelay k8sPollMs => c.setK8sPollDelay k8sPollMs
  | .initK8s cli => c.initK8s cli
  | .clean => c.clean

def performAll (variable_ : Option String) (operations : List (Operation κ)) :
    IngestionTenantController κ :=
  operations.foldl perform (new variable_)

def observedBy (found : Finset String) : Operation κ → Finset String
  | .observe _ _ foundTenants => foundTenants
  | .clean => ∅
  | .setInitialAllowedTenants _ _ | .setK8sPollDelay _ | .initK8s _ => found

/-- The argument of the last observation since the last `clean`. -/
def lastObserved (operations : List (Operation κ)) : Finset String :=
  operations.foldl observedBy ∅

structure Represents (c : IngestionTenantController κ) (found : Finset String) : Prop where
  coherent : c.Coherent
  observed : ∀ t ∉ c.initialTenants, t ∈ c.tenants ↔ t ∈ found

namespace Represents

theorem new (variable_ : Option String) :
    Represents (new variable_ : IngestionTenantController κ) ∅ where
  coherent := ⟨by simp [IngestionTenantController.new], by simp [IngestionTenantController.new]⟩
  observed := by simp [IngestionTenantController.new]

variable {c : IngestionTenantController κ} {found : Finset String} (h : Represents c found)
include h

theorem setInitialAllowedTenants (order : HashOrder String) (initialAllowedTenants : List String) :
    Represents (c.setInitialAllowedTenants order initialAllowedTenants) found := by
  have initial : (c.setInitialAllowedTenants order initialAllowedTenants).initialTenants =
      c.initialTenants ∪ initialAllowedTenants.toFinset := foldl_insert _ _
  have vector : (c.setInitialAllowedTenants order initialAllowedTenants).tenantsVec =
      c.tenantsVec ++ order.keys (c.initialTenants ∪ initialAllowedTenants.toFinset) := by
    rw [← initial]
    rfl
  constructor
  · constructor
    · intro t member
      rw [initial] at member
      rw [vector]
      exact List.mem_append_right _ (order.mem_keys_iff.mpr member)
    · intro t notInitial
      rw [initial] at notInitial
      have unlisted : t ∉ order.keys (c.initialTenants ∪ initialAllowedTenants.toFinset) :=
        fun listed => notInitial (order.mem_keys_iff.mp listed)
      rw [vector, List.count_append, List.count_eq_zero.mpr unlisted, Nat.add_zero]
      exact h.coherent.observed_count t fun member => notInitial (Finset.mem_union_left _ member)
  · intro t notInitial
    rw [initial] at notInitial
    exact h.observed t fun member => notInitial (Finset.mem_union_left _ member)

theorem observe (foundOrder existing : HashOrder String) (foundTenants : Finset String)
    (short : c.tenantsVec.length < 2 ^ 32) :
    Represents (c.observe foundOrder existing foundTenants) foundTenants := by
  obtain ⟨coherent, -, -, members⟩ :=
    observe_spec foundOrder existing h.coherent foundTenants short.le
  refine ⟨coherent, fun t notInitial => members t ?_⟩
  rwa [(observe_edits foundOrder existing c foundTenants).initialTenants] at notInitial

theorem perform (operation : Operation κ) (short : c.tenantsVec.length < 2 ^ 32) :
    Represents (perform c operation) (observedBy found operation) := by
  cases operation with
  | setInitialAllowedTenants order l => exact h.setInitialAllowedTenants order l
  | observe foundOrder existing foundTenants => exact h.observe foundOrder existing foundTenants short
  | setK8sPollDelay k8sPollMs => exact ⟨⟨h.coherent.1, h.coherent.2⟩, h.observed⟩
  | initK8s cli =>
      cases cli with
      | none => exact h
      | some cli => exact ⟨⟨h.coherent.1, h.coherent.2⟩, h.observed⟩
  | clean => exact ⟨⟨by simp [Proxy.perform, clean], by simp [Proxy.perform, clean]⟩,
      by simp [Proxy.perform, clean, observedBy]⟩

theorem toFinset_getTenants : c.getTenants.toFinset = c.initialTenants ∪ found := by
  ext t
  rw [getTenants, h.coherent.toFinset_tenantsVec, Finset.mem_union, Finset.mem_union]
  by_cases initial : t ∈ c.initialTenants
  · simp [initial]
  · rw [h.observed t initial]

theorem once {t : String} (listed : t ∈ c.getTenants) (notInitial : t ∉ c.initialTenants) :
    c.getTenants.count t = 1 ∧ t ∈ c.tenants := by
  have observed := (h.coherent.mem_tenantsVec.mp listed).resolve_left notInitial
  exact ⟨(h.coherent.observed_count t notInitial).trans (if_pos observed), observed⟩

theorem observe_eq (foundOrder existing : HashOrder String) :
    c.observe foundOrder existing found = c := by
  have added : c.observeAdded foundOrder found = c := by
    rw [observeAdded_eq]
    refine List.foldlRecOn (motive := fun c' => c' = c) _ _ rfl fun c' same t member => ?_
    rw [same]
    apply addTenant_known
    by_cases initial : t ∈ c.initialTenants
    · exact Or.inl initial
    · exact Or.inr ((h.observed t initial).mpr (foundOrder.mem_keys_iff.mp member))
  rw [IngestionTenantController.observe, added, observeRemoved_eq]
  refine List.foldlRecOn (motive := fun c' => c' = c) _ _ rfl fun c' same t member => ?_
  rw [same]
  apply removeTenant_kept
  rw [List.mem_filter, decide_eq_true_eq] at member
  by_cases initial : t ∈ c.initialTenants
  · exact Or.inl initial
  · exact Or.inr fun observed => member.2 ((h.observed t initial).mp observed)

end Represents

theorem performAll_represents (variable_ : Option String) (operations : List (Operation κ))
    (short : ∀ front, front <+: operations →
      (performAll variable_ front).tenantsVec.length < 2 ^ 32) :
    Represents (performAll variable_ operations) (lastObserved operations) := by
  induction operations using List.reverseRecOn with
  | nil => exact .new variable_
  | append_singleton rest operation ih =>
      have before : Represents (performAll variable_ rest) (lastObserved rest) :=
        ih fun front isPrefix => short front (isPrefix.trans (List.prefix_append _ _))
      have step := before.perform operation (short rest (List.prefix_append _ _))
      rw [performAll, lastObserved, List.foldl_concat, List.foldl_concat]
      exact step

theorem allowList_invariant (variable_ : Option String) (operations : List (Operation κ))
    (short : ∀ front, front <+: operations →
      (performAll variable_ front).tenantsVec.length < 2 ^ 32) :
    let c := performAll variable_ operations
    c.getTenants.toFinset = c.initialTenants ∪ lastObserved operations ∧
    (∀ t ∈ c.getTenants, t ∉ c.initialTenants → c.getTenants.count t = 1 ∧ t ∈ c.tenants) ∧
    ∀ found existing foundTenants,
      let c' := c.observe found existing foundTenants
      c'.initialTenants = c.initialTenants ∧
      (∀ t ∈ c.initialTenants, c'.getTenants.count t = c.getTenants.count t) ∧
      ∀ found' existing', c'.observe found' existing' foundTenants = c' := by
  intro c
  have represents : Represents c (lastObserved operations) :=
    performAll_represents variable_ operations short
  have fits : c.tenantsVec.length < 2 ^ 32 := short operations (List.prefix_refl _)
  refine ⟨represents.toFinset_getTenants, fun t => represents.once, fun found existing F => ?_⟩
  obtain ⟨-, -, counts, -⟩ := observe_spec found existing represents.coherent F fits.le
  exact ⟨(observe_edits found existing c F).initialTenants, counts,
    (represents.observe found existing F fits).observe_eq⟩

theorem allowList_invariant_initial_after_observed :
    let order := HashOrder.sorted String
    let operations : List (Operation Unit) :=
      [.observe order order {"a", "b"}, .setInitialAllowedTenants order ["a", "c", "c"]]
    let c := performAll none operations
    (∀ front, front <+: operations →
      (performAll (none : Option String) front).tenantsVec.length < 2 ^ 32) ∧
    c.getTenants = ["a", "b", "a", "c"] ∧
    c.getTenants.toFinset = c.initialTenants ∪ lastObserved operations := by
  intro order operations c
  have short : ∀ front, front <+: operations →
      (performAll (none : Option String) front).tenantsVec.length < 2 ^ 32 := by
    have all : ∀ front ∈ operations.inits,
        (performAll (none : Option String) front).tenantsVec.length < 2 ^ 32 := by decide
    exact fun front isPrefix => all front (List.mem_inits front operations |>.mpr isPrefix)
  exact ⟨short, by decide, (allowList_invariant none operations short).1⟩

end OpenMetrics.Proxy
