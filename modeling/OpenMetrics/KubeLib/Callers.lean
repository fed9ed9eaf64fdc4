import OpenMetrics.Informer.Loops
import OpenMetrics.KubeLib.Pagination
import OpenMetrics.Proxy.Controller

namespace OpenMetrics.KubeLib
open Library Informer Proxy

variable {σ κ : Type}

structure Refused (κ : Type) (i : Setup σ) : Prop where
  listing : ∀ s, ∃ e, discoverOpenMetricsRules i.k8sClient i.namespace_ i.fuel s =
    some (.error e, s)
  tenants : ∀ s, ∃ e, getTenantIds i.k8sClient i.namespace_ i.fuel s = some (.error e, s)
  controller : ∀ (ctrl : IngestionTenantController κ) (found existing : HashOrder String) (s : σ),
    ctrl.stopping = none → ctrl.k8sClient.isSome → ctrl.namespace_ = i.namespace_ →
    controllerIteration (fun _ ns => getTenantIds i.k8sClient ns i.fuel) found existing ctrl s =
      some ((false, ctrl), s)
  updater : ∀ o skip s, i.updater o skip s = some ((), s)
  tracker : ∀ o s, i.tracker o s = (i.readRuler o s).map fun read => ((), read.2)

theorem refused_of_listing {i : Setup σ} (listing : ∀ s, ∃ e,
    discoverOpenMetricsRules i.k8sClient i.namespace_ i.fuel s = some (.error e, s)) :
    Refused κ i where
  listing := listing
  tenants s := by
    obtain ⟨e, failed⟩ := listing s
    exact ⟨e, by simp [getTenantIds, failed]⟩
  controller ctrl found existing s running client namespace_ := by
    obtain ⟨e, failed⟩ := listing s
    obtain ⟨cli, client⟩ := Option.isSome_iff_exists.mp client
    simp [controllerIteration, running, client, namespace_, getTenantIds, failed]
  updater o skip s := by
    obtain ⟨e, failed⟩ := listing s
    simp [Setup.updater, failed]
  tracker o s := by
    rw [Setup.tracker, Act.bind_apply]
    cases i.readRuler o s with
    | none => rfl
    | some read =>
        obtain ⟨read, s'⟩ := read
        cases read with
        | error e => rfl
        | ok r =>
            obtain ⟨e, failed⟩ := listing s'
            simp [Setup.syncToK8s, failed]

namespace PageChain

variable (chain : PageChain) (fails : Nat → Bool)

def setup (i : Setup σ) (fuel : Nat) : Setup σ :=
  { i with k8sClient := chain.client fails i.k8sClient, fuel }

def SomeFails : Prop := ∃ k ≤ chain.rest.length, fails k = true

structure AllOrNothing (κ : Type) (i : Setup σ) (s : σ) : Prop where
  complete : ∀ fuel l s',
    discoverOpenMetricsRules (chain.client fails i.k8sClient) i.namespace_ fuel s =
      some (.ok l, s') → ¬ chain.SomeFails fails
  refused : chain.SomeFails fails → ∃ fuel, Refused κ (chain.setup fails i fuel)

theorem allOrNothing_iff (i : Setup σ) (s : σ) :
    chain.AllOrNothing fails κ i s ↔
      fails 0 = true ∨ ∀ k < chain.rest.length, fails (k + 1) = false := by
  constructor
  · intro all
    by_contra partly
    rw [not_or, Bool.not_eq_true, not_forall] at partly
    obtain ⟨firstComes, k, continuation⟩ := partly
    rw [Classical.not_imp, Bool.not_eq_false] at continuation
    -- the first continuation page that fails
    have exists_ : ∃ k, k < chain.rest.length ∧ fails (k + 1) = true := ⟨k, continuation⟩
    obtain ⟨more, failed⟩ := Nat.find_spec exists_
    have comes : ∀ j ≤ Nat.find exists_, fails j = false := by
      intro j upTo
      cases j with
      | zero => exact firstComes
      | succ j =>
          have earlier := Nat.find_min exists_ upTo
          rw [not_and, Bool.not_eq_true] at earlier
          exact earlier (by omega)
    exact all.complete _ _ _ (discover_truncated more comes failed) ⟨_, more, failed⟩
  · intro condition
    have first (partly : chain.SomeFails fails) : fails 0 = true := by
      obtain ⟨_ | k, more, failed⟩ := partly
      · exact failed
      · exact condition.resolve_right fun comes => by simp [comes k more] at failed
    constructor
    · intro fuel l s' listed partly
      rw [discover_first_fails (first partly)] at listed
      simp at listed
    · intro partly
      exact ⟨0, refused_of_listing fun s => ⟨_, discover_first_fails (first partly) 0⟩⟩

def twoPages : PageChain where
  first := [.new "first" { tenants := ["a"], description := none, groups := [] }]
  rest := [("next", [.new "second" { tenants := ["b"], description := none, groups := [] }])]
  endsEmpty := false
  tokens_nodup := by decide
  tokens_nonempty := by decide

def unanswered : Setup Unit where
  k8sClient :=
    { list := fun _ _ => pure (.error "connection refused")
      patch := fun _ _ _ => pure (.error "connection refused")
      delete := fun _ _ => pure (.error "connection refused") }
  rulerClient :=
    { get := fun _ _ => pure .transportError
      post := fun _ _ _ => pure .transportError
      delete := fun _ _ => pure .transportError }
  distributorClient := { get := fun _ => pure (.transportError "connection refused") }
  rulerApiUrl := "http://ruler/"
  distributorApiUrl := "http://distributor/"
  namespace_ := "default"
  sha1 := id
  fuel := 2

theorem allOrNothing_fails_second :
    ¬ twoPages.AllOrNothing (fun k => k == 1) Unit unanswered () := by
  intro all
  have truncated : discoverOpenMetricsRules
      (twoPages.client (fun k => k == 1) unanswered.k8sClient) "default" 2 () =
      some (.ok twoPages.first, ()) := rfl
  exact all.complete 2 _ _ truncated ⟨1, by decide, rfl⟩

end PageChain

end OpenMetrics.KubeLib
