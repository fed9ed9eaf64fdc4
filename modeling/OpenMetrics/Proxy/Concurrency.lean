import OpenMetrics.Proxy.Routing
import OpenMetrics.Proxy.Service

namespace OpenMetrics.Proxy
open Library IngestionTenantController

variable {κ : Type} {filters : Filters κ}

def namedTenants (batch : List TimeSeries) : List String :=
  batch.flatMap fun timeSeries => timeSeries.labels.map Label.value

theorem card_writeRequests_le (order : HashOrder String) (tenantLabels allow : List String)
    (doesAllowList : Bool) (replicateTo : List String) (writeRequest : WriteRequest) :
    (writeRequests order tenantLabels allow doesAllowList replicateTo writeRequest).keys.card ≤
      (replicateTo ++ namedTenants writeRequest.timeseries).length := by
  have inside : (writeRequests order tenantLabels allow doesAllowList replicateTo
      writeRequest).keys ⊆ (replicateTo ++ namedTenants writeRequest.timeseries).toFinset := by
    intro t entry
    rw [Finmap.mem_keys, mem_writeRequests] at entry
    obtain ⟨s, member, pushed⟩ := entry
    rw [List.mem_toFinset, List.mem_append]
    cases addressed_of_copies pushed with
    | inl replicates => exact Or.inl replicates
    | inr named =>
        obtain ⟨label, carried, -, value⟩ := named
        exact Or.inr (List.mem_flatMap.mpr ⟨s, member, List.mem_map.mpr ⟨label, carried, value⟩⟩)
  exact (Finset.card_le_card inside).trans (List.toFinset_card_le _)

def size (filters : Filters κ) : Except String WriteRequest → Nat
  | .error _ => 1
  | .ok writeRequest =>
      4 * (filters.replicateTo ++ namedTenants writeRequest.timeseries).length + 3

def Handler.work (filters : Filters κ) : Handler → Nat
  | .waiting payload _ => size filters payload + 1
  | .entered payload _ => size filters payload
  | .counting handled todo => todo.length + 2 * handled.requests.keys.card + 2
  | .sending _ pool => pool.work + 1
  | .replied _ _ | .gone _ => 0

def Worker.work : Worker → Nat
  | .starting | .polling => 4
  | .initialising | .asking => 3
  | .checking | .found _ | .leaving => 2
  | .checked | .observing _ | .cleaning => 1
  | .spawned | .sleeping | .ended => 0

def Task.work (filters : Filters κ) : Task → Nat
  | .handler h => h.work filters
  | .worker w => w.work

theorem length_increments (order : HashOrder String) (requests : TenantData) :
    (increments order requests).length = 2 * requests.keys.card := by
  rw [increments, List.length_flatMap, ← order.length_iter requests]
  simp [Nat.mul_comm]

theorem Handler.Step.work_lt {h h' : Handler} {a a' : Shared κ} (step : h.Step filters a h' a') :
    h'.work filters < h.work filters := by
  cases step with
  | refuse e since => exact Nat.zero_lt_one
  | aggregate order values writeRequest since a requests built =>
      have few := card_writeRequests_le values filters.tenantLabels a.controller.getTenants
        filters.usesAllowListing filters.replicateTo writeRequest
      rw [built] at few
      simp only [work, size, length_increments]
      omega
  | count handled first rest =>
      simp only [work, List.length_cons]
      omega
  | send order handled =>
      simp only [work, Pool.work_start, HashOrder.length_iter, List.length_nil]
      omega
  | upstream handled pool pool' a moved =>
      have fewer := moved.work_eq
      simp only [work]
      omega
  | reply handled pool a room done => exact Nat.succ_pos _

theorem Handler.Step.holds_eq {h h' : Handler} {a a' : Shared κ} (step : h.Step filters a h' a') :
    h.holds = some .read ∧ (h'.holds = none ∨ h'.holds = some .read) ∧ h.wants = none := by
  cases step <;> simp [holds, wants]

theorem Handler.Leaves.idle {h h' : Handler} (leaves : h.Leaves h') :
    h'.holds = none ∧ h'.wants = none := by
  cases leaves <;> exact ⟨rfl, rfl⟩

theorem Handler.Step.controller_eq {h h' : Handler} {a a' : Shared κ}
    (step : h.Step filters a h' a') : a'.controller = a.controller ∧ a'.polls = a.polls := by
  cases step <;> exact ⟨rfl, rfl⟩

theorem Worker.Step.holds_or {w w' : Worker} {a a' : Shared κ} (step : w.Step filters a w' a') :
    w'.holds = none ∧ w.wants = none ∧ (w.holds.isSome → w'.work < w.work) ∧
      (w.holds ≠ some .write → a' = a) := by
  cases step with
  | check => cases a.controller.k8sClient.isSome <;> simp [holds, wants, work]
  | _ => simp [holds, wants, work]

theorem Handler.holds_of_wants {h : Handler} (waits : h.wants.isSome) : h.holds = none := by
  cases h with
  | waiting payload since => rfl
  | _ => cases waits

theorem Task.holds_of_wants {p : Task} (waits : p.wants.isSome) : p.holds = none := by
  cases p with
  | handler h => exact h.holds_of_wants waits
  | worker w =>
      cases w with
      | starting | checking | polling | found _ | leaving => rfl
      | _ => cases waits

theorem Task.holds_enter {p : Task} (waits : p.wants.isSome) : p.enter.holds = p.wants := by
  cases p with
  | handler h =>
      cases h with
      | waiting payload since => rfl
      | _ => cases waits
  | worker w =>
      cases w with
      | starting | checking | polling | found _ | leaving => rfl
      | _ => cases waits

theorem Task.work_enter {p : Task} (waits : p.wants.isSome) :
    p.enter.work filters < p.work filters := by
  cases p with
  | handler h =>
      cases h with
      | waiting payload since => exact Nat.lt_succ_self _
      | _ => cases waits
  | worker w =>
      cases w with
      | starting | checking | polling | found _ | leaving => exact Nat.lt_succ_self _
      | _ => cases waits

def protocol (filters : Filters κ) :
    Protocol (Shared κ) (IngestionTenantController κ × List Poll) Task where
  holds := Task.holds
  wants := Task.wants
  enter := Task.enter
  guarded a := (a.controller, a.polls)
  fresh := Task.Fresh
  step := Task.Step filters
  leave := Task.Leaves
  work := Task.work filters
  holds_of_wants waits := Task.holds_of_wants waits
  holds_enter waits := Task.holds_enter waits
  work_enter waits := Task.work_enter waits
  fresh_holds new := by
    cases new
    rfl
  step_wants step := by
    cases step with
    | handler step => exact step.holds_eq.2.2
    | worker step => exact step.holds_or.2.1
  step_holds step := by
    cases step with
    | handler step =>
        obtain ⟨reads, after, -⟩ := step.holds_eq
        exact after.imp id fun same => same.trans reads.symm
    | worker step => exact Or.inl step.holds_or.1
  step_work step inside := by
    cases step with
    | handler step => exact step.work_lt
    | worker step => exact step.holds_or.2.2.1 inside
  step_guarded step reads := by
    cases step with
    | handler step => exact Prod.ext step.controller_eq.1 step.controller_eq.2
    | worker step => rw [step.holds_or.2.2.2 reads]
  leave_holds leaves := by
    cases leaves with
    | handler leaves => exact leaves.idle.1
  leave_wants leaves := by
    cases leaves with
    | handler leaves => exact leaves.idle.2

end OpenMetrics.Proxy
