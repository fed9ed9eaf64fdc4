import OpenMetrics.KubeLib.Resources
import OpenMetrics.Library.Keyed

namespace OpenMetrics.Informer
open Library KubeLib

def bareGroup (name : String) : GroupSpec := { name := name, interval := none, rules := [] }

def nameOf (rule : OpenMetricsRule) : Option String := rule.metadata.name

structure Cluster where
  rules : List OpenMetricsRule
  named : ∀ rule ∈ rules, (nameOf rule).isSome
  nodup : (rules.map nameOf).Nodup

namespace Cluster

def empty : Cluster where
  rules := []
  named := by simp
  nodup := List.nodup_nil

def single (name : String) (tenants : List String) (groups : List GroupSpec) : Cluster where
  rules := [.new name { tenants := tenants, description := none, groups := groups }]
  named := by simp [nameOf, OpenMetricsRule.new]
  nodup := by simp

def find (cluster : Cluster) (name : String) : Option OpenMetricsRule :=
  Keyed.find nameOf (some name) cluster.rules

def applied (name : String) (rule : OpenMetricsRule) : OpenMetricsRule :=
  { rule with metadata := { rule.metadata with name := some name } }

def apply (cluster : Cluster) (place : Nat) (name : String) (rule : OpenMetricsRule) : Cluster where
  rules := Keyed.write nameOf place (applied name rule) cluster.rules
  named := by
    intro r member
    cases (Keyed.mem_write nameOf place _ cluster.nodup).mp member with
    | inl same =>
        subst same
        rfl
    | inr before =>
        obtain ⟨old, -⟩ := before
        exact cluster.named r old
  nodup := Keyed.nodup_write nameOf place _ cluster.nodup

def delete (cluster : Cluster) (name : String) : Cluster where
  rules := Keyed.delete nameOf (some name) cluster.rules
  named r member := cluster.named r ((Keyed.mem_delete nameOf).mp member).1
  nodup := Keyed.nodup_delete nameOf _ cluster.nodup

variable (cluster : Cluster)

theorem find_apply (place : Nat) (name : String) (rule : OpenMetricsRule) (name' : String) :
    (cluster.apply place name rule).find name' =
      if name' = name then some (applied name rule) else cluster.find name' := by
  simp [find, apply, Keyed.find_write cluster.nodup, nameOf, applied]

theorem find_delete (name name' : String) :
    (cluster.delete name).find name' = if name' = name then none else cluster.find name' := by
  simp [find, delete, Keyed.find_delete cluster.nodup]

variable {cluster}

theorem find_eq_some {name : String} {rule : OpenMetricsRule} :
    cluster.find name = some rule ↔ rule ∈ cluster.rules ∧ nameOf rule = some name :=
  Keyed.find_eq_some cluster.nodup

theorem find_of_mem {rule : OpenMetricsRule} (member : rule ∈ cluster.rules) :
    ∃ name, nameOf rule = some name ∧ cluster.find name = some rule := by
  obtain ⟨name, named⟩ := Option.isSome_iff_exists.mp (cluster.named rule member)
  exact ⟨name, named, find_eq_some.mpr ⟨member, named⟩⟩

theorem apply_over {front back : List OpenMetricsRule} {old : OpenMetricsRule} {name : String}
    (split : cluster.rules = front ++ old :: back) (named : nameOf old = some name)
    (place : Nat) (rule : OpenMetricsRule) :
    (cluster.apply place name rule).rules = front ++ applied name rule :: back := by
  have nodup := cluster.nodup
  rw [split] at nodup
  show Keyed.write nameOf place (applied name rule) cluster.rules = _
  rw [split]
  exact Keyed.write_over nameOf place nodup named

theorem apply_new {name : String} (new : cluster.find name = none) (place : Nat)
    (rule : OpenMetricsRule) :
    ∃ front back, cluster.rules = front ++ back ∧
      (cluster.apply place name rule).rules = front ++ applied name rule :: back := by
  refine Keyed.write_new nameOf place ?_
  simpa [nameOf, applied] using Keyed.find_eq_none.mp new

theorem delete_split {front back : List OpenMetricsRule} {old : OpenMetricsRule} {name : String}
    (split : cluster.rules = front ++ old :: back) (named : nameOf old = some name) :
    (cluster.delete name).rules = front ++ back := by
  have nodup := cluster.nodup
  rw [split] at nodup
  show Keyed.delete nameOf (some name) cluster.rules = _
  rw [split, ← named]
  exact Keyed.delete_split nameOf nodup

end Cluster

structure RulerStore where
  groups : String → List GroupSpec
  nodup : ∀ t, ((groups t).map GroupSpec.name).Nodup

namespace RulerStore

def empty : RulerStore where
  groups _ := []
  nodup _ := List.nodup_nil

def single (tenantId : String) (groups : List GroupSpec)
    (nodup : (groups.map GroupSpec.name).Nodup) : RulerStore where
  groups t := if t = tenantId then groups else []
  nodup t := by
    split_ifs
    · exact nodup
    · exact List.nodup_nil

variable (ruler : RulerStore)

def find (slot : String × String) : Option GroupSpec :=
  Keyed.find GroupSpec.name slot.2 (ruler.groups slot.1)

def post (place : Nat) (tenantId : String) (group : GroupSpec) : RulerStore where
  groups t :=
    if t = tenantId then Keyed.write GroupSpec.name place group (ruler.groups t)
    else ruler.groups t
  nodup t := by
    split_ifs
    · exact Keyed.nodup_write GroupSpec.name place group (ruler.nodup t)
    · exact ruler.nodup t

/-- A deletion takes the groups of the tenant whose names it addresses. -/
def delete (addressed : String → Bool) (tenantId : String) : RulerStore where
  groups t :=
    if t = tenantId then (ruler.groups t).filter fun g => !addressed g.name else ruler.groups t
  nodup t := by
    split_ifs
    · exact (ruler.nodup t).sublist (List.filter_sublist.map GroupSpec.name)
    · exact ruler.nodup t

theorem find_post (place : Nat) (tenantId : String) (group : GroupSpec)
    (slot : String × String) :
    (ruler.post place tenantId group).find slot =
      if slot = (tenantId, group.name) then some group else ruler.find slot := by
  obtain ⟨t, name⟩ := slot
  by_cases same : t = tenantId
  · subst same
    simp [find, post, Keyed.find_write (ruler.nodup t)]
  · simp [find, post, same]

variable {ruler}

theorem mem_delete {addressed : String → Bool} {tenantId t : String} {g : GroupSpec} :
    g ∈ (ruler.delete addressed tenantId).groups t ↔
      g ∈ ruler.groups t ∧ ¬ (t = tenantId ∧ addressed g.name) := by
  by_cases same : t = tenantId <;> simp [delete, same]

theorem find_eq_some {t name : String} {g : GroupSpec} :
    ruler.find (t, name) = some g ↔ g ∈ ruler.groups t ∧ g.name = name :=
  Keyed.find_eq_some (ruler.nodup t)

theorem find_of_mem {t : String} {g : GroupSpec} (member : g ∈ ruler.groups t) :
    ruler.find (t, g.name) = some g :=
  find_eq_some.mpr ⟨member, rfl⟩

variable (ruler) in
theorem find_delete (addressed : String → Bool) (tenantId : String) (slot : String × String) :
    (ruler.delete addressed tenantId).find slot =
      if slot.1 = tenantId ∧ addressed slot.2 then none else ruler.find slot := by
  obtain ⟨t, name⟩ := slot
  ext g
  rw [find_eq_some, mem_delete]
  split_ifs with deleted
  · refine iff_of_false (fun found => ?_) not_false
    obtain ⟨⟨-, stays⟩, rfl⟩ := found
    exact stays deleted
  · rw [find_eq_some]
    constructor
    · exact fun found => ⟨found.1.1, found.2⟩
    · intro found
      rcases found with ⟨member, rfl⟩
      exact ⟨⟨member, deleted⟩, rfl⟩

end RulerStore

end OpenMetrics.Informer
