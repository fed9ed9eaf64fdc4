import OpenMetrics.Informer.Crud
import OpenMetrics.Informer.Diff

namespace OpenMetrics.Informer
open Library KubeLib

def Holds (t name : String) (rule : OpenMetricsRule) : Prop :=
  t ∈ rule.spec.tenants ∧ ∃ g ∈ rule.spec.groups, g.name = name

instance (t name : String) : DecidablePred (Holds t name) :=
  fun _ => inferInstanceAs (Decidable (_ ∧ _))

def firstHolder (t name : String) (rules : List OpenMetricsRule) : Option OpenMetricsRule :=
  rules.find? fun rule => Holds t name rule

def groupPosition (name : String) (rule : OpenMetricsRule) : Nat :=
  rule.spec.groups.findIdx fun g => g.name = name

def groupIndex (name : String) (rule : OpenMetricsRule) : UInt32 :=
  UInt32.ofNat (groupPosition name rule)

variable {t name : String} {rules : List OpenMetricsRule} {rule : OpenMetricsRule}

theorem firstHolder_eq_none :
    firstHolder t name rules = none ↔ ∀ rule ∈ rules, ¬ Holds t name rule := by
  simp [firstHolder]

theorem firstHolder_holds (found : firstHolder t name rules = some rule) : Holds t name rule := by
  simpa using List.find?_some found

theorem firstHolder_mem (found : firstHolder t name rules = some rule) : rule ∈ rules :=
  List.mem_of_find?_eq_some found

theorem firstHolder_split (found : firstHolder t name rules = some rule) :
    ∃ front back, rules = front ++ rule :: back ∧ ∀ r ∈ front, ¬ Holds t name r := by
  obtain ⟨-, front, back, split, apart⟩ := List.find?_eq_some_iff_append.mp found
  exact ⟨front, back, split, fun r member => by simpa using apart r member⟩

theorem firstHolder_of_declared {g : GroupSpec} (declares : g ∈ declared rules t) :
    firstHolder t g.name rules ≠ none := by
  obtain ⟨rule, listed, names, member⟩ := mem_declared.mp declares
  exact fun missing => firstHolder_eq_none.mp missing rule listed ⟨names, g, member, rfl⟩

theorem named_split (groups : List GroupSpec) (named : ∃ g ∈ groups, g.name = name) :
    ∃ front g back, groups = front ++ g :: back ∧ (∀ g' ∈ front, g'.name ≠ name) ∧
      g.name = name ∧ front.length = groups.findIdx fun g => g.name = name := by
  induction groups with
  | nil => simp at named
  | cons g rest ih =>
      by_cases here : g.name = name
      · exact ⟨[], g, rest, rfl, by simp, here, by simp [List.findIdx_cons, here]⟩
      · obtain ⟨front, g', back, rfl, apart, named', position⟩ := ih (by simpa [here] using named)
        refine ⟨g :: front, g', back, rfl, by simpa [here] using apart, named', ?_⟩
        rw [List.findIdx_cons]
        simp [here, position]

theorem groups_split (holds : Holds t name rule) :
    ∃ front g back, rule.spec.groups = front ++ g :: back ∧ (∀ g' ∈ front, g'.name ≠ name) ∧
      g.name = name ∧ front.length = groupPosition name rule :=
  named_split rule.spec.groups holds.2

theorem groupPosition_lt (holds : Holds t name rule) :
    groupPosition name rule < rule.spec.groups.length := by
  obtain ⟨front, g, back, split, -, -, position⟩ := groups_split holds
  rw [← position, split, List.length_append, List.length_cons]
  omega

theorem groupIndex_lt (holds : Holds t name rule) :
    (groupIndex name rule).toNat < rule.spec.groups.length := by
  have reduced := Nat.mod_le (groupPosition name rule) (2 ^ 32)
  rw [groupIndex, UInt32.toNat_ofNat']
  exact reduced.trans_lt (groupPosition_lt holds)

theorem groupIndex_toNat (fits : groupPosition name rule < 2 ^ 32) :
    (groupIndex name rule).toNat = groupPosition name rule := by
  rw [groupIndex, UInt32.toNat_ofNat', Nat.mod_eq_of_lt fits]

theorem getElem_groupIndex (holds : Holds t name rule) (fits : groupPosition name rule < 2 ^ 32) :
    ∃ g, rule.spec.groups[(groupIndex name rule).toNat]? = some g ∧ g.name = name := by
  obtain ⟨front, g, back, split, -, named, position⟩ := groups_split holds
  exact ⟨g, by simp [groupIndex_toNat fits, ← position, split], named⟩

/-- The position that a write of the name would go to is one of a `u32`. -/
def Fits (t name : String) (rules : List OpenMetricsRule) : Prop :=
  ∀ rule, firstHolder t name rules = some rule → groupPosition name rule < 2 ^ 32

theorem set_eq_self_iff {α : Type} {l : List α} {i : Nat} {a : α} (inside : i < l.length) :
    l.set i a = l ↔ l[i]? = some a := by
  constructor
  · intro same
    rw [← same, List.getElem?_set_self inside]
  · intro here
    obtain ⟨_, rfl⟩ := List.getElem?_eq_some_iff.mp here
    exact List.set_getElem_self inside

theorem searchGroup_eq (t name : String) (rules : List OpenMetricsRule) :
    searchGroup t name rules =
      (firstHolder t name rules).map fun rule => (rule, groupIndex name rule) := by
  induction rules with
  | nil => rfl
  | cons rule rest ih =>
      rw [searchGroup]
      by_cases listed : t ∈ rule.spec.tenants
      · rw [if_pos listed]
        by_cases named : ∃ g ∈ rule.spec.groups, g.name = name
        · have here : firstHolder t name (rule :: rest) = some rule :=
            List.find?_cons_of_pos (decide_eq_true ⟨listed, named⟩)
          obtain ⟨front, g, back, split, apart, same, position⟩ := named_split _ named
          rw [here, Option.map_some, groupIndex, groupPosition, ← position, split, List.map_append,
            List.map_cons, findGroupNamed_split (by simpa using apart) same, List.length_map]
        · have later : firstHolder t name (rule :: rest) = firstHolder t name rest :=
            List.find?_cons_of_neg (by rw [decide_eq_true_iff]; exact fun holds => named holds.2)
          rw [later, ← ih, findGroupNamed_none (by simpa using named)]
      · have later : firstHolder t name (rule :: rest) = firstHolder t name rest :=
          List.find?_cons_of_neg (by rw [decide_eq_true_iff]; exact fun holds => listed holds.1)
        rw [if_neg listed, later, ih]

end OpenMetrics.Informer
