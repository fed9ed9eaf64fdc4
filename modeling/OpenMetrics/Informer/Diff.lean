import OpenMetrics.Informer.Rules
import OpenMetrics.Library.Keyed

namespace OpenMetrics.Informer
open Library KubeLib

def groupNamed (groups : List GroupSpec) (name : String) : Option GroupSpec :=
  Keyed.find GroupSpec.name name groups

theorem findGroupFrom_none {name : String} {l : List (GroupSpec × Int)}
    (absent : ∀ e ∈ l, e.1.name ≠ name) (idx : UInt32) :
    findGroupFrom idx name l = (0, none, -1) := by
  induction l generalizing idx with
  | nil => rfl
  | cons e rest ih =>
      rw [findGroupFrom, if_neg (absent e (by simp))]
      exact ih (fun e' member => absent e' (by simp [member])) _

theorem findGroupFrom_split {name : String} {front back : List (GroupSpec × Int)}
    {group : GroupSpec} {s : Int} (absent : ∀ e ∈ front, e.1.name ≠ name)
    (named : group.name = name) (n : Nat) :
    findGroupFrom (UInt32.ofNat n) name (front ++ (group, s) :: back) =
      (UInt32.ofNat (n + front.length), some group, s) := by
  induction front generalizing n with
  | nil => simp [findGroupFrom, named]
  | cons e rest ih =>
      have next : UInt32.ofNat n + 1 = UInt32.ofNat (n + 1) := by simp [UInt32.ofNat_add]
      rw [List.cons_append, findGroupFrom, if_neg (absent e (by simp)), next,
        ih (fun e' member => absent e' (by simp [member])), List.length_cons,
        Nat.add_right_comm, Nat.add_assoc]

theorem findGroupNamed_none {name : String} {l : List (GroupSpec × Int)}
    (absent : ∀ e ∈ l, e.1.name ≠ name) : findGroupNamed l name = (0, none, -1) :=
  findGroupFrom_none absent 0

theorem findGroupNamed_split {name : String} {front back : List (GroupSpec × Int)}
    {group : GroupSpec} {s : Int} (absent : ∀ e ∈ front, e.1.name ≠ name)
    (named : group.name = name) :
    findGroupNamed (front ++ (group, s) :: back) name =
      (UInt32.ofNat front.length, some group, s) := by
  rw [findGroupNamed, ← Nat.zero_add front.length]
  exact findGroupFrom_split absent named 0

theorem named_cases (name : String) (l : List (GroupSpec × Int)) :
    (∀ e ∈ l, e.1.name ≠ name) ∨ ∃ front group s back, l = front ++ (group, s) :: back ∧
      (∀ e ∈ front, e.1.name ≠ name) ∧ group.name = name := by
  induction l with
  | nil => exact Or.inl (by simp)
  | cons e rest ih =>
      obtain ⟨g, s⟩ := e
      by_cases named : g.name = name
      · exact Or.inr ⟨[], g, s, rest, rfl, by simp, named⟩
      · rcases ih with absent | ⟨front, group, s', back, rfl, absent, named'⟩
        · exact Or.inl (by simpa [named] using absent)
        · exact Or.inr ⟨(g, s) :: front, group, s', back, rfl, by simpa [named] using absent, named'⟩

theorem findGroupNamed_group (l : List (GroupSpec × Int)) (name : String) :
    (findGroupNamed l name).2.1 = groupNamed (l.map Prod.fst) name := by
  cases named_cases name l with
  | inl absent =>
      rw [findGroupNamed_none absent]
      exact (Keyed.find_eq_none.mpr (by simpa using absent)).symm
  | inr holds =>
      obtain ⟨front, group, s, back, rfl, absent, named⟩ := holds
      rw [findGroupNamed_split absent named]
      have before : (front.map Prod.fst).find? (fun g => g.name = name) = none := by
        simpa using absent
      simp [groupNamed, Keyed.find, List.find?_append, before, named]

def entriesOf (m : TenantGroups) (t : String) : List (GroupSpec × Int) := (m.lookup t).getD []

def groupsOf (m : TenantGroups) (t : String) : List GroupSpec := (entriesOf m t).map Prod.fst

theorem entriesOf_of_not_mem {m : TenantGroups} {t : String} (absent : t ∉ m) :
    entriesOf m t = [] := by
  rw [entriesOf, Finmap.lookup_eq_none.mpr absent, Option.getD_none]

def nonEmpty (l : List (GroupSpec × Int)) : Option (List (GroupSpec × Int)) :=
  if 0 < l.length then some l else none

@[simp] theorem nonEmpty_getD (l : List (GroupSpec × Int)) : (nonEmpty l).getD [] = l := by
  cases l <;> simp [nonEmpty]

def updatesFor (target origin : TenantGroups) (t : String) : List (GroupSpec × Int) :=
  (entriesOf origin t).filter fun e => groupNamed (groupsOf target t) e.1.name ≠ some e.1

def removalsFor (target origin : TenantGroups) (t : String) : List (GroupSpec × Int) :=
  (entriesOf target t).filter fun e => groupNamed (groupsOf origin t) e.1.name = none

theorem getOrCreateAction_absent {m : TenantGroups} {t : String} (absent : t ∉ m) :
    getOrCreateAction t m = [] := if_neg absent

theorem foldl_keep {α : Type} (keep : α → Prop) [DecidablePred keep]
    {step : List α → α → List α}
    (law : ∀ acc a, step acc a = if keep a then acc ++ [a] else acc) (l acc : List α) :
    l.foldl step acc = acc ++ l.filter keep := by
  induction l generalizing acc with
  | nil => simp
  | cons a rest ih =>
      rw [List.foldl_cons, ih, law]
      by_cases kept : keep a <;> simp [kept]

theorem groupNamed_unknown {m : TenantGroups} {t : String} (unknown : t ∉ m) (name : String) :
    groupNamed (groupsOf m t) name = none := by
  rw [groupsOf, entriesOf_of_not_mem unknown]
  rfl

theorem collect_eq (keep : GroupSpec × Int → Prop) [DecidablePred keep]
    {step : List (GroupSpec × Int) → GroupSpec × Int → List (GroupSpec × Int)}
    (law : ∀ acc e, step acc e = if keep e then acc ++ [e] else acc) {m : TenantGroups}
    {t : String} (all : t ∉ m → ∀ e, keep e) (l : List (GroupSpec × Int)) :
    (if t ∉ m then [] ++ l else l.foldl step []) = l.filter keep := by
  by_cases known : t ∈ m
  · rw [if_neg (not_not.mpr known), foldl_keep keep law, List.nil_append]
  · rw [if_pos known, List.nil_append]
    exact (List.filter_eq_self.mpr fun e _ => decide_eq_true (all known e)).symm

theorem updateTenant_eq {target origin updates : TenantGroups} {t : String} (fresh : t ∉ updates) :
    updateTenant target origin updates t =
      if 0 < (updatesFor target origin t).length then
        updates.insert t (updatesFor target origin t)
      else updates := by
  simp only [updateTenant, getOrCreateAction_absent fresh]
  rw [collect_eq fun e : GroupSpec × Int => groupNamed (groupsOf target t) e.1.name ≠ some e.1]
  · rfl
  · intro acc e
    rw [groupsOf, entriesOf, ← findGroupNamed_group]
    obtain ⟨idx, found, s⟩ := findGroupNamed ((target.lookup t).getD []) e.1.name
    cases found with
    | none => simp
    | some g =>
        by_cases same : e.1 = g
        · simp [areGroupsEqual, same]
        · simp [areGroupsEqual, same, Ne.symm same]
  · intro unknown e
    simp [groupNamed_unknown unknown]

theorem removeTenantGroups_eq {target origin removals : TenantGroups} {t : String}
    (fresh : t ∉ removals) :
    removeTenantGroups target origin removals t =
      if 0 < (removalsFor target origin t).length then
        removals.insert t (removalsFor target origin t)
      else removals := by
  simp only [removeTenantGroups, getOrCreateAction_absent fresh]
  rw [collect_eq fun e : GroupSpec × Int => groupNamed (groupsOf origin t) e.1.name = none]
  · rfl
  · intro acc e
    rw [groupsOf, entriesOf, ← findGroupNamed_group]
    obtain ⟨idx, found, s⟩ := findGroupNamed ((origin.lookup t).getD []) e.1.name
    cases found <;> simp
  · exact fun unknown e => groupNamed_unknown unknown e.1.name

theorem lookup_pass {step : TenantGroups → String → TenantGroups}
    {value : String → List (GroupSpec × Int)}
    (round : ∀ m t, t ∉ m → step m t =
      if 0 < (value t).length then m.insert t (value t) else m)
    (other : ∀ m t t', t' ≠ t → (step m t).lookup t' = m.lookup t')
    (order : HashOrder String) {source : TenantGroups} (empty : ∀ t ∉ source, value t = [])
    (t : String) :
    ((order.keys source.keys).foldl step ∅).lookup t = nonEmpty (value t) := by
  have own : ∀ m t, t ∉ m → (step m t).lookup t = nonEmpty (value t) := by
    intro m t fresh
    rw [round m t fresh, nonEmpty]
    by_cases more : 0 < (value t).length
    · rw [if_pos more, if_pos more, Finmap.lookup_insert]
    · rw [if_neg more, if_neg more, Finmap.lookup_eq_none.mpr fresh]
  rw [lookup_foldl own other (order.nodup_keys _) ∅ fun _ _ => Finmap.notMem_empty,
    Finmap.lookup_empty]
  split_ifs with visited
  · rfl
  · rw [HashOrder.mem_keys_iff, Finmap.mem_keys] at visited
    rw [empty t visited]
    rfl

theorem lookup_updateTenant_other {target origin updates : TenantGroups} {t t' : String}
    (other : t' ≠ t) :
    (updateTenant target origin updates t).lookup t' = updates.lookup t' := by
  unfold updateTenant
  dsimp only
  split_ifs <;> simp [Finmap.lookup_insert_of_ne _ other]

theorem lookup_removeTenantGroups_other {target origin removals : TenantGroups} {t t' : String}
    (other : t' ≠ t) :
    (removeTenantGroups target origin removals t).lookup t' = removals.lookup t' := by
  unfold removeTenantGroups
  dsimp only
  split_ifs <;> simp [Finmap.lookup_insert_of_ne _ other]

theorem lookup_updates (o p : HashOrder String) (target origin : TenantGroups) (t : String) :
    (diffRuleGroups o p target origin).1.lookup t = nonEmpty (updatesFor target origin t) := by
  apply lookup_pass (fun _ _ => updateTenant_eq) fun _ _ _ => lookup_updateTenant_other
  intro t unknown
  rw [updatesFor, entriesOf_of_not_mem unknown, List.filter_nil]

theorem lookup_removals (o p : HashOrder String) (target origin : TenantGroups) (t : String) :
    (diffRuleGroups o p target origin).2.lookup t = nonEmpty (removalsFor target origin t) := by
  apply lookup_pass (fun _ _ => removeTenantGroups_eq) fun _ _ _ => lookup_removeTenantGroups_other
  intro t unknown
  rw [removalsFor, entriesOf_of_not_mem unknown, List.filter_nil]

theorem entriesOf_updates (o p : HashOrder String) (target origin : TenantGroups) (t : String) :
    entriesOf (diffRuleGroups o p target origin).1 t = updatesFor target origin t := by
  rw [entriesOf, lookup_updates, nonEmpty_getD]

theorem entriesOf_removals (o p : HashOrder String) (target origin : TenantGroups) (t : String) :
    entriesOf (diffRuleGroups o p target origin).2 t = removalsFor target origin t := by
  rw [entriesOf, lookup_removals, nonEmpty_getD]

/-- The groups that a list of resources declares for a tenant, once for every time that a
resource lists the tenant. -/
def declared (rules : List OpenMetricsRule) (t : String) : List GroupSpec :=
  rules.flatMap fun rule => (List.replicate (rule.spec.tenants.count t) rule.spec.groups).flatten

theorem declared_append (front back : List OpenMetricsRule) (t : String) :
    declared (front ++ back) t = declared front t ++ declared back t :=
  List.flatMap_append

def declaredFrom (n : Int) : List OpenMetricsRule → String → List (GroupSpec × Int)
  | [], _ => []
  | rule :: rest, t =>
      (List.replicate (rule.spec.tenants.count t) (rule.spec.groups.map (·, n))).flatten ++
        declaredFrom (n + 1) rest t

theorem map_fst_declaredFrom (n : Int) (rules : List OpenMetricsRule) (t : String) :
    (declaredFrom n rules t).map Prod.fst = declared rules t := by
  induction rules generalizing n with
  | nil => rfl
  | cons rule rest ih =>
      rw [declaredFrom, List.map_append, ih, List.map_flatten, List.map_replicate, List.map_map]
      simp [declared, Function.comp_def]

theorem mem_declared {rules : List OpenMetricsRule} {t : String} {g : GroupSpec} :
    g ∈ declared rules t ↔ ∃ rule ∈ rules, t ∈ rule.spec.tenants ∧ g ∈ rule.spec.groups := by
  simp only [declared, List.mem_flatMap, List.mem_flatten, List.mem_replicate]
  constructor
  · intro declares
    rcases declares with ⟨rule, listed, _, ⟨names, rfl⟩, member⟩
    exact ⟨rule, listed, List.count_pos_iff.mp (Nat.pos_of_ne_zero names), member⟩
  · intro declares
    rcases declares with ⟨rule, listed, names, member⟩
    exact ⟨rule, listed, _, ⟨(List.count_pos_iff.mpr names).ne', rfl⟩, member⟩

theorem mem_declaredFrom {n : Nat} {rules : List OpenMetricsRule} {t : String} {g : GroupSpec}
    {k : Int} (member : (g, k) ∈ declaredFrom n rules t) :
    ∃ i rule, k = ((n + i : Nat) : Int) ∧ rules[i]? = some rule ∧ t ∈ rule.spec.tenants ∧
      g ∈ rule.spec.groups := by
  induction rules generalizing n with
  | nil => simp [declaredFrom] at member
  | cons rule rest ih =>
      rw [declaredFrom, List.mem_append] at member
      cases member with
      | inl here =>
          obtain ⟨l, copied, inside⟩ := List.mem_flatten.mp here
          obtain ⟨names, rfl⟩ := List.mem_replicate.mp copied
          obtain ⟨g', member', same⟩ := List.mem_map.mp inside
          obtain ⟨rfl, rfl⟩ := Prod.mk.inj same
          exact ⟨0, rule, rfl, rfl, List.count_pos_iff.mp (Nat.pos_of_ne_zero names), member'⟩
      | inr later =>
          have next : (n : Int) + 1 = ((n + 1 : Nat) : Int) := rfl
          rw [next] at later
          obtain ⟨i, rule', rfl, found, names, member'⟩ := ih later
          exact ⟨i + 1, rule', by omega, by simpa using found, names, member'⟩

def addTenantGroups (groups : List (GroupSpec × Int)) (tenantSpecs : TenantGroups)
    (tenantId : String) : TenantGroups :=
  tenantSpecs.insert tenantId (entriesOf tenantSpecs tenantId ++ groups)

theorem entriesOf_addTenantGroups (groups : List (GroupSpec × Int)) (l : List String)
    (tenantSpecs : TenantGroups) (t : String) :
    entriesOf (l.foldl (addTenantGroups groups) tenantSpecs) t =
      entriesOf tenantSpecs t ++ (List.replicate (l.count t) groups).flatten := by
  induction l generalizing tenantSpecs with
  | nil => simp
  | cons tenantId rest ih =>
      rw [List.foldl_cons, ih, addTenantGroups]
      by_cases same : t = tenantId
      · subst same
        rw [entriesOf, Finmap.lookup_insert, Option.getD_some, List.count_cons_self,
          List.replicate_succ, List.flatten_cons, List.append_assoc]
      · rw [entriesOf, Finmap.lookup_insert_of_ne _ same, List.count_cons_of_ne (Ne.symm same)]
        rfl

theorem addRule_eq (acc : TenantGroups × Int) (rule : OpenMetricsRule) :
    addRule acc rule =
      (rule.spec.tenants.foldl (addTenantGroups (rule.spec.groups.map (·, acc.2))) acc.1,
        acc.2 + 1) := by
  have step (tenantSpecs : TenantGroups) (tenantId : String) :
      ((if tenantId ∉ tenantSpecs then tenantSpecs.insert tenantId [] else tenantSpecs).insert
        tenantId ((((if tenantId ∉ tenantSpecs then tenantSpecs.insert tenantId []
          else tenantSpecs).lookup tenantId).getD []) ++ rule.spec.groups.map (·, acc.2))) =
      addTenantGroups (rule.spec.groups.map (·, acc.2)) tenantSpecs tenantId := by
    by_cases known : tenantId ∈ tenantSpecs
    · rw [if_neg (not_not.mpr known)]
      rfl
    · rw [if_pos known, Finmap.insert_insert, Finmap.lookup_insert, addTenantGroups,
        entriesOf_of_not_mem known]
      rfl
  exact congrArg (fun m => (m, acc.2 + 1)) (List.foldl_ext _ _ _ fun m t _ => step m t)

theorem entriesOf_tenantMap (rules : List OpenMetricsRule) (t : String) :
    entriesOf (getTenantMapFromRulesList rules) t = declaredFrom 0 rules t := by
  have loop (m : TenantGroups) (n : Int) :
      entriesOf (rules.foldl addRule (m, n)).1 t = entriesOf m t ++ declaredFrom n rules t := by
    induction rules generalizing m n with
    | nil => simp [declaredFrom]
    | cons rule rest ih =>
        rw [List.foldl_cons, addRule_eq, ih, entriesOf_addTenantGroups, declaredFrom,
          List.append_assoc]
  rw [getTenantMapFromRulesList, loop]
  simp [entriesOf]

theorem groupsOf_tenantMap (rules : List OpenMetricsRule) (t : String) :
    groupsOf (getTenantMapFromRulesList rules) t = declared rules t := by
  rw [groupsOf, entriesOf_tenantMap, map_fst_declaredFrom]

theorem exists_declaring {o p : HashOrder String} {r : TenantGroups}
    {rules : List OpenMetricsRule} {t : String} {e : GroupSpec × Int}
    (update : e ∈ entriesOf (diffRuleGroups o p r (getTenantMapFromRulesList rules)).1 t) :
    ∃ (i : Nat) (rule : OpenMetricsRule), e.2 = i ∧ rules[i]? = some rule ∧
      t ∈ rule.spec.tenants ∧ e.1 ∈ rule.spec.groups := by
  rw [entriesOf_updates, updatesFor, List.mem_filter, entriesOf_tenantMap] at update
  obtain ⟨i, rule, index, found, declares⟩ := mem_declaredFrom (n := 0) update.1
  rw [Nat.zero_add] at index
  exact ⟨i, rule, index, found, declares⟩

end OpenMetrics.Informer
