import OpenMetrics.Informer.Mirror
import OpenMetrics.Informer.Patch
import OpenMetrics.Informer.Sweep

namespace OpenMetrics.Informer
open Library KubeLib

def World.Vacant (w : World) (name : String) : Prop :=
  ∀ ts gs, w.content name = some (ts, gs) → gs = []

theorem World.not_vacant_iff {w : World} {name : String} :
    ¬ w.Vacant name ↔ ∃ ts gs, w.content name = some (ts, gs) ∧ gs ≠ [] := by
  simp [Vacant]

theorem World.oneTenant_iff {w : World} : w.OneTenant ↔
    ∀ name ts gs, w.content name = some (ts, gs) → ∃ t, ts = [t] := by
  constructor
  · intro single name ts gs here
    obtain ⟨rule, member, -, rfl, rfl⟩ := content_mem here
    exact single rule member
  · intro single rule member
    obtain ⟨name, named, -⟩ := Cluster.find_of_mem member
    exact single name _ _ (content_of_mem member named)

theorem World.OneTenant.eq {w : World} (single : w.OneTenant) {name : String} {ts : List String}
    {gs : List GroupSpec} (here : w.content name = some (ts, gs)) {t t' : String} (lists : t ∈ ts)
    (lists' : t' ∈ ts) : t = t' := by
  obtain ⟨t'', rfl⟩ := World.oneTenant_iff.mp single name ts gs here
  exact (List.mem_singleton.mp lists).trans (List.mem_singleton.mp lists').symm

inductive Put (live : Live) (t : String) (g : GroupSpec) (w w' : World) : Prop
  | edited (name : String) (ts : List String) (gs : List GroupSpec) (i : Nat)
      (here : w.content name = some (ts, gs)) (lists : t ∈ ts)
      (named : ∃ g' ∈ gs, g'.name = g.name) (inside : i < gs.length)
      (fits : Fits t g.name w.cluster.rules → ∃ old, gs[i]? = some old ∧ old.name = g.name)
      (after : ∀ name', w'.content name' =
        if name' = name then some (ts, gs.set i g) else w.content name')
  | created (undeclared : ¬ DeclaresName w.cluster.rules t g.name)
      (after : ∀ name', w'.content name' =
        if name' = computedName live.sha1 t g.name then some ([t], [g]) else w.content name')

theorem firstHolder_none_iff {rules : List OpenMetricsRule} {t name : String} :
    firstHolder t name rules = none ↔ ¬ DeclaresName rules t name := by
  rw [firstHolder_eq_none]
  constructor
  · intro unheld declares
    rcases declares with ⟨g, member, named⟩
    obtain ⟨rule, listed, lists, group⟩ := mem_declared.mp member
    exact unheld rule listed ⟨lists, g, group, named⟩
  · intro undeclared rule listed holds
    rcases holds with ⟨lists, g, group, named⟩
    exact undeclared ⟨g, mem_declared.mpr ⟨rule, listed, lists, group⟩, named⟩

theorem Live.put_shape (live : Live) (t : String) (g : GroupSpec) (w : World) :
    Put live t g w (live.put t g w) := by
  cases found : firstHolder t g.name w.cluster.rules with
  | none => exact .created (firstHolder_none_iff.mp found) (content_put_missing found)
  | some rule =>
      have member := firstHolder_mem found
      have holds := firstHolder_holds found
      obtain ⟨name, named, -⟩ := Cluster.find_of_mem member
      exact .edited name _ _ _ (World.content_of_mem member named) holds.1 holds.2
        (groupIndex_lt holds) (fun fits => getElem_groupIndex holds (fits rule found))
        (content_put_found found named)

section
variable {live : Live} {t t' : String} {g g' : GroupSpec} {w w' : World}

theorem Put.declares (put : Put live t g w w') : g ∈ declared w'.cluster.rules t := by
  rw [World.mem_declared]
  cases put with
  | edited name ts gs i here lists named inside fits after =>
      refine ⟨name, ts, gs.set i g, by rw [after, if_pos rfl], lists, ?_⟩
      exact List.mem_iff_getElem?.mpr ⟨i, List.getElem?_set_self inside⟩
  | created undeclared after =>
      exact ⟨_, _, _, (after _).trans (if_pos rfl), by simp, by simp⟩

theorem Put.occupied (put : Put live t g w w') {name : String} (before : ¬ w.Vacant name) :
    ¬ w'.Vacant name := by
  obtain ⟨ts', gs', shown, more⟩ := World.not_vacant_iff.mp before
  rw [World.not_vacant_iff]
  cases put with
  | edited changed ts gs i here lists named inside fits after =>
      by_cases same : name = changed
      · refine ⟨ts, gs.set i g, by rw [after, if_pos same], fun empty => ?_⟩
        rw [List.set_eq_nil_iff] at empty
        rw [empty] at inside
        exact Nat.not_lt_zero i inside
      · exact ⟨ts', gs', by rw [after, if_neg same, shown], more⟩
  | created undeclared after =>
      by_cases same : name = computedName live.sha1 t g.name
      · exact ⟨[t], [g], by rw [after, if_pos same], List.cons_ne_nil g []⟩
      · exact ⟨ts', gs', by rw [after, if_neg same, shown], more⟩

theorem Put.content_before (put : Put live t g w w') {name : String} {ts : List String}
    {gs' : List GroupSpec} (shown : w'.content name = some (ts, gs')) :
    w.content name = some (ts, gs') ∨
    (∃ gs i, w.content name = some (ts, gs) ∧ t ∈ ts ∧ gs ≠ [] ∧ gs' = gs.set i g) ∨
    ((¬ DeclaresName w.cluster.rules t g.name ∧ name = computedName live.sha1 t g.name) ∧
      ts = [t] ∧ gs' = [g]) := by
  cases put with
  | edited changed ts₀ gs i here lists named inside fits after =>
      rw [after] at shown
      split_ifs at shown with same
      · obtain ⟨rfl, rfl⟩ := Prod.mk.inj (Option.some.inj shown)
        exact Or.inr (Or.inl ⟨gs, i, same ▸ here, lists,
          List.ne_nil_of_length_pos (Nat.zero_lt_of_lt inside), rfl⟩)
      · exact Or.inl shown
  | created undeclared after =>
      rw [after] at shown
      split_ifs at shown with same
      · obtain ⟨rfl, rfl⟩ := Prod.mk.inj (Option.some.inj shown)
        exact Or.inr (Or.inr ⟨⟨undeclared, same⟩, rfl, rfl⟩)
      · exact Or.inl shown

theorem Put.occupied_before (put : Put live t g w w') {name : String} (after : ¬ w'.Vacant name) :
    ¬ w.Vacant name ∨
      ¬ DeclaresName w.cluster.rules t g.name ∧ name = computedName live.sha1 t g.name := by
  obtain ⟨ts, gs', shown, more⟩ := World.not_vacant_iff.mp after
  rw [World.not_vacant_iff]
  rcases put.content_before shown with same | ⟨gs, i, before, -, more', -⟩ | ⟨created, -⟩
  · exact Or.inl ⟨ts, gs', same, more⟩
  · exact Or.inl ⟨ts, gs, before, more'⟩
  · exact Or.inr created

theorem Put.oneTenant (put : Put live t g w w') (single : w.OneTenant) : w'.OneTenant := by
  rw [World.oneTenant_iff] at single ⊢
  intro name ts gs' shown
  rcases put.content_before shown with same | ⟨gs, i, before, -⟩ | ⟨-, rfl, -⟩
  · exact single name ts gs' same
  · exact single name ts gs before
  · simp

theorem Put.declared_before (put : Put live t g w w') (single : w.OneTenant)
    (declares : g' ∈ declared w'.cluster.rules t') :
    g' ∈ declared w.cluster.rules t' ∨ t' = t ∧ g' = g := by
  rw [World.mem_declared] at declares ⊢
  obtain ⟨name, ts, gs', shown, lists', member⟩ := declares
  rcases put.content_before shown with same | ⟨gs, i, before, lists, -, rfl⟩ | ⟨-, rfl, rfl⟩
  · exact Or.inl ⟨name, ts, gs', same, lists', member⟩
  · cases List.mem_or_eq_of_mem_set member with
    | inl old => exact Or.inl ⟨name, ts, gs, before, lists', old⟩
    | inr written =>
        exact Or.inr ⟨single.eq before lists' lists, written⟩
  · exact Or.inr ⟨List.mem_singleton.mp lists', List.mem_singleton.mp member⟩

theorem Put.keeps (put : Put live t g w w') (fits : Fits t g.name w.cluster.rules)
    (single : w.OneTenant)
    (vacant : ¬ DeclaresName w.cluster.rules t g.name →
      w.Vacant (computedName live.sha1 t g.name))
    (declares : g' ∈ declared w.cluster.rules t') (other : (t, g.name) ≠ (t', g'.name)) :
    g' ∈ declared w'.cluster.rules t' := by
  rw [World.mem_declared] at declares ⊢
  obtain ⟨name, ts', gs', shown, lists', member⟩ := declares
  cases put with
  | edited changed ts gs i here lists named inside at_ after =>
      by_cases same : name = changed
      · subst same
        obtain ⟨rfl, rfl⟩ := Prod.mk.inj (Option.some.inj (here.symm.trans shown))
        obtain rfl := single.eq here lists lists'
        obtain ⟨old, at_, oldName⟩ := at_ fits
        refine ⟨name, _, _, (after name).trans (if_pos rfl), lists', ?_⟩
        refine mem_set_of_name_ne member at_ fun sameName => other ?_
        rw [← oldName, sameName]
      · exact ⟨name, ts', gs', by rw [after, if_neg same, shown], lists', member⟩
  | created undeclared after =>
      refine ⟨name, ts', gs', ?_, lists', member⟩
      rw [after, if_neg, shown]
      intro same
      obtain rfl := same
      rw [vacant undeclared _ _ shown] at member
      cases member

theorem Put.creates (put : Put live t g w w')
    (undeclared : ¬ DeclaresName w.cluster.rules t g.name) :
    ¬ w'.Vacant (computedName live.sha1 t g.name) := by
  cases put with
  | edited name ts gs i here lists named inside fits after =>
      obtain ⟨g', member, named⟩ := named
      exact absurd ⟨g', World.mem_declared.mpr ⟨name, ts, gs, here, lists, member⟩, named⟩ undeclared
  | created _ after =>
      exact World.not_vacant_iff.mpr ⟨[t], [g], (after _).trans (if_pos rfl), List.cons_ne_nil g []⟩

end

def shape (rule : OpenMetricsRule) : List String × List String := (rule.spec.tenants, namesIn rule)

def holderNames (t n : String) (rules : List OpenMetricsRule) : Option (List String) :=
  (firstHolder t n rules).map namesIn

theorem holds_iff {t n : String} {rule : OpenMetricsRule} :
    Holds t n rule ↔ t ∈ rule.spec.tenants ∧ n ∈ namesIn rule := by
  simp [Holds, namesIn]

theorem holderNames_congr {rules rules' : List OpenMetricsRule}
    (same : rules'.map shape = rules.map shape) (t n : String) :
    holderNames t n rules' = holderNames t n rules := by
  have ofShapes (rules : List OpenMetricsRule) : holderNames t n rules =
      ((rules.map shape).find? fun s => t ∈ s.1 ∧ n ∈ s.2).map Prod.snd := by
    rw [List.find?_map, Option.map_map, holderNames, firstHolder]
    congr 2
    exact funext fun rule => decide_eq_decide.mpr holds_iff
  rw [ofShapes, ofShapes, same]

theorem declaredNames_congr {rules rules' : List OpenMetricsRule}
    (same : rules'.map shape = rules.map shape) (t : String) :
    declaredNames rules' t = declaredNames rules t := by
  have ofShapes (rules : List OpenMetricsRule) : declaredNames rules t =
      (rules.map shape).flatMap fun s => (List.replicate (s.1.count t) s.2).flatten := by
    rw [List.flatMap_map, declaredNames, declared, List.map_flatMap]
    simp [shape, namesIn, List.map_flatten, List.map_replicate]
  rw [ofShapes, ofShapes, same]

theorem groupPosition_eq (n : String) (rule : OpenMetricsRule) :
    groupPosition n rule = (namesIn rule).idxOf n := by
  rw [groupPosition, namesIn, List.idxOf, List.findIdx_map]
  rfl

structure NamesKept (r : TenantGroups) (before after : List OpenMetricsRule) : Prop where
  holders : ∀ t n names, holderNames t n after = some names →
    holderNames t n before = some names ∨ names = [n]
  strangers : ∀ t, (declaredNames after t).filter (¬ Known r t ·) =
    (declaredNames before t).filter (¬ Known r t ·)
  shapes : ∀ rule ∈ after, shape rule ∈ before.map shape ∨
    ∀ t ∈ rule.spec.tenants, ∀ n ∈ namesIn rule, Known r t n

namespace NamesKept

variable {r : TenantGroups} {before after : List OpenMetricsRule}

theorem of_shapes (same : after.map shape = before.map shape) : NamesKept r before after where
  holders t n names held := Or.inl (by rwa [← holderNames_congr same])
  strangers t := by rw [declaredNames_congr same]
  shapes rule member := Or.inl (same ▸ List.mem_map_of_mem member)

theorem trans {between : List OpenMetricsRule} (first : NamesKept r before between)
    (second : NamesKept r between after) : NamesKept r before after where
  holders t n names held := (second.holders t n names held).elim (first.holders t n names) Or.inr
  strangers t := (second.strangers t).trans (first.strangers t)
  shapes rule member := by
    cases second.shapes rule member with
    | inr known => exact Or.inr known
    | inl old =>
        obtain ⟨rule', member', same⟩ := List.mem_map.mp old
        obtain ⟨tenants, names⟩ := Prod.mk.inj same
        have shapes := first.shapes rule' member'
        rwa [same, tenants, names] at shapes

theorem fits (named : NamesKept r before after) {t n : String}
    (room : ∀ names, holderNames t n before = some names → names.idxOf n < 2 ^ 32) :
    Fits t n after := by
  intro rule found
  rw [groupPosition_eq]
  rcases named.holders t n (namesIn rule) (by rw [holderNames, found, Option.map_some]) with
    old | alone
  · exact room _ old
  · rw [alone, List.idxOf_cons_self]
    omega

theorem sweepFits (named : NamesKept r before after) {t : String}
    (fits : Live.SweepFits (Known r t) t before) : Live.SweepFits (Known r t) t after := by
  intro rule member lists front n back split bad
  rcases named.shapes rule member with old | known
  · obtain ⟨rule', member', sameShape⟩ := List.mem_map.mp old
    obtain ⟨tenants, names⟩ := Prod.mk.inj sameShape
    exact fits rule' member' (tenants ▸ lists) front n back (names.trans split) bad
  · exact absurd (known t lists n (by simp [split])) bad

end NamesKept

section
variable {live : Live} {r : TenantGroups} {before : List OpenMetricsRule} {w : World} {t : String}
  {g : GroupSpec}

theorem NamesKept.created {front replaced back : List OpenMetricsRule} {after : OpenMetricsRule}
    (unheld : ∀ r ∈ front, ¬ Holds t g.name r) (empty : ∀ r ∈ replaced, r.spec.groups = [])
    (tenants : after.spec.tenants = [t]) (groups : after.spec.groups = [g])
    (known : Known r t g.name) :
    NamesKept r (front ++ (replaced ++ back)) (front ++ after :: back) := by
  have names : namesIn after = [g.name] := by
    rw [namesIn, groups]
    rfl
  have holdsAfter {t' n : String} : Holds t' n after ↔ t' = t ∧ n = g.name := by
    simp [holds_iff, tenants, names]
  refine ⟨fun t' n held here => ?_, fun t' => ?_, fun rule member => ?_⟩
  · rw [holderNames, firstHolder, List.find?_append] at here
    by_cases own : t' = t ∧ n = g.name
    · obtain ⟨rfl, rfl⟩ := own
      have first : front.find? (fun r => Holds t' g.name r) = none := by simpa using unheld
      have second : (after :: back).find? (fun r => Holds t' g.name r) = some after :=
        List.find?_cons_of_pos (decide_eq_true (holdsAfter.mpr ⟨rfl, rfl⟩))
      rw [first, second, Option.none_or, Option.map_some, names] at here
      exact Or.inr (Option.some.inj here).symm
    · left
      have skip : replaced.find? (fun r => Holds t' n r) = none := by
        apply List.find?_eq_none.mpr
        intro r member
        simp [Holds, empty r member]
      rw [List.find?_cons_of_neg (by simpa [holdsAfter] using own)] at here
      rw [holderNames, firstHolder, List.find?_append, List.find?_append, skip, Option.none_or]
      exact here
  · have none : declared replaced t' = [] := by
      rw [List.eq_nil_iff_forall_not_mem]
      intro g' declares
      obtain ⟨r, member, -, group⟩ := mem_declared.mp declares
      rw [empty r member] at group
      cases group
    rw [declaredNames, declaredNames, declared_append, declared_append, declared_append, none,
      List.nil_append]
    by_cases own : t' = t
    · subst own
      rw [declared_cons_own tenants, groups, List.map_append, List.map_append, List.map_append,
        List.filter_append, List.filter_append, List.filter_append]
      simp only [List.map_cons, List.map_nil]
      rw [List.filter_cons_of_neg (by simpa using known)]
      rfl
    · rw [declared_cons_other (by simpa [tenants] using own)]
  · rw [List.mem_append, List.mem_cons] at member
    rcases member with inFront | rfl | inBack
    · exact Or.inl (List.mem_map_of_mem (by simp [inFront]))
    · right
      intro t' lists n inside
      rw [tenants, List.mem_singleton] at lists
      rw [names, List.mem_singleton] at inside
      rwa [lists, inside]
    · exact Or.inl (List.mem_map_of_mem (by simp [inBack]))

theorem NamesKept.put (named : NamesKept r before w.cluster.rules)
    (fits : Fits t g.name w.cluster.rules) (known : Known r t g.name)
    (vacant : ¬ DeclaresName w.cluster.rules t g.name →
      w.Vacant (computedName live.sha1 t g.name)) :
    NamesKept r before (live.put t g w).cluster.rules := by
  apply named.trans
  cases found : firstHolder t g.name w.cluster.rules with
  | some rule =>
      obtain ⟨front, back, after, split, -, rules, tenants, groups⟩ :=
        live.put_found_rules found
      obtain ⟨old, here, oldName⟩ := getElem_groupIndex (firstHolder_holds found) (fits rule found)
      apply of_shapes
      have names : namesIn after = namesIn rule := by
        rw [namesIn, groups, set_names here oldName]
        rfl
      have same : shape after = shape rule := by
        rw [shape, tenants, names]
        rfl
      rw [rules, split, List.map_append, List.map_append, List.map_cons, List.map_cons, same]
  | none =>
      obtain ⟨front, replaced, back, after, split, named, rules, tenants, groups⟩ :=
        live.put_missing_rules found
      have unheld := firstHolder_eq_none.mp found
      have empty : ∀ r ∈ replaced, r.spec.groups = [] := fun r member =>
        vacant (firstHolder_none_iff.mp found) _ _
          (World.content_of_mem (by simp [split, member]) (named r member))
      rw [rules, split]
      exact created (fun r inFront => unheld r (by simp [split, inFront])) empty tenants groups known

end

def puts (live : Live) (l : List (String × GroupSpec × Int)) (w : World) : World :=
  l.foldl (fun w p => live.put p.1 p.2.1 w) w

theorem puts_concat (live : Live) (front : List (String × GroupSpec × Int))
    (p : String × GroupSpec × Int) (w : World) :
    puts live (front ++ [p]) w = live.put p.1 p.2.1 (puts live front w) := by
  simp [puts]

structure Traced (live : Live) (w₀ : World) (front : List (String × GroupSpec × Int)) (w : World) :
    Prop where
  single : w.OneTenant
  declared : ∀ t n, DeclaresName w.cluster.rules t n →
    DeclaresName w₀.cluster.rules t n ∨ ∃ q ∈ front, slotOf q = (t, n)
  occupied : ∀ name, ¬ w₀.Vacant name → ¬ w.Vacant name
  created : ∀ q ∈ front, ¬ DeclaresName w₀.cluster.rules q.1 q.2.1.name →
    ¬ w.Vacant (computedName live.sha1 q.1 q.2.1.name)

section
variable {live : Live} {w₀ w : World} {front : List (String × GroupSpec × Int)}

theorem Traced.start (single : w₀.OneTenant) : Traced live w₀ [] w₀ where
  single := single
  declared _ _ declares := Or.inl declares
  occupied _ occupied := occupied
  created _ member := absurd member List.not_mem_nil

theorem Traced.put (traced : Traced live w₀ front w) (p : String × GroupSpec × Int) :
    Traced live w₀ (front ++ [p]) (live.put p.1 p.2.1 w) where
  single := (live.put_shape p.1 p.2.1 w).oneTenant traced.single
  declared t n declares := by
    obtain ⟨g, member, rfl⟩ := declares
    cases (live.put_shape p.1 p.2.1 w).declared_before traced.single member with
    | inl before =>
        refine (traced.declared t g.name ⟨g, before, rfl⟩).imp_right fun written => ?_
        obtain ⟨q, earlier, slot⟩ := written
        exact ⟨q, List.mem_append_left _ earlier, slot⟩
    | inr written =>
        obtain ⟨rfl, rfl⟩ := written
        exact Or.inr ⟨p, by simp, rfl⟩
  occupied name occupied := (live.put_shape p.1 p.2.1 w).occupied (traced.occupied name occupied)
  created q member undeclared := by
    have earlier (q : String × GroupSpec × Int) (inFront : q ∈ front)
        (undeclared : ¬ DeclaresName w₀.cluster.rules q.1 q.2.1.name) :
        ¬ (live.put p.1 p.2.1 w).Vacant (computedName live.sha1 q.1 q.2.1.name) :=
      (live.put_shape p.1 p.2.1 w).occupied (traced.created q inFront undeclared)
    cases List.mem_append.mp member with
    | inl inFront => exact earlier q inFront undeclared
    | inr last =>
        obtain rfl := List.mem_singleton.mp last
        by_cases declares : DeclaresName w.cluster.rules q.1 q.2.1.name
        · obtain ⟨q', inFront, slot⟩ :=
            (traced.declared q.1 q.2.1.name declares).resolve_left undeclared
          obtain ⟨tenant, name⟩ := Prod.mk.inj slot
          have same : computedName live.sha1 q'.1 q'.2.1.name =
              computedName live.sha1 q.1 q.2.1.name := by rw [tenant, name]
          rw [← same]
          exact earlier q' inFront (by rwa [tenant, name])
        · exact (live.put_shape q.1 q.2.1 w).creates declares

variable (live) in
theorem traced (single : w₀.OneTenant) (front : List (String × GroupSpec × Int)) :
    Traced live w₀ front (puts live front w₀) := by
  induction front using List.reverseRecOn with
  | nil => exact Traced.start single
  | append_singleton front p ih =>
      rw [puts_concat]
      exact ih.put p

def NeverOverwrites (live : Live) (updates : List (String × GroupSpec × Int)) (w : World) : Prop :=
  ∀ front p back, updates = front ++ p :: back →
    searchGroup p.1 p.2.1.name (puts live front w).cluster.rules = none →
    (puts live front w).Vacant (computedName live.sha1 p.1 p.2.1.name)

/-- The resources of the groups that are not declared yet are vacant, and no two of them are the
same. -/
structure Apart (sha1 : String → String) (held : String → List GroupSpec) (w : World) : Prop where
  vacant : ∀ t, ∀ g ∈ held t, ¬ DeclaresName w.cluster.rules t g.name →
    w.Vacant (computedName sha1 t g.name)
  apart : ∀ t, ∀ g ∈ held t, ∀ g' ∈ held t,
    ¬ DeclaresName w.cluster.rules t g.name → ¬ DeclaresName w.cluster.rules t g'.name →
    dashed g.name = dashed g'.name → g.name = g'.name

/-- The positions that a tick writes at and removes at are all those of a `u32`: that of the group
which is to be replaced, and for one that is to go the number of groups before it that stay. -/
structure Within (userIds : List String) (w : World) : Prop where
  updates : ∀ t, Visible userIds t → ∀ g ∈ w.ruler.groups t,
    groupNamed (declared w.cluster.rules t) g.name ≠ some g → Fits t g.name w.cluster.rules
  removals : ∀ t, Live.SweepFits
    (fun n => Visible userIds t ∧ n ∈ (w.ruler.groups t).map GroupSpec.name) t w.cluster.rules

theorem searchGroup_none_iff {rules : List OpenMetricsRule} {t name : String} :
    searchGroup t name rules = none ↔ ¬ DeclaresName rules t name := by
  rw [searchGroup_eq, Option.map_eq_none_iff, firstHolder_none_iff]

theorem slot_mem_updates {o : TickOrders} {r : TenantGroups} {rules : List OpenMetricsRule}
    {t : String} {g : GroupSpec} (member : g ∈ groupsOf r t)
    (undeclared : ¬ DeclaresName rules t g.name) :
    (t, g.name) ∈ (o.updatesOf (getTenantMapFromRulesList rules) r).map slotOf := by
  have unknown : groupNamed (declared rules t) g.name = none :=
    Keyed.find_eq_none.mpr fun g' declares named => undeclared ⟨g', declares, named⟩
  have update : ∃ k, (t, g, k) ∈ o.updatesOf (getTenantMapFromRulesList rules) r := by
    rw [TickOrders.exists_mem_updatesOf, groupsOf_tenantMap, unknown]
    exact ⟨member, Option.some_ne_none g ∘ Eq.symm⟩
  obtain ⟨k, update⟩ := update
  exact List.mem_map_of_mem (f := slotOf) update

section
variable {updates back : List (String × GroupSpec × Int)} {p : String × GroupSpec × Int}

theorem NeverOverwrites.first (never : NeverOverwrites live updates w₀) (single : w₀.OneTenant)
    (split : updates = front ++ p :: back) {t name : String} (slot : slotOf p = (t, name))
    (undeclared : ¬ DeclaresName w₀.cluster.rules t name)
    (fresh : ∀ q ∈ front, slotOf q ≠ (t, name)) :
    (puts live front w₀).Vacant (computedName live.sha1 t name) := by
  obtain ⟨rfl, rfl⟩ := Prod.mk.inj slot
  refine never front p back split (searchGroup_none_iff.mpr fun declares => ?_)
  obtain ⟨q, inFront, same⟩ :=
    ((traced live single front).declared p.1 p.2.1.name declares).resolve_left undeclared
  exact fresh q inFront same

end

theorem computedName_congr {sha1 : String → String} {t name name' : String}
    (same : dashed name = dashed name') : computedName sha1 t name = computedName sha1 t name' :=
  congrArg (fun s => t ++ "-" ++ sha1 s) same

section
variable {o : TickOrders} {r : TenantGroups} (single : w.OneTenant)
  (never : NeverOverwrites live (o.updatesOf (getTenantMapFromRulesList w.cluster.rules) r) w)
include single never

theorem NeverOverwrites.vacant {t : String} {g : GroupSpec} (member : g ∈ groupsOf r t)
    (undeclared : ¬ DeclaresName w.cluster.rules t g.name) :
    w.Vacant (computedName live.sha1 t g.name) := by
  obtain ⟨front, p, back, split, slot, fresh⟩ :=
    Keyed.exists_first slotOf (slot_mem_updates (o := o) member undeclared)
  have vacant := never.first single split slot undeclared fresh
  by_contra occupied
  exact (traced live single front).occupied _ occupied vacant

theorem NeverOverwrites.apart {t : String} {g g' : GroupSpec} (member : g ∈ groupsOf r t)
    (member' : g' ∈ groupsOf r t) (undeclared : ¬ DeclaresName w.cluster.rules t g.name)
    (undeclared' : ¬ DeclaresName w.cluster.rules t g'.name)
    (same : dashed g.name = dashed g'.name) : g.name = g'.name := by
  by_contra differ
  obtain ⟨front, p, back, split, slot, fresh⟩ :=
    Keyed.exists_first slotOf (slot_mem_updates (o := o) member undeclared)
  by_cases earlier : ∃ q ∈ front, slotOf q = (t, g'.name)
  · obtain ⟨q, inFront, slot'⟩ := earlier
    obtain ⟨rfl, named⟩ := Prod.mk.inj slot'
    have created := (traced live single front).created q inFront (by rwa [named])
    rw [named, ← computedName_congr same] at created
    exact created (never.first single split slot undeclared fresh)
  · have later : (t, g'.name) ∈ back.map slotOf := by
      have listed := slot_mem_updates (o := o) member' undeclared'
      rw [split, List.map_append, List.map_cons, slot, List.mem_append, List.mem_cons] at listed
      rcases listed with inFront | here | inBack
      · exact absurd (List.mem_map.mp inFront) earlier
      · exact absurd (Prod.mk.inj here).2.symm differ
      · exact inBack
    obtain ⟨mid, p', rest, rfl, slot', fresh'⟩ := Keyed.exists_first slotOf later
    have split' : o.updatesOf (getTenantMapFromRulesList w.cluster.rules) r =
        (front ++ p :: mid) ++ p' :: rest := by rw [split, List.append_assoc, List.cons_append]
    have fresh'' : ∀ q ∈ front ++ p :: mid, slotOf q ≠ (t, g'.name) := by
      intro q member slot''
      rcases List.mem_append.mp member with inFront | inRest
      · exact earlier ⟨q, inFront, slot''⟩
      · cases List.mem_cons.mp inRest with
        | inl here =>
            rw [here, slot] at slot''
            exact differ (Prod.mk.inj slot'').2
        | inr inMid => exact fresh' q inMid slot''
    obtain ⟨rfl, named⟩ := Prod.mk.inj slot
    have created := (traced live single (front ++ p :: mid)).created p (by simp)
      (by rwa [named])
    rw [named, computedName_congr same] at created
    exact created (never.first single split' slot' undeclared' fresh'')

end

structure Grown (live : Live) (r : TenantGroups) (w₀ : World)
    (front : List (String × GroupSpec × Int)) (w : World) : Prop where
  named : NamesKept r w₀.cluster.rules w.cluster.rules
  kept : ∀ t, ∀ g ∈ declared w₀.cluster.rules t, (∀ q ∈ front, slotOf q ≠ (t, g.name)) →
    g ∈ declared w.cluster.rules t
  written : ∀ q ∈ front, q.2.1 ∈ declared w.cluster.rules q.1
  filled : ∀ name, ¬ w.Vacant name → ¬ w₀.Vacant name ∨ ∃ q ∈ front,
    ¬ DeclaresName w₀.cluster.rules q.1 q.2.1.name ∧ name = computedName live.sha1 q.1 q.2.1.name

theorem Grown.start (live : Live) (r : TenantGroups) (w₀ : World) : Grown live r w₀ [] w₀ where
  named := .of_shapes rfl
  kept _ _ declares _ := declares
  written _ member := absurd member List.not_mem_nil
  filled _ occupied := Or.inl occupied

theorem Grown.undeclared {r : TenantGroups} (grown : Grown live r w₀ front w)
    {p : String × GroupSpec × Int}
    (undeclared : ¬ DeclaresName w.cluster.rules p.1 p.2.1.name) :
    ¬ DeclaresName w₀.cluster.rules p.1 p.2.1.name ∧ ∀ q ∈ front, slotOf q ≠ slotOf p := by
  have fresh : ∀ q ∈ front, slotOf q ≠ slotOf p := by
    intro q inFront slot
    obtain ⟨tenant, name⟩ := Prod.mk.inj slot
    exact undeclared ⟨q.2.1, tenant ▸ grown.written q inFront, name⟩
  refine ⟨fun declares => ?_, fresh⟩
  obtain ⟨g, member, named⟩ := declares
  exact undeclared ⟨g, grown.kept p.1 g member (by rw [named]; exact fresh), named⟩

section
variable {r : TenantGroups} {names : Set String} (unique : Unique r)
  (inside : ∀ t, ∀ g ∈ groupsOf r t, g.name ∈ names)
  (length : ∀ s s', (live.sha1 s).length = (live.sha1 s').length)
  (injective : Set.InjOn live.sha1 (dashed '' names)) (apart : Apart live.sha1 (groupsOf r) w₀)
  (listed : ∀ q ∈ front, q.2.1 ∈ groupsOf r q.1)
include inside length injective apart listed

theorem Grown.vacant (grown : Grown live r w₀ front w) {p : String × GroupSpec × Int}
    (member : p.2.1 ∈ groupsOf r p.1)
    (undeclared : ¬ DeclaresName w.cluster.rules p.1 p.2.1.name) :
    w.Vacant (computedName live.sha1 p.1 p.2.1.name) := by
  obtain ⟨undeclared₀, fresh⟩ := grown.undeclared undeclared
  by_contra occupied
  cases grown.filled _ occupied with
  | inl before => exact before (apart.vacant p.1 p.2.1 member undeclared₀)
  | inr created =>
      obtain ⟨q, inFront, undeclared', same⟩ := created
      obtain ⟨tenant, digests⟩ := computedName_inj same (length _ _)
      have member' := listed q inFront
      have same := injective (Set.mem_image_of_mem _ (inside p.1 p.2.1 member))
        (Set.mem_image_of_mem _ (inside q.1 q.2.1 member')) digests
      rw [← tenant] at member' undeclared'
      refine fresh q inFront (Prod.ext tenant.symm ?_)
      exact (apart.apart p.1 p.2.1 member q.2.1 member' undeclared₀ undeclared' same).symm

variable (room : ∀ t, ∀ g ∈ groupsOf r t, groupNamed (declared w₀.cluster.rules t) g.name ≠ some g →
  Fits t g.name w₀.cluster.rules)
include unique room

theorem Grown.put (grown : Grown live r w₀ front w) (single : w.OneTenant)
    {p : String × GroupSpec × Int} (member : p.2.1 ∈ groupsOf r p.1)
    (differs : groupNamed (declared w₀.cluster.rules p.1) p.2.1.name ≠ some p.2.1) :
    Grown live r w₀ (front ++ [p]) (live.put p.1 p.2.1 w) := by
  have put := live.put_shape p.1 p.2.1 w
  have vacant := grown.vacant inside length injective apart listed member
  have fits : Fits p.1 p.2.1.name w.cluster.rules := by
    apply grown.named.fits
    intro names held
    obtain ⟨rule, found, rfl⟩ := Option.map_eq_some_iff.mp held
    rw [← groupPosition_eq]
    exact room p.1 p.2.1 member differs rule found
  have keeps {t : String} {g : GroupSpec} (declares : g ∈ declared w.cluster.rules t)
      (other : slotOf p ≠ (t, g.name)) :=
    put.keeps fits single vacant declares other
  refine ⟨grown.named.put fits (List.mem_map_of_mem member) vacant, fun t g declares fresh => ?_,
    fun q inFront => ?_, fun name occupied => ?_⟩
  · exact keeps (grown.kept t g declares fun q inFront => fresh q (List.mem_append_left _ inFront))
      (fresh p (by simp))
  · cases List.mem_append.mp inFront with
    | inr last =>
        obtain rfl := List.mem_singleton.mp last
        exact put.declares
    | inl earlier =>
        by_cases same : slotOf p = slotOf q
        · obtain ⟨tenant, name⟩ := Prod.mk.inj same
          have member' := listed q earlier
          rw [← tenant] at member' ⊢
          rw [← List.inj_on_of_nodup_map (unique p.1) member member' name]
          exact put.declares
        · exact keeps (grown.written q earlier) same
  · cases put.occupied_before occupied with
    | inl before =>
        refine (grown.filled name before).imp_right fun created => ?_
        obtain ⟨q, earlier, rest⟩ := created
        exact ⟨q, List.mem_append_left _ earlier, rest⟩
    | inr created =>
        exact Or.inr ⟨p, by simp, (grown.undeclared created.1).1, created.2⟩

variable (live) in
theorem grown (single : w₀.OneTenant) (differs : ∀ q ∈ front,
    groupNamed (declared w₀.cluster.rules q.1) q.2.1.name ≠ some q.2.1) :
    Grown live r w₀ front (puts live front w₀) := by
  induction front using List.reverseRecOn with
  | nil => exact Grown.start live r w₀
  | append_singleton front p ih =>
      have earlier : ∀ q ∈ front, q.2.1 ∈ groupsOf r q.1 :=
        fun q inFront => listed q (List.mem_append_left _ inFront)
      have before := ih earlier fun q inFront => differs q (List.mem_append_left _ inFront)
      rw [puts_concat]
      exact before.put unique inside length injective apart earlier room
        (traced live single front).single (listed p (by simp)) (differs p (by simp))

end

end

section
variable {live : Live} {o : TickOrders} {r : TenantGroups} {w : World}

theorem updates_listed {q : String × GroupSpec × Int}
    (update : q ∈ o.updatesOf (getTenantMapFromRulesList w.cluster.rules) r) :
    q.2.1 ∈ groupsOf r q.1 ∧
      groupNamed (declared w.cluster.rules q.1) q.2.1.name ≠ some q.2.1 := by
  have known := TickOrders.exists_mem_updatesOf.mp ⟨q.2.2, update⟩
  rwa [groupsOf_tenantMap] at known

theorem declared_puts (unique : Unique r)
    (grown : Grown live r w (o.updatesOf (getTenantMapFromRulesList w.cluster.rules) r)
      (puts live (o.updatesOf (getTenantMapFromRulesList w.cluster.rules) r) w)) {t : String}
    {g : GroupSpec} (member : g ∈ groupsOf r t) :
    g ∈ declared (puts live (o.updatesOf (getTenantMapFromRulesList w.cluster.rules) r)
      w).cluster.rules t := by
  by_cases first : groupNamed (declared w.cluster.rules t) g.name = some g
  · apply grown.kept t g (Keyed.mem_of_find first)
    intro q update slot
    obtain ⟨t', g', k⟩ := q
    obtain ⟨rfl, named⟩ := Prod.mk.inj slot
    obtain ⟨member', differs⟩ := updates_listed update
    rw [List.inj_on_of_nodup_map (unique t') member' member named] at differs
    exact differs first
  · obtain ⟨k, update⟩ : ∃ k, (t, g, k) ∈
        o.updatesOf (getTenantMapFromRulesList w.cluster.rules) r := by
      rw [TickOrders.exists_mem_updatesOf, groupsOf_tenantMap]
      exact ⟨member, first⟩
    exact grown.written _ update

theorem declared_tick (single : w.OneTenant)
    (fits : ∀ t, Live.SweepFits (Known r t) t w.cluster.rules)
    (grown : Grown live r w (o.updatesOf (getTenantMapFromRulesList w.cluster.rules) r)
      (puts live (o.updatesOf (getTenantMapFromRulesList w.cluster.rules) r) w)) (t : String) :
    declared (live.trackerTick o r w).cluster.rules t =
      (declared (puts live (o.updatesOf (getTenantMapFromRulesList w.cluster.rules) r)
        w).cluster.rules t).filter fun g => Known r t g.name :=
  Live.removals_declared (traced live single _).single (fun t => grown.named.sweepFits (fits t))
    grown.named.strangers t

end

structure LosesNothing (live : Live) (o : TickOrders) (r : TenantGroups) (w w' : World) : Prop where
  keeps : ∀ t, ∀ g ∈ w.ruler.groups t, g ∈ declared w'.cluster.rules t
  overwrites : NeverOverwrites live (o.updatesOf (getTenantMapFromRulesList w.cluster.rules) r) w

theorem LosesNothing.apart {live : Live} {o : TickOrders} {r : TenantGroups} {w w' : World}
    (safe : LosesNothing live o r w w') (single : w.OneTenant) :
    Apart live.sha1 (groupsOf r) w where
  vacant _ _ member := safe.overwrites.vacant single member
  apart _ _ member _ member' := safe.overwrites.apart single member member'

structure Safe (sha1 : String → String) (userIds : List String) (w : World) : Prop where
  visible : ∀ t, w.ruler.groups t ≠ [] → Visible userIds t
  apart : Apart sha1 w.ruler.groups w

/-- A tick loses no group of the ruler just when the tracker sees the tenants of all groups and the
resources of the new groups are vacant and apart, unless the tick comes to a position beyond a
`u32`. -/
theorem losesNothing_iff (live : Live) (userIds : List String) (o : TickOrders) (w : World)
    (single : w.OneTenant) (length : ∀ s s', (live.sha1 s).length = (live.sha1 s').length)
    (injective : Set.InjOn live.sha1 (dashed '' { n | ∃ t, w.ruler.HoldsName t n })) :
    ∃ r w', (live.setup userIds).readRuler o w = some (.ok r, w) ∧
      (live.setup userIds).tracker o w = some ((), w') ∧
      (Within userIds w → (LosesNothing live o r w w' ↔ Safe live.sha1 userIds w)) ∧
      (LosesNothing live o r w w' → Apart live.sha1 (groupsOf r) w) := by
  obtain ⟨r, read, groups⟩ := live.readRuler_apply userIds o w
  have seen := Live.mem_groupsOf_read groups
  have unique : Unique r := by
    intro t
    rw [groups]
    split_ifs
    · exact w.ruler.nodup t
    · exact List.nodup_nil
  have inside : ∀ t, ∀ g ∈ groupsOf r t, g.name ∈ { n | ∃ t, w.ruler.HoldsName t n } :=
    fun t g member => ⟨t, g, ((seen t g).mp member).2, rfl⟩
  refine ⟨r, _, read, Live.tracker_of_read read, fun within => ?_, fun safe => safe.apart single⟩
  have room : ∀ t, ∀ g ∈ groupsOf r t,
      groupNamed (declared w.cluster.rules t) g.name ≠ some g → Fits t g.name w.cluster.rules :=
    fun t g member => within.updates t ((seen t g).mp member).1 g ((seen t g).mp member).2
  have known (t n : String) : Known r t n ↔
      Visible userIds t ∧ n ∈ (w.ruler.groups t).map GroupSpec.name := by
    simp only [Known, List.mem_map, seen, and_assoc, exists_and_left]
  have fits : ∀ t, Live.SweepFits (Known r t) t w.cluster.rules := by
    intro t
    simpa only [Live.SweepFits, known] using within.removals t
  have grownTo (apart : Apart live.sha1 (groupsOf r) w) {front : List (String × GroupSpec × Int)}
      (listed : ∀ q ∈ front, q ∈ o.updatesOf (getTenantMapFromRulesList w.cluster.rules) r) :=
    grown live unique inside length injective apart
      (fun q inFront => (updates_listed (listed q inFront)).1) room single
      fun q inFront => (updates_listed (listed q inFront)).2
  constructor
  · intro safe
    have apart := safe.apart single
    have visible : ∀ t, w.ruler.groups t ≠ [] → Visible userIds t := by
      intro t holds
      by_contra unseen
      obtain ⟨g, member⟩ := List.exists_mem_of_ne_nil _ holds
      have left := safe.keeps t g member
      rw [declared_tick single fits (grownTo apart fun _ update => update), List.mem_filter,
        decide_eq_true_eq, known] at left
      exact unseen left.2.1
    have read_all (t : String) (g : GroupSpec) (member : g ∈ w.ruler.groups t) :
        g ∈ groupsOf r t := (seen t g).mpr ⟨visible t (List.ne_nil_of_mem member), member⟩
    exact ⟨visible, fun t g member => apart.vacant t g (read_all t g member),
      fun t g member g' member' =>
        apart.apart t g (read_all t g member) g' (read_all t g' member')⟩
  · intro safe
    have apart : Apart live.sha1 (groupsOf r) w :=
      ⟨fun t g member => safe.apart.vacant t g ((seen t g).mp member).2,
        fun t g member g' member' =>
          safe.apart.apart t g ((seen t g).mp member).2 g' ((seen t g').mp member').2⟩
    refine ⟨fun t g holds => ?_, fun front p back split unheld => ?_⟩
    · have member := (seen t g).mpr ⟨safe.visible t (List.ne_nil_of_mem holds), holds⟩
      have grown := grownTo apart fun _ update => update
      rw [declared_tick single fits grown, List.mem_filter]
      exact ⟨declared_puts unique grown member, decide_eq_true (List.mem_map_of_mem member)⟩
    · have update (q : String × GroupSpec × Int) (member : q ∈ front ++ [p]) :
          q ∈ o.updatesOf (getTenantMapFromRulesList w.cluster.rules) r := by
        rw [split, ← List.singleton_append, ← List.append_assoc]
        exact List.mem_append_left back member
      have earlier := fun q inFront => update q (List.mem_append_left [p] inFront)
      exact (grownTo apart earlier).vacant inside length injective apart
        (fun q inFront => (updates_listed (earlier q inFront)).1)
        (updates_listed (update p (by simp))).1 (searchGroup_none_iff.mp unheld)

theorem losesNothing_stale :
    ∃ r w', ((Live.localhost sampleSha1).setup ["a"]).readRuler .sorted stale =
        some (.ok r, stale) ∧
      ((Live.localhost sampleSha1).setup ["a"]).tracker .sorted stale = some ((), w') ∧
      LosesNothing (Live.localhost sampleSha1) .sorted r stale w' := by
  have held {t : String} {g : GroupSpec} (holds : g ∈ stale.ruler.groups t) :
      t = "a" ∧ (g = bareGroup "alerts" ∨ g = bareGroup "a_b") := by
    simp only [stale, RulerStore.single] at holds
    split_ifs at holds with same
    · exact ⟨same, by simpa using holds⟩
    · cases holds
  have single : stale.OneTenant := fun rule member => ⟨"a", by
    rcases List.mem_pair.mp member with rfl | rfl <;> rfl⟩
  have injective : Set.InjOn sampleSha1 (dashed '' { n | ∃ t, stale.ruler.HoldsName t n }) := by
    apply sampleSha1_injOn
    intro n known
    obtain ⟨t, g, holds, rfl⟩ := known
    rcases (held holds).2 with rfl | rfl <;> decide
  have short : ∀ rule ∈ stale.cluster.rules, rule.spec.groups.length = 1 := by decide
  have within : Within ["a"] stale := by
    refine ⟨fun t _ g _ _ rule found => ?_, fun t rule member _ front n back split _ => ?_⟩
    · have inside := groupPosition_lt (firstHolder_holds found)
      rw [short rule (firstHolder_mem found)] at inside
      omega
    · have size := congrArg List.length split
      rw [namesIn, List.length_map, short rule member, List.length_append, List.length_cons] at size
      obtain rfl := List.length_eq_zero_iff.mp (show front.length = 0 by omega)
      exact Nat.two_pow_pos 32
  have safe : Safe sampleSha1 ["a"] stale := by
    refine ⟨fun t holds => ?_, fun t g holds undeclared => ?_,
      fun t g holds g' holds' _ _ same => ?_⟩
    · obtain ⟨g, member⟩ := List.exists_mem_of_ne_nil _ holds
      rw [(held member).1]
      decide
    · obtain ⟨rfl, rfl | rfl⟩ := held holds
      · exact absurd ⟨⟨"alerts", some "1m", []⟩, by decide, rfl⟩ undeclared
      · have vacant : stale.content (computedName sampleSha1 "a" "a_b") = none := by decide
        intro ts gs here
        cases vacant.symm.trans here
    · rcases (held holds).2 with rfl | rfl <;> rcases (held holds').2 with rfl | rfl
      · rfl
      · exact absurd same (by decide)
      · exact absurd same (by decide)
      · rfl
  obtain ⟨r, w', read, run, exact_, -⟩ := losesNothing_iff (Live.localhost sampleSha1) ["a"] .sorted
    stale single sampleSha1_length injective
  exact ⟨r, w', read, run, (exact_ within).mpr safe⟩

theorem group_lost_dashed :
    let w : World :=
      { cluster := .empty
        ruler := .single "1" [bareGroup "a_b", bareGroup "a-b"] (by decide)
        log := [] }
    (w.OneTenant ∧ Set.InjOn sampleSha1 (dashed '' { n | ∃ t, w.ruler.HoldsName t n })) ∧
    ∃ r w', ((Live.localhost sampleSha1).setup ["1"]).readRuler .sorted w = some (.ok r, w) ∧
      ((Live.localhost sampleSha1).setup ["1"]).tracker .sorted w = some ((), w') ∧
      ¬ LosesNothing (Live.localhost sampleSha1) .sorted r w w' := by
  intro w
  have injective : Set.InjOn sampleSha1 (dashed '' { n | ∃ t, w.ruler.HoldsName t n }) := by
    apply sampleSha1_injOn
    intro n known
    obtain ⟨t, g, holds, rfl⟩ := known
    simp only [w, RulerStore.single] at holds
    split_ifs at holds
    · rcases List.mem_pair.mp holds with rfl | rfl <;> decide
    · cases holds
  obtain ⟨r, read, -⟩ := (Live.localhost sampleSha1).readRuler_apply ["1"] .sorted w
  refine ⟨⟨by simp [World.OneTenant, w, Cluster.empty], injective⟩, r, _, read,
    Live.tracker_of_read read, fun safe => ?_⟩
  have left : (((Live.localhost sampleSha1).setup ["1"]).tracker .sorted w).map
      (fun result => declared result.2.cluster.rules "1") = some [bareGroup "a-b"] := by decide
  rw [Live.tracker_of_read read] at left
  have declares := safe.keeps "1" (bareGroup "a_b") (by decide)
  rw [show declared _ "1" = _ from Option.some.inj left] at declares
  revert declares
  decide

end OpenMetrics.Informer
