import OpenMetrics.Informer.Implement

namespace OpenMetrics.Informer
open Library KubeLib

theorem Cluster.names_apply (cluster : Cluster) (place : Nat) (name : String)
    (rule : OpenMetricsRule) :
    (cluster.rules.map nameOf).Sublist ((cluster.apply place name rule).rules.map nameOf) := by
  cases old : cluster.find name with
  | some old' =>
      obtain ⟨member, named⟩ := find_eq_some.mp old
      obtain ⟨front, back, split⟩ := List.append_of_mem member
      have same : nameOf (applied name rule) = nameOf old' := named.symm
      rw [apply_over split named, split, List.map_append, List.map_append, List.map_cons,
        List.map_cons, same]
  | none =>
      obtain ⟨front, back, split, after⟩ := apply_new old place rule
      rw [after, split, List.map_append, List.map_append, List.map_cons]
      exact List.Sublist.append_left (List.sublist_cons_self _ _) _

namespace Live

variable {live : Live} {w : World} {t : String} {rule : OpenMetricsRule}

theorem names_patch (resourceName : String) (rule : OpenMetricsRule) (w : World) :
    (w.cluster.rules.map nameOf).Sublist
      ((live.patch resourceName rule w).cluster.rules.map nameOf) :=
  Cluster.names_apply w.cluster _ resourceName rule

theorem names_put (t : String) (m : GroupSpec) (w : World) :
    (w.cluster.rules.map nameOf).Sublist ((live.put t m w).cluster.rules.map nameOf) := by
  unfold put
  cases firstHolder t m.name w.cluster.rules with
  | none => exact names_patch _ _ _
  | some rule => exact names_patch _ _ _

theorem content_put_missing {m : GroupSpec}
    (missing : firstHolder t m.name w.cluster.rules = none) (name : String) :
    (live.put t m w).content name =
      if name = computedName live.sha1 t m.name then some ([t], [m]) else w.content name := by
  unfold put
  rw [missing]
  exact content_patch live _ _ _ _

theorem content_put_found {m : GroupSpec} {resourceName : String}
    (found : firstHolder t m.name w.cluster.rules = some rule)
    (named : nameOf rule = some resourceName) (name : String) :
    (live.put t m w).content name =
      if name = resourceName then
        some (rule.spec.tenants, rule.spec.groups.set (groupIndex m.name rule).toNat m)
      else w.content name := by
  unfold put
  rw [found]
  simp only [named, Option.getD_some]
  exact content_patch live _ _ _ _

theorem content_remove_found {n resourceName : String}
    (found : firstHolder t n w.cluster.rules = some rule)
    (named : nameOf rule = some resourceName) (name : String) :
    (live.remove t n w).content name =
      if name = resourceName then
        if rule.spec.groups.length = 1 then none
        else some (rule.spec.tenants, rule.spec.groups.eraseIdx (groupIndex n rule).toNat)
      else w.content name := by
  unfold remove
  rw [found]
  simp only [named, Option.getD_some]
  by_cases single : rule.spec.groups.length = 1
  · rw [if_pos single, if_pos single]
    exact World.content_deleteResource _ _ _
  · rw [if_neg single, if_neg single]
    exact content_patch live _ _ _ _

theorem remove_missing {n : String} (missing : firstHolder t n w.cluster.rules = none) :
    live.remove t n w = w := by
  unfold remove
  rw [missing]

end Live

def World.Short (w : World) : Prop := ∀ rule ∈ w.cluster.rules, rule.spec.groups.length ≤ 2 ^ 32

/-- The resource declares every group of the ruler that has its name as computed name. -/
def Anchored (live : Live) (w : World) (name : String) : Prop :=
  ∀ ts gs, w.content name = some (ts, gs) → ∀ t m, w.ruler.find (t, m.name) = some m →
    computedName live.sha1 t m.name = name → t ∈ ts ∧ m.name ∈ gs.map GroupSpec.name

structure Kept (live : Live) (w₀ w : World) : Prop where
  order : (w₀.cluster.rules.map nameOf).Sublist (w.cluster.rules.map nameOf)
  anchored : ∀ name, Anchored live w₀ name → ∀ ts gs, w₀.content name = some (ts, gs) →
    ∃ gs', w.content name = some (ts, gs') ∧ gs'.map GroupSpec.name = gs.map GroupSpec.name

section
variable {live : Live} {w₀ w : World} {t : String} {m : GroupSpec}

theorem content_mem {name : String} {ts : List String} {gs : List GroupSpec}
    (here : w.content name = some (ts, gs)) :
    ∃ rule ∈ w.cluster.rules, nameOf rule = some name ∧ rule.spec.tenants = ts ∧
      rule.spec.groups = gs := by
  obtain ⟨rule, found, spec⟩ := Option.map_eq_some_iff.mp here
  obtain ⟨member, named⟩ := Cluster.find_eq_some.mp found
  exact ⟨rule, member, named, Prod.mk.inj spec⟩

theorem firstHolder_ne_none {name n : String} {ts : List String} {gs : List GroupSpec}
    (here : w.content name = some (ts, gs)) (lists : t ∈ ts) (named : n ∈ gs.map GroupSpec.name) :
    firstHolder t n w.cluster.rules ≠ none := by
  obtain ⟨rule, member, -, rfl, rfl⟩ := content_mem here
  obtain ⟨g, group, rfl⟩ := List.mem_map.mp named
  exact firstHolder_of_declared (mem_declared.mpr ⟨rule, member, lists, group⟩)

theorem set_names {gs : List GroupSpec} {i : Nat} {g : GroupSpec} (here : gs[i]? = some g)
    (same : g.name = m.name) : (gs.set i m).map GroupSpec.name = gs.map GroupSpec.name := by
  rw [List.map_set, ← same]
  obtain ⟨inside, rfl⟩ := List.getElem?_eq_some_iff.mp here
  rw [set_eq_self_iff (by simpa using inside)]
  simp [inside]

theorem Kept.refl (live : Live) (w : World) : Kept live w w where
  order := List.Sublist.refl _
  anchored _ _ _ gs here := ⟨gs, here, rfl⟩

theorem Kept.not_computed (kept : Kept live w₀ w) (holds : w₀.ruler.find (t, m.name) = some m)
    (missing : firstHolder t m.name w.cluster.rules = none) {name : String}
    (anchored : Anchored live w₀ name) {ts : List String} {gs : List GroupSpec}
    (start : w₀.content name = some (ts, gs)) : name ≠ computedName live.sha1 t m.name := by
  intro computed
  obtain ⟨gs', here, names⟩ := kept.anchored name anchored ts gs start
  obtain ⟨lists, named⟩ := anchored ts gs start t m holds computed.symm
  exact firstHolder_ne_none here lists (names ▸ named) missing

theorem Kept.length_le (short : w₀.Short) (kept : Kept live w₀ w) {name : String}
    (anchored : Anchored live w₀ name) {ts ts' : List String} {gs gs' : List GroupSpec}
    (start : w₀.content name = some (ts, gs)) (here : w.content name = some (ts', gs')) :
    gs'.length ≤ 2 ^ 32 := by
  obtain ⟨gs'', here', names⟩ := kept.anchored name anchored ts gs start
  obtain ⟨-, rfl⟩ := Prod.mk.inj (Option.some.inj (here.symm.trans here'))
  obtain ⟨rule, member, -, -, rfl⟩ := content_mem start
  have lengths := congrArg List.length names
  rw [List.length_map, List.length_map] at lengths
  rw [lengths]
  exact short rule member

theorem Kept.put (short : w₀.Short) (kept : Kept live w₀ w)
    (holds : w₀.ruler.find (t, m.name) = some m) : Kept live w₀ (live.put t m w) where
  order := kept.order.trans (Live.names_put t m w)
  anchored name anchored ts gs start := by
    obtain ⟨gs', here, names⟩ := kept.anchored name anchored ts gs start
    cases found : firstHolder t m.name w.cluster.rules with
    | none =>
        refine ⟨gs', ?_, names⟩
        rw [Live.content_put_missing found, if_neg (kept.not_computed holds found anchored start),
          here]
    | some rule =>
        obtain ⟨resourceName, named, -⟩ := Cluster.find_of_mem (firstHolder_mem found)
        rw [Live.content_put_found found named]
        by_cases same : name = resourceName
        · subst same
          have spec := (World.content_of_mem (firstHolder_mem found) named).symm.trans here
          obtain ⟨rfl, rfl⟩ := Prod.mk.inj (Option.some.inj spec)
          obtain ⟨g, old, oldName⟩ := getElem_groupIndex (firstHolder_holds found)
            ((groupPosition_lt (firstHolder_holds found)).trans_le
              (kept.length_le short anchored start here))
          refine ⟨_, if_pos rfl, ?_⟩
          rw [set_names old oldName, names]
        · exact ⟨gs', by rw [if_neg same, here], names⟩

def HeldBefore (live : Live) (w : World) (t n name : String) : Prop :=
  ∃ earlier ts gs, Anchored live w earlier ∧ w.content earlier = some (ts, gs) ∧ t ∈ ts ∧
    n ∈ gs.map GroupSpec.name ∧
    List.Sublist [some earlier, some name] (w.cluster.rules.map nameOf)

/-- A tracker tick spares a group of a resource: the resource is anchored, and for each of its
tenants the ruler holds a group of this name, the one that is declared first or one that is
written to an earlier resource. -/
structure Spared (live : Live) (w : World) (name : String) (g : GroupSpec) : Prop where
  anchored : Anchored live w name
  settled : ∀ ts gs, w.content name = some (ts, gs) → ∀ t ∈ ts,
    (w.ruler.find (t, g.name)).isSome ∧
      (w.ruler.find (t, g.name) = groupNamed (declared w.cluster.rules t) g.name ∨
        HeldBefore live w t g.name name)

theorem mem_front_of_sublist {α : Type} {a b : α} {front back : List α}
    (before : List.Sublist [a, b] (front ++ b :: back)) (nodup : (front ++ b :: back).Nodup) :
    a ∈ front := by
  have alone : b ∉ back := (List.nodup_cons.mp (List.nodup_append.mp nodup).2.1).1
  obtain ⟨l, l', split, inFront, inBack⟩ := List.sublist_append_iff.mp before
  match l, split with
  | [], split =>
      simp only [List.nil_append] at split
      rw [← split] at inBack
      cases inBack with
      | cons _ later => exact absurd (later.subset (by simp)) alone
      | cons_cons _ later => exact absurd (later.subset (by simp)) alone
  | c :: rest, split =>
      obtain ⟨rfl, -⟩ := List.cons.inj split
      exact inFront.subset (by simp)

theorem HeldBefore.firstHolder_ne (kept : Kept live w₀ w) {n name : String}
    (before : HeldBefore live w₀ t n name) {rule : OpenMetricsRule}
    (found : firstHolder t n w.cluster.rules = some rule) : nameOf rule ≠ some name := by
  intro named
  obtain ⟨earlier, ts, gs, anchored, start, lists, group, listed⟩ := before
  obtain ⟨gs', here, names⟩ := kept.anchored earlier anchored ts gs start
  obtain ⟨front, back, split, apart⟩ := firstHolder_split found
  have nodup := w.cluster.nodup
  have order := listed.trans kept.order
  rw [split, List.map_append, List.map_cons, named] at nodup order
  obtain ⟨holder, inFront, holderName⟩ := List.mem_map.mp (mem_front_of_sublist order nodup)
  have spec := (World.content_of_mem (by simp [split, inFront]) holderName).symm.trans here
  obtain ⟨rfl, rfl⟩ := Prod.mk.inj (Option.some.inj spec)
  rw [← names] at group
  obtain ⟨g, member, rfl⟩ := List.mem_map.mp group
  exact apart holder inFront ⟨lists, g, member, rfl⟩

theorem mem_set_of_name_ne {gs : List GroupSpec} {i : Nat} {g old : GroupSpec} (member : g ∈ gs)
    (here : gs[i]? = some old) (apart : old.name ≠ g.name) : g ∈ gs.set i m := by
  obtain ⟨j, found⟩ := List.mem_iff_getElem?.mp member
  have other : i ≠ j := by
    intro same
    obtain rfl := same
    exact apart (congrArg GroupSpec.name (Option.some.inj (here.symm.trans found)))
  exact List.mem_iff_getElem?.mpr ⟨j, by rw [List.getElem?_set_ne other, found]⟩

theorem put_spares (short : w₀.Short) (kept : Kept live w₀ w) {name : String} {g : GroupSpec}
    (spared : Spared live w₀ name g) {ts : List String} {gs gs' : List GroupSpec}
    (start : w₀.content name = some (ts, gs)) (here : w.content name = some (ts, gs'))
    (member : g ∈ gs') (holds : w₀.ruler.find (t, m.name) = some m)
    (differs : groupNamed (declared w₀.cluster.rules t) m.name ≠ some m) :
    ∃ gs'', (live.put t m w).content name = some (ts, gs'') ∧ g ∈ gs'' := by
  cases found : firstHolder t m.name w.cluster.rules with
  | none =>
      refine ⟨gs', ?_, member⟩
      rw [Live.content_put_missing found,
        if_neg (kept.not_computed holds found spared.anchored start), here]
  | some rule =>
      obtain ⟨resourceName, named, -⟩ := Cluster.find_of_mem (firstHolder_mem found)
      rw [Live.content_put_found found named]
      by_cases same : name = resourceName
      · subst same
        have spec := (World.content_of_mem (firstHolder_mem found) named).symm.trans here
        obtain ⟨rfl, rfl⟩ := Prod.mk.inj (Option.some.inj spec)
        obtain ⟨old, at_, oldName⟩ := getElem_groupIndex (firstHolder_holds found)
          ((groupPosition_lt (firstHolder_holds found)).trans_le
            (kept.length_le short spared.anchored start here))
        refine ⟨_, if_pos rfl, mem_set_of_name_ne member at_ fun sameName => ?_⟩
        -- the tick would write to a name that it is settled on
        have lists := (firstHolder_holds found).1
        rw [oldName] at sameName
        obtain ⟨-, settled | before⟩ := spared.settled _ gs start t lists
        · rw [← sameName, holds] at settled
          exact differs settled.symm
        · rw [← sameName] at before
          exact before.firstHolder_ne kept found named
      · exact ⟨gs', by rw [if_neg same, here], member⟩

theorem remove_spares {name n : String} {ts : List String} {gs : List GroupSpec} {g : GroupSpec}
    (here : w.content name = some (ts, gs)) (member : g ∈ gs) (short : gs.length ≤ 2 ^ 32)
    (other : t ∈ ts → n ≠ g.name) :
    ∃ gs', (live.remove t n w).content name = some (ts, gs') ∧ g ∈ gs' ∧ gs'.length ≤ 2 ^ 32 := by
  cases found : firstHolder t n w.cluster.rules with
  | none => exact ⟨gs, by rw [Live.remove_missing found, here], member, short⟩
  | some rule =>
      obtain ⟨resourceName, named, -⟩ := Cluster.find_of_mem (firstHolder_mem found)
      rw [Live.content_remove_found found named]
      by_cases same : name = resourceName
      · subst same
        have spec := (World.content_of_mem (firstHolder_mem found) named).symm.trans here
        obtain ⟨rfl, rfl⟩ := Prod.mk.inj (Option.some.inj spec)
        have holds := firstHolder_holds found
        obtain ⟨old, at_, oldName⟩ := getElem_groupIndex holds ((groupPosition_lt holds).trans_le short)
        have apart : old.name ≠ g.name := oldName ▸ other holds.1
        obtain ⟨j, atj⟩ := List.mem_iff_getElem?.mp member
        have otherIndex : j ≠ (groupIndex n rule).toNat := by
          intro same
          obtain rfl := same
          exact apart (congrArg GroupSpec.name (Option.some.inj (at_.symm.trans atj)))
        -- two groups at different positions
        have several : rule.spec.groups.length ≠ 1 := by
          have inside := groupIndex_lt holds
          have insideJ := (List.getElem?_eq_some_iff.mp atj).1
          omega
        refine ⟨_, by rw [if_pos rfl, if_neg several], ?_, ?_⟩
        · exact List.mem_eraseIdx_iff_getElem?.mpr ⟨j, otherIndex, atj⟩
        · exact (List.length_eraseIdx_le _ _).trans short
      · exact ⟨gs, by rw [if_neg same, here], member, short⟩

variable {o : TickOrders} {r : TenantGroups}

theorem puts_spare (short : w₀.Short) {name : String} {g : GroupSpec}
    (spared : Spared live w₀ name g) {ts : List String} {gs : List GroupSpec}
    (start : w₀.content name = some (ts, gs)) (member : g ∈ gs)
    {l : List (String × GroupSpec × Int)}
    (updates : ∀ p ∈ l, w₀.ruler.find (slotOf p) = some p.2.1 ∧
      groupNamed (declared w₀.cluster.rules p.1) p.2.1.name ≠ some p.2.1) :
    let w := l.foldl (fun w p => live.put p.1 p.2.1 w) w₀
    Kept live w₀ w ∧ ∃ gs', w.content name = some (ts, gs') ∧ g ∈ gs' := by
  refine List.foldlRecOn (motive := fun w : World =>
    Kept live w₀ w ∧ ∃ gs', w.content name = some (ts, gs') ∧ g ∈ gs') _ _
    ⟨Kept.refl live w₀, gs, start, member⟩ ?_
  intro w held p listed
  rcases held with ⟨kept, gs', here, member'⟩
  obtain ⟨holds, differs⟩ := updates p listed
  exact ⟨kept.put short holds, put_spares short kept spared start here member' holds differs⟩

theorem trackerTick_spares (read : ∀ t, groupsOf r t = w.ruler.groups t) (short : w.Short)
    {name : String} {g : GroupSpec} (spared : Spared live w name g) {ts : List String}
    {gs : List GroupSpec} (start : w.content name = some (ts, gs)) (member : g ∈ gs) :
    ∃ gs', (live.trackerTick o r w).content name = some (ts, gs') ∧ g ∈ gs' := by
  have updates : ∀ p ∈ o.updatesOf (getTenantMapFromRulesList w.cluster.rules) r,
      w.ruler.find (slotOf p) = some p.2.1 ∧
        groupNamed (declared w.cluster.rules p.1) p.2.1.name ≠ some p.2.1 := by
    intro slot update
    rcases slot with ⟨t, m, k⟩
    obtain ⟨holds, differs⟩ := TickOrders.exists_mem_updatesOf.mp ⟨k, update⟩
    rw [groupsOf_tenantMap] at differs
    exact ⟨RulerStore.find_of_mem (read t ▸ holds), differs⟩
  obtain ⟨kept, gs₁, here₁, member₁⟩ := puts_spare short spared start member updates
  have bound := kept.length_le short spared.anchored start here₁
  have removals : ∀ p ∈ o.removalsOf (getTenantMapFromRulesList w.cluster.rules) r,
      p.1 ∈ ts → p.2.1.name ≠ g.name := by
    intro slot removal lists named
    rcases slot with ⟨t, m, k⟩
    have unknown := (TickOrders.exists_mem_removalsOf.mp ⟨_, removal⟩).2
    have held := (spared.settled ts gs start t lists).1
    rw [read] at unknown
    rw [← named, RulerStore.find] at held
    exact Option.not_isSome_iff_eq_none.mpr unknown held
  obtain ⟨gs', here, member', -⟩ := List.foldlRecOn (motive := fun w : World =>
      ∃ gs', w.content name = some (ts, gs') ∧ g ∈ gs' ∧ gs'.length ≤ 2 ^ 32)
    (o.removalsOf (getTenantMapFromRulesList w.cluster.rules) r)
    (fun w p => live.remove p.1 p.2.1.name w) ⟨gs₁, here₁, member₁, bound⟩
    (by
      intro w held p listed
      rcases held with ⟨gs', here, member', short'⟩
      exact remove_spares here member' short' (removals p listed))
  exact ⟨gs', here, member'⟩

end

end OpenMetrics.Informer
