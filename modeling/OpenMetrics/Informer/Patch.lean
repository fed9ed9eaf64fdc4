import OpenMetrics.Informer.Diff
import Mathlib.Data.String.Basic

namespace OpenMetrics.Informer
open Library KubeLib

def entryName (entry : GroupSpec × Int) : String := entry.1.name

def replaceGroups (groups : Option (List (GroupSpec × Int))) (updates : List (GroupSpec × Int)) :
    List (GroupSpec × Int) :=
  updates.foldl (fun l e => Keyed.write entryName l.length e l) (groups.getD [])

def deleteGroups (groups : Option (List (GroupSpec × Int))) (removals : List (GroupSpec × Int)) :
    List (GroupSpec × Int) :=
  removals.foldl (fun l e => Keyed.delete entryName (entryName e) l) (groups.getD [])

def applyPatch (order : HashOrder String) (target : TenantGroups)
    (patch : TenantGroups × TenantGroups) : TenantGroups :=
  (order.iter patch.2).foldl (merge deleteGroups)
    ((order.iter patch.1).foldl (merge replaceGroups) target)

def Unique (m : TenantGroups) : Prop := ∀ t, ((groupsOf m t).map GroupSpec.name).Nodup

theorem groupNamed_groupsOf (m : TenantGroups) (t name : String) :
    groupNamed (groupsOf m t) name = (Keyed.find entryName name (entriesOf m t)).map Prod.fst := by
  rw [groupsOf, groupNamed, Keyed.find, List.find?_map]
  rfl

theorem Unique.nodup {m : TenantGroups} (unique : Unique m) (t : String) :
    ((entriesOf m t).map entryName).Nodup := by
  have names := unique t
  rwa [groupsOf, List.map_map] at names

theorem Unique.groupNamed {m : TenantGroups} (unique : Unique m) {t : String} {g : GroupSpec}
    (member : g ∈ groupsOf m t) : groupNamed (groupsOf m t) g.name = some g :=
  Keyed.find_of_mem (unique t) member

theorem entriesOf_merge (order : HashOrder String)
    (f : Option (List (GroupSpec × Int)) → List (GroupSpec × Int) → List (GroupSpec × Int))
    (empty : ∀ l, f l [] = l.getD []) (entries m : TenantGroups) (t : String) :
    entriesOf ((order.iter entries).foldl (merge f) m) t = f (m.lookup t) (entriesOf entries t) := by
  rw [entriesOf, order.lookup_merge_all, entriesOf]
  cases entries.lookup t with
  | none => exact (empty _).symm
  | some l => rfl

theorem entriesOf_applyPatch (order : HashOrder String) (target : TenantGroups)
    (patch : TenantGroups × TenantGroups) (t : String) :
    entriesOf (applyPatch order target patch) t =
      (entriesOf patch.2 t).foldl (fun l e => Keyed.delete entryName (entryName e) l)
        ((entriesOf patch.1 t).foldl (fun l e => Keyed.write entryName l.length e l)
          (entriesOf target t)) := by
  have updated := entriesOf_merge order replaceGroups (fun _ => rfl) patch.1 target t
  rw [applyPatch, entriesOf_merge order deleteGroups fun _ => rfl, deleteGroups]
  congr 1

section
variable {o p order : HashOrder String} {target origin : TenantGroups} (unique : Unique target)
include unique

def updated (target origin : TenantGroups) (t : String) : List (GroupSpec × Int) :=
  (updatesFor target origin t).foldl (fun l e => Keyed.write entryName l.length e l)
    (entriesOf target t)

theorem find_updated (origin : TenantGroups) (t : String) :
    ((updated target origin t).map entryName).Nodup ∧ ∀ name,
      ((∀ e ∈ updatesFor target origin t, entryName e ≠ name) ∧
        Keyed.find entryName name (updated target origin t) =
          Keyed.find entryName name (entriesOf target t)) ∨
      ∃ e ∈ updatesFor target origin t, entryName e = name ∧
        Keyed.find entryName name (updated target origin t) = some e :=
  Keyed.view_writes (fun l k => Keyed.find entryName k l)
    (fun l : List (GroupSpec × Int) => (l.map entryName).Nodup) id
    (fun e _ l nodup => ⟨Keyed.nodup_write entryName l.length e nodup,
      Keyed.find_write nodup l.length e⟩) (unique.nodup t)

theorem patched_spec (t : String) :
    ((entriesOf (applyPatch order target (diffRuleGroups o p target origin)) t).map entryName).Nodup ∧
    ∀ name, Keyed.find entryName name
        (entriesOf (applyPatch order target (diffRuleGroups o p target origin)) t) =
      if ∃ e ∈ removalsFor target origin t, entryName e = name then none
      else Keyed.find entryName name (updated target origin t) := by
  rw [entriesOf_applyPatch, entriesOf_updates, entriesOf_removals]
  exact Keyed.view_deletions (fun l k => Keyed.find entryName k l)
    (fun l : List (GroupSpec × Int) => (l.map entryName).Nodup) (fun e name => entryName e = name)
    (fun e _ l nodup => ⟨Keyed.nodup_delete entryName _ nodup, fun name =>
      (Keyed.find_delete nodup (entryName e) name).trans (if_congr eq_comm rfl rfl)⟩)
    (find_updated unique origin t).1

theorem unique_applyPatch : Unique (applyPatch order target (diffRuleGroups o p target origin)) := by
  intro t
  rw [groupsOf, List.map_map]
  exact (patched_spec unique t).1

variable (uniqueOrigin : Unique origin)
include uniqueOrigin

omit uniqueOrigin in
theorem find_applyPatch_unwanted {t name : String}
    (unwanted : groupNamed (groupsOf origin t) name = none) :
    Keyed.find entryName name
      (entriesOf (applyPatch order target (diffRuleGroups o p target origin)) t) = none := by
  have unwritten : ∀ e ∈ updatesFor target origin t, entryName e ≠ name := fun e update named =>
    Keyed.find_eq_none.mp unwanted e.1 (List.mem_map_of_mem (List.mem_of_mem_filter update)) named
  rw [(patched_spec unique t).2]
  split_ifs with removed
  · rfl
  · cases (find_updated unique origin t).2 name with
    | inr written =>
        obtain ⟨e, update, named, -⟩ := written
        exact absurd named (unwritten e update)
    | inl untouched =>
        rw [untouched.2, Keyed.find_eq_none]
        intro e entry named
        refine removed ⟨e, List.mem_filter.mpr ⟨entry, decide_eq_true ?_⟩, named⟩
        rw [show e.1.name = name from named, unwanted]

theorem groupNamed_applyPatch_wanted {t : String} {g : GroupSpec} (wanted : g ∈ groupsOf origin t) :
    groupNamed (groupsOf (applyPatch order target (diffRuleGroups o p target origin)) t) g.name =
      some g := by
  have kept : ¬ ∃ e ∈ removalsFor target origin t, entryName e = g.name := by
    intro removed
    rcases removed with ⟨e, removal, named⟩
    have gone := of_decide_eq_true (List.mem_filter.mp removal).2
    rw [show e.1.name = g.name from named, uniqueOrigin.groupNamed wanted] at gone
    cases gone
  rw [groupNamed_groupsOf, (patched_spec unique t).2, if_neg kept]
  cases (find_updated unique origin t).2 g.name with
  | inr written =>
      obtain ⟨e, update, named, shown⟩ := written
      have same : e.1 = g := List.inj_on_of_nodup_map (uniqueOrigin t)
        (List.mem_map_of_mem (List.mem_of_mem_filter update)) wanted named
      rw [shown, Option.map_some, same]
  | inl untouched =>
      rw [untouched.2, ← groupNamed_groupsOf]
      -- a group of the origin that is not written is the target's already
      by_contra differs
      obtain ⟨e, entry, rfl⟩ := List.mem_map.mp wanted
      exact untouched.1 e (List.mem_filter.mpr ⟨entry, decide_eq_true differs⟩) rfl

variable (o p order) in
theorem groupNamed_applyPatch (t name : String) :
    groupNamed (groupsOf (applyPatch order target (diffRuleGroups o p target origin)) t) name =
      groupNamed (groupsOf origin t) name := by
  cases found : groupNamed (groupsOf origin t) name with
  | none => rw [groupNamed_groupsOf, find_applyPatch_unwanted unique found, Option.map_none]
  | some g =>
      obtain rfl : g.name = name := Keyed.find_key found
      exact groupNamed_applyPatch_wanted unique uniqueOrigin (Keyed.mem_of_find found)

theorem updatesFor_applyPatch (t : String) :
    updatesFor (applyPatch order target (diffRuleGroups o p target origin)) origin t = [] := by
  rw [updatesFor, List.filter_eq_nil_iff]
  intro e entry
  rw [decide_eq_true_eq, not_not, groupNamed_applyPatch o p order unique uniqueOrigin]
  exact uniqueOrigin.groupNamed (List.mem_map_of_mem entry)

theorem removalsFor_applyPatch (t : String) :
    removalsFor (applyPatch order target (diffRuleGroups o p target origin)) origin t = [] := by
  rw [removalsFor, List.filter_eq_nil_iff]
  intro e entry
  rw [decide_eq_true_eq, ← groupNamed_applyPatch o p order unique uniqueOrigin,
    groupNamed, Keyed.find_eq_none]
  exact fun absent => absent e.1 (List.mem_map_of_mem entry) rfl

end

theorem diff_eq_empty {o p : HashOrder String} {target origin : TenantGroups}
    (noUpdates : ∀ t, updatesFor target origin t = [])
    (noRemovals : ∀ t, removalsFor target origin t = []) :
    diffRuleGroups o p target origin = (∅, ∅) := by
  refine Prod.ext (Finmap.ext_lookup fun t => ?_) (Finmap.ext_lookup fun t => ?_)
  · rw [lookup_updates, noUpdates, Finmap.lookup_empty]
    rfl
  · rw [lookup_removals, noRemovals, Finmap.lookup_empty]
    rfl

theorem nonEmpty_ne_nil {l l' : List (GroupSpec × Int)} (found : nonEmpty l = some l') : l' ≠ [] := by
  intro empty
  obtain rfl := empty
  cases l with
  | nil => simp [nonEmpty] at found
  | cons e rest => simp [nonEmpty] at found

theorem diff_patches (o p order : HashOrder String) (target origin : TenantGroups)
    (unique : Unique target) (uniqueOrigin : Unique origin) :
    let patch := diffRuleGroups o p target origin
    let patched := applyPatch order target patch
    (Unique patched ∧ ∀ t name,
      groupNamed (groupsOf patched t) name = groupNamed (groupsOf origin t) name) ∧
    (∀ o' p', diffRuleGroups o' p' patched origin = (∅, ∅)) ∧
    (∀ t, ∀ e ∈ entriesOf patch.1 t, ∀ e' ∈ entriesOf patch.2 t, e.1.name ≠ e'.1.name) ∧
    (∀ t, ∀ e ∈ entriesOf patch.1 t, groupNamed (groupsOf target t) e.1.name ≠ some e.1) ∧
    ∀ t, (∀ l, patch.1.lookup t = some l → l ≠ []) ∧ ∀ l, patch.2.lookup t = some l → l ≠ [] := by
  intro patch patched
  refine ⟨⟨unique_applyPatch unique, groupNamed_applyPatch o p order unique uniqueOrigin⟩,
    fun o' p' => ?_, fun t e update e' removal same => ?_, fun t e update => ?_,
    fun t => ⟨fun l found => ?_, fun l found => ?_⟩⟩
  · exact diff_eq_empty (updatesFor_applyPatch unique uniqueOrigin)
      (removalsFor_applyPatch unique uniqueOrigin)
  · rw [entriesOf_updates] at update
    rw [entriesOf_removals] at removal
    have gone := of_decide_eq_true (List.mem_filter.mp removal).2
    exact Keyed.find_eq_none.mp gone e.1 (List.mem_map_of_mem (List.mem_of_mem_filter update)) same
  · rw [entriesOf_updates] at update
    exact of_decide_eq_true (List.mem_filter.mp update).2
  · exact nonEmpty_ne_nil ((lookup_updates o p target origin t).symm.trans found)
  · exact nonEmpty_ne_nil ((lookup_removals o p target origin t).symm.trans found)

theorem unique_singleton (t : String) {l : List (GroupSpec × Int)}
    (nodup : (l.map entryName).Nodup) : Unique (Finmap.singleton t l) := by
  intro t'
  by_cases same : t' = t
  · subst same
    rw [groupsOf, List.map_map, entriesOf, Finmap.lookup_singleton_eq, Option.getD_some]
    exact nodup
  · have absent : t' ∉ (Finmap.singleton t l : TenantGroups) := by
      simpa [Finmap.mem_singleton] using same
    simp [groupsOf, entriesOf_of_not_mem absent]

theorem diff_patches_replace_and_remove :
    let order := HashOrder.sorted String
    let target : TenantGroups :=
      Finmap.singleton "a" [(⟨"kept", none, []⟩, -1), (⟨"gone", none, []⟩, -1)]
    let origin : TenantGroups := Finmap.singleton "a" [(⟨"kept", some "1m", []⟩, 0)]
    (Unique target ∧ Unique origin) ∧
    ∀ t name, groupNamed (groupsOf (applyPatch order target
        (diffRuleGroups order order target origin)) t) name =
      groupNamed (groupsOf origin t) name := by
  intro order target origin
  have unique : Unique target := unique_singleton "a" (by decide)
  have uniqueOrigin : Unique origin := unique_singleton "a" (by decide)
  exact ⟨⟨unique, uniqueOrigin⟩,
    (diff_patches order order order target origin unique uniqueOrigin).1.2⟩

end OpenMetrics.Informer
