import OpenMetrics.Informer.Agreement
import OpenMetrics.Informer.Survival

namespace OpenMetrics.Informer
open Library KubeLib

structure Edit where
  resource : String
  tenant : String
  group : GroupSpec
  deriving DecidableEq

def Edit.Intact (e : Edit) (w : World) : Prop :=
  ∃ spec ∈ w.content e.resource, e.tenant ∈ spec.1 ∧ e.group ∈ spec.2

instance (w : World) : DecidablePred fun e : Edit => e.Intact w := fun e =>
  inferInstanceAs (Decidable (∃ spec ∈ w.content e.resource, e.tenant ∈ spec.1 ∧ e.group ∈ spec.2))

structure State where
  world : World
  pending : List Edit

namespace State

def editsOf (name : String) (rule : OpenMetricsRule) : List Edit :=
  rule.spec.tenants.flatMap fun t => rule.spec.groups.map fun g => ⟨name, t, g⟩

def userApply (s : State) (place : Nat) (name : String) (rule : OpenMetricsRule) : State where
  world := { s.world with cluster := s.world.cluster.apply place name rule }
  pending := (s.pending.filter fun e => e.resource ≠ name) ++
    (editsOf name rule).filter fun e => e ∈ s.pending ∨ ¬ e.Intact s.world

def userDelete (s : State) (name : String) : State where
  world := { s.world with cluster := s.world.cluster.delete name }
  pending := s.pending.filter fun e => e.resource ≠ name

def tracked (s : State) (w : World) : State := { s with world := w }

def updated (s : State) (w : World) : State where
  world := w
  pending := s.pending.filter fun e =>
    Call.post e.tenant e.group ∉ w.log.drop s.world.log.length

end State

def Covers (userIds : List String) (w : World) : Prop :=
  ∀ t, declared w.cluster.rules t ≠ [] ∨ w.ruler.groups t ≠ [] → t ∈ userIds ∧ t ≠ "0"

/-- One turn of the user or of a loop. `guard` restricts the states in which the tracker takes
its turn. -/
inductive Step (live : Live) (guard : State → Prop) : State → State → Prop
  | apply (s : State) (place : Nat) (name : String) (rule : OpenMetricsRule) :
      Step live guard s (s.userApply place name rule)
  | delete (s : State) (name : String) : Step live guard s (s.userDelete name)
  | tracker (s : State) (userIds : List String) (o : TickOrders) (w : World)
      (covers : Covers userIds s.world) (allowed : guard s)
      (run : (live.setup userIds).tracker o s.world = some ((), w)) :
      Step live guard s (s.tracked w)
  | updater (s : State) (userIds : List String) (o : TickOrders) (skip : Bool) (w : World)
      (run : (live.setup userIds).updater o skip s.world = some ((), w)) :
      Step live guard s (s.updated w)

inductive Reachable (live : Live) (guard : State → Prop) : State → Prop
  | start (w : World) : Reachable live guard ⟨w, []⟩
  | step {s s' : State} (before : Reachable live guard s) (turn : Step live guard s s') :
      Reachable live guard s'

def SparesPending (live : Live) (s : State) : Prop :=
  ∀ e ∈ s.pending, s.world.Short ∧ Spared live s.world e.resource e.group

section
variable {live : Live} {s : State} {e : Edit}

theorem intact_iff {w : World} : e.Intact w ↔
    ∃ ts gs, w.content e.resource = some (ts, gs) ∧ e.tenant ∈ ts ∧ e.group ∈ gs := by
  simp [Edit.Intact]

theorem intact_apply (intact : ∀ e ∈ s.pending, e.Intact s.world) (place : Nat) (name : String)
    (rule : OpenMetricsRule) :
    ∀ e ∈ (s.userApply place name rule).pending, e.Intact (s.userApply place name rule).world := by
  intro e pending
  have content (name' : String) : (s.userApply place name rule).world.content name' =
      if name' = name then some (rule.spec.tenants, rule.spec.groups)
      else s.world.content name' := by
    rw [World.content, State.userApply, Cluster.find_apply]
    split_ifs <;> rfl
  rw [intact_iff, content]
  cases List.mem_append.mp pending with
  | inl old =>
      obtain ⟨before, other⟩ := List.mem_filter.mp old
      rw [if_neg (by simpa using other)]
      exact intact_iff.mp (intact e before)
  | inr new =>
      obtain ⟨declares, -⟩ := List.mem_filter.mp new
      simp only [State.editsOf, List.mem_flatMap, List.mem_map] at declares
      obtain ⟨t, lists, g, group, rfl⟩ := declares
      exact ⟨_, _, if_pos rfl, lists, group⟩

theorem intact_delete (intact : ∀ e ∈ s.pending, e.Intact s.world) (name : String) :
    ∀ e ∈ (s.userDelete name).pending, e.Intact (s.userDelete name).world := by
  intro e pending
  obtain ⟨before, other⟩ := List.mem_filter.mp pending
  have content : (s.userDelete name).world.content e.resource = s.world.content e.resource := by
    rw [World.content, State.userDelete, Cluster.find_delete, if_neg (by simpa using other)]
    rfl
  rw [intact_iff, content]
  exact intact_iff.mp (intact e before)

theorem Covers.read {userIds : List String} {w : World} (covers : Covers userIds w)
    {r : TenantGroups}
    (groups : ∀ t, groupsOf r t = if t ∈ userIds ∧ t ≠ "0" then w.ruler.groups t else [])
    (t : String) : groupsOf r t = w.ruler.groups t := by
  rw [groups]
  by_cases asked : t ∈ userIds ∧ t ≠ "0"
  · rw [if_pos asked]
  · rw [if_neg asked]
    by_contra holds
    exact asked (covers t (Or.inr (Ne.symm holds)))

theorem intact_tracked (intact : ∀ e ∈ s.pending, e.Intact s.world)
    {userIds : List String} {o : TickOrders} {w : World} (covers : Covers userIds s.world)
    (spares : SparesPending live s)
    (run : (live.setup userIds).tracker o s.world = some ((), w)) :
    ∀ e ∈ (s.tracked w).pending, e.Intact (s.tracked w).world := by
  intro e pending
  obtain ⟨r, track, groups⟩ := live.tracker_apply userIds o s.world
  obtain rfl := (Prod.mk.inj (Option.some.inj (track.symm.trans run))).2
  obtain ⟨short, spared⟩ := spares e pending
  obtain ⟨ts, gs, here, lists, member⟩ := intact_iff.mp (intact e pending)
  obtain ⟨gs', after, member'⟩ := trackerTick_spares (covers.read groups) short spared here member
  exact intact_iff.mpr ⟨ts, gs', after, lists, member'⟩

theorem intact_updated (intact : ∀ e ∈ s.pending, e.Intact s.world)
    {userIds : List String} {o : TickOrders} {skip : Bool} {w : World}
    (run : (live.setup userIds).updater o skip s.world = some ((), w)) :
    ∀ e ∈ (s.updated w).pending, e.Intact (s.updated w).world := by
  intro e pending
  obtain ⟨r, update, -⟩ := live.updater_apply userIds o skip s.world
  obtain rfl := (Prod.mk.inj (Option.some.inj (update.symm.trans run))).2
  have before := intact e (List.mem_filter.mp pending).1
  rw [intact_iff] at before ⊢
  rwa [show (s.updated (live.updaterTick o skip r s.world)).world =
    live.updaterTick o skip r s.world from rfl, Live.content_updaterTick]

theorem intact_step {s' : State} (intact : ∀ e ∈ s.pending, e.Intact s.world)
    (turn : Step live (SparesPending live) s s') : ∀ e ∈ s'.pending, e.Intact s'.world := by
  cases turn with
  | apply place name rule => exact intact_apply intact place name rule
  | delete name => exact intact_delete intact name
  | tracker userIds o w covers spares run => exact intact_tracked intact covers spares run
  | updater userIds o skip w run => exact intact_updated intact run

end

theorem pending_intact (live : Live) (s : State) (run : Reachable live (SparesPending live) s) :
    ∀ e ∈ s.pending, e.Intact s.world := by
  induction run with
  | start w => simp
  | step before turn ih => exact intact_step ih turn

def alertRule : OpenMetricsRule :=
  .new "edited" { tenants := ["1"], description := none, groups := [alertGroup] }

theorem covers_one {w : World}
    (tenants : ∀ rule ∈ w.cluster.rules, rule.spec.tenants = ["1"])
    (held : ∀ t, t ≠ "1" → w.ruler.groups t = []) : Covers ["1"] w := by
  intro t used
  have one : t = "1" := by
    cases used with
    | inl declares =>
        obtain ⟨g, member⟩ := List.exists_mem_of_ne_nil _ declares
        obtain ⟨rule, listed, names, -⟩ := mem_declared.mp member
        simpa [tenants rule listed] using names
    | inr holds =>
        by_contra other
        exact holds (held t other)
  subst one
  decide

theorem pending_intact_held_group :
    ∃ s, Reachable (Live.localhost id) (SparesPending (Live.localhost id)) s ∧
      s.pending = [⟨"edited", "1", alertGroup⟩] ∧ ∀ e ∈ s.pending, e.Intact s.world := by
  let s : State := State.userApply ⟨oneTenant "1", []⟩ 0 "edited" alertRule
  have pending : s.pending = [⟨"edited", "1", alertGroup⟩] := by decide
  have applied : Reachable (Live.localhost id) (SparesPending (Live.localhost id)) s :=
    .step (.start (oneTenant "1")) (.apply _ 0 "edited" alertRule)
  have holds (t : String) (m : GroupSpec) (found : s.world.ruler.find (t, m.name) = some m) :
      t = "1" ∧ m = alertGroup := by
    have member := (RulerStore.find_eq_some.mp found).1
    by_cases same : t = "1"
    · exact ⟨same, by simpa [s, State.userApply, oneTenant, same] using member⟩
    · simp [s, State.userApply, oneTenant, same] at member
  have covers : Covers ["1"] s.world :=
    covers_one (by decide) fun t other => by simp [s, State.userApply, oneTenant, other]
  have content : s.world.content "edited" = some (["1"], [alertGroup]) := by decide
  have spares : SparesPending (Live.localhost id) s := by
    intro e member
    rw [pending, List.mem_singleton] at member
    subst member
    refine ⟨by unfold World.Short; decide, ?_, ?_⟩
    · intro ts gs _ t m found computed
      obtain ⟨rfl, rfl⟩ := holds t m found
      exact absurd computed (by decide)
    · intro ts gs here t lists
      obtain ⟨rfl, rfl⟩ := Prod.mk.inj (Option.some.inj (content.symm.trans here))
      obtain rfl := List.mem_singleton.mp lists
      exact ⟨by decide, Or.inl (by decide)⟩
  obtain ⟨r, run, -⟩ := (Live.localhost id).tracker_apply ["1"] .sorted s.world
  have tracked := applied.step (.tracker s ["1"] .sorted _ covers spares run)
  exact ⟨_, tracked, pending, pending_intact (Live.localhost id) _ tracked⟩

theorem pending_lost_new_group :
    ∃ s, Reachable (Live.localhost id) (fun _ => True) s ∧ ∃ e ∈ s.pending, ¬ e.Intact s.world := by
  let empty : World :=
    { cluster := { rules := [], named := by simp, nodup := by simp }
      ruler := { groups := fun _ => [], nodup := by simp }
      log := [] }
  let s : State := State.userApply ⟨empty, []⟩ 0 "edited" alertRule
  have applied : Reachable (Live.localhost id) (fun _ => True) s :=
    .step (.start empty) (.apply _ 0 "edited" alertRule)
  have covers : Covers ["1"] s.world := covers_one (by decide) fun t _ => rfl
  have pending : (⟨"edited", "1", alertGroup⟩ : Edit) ∈ s.pending := by decide
  have deleted : (((Live.localhost id).setup ["1"]).tracker .sorted s.world).map
      (fun out => out.2.content "edited") = some none := by decide
  obtain ⟨⟨_, w⟩, run, gone⟩ := Option.map_eq_some_iff.mp deleted
  refine ⟨_, applied.step (.tracker s ["1"] .sorted w covers trivial run),
    _, pending, ?_⟩
  intro intact
  rcases intact with ⟨spec, here, -⟩
  have nothing : w.content "edited" = none := gone
  simp [State.tracked, nothing] at here

end OpenMetrics.Informer
