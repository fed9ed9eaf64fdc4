import OpenMetrics.Informer.Implement

namespace OpenMetrics.Informer
open Library KubeLib

def accepted : WriteReply → Bool
  | .transportError => false
  | .response _ none => false
  | .response status (some _) => status = 202

inductive Event where
  | posted (tenantId : String) (group : GroupSpec) (reply : WriteReply)
  | patched (held : RulerStore) (rule : OpenMetricsRule)

def AcceptedIn (log : List Event) (t : String) (g : GroupSpec) : Prop :=
  ∃ reply, Event.posted t g reply ∈ log ∧ accepted reply

def Earned (log : List Event) (held : RulerStore) (rule : OpenMetricsRule) : Prop :=
  ∀ t ∈ rule.spec.tenants, ∀ g ∈ rule.spec.groups, AcceptedIn log t g ∨ g ∈ held.groups t

def Honest (log : List Event) : Prop :=
  ∀ front held rule back, log = front ++ .patched held rule :: back →
    rule.status = some { rulerUpdated := true } → Earned front held rule

theorem forall_split_concat {α : Type} {P : List α → α → Prop} {l : List α} {last : α} :
    (∀ front a back, l ++ [last] = front ++ a :: back → P front a) ↔
      (∀ front a back, l = front ++ a :: back → P front a) ∧ P l last := by
  constructor
  · intro all
    exact ⟨fun front a back split => all front a (back ++ [last]) (by simp [split]),
      all l last [] rfl⟩
  · intro both front a back split
    rcases both with ⟨before, here⟩
    cases List.eq_nil_or_concat back with
    | inl empty =>
        subst empty
        obtain ⟨rfl, same⟩ := List.append_inj' split rfl
        obtain rfl := List.singleton_inj.mp same
        exact here
    | inr more =>
        obtain ⟨back', last', rfl⟩ := more
        rw [List.concat_eq_append, ← List.cons_append, ← List.append_assoc] at split
        exact before front a back' (List.append_inj' split rfl).1

theorem acceptedIn_append {log more : List Event} {t : String} {g : GroupSpec} :
    AcceptedIn (log ++ more) t g ↔ AcceptedIn log t g ∨ AcceptedIn more t g := by
  simp only [AcceptedIn, List.mem_append, or_and_right, exists_or]

theorem honest_concat {log : List Event} {e : Event} :
    Honest (log ++ [e]) ↔ Honest log ∧ ∀ held rule, e = .patched held rule →
      rule.status = some { rulerUpdated := true } → Earned log held rule := by
  have splits (log : List Event) : Honest log ↔ ∀ front a back, log = front ++ a :: back →
      ∀ held rule, a = .patched held rule → rule.status = some { rulerUpdated := true } →
        Earned front held rule := by
    constructor
    · intro honest front a back split held rule same
      subst same
      exact honest front held rule back split
    · exact fun honest front held rule back split => honest front _ back split held rule rfl
  rw [splits, splits]
  exact forall_split_concat

theorem honest_posted {log : List Event} {t : String} {g : GroupSpec} {reply : WriteReply} :
    Honest (log ++ [.posted t g reply]) ↔ Honest log := by
  simp [honest_concat]

theorem honest_patched {log : List Event} {held : RulerStore} {rule : OpenMetricsRule}
    (marked : rule.status = some { rulerUpdated := true }) :
    Honest (log ++ [.patched held rule]) ↔ Honest log ∧ Earned log held rule := by
  simp [honest_concat, marked]

/-- What a tick finds: the resources that are listed, the groups that the ruler holds, and its
replies; `posts t g k` is the one to the `k`-th POST of the group for the tenant. -/
structure Tick where
  cluster : Cluster
  ruler : RulerStore
  gets : String → RulerReply
  posts : String → GroupSpec → Nat → WriteReply
  deletes : String → String → WriteReply
  orders : TickOrders
  skip : Bool

structure Trial where
  cluster : Cluster
  ruler : RulerStore
  posted : List (String × GroupSpec)
  log : List Event

namespace Trial

def start : Trial where
  cluster := .empty
  ruler := .empty
  posted := []
  log := []

def begin (s : Trial) (tick : Tick) : Trial :=
  { s with
    cluster := tick.cluster
    ruler := tick.ruler
    posted := [] }

def post (reply : WriteReply) (tenantId : String) (group : GroupSpec) (s : Trial) : Trial :=
  { s with
    posted := s.posted ++ [(tenantId, group)]
    log := s.log ++ [.posted tenantId group reply] }

def patch (rule : OpenMetricsRule) (s : Trial) : Trial :=
  { s with log := s.log ++ [.patched s.ruler rule] }

def reply (tick : Tick) (tenantId : String) (group : GroupSpec) (s : Trial) : WriteReply :=
  tick.posts tenantId group (s.posted.count (tenantId, group))

def k8sClient : KubeClient Trial where
  list _ _ s := some (.ok { items := s.cluster.rules, continue_ := none }, s)
  patch _ _ rule s := some (.ok (), s.patch rule)
  delete _ _ s := some (.ok (), s)

def rulerClient (tick : Tick) : RulerClient Trial where
  get _ tenantId s := some (tick.gets tenantId, s)
  post _ tenantId group s :=
    some (s.reply tick tenantId group, s.post (s.reply tick tenantId group) tenantId group)
  delete url tenantId s := some (tick.deletes url tenantId, s)

def setup (live : Live) (tick : Tick) : Setup Trial where
  k8sClient := k8sClient
  rulerClient := rulerClient tick
  distributorClient := { get := fun _ => pure (.response 200 (.ok [])) }
  rulerApiUrl := live.rulerApiUrl
  distributorApiUrl := live.distributorApiUrl
  namespace_ := live.namespace_
  sha1 := live.sha1
  fuel := 0

end Trial

def trialRun (live : Live) (ticks : List Tick) : Act Trial Unit :=
  ticks.forM fun tick s => (Trial.setup live tick).updater tick.orders tick.skip (s.begin tick)

/-- From the reply the informer takes it that the ruler does not hold the group as it is. -/
def Lacks (reply : RulerReply) (t : String) (g : GroupSpec) : Prop :=
  ∃ order, groupNamed (groupsOf (readReply order t reply ∅).1 t) g.name ≠ some g

/-- Where a group of a resource looks missing, the ruler holds the other groups of the resource or
has accepted them in a tick before, and this one too, or it accepts its POST. A tick that gives up
while it reads the ruler owes nothing. -/
def Tick.Settles (log : List Event) (tick : Tick) : Prop :=
  (∀ t ∈ discoverTenantIds tick.cluster.rules, ¬ Detected (tick.gets t)) →
    ∀ rule ∈ tick.cluster.rules, ∀ t ∈ rule.spec.tenants, ∀ g ∈ rule.spec.groups,
      Lacks (tick.gets t) t g → ∀ t' ∈ rule.spec.tenants, ∀ g' ∈ rule.spec.groups,
        g' ∈ tick.ruler.groups t' ∨ AcceptedIn log t' g' ∨
          (t' = t ∧ g' = g) ∧ accepted (tick.posts t g 0)

namespace Trial

variable {live : Live} {tick : Tick} {o : TickOrders} {s : Trial} {rules : List OpenMetricsRule}
  {r : TenantGroups}

def upload (tick : Tick) (rules : List OpenMetricsRule) (s : Trial)
    (p : String × GroupSpec × Int) : Trial :=
  match rules[p.2.2.toNat]? with
  | some rule => (s.post (s.reply tick p.1 p.2.1) p.1 p.2.1).patch (renewed rule)
  | none => s.post (s.reply tick p.1 p.2.1) p.1 p.2.1

theorem upload_listed {p : String × GroupSpec × Int} {rule : OpenMetricsRule}
    (found : rules[p.2.2.toNat]? = some rule) :
    s.upload tick rules p =
      (s.post (s.reply tick p.1 p.2.1) p.1 p.2.1).patch (renewed rule) := by
  simp only [upload, found]

@[simp] theorem updateRulerRule_apply (url t ns : String) (g : GroupSpec) (s : Trial) :
    updateRulerRule (rulerClient tick) url t ns g s =
      some ((), s.post (s.reply tick t g) t g) := rfl

@[simp] theorem resourceUpdated_apply (ns name : String) (rule : OpenMetricsRule) (s : Trial) :
    resourceUpdated k8sClient ns name rule s = some ((), s.patch (renewed rule)) := rfl

theorem uploadGroup_apply (named : ∀ rule ∈ rules, (nameOf rule).isSome)
    {p : String × GroupSpec × Int}
    (update : p ∈ o.updatesOf r (getTenantMapFromRulesList rules)) (s : Trial) :
    (setup live tick).uploadGroup rules p.1 p.2 s = some ((), s.upload tick rules p) := by
  obtain ⟨rule, found, code⟩ := (setup live tick).uploadGroup_listed named update
  rw [code, upload_listed found]
  rfl

variable (live tick o) in
theorem updater_apply (skip : Bool) (s : Trial) :
    (setup live tick).updater o skip s = some ((), s) ∨
    ∃ r, (∀ t ∈ discoverTenantIds s.cluster.rules, ¬ Detected (tick.gets t) ∧
        ∃ order, groupsOf r t = groupsOf (readReply order t (tick.gets t) ∅).1 t) ∧
      (setup live tick).updater o skip s =
        some ((), (o.updatesOf r (getTenantMapFromRulesList s.cluster.rules)).foldl
          (upload tick s.cluster.rules) s) := by
  have listed : discoverOpenMetricsRules (setup live tick).k8sClient live.namespace_
      (setup live tick).fuel s = some (.ok s.cluster.rules, s) := by
    simp [discoverOpenMetricsRules, refreshOpenMetricsRules, setup, k8sClient]
  have gets : ∀ t ∈ o.tenants.keys (discoverTenantIds s.cluster.rules),
      (rulerClient tick).get (rulesUrl live.rulerApiUrl live.namespace_) t s =
        some (tick.gets t, s) := fun _ _ => rfl
  rcases discoverRulerRules_read o.namespaces gets
    (o.tenants.nodup_keys (discoverTenantIds s.cluster.rules)) with ⟨e, failed⟩ | ⟨r, run, shown⟩
  · exact Or.inl (Setup.updater_gives_up listed failed)
  · refine Or.inr ⟨r, fun t asked => ?_, ?_⟩
    · obtain ⟨undetected, order, found⟩ := shown t (o.tenants.mem_keys_iff.mpr asked)
      exact ⟨undetected, order, by rw [groupsOf, entriesOf, found]; rfl⟩
    · have sync : (setup live tick).updater o skip s =
          (setup live tick).syncToRuler o skip s.cluster.rules r s :=
        Setup.updater_reads listed run
      have written := Setup.syncToRuler_writes skip (i := setup live tick) (o := o) (r := r) (s := s)
        (upload tick s.cluster.rules) (fun s' _ => s')
        (fun _ update s' => uploadGroup_apply s.cluster.named update s') (fun _ _ => rfl)
      rw [List.foldl_fixed, ite_self] at written
      exact sync.trans written

structure Honoured (tick : Tick) (s₀ s : Trial) : Prop where
  honest : Honest s.log
  ruler : s.ruler = s₀.ruler
  before : ∀ t g, AcceptedIn s₀.log t g → AcceptedIn s.log t g
  posted : ∀ t g, (t, g) ∈ s.posted → accepted (tick.posts t g 0) → AcceptedIn s.log t g

section
variable {s₀ : Trial}

theorem acceptedIn_post {reply : WriteReply} {t t' : String} {g g' : GroupSpec}
    (before : AcceptedIn s.log t' g') : AcceptedIn (s.post reply t g).log t' g' :=
  acceptedIn_append.mpr (Or.inl before)

theorem Honoured.post (honoured : Honoured tick s₀ s) (t : String) (g : GroupSpec) :
    Honoured tick s₀ (s.post (s.reply tick t g) t g) where
  honest := honest_posted.mpr honoured.honest
  ruler := honoured.ruler
  before t' g' earlier := acceptedIn_post (honoured.before t' g' earlier)
  posted t' g' listed first := by
    by_cases known : (t', g') ∈ s.posted
    · exact acceptedIn_post (honoured.posted t' g' known first)
    · obtain ⟨rfl, rfl⟩ := Prod.mk.inj (List.mem_singleton.mp
        ((List.mem_append.mp listed).resolve_left known))
      -- this is the first POST of the group
      refine acceptedIn_append.mpr (Or.inr ⟨s.reply tick t' g', List.mem_singleton_self _, ?_⟩)
      rwa [reply, List.count_eq_zero.mpr known]

theorem Honoured.upload (honoured : Honoured tick s₀ s) {p : String × GroupSpec × Int}
    {rule : OpenMetricsRule} (found : rules[p.2.2.toNat]? = some rule)
    (settles : ∀ t ∈ rule.spec.tenants, ∀ g ∈ rule.spec.groups, g ∈ s₀.ruler.groups t ∨
      AcceptedIn s₀.log t g ∨ (t = p.1 ∧ g = p.2.1) ∧ accepted (tick.posts p.1 p.2.1 0)) :
    Honoured tick s₀ (s.upload tick rules p) := by
  have posted := honoured.post p.1 p.2.1
  rw [upload_listed found]
  have earned : Earned (s.post (s.reply tick p.1 p.2.1) p.1 p.2.1).log s.ruler (renewed rule) := by
    intro t lists g member
    rcases settles t lists g member with held | earlier | here
    · rw [honoured.ruler]
      exact Or.inr held
    · exact Or.inl (posted.before t g earlier)
    · obtain ⟨⟨rfl, rfl⟩, first⟩ := here
      exact Or.inl (posted.posted p.1 p.2.1 (List.mem_append_right _ (by simp)) first)
  refine ⟨(honest_patched rfl).mpr ⟨posted.honest, earned⟩, posted.ruler, fun t g earlier => ?_,
    fun t g listed first => ?_⟩
  · exact acceptedIn_append.mpr (Or.inl (posted.before t g earlier))
  · exact acceptedIn_append.mpr (Or.inl (posted.posted t g listed first))

theorem Honoured.uploads (honoured : Honoured tick s₀ s) {l : List (String × GroupSpec × Int)}
    (settles : ∀ p ∈ l, ∃ rule, rules[p.2.2.toNat]? = some rule ∧
      ∀ t ∈ rule.spec.tenants, ∀ g ∈ rule.spec.groups, g ∈ s₀.ruler.groups t ∨
        AcceptedIn s₀.log t g ∨ (t = p.1 ∧ g = p.2.1) ∧ accepted (tick.posts p.1 p.2.1 0)) :
    Honoured tick s₀ (l.foldl (Trial.upload tick rules) s) := by
  apply List.foldlRecOn (motive := Honoured tick s₀) l _ honoured
  intro s' honoured' p member
  obtain ⟨rule, found, settles⟩ := settles p member
  exact honoured'.upload found settles

end

end Trial

theorem updater_honest (live : Live) (tick : Tick) {s : Trial} (honest : Honest s.log)
    (settles : tick.Settles s.log) :
    ∃ s', (Trial.setup live tick).updater tick.orders tick.skip (s.begin tick) = some ((), s') ∧
      Honest s'.log := by
  rcases Trial.updater_apply live tick tick.orders tick.skip (s.begin tick) with
    gaveUp | ⟨r, read, run⟩
  · exact ⟨_, gaveUp, honest⟩
  have start : Trial.Honoured tick (s.begin tick) (s.begin tick) :=
    ⟨honest, rfl, fun _ _ earlier => earlier, fun _ _ listed => absurd listed List.not_mem_nil⟩
  refine ⟨_, run, (start.uploads fun p update => ?_).honest⟩
  obtain ⟨t, g, k⟩ := p
  obtain ⟨i, rule, index, found, lists, member⟩ := exists_declaring (mem_flatten.mp update)
  have listed : rule ∈ tick.cluster.rules := List.mem_of_getElem? found
  have lacks : Lacks (tick.gets t) t g := by
    obtain ⟨-, order, shown⟩ := read t (mem_discoverTenantIds.mpr ⟨rule, listed, lists⟩)
    refine ⟨order, ?_⟩
    rw [← shown]
    exact (TickOrders.mem_updatesOf.mp update).2
  refine ⟨rule, by rw [show k = i from index]; exact found, fun t' lists' g' member' => ?_⟩
  exact settles (fun t asked => (read t asked).1) rule listed t lists g member lacks t' lists' g'
    member'

theorem status_honest (live : Live) (ticks : List Tick)
    (settles : ∀ front tick back, ticks = front ++ tick :: back →
      ∀ s, trialRun live front .start = some ((), s) → tick.Settles s.log) :
    ∃ s, trialRun live ticks .start = some ((), s) ∧ Honest s.log := by
  induction ticks using List.reverseRecOn with
  | nil =>
      refine ⟨.start, rfl, ?_⟩
      simp [Honest, Trial.start]
  | append_singleton front last ih =>
      obtain ⟨s, run, honest⟩ := ih fun front' tick back split =>
        settles front' tick (back ++ [last]) (by simp [split])
      obtain ⟨s', tick, honest'⟩ := updater_honest live last honest (settles front last [] rfl s run)
      refine ⟨s', ?_, honest'⟩
      rw [trialRun] at run
      rw [trialRun, Act.forM_append, run, Option.bind_some, Act.forM_cons, tick]
      rfl

def Tick.answering (cluster : Cluster) (ruler : RulerStore) (answer : WriteReply) : Tick where
  cluster := cluster
  ruler := ruler
  gets t := (Live.localhost id).rulerReply (ruler.groups t)
  posts _ _ _ := answer
  deletes _ _ := .response 202 (some "")
  orders := .sorted
  skip := true

theorem Tick.not_lacks_answering {cluster : Cluster} {ruler : RulerStore} {answer : WriteReply}
    {t : String} {g : GroupSpec} (holds : g ∈ ruler.groups t) :
    ¬ Lacks ((answering cluster ruler answer).gets t) t g := by
  intro lacks
  obtain ⟨order, differs⟩ := lacks
  have conclusive : Conclusive ((Live.localhost id).rulerReply (ruler.groups t)) _ :=
    Live.rulerReply_conclusive (ruler.groups t)
  have read := readReply_conclusive conclusive order t ∅
  have shown : groupsOf (readReply order t ((answering cluster ruler answer).gets t) ∅).1 t =
      ruler.groups t := Live.groupsOf_eq (by
    rw [show (answering cluster ruler answer).gets t =
      (Live.localhost id).rulerReply (ruler.groups t) from rfl, read, lookup_record,
      Finmap.lookup_empty, Option.or_none])
  rw [shown] at differs
  exact differs (RulerStore.find_of_mem holds)

theorem status_honest_two_ticks :
    let alerts := bareGroup "alerts"
    let disk := bareGroup "disk"
    let ticks : List Tick :=
      [.answering (.single "rules" ["a"] [alerts]) .empty (.response 202 (some "")),
        .answering (.single "rules" ["a"] [alerts, disk]) (.single "a" [alerts] (by decide))
          (.response 202 (some ""))]
    (∀ front tick back, ticks = front ++ tick :: back →
      ∀ s, trialRun (Live.localhost id) front .start = some ((), s) → tick.Settles s.log) ∧
    ∃ s, trialRun (Live.localhost id) ticks .start = some ((), s) ∧ Honest s.log ∧
      s.log.length = 4 := by
  intro alerts disk ticks
  have settles : ∀ tick ∈ ticks, ∀ log, tick.Settles log := by
    intro tick member log _ rule listed t lists g group lacks t' lists' g' group'
    rcases List.mem_pair.mp member with rfl | rfl
    · obtain rfl := List.mem_singleton.mp listed
      obtain rfl := List.mem_singleton.mp lists
      obtain rfl := List.mem_singleton.mp lists'
      obtain rfl := List.mem_singleton.mp group
      obtain rfl := List.mem_singleton.mp group'
      exact Or.inr (Or.inr ⟨⟨rfl, rfl⟩, rfl⟩)
    · obtain rfl := List.mem_singleton.mp listed
      obtain rfl := List.mem_singleton.mp lists
      obtain rfl := List.mem_singleton.mp lists'
      have held : alerts ∈ (RulerStore.single "a" [alerts] (by decide)).groups "a" := by decide
      rcases List.mem_pair.mp group with rfl | rfl
      · exact absurd lacks (Tick.not_lacks_answering held)
      · rcases List.mem_pair.mp group' with rfl | rfl
        · exact Or.inl held
        · exact Or.inr (Or.inr ⟨⟨rfl, rfl⟩, rfl⟩)
  have settlesIn : ∀ front tick back, ticks = front ++ tick :: back →
      ∀ s, trialRun (Live.localhost id) front .start = some ((), s) → tick.Settles s.log :=
    fun front tick back split s _ => settles tick (by simp [split]) s.log
  obtain ⟨s, run, honest⟩ := status_honest (Live.localhost id) ticks settlesIn
  have writes : (trialRun (Live.localhost id) ticks .start).map (fun r => r.2.log.length) =
      some 4 := by decide
  rw [run] at writes
  exact ⟨settlesIn, s, run, honest, Option.some.inj writes⟩

theorem status_set_after_refusal :
    ∃ s, trialRun (Live.localhost id) [.answering (.single "rules" ["a"] [bareGroup "g"]) .empty
        (.response 500 (some ""))] .start = some ((), s) ∧ ¬ Honest s.log := by
  refine ⟨_, rfl, fun honest => ?_⟩
  have earned := honest [.posted "a" (bareGroup "g") (.response 500 (some ""))] .empty
    (renewed (.new "rules" ⟨["a"], none, [bareGroup "g"]⟩)) [] rfl rfl "a" List.mem_cons_self
    (bareGroup "g") List.mem_cons_self
  simp [AcceptedIn, accepted, RulerStore.empty] at earned

end OpenMetrics.Informer
