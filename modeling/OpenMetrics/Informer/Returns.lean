import OpenMetrics.Informer.Reconcile
import OpenMetrics.Informer.Uploads

namespace OpenMetrics.Informer
open Library KubeLib

variable {σ : Type}

def Named (rules : List OpenMetricsRule) : Prop := ∀ rule ∈ rules, (nameOf rule).isSome

def Nearer (fuel : Nat) (remaining : String → Nat) (token : Option String) (t : String) : Prop :=
  match token with
  | none => remaining t < fuel
  | some t' => remaining t < remaining t'

structure Paged (client : KubeClient σ) (fuel : Nat) (remaining : String → Nat) : Prop where
  answers : ∀ ns token, Act.Returns (client.list ns token)
  pages : ∀ ns token, Act.Gives (fun answer => ∀ page, answer = .ok page → Named page.items ∧
    ∀ t, page.continue_ = some t → Nearer fuel remaining token t) (client.list ns token)

structure Setup.Serves (i : Setup σ) : Prop extends i.Answers where
  get : ∀ url t, Act.Returns (i.rulerClient.get url t)
  stats : ∀ url, Act.Returns (i.distributorClient.get url)
  deleteResource : ∀ ns name, Act.Returns (i.k8sClient.delete ns name)
  paged : ∃ remaining, Paged i.k8sClient i.fuel remaining

section
variable {client : KubeClient σ} {fuel : Nat} {remaining : String → Nat}
  (paged : Paged client fuel remaining)
include paged

theorem Paged.refresh_returns (token : Option String) (ns : String) :
    Act.Returns (refreshOpenMetricsRules client token ns) := by
  refine Act.returns_bind (paged.answers ns token) fun answer => ?_
  cases answer <;> exact fun _ => rfl

theorem Paged.refresh_gives (token : Option String) (ns : String) :
    Act.Gives (fun portion => Named portion.2.1 ∧
      ∀ t, portion.2.2 = some t → Nearer fuel remaining token t)
      (refreshOpenMetricsRules client token ns) := by
  refine Act.gives_bind (paged.pages ns token) fun answer given => ?_
  cases answer with
  | ok page => exact Act.gives_pure (given page rfl)
  | error e => exact Act.gives_pure ⟨fun _ member => absurd member List.not_mem_nil, nofun⟩

theorem Paged.retrieveRest_returns (ns : String) (rounds : Nat) (token : String)
    (enough : remaining token < rounds) (found : List OpenMetricsRule) :
    Act.Returns (retrieveRest client ns rounds token found) := by
  induction rounds generalizing token found with
  | zero => exact absurd enough (Nat.not_lt_zero _)
  | succ rounds ih =>
      refine (paged.refresh_returns (some token) ns).bind_gives
        (paged.refresh_gives (some token) ns) fun portion given => ?_
      obtain ⟨acquired, rules, next⟩ := portion
      cases next with
      | none => exact fun _ => rfl
      | some t =>
          have fewer : remaining t < remaining token := given.2 t rfl
          exact ih t (by omega) _

theorem Paged.retrieveRest_gives (ns : String) (rounds : Nat) (token : String)
    {found : List OpenMetricsRule} (named : Named found) :
    Act.Gives Named (retrieveRest client ns rounds token found) := by
  induction rounds generalizing token found with
  | zero => exact fun _ _ run => absurd run.symm (Option.some_ne_none _)
  | succ rounds ih =>
      refine Act.gives_bind (paged.refresh_gives (some token) ns) fun portion given => ?_
      obtain ⟨acquired, rules, next⟩ := portion
      have both : Named (found ++ rules) := fun rule member =>
        (List.mem_append.mp member).elim (named rule) (given.1 rule)
      cases next with
      | none => exact Act.gives_pure both
      | some t => exact ih t both

theorem Paged.discover_returns (ns : String) :
    Act.Returns (discoverOpenMetricsRules client ns fuel) := by
  rw [discover_eq]
  refine (paged.refresh_returns none ns).bind_gives (paged.refresh_gives none ns)
    fun portion given => ?_
  refine Act.returns_bind ?_ fun found _ => rfl
  obtain ⟨tenantsAcquired, rules, next⟩ := portion
  cases next with
  | none => exact fun _ => rfl
  | some token =>
      simp only [retrieve]
      split_ifs
      · exact paged.retrieveRest_returns ns fuel token (given.2 token rfl) rules
      · exact fun _ => rfl

theorem Paged.discover_gives (ns : String) :
    Act.Gives (fun answer => ∀ rules, answer = .ok rules → Named rules)
      (discoverOpenMetricsRules client ns fuel) := by
  rw [discover_eq]
  refine Act.gives_bind (paged.refresh_gives none ns) fun portion given => ?_
  have named : Act.Gives Named (retrieve client ns fuel portion.2.1 portion.2.2) := by
    cases portion.2.2 with
    | none => exact Act.gives_pure given.1
    | some token =>
        rw [retrieve]
        split_ifs
        · exact paged.retrieveRest_gives ns fuel token given.1
        · exact Act.gives_pure given.1
  refine Act.gives_bind named fun found named => Act.gives_pure fun rules ok => ?_
  exact acquired_eq_ok ok ▸ named

end

namespace Setup.Serves

variable {i : Setup σ} (serves : i.Serves)
include serves

theorem discover_bind {β : Type} {f : Except String (List OpenMetricsRule) → Act σ β}
    (rest : ∀ answer, (∀ rules, answer = .ok rules → Named rules) → Act.Returns (f answer)) :
    Act.Returns (discoverOpenMetricsRules i.k8sClient i.namespace_ i.fuel >>= f) := by
  obtain ⟨remaining, paged⟩ := serves.paged
  exact (paged.discover_returns i.namespace_).bind_gives (paged.discover_gives i.namespace_) rest

theorem discoverRulerRules_returns (namespaces : Nat → HashOrder String) (tenants : List String) :
    Act.Returns
      (discoverRulerRules namespaces tenants i.rulerClient i.rulerApiUrl i.namespace_) := by
  have loop (url : String) (result : TenantGroups) :
      Act.Returns (discoverLoop i.rulerClient url namespaces tenants result) := by
    induction tenants generalizing result with
    | nil => exact fun _ => rfl
    | cons tenantId rest ih =>
        refine Act.returns_bind (serves.get url tenantId) fun reply => ?_
        generalize readReply (namespaces rest.length) tenantId reply result = outcome
        obtain ⟨result', failed⟩ := outcome
        cases failed with
        | true => exact fun _ => rfl
        | false => exact ih result'
  refine Act.returns_bind (loop _ ∅) fun outcome => ?_
  obtain ⟨r, failed⟩ := outcome
  cases failed <;> exact fun _ => rfl

theorem resourceUpdated_returns (ns name : String) (rule : OpenMetricsRule) :
    Act.Returns (resourceUpdated i.k8sClient ns name rule) :=
  Act.returns_bind (serves.patch ns name (renewed rule)) fun _ _ => rfl

theorem createOrUpdate_returns (t : String) (g : GroupSpec) : Act.Returns
    (createOrUpdateK8sResource i.k8sClient i.fuel i.sha1 t i.namespace_ g) := by
  refine serves.discover_bind fun answer named => ?_
  cases answer with
  | error e => exact fun _ => rfl
  | ok rules =>
      simp only [searchGroup_eq]
      cases found : firstHolder t g.name rules with
      | none => exact serves.resourceUpdated_returns _ _ _
      | some rule =>
          obtain ⟨name, isSome⟩ :=
            Option.isSome_iff_exists.mp (named rules rfl rule (firstHolder_mem found))
          have unwrapped : rule.metadata.name = some name := isSome
          simp only [Option.map_some, unwrapped, Act.unwrap_some, pure_bind]
          exact serves.resourceUpdated_returns _ _ _

theorem remove_returns (t : String) (g : GroupSpec) : Act.Returns
    (removeK8sResource i.k8sClient i.fuel t i.namespace_ g) := by
  refine serves.discover_bind fun answer named => ?_
  cases answer with
  | error e => exact fun _ => rfl
  | ok rules =>
      simp only [searchGroup_eq]
      cases found : firstHolder t g.name rules with
      | none => exact fun _ => rfl
      | some rule =>
          obtain ⟨name, isSome⟩ :=
            Option.isSome_iff_exists.mp (named rules rfl rule (firstHolder_mem found))
          have unwrapped : rule.metadata.name = some name := isSome
          simp only [Option.map_some, unwrapped, Act.unwrap_some, pure_bind]
          split_ifs
          · exact Act.returns_bind (serves.deleteResource i.namespace_ name) fun _ _ => rfl
          · exact serves.resourceUpdated_returns _ _ _

theorem tracker_returns (o : TickOrders) : Act.Returns (i.tracker o) := by
  have read : Act.Returns (i.readRuler o) := by
    refine Act.returns_bind ?_ fun tenants => ?_
    · exact Act.returns_bind (serves.stats _) fun _ _ => rfl
    · cases tenants with
      | error e => exact fun _ => rfl
      | ok tenants => exact serves.discoverRulerRules_returns o.namespaces tenants
  refine Act.returns_bind read fun answer => ?_
  cases answer with
  | error e => exact fun _ => rfl
  | ok r =>
      refine serves.discover_bind fun listed _ => ?_
      cases listed with
      | error e => exact fun _ => rfl
      | ok rules =>
          refine Act.returns_bind ?_ fun _ => ?_
          · exact Act.returns_forM fun entry _ => Act.returns_forM fun e _ =>
              serves.createOrUpdate_returns entry.1 e.1
          · exact Act.returns_forM fun entry _ => Act.returns_forM fun e _ =>
              serves.remove_returns entry.1 e.1

theorem updater_returns (o : TickOrders) (skip : Bool) : Act.Returns (i.updater o skip) := by
  refine serves.discover_bind fun listed named => ?_
  cases listed with
  | error e => exact fun _ => rfl
  | ok rules =>
      refine Act.returns_bind (serves.discoverRulerRules_returns o.namespaces _) fun answer => ?_
      cases answer with
      | error e => exact fun _ => rfl
      | ok r => exact Setup.syncToRuler_returns serves.toAnswers (named rules rfl) skip

end Setup.Serves

theorem rounds_return (i : Setup σ) (serves : i.Serves) (skip : Bool) (rounds : List Round)
    (s : σ) : (rounds.forM (i.round skip) s).isSome := by
  have returns : Act.Returns (rounds.forM (i.round skip)) := by
    refine Act.returns_forM fun round _ => ?_
    cases round with
    | tracker o => exact serves.tracker_returns o
    | updater o => exact serves.updater_returns o skip
  exact returns s

theorem Live.setup_serves (live : Live) (userIds : List String) : (live.setup userIds).Serves where
  post _ _ _ _ := rfl
  deleteGroup _ _ _ := rfl
  patch _ _ _ _ := rfl
  get _ _ _ := rfl
  stats _ _ := rfl
  deleteResource _ _ _ := rfl
  paged := by
    refine ⟨fun _ => 0, fun _ _ _ => rfl, fun ns token w r run page same => ?_⟩
    obtain rfl := Option.some.inj run
    obtain rfl := Except.ok.inj same
    exact ⟨w.cluster.named, nofun⟩

theorem rounds_return_live :
    let i := (Live.localhost fun _ => "digest").setup ["a"]
    let w : World := { cluster := .empty, ruler := (oneTenant "a").ruler, log := [] }
    ([Round.tracker .sorted, Round.updater .sorted].forM (i.round true) w).isSome := by
  intro i w
  exact rounds_return i (Live.setup_serves _ _) true [.tracker .sorted, .updater .sorted] w

end OpenMetrics.Informer
