import OpenMetrics.Proxy.Linear

namespace OpenMetrics.Proxy
open Library IngestionTenantController OpenMetricsProxyArgs

variable {κ : Type} {filters : Filters κ} {c : IngestionTenantController κ}
  {s : Sharing (Shared κ) Task}

theorem FitsCounter.append_left {initial found : Finset String} {polls more : List Poll}
    (fits : FitsCounter initial found (polls ++ more)) : FitsCounter initial found polls := by
  induction polls generalizing found with
  | nil => trivial
  | cons poll rest ih =>
      obtain ⟨answer, foundOrder, existing⟩ := poll
      cases answer with
      | error msg => exact ih fits
      | ok foundTenants => exact ⟨fits.1, ih fits.2⟩

theorem isSome_of_runPolls {polls : List Poll} {c c' : IngestionTenantController κ}
    (run : runPolls polls c = some c') (running : c.stopping = none) (polled : polls ≠ []) :
    c.k8sClient.isSome := by
  cases polls with
  | nil => exact absurd rfl polled
  | cons poll rest =>
      cases client : c.k8sClient with
      | some cli => rfl
      | none => simp [runPolls, runPoll, controllerIteration, running, client, Act.unwrap] at run

theorem runPoll_settings {poll : Poll} {c c' : IngestionTenantController κ}
    (run : runPoll c poll = some c') :
    c'.k8sClient = c.k8sClient ∧ c'.stopping = c.stopping := by
  rw [runPoll, controllerIteration] at run
  split_ifs at run with stopping
  · obtain rfl := Option.some.inj run
    exact ⟨rfl, rfl⟩
  · cases client : c.k8sClient with
    | none =>
        rw [client] at run
        cases run
    | some cli =>
        obtain ⟨answer, found, existing⟩ := poll
        cases answer with
        | error msg =>
            rw [client] at run
            obtain rfl := Option.some.inj run
            exact ⟨client, rfl⟩
        | ok foundTenants =>
            have edits := observe_edits found existing c foundTenants
            rw [client] at run
            obtain rfl := Option.some.inj run
            exact ⟨edits.k8sClient.trans client, edits.stopping⟩

theorem runPolls_append {polls more : List Poll} {c c' c'' : IngestionTenantController κ}
    (run : runPolls polls c = some c') (run' : runPolls more c' = some c'') :
    runPolls (polls ++ more) c = some c'' := by
  rw [runPolls] at run run' ⊢
  rw [List.foldlM_append, run]
  exact run'

theorem Started.settings {args : OpenMetricsProxyArgs} {order : HashOrder String}
    {variable_ : Option String} {connect : Option κ} {first : Option Poll}
    (started : Started args order variable_ connect first c) :
    c.k8sClient = args.k8sClient connect ∧ c.stopping = none := by
  obtain ⟨-, run⟩ := started
  have running := (startController_allows args order variable_ connect).running
  have client : (startController args order variable_ connect).k8sClient =
      args.k8sClient connect := by
    cases isClient : args.k8sClient connect with
    | none =>
        simp [startController, ← OpenMetricsProxyArgs.k8sClient.eq_1, isClient, new,
          setInitialAllowedTenants, setK8sPollDelay]
    | some cli => simp [startController, ← OpenMetricsProxyArgs.k8sClient.eq_1, isClient]
  cases first with
  | none =>
      obtain rfl := Option.some.inj run
      exact ⟨client, running⟩
  | some poll =>
      have ran : runPoll (startController args order variable_ connect) poll = some c := by
        simpa [runPolls] using run
      obtain ⟨sameClient, sameStopping⟩ := runPoll_settings ran
      exact ⟨sameClient.trans client, sameStopping.trans running⟩

theorem forwarded_writeRequests (order : HashOrder String)
    (tenantLabels allow replicateTo : List String) (doesAllowList : Bool)
    (writeRequest : WriteRequest) (t : String) :
    forwarded (writeRequests order tenantLabels allow doesAllowList replicateTo writeRequest) t =
      forwarded (aggregate tenantLabels allow doesAllowList replicateTo
        writeRequest.timeseries ∅) t := by
  rw [forwarded, forwarded, writeRequests, appendMetadata_lookup, Option.map_map]
  rfl

theorem RoutesAllowed.writeRequests {args : OpenMetricsProxyArgs} {tenantLabels : List String}
    {found : Finset String} {writeRequest : WriteRequest}
    (allowed : RoutesAllowed args tenantLabels found writeRequest.timeseries
      (requests args tenantLabels c writeRequest.timeseries)) (order : HashOrder String) :
    RoutesAllowed args tenantLabels found writeRequest.timeseries
      (writeRequests order tenantLabels c.getTenants args.usesAllowListing args.replicateTo
        writeRequest) := by
  intro t
  obtain ⟨reaches, justified⟩ := allowed t
  have same := forwarded_writeRequests order tenantLabels c.getTenants args.replicateTo
    args.usesAllowListing writeRequest t
  refine ⟨fun s => ?_, fun entry => justified ?_⟩
  · rw [← mem_forwarded, same, mem_forwarded]
    exact reaches s
  · rw [← Finmap.lookup_isSome, Proxy.writeRequests, appendMetadata_lookup, Option.isSome_map,
      Finmap.lookup_isSome] at entry
    exact entry

theorem Fine.viewed {h : Handler} {handled : Handled} (handles : h.Handles handled)
    (fine : Fine filters c (s.object.controller, s.object.polls) (.handler h)) :
    Viewed filters c s.object.polls handled := by
  cases h with
  | waiting payload since => exact handles.elim
  | entered payload since => exact handles.elim
  | gone left => cases left with
      | none => exact handles.elim
      | some handled' =>
          obtain rfl := handles
          exact fine
  | counting handled' todo =>
      obtain rfl := handles
      exact fine.1
  | sending handled' pool =>
      obtain rfl := handles
      exact fine.1
  | replied handled' reply =>
      obtain rfl := handles
      exact fine.1

theorem served_allowed (args : OpenMetricsProxyArgs) (maxParallelRequestPerLoad : UInt16)
    (order : HashOrder String) (variable_ : Option String) (connect : Option κ)
    (first : Option Poll) (started : Started args order variable_ connect first c)
    (reaches : Reaches (args.filters maxParallelRequestPerLoad connect) c s)
    (fits : FitsCounter (args.replicateTo ++ args.allowedTenants).toFinset ∅
      (first.toList ++ s.object.polls))
    {h : Handler} {handled : Handled} (member : .handler h ∈ s.tasks) (handles : h.Handles handled)
    {writeRequest : WriteRequest} (payload : handled.payload = .ok writeRequest) :
    handled.since ≤ handled.seen ∧ handled.seen ≤ s.object.polls.length ∧
      RoutesAllowed args args.tenantLabels
        (lastFound ∅ (first.toList ++ s.object.polls.take handled.seen))
        writeRequest.timeseries handled.requests := by
  obtain ⟨client, running⟩ := started.settings
  have viewed := Fine.viewed handles ((reaches.fine client running).2 _ member)
  obtain ⟨seen, run, built⟩ := viewed.built
  refine ⟨viewed.since_le, viewed.seen_le, ?_⟩
  have start := startController_allows args order variable_ connect
  have ran := runPolls_append started.2 run
  have before : FitsCounter (args.replicateTo ++ args.allowedTenants).toFinset ∅
      (first.toList ++ s.object.polls.take handled.seen) := by
    rw [← s.object.polls.take_append_drop handled.seen, ← List.append_assoc] at fits
    exact fits.append_left
  obtain ⟨c', ran', allows⟩ := runPolls_allows _ start (isSome_of_runPolls ran start.running) before
  obtain rfl := Option.some.inj (ran'.symm.trans ran)
  rw [built (.sorted String), payload]
  exact (routesAllowed_of_allows args.tenantLabels allows writeRequest.timeseries).writeRequests _

theorem served_allowed_one :
    let args : OpenMetricsProxyArgs := { kubernetesPollIntervalSeconds := 120 }
    let order := HashOrder.sorted String
    let writeRequest : WriteRequest := ⟨[⟨[⟨"tenant_id", "a"⟩], []⟩], []⟩
    ∃ c s, ∃ handled : Handled,
      Started args order none (some ()) (some ⟨.ok {"a"}, order, order⟩) c ∧
      Reaches (args.filters 64 (some ())) c s ∧ handled.payload = .ok writeRequest ∧
      RoutesAllowed args args.tenantLabels {"a"} writeRequest.timeseries handled.requests := by
  intro args order writeRequest
  obtain ⟨c, run⟩ : ∃ c, runPolls [⟨.ok {"a"}, order, order⟩]
      (startController args order none (some ())) = some c := ⟨_, rfl⟩
  have started : Started args order none (some ()) (some ⟨.ok {"a"}, order, order⟩) c := ⟨rfl, run⟩
  obtain ⟨s, handled, todo, reaches, polls, task, payload, -⟩ :=
    exists_counting (args.filters 64 (some ())) c writeRequest
  have fits : FitsCounter (args.replicateTo ++ args.allowedTenants).toFinset ∅
      ((some ⟨.ok {"a"}, order, order⟩).toList ++ s.object.polls) := by
    rw [polls]
    exact ⟨by decide, trivial⟩
  obtain ⟨-, -, allowed⟩ := served_allowed args 64 order none (some ()) _ started reaches fits
    (List.mem_of_getElem? task) rfl payload
  rw [polls, List.take_nil] at allowed
  exact ⟨c, s, handled, started, reaches, payload, allowed⟩

def Increment.totalRequestsOf (t : String) : Increment → UInt64
  | .totalRequests tenantId => if tenantId = t then 1 else 0
  | .numSeries _ _ => 0

def Increment.numSeriesOf (t : String) : Increment → UInt64
  | .totalRequests _ => 0
  | .numSeries tenantId series => if tenantId = t then UInt64.ofNat series else 0

structure Counts (counter : Statistics → UInt64) (amount : Increment → UInt64)
    (whole : TenantData → UInt64) : Prop where
  add : ∀ stats increment, counter (stats.add increment) = counter stats + amount increment
  sum : ∀ order requests, ((increments order requests).map amount).sum = whole requests

theorem sum_increments (amount : Increment → UInt64) (order : HashOrder String)
    (requests : TenantData) :
    ((increments order requests).map amount).sum =
      ((order.iter requests).map fun entry => amount (.totalRequests entry.1) +
        amount (.numSeries entry.1 entry.2.timeseries.length)).sum := by
  rw [increments]
  induction order.iter requests with
  | nil => rfl
  | cons entry rest ih => simp [ih, add_assoc]

theorem totalRequests_counts (t : String) :
    Counts (fun stats => stats.totalRequests t) (Increment.totalRequestsOf t)
      (fun requests => if t ∈ requests then 1 else 0) where
  add stats increment := by
    cases increment with
    | totalRequests tenantId =>
        by_cases same : tenantId = t
        · subst same
          simp [Statistics.add, Increment.totalRequestsOf]
        · simp [Statistics.add, Increment.totalRequestsOf, same,
            Function.update_of_ne (Ne.symm same)]
    | numSeries tenantId series => exact (add_zero _).symm
  sum order requests := by
    have counted := order.sum_iter requests t fun _ => (1 : UInt64)
    rw [sum_increments]
    simp only [Increment.totalRequestsOf, add_zero]
    rw [counted]
    cases found : requests.lookup t with
    | none => rw [if_neg (Finmap.lookup_eq_none.mp found), Option.elim_none]
    | some request => rw [if_pos (Finmap.mem_of_lookup_eq_some found), Option.elim_some]

theorem numSeries_counts (t : String) :
    Counts (fun stats => stats.numSeries t) (Increment.numSeriesOf t)
      (fun requests => UInt64.ofNat (forwarded requests t).length) where
  add stats increment := by
    cases increment with
    | totalRequests tenantId => exact (add_zero _).symm
    | numSeries tenantId series =>
        by_cases same : tenantId = t
        · subst same
          simp [Statistics.add, Increment.numSeriesOf]
        · simp [Statistics.add, Increment.numSeriesOf, same, Function.update_of_ne (Ne.symm same)]
  sum order requests := by
    have counted := order.sum_iter requests t fun request => UInt64.ofNat request.timeseries.length
    rw [sum_increments]
    simp only [Increment.numSeriesOf, zero_add]
    rw [counted, forwarded]
    cases requests.lookup t <;> rfl

def Task.pending : Task → List Increment
  | .handler (.counting _ todo) => todo
  | .handler _ | .worker _ => []

def Task.handled : Task → Option Handled
  | .handler (.counting handled _) | .handler (.sending handled _)
  | .handler (.replied handled _) => some handled
  | .handler (.gone left) => left
  | .handler (.waiting _ _) | .handler (.entered _ _) | .worker _ => none

def Task.added (amount : Increment → UInt64) (whole : TenantData → UInt64) (p : Task) : UInt64 :=
  (p.handled.elim 0 fun handled => whole handled.requests) - (p.pending.map amount).sum

section
variable {counter : Statistics → UInt64} {amount : Increment → UInt64} {whole : TenantData → UInt64}

theorem Counts.counted (counts : Counts counter amount whole) :
    (protocol filters).Counted (fun a => counter a.stats) (Task.added amount whole) where
  arrives new := by
    cases new
    exact sub_zero 0
  enters {p} waits := by
    cases p with
    | handler h =>
        cases h with
        | waiting payload since => rfl
        | _ => cases waits
    | worker w => rfl
  acts {a p a' p'} step := by
    cases step with
    | worker step =>
        have same : a'.stats = a.stats := by cases step <;> rfl
        rw [same, sub_self]
        exact (sub_self _).symm
    | handler step =>
        cases step with
        | refuse e since =>
            have none : whole ∅ = 0 := by
              rw [← counts.sum (.sorted String), sum_increments]
              rfl
            simp [Task.added, Task.handled, Task.pending, none]
        | aggregate order values writeRequest since a requests built =>
            simp [Task.added, Task.handled, Task.pending, counts.sum]
        | count handled first rest =>
            simp only [counts.add, Task.added, Task.handled, Task.pending, List.map_cons,
              List.sum_cons, add_sub_cancel_left, sub_sub_sub_cancel_left]
            exact (add_sub_cancel_right _ _).symm
        | _ => simp [Task.added, Task.handled, Task.pending]
  leaves leaves := by
    cases leaves with
    | handler leaves => cases leaves <;> rfl

theorem Counts.reached (counts : Counts counter amount whole)
    (zero : counter ⟨fun _ => 0, fun _ => 0⟩ = 0) (reaches : Reaches filters c s) :
    counter s.object.stats + ((s.tasks.flatMap Task.pending).map amount).sum =
      ((s.tasks.filterMap Task.handled).map fun handled => whole handled.requests).sum := by
  obtain ⟨n, run⟩ := reaches
  have start : counter (serviceStart c).object.stats =
      ((serviceStart c).tasks.map (Task.added amount whole)).sum := by
    simp [serviceStart, zero, Task.added, Task.handled, Task.pending]
  have value := counts.counted.run run start
  have tasks : ∀ tasks : List Task, (tasks.map (Task.added amount whole)).sum +
      ((tasks.flatMap Task.pending).map amount).sum =
        ((tasks.filterMap Task.handled).map fun handled => whole handled.requests).sum := by
    intro tasks
    induction tasks with
    | nil => rfl
    | cons p rest ih =>
        rw [List.map_cons, List.sum_cons, List.flatMap_cons, List.map_append, List.sum_append,
          Task.added, add_add_add_comm, ih, sub_add_cancel, List.filterMap_cons]
        cases p.handled <;> simp
  exact (congrArg (· + _) value).trans (tasks s.tasks)

end

theorem statistics_exact (reaches : Reaches filters c s) (t : String) :
    s.object.stats.totalRequests t +
        ((s.tasks.flatMap Task.pending).map (Increment.totalRequestsOf t)).sum =
      UInt64.ofNat ((s.tasks.filterMap Task.handled).countP fun handled => t ∈ handled.requests) ∧
    s.object.stats.numSeries t +
        ((s.tasks.flatMap Task.pending).map (Increment.numSeriesOf t)).sum =
      UInt64.ofNat ((s.tasks.filterMap Task.handled).map fun handled =>
        (forwarded handled.requests t).length).sum := by
  constructor
  · rw [(totalRequests_counts t).reached rfl reaches]
    induction s.tasks.filterMap Task.handled with
    | nil => rfl
    | cons handled rest ih =>
        rw [List.map_cons, List.sum_cons, ih, List.countP_cons]
        by_cases listed : t ∈ handled.requests
        · simp [listed, UInt64.ofNat_add, add_comm]
        · simp [listed]
  · rw [(numSeries_counts t).reached rfl reaches]
    induction s.tasks.filterMap Task.handled with
    | nil => rfl
    | cons handled rest ih =>
        rw [List.map_cons, List.sum_cons, ih, ← UInt64.ofNat_add]
        rfl

theorem statistics_exact_observed_between :
    let filters : Filters Unit := ⟨["tenant_id"], true, ["0"], 64, some ()⟩
    let c : IngestionTenantController Unit := (new none).initK8s (some ())
    ∃ s, ∃ handled : Handled, ∃ todo, Reaches filters c s ∧
      s.tasks[1]? = some (.handler (.counting handled todo)) ∧ todo.length = 1 ∧
      handled.since = 0 ∧ handled.seen = 1 ∧ "a" ∈ handled.requests ∧
      s.object.stats.totalRequests "a" +
          ((s.tasks.flatMap Task.pending).map (Increment.totalRequestsOf "a")).sum =
        UInt64.ofNat ((s.tasks.filterMap Task.handled).countP fun handled =>
          "a" ∈ handled.requests) ∧
      s.object.stats.numSeries "a" +
          ((s.tasks.flatMap Task.pending).map (Increment.numSeriesOf "a")).sum =
        UInt64.ofNat ((s.tasks.filterMap Task.handled).map fun handled =>
          (forwarded handled.requests "a").length).sum := by
  intro filters c
  obtain ⟨s, handled, reaches, -, task, -, since, seen, built⟩ :=
    exists_observed filters c rfl rfl rfl {"a"} (.sorted String)
      ⟨[⟨[⟨"tenant_id", "a"⟩], []⟩], []⟩
  have jobs : (HashOrder.sorted String).iter handled.requests =
      [("0", ⟨[⟨[⟨"tenant_id", "a"⟩], []⟩], []⟩), ("a", ⟨[⟨[⟨"tenant_id", "a"⟩], []⟩], []⟩)] := by
    rw [built]
    decide
  have todo : increments (.sorted String) handled.requests =
      [.totalRequests "0", .numSeries "0" 1, .totalRequests "a", .numSeries "a" 1] := by
    rw [increments, jobs]
    rfl
  have entry : "a" ∈ handled.requests := by
    rw [built]
    decide
  rw [todo] at task
  obtain ⟨s₁, reaches₁, -, task₁⟩ := reaches.handler_step task (.count ..)
  obtain ⟨s₂, reaches₂, -, task₂⟩ := reaches₁.handler_step task₁ (.count ..)
  obtain ⟨s₃, reaches₃, -, task₃⟩ := reaches₂.handler_step task₂ (.count ..)
  exact ⟨s₃, handled, _, reaches₃, task₃, rfl, since, seen, entry, statistics_exact reaches₃ "a"⟩

end OpenMetrics.Proxy
