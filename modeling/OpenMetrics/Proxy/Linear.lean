import OpenMetrics.Proxy.Liveness

namespace OpenMetrics.Proxy
open Library IngestionTenantController

variable {κ : Type} {filters : Filters κ} {c : IngestionTenantController κ}
  {s s' : Sharing (Shared κ) Task}

def requestsOf (order : HashOrder String) (filters : Filters κ) (c : IngestionTenantController κ) :
    Except String WriteRequest → TenantData
  | .error _ => ∅
  | .ok writeRequest => writeRequests order filters.tenantLabels c.getTenants
      filters.usesAllowListing filters.replicateTo writeRequest

theorem writeRequests_order (order order' : HashOrder String) (tenantLabels allow : List String)
    (doesAllowList : Bool) (replicateTo : List String) (writeRequest : WriteRequest) :
    writeRequests order tenantLabels allow doesAllowList replicateTo writeRequest =
      writeRequests order' tenantLabels allow doesAllowList replicateTo writeRequest := by
  apply Finmap.ext_lookup
  intro t
  rw [writeRequests, writeRequests, appendMetadata_lookup, appendMetadata_lookup]

/-- The requests to the upstream were built from the vector after the first `seen` observations. -/
structure Viewed (filters : Filters κ) (c : IngestionTenantController κ) (polls : List Poll)
    (handled : Handled) : Prop where
  since_le : handled.since ≤ handled.seen
  seen_le : handled.seen ≤ polls.length
  built : ∃ seen, runPolls (polls.take handled.seen) c = some seen ∧
    ∀ order, handled.requests = requestsOf order filters seen handled.payload

def Answered (handled : Handled) (reply : Reply) : Prop :=
  match handled.payload with
  | .error e => reply = { body := e, status := 400 }
  | .ok _ => ∃ results : List ((String × WriteRequest) × UpstreamResult),
      (∀ order : HashOrder String,
        (results.map Prod.fst).Perm (order.iter handled.requests)) ∧
      reply = replyTo (results.map Prod.snd)

structure Sent (handled : Handled)
    (pool : Pool (String × WriteRequest) UpstreamResult) : Prop where
  decoded : ∃ writeRequest, handled.payload = .ok writeRequest
  jobs : ∀ order : HashOrder String, pool.jobs.Perm (order.iter handled.requests)

def Fine (filters : Filters κ) (c : IngestionTenantController κ)
    (g : IngestionTenantController κ × List Poll) : Task → Prop
  | .handler (.waiting _ since) | .handler (.entered _ since) => since ≤ g.2.length
  | .handler (.counting handled _) =>
      Viewed filters c g.2 handled ∧ handled.seen = g.2.length ∧
        ∃ writeRequest, handled.payload = .ok writeRequest
  | .handler (.sending handled pool) =>
      Viewed filters c g.2 handled ∧ handled.seen = g.2.length ∧ Sent handled pool
  | .handler (.replied handled reply) =>
      Viewed filters c g.2 handled ∧ Answered handled reply ∧
        (filters.parallelRequestPerLoad = 0 → ∃ e, handled.payload = .error e)
  | .handler (.gone none) => True
  | .handler (.gone (some handled)) => Viewed filters c g.2 handled
  | .worker w => match w with
      | .leaving | .cleaning => False
      | .sleeping | .polling | .asking | .found _ | .observing _ => filters.k8sClient.isSome
      | .spawned | .starting | .initialising | .checking | .checked => True
      | .ended => filters.k8sClient = none

structure Good (filters : Filters κ) (c : IngestionTenantController κ)
    (g : IngestionTenantController κ × List Poll) : Prop where
  observed : runPolls g.2 c = some g.1
  client : g.1.k8sClient = filters.k8sClient
  running : g.1.stopping = none

theorem Viewed.append {polls : List Poll} {handled : Handled}
    (viewed : Viewed filters c polls handled) (more : List Poll) :
    Viewed filters c (polls ++ more) handled where
  since_le := viewed.since_le
  seen_le := viewed.seen_le.trans (by simp)
  built := by
    obtain ⟨seen, run, requests⟩ := viewed.built
    exact ⟨seen, by rwa [List.take_append_of_le_length viewed.seen_le], requests⟩

theorem Good.observe {g : IngestionTenantController κ × List Poll} (good : Good filters c g)
    (client : filters.k8sClient.isSome) (found existing : HashOrder String)
    (tenants : Finset String) :
    Good filters c
      (g.1.observe found existing tenants, g.2 ++ [⟨.ok tenants, found, existing⟩]) := by
  have edits := observe_edits found existing g.1 tenants
  obtain ⟨cli, isClient⟩ := Option.isSome_iff_exists.mp client
  refine ⟨?_, edits.k8sClient.trans good.client, edits.stopping.trans good.running⟩
  have observed := good.observed
  have named : g.1.k8sClient = some cli := good.client.trans isClient
  rw [runPolls] at observed ⊢
  rw [List.foldlM_append, observed]
  simp [runPoll, controllerIteration, good.running, named]

theorem Sent.start {handled : Handled}
    (decoded : ∃ writeRequest, handled.payload = .ok writeRequest) (order : HashOrder String) :
    Sent handled (Pool.start (order.iter handled.requests)) where
  decoded := decoded
  jobs order' := by
    rw [Pool.jobs_start]
    exact order.iter_perm order' handled.requests

theorem Sent.step {handled : Handled} {pool pool' : Pool (String × WriteRequest) UpstreamResult}
    {limit : Nat} (sent : Sent handled pool) (moved : pool.Step limit pool') :
    Sent handled pool' where
  decoded := sent.decoded
  jobs order := moved.jobs_perm.trans (sent.jobs order)

theorem Sent.answered {handled : Handled} {pool : Pool (String × WriteRequest) UpstreamResult}
    (sent : Sent handled pool) (done : pool.Done) :
    Answered handled (replyTo (pool.finished.map Prod.snd)) := by
  have jobs := sent.jobs
  rw [done.jobs_eq] at jobs
  obtain ⟨writeRequest, decoded⟩ := sent.decoded
  rw [Answered, decoded]
  exact ⟨pool.finished, jobs, rfl⟩

theorem Handler.Step.fine {h h' : Handler} {a a' : Shared κ} (step : h.Step filters a h' a')
    (good : Good filters c (a.controller, a.polls))
    (fine : Fine filters c (a.controller, a.polls) (.handler h)) :
    Fine filters c (a'.controller, a'.polls) (.handler h') := by
  have now : runPolls (a.polls.take a.polls.length) c = some a.controller := by
    rw [List.take_length]
    exact good.observed
  cases step with
  | refuse e since =>
      exact ⟨⟨fine, le_rfl, a.controller, now, fun _ => rfl⟩, rfl, fun _ => ⟨e, rfl⟩⟩
  | aggregate order values writeRequest since a requests built =>
      refine ⟨⟨fine, le_rfl, a.controller, now, fun order' => ?_⟩, rfl, writeRequest, rfl⟩
      rw [← built]
      exact writeRequests_order ..
  | count handled first rest => exact fine
  | send order handled => exact ⟨fine.1, fine.2.1, .start fine.2.2 order⟩
  | upstream handled pool pool' a moved => exact ⟨fine.1, fine.2.1, fine.2.2.step moved⟩
  | reply handled pool a room done =>
      refine ⟨fine.1, fine.2.2.answered done, fun zero => ?_⟩
      rw [zero] at room
      exact absurd room (by decide)

theorem Worker.Step.fine {w w' : Worker} {a a' : Shared κ} (step : w.Step filters a w' a')
    (good : Good filters c (a.controller, a.polls))
    (fine : Fine filters c (a.controller, a.polls) (.worker w)) :
    Good filters c (a'.controller, a'.polls) ∧
      Fine filters c (a'.controller, a'.polls) (.worker w') := by
  cases step with
  | start => exact ⟨good, trivial⟩
  | initialise =>
      refine ⟨?_, trivial⟩
      have same : a.controller.initK8s filters.k8sClient = a.controller := by
        unfold initK8s
        split_ifs
        · rw [← good.client]
        · rfl
      rw [same]
      exact good
  | check =>
      refine ⟨good, ?_⟩
      have client : a.controller.k8sClient = filters.k8sClient := good.client
      split_ifs with isSome
      · rw [client] at isSome
        exact isSome
      · exact client.symm.trans (Option.not_isSome_iff_eq_none.mp isSome)
  | wake => exact ⟨good, fine⟩
  | stop a stopping =>
      have running : a.controller.stopping = none := good.running
      rw [running] at stopping
      cases stopping
  | panic a running client => exact ⟨good, good.client.symm.trans client⟩
  | list a running client tenants => exact ⟨good, fine⟩
  | fail a running client => exact ⟨good, fine⟩
  | observe a tenants found existing => exact ⟨good.observe fine found existing tenants, fine⟩
  | clean => exact fine.elim

theorem Task.Step.others {p p' q : Task} {a a' : Shared κ} (step : p.Step filters a p' a')
    (own : Fine filters c (a.controller, a.polls) p) (writes : p.holds = some .write)
    (free : q.holds = none) (fine : Fine filters c (a.controller, a.polls) q) :
    Fine filters c (a'.controller, a'.polls) q := by
  cases step with
  | handler step =>
      have reads := step.holds_eq.1.symm.trans writes
      cases reads
  | worker step =>
      cases step with
      | observe a tenants found existing =>
          cases q with
          | worker w => exact fine
          | handler h =>
              cases h with
              | waiting payload since => exact Nat.le_trans fine (by simp)
              | replied handled reply => exact ⟨fine.1.append _, fine.2⟩
              | gone handled => cases handled with
                  | none => trivial
                  | some handled => exact fine.append _
              | _ => cases free
      | initialise => cases q with
          | worker w => exact fine
          | handler h => exact fine
      | clean => exact own.elim
      | _ => cases writes

theorem kept : (protocol filters).Kept (Good filters c) (Fine filters c) where
  arrives _ new := by
    cases new
    exact le_rfl
  enters {g p} _ fine waits := by
    cases p with
    | handler h => cases h <;> exact fine
    | worker w => cases w <;> exact fine
  acts good fine step := by
    cases step with
    | handler step =>
        refine ⟨?_, step.fine good fine⟩
        have same := step.controller_eq
        simp only [protocol, same.1, same.2] at good ⊢
        exact good
    | worker step => exact step.fine good fine
  others _ own step writes free fine := Task.Step.others step own writes free fine
  leaves _ fine leaves := by
    cases leaves with
    | handler leaves => cases leaves with
        | waiting payload since => trivial
        | entered payload since => trivial
        | sending handled pool => exact fine.1

theorem Reaches.fine (reaches : Reaches filters c s) (client : c.k8sClient = filters.k8sClient)
    (running : c.stopping = none) :
    Good filters c (s.object.controller, s.object.polls) ∧
      ∀ p ∈ s.tasks, Fine filters c (s.object.controller, s.object.polls) p := by
  obtain ⟨n, run⟩ := reaches
  apply kept.run run serviceStart_sound ⟨rfl, client, running⟩
  intro p member
  obtain rfl := List.mem_singleton.mp member
  trivial

theorem processProxyPayload_eq {handled : Handled} {reply : Reply}
    {seen : IngestionTenantController κ}
    (built : ∀ order, handled.requests = requestsOf order filters seen handled.payload)
    (answered : Answered handled reply) :
    ∃ results : List ((String × WriteRequest) × UpstreamResult), ∀ order : HashOrder String,
      (results.map Prod.fst).Perm (order.iter (requestsOf order filters seen handled.payload)) ∧
      reply = processProxyPayload order filters.tenantLabels seen.getTenants
        filters.usesAllowListing filters.replicateTo (fun _ => results.map Prod.snd)
        handled.payload := by
  unfold Answered at answered
  cases payload : handled.payload with
  | error e =>
      simp only [payload] at answered
      refine ⟨[], fun order => ⟨?_, answered⟩⟩
      rw [requestsOf, List.map_nil, List.length_eq_zero_iff.mp (order.length_iter ∅)]
  | ok writeRequest =>
      simp only [payload] at answered
      obtain ⟨results, sent, answer⟩ := answered
      refine ⟨results, fun order => ⟨?_, answer⟩⟩
      rw [← payload, ← built order]
      exact sent order

theorem requests_linearizable (reaches : Reaches filters c s)
    (client : c.k8sClient = filters.k8sClient) (running : c.stopping = none) :
    runPolls s.object.polls c = some s.object.controller ∧
    (∀ handled todo, .handler (.counting handled todo) ∈ s.tasks →
      handled.seen = s.object.polls.length) ∧
    (∀ handled pool, .handler (.sending handled pool) ∈ s.tasks →
      handled.seen = s.object.polls.length) ∧
    ∀ handled reply, .handler (.replied handled reply) ∈ s.tasks →
      handled.since ≤ handled.seen ∧ handled.seen ≤ s.object.polls.length ∧
      ∃ seen, runPolls (s.object.polls.take handled.seen) c = some seen ∧
      ∃ results : List ((String × WriteRequest) × UpstreamResult), ∀ order : HashOrder String,
        (results.map Prod.fst).Perm (order.iter (requestsOf order filters seen handled.payload)) ∧
        reply = processProxyPayload order filters.tenantLabels seen.getTenants
          filters.usesAllowListing filters.replicateTo (fun _ => results.map Prod.snd)
          handled.payload := by
  obtain ⟨good, fine⟩ := reaches.fine client running
  refine ⟨good.observed, fun handled todo member => ?_, fun handled pool member => ?_,
    fun handled reply member => ?_⟩
  · have serving := fine _ member
    exact serving.2.1
  · have serving := fine _ member
    exact serving.2.1
  · obtain ⟨viewed, answered, -⟩ := fine _ member
    obtain ⟨seen, run, built⟩ := viewed.built
    exact ⟨viewed.since_le, viewed.seen_le, seen, run, processProxyPayload_eq built answered⟩

theorem requests_linearizable_observed_between :
    let filters : Filters Unit := ⟨["tenant_id"], true, ["0"], 64, some ()⟩
    let c : IngestionTenantController Unit := (new none).initK8s (some ())
    let order := HashOrder.sorted String
    let writeRequest : WriteRequest := ⟨[⟨[⟨"tenant_id", "a"⟩], []⟩], []⟩
    ∃ s, ∃ handled : Handled, ∃ reply seen, Reaches filters c s ∧
      .handler (.replied handled reply) ∈ s.tasks ∧ handled.payload = .ok writeRequest ∧
      handled.since = 0 ∧ handled.seen = 1 ∧
      "a" ∈ handled.requests ∧
      "a" ∉ writeRequests order ["tenant_id"] c.getTenants true ["0"] writeRequest ∧
      runPolls [⟨.ok {"a"}, order, order⟩] c = some seen ∧
      ∃ results : List ((String × WriteRequest) × UpstreamResult), ∀ order : HashOrder String,
        reply = processProxyPayload order ["tenant_id"] seen.getTenants true ["0"]
          (fun _ => results.map Prod.snd) (.ok writeRequest) := by
  intro filters c order writeRequest
  obtain ⟨s, handled, reaches, polls, task, payload, since, seen, built⟩ :=
    exists_observed filters c rfl rfl rfl {"a"} order writeRequest
  obtain ⟨s', sending, polls', task'⟩ := reaches.exists_sending task order
  have jobs : order.iter handled.requests =
      [("0", ⟨[⟨[⟨"tenant_id", "a"⟩], []⟩], []⟩), ("a", ⟨[⟨[⟨"tenant_id", "a"⟩], []⟩], []⟩)] := by
    rw [built]
    decide
  rw [jobs] at task'
  -- both requests are under way when the first of them fails
  obtain ⟨s₁, reaches₁, polls₁, task₁⟩ := sending.handler_step task'
    (.upstream handled _ _ _ (.start _ _ [] [] (by decide)))
  obtain ⟨s₂, reaches₂, polls₂, task₂⟩ := reaches₁.handler_step task₁
    (.upstream handled _ _ _ (.start _ [] _ [] (by decide)))
  obtain ⟨s₃, reaches₃, polls₃, task₃⟩ := reaches₂.handler_step task₂
    (.upstream handled _ _ _ (.finish [] [("0", _)] _ [] [] .joinError))
  obtain ⟨s₄, reaches₄, polls₄, task₄⟩ := reaches₃.handler_step task₃
    (.upstream handled _ _ _ (.finish [] [] _ [] _ (.response ⟨200, by decide, by decide⟩)))
  obtain ⟨s₅, reaches₅, polls₅, task₅⟩ := reaches₄.handler_step task₄
    (.reply handled _ _ (by decide) ⟨rfl, rfl⟩)
  have member := List.mem_of_getElem? task₅
  obtain ⟨-, -, -, replied⟩ := requests_linearizable reaches₅ rfl rfl
  obtain ⟨-, -, c', ran, results, answer⟩ := replied handled _ member
  rw [polls₅, polls₄, polls₃, polls₂, polls₁, polls', polls, seen] at ran
  refine ⟨s₅, handled, _, c', reaches₅, member, payload, since, seen, ?_, by decide, ran, results,
    fun order => payload ▸ (answer order).2⟩
  rw [built]
  decide

theorem replies_by_outcome (reaches : Reaches filters c s)
    (client : c.k8sClient = filters.k8sClient) (running : c.stopping = none) {handled : Handled}
    {pool : Pool (String × WriteRequest) UpstreamResult}
    (member : .handler (.sending handled pool) ∈ s.tasks) (done : pool.Done)
    (outcome : String → UpstreamResult) (ended : ∀ e ∈ pool.finished, e.2 = outcome e.1.1) :
    replyTo (pool.finished.map Prod.snd) =
      { body := (failures handled.requests outcome % 2 ^ 16).repr
        status := if failures handled.requests outcome % 2 ^ 16 = 0 then 200 else 500 } := by
  obtain ⟨-, -, sent⟩ := (reaches.fine client running).2 _ member
  have order := HashOrder.sorted String
  have jobs := sent.jobs order
  rw [done.jobs_eq] at jobs
  have tenants : (pool.finished.map fun e => e.1.1).Perm (order.keys handled.requests.keys) := by
    have each := jobs.map Prod.fst
    rwa [List.map_map, order.map_fst_iter] at each
  have results : (pool.finished.map Prod.snd).Perm
      ((order.keys handled.requests.keys).map outcome) := by
    have each := tenants.map outcome
    rw [List.map_map] at each
    rwa [List.map_congr_left ended]
  have count : ((pool.finished.map Prod.snd).map processUpstreamResponse).foldl accumulateErrors 0 =
      UInt16.ofNat (failures handled.requests outcome) := by
    rw [accumulate_all, results.countP_eq, countP_failed, UInt16.zero_add]
  simp only [replyTo, count, ← UInt16.toNat_inj, UInt16.toNat_ofNat']
  rfl

theorem replies_by_outcome_one_failure :
    let filters : Filters Unit := ⟨["tenant_id"], true, ["0"], 64, none⟩
    ∃ s handled pool, Reaches filters (.new none) s ∧
      .handler (.sending handled pool) ∈ s.tasks ∧ pool.Done ∧
      replyTo (pool.finished.map Prod.snd) = { body := "1", status := 500 } := by
  intro filters
  obtain ⟨s, handled, todo, reaches, -, task, -, built⟩ :=
    exists_counting filters (.new none) ⟨[⟨[], []⟩], []⟩
  obtain ⟨s', reaches', -, task'⟩ := reaches.exists_sending task (.sorted String)
  have jobs : (HashOrder.sorted String).iter handled.requests = [("0", ⟨[⟨[], []⟩], []⟩)] := by
    rw [built]
    decide
  rw [jobs] at task'
  obtain ⟨s₁, started, -, task₁⟩ := reaches'.handler_step task'
    (.upstream handled _ _ _ (.start _ [] [] [] (by decide)))
  obtain ⟨s₂, ended, -, task₂⟩ := started.handler_step task₁
    (.upstream handled _ _ _ (.finish [] [] _ [] [] .joinError))
  have member := List.mem_of_getElem? task₂
  have reply := replies_by_outcome ended rfl rfl member ⟨rfl, rfl⟩ (fun _ => .joinError)
    (fun e finished => by rw [List.mem_singleton.mp finished])
  have one : failures handled.requests (fun _ => .joinError) = 1 := by
    rw [built]
    decide
  rw [one] at reply
  exact ⟨s₂, handled, _, ended, member, ⟨rfl, rfl⟩, reply⟩

theorem worker_survives (reaches : Reaches filters c s) (client : c.k8sClient = filters.k8sClient)
    (running : c.stopping = none) {w : Worker} (member : .worker w ∈ s.tasks) :
    w ≠ .leaving ∧ w ≠ .cleaning ∧ (w = .asking → s.object.controller.k8sClient.isSome) ∧
      (w = .ended → filters.k8sClient = none) := by
  obtain ⟨good, fine⟩ := reaches.fine client running
  have own := fine _ member
  have same : s.object.controller.k8sClient = filters.k8sClient := good.client
  cases w with
  | leaving => exact own.elim
  | cleaning => exact own.elim
  | asking =>
      rw [same]
      exact ⟨Worker.noConfusion, Worker.noConfusion, fun _ => own, Worker.noConfusion⟩
  | ended => exact ⟨Worker.noConfusion, Worker.noConfusion, Worker.noConfusion, fun _ => own⟩
  | _ => simp

theorem worker_survives_polling :
    let filters : Filters Unit := ⟨["tenant_id"], true, ["0"], 64, some ()⟩
    let c : IngestionTenantController Unit := (new none).initK8s (some ())
    ∃ s, Reaches filters c s ∧ .worker .asking ∈ s.tasks ∧
      s.object.controller.k8sClient.isSome := by
  intro filters c
  have asking := reaches_asking filters c rfl rfl
  have member : Task.worker .asking ∈ [Task.worker .asking] := List.mem_singleton_self _
  exact ⟨_, asking, member, (worker_survives asking rfl rfl member).2.2.1 rfl⟩

theorem Handler.Handles.holds {h : Handler} {handled : Handled} (handles : h.Handles handled)
    (unreplied : ∀ reply, h ≠ .replied handled reply) (stays : ∀ left, h ≠ .gone left) :
    h.holds = some .read := by
  cases h with
  | waiting payload since => exact handles.elim
  | gone left => exact absurd rfl (stays left)
  | replied handled' reply =>
      exact absurd (congrArg (Handler.replied · reply) handles) (unreplied _)
  | _ => rfl

theorem never_answered (reaches : Reaches filters c s) (client : c.k8sClient = filters.k8sClient)
    (running : c.stopping = none) (zero : filters.parallelRequestPerLoad = 0) :
    (∀ (handled : Handled) (reply : Reply), .handler (.replied handled reply) ∈ s.tasks →
      ∃ e, handled.payload = .error e) ∧
    ∀ (i : Nat) (h : Handler) (handled : Handled) (writeRequest : WriteRequest),
      s.tasks[i]? = some (.handler h) → h.Handles handled → handled.payload = .ok writeRequest →
      ∀ n s', (protocol filters).Run (fun _ => True)
          (fun s => ∀ left, s.tasks[i]? ≠ some (.handler (.gone left))) n s s' →
        s'.object.controller = s.object.controller ∧
        ∃ h', s'.tasks[i]? = some (.handler h') ∧ h'.holds = some .read := by
  have refused {s : Sharing (Shared κ) Task} (reaches : Reaches filters c s)
      (handled : Handled) (reply : Reply)
      (member : .handler (.replied handled reply) ∈ s.tasks) : ∃ e, handled.payload = .error e := by
    obtain ⟨-, -, error⟩ := (reaches.fine client running).2 _ member
    exact error zero
  refine ⟨refused reaches, fun i h handled writeRequest task handles decoded n s' run => ?_⟩
  have reading {s : Sharing (Shared κ) Task} (reaches : Reaches filters c s) {h : Handler}
      (task : s.tasks[i]? = some (.handler h)) (handles : h.Handles handled)
      (stays : ∀ left, s.tasks[i]? ≠ some (.handler (.gone left))) : h.holds = some .read := by
    apply handles.holds
    · intro reply replied
      rw [replied] at task
      obtain ⟨e, error⟩ := refused reaches handled reply (List.mem_of_getElem? task)
      rw [decoded] at error
      cases error
    · intro left gone
      exact stays left (gone ▸ task)
  induction run with
  | start here => exact ⟨rfl, h, task, reading reaches task handles here⟩
  | @move n k s s' s'' before may last here ih =>
      obtain ⟨same, h', task', reads⟩ := ih reaches task
      have reaches' := reaches.run before
      obtain ⟨h'', task'', handles''⟩ := handles.run (before.move may last here) task
      have stable := Protocol.guarded_stable reaches'.sound last task' reads
      exact ⟨(congrArg Prod.fst stable).trans same, h'', task'',
        reading (reaches'.move last) task'' handles'' here⟩

theorem never_answered_one :
    let filters : Filters Unit := ⟨["tenant_id"], true, ["0"], 0, none⟩
    ∃ s, Reaches filters (.new none) s ∧
      ∀ n s', (protocol filters).Run (fun _ => True)
          (fun s => ∀ left, s.tasks[1]? ≠ some (.handler (.gone left))) n s s' →
        s'.object.controller = s.object.controller ∧
        ∃ h, s'.tasks[1]? = some (.handler h) ∧ h.holds = some .read := by
  intro filters
  obtain ⟨s, handled, todo, reaches, -, task, payload, -⟩ :=
    exists_counting filters (.new none) ⟨[⟨[], []⟩], []⟩
  obtain ⟨-, frozen⟩ := never_answered reaches rfl rfl rfl
  exact ⟨s, reaches, frozen 1 _ handled _ task rfl payload⟩

end OpenMetrics.Proxy
