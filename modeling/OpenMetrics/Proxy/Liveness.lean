import OpenMetrics.Proxy.Concurrency

namespace OpenMetrics.Proxy
open Library IngestionTenantController

variable {κ : Type} {filters : Filters κ} {c : IngestionTenantController κ}
  {s s' : Sharing (Shared κ) Task}

def serviceStart (c : IngestionTenantController κ) : Sharing (Shared κ) Task where
  object := { controller := c, polls := [], stats := ⟨fun _ => 0, fun _ => 0⟩ }
  tasks := [.worker .spawned]
  queue := []

def Reaches (filters : Filters κ) (c : IngestionTenantController κ)
    (s : Sharing (Shared κ) Task) : Prop :=
  ∃ n, (protocol filters).Run (fun _ => True) (fun _ => True) n (serviceStart c) s

theorem serviceStart_sound : (protocol filters).Sound (serviceStart c) where
  queued i := by
    cases i with
    | zero =>
        apply iff_of_false List.not_mem_nil
        intro waiting
        obtain ⟨p, task, waits⟩ := waiting
        cases task
        cases waits
    | succ i =>
        apply iff_of_false List.not_mem_nil
        intro waiting
        obtain ⟨p, task, -⟩ := waiting
        cases task
  nodup := List.nodup_nil
  alone i j p q task _ writes _ := by
    cases i with
    | zero =>
        cases task
        cases writes
    | succ i => cases task

theorem Reaches.sound (reaches : Reaches filters c s) : (protocol filters).Sound s := by
  obtain ⟨n, run⟩ := reaches
  exact run.sound serviceStart_sound

theorem Reaches.run {n : Nat} {allowed : Kind → Prop} {invariant : Sharing (Shared κ) Task → Prop}
    (reaches : Reaches filters c s) (run : (protocol filters).Run allowed invariant n s s') :
    Reaches filters c s' := by
  induction run with
  | start here => exact reaches
  | move before may last here ih =>
      obtain ⟨m, earlier⟩ := ih reaches
      exact ⟨_, earlier.move trivial last trivial⟩

theorem Reaches.move {k : Kind} (reaches : Reaches filters c s)
    (move : (protocol filters).Move k s s') : Reaches filters c s' := by
  obtain ⟨n, run⟩ := reaches
  exact ⟨_, run.move trivial move trivial⟩

theorem exists_counting (filters : Filters κ) (c : IngestionTenantController κ)
    (writeRequest : WriteRequest) :
    ∃ s handled todo, Reaches filters c s ∧ s.object.polls = [] ∧
      s.tasks[1]? = some (.handler (.counting handled todo)) ∧ handled.payload = .ok writeRequest ∧
      handled.requests = writeRequests (.sorted String) filters.tenantLabels c.getTenants
        filters.usesAllowListing filters.replicateTo writeRequest := by
  have start : Reaches filters c (serviceStart c) := ⟨0, .start trivial⟩
  have arrived := start.move (.arrive (serviceStart c) _ (.request _ (.ok writeRequest)))
  have nobody : ∀ p ∈ (serviceStart c).tasks ++ [.handler (.waiting (.ok writeRequest) 0)],
      (protocol filters).holds p ≠ some .write := by
    intro p member writes
    cases List.mem_append.mp member with
    | inl old =>
        obtain rfl := List.mem_singleton.mp old
        cases writes
    | inr new =>
        obtain rfl := List.mem_singleton.mp new
        cases writes
  have entered := arrived.move (.grant _ 1 [] _ .read rfl rfl rfl nobody)
  have counting := entered.move (.work _ 1 _ _ _ rfl rfl (.handler (.aggregate (.sorted String)
    (.sorted String) writeRequest 0 _ _ rfl)))
  exact ⟨_, _, _, counting, rfl, rfl, rfl, rfl⟩

theorem Reaches.handler_step {i : Nat} {h h' : Handler} {a : Shared κ}
    (reaches : Reaches filters c s) (task : s.tasks[i]? = some (.handler h))
    (step : h.Step filters s.object h' a) :
    ∃ s', Reaches filters c s' ∧ s'.object.polls = s.object.polls ∧
      s'.tasks[i]? = some (.handler h') := by
  have inside : (Task.handler h).holds.isSome := by
    rw [Task.holds, step.holds_eq.1]
    rfl
  exact ⟨_, reaches.move (.work _ i _ _ _ task inside (.handler step)), step.controller_eq.2,
    List.getElem?_set_self (List.getElem?_eq_some_iff.mp task).1⟩

theorem Reaches.exists_sending {i : Nat} {handled : Handled} {todo : List Increment}
    (reaches : Reaches filters c s) (task : s.tasks[i]? = some (.handler (.counting handled todo)))
    (order : HashOrder String) :
    ∃ s', Reaches filters c s' ∧ s'.object.polls = s.object.polls ∧ s'.tasks[i]? =
      some (.handler (.sending handled (Pool.start (order.iter handled.requests)))) := by
  induction todo generalizing s with
  | nil => exact reaches.handler_step task (.send order handled s.object)
  | cons first rest ih =>
      obtain ⟨s', reaches', polls, task'⟩ :=
        reaches.handler_step task (.count handled first rest s.object)
      rw [← polls]
      exact ih reaches' task'

theorem Reaches.grant_worker {a : Shared κ} {w : Worker} {x : Access}
    (reaches : Reaches filters c ⟨a, [.worker w], [0]⟩) (wants : w.wants = some x) :
    Reaches filters c ⟨a, [.worker w.enter], []⟩ := by
  have waits : (Task.worker w).wants.isSome := by
    rw [Task.wants, wants]
    rfl
  have idle : w.holds = none := Task.holds_of_wants waits
  refine reaches.move (.grant _ 0 [] (Task.worker w) x rfl rfl wants ?_)
  cases x with
  | read =>
      intro p member writes
      obtain rfl := List.mem_singleton.mp member
      rw [show (protocol filters).holds (Task.worker w) = none from idle] at writes
      cases writes
  | write =>
      intro p member
      obtain rfl := List.mem_singleton.mp member
      exact idle

theorem reaches_asking (filters : Filters κ) (c : IngestionTenantController κ) {cli : κ}
    (client : filters.k8sClient = some cli) (own : c.k8sClient = some cli) :
    Reaches filters c ⟨(serviceStart c).object, [.worker .asking], []⟩ := by
  have same : c.initK8s filters.k8sClient = c := by
    rw [initK8s, client, if_pos Option.isSome_some, ← own]
  have start : Reaches filters c (serviceStart c) := ⟨0, .start trivial⟩
  have starting := start.move (.join _ 0 _ _ _ rfl rfl (.worker (.start _)))
  have initialising := starting.grant_worker rfl
  have checking := initialising.move (.work _ 0 _ _ _ rfl rfl (.worker (.initialise _)))
  have checked := checking.grant_worker rfl
  have sleeping := checked.move (.work _ 0 _ _ _ rfl rfl (.worker (.check _)))
  simp only [serviceStart, same, own, Option.isSome_some, if_true] at sleeping
  have polling := sleeping.move (.join _ 0 _ _ _ rfl rfl (.worker (.wake _)))
  exact polling.grant_worker rfl

theorem exists_observed (filters : Filters κ) (c : IngestionTenantController κ) {cli : κ}
    (client : filters.k8sClient = some cli) (own : c.k8sClient = some cli)
    (running : c.stopping = none) (tenants : Finset String) (order : HashOrder String)
    (writeRequest : WriteRequest) :
    ∃ s handled, Reaches filters c s ∧ s.object.polls = [⟨.ok tenants, order, order⟩] ∧
      s.tasks[1]? = some (.handler (.counting handled (increments order handled.requests))) ∧
      handled.payload = .ok writeRequest ∧ handled.since = 0 ∧ handled.seen = 1 ∧
      handled.requests = writeRequests order filters.tenantLabels
        (c.observe order order tenants).getTenants filters.usesAllowListing filters.replicateTo
        writeRequest := by
  have asking := reaches_asking filters c client own
  have listed : c.k8sClient.isSome := by rw [own]; rfl
  have found := asking.move (.work _ 0 _ _ _ rfl rfl (.worker (.list _ running listed tenants)))
  have arrived := found.move (.arrive _ _ (.request _ (.ok writeRequest)))
  have observing := arrived.move (.grant _ 0 [1] _ .write rfl rfl rfl (by
    intro p member
    rcases List.mem_pair.mp member with rfl | rfl
    · rfl
    · rfl))
  have observed := observing.move (.work _ 0 _ _ _ rfl rfl
    (.worker (.observe _ tenants order order)))
  have entered := observed.move (.grant _ 1 [] _ .read rfl rfl rfl (by
    intro p member writes
    rcases List.mem_pair.mp member with rfl | rfl
    · cases writes
    · cases writes))
  have counting := entered.move (.work _ 1 _ _ _ rfl rfl
    (.handler (.aggregate order order writeRequest 0 _ _ rfl)))
  exact ⟨_, _, counting, rfl, rfl, rfl, rfl, rfl, rfl⟩

theorem Handler.exists_step {h : Handler} (inside : h.holds.isSome)
    (positive : 0 < filters.parallelRequestPerLoad) (a : Shared κ) :
    ∃ h' a', h.Step filters a h' a' := by
  cases h with
  | waiting payload since => cases inside
  | replied handled reply => cases inside
  | gone handled => cases inside
  | entered payload since =>
      cases payload with
      | error e => exact ⟨_, _, .refuse e since a⟩
      | ok writeRequest =>
          exact ⟨_, _, .aggregate (.sorted String) (.sorted String) writeRequest since a _ rfl⟩
  | counting handled todo =>
      cases todo with
      | nil => exact ⟨_, _, .send (.sorted String) handled a⟩
      | cons first rest => exact ⟨_, _, .count handled first rest a⟩
  | sending handled pool =>
      have : Inhabited UpstreamResult := ⟨.joinError⟩
      by_cases done : pool.Done
      · exact ⟨_, _, .reply handled pool a positive done⟩
      · obtain ⟨pool', moved⟩ :
            ∃ pool', pool.Step filters.parallelRequestPerLoad.toNat pool' :=
          Pool.exists_step positive done
        exact ⟨_, _, .upstream handled pool pool' a moved⟩

theorem Worker.exists_step {w : Worker} (inside : w.holds.isSome) (a : Shared κ) :
    ∃ w' a', w.Step filters a w' a' := by
  cases w with
  | initialising => exact ⟨_, _, .initialise a⟩
  | checked => exact ⟨_, _, .check a⟩
  | asking =>
      cases stopping : a.controller.stopping with
      | some b => exact ⟨_, _, .stop a (by rw [stopping]; rfl)⟩
      | none =>
          cases client : a.controller.k8sClient with
          | none => exact ⟨_, _, .panic a stopping client⟩
          | some cli => exact ⟨_, _, .fail a stopping (by rw [client]; rfl)⟩
  | observing tenants => exact ⟨_, _, .observe a tenants (.sorted String) (.sorted String)⟩
  | cleaning => exact ⟨_, _, .clean a⟩
  | _ => cases inside

theorem Task.exists_step {p : Task} (inside : p.holds.isSome)
    (positive : 0 < filters.parallelRequestPerLoad) (a : Shared κ) :
    ∃ p' a', p.Step filters a p' a' := by
  cases p with
  | handler h =>
      obtain ⟨h', a', step⟩ := h.exists_step inside positive a
      exact ⟨_, a', .handler step⟩
  | worker w =>
      obtain ⟨w', a', step⟩ : ∃ w' a', w.Step filters a w' a' := w.exists_step inside a
      exact ⟨_, a', .worker step⟩

theorem Reaches.exists_move (reaches : Reaches filters c s)
    (positive : 0 < filters.parallelRequestPerLoad)
    (busy : s.queue ≠ [] ∨ ∃ p ∈ s.tasks, p.holds.isSome) :
    ∃ s', (protocol filters).Move .moves s s' := by
  by_cases held : ∃ p ∈ s.tasks, p.holds.isSome
  · obtain ⟨p, member, inside⟩ := held
    obtain ⟨i, task⟩ := List.mem_iff_getElem?.mp member
    obtain ⟨p', a', step⟩ := Task.exists_step inside positive s.object
    exact ⟨_, .work s i p p' a' task inside step⟩
  · push Not at held
    refine reaches.sound.exists_grant (fun p member => ?_)
      (busy.resolve_right fun held' => ?_)
    · exact Option.not_isSome_iff_eq_none.mp (held p member)
    · obtain ⟨p, member, inside⟩ := held'
      exact held p member inside

theorem Reaches.replied_of_stuck (reaches : Reaches filters c s)
    (positive : 0 < filters.parallelRequestPerLoad)
    (stuck : ∀ s', ¬ (protocol filters).Move .moves s s') {h : Handler}
    (member : .handler h ∈ s.tasks) :
    (∃ handled reply, h = .replied handled reply) ∨ ∃ handled, h = .gone handled := by
  have idle : ¬ (s.queue ≠ [] ∨ ∃ p ∈ s.tasks, p.holds.isSome) := by
    intro busy
    obtain ⟨s', move⟩ := reaches.exists_move positive busy
    exact stuck s' move
  rw [not_or, not_not] at idle
  cases h with
  | replied handled reply => exact Or.inl ⟨handled, reply, rfl⟩
  | gone handled => exact Or.inr ⟨handled, rfl⟩
  | waiting payload since =>
      obtain ⟨i, task⟩ := List.mem_iff_getElem?.mp member
      have queued : i ∈ s.queue := (reaches.sound.queued i).mpr ⟨_, task, rfl⟩
      rw [idle.1] at queued
      cases queued
  | _ => exact absurd ⟨_, member, rfl⟩ idle.2

def Handler.Handles (handled : Handled) : Handler → Prop
  | .counting handled' _ | .sending handled' _ | .replied handled' _
  | .gone (some handled') => handled' = handled
  | .waiting _ _ | .entered _ _ | .gone none => False

theorem Handler.Handles.wants {h : Handler} {handled : Handled} (handles : h.Handles handled) :
    h.wants = none := by
  cases h with
  | waiting payload since => exact handles.elim
  | _ => rfl

theorem Handler.Handles.step {h h' : Handler} {handled : Handled} {a a' : Shared κ}
    (handles : h.Handles handled) (step : h.Step filters a h' a') : h'.Handles handled := by
  cases step with
  | refuse e since => exact handles.elim
  | aggregate order values writeRequest since a requests built => exact handles.elim
  | _ => exact handles

theorem Handler.Handles.leave {h h' : Handler} {handled : Handled} (handles : h.Handles handled)
    (leaves : h.Leaves h') : h'.Handles handled := by
  cases leaves with
  | waiting payload since => exact handles.elim
  | entered payload since => exact handles.elim
  | sending handled' pool => exact handles

theorem Handler.Handles.move {k : Kind} {i : Nat} {h : Handler} {handled : Handled}
    (handles : h.Handles handled) (move : (protocol filters).Move k s s')
    (task : s.tasks[i]? = some (.handler h)) :
    ∃ h', s'.tasks[i]? = some (.handler h') ∧ h'.Handles handled := by
  have inside : i < s.tasks.length := (List.getElem?_eq_some_iff.mp task).1
  have act : ∀ (j : Nat) p p' a', s.tasks[j]? = some p → p.Step filters s.object p' a' →
      ∃ h', (s.tasks.set j p')[i]? = some (.handler h') ∧ h'.Handles handled := by
    intro j p p' a' mover step
    by_cases same : j = i
    · subst same
      rw [task] at mover
      obtain rfl := Option.some.inj mover
      cases step with
      | handler step => exact ⟨_, List.getElem?_set_self inside, handles.step step⟩
    · exact ⟨h, by rw [List.getElem?_set_ne same, task], handles⟩
  cases move with
  | arrive _ p new => exact ⟨h, by rw [List.getElem?_append_left inside, task], handles⟩
  | join _ j p p' a' mover outside step => exact act j p p' a' mover step
  | grant _ j rest p x head mover wants free =>
      have apart : j ≠ i := by
        intro same
        rw [same, task] at mover
        obtain rfl := Option.some.inj mover
        have idle := handles.wants
        rw [show h.wants = some x from wants] at idle
        cases idle
      exact ⟨h, by rw [List.getElem?_set_ne apart, task], handles⟩
  | work _ j p p' a' mover inside step => exact act j p p' a' mover step
  | leave _ j p p' mover leaves =>
      by_cases same : j = i
      · subst same
        rw [task] at mover
        obtain rfl := Option.some.inj mover
        cases leaves with
        | handler leaves => exact ⟨_, List.getElem?_set_self inside, handles.leave leaves⟩
      · exact ⟨h, by rw [List.getElem?_set_ne same, task], handles⟩

theorem Handler.Handles.run {n : Nat} {allowed : Kind → Prop}
    {invariant : Sharing (Shared κ) Task → Prop} {i : Nat} {h : Handler} {handled : Handled}
    (handles : h.Handles handled) (run : (protocol filters).Run allowed invariant n s s')
    (task : s.tasks[i]? = some (.handler h)) :
    ∃ h', s'.tasks[i]? = some (.handler h') ∧ h'.Handles handled := by
  induction run with
  | start here => exact ⟨h, task, handles⟩
  | move before may last here ih =>
      obtain ⟨h', task', handles'⟩ := ih task
      exact handles'.move last task'

theorem gone_before {k : Kind} {i : Nat} {left : Option Handled}
    (move : (protocol filters).Move k s s') (stays : k ≠ .leaves)
    (task : s'.tasks[i]? = some (.handler (.gone left))) :
    s.tasks[i]? = some (.handler (.gone left)) := by
  have act : ∀ (j : Nat) p p', s.tasks[j]? = some p → p' ≠ .handler (.gone left) →
      (s.tasks.set j p')[i]? = some (.handler (.gone left)) →
      s.tasks[i]? = some (.handler (.gone left)) := by
    intro j p p' mover alive found
    cases Protocol.eq_or_of_set found with
    | inl own => exact absurd own.2.symm alive
    | inr other => exact other.2
  have stepped : ∀ {p p' : Task} {a a' : Shared κ}, p.Step filters a p' a' →
      p' ≠ .handler (.gone left) := by
    intro p p' a a' step
    cases step with
    | worker step => exact Task.noConfusion
    | handler step => cases step <;> exact fun same => nomatch same
  cases move with
  | arrive _ p new =>
      cases new with
      | request payload =>
          by_cases old : i < s.tasks.length
          · rwa [List.getElem?_append_left old] at task
          · rw [List.getElem?_append_right (Nat.le_of_not_lt old), List.getElem?_singleton] at task
            split_ifs at task
            cases task
  | join _ j p p' a' mover outside step => exact act j p p' mover (stepped step) task
  | work _ j p p' a' mover inside step => exact act j p p' mover (stepped step) task
  | grant _ j rest p x head mover wants free =>
      refine act j p _ mover ?_ task
      cases p with
      | worker w => exact Task.noConfusion
      | handler h =>
          cases h with
          | waiting payload since => exact fun same => nomatch same
          | _ => cases wants
  | leave _ j p p' mover leaves => exact absurd rfl stays

theorem gone_before_run {n i : Nat} {allowed : Kind → Prop}
    {invariant : Sharing (Shared κ) Task → Prop} {left : Option Handled}
    (run : (protocol filters).Run allowed invariant n s s') (stay : ¬ allowed .leaves)
    (task : s'.tasks[i]? = some (.handler (.gone left))) :
    s.tasks[i]? = some (.handler (.gone left)) := by
  induction run with
  | start here => exact task
  | move before may last here ih => exact ih (gone_before last (fun same => stay (same ▸ may)) task)

theorem requests_answered (reaches : Reaches filters c s)
    (positive : 0 < filters.parallelRequestPerLoad) {allowed : Kind → Prop}
    (closed : ¬ allowed .comes) {n : Nat}
    (run : (protocol filters).Run allowed (fun _ => True) n s s') :
    n ≤ (protocol filters).total s ∧
      ((∀ s'', ¬ (protocol filters).Move .moves s' s'') →
        ∀ (i : Nat) (h : Handler), s'.tasks[i]? = some (.handler h) →
          (∃ handled reply, h = .replied handled reply) ∨
          ∃ handled, h = .gone handled ∧
            (allowed .leaves ∨ s.tasks[i]? = some (.handler (.gone handled)))) := by
  refine ⟨le_of_add_le_left (run.bounded closed reaches.sound), fun stuck i h task => ?_⟩
  refine ((reaches.run run).replied_of_stuck positive stuck (List.mem_of_getElem? task)).imp_right
    fun away => ?_
  obtain ⟨handled, rfl⟩ := away
  refine ⟨handled, rfl, ?_⟩
  by_cases leaving : allowed .leaves
  · exact Or.inl leaving
  · exact Or.inr (gone_before_run run leaving task)

theorem requests_answered_beside_gone :
    let filters : Filters Unit := ⟨["tenant_id"], true, ["0"], 64, none⟩
    ∃ s n s', Reaches filters (.new none) s ∧ .handler (.gone none) ∈ s.tasks ∧
      (protocol filters).Run (fun k => k = .moves) (fun _ => True) n s s' ∧
      ∃ handled reply, s'.tasks[1]? = some (.handler (.replied handled reply)) := by
  intro filters
  obtain ⟨s, handled, todo, reaches, -, task, -⟩ :=
    exists_counting filters (.new none) ⟨[⟨[], []⟩], []⟩
  have old : 1 < s.tasks.length := (List.getElem?_eq_some_iff.mp task).1
  -- a second client comes, and goes away while it waits
  have arrived := reaches.move (.arrive s _ (.request _ (.error "second")))
  obtain ⟨t, left, absent, stays⟩ : ∃ t, Reaches filters (.new none) t ∧
      .handler (.gone none) ∈ t.tasks ∧ t.tasks[1]? = some (.handler (.counting handled todo)) :=
    ⟨_, arrived.move (.leave _ s.tasks.length _ _ List.getElem?_concat_length
        (.handler (.waiting _ _))), List.mem_set (by simp) _,
      by rw [List.getElem?_set_ne (Nat.ne_of_gt old), List.getElem?_append_left old, task]⟩
  have start : (protocol filters).Run (fun k => k = .moves) (fun _ => True) 0 t t := .start trivial
  obtain ⟨n, s', run, stuck⟩ := start.exists_stuck
  have answered := requests_answered left (by decide : 0 < (64 : UInt16)) (by simp) run
  have handles : (Handler.counting handled todo).Handles handled := rfl
  obtain ⟨h, task', -⟩ := handles.run run stays
  refine ⟨t, n, s', left, absent, run, ?_⟩
  rcases answered.2 stuck 1 h task' with replied | away
  · obtain ⟨handled', reply, rfl⟩ := replied
    exact ⟨handled', reply, task'⟩
  · obtain ⟨handled', -, impossible⟩ := away
    rcases impossible with never | before
    · cases never
    · rw [stays] at before
      cases before

theorem waits_bounded (reaches : Reaches filters c s)
    (positive : 0 < filters.parallelRequestPerLoad) {i n : Nat}
    (run : (protocol filters).Run (fun _ => True) (fun s => i ∈ s.queue) n s s') :
    n ≤ (protocol filters).rank s i ∧ ∃ s'', (protocol filters).Move .moves s' s'' := by
  refine ⟨le_of_add_le_left (run.bypass reaches.sound), ?_⟩
  have waits : i ∈ s'.queue := by cases run <;> assumption
  exact (reaches.run run).exists_move positive (Or.inl (List.ne_nil_of_mem waits))

theorem waits_bounded_two_requests :
    let filters : Filters Unit := ⟨["tenant_id"], true, ["0"], 64, none⟩
    ∃ s s', Reaches filters (.new none) s ∧ 1 ∈ s.queue ∧ 2 ∈ s.queue ∧
      (protocol filters).Move .moves s s' := by
  intro filters
  have start : Reaches filters (.new none) (serviceStart (.new none)) := ⟨0, .start trivial⟩
  have first := start.move (.arrive (serviceStart (.new none)) _ (.request _ (.error "first")))
  have second := first.move (.arrive _ _ (.request _ (.error "second")))
  have waits : 2 ∈ [] ++ [1] ++ [2] := by decide
  obtain ⟨-, s', move⟩ := waits_bounded second (by decide : 0 < (64 : UInt16)) (.start waits)
  exact ⟨_, s', second, List.mem_cons_self .., waits, move⟩

end OpenMetrics.Proxy
