import OpenMetrics.Library.Pool
import OpenMetrics.Library.RwLock
import OpenMetrics.Proxy.Main
import OpenMetrics.Proxy.Upstream

/-! The tasks that the proxy runs after its start: one for each request (`proxy/src/main.rs`) and
the `worker` of `proxy/src/controller/controller.rs`. They share the controller, under the lock
`CONTROLLER`, and the Prometheus counters. -/

namespace OpenMetrics.Proxy
open Library IngestionTenantController

variable {κ : Type}

/-- The counters with a `tenant_id` label; they are atomic and wrap. -/
structure Statistics where
  totalRequests : String → UInt64
  numSeries : String → UInt64

inductive Increment where
  | totalRequests (tenantId : String)
  | numSeries (tenantId : String) (series : Nat)

def Statistics.add (stats : Statistics) : Increment → Statistics
  | .totalRequests tenantId =>
      { stats with
        totalRequests := Function.update stats.totalRequests tenantId
          (stats.totalRequests tenantId + 1) }
  | .numSeries tenantId series =>
      { stats with
        numSeries := Function.update stats.numSeries tenantId
          (stats.numSeries tenantId + UInt64.ofNat series) }

structure Shared (κ : Type) where
  controller : IngestionTenantController κ
  polls : List Poll
  stats : Statistics

structure Filters (κ : Type) where
  tenantLabels : List String
  usesAllowListing : Bool
  replicateTo : List String
  parallelRequestPerLoad : UInt16
  k8sClient : Option κ

def OpenMetricsProxyArgs.k8sClient (args : OpenMetricsProxyArgs) (connect : Option κ) : Option κ :=
  if args.kubernetesPollIntervalSeconds > 0 then connect else none

def OpenMetricsProxyArgs.filters (args : OpenMetricsProxyArgs) (maxParallelRequestPerLoad : UInt16)
    (connect : Option κ) : Filters κ where
  tenantLabels := args.tenantLabels
  usesAllowListing := args.usesAllowListing
  replicateTo := args.replicateTo
  parallelRequestPerLoad := maxParallelRequestPerLoad
  k8sClient := args.k8sClient connect

/-- The controller when `main` starts to serve: with a client it has made a first iteration, which
stops the proxy if it panics. -/
def Started (args : OpenMetricsProxyArgs) (order : HashOrder String) (variable_ : Option String)
    (connect : Option κ) (first : Option Poll) (c : IngestionTenantController κ) : Prop :=
  first.isSome = (args.k8sClient connect).isSome ∧
    runPolls first.toList (startController args order variable_ connect) = some c

/-- A request whose batch has been aggregated. `since` and `seen` are the numbers of observations
that had been made when it arrived and when it read the vector of the controller. -/
structure Handled where
  payload : Except String WriteRequest
  since : Nat
  seen : Nat
  requests : TenantData

inductive Handler where
  | waiting (payload : Except String WriteRequest) (since : Nat)
  | entered (payload : Except String WriteRequest) (since : Nat)
  | counting (handled : Handled) (todo : List Increment)
  | sending (handled : Handled) (pool : Pool (String × WriteRequest) UpstreamResult)
  | replied (handled : Handled) (reply : Reply)
  | gone (handled : Option Handled)

def increments (order : HashOrder String) (requests : TenantData) : List Increment :=
  (order.iter requests).flatMap fun entry =>
    [.totalRequests entry.1, .numSeries entry.1 entry.2.timeseries.length]

def replyTo (results : List UpstreamResult) : Reply :=
  let numOfFailures := (results.map processUpstreamResponse).foldl accumulateErrors 0
  { body := numOfFailures.toNat.repr
    status := if numOfFailures = 0 then 200 else 500 }

inductive Handler.Step (filters : Filters κ) : Handler → Shared κ → Handler → Shared κ → Prop
  | refuse (e : String) (since : Nat) (a : Shared κ) :
      Handler.Step filters (.entered (.error e) since) a
        (.replied ⟨.error e, since, a.polls.length, ∅⟩ { body := e, status := 400 }) a
  | aggregate (order values : HashOrder String) (writeRequest : WriteRequest) (since : Nat)
      (a : Shared κ) (requests : TenantData)
      (built : writeRequests values filters.tenantLabels a.controller.getTenants
        filters.usesAllowListing filters.replicateTo writeRequest = requests) :
      Handler.Step filters (.entered (.ok writeRequest) since) a
        (.counting ⟨.ok writeRequest, since, a.polls.length, requests⟩
          (increments order requests)) a
  | count (handled : Handled) (first : Increment) (rest : List Increment) (a : Shared κ) :
      Handler.Step filters (.counting handled (first :: rest)) a (.counting handled rest)
        { a with stats := a.stats.add first }
  | send (order : HashOrder String) (handled : Handled) (a : Shared κ) :
      Handler.Step filters (.counting handled []) a
        (.sending handled (Pool.start (order.iter handled.requests))) a
  | upstream (handled : Handled) (pool pool' : Pool (String × WriteRequest) UpstreamResult)
      (a : Shared κ) (moved : pool.Step filters.parallelRequestPerLoad.toNat pool') :
      Handler.Step filters (.sending handled pool) a (.sending handled pool') a
  -- `buffer_unordered` without room does not notice that no request is left
  | reply (handled : Handled) (pool : Pool (String × WriteRequest) UpstreamResult)
      (a : Shared κ) (room : 0 < filters.parallelRequestPerLoad) (done : pool.Done) :
      Handler.Step filters (.sending handled pool) a
        (.replied handled (replyTo (pool.finished.map Prod.snd))) a

/-- When the client closes its connection, the handler is dropped at the `await` at which it stands,
for the lock or for the upstream. Its guard goes with it, and so do the requests not yet spawned. -/
inductive Handler.Leaves : Handler → Handler → Prop
  | waiting (payload : Except String WriteRequest) (since : Nat) :
      Handler.Leaves (.waiting payload since) (.gone none)
  -- the lock is granted, but the handler has not been polled since
  | entered (payload : Except String WriteRequest) (since : Nat) :
      Handler.Leaves (.entered payload since) (.gone none)
  | sending (handled : Handled) (pool : Pool (String × WriteRequest) UpstreamResult) :
      Handler.Leaves (.sending handled pool) (.gone (some handled))

def Handler.holds : Handler → Option Access
  | .waiting _ _ | .replied _ _ | .gone _ => none
  | .entered _ _ | .counting _ _ | .sending _ _ => some .read

def Handler.wants : Handler → Option Access
  | .waiting _ _ => some .read
  | .entered _ _ | .counting _ _ | .sending _ _ | .replied _ _ | .gone _ => none

def Handler.enter : Handler → Handler
  | .waiting payload since => .entered payload since
  | other => other

/-- Where the worker stands: `starting`, `checking`, `polling`, `found` and `leaving` wait for the
lock; `asking` is in the middle of `controller_iteration`. -/
inductive Worker where
  | spawned | starting | initialising | checking | checked | sleeping | polling | asking
  | found (tenants : Finset String) | observing (tenants : Finset String) | leaving | cleaning
  | ended

inductive Worker.Step (filters : Filters κ) : Worker → Shared κ → Worker → Shared κ → Prop
  | start (a : Shared κ) : Worker.Step filters .spawned a .starting a
  | initialise (a : Shared κ) :
      Worker.Step filters .initialising a .checking
        { a with controller := a.controller.initK8s filters.k8sClient }
  | check (a : Shared κ) :
      Worker.Step filters .checked a (if a.controller.k8sClient.isSome then .sleeping else .ended) a
  | wake (a : Shared κ) : Worker.Step filters .sleeping a .polling a
  | stop (a : Shared κ) (stopping : a.controller.stopping.isSome) :
      Worker.Step filters .asking a .leaving a
  | panic (a : Shared κ) (running : a.controller.stopping = none)
      (client : a.controller.k8sClient = none) : Worker.Step filters .asking a .ended a
  | list (a : Shared κ) (running : a.controller.stopping = none)
      (client : a.controller.k8sClient.isSome) (tenants : Finset String) :
      Worker.Step filters .asking a (.found tenants) a
  | fail (a : Shared κ) (running : a.controller.stopping = none)
      (client : a.controller.k8sClient.isSome) : Worker.Step filters .asking a .sleeping a
  | observe (a : Shared κ) (tenants : Finset String) (found existing : HashOrder String) :
      Worker.Step filters (.observing tenants) a .sleeping
        { a with
          controller := a.controller.observe found existing tenants
          polls := a.polls ++ [⟨.ok tenants, found, existing⟩] }
  | clean (a : Shared κ) :
      Worker.Step filters .cleaning a .ended { a with controller := a.controller.clean }

def Worker.holds : Worker → Option Access
  | .initialising | .observing _ | .cleaning => some .write
  | .checked | .asking => some .read
  | .spawned | .starting | .checking | .sleeping | .polling | .found _ | .leaving | .ended => none

def Worker.wants : Worker → Option Access
  | .starting | .found _ | .leaving => some .write
  | .checking | .polling => some .read
  | .spawned | .initialising | .checked | .sleeping | .asking | .observing _ | .cleaning
  | .ended => none

def Worker.enter : Worker → Worker
  | .starting => .initialising
  | .checking => .checked
  | .polling => .asking
  | .found tenants => .observing tenants
  | .leaving => .cleaning
  | other => other

inductive Task where
  | handler (h : Handler)
  | worker (w : Worker)

namespace Task

def holds : Task → Option Access
  | .handler h => h.holds
  | .worker w => w.holds

def wants : Task → Option Access
  | .handler h => h.wants
  | .worker w => w.wants

def enter : Task → Task
  | .handler h => .handler h.enter
  | .worker w => .worker w.enter

inductive Fresh : Shared κ → Task → Prop
  | request (a : Shared κ) (payload : Except String WriteRequest) :
      Fresh a (.handler (.waiting payload a.polls.length))

inductive Step (filters : Filters κ) : Task → Shared κ → Task → Shared κ → Prop
  | handler {h h' : Handler} {a a' : Shared κ} (step : h.Step filters a h' a') :
      Step filters (.handler h) a (.handler h') a'
  | worker {w w' : Worker} {a a' : Shared κ} (step : w.Step filters a w' a') :
      Step filters (.worker w) a (.worker w') a'

inductive Leaves : Task → Task → Prop
  | handler {h h' : Handler} (leaves : h.Leaves h') : Leaves (.handler h) (.handler h')

end Task

end OpenMetrics.Proxy
