import OpenMetrics.Informer.Addressing
import OpenMetrics.Informer.Discovery
import OpenMetrics.Informer.Loops
import OpenMetrics.Informer.Search

namespace OpenMetrics.Informer
open Library KubeLib

inductive Call where
  | patch (resourceName : String) (rule : OpenMetricsRule)
  | deleteResource (resourceName : String)
  | post (tenantId : String) (group : GroupSpec)
  | deleteGroup (tenantId url : String)
  deriving DecidableEq

structure World where
  cluster : Cluster
  ruler : RulerStore
  log : List Call

namespace World

def content (w : World) (name : String) : Option (List String × List GroupSpec) :=
  (w.cluster.find name).map fun rule => (rule.spec.tenants, rule.spec.groups)

def deleteResource (w : World) (resourceName : String) : World :=
  { w with
    cluster := w.cluster.delete resourceName
    log := w.log ++ [.deleteResource resourceName] }

variable (w : World) (name : String)

@[simp] theorem deleteResource_cluster :
    (w.deleteResource name).cluster = w.cluster.delete name := rfl

variable {w name} in
theorem content_of_mem {rule : OpenMetricsRule} (member : rule ∈ w.cluster.rules)
    (named : nameOf rule = some name) :
    w.content name = some (rule.spec.tenants, rule.spec.groups) := by
  rw [content, Cluster.find_eq_some.mpr ⟨member, named⟩, Option.map_some]

variable {w} in
theorem mem_declared {t : String} {g : GroupSpec} : g ∈ declared w.cluster.rules t ↔
    ∃ name ts gs, w.content name = some (ts, gs) ∧ t ∈ ts ∧ g ∈ gs := by
  rw [Informer.mem_declared]
  constructor
  · intro declares
    rcases declares with ⟨rule, member, lists, group⟩
    obtain ⟨name, named, -⟩ := Cluster.find_of_mem member
    exact ⟨name, _, _, content_of_mem member named, lists, group⟩
  · intro held
    rcases held with ⟨name, ts, gs, here, lists, group⟩
    obtain ⟨rule, found, spec⟩ := Option.map_eq_some_iff.mp here
    obtain ⟨rfl, rfl⟩ := Prod.mk.inj spec
    exact ⟨rule, (Cluster.find_eq_some.mp found).1, lists, group⟩

variable {w} in
theorem mem_discoverTenantIds {t : String} : t ∈ discoverTenantIds w.cluster.rules ↔
    ∃ name ts gs, w.content name = some (ts, gs) ∧ t ∈ ts := by
  rw [KubeLib.mem_discoverTenantIds]
  constructor
  · intro named
    obtain ⟨rule, member, lists⟩ := named
    obtain ⟨name, named, -⟩ := Cluster.find_of_mem member
    exact ⟨name, _, _, content_of_mem member named, lists⟩
  · intro held
    obtain ⟨name, ts, gs, here, lists⟩ := held
    obtain ⟨rule, found, spec⟩ := Option.map_eq_some_iff.mp here
    obtain ⟨rfl, rfl⟩ := Prod.mk.inj spec
    exact ⟨rule, (Cluster.find_eq_some.mp found).1, lists⟩

theorem content_deleteResource (name' : String) :
    (w.deleteResource name).content name' = if name' = name then none else w.content name' := by
  rw [content, deleteResource_cluster, Cluster.find_delete]
  split_ifs <;> rfl

end World

/-- What the requests depend on besides the stores. The places say where the stores list what is
new to them, and `addresses` whether a DELETE of the URL takes the group of the name. -/
structure Live where
  rulerApiUrl : String
  distributorApiUrl : String
  namespace_ : String
  sha1 : String → String
  resourcePlace : World → Nat
  groupPlace : World → Nat
  yamlText : List GroupSpec → String
  addresses : String → String → Bool

namespace Live

variable (live : Live)

def patch (resourceName : String) (rule : OpenMetricsRule) (w : World) : World :=
  { w with
    cluster := w.cluster.apply (live.resourcePlace w) resourceName rule
    log := w.log ++ [.patch resourceName rule] }

def post (tenantId : String) (group : GroupSpec) (w : World) : World :=
  { w with
    ruler := w.ruler.post (live.groupPlace w) tenantId group
    log := w.log ++ [.post tenantId group] }

def deleteGroup (url tenantId : String) (w : World) : World :=
  { w with
    ruler := w.ruler.delete (live.addresses url) tenantId
    log := w.log ++ [.deleteGroup tenantId url] }

def groupUrl (name : String) : String :=
  rulesUrl live.rulerApiUrl live.namespace_ ++ "/" ++ name

@[simp] theorem patch_cluster (name : String) (rule : OpenMetricsRule) (w : World) :
    (live.patch name rule w).cluster = w.cluster.apply (live.resourcePlace w) name rule := rfl

theorem content_patch (resourceName : String) (rule : OpenMetricsRule) (w : World)
    (name : String) :
    (live.patch resourceName rule w).content name =
      if name = resourceName then some (rule.spec.tenants, rule.spec.groups)
      else w.content name := by
  rw [World.content, patch_cluster, Cluster.find_apply]
  split_ifs <;> rfl

def k8sClient : KubeClient World where
  list _ _ w := some (.ok { items := w.cluster.rules, continue_ := none }, w)
  patch _ resourceName rule w := some (.ok (), live.patch resourceName rule w)
  delete _ resourceName w := some (.ok (), w.deleteResource resourceName)

def rulerReply (groups : List GroupSpec) : RulerReply :=
  if groups = [] then .response 404 (some ⟨"no rule groups found", .error "not a map"⟩)
  else .response 200
    (some ⟨live.yamlText groups, .ok (Finmap.singleton live.namespace_ groups)⟩)

def rulerClient : RulerClient World where
  get _ tenantId w := some (live.rulerReply (w.ruler.groups tenantId), w)
  post _ tenantId group w := some (.response 202 (some ""), live.post tenantId group w)
  delete url tenantId w := some (.response 202 (some ""), live.deleteGroup url tenantId w)

def setup (userIds : List String) : Setup World where
  k8sClient := live.k8sClient
  rulerClient := live.rulerClient
  distributorClient := { get := fun _ => pure (.response 200 (.ok (userIds.map UserStat.mk))) }
  rulerApiUrl := live.rulerApiUrl
  distributorApiUrl := live.distributorApiUrl
  namespace_ := live.namespace_
  sha1 := live.sha1
  fuel := 0

def localhost (sha1 : String → String) : Live where
  rulerApiUrl := "http://127.0.0.1:8080/"
  distributorApiUrl := "http://127.0.0.1:8081/"
  namespace_ := "default"
  sha1 := sha1
  resourcePlace _ := 0
  groupPlace _ := 0
  yamlText _ := ""
  addresses := (localSite .whatwg).addresses

def Addressed (name : String) : Prop :=
  ∀ other, live.addresses (live.groupUrl name) other ↔ other = name

variable {live} {w : World}

@[simp] theorem discover_apply (ns : String) (fuel : Nat) :
    discoverOpenMetricsRules live.k8sClient ns fuel w = some (.ok w.cluster.rules, w) := by
  simp [discoverOpenMetricsRules, refreshOpenMetricsRules, k8sClient]

@[simp] theorem resourceUpdated_apply (ns resourceName : String) (rule : OpenMetricsRule) :
    resourceUpdated live.k8sClient ns resourceName rule w =
      some ((), live.patch resourceName (renewed rule) w) := by
  simp [resourceUpdated, k8sClient]

@[simp] theorem removeResource_apply (ns resourceName : String) :
    removeResource live.k8sClient ns resourceName w =
      some ((), w.deleteResource resourceName) := by
  simp [removeResource, k8sClient]

@[simp] theorem updateRulerRule_apply (tenantId : String) (group : GroupSpec) :
    updateRulerRule live.rulerClient live.rulerApiUrl tenantId live.namespace_ group w =
      some ((), live.post tenantId group w) := by
  simp [updateRulerRule, rulerClient]

@[simp] theorem removeRulerRule_apply (tenantId : String) (group : GroupSpec) :
    removeRulerRule live.rulerClient live.rulerApiUrl tenantId live.namespace_ group w =
      some ((), live.deleteGroup (live.groupUrl group.name) tenantId w) := rfl

variable (live) in
def put (t : String) (g : GroupSpec) (w : World) : World :=
  match firstHolder t g.name w.cluster.rules with
  | some rule => live.patch ((nameOf rule).getD "")
      (renewed (setGroup rule (groupIndex g.name rule) g)) w
  | none => live.patch (computedName live.sha1 t g.name)
      (renewed (sourcedRule (computedName live.sha1 t g.name) t g)) w

variable (live) in
def remove (t name : String) (w : World) : World :=
  match firstHolder t name w.cluster.rules with
  | some rule =>
      if rule.spec.groups.length = 1 then w.deleteResource ((nameOf rule).getD "")
      else live.patch ((nameOf rule).getD "")
        (renewed (eraseGroup rule (groupIndex name rule))) w
  | none => w

theorem unwrap_name {rule : OpenMetricsRule} (member : rule ∈ w.cluster.rules) :
    (Act.unwrap rule.metadata.name : Act World String) = pure ((nameOf rule).getD "") := by
  obtain ⟨name, named⟩ := Option.isSome_iff_exists.mp (w.cluster.named rule member)
  rw [named, Option.getD_some]
  exact congrArg Act.unwrap named

theorem createOrUpdate_apply (fuel : Nat) (t ns : String) (g : GroupSpec) :
    createOrUpdateK8sResource live.k8sClient fuel live.sha1 t ns g w =
      some ((), live.put t g w) := by
  rw [createOrUpdateK8sResource, put]
  simp only [Act.bind_apply, discover_apply, Option.bind_some, searchGroup_eq]
  cases found : firstHolder t g.name w.cluster.rules with
  | none => simp
  | some rule => simp [unwrap_name (firstHolder_mem found)]

theorem removeK8s_apply (fuel : Nat) (t ns : String) (g : GroupSpec) :
    removeK8sResource live.k8sClient fuel t ns g w = some ((), live.remove t g.name w) := by
  rw [removeK8sResource, remove]
  simp only [Act.bind_apply, discover_apply, Option.bind_some, searchGroup_eq]
  cases found : firstHolder t g.name w.cluster.rules with
  | none => simp
  | some rule =>
      by_cases single : rule.spec.groups.length = 1 <;>
        simp [unwrap_name (firstHolder_mem found), single]

end Live

def RulerSite.serves {standard : Url.Standard} (site : RulerSite standard) (live : Live) : Live :=
  { live with
    rulerApiUrl := site.apiUrl
    namespace_ := site.namespace_
    addresses := site.addresses }

theorem RulerSite.addressed_of_plain {standard : Url.Standard} {site : RulerSite standard}
    {live : Live} {name : String} (plain : Url.Plain standard name.toList) :
    (site.serves live).Addressed name :=
  fun other => addresses_of_plain plain other

theorem Live.localhost_addressed (sha1 : String → String) {name : String}
    (words : name.toList.all Url.isWord) : (localhost sha1).Addressed name :=
  show ((localSite .whatwg).serves (localhost sha1)).Addressed name from
    RulerSite.addressed_of_plain (Url.plain_of_words words)

end OpenMetrics.Informer
