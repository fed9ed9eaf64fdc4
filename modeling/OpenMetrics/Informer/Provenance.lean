import OpenMetrics.KubeLib.Format
import OpenMetrics.Library.History
import OpenMetrics.Informer.Reconcile
import OpenMetrics.Informer.Uploads

namespace OpenMetrics.Informer
open Library KubeLib

variable {σ : Type}

inductive Exchange where
  | listed (items : List OpenMetricsRule)
  | replied (tenantId : String) (reply : RulerReply)
  | patched (resourceName : String) (rule : OpenMetricsRule)
  | deletedResource (resourceName : String)
  | posted (tenantId : String) (group : GroupSpec)
  | deletedGroup (url tenantId : String)

def pageExchanges : Except String ListPage → List Exchange
  | .ok page => [.listed page.items]
  | .error _ => []

def Setup.watched (i : Setup σ) : Setup (σ × List Exchange) where
  k8sClient :=
    { list := fun ns token => Act.traced pageExchanges (i.k8sClient.list ns token)
      patch := fun ns name rule => Act.traced
        (fun _ => [.patched name rule]) (i.k8sClient.patch ns name rule)
      delete := fun ns name => Act.traced
        (fun _ => [.deletedResource name]) (i.k8sClient.delete ns name) }
  rulerClient :=
    { get := fun url t => Act.traced (fun reply => [.replied t reply]) (i.rulerClient.get url t)
      post := fun url t g => Act.traced (fun _ => [.posted t g]) (i.rulerClient.post url t g)
      delete := fun url t =>
        Act.traced (fun _ => [.deletedGroup url t]) (i.rulerClient.delete url t) }
  distributorClient := { get := fun url => Act.traced (fun _ => []) (i.distributorClient.get url) }
  rulerApiUrl := i.rulerApiUrl
  distributorApiUrl := i.distributorApiUrl
  namespace_ := i.namespace_
  sha1 := i.sha1
  fuel := i.fuel

def Seen (rule : OpenMetricsRule) (history : List Exchange) : Prop :=
  ∃ items, .listed items ∈ history ∧ rule ∈ items

def Reports (reply : RulerReply) (g : GroupSpec) : Prop :=
  ∃ text groups ns gs, reply = .response 200 (some ⟨text, .ok groups⟩) ∧
    groups.lookup ns = some gs ∧ g ∈ gs

def Reported (t : String) (g : GroupSpec) (history : List Exchange) : Prop :=
  ∃ reply, .replied t reply ∈ history ∧ Reports reply g

theorem lasting_seen (rule : OpenMetricsRule) : Lasting (Seen rule) := by
  intro history more seen
  obtain ⟨items, event, member⟩ := seen
  exact ⟨items, List.mem_append_left _ event, member⟩

theorem lasting_reported (t : String) (g : GroupSpec) : Lasting (Reported t g) := by
  intro history more reported
  obtain ⟨reply, event, reports⟩ := reported
  exact ⟨reply, List.mem_append_left _ event, reports⟩

/-- A resource as it may be applied. Either it is made of one group that the ruler reported for its
tenant, whatever has its name, or it is a listed resource in which at most groups of the ruler are
new. -/
structure Applicable (history : List Exchange) (name : String) (rule : OpenMetricsRule) : Prop where
  named : nameOf rule = some name
  unmanaged : rule.metadata.managedFields = none
  updated : rule.status = some { rulerUpdated := true }
  tenants : rule.spec.tenants ≠ []
  groups : rule.spec.groups ≠ []
  origin : (∃ t g, Reported t g history ∧ rule = renewed (sourcedRule name t g)) ∨
    ∃ old, Seen old history ∧ nameOf old = some name ∧ rule.spec.tenants = old.spec.tenants ∧
      rule.spec.description = old.spec.description ∧
      ∀ g ∈ rule.spec.groups, g ∈ old.spec.groups ∨ ∃ t ∈ old.spec.tenants, Reported t g history

def Justified (groupsUrl : String) (history : List Exchange) : Exchange → Prop
  | .listed _ | .replied _ _ => True
  | .patched name rule => Applicable history name rule
  | .deletedResource name => ∃ old g, Seen old history ∧ nameOf old = some name ∧
      old.spec.tenants ≠ [] ∧ old.spec.groups = [g]
  | .posted t g => ∃ rule, Seen rule history ∧ t ∈ rule.spec.tenants ∧ g ∈ rule.spec.groups
  | .deletedGroup url t => ∃ g rule, Reported t g history ∧ url = groupsUrl ++ "/" ++ g.name ∧
      Seen rule history ∧ t ∈ rule.spec.tenants

def AllSeen (rules : List OpenMetricsRule) (history : List Exchange) : Prop :=
  ∀ rule ∈ rules, Seen rule history

theorem lasting_allSeen (rules : List OpenMetricsRule) : Lasting (AllSeen rules) :=
  lasting_forall fun rule => (lasting_seen rule).imp _

variable {i : Setup σ} {u : String}

theorem watched_list (ns : String) (token : Option String) :
    Act.Tells (Justified u) (fun _ => True) (i.watched.k8sClient.list ns token)
      fun answer history => ∀ page, answer = .ok page → AllSeen page.items history := by
  show Act.Tells _ _ (Act.traced pageExchanges (i.k8sClient.list ns token)) _
  apply Act.tells_traced
  · intro answer history before _
    cases answer with
    | ok page => exact before.append trivial
    | error e =>
        rw [pageExchanges, List.append_nil]
        exact before
  · intro answer history _ page same rule member
    subst same
    exact ⟨page.items, List.mem_append_right _ (List.mem_singleton_self _), member⟩

theorem watched_refresh (ns : String) (token : Option String) :
    Act.Tells (Justified u) (fun _ => True)
      (refreshOpenMetricsRules i.watched.k8sClient token ns)
      fun portion => AllSeen portion.2.1 := by
  refine Act.tells_bind (watched_list ns token) fun answer => ?_
  cases answer with
  | ok page => exact Act.tells_pure _ fun history seen => seen page rfl
  | error e => exact Act.tells_pure _ fun _ _ rule member => absurd member List.not_mem_nil

theorem AllSeen.append {rules more : List OpenMetricsRule} {history : List Exchange}
    (first : AllSeen rules history) (second : AllSeen more history) :
    AllSeen (rules ++ more) history :=
  fun rule member => (List.mem_append.mp member).elim (first rule) (second rule)

theorem watched_retrieveRest (ns : String) (fuel : Nat) (token : String)
    (found : List OpenMetricsRule) :
    Act.Tells (Justified u) (AllSeen found)
      (retrieveRest i.watched.k8sClient ns fuel token found) AllSeen := by
  induction fuel generalizing token found with
  | zero => exact fun s r _ _ run => absurd run.symm (Option.some_ne_none _)
  | succ fuel ih =>
      have page := (watched_refresh (i := i) (u := u) ns (some token)).frame
        (lasting_allSeen found)
      refine Act.tells_bind (page.weaken (fun _ seen => ⟨trivial, seen⟩) fun _ _ both => both) ?_
      intro portion
      obtain ⟨acquired, rules, next⟩ := portion
      cases next with
      | none => exact Act.tells_pure _ fun history seen => seen.2.append seen.1
      | some t =>
          exact (ih t (found ++ rules)).weaken (fun history seen => seen.2.append seen.1)
            fun _ _ seen => seen

theorem watched_retrieve (ns : String) (fuel : Nat) (found : List OpenMetricsRule)
    (next : Option String) :
    Act.Tells (Justified u) (AllSeen found) (retrieve i.watched.k8sClient ns fuel found next)
      AllSeen := by
  cases next with
  | none => exact Act.tells_pure found fun _ seen => seen
  | some token =>
      rw [retrieve]
      split_ifs
      · exact watched_retrieveRest ns fuel token found
      · exact Act.tells_pure found fun _ seen => seen

theorem watched_discover (ns : String) (fuel : Nat) :
    Act.Tells (Justified u) (fun _ => True)
      (discoverOpenMetricsRules i.watched.k8sClient ns fuel)
      fun answer history => ∀ rules, answer = .ok rules → AllSeen rules history := by
  rw [discover_eq]
  refine Act.tells_bind (watched_refresh ns none) fun portion => ?_
  refine Act.tells_bind (watched_retrieve ns fuel portion.2.1 portion.2.2) fun found => ?_
  refine Act.tells_pure _ fun history seen rules ok => ?_
  obtain rfl := acquired_eq_ok ok
  exact seen

def AllReported (tenants : List String) (r : TenantGroups) (history : List Exchange) : Prop :=
  ∀ t, ∀ g ∈ groupsOf r t, t ∈ tenants ∧ Reported t g history

theorem lasting_allReported (tenants : List String) (r : TenantGroups) :
    Lasting (AllReported tenants r) :=
  lasting_forall fun t => lasting_forall fun g =>
    ((lasting_const (t ∈ tenants)).and (lasting_reported t g)).imp _

theorem groupsOf_insert (result : TenantGroups) (tenantId : String) (l : List (GroupSpec × Int))
    (t : String) : groupsOf (result.insert tenantId l) t =
      if t = tenantId then l.map Prod.fst else groupsOf result t := by
  split_ifs with same
  · rw [same, groupsOf, entriesOf, Finmap.lookup_insert, Option.getD_some]
  · rw [groupsOf, entriesOf, Finmap.lookup_insert_of_ne _ same]
    rfl

theorem readReply_groups {namespaces : HashOrder String} {tenantId : String} {reply : RulerReply}
    {result : TenantGroups} {t : String} {g : GroupSpec}
    (member : g ∈ groupsOf (readReply namespaces tenantId reply result).1 t) :
    g ∈ groupsOf result t ∨ t = tenantId ∧ Reports reply g := by
  cases reply with
  | transportError => exact Or.inl member
  | response status body =>
      by_cases ok : status = 200
      · subst ok
        cases body with
        | none => exact Or.inl member
        | some body =>
            obtain ⟨text, yaml⟩ := body
            cases yaml with
            | error e => exact Or.inl member
            | ok groups =>
                simp only [readReply, if_true] at member
                split_ifs at member
                · revert member
                  refine List.foldlRecOn (motive := fun r : TenantGroups => g ∈ groupsOf r t →
                    g ∈ groupsOf result t ∨ t = tenantId ∧ _) _ _ Or.inl ?_
                  intro r before entry listed member
                  rw [groupsOf_insert] at member
                  split_ifs at member with same
                  · obtain ⟨ns, gs⟩ := entry
                    have here : g ∈ gs := by simpa using member
                    have sent := namespaces.mem_iter.mp listed
                    exact Or.inr ⟨same, text, groups, ns, gs, rfl, sent, here⟩
                  · exact before member
                · exact Or.inl member
      · simp only [readReply, if_neg ok] at member
        split_ifs at member <;> exact Or.inl member

theorem watched_discoverLoop (namespaces : Nat → HashOrder String) (asked : List String)
    (tenants : List String) (inside : tenants ⊆ asked) (result : TenantGroups) :
    Act.Tells (Justified u) (AllReported asked result)
      (discoverLoop i.watched.rulerClient u namespaces tenants result)
      fun outcome => AllReported asked outcome.1 := by
  induction tenants generalizing result with
  | nil => exact Act.tells_pure _ fun _ reported => reported
  | cons tenantId rest ih =>
      obtain ⟨listed, inside'⟩ := List.cons_subset.mp inside
      have read : Act.Tells (Justified u) (AllReported asked result)
          (i.watched.rulerClient.get u tenantId) fun reply history =>
            AllReported asked result history ∧ .replied tenantId reply ∈ history := by
        show Act.Tells _ _ (Act.traced (fun reply => [Exchange.replied tenantId reply])
          (i.rulerClient.get u tenantId)) _
        apply Act.tells_traced
        · exact fun reply history before _ => before.append trivial
        · exact fun reply history reported => ⟨lasting_allReported asked result _ _ reported,
            List.mem_append_right _ (List.mem_singleton_self _)⟩
      refine Act.tells_bind read fun reply => ?_
      have known (history : List Exchange) (both : AllReported asked result history ∧
          .replied tenantId reply ∈ history) :
          AllReported asked (readReply (namespaces rest.length) tenantId reply result).1 history := by
        intro t g member
        cases readReply_groups member with
        | inl before => exact both.1 t g before
        | inr here =>
            obtain ⟨rfl, reports⟩ := here
            exact ⟨listed, reply, both.2, reports⟩
      generalize readReply (namespaces rest.length) tenantId reply result = outcome at known
      obtain ⟨result', failed⟩ := outcome
      cases failed with
      | true => exact Act.tells_pure _ known
      | false => exact (ih inside' result').weaken known fun _ _ reported => reported

theorem watched_discoverRulerRules (namespaces : Nat → HashOrder String) (tenants : List String) :
    Act.Tells (Justified (rulesUrl i.rulerApiUrl i.namespace_)) (fun _ => True)
      (discoverRulerRules namespaces tenants i.watched.rulerClient i.rulerApiUrl i.namespace_)
      fun answer history => ∀ r, answer = .ok r → AllReported tenants r history := by
  have loop := watched_discoverLoop (i := i) (u := rulesUrl i.rulerApiUrl i.namespace_) namespaces
    tenants tenants (List.Subset.refl _) ∅
  refine Act.tells_bind (loop.weaken ?_ fun _ _ known => known) fun outcome => ?_
  · intro history _ t g member
    rw [groupsOf, entriesOf, Finmap.lookup_empty] at member
    cases member
  · obtain ⟨r, failed⟩ := outcome
    cases failed with
    | true => exact Act.tells_pure _ fun _ _ r' same => by cases same
    | false =>
        refine Act.tells_pure _ fun history known r' same => ?_
        obtain rfl := Except.ok.inj same
        exact known

theorem watched_resourceUpdated {P : List Exchange → Prop} {ns name : String}
    {rule : OpenMetricsRule}
    (applicable : ∀ history, P history → Applicable history name (renewed rule)) :
    Act.Tells (Justified u) P (resourceUpdated i.watched.k8sClient ns name rule)
      fun _ _ => True :=
  Act.tells_bind (Act.tells_event applicable) fun _ => Act.tells_pure _ fun _ _ => trivial

theorem applicable_set {history : List Exchange} {rule : OpenMetricsRule} {t name : String}
    {g : GroupSpec} (idx : UInt32) (seen : Seen rule history) (named : nameOf rule = some name)
    (holds : Holds t g.name rule) (reported : Reported t g history) :
    Applicable history name (renewed (setGroup rule idx g)) where
  named := named
  unmanaged := rfl
  updated := rfl
  tenants := List.ne_nil_of_mem holds.1
  groups := by
    obtain ⟨g', member, -⟩ := holds.2
    have some := List.length_pos_of_mem member
    rw [← List.length_pos_iff]
    simpa [renewed, setGroup] using some
  origin := by
    refine Or.inr ⟨rule, seen, named, rfl, rfl, fun g' member => ?_⟩
    cases List.mem_or_eq_of_mem_set member with
    | inl old => exact Or.inl old
    | inr new => exact Or.inr ⟨t, holds.1, new ▸ reported⟩

theorem applicable_erase {history : List Exchange} {rule : OpenMetricsRule} {t name name' : String}
    (idx : UInt32) (seen : Seen rule history) (named : nameOf rule = some name)
    (holds : Holds t name' rule) (several : rule.spec.groups.length ≠ 1) :
    Applicable history name (renewed (eraseGroup rule idx)) where
  named := named
  unmanaged := rfl
  updated := rfl
  tenants := List.ne_nil_of_mem holds.1
  groups := by
    obtain ⟨g', member, -⟩ := holds.2
    have some := List.length_pos_of_mem member
    have less := List.le_length_eraseIdx rule.spec.groups idx.toNat
    rw [← List.length_pos_iff]
    show 0 < (rule.spec.groups.eraseIdx idx.toNat).length
    omega
  origin := Or.inr ⟨rule, seen, named, rfl, rfl, fun g' member =>
    Or.inl (List.mem_of_mem_eraseIdx member)⟩

theorem applicable_same {history : List Exchange} {rule : OpenMetricsRule} {t name : String}
    {g : GroupSpec} (seen : Seen rule history) (named : nameOf rule = some name)
    (lists : t ∈ rule.spec.tenants) (declares : g ∈ rule.spec.groups) :
    Applicable history name (renewed rule) where
  named := named
  unmanaged := rfl
  updated := rfl
  tenants := List.ne_nil_of_mem lists
  groups := List.ne_nil_of_mem declares
  origin := Or.inr ⟨rule, seen, named, rfl, rfl, fun _ member => Or.inl member⟩

theorem applicable_sourced {history : List Exchange} {t : String} {g : GroupSpec} (name : String)
    (reported : Reported t g history) :
    Applicable history name (renewed (sourcedRule name t g)) where
  named := rfl
  unmanaged := rfl
  updated := rfl
  tenants := List.cons_ne_nil _ _
  groups := List.cons_ne_nil _ _
  origin := Or.inl ⟨t, g, reported, rfl⟩

theorem watched_createOrUpdate (fuel : Nat) (sha1 : String → String) (t ns : String)
    (g : GroupSpec) :
    Act.Tells (Justified u) (Reported t g)
      (createOrUpdateK8sResource i.watched.k8sClient fuel sha1 t ns g) fun _ _ => True := by
  have read := (watched_discover (i := i) (u := u) ns fuel).frame (lasting_reported t g)
  refine Act.tells_bind (read.weaken (fun _ known => ⟨trivial, known⟩) fun _ _ both => both) ?_
  intro answer
  cases answer with
  | error e => exact Act.tells_pure _ fun _ _ => trivial
  | ok rules =>
      simp only [searchGroup_eq]
      cases found : firstHolder t g.name rules with
      | none => exact watched_resourceUpdated fun history known => applicable_sourced _ known.2
      | some rule =>
          exact Act.tells_unwrap fun name named => watched_resourceUpdated fun history known =>
            applicable_set _ (known.1 rules rfl rule (firstHolder_mem found)) named
              (firstHolder_holds found) known.2

theorem watched_remove (fuel : Nat) (t ns : String) (g : GroupSpec) :
    Act.Tells (Justified u) (fun _ => True)
      (removeK8sResource i.watched.k8sClient fuel t ns g) fun _ _ => True := by
  refine Act.tells_bind (watched_discover ns fuel) fun answer => ?_
  cases answer with
  | error e => exact Act.tells_pure _ fun _ _ => trivial
  | ok rules =>
      simp only [searchGroup_eq]
      cases found : firstHolder t g.name rules with
      | none => exact Act.tells_pure _ fun _ _ => trivial
      | some rule =>
          have listed := firstHolder_mem found
          have holds := firstHolder_holds found
          refine Act.tells_unwrap fun name named => ?_
          by_cases single : rule.spec.groups.length = 1
          · obtain ⟨g', only⟩ := List.length_eq_one_iff.mp single
            simp only [if_pos single]
            exact Act.tells_bind (Act.tells_event fun history known =>
              ⟨rule, g', known rules rfl rule listed, named, List.ne_nil_of_mem holds.1, only⟩)
              fun _ => Act.tells_pure _ fun _ _ => trivial
          · simp only [if_neg single]
            exact watched_resourceUpdated fun history known =>
              applicable_erase _ (known rules rfl rule listed) named holds single

theorem watched_uploadGroup {o : TickOrders} {rules : List OpenMetricsRule} {r : TenantGroups}
    {p : String × GroupSpec × Int}
    (update : p ∈ o.updatesOf r (getTenantMapFromRulesList rules)) :
    Act.Tells (Justified u) (AllSeen rules) (i.watched.uploadGroup rules p.1 p.2)
      fun _ _ => True := by
  obtain ⟨t, g, k⟩ := p
  obtain ⟨n, rule, index, found, lists, declares⟩ := exists_declaring (mem_flatten.mp update)
  have listed := List.mem_of_getElem? found
  have post : Act.Tells (Justified u) (AllSeen rules)
      (updateRulerRule i.watched.rulerClient i.watched.rulerApiUrl t i.watched.namespace_ g)
      fun _ _ => True :=
    Act.tells_bind (Act.tells_event fun history known => ⟨rule, known rule listed, lists, declares⟩)
      fun _ => Act.tells_pure _ fun _ _ => trivial
  refine Act.tells_bind (post.keep (lasting_allSeen rules)) fun _ => ?_
  dsimp only at index
  simp only [index, Int.natCast_nonneg, if_true, Int.toNat_natCast, found]
  refine Act.tells_unwrap fun rule' same => ?_
  obtain rfl := Option.some.inj same
  exact Act.tells_unwrap fun name named => watched_resourceUpdated fun history known =>
    applicable_same (known rule listed) named lists declares

theorem watched_syncToK8s (o : TickOrders) {tenants : List String} (r : TenantGroups) :
    Act.Tells (Justified u) (AllReported tenants r) (i.watched.syncToK8s o r) fun _ _ => True := by
  have read := (watched_discover (i := i) (u := u) i.namespace_ i.fuel).frame
    (lasting_allReported tenants r)
  refine Act.tells_bind (read.weaken (fun _ known => ⟨trivial, known⟩) fun _ _ both => both.2) ?_
  intro answer
  cases answer with
  | error e => exact Act.tells_pure _ fun _ _ => trivial
  | ok rules =>
      have lasting := lasting_allReported tenants r
      have puts : Act.Tells (Justified u) (AllReported tenants r)
          ((o.updates.iter
              (diffRuleGroups o.origin o.target (getTenantMapFromRulesList rules) r).1).forM
            fun entry => entry.2.forM fun e =>
              createOrUpdateK8sResource i.watched.k8sClient i.fuel i.sha1 entry.1 i.namespace_ e.1)
          fun _ _ => True := by
        apply Act.tells_forM lasting
        intro entry listed
        apply Act.tells_forM lasting
        intro e member
        refine (watched_createOrUpdate i.fuel i.sha1 entry.1 i.namespace_ e.1).weaken ?_
          fun _ _ known => known
        intro history known
        have update : (entry.1, e) ∈ o.updatesOf (getTenantMapFromRulesList rules) r :=
          List.mem_flatMap.mpr ⟨entry, listed, List.mem_map_of_mem member⟩
        obtain ⟨g, k⟩ := e
        exact (known entry.1 g (TickOrders.exists_mem_updatesOf.mp ⟨k, update⟩).1).2
      refine Act.tells_bind puts fun _ => ?_
      apply Act.tells_forM (lasting_const True)
      intro entry _
      apply Act.tells_forM (lasting_const True)
      intro e _
      exact watched_remove i.fuel entry.1 i.namespace_ e.1

theorem watched_tracker (o : TickOrders) :
    Act.Tells (Justified (rulesUrl i.rulerApiUrl i.namespace_)) (fun _ => True)
      (i.watched.tracker o) fun _ _ => True := by
  have load : Act.Tells (Justified (rulesUrl i.rulerApiUrl i.namespace_)) (fun _ => True)
      (loadTenantsFromDistributor i.watched.distributorClient i.distributorApiUrl)
      fun _ _ => True := by
    have get : Act.Tells (Justified (rulesUrl i.rulerApiUrl i.namespace_)) (fun _ => True)
        (Act.traced (fun _ => []) (i.distributorClient.get
          (i.distributorApiUrl ++ "distributor/all_user_stats"))) fun _ _ => True :=
      Act.tells_traced (fun _ history before _ => (List.append_nil history).symm ▸ before)
        fun _ _ _ => trivial
    exact Act.tells_bind get fun _ => Act.tells_pure _ fun _ _ => trivial
  have read : Act.Tells (Justified (rulesUrl i.rulerApiUrl i.namespace_)) (fun _ => True)
      (i.watched.readRuler o)
      fun answer history => ∀ r, answer = .ok r → ∃ tenants, AllReported tenants r history := by
    refine Act.tells_bind load fun tenants => ?_
    cases tenants with
    | error e => exact Act.tells_pure _ fun _ _ r same => by cases same
    | ok tenants =>
        exact (watched_discoverRulerRules o.namespaces tenants).weaken (fun _ known => known)
          fun answer history known r same => ⟨tenants, known r same⟩
  refine Act.tells_bind read fun answer => ?_
  cases answer with
  | error e => exact Act.tells_pure _ fun _ _ => trivial
  | ok r =>
      intro s result accounted known run
      obtain ⟨tenants, reported⟩ := known r rfl
      exact watched_syncToK8s o r s result accounted reported run

theorem watched_syncToRuler (o : TickOrders) (skip : Bool) (rules : List OpenMetricsRule)
    (r : TenantGroups) :
    Act.Tells (Justified (rulesUrl i.rulerApiUrl i.namespace_))
      (fun history => AllReported (o.tenants.keys (discoverTenantIds rules)) r history ∧
        AllSeen rules history)
      (i.watched.syncToRuler o skip rules r) fun _ _ => True := by
  have lasting := (lasting_allReported (o.tenants.keys (discoverTenantIds rules)) r).and
    (lasting_allSeen rules)
  have uploads : Act.Tells (Justified (rulesUrl i.rulerApiUrl i.namespace_))
      (fun history => AllReported (o.tenants.keys (discoverTenantIds rules)) r history ∧
        AllSeen rules history)
      ((o.updates.iter
          (diffRuleGroups o.origin o.target r (getTenantMapFromRulesList rules)).1).forM
        fun entry => entry.2.forM fun e => i.watched.uploadGroup rules entry.1 e)
      fun _ _ => True := by
    apply Act.tells_forM lasting
    intro entry listed
    apply Act.tells_forM lasting
    intro e member
    have update : (entry.1, e) ∈ o.updatesOf r (getTenantMapFromRulesList rules) :=
      List.mem_flatMap.mpr ⟨entry, listed, List.mem_map_of_mem member⟩
    exact (watched_uploadGroup update).weaken (fun _ known => known.2) fun _ _ known => known
  refine Act.tells_bind (uploads.keep lasting) fun _ => ?_
  cases skip with
  | true => exact Act.tells_pure _ fun _ _ => trivial
  | false =>
      apply Act.tells_forM lasting
      intro entry listed
      apply Act.tells_forM lasting
      intro e member
      have removal : (entry.1, e) ∈ o.removalsOf r (getTenantMapFromRulesList rules) :=
        List.mem_flatMap.mpr ⟨entry, listed, List.mem_map_of_mem member⟩
      obtain ⟨g, k⟩ := e
      have held := (TickOrders.exists_mem_removalsOf.mp ⟨k, removal⟩).1
      refine Act.tells_bind (Act.tells_event fun history known => ?_)
        fun _ => Act.tells_pure _ fun _ _ => trivial
      obtain ⟨asked, reported⟩ := known.1 entry.1 g held
      obtain ⟨rule, listed, lists⟩ := mem_discoverTenantIds.mp (o.tenants.mem_keys_iff.mp asked)
      exact ⟨g, rule, reported, rfl, known.2 rule listed, lists⟩

theorem watched_updater (o : TickOrders) (skip : Bool) :
    Act.Tells (Justified (rulesUrl i.rulerApiUrl i.namespace_)) (fun _ => True)
      (i.watched.updater o skip) fun _ _ => True := by
  refine Act.tells_bind (watched_discover i.namespace_ i.fuel) fun answer => ?_
  cases answer with
  | error e => exact Act.tells_pure _ fun _ _ => trivial
  | ok rules =>
      have read := (watched_discoverRulerRules (i := i) o.namespaces
        (o.tenants.keys (discoverTenantIds rules))).frame (lasting_allSeen rules)
      refine Act.tells_bind (read.weaken (fun _ known => ⟨trivial, known rules rfl⟩)
        fun _ _ both => both) fun outcome => ?_
      cases outcome with
      | error e => exact Act.tells_pure _ fun _ _ => trivial
      | ok r =>
          exact (watched_syncToRuler (i := i) o skip rules r).weaken
            (fun _ known => ⟨known.1 r rfl, known.2⟩) fun _ _ known => known

theorem follows_list (i : Setup σ) (ns : String) (token : Option String) :
    Act.Follows (i.watched.k8sClient.list ns token) (i.k8sClient.list ns token) :=
  Act.follows_traced pageExchanges _

theorem follows_refresh (i : Setup σ) (token : Option String) (ns : String) :
    Act.Follows (refreshOpenMetricsRules i.watched.k8sClient token ns)
      (refreshOpenMetricsRules i.k8sClient token ns) := by
  refine Act.follows_bind (follows_list i ns token) fun answer => ?_
  cases answer <;> exact Act.follows_pure _

theorem follows_retrieveRest (i : Setup σ) (ns : String) (fuel : Nat) (token : String)
    (found : List OpenMetricsRule) :
    Act.Follows (retrieveRest i.watched.k8sClient ns fuel token found)
      (retrieveRest i.k8sClient ns fuel token found) := by
  induction fuel generalizing token found with
  | zero => exact fun _ _ => rfl
  | succ fuel ih =>
      refine Act.follows_bind (follows_refresh i (some token) ns) fun portion => ?_
      obtain ⟨acquired, rules, next⟩ := portion
      cases next with
      | none => exact Act.follows_pure _
      | some t => exact ih t _

theorem follows_discover (i : Setup σ) (ns : String) (fuel : Nat) :
    Act.Follows (discoverOpenMetricsRules i.watched.k8sClient ns fuel)
      (discoverOpenMetricsRules i.k8sClient ns fuel) := by
  rw [discover_eq, discover_eq]
  refine Act.follows_bind (follows_refresh i none ns) fun portion => ?_
  refine Act.follows_bind ?_ fun found => Act.follows_pure _
  cases portion.2.2 with
  | none => exact Act.follows_pure _
  | some token =>
      rw [retrieve, retrieve]
      split_ifs
      · exact follows_retrieveRest i ns fuel token portion.2.1
      · exact Act.follows_pure _

theorem follows_discoverRulerRules (i : Setup σ) (namespaces : Nat → HashOrder String)
    (tenants : List String) :
    Act.Follows
      (discoverRulerRules namespaces tenants i.watched.rulerClient i.rulerApiUrl i.namespace_)
      (discoverRulerRules namespaces tenants i.rulerClient i.rulerApiUrl i.namespace_) := by
  have loop (url : String) (tenants : List String) (result : TenantGroups) :
      Act.Follows (discoverLoop i.watched.rulerClient url namespaces tenants result)
        (discoverLoop i.rulerClient url namespaces tenants result) := by
    induction tenants generalizing result with
    | nil => exact Act.follows_pure _
    | cons tenantId rest ih =>
        have get : Act.Follows (i.watched.rulerClient.get url tenantId)
            (i.rulerClient.get url tenantId) :=
          Act.follows_traced (fun reply => [Exchange.replied tenantId reply]) _
        refine Act.follows_bind get fun reply => ?_
        generalize readReply (namespaces rest.length) tenantId reply result = outcome
        obtain ⟨result', failed⟩ := outcome
        cases failed with
        | true => exact Act.follows_pure _
        | false => exact ih result'
  refine Act.follows_bind (loop _ tenants ∅) fun outcome => ?_
  obtain ⟨r, failed⟩ := outcome
  cases failed <;> exact Act.follows_pure _

theorem follows_resourceUpdated (i : Setup σ) (ns name : String) (rule : OpenMetricsRule) :
    Act.Follows (resourceUpdated i.watched.k8sClient ns name rule)
      (resourceUpdated i.k8sClient ns name rule) :=
  Act.follows_bind (Act.follows_traced (fun _ => [Exchange.patched name (renewed rule)]) _)
    fun _ => Act.follows_pure _

theorem follows_createOrUpdate (i : Setup σ) (fuel : Nat) (sha1 : String → String)
    (t ns : String) (g : GroupSpec) :
    Act.Follows (createOrUpdateK8sResource i.watched.k8sClient fuel sha1 t ns g)
      (createOrUpdateK8sResource i.k8sClient fuel sha1 t ns g) := by
  refine Act.follows_bind (follows_discover i ns fuel) fun answer => ?_
  cases answer with
  | error e => exact Act.follows_pure _
  | ok rules =>
      dsimp only
      cases searchGroup t g.name rules with
      | none => exact follows_resourceUpdated i ns _ _
      | some found =>
          exact Act.follows_bind (Act.follows_unwrap _) fun name =>
            follows_resourceUpdated i ns name _

theorem follows_remove (i : Setup σ) (fuel : Nat) (t ns : String) (g : GroupSpec) :
    Act.Follows (removeK8sResource i.watched.k8sClient fuel t ns g)
      (removeK8sResource i.k8sClient fuel t ns g) := by
  refine Act.follows_bind (follows_discover i ns fuel) fun answer => ?_
  cases answer with
  | error e => exact Act.follows_pure _
  | ok rules =>
      dsimp only
      cases searchGroup t g.name rules with
      | none => exact Act.follows_pure _
      | some found =>
          refine Act.follows_bind (Act.follows_unwrap _) fun name => ?_
          by_cases single : found.1.spec.groups.length = 1
          · simp only [if_pos single]
            exact Act.follows_bind (Act.follows_traced (fun _ => [Exchange.deletedResource name]) _)
              fun _ => Act.follows_pure _
          · simp only [if_neg single]
            exact follows_resourceUpdated i ns name _

theorem follows_uploadGroup (i : Setup σ) (rules : List OpenMetricsRule) (t : String)
    (e : GroupSpec × Int) :
    Act.Follows (i.watched.uploadGroup rules t e) (i.uploadGroup rules t e) := by
  refine Act.follows_bind ?_ fun _ => ?_
  · exact Act.follows_bind (Act.follows_traced (fun _ => [Exchange.posted t e.1]) _)
      fun _ => Act.follows_pure _
  · by_cases indexed : 0 ≤ e.2
    · simp only [if_pos indexed]
      refine Act.follows_bind (Act.follows_unwrap _) fun rule => ?_
      exact Act.follows_bind (Act.follows_unwrap _) fun name =>
        follows_resourceUpdated i _ name rule
    · simp only [if_neg indexed]
      exact Act.follows_pure _

theorem follows_tracker (i : Setup σ) (o : TickOrders) :
    Act.Follows (i.watched.tracker o) (i.tracker o) := by
  have read : Act.Follows (i.watched.readRuler o) (i.readRuler o) := by
    refine Act.follows_bind ?_ fun tenants => ?_
    · exact Act.follows_bind (Act.follows_traced (fun _ => []) _) fun _ => Act.follows_pure _
    · cases tenants with
      | error e => exact Act.follows_pure _
      | ok tenants => exact follows_discoverRulerRules i o.namespaces tenants
  refine Act.follows_bind read fun answer => ?_
  cases answer with
  | error e => exact Act.follows_pure _
  | ok r =>
      refine Act.follows_bind (follows_discover i i.namespace_ i.fuel) fun listed => ?_
      cases listed with
      | error e => exact Act.follows_pure _
      | ok rules =>
          refine Act.follows_bind ?_ fun _ => ?_
          · exact Act.follows_forM fun entry _ => Act.follows_forM fun e _ =>
              follows_createOrUpdate i i.fuel i.sha1 entry.1 i.namespace_ e.1
          · exact Act.follows_forM fun entry _ => Act.follows_forM fun e _ =>
              follows_remove i i.fuel entry.1 i.namespace_ e.1

theorem follows_updater (i : Setup σ) (o : TickOrders) (skip : Bool) :
    Act.Follows (i.watched.updater o skip) (i.updater o skip) := by
  refine Act.follows_bind (follows_discover i i.namespace_ i.fuel) fun listed => ?_
  cases listed with
  | error e => exact Act.follows_pure _
  | ok rules =>
      refine Act.follows_bind (follows_discoverRulerRules i o.namespaces _) fun answer => ?_
      cases answer with
      | error e => exact Act.follows_pure _
      | ok r =>
          refine Act.follows_bind ?_ fun _ => ?_
          · exact Act.follows_forM fun entry _ => Act.follows_forM fun e _ =>
              follows_uploadGroup i rules entry.1 e
          · cases skip with
            | true => exact Act.follows_pure _
            | false =>
                refine Act.follows_forM fun entry _ => Act.follows_forM fun e _ => ?_
                refine Act.follows_bind ?_ fun _ => Act.follows_pure _
                exact Act.follows_traced (fun _ => [Exchange.deletedGroup _ entry.1]) _

theorem follows_rounds (i : Setup σ) (skip : Bool) (rounds : List Round) :
    Act.Follows (rounds.forM (i.watched.round skip)) (rounds.forM (i.round skip)) := by
  refine Act.follows_forM fun round _ => ?_
  cases round with
  | tracker o => exact follows_tracker i o
  | updater o => exact follows_updater i o skip

theorem watched_rounds (i : Setup σ) (skip : Bool) (rounds : List Round) :
    Act.Tells (Justified (rulesUrl i.rulerApiUrl i.namespace_)) (fun _ => True)
      (rounds.forM (i.watched.round skip)) fun _ _ => True := by
  refine Act.tells_forM (lasting_const True) fun round _ => ?_
  cases round with
  | tracker o => exact watched_tracker o
  | updater o => exact watched_updater o skip

theorem writes_justified (i : Setup σ) (skip : Bool) (rounds : List Round) {s s' : σ}
    (run : rounds.forM (i.round skip) s = some ((), s')) :
    ∃ history, rounds.forM (i.watched.round skip) (s, []) = some ((), s', history) ∧
      Accounted (Justified (rulesUrl i.rulerApiUrl i.namespace_)) history :=
  (watched_rounds i skip rounds).run (follows_rounds i skip rounds) run

theorem writes_justified_first_tick :
    let i := (Live.localhost fun _ => "digest").setup ["a"]
    let w : World := { cluster := .empty, ruler := (oneTenant "a").ruler, log := [] }
    ∃ w' history, [Round.tracker .sorted].forM (i.watched.round true) (w, []) =
        some ((), w', history) ∧ w'.log.length = 1 ∧
      Accounted (Justified "http://127.0.0.1:8080/api/v1/rules/default") history := by
  intro i w
  have one : ([Round.tracker .sorted].forM (i.round true) w).map (fun r => r.2.log.length) =
      some 1 := by decide
  obtain ⟨⟨_, w'⟩, run, written⟩ := Option.map_eq_some_iff.mp one
  obtain ⟨history, watched, accounted⟩ := writes_justified i true [.tracker .sorted] run
  exact ⟨w', history, watched, written, accounted⟩

theorem applied_accepted (i : Setup σ) (skip : Bool) (rounds : List Round)
    (order : HashOrder String) {s s' : σ}
    (run : rounds.forM (i.round skip) s = some ((), s')) :
    ∃ history, rounds.forM (i.watched.round skip) (s, []) = some ((), s', history) ∧
      ∀ name rule, .patched name rule ∈ history →
        specSchema.accepts (rule.spec.serialize order) ∧
          OpenMetricsRuleSpec.deserialize (rule.spec.serialize order) = some rule.spec := by
  obtain ⟨history, watched, accounted⟩ :=
    (watched_rounds i skip rounds).run (follows_rounds i skip rounds) run
  refine ⟨history, watched, fun name rule applied => ?_⟩
  obtain ⟨front, back, split⟩ := List.append_of_mem applied
  have applicable : Applicable front name rule := accounted front _ back split
  exact ⟨(rule.spec.accepted_iff order).mpr applicable.tenants,
    rule.spec.deserialize_serialize order⟩

theorem applied_accepted_first_tick :
    let i := (Live.localhost fun _ => "digest").setup ["a"]
    let w : World := { cluster := .empty, ruler := (oneTenant "a").ruler, log := [] }
    ∃ w' history, [Round.tracker .sorted].forM (i.watched.round true) (w, []) =
        some ((), w', history) ∧ w'.log.length = 1 ∧
      ∀ name rule, .patched name rule ∈ history →
        specSchema.accepts (rule.spec.serialize (HashOrder.sorted String)) ∧
          OpenMetricsRuleSpec.deserialize (rule.spec.serialize (HashOrder.sorted String)) =
            some rule.spec := by
  intro i w
  have one : ([Round.tracker .sorted].forM (i.round true) w).map (fun r => r.2.log.length) =
      some 1 := by decide
  obtain ⟨⟨_, w'⟩, run, written⟩ := Option.map_eq_some_iff.mp one
  obtain ⟨history, watched, accepted⟩ :=
    applied_accepted i true [.tracker .sorted] (HashOrder.sorted String) run
  exact ⟨w', history, watched, written, accepted⟩

end OpenMetrics.Informer
