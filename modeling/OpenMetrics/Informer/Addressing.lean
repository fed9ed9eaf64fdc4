import OpenMetrics.Informer.Crud
import OpenMetrics.Informer.Stores
import OpenMetrics.Library.Url

namespace OpenMetrics.Informer
open Library KubeLib

structure RulerSite (standard : Url.Standard) where
  secure : Bool
  host : String
  mount : List String
  namespace_ : String
  host_clean : Url.Clean standard host.toList
  mount_plain : ∀ s ∈ mount, Url.Plain standard s.toList
  namespace_plain : Url.Plain standard namespace_.toList

namespace RulerSite

variable {standard : Url.Standard} (site : RulerSite standard)

def scheme : String := if site.secure then "https:" else "http:"

def apiUrl : String :=
  site.scheme ++ "//" ++ site.host ++ "/" ++ String.join (site.mount.map (· ++ "/"))

def base : List String := site.mount ++ ["api", "v1", "rules", site.namespace_]

def groupOfUrl (url : String) : Option (List UInt8) :=
  Url.below (site.base.map fun s => Url.utf8 s.toList) (Url.path standard url)

/-- The ruler takes the group whose name, in bytes, is the segment after the namespace. -/
def addresses (url name : String) : Bool := site.groupOfUrl url = some (Url.utf8 name.toList)

def rulerClient (api : RulerClient RulerStore) : RulerClient RulerStore :=
  { api with
    delete := fun url tenantId ruler =>
      some (.response 202 (some ""), ruler.delete (site.addresses url) tenantId) }

def groupUrl (name : String) : String := rulesUrl site.apiUrl site.namespace_ ++ "/" ++ name

def RemovesOnly (api : RulerClient RulerStore) (tenantId : String) (group : GroupSpec)
    (ruler : RulerStore) : Prop :=
  ∃ after, removeRulerRule (site.rulerClient api) site.apiUrl tenantId site.namespace_ group ruler =
      some ((), after) ∧
    after.find (tenantId, group.name) = none ∧
    ∀ slot, slot ≠ (tenantId, group.name) → after.find slot = ruler.find slot

variable {site}

theorem base_plain : ∀ s ∈ site.base.map String.toList, Url.Plain standard s := by
  intro s member
  obtain ⟨s, listed, rfl⟩ := List.mem_map.mp member
  simp only [base, List.mem_append, List.mem_cons, List.not_mem_nil, or_false] at listed
  obtain mounted | rfl | rfl | rfl | rfl := listed
  · exact site.mount_plain s mounted
  · exact Url.plain_of_words (by decide)
  · exact Url.plain_of_words (by decide)
  · exact Url.plain_of_words (by decide)
  · exact site.namespace_plain

theorem scheme_clean : Url.Clean standard site.scheme.toList := by
  unfold scheme
  cases site.secure <;> cases standard <;> decide

theorem scheme_starts : ∀ c ∈ site.scheme.toList.head?, standard.trims c = false := by
  intro c first
  have letter : site.scheme.toList.head? = some 'h' := by
    unfold scheme
    cases site.secure <;> decide
  obtain rfl := Option.some.inj (letter.symm.trans first)
  cases standard <;> decide

theorem groupUrl_eq (name : String) :
    site.groupUrl name = String.ofList (Url.slashed (site.scheme.toList :: [] :: site.host.toList ::
      site.base.map String.toList) ++ name.toList) := by
  rw [← String.toList_inj, String.toList_ofList]
  have mount : (String.join (site.mount.map (· ++ "/"))).toList =
      Url.slashed (site.mount.map String.toList) := by
    simp [String.toList_join, Url.slashed, List.flatMap_map]
  simp [groupUrl, rulesUrl, apiUrl, base, mount, Url.slashed]

variable (site) in
theorem groupOfUrl_eq (name : String) :
    site.groupOfUrl (site.groupUrl name) = some (Url.utf8 name.toList) ↔
      Url.Plain standard name.toList := by
  have base : (site.base.map fun s => Url.utf8 s.toList) =
      (site.base.map String.toList).map Url.utf8 := by
    rw [List.map_map]
    rfl
  rw [groupOfUrl, groupUrl_eq, base]
  exact Url.below_path_iff scheme_clean scheme_starts site.host_clean base_plain name.toList

theorem addresses_of_plain {name : String} (plain : Url.Plain standard name.toList)
    (other : String) : site.addresses (site.groupUrl name) other ↔ other = name := by
  rw [addresses, (groupOfUrl_eq site name).mpr plain, decide_eq_true_eq, Option.some.injEq]
  exact ⟨fun bytes => (String.toList_injective (Url.utf8_injective bytes)).symm,
    fun same => same ▸ rfl⟩

theorem plain_of_all_addressed {names : List String}
    (addressed : ∀ name ∈ names, ∃ other ∈ names, site.addresses (site.groupUrl other) name) :
    ∀ name ∈ names, Url.Plain standard name.toList := by
  have base : (site.base.map fun s => Url.utf8 s.toList) =
      (site.base.map String.toList).map Url.utf8 := by
    rw [List.map_map]
    rfl
  suffices all : ∀ text ∈ names.map String.toList, Url.Plain standard text from
    fun name listed => all name.toList (List.mem_map_of_mem listed)
  apply Url.plain_of_all_reached scheme_clean scheme_starts site.host_clean base_plain
  intro text member
  obtain ⟨name, listed, rfl⟩ := List.mem_map.mp member
  obtain ⟨other, listed', found⟩ := addressed name listed
  refine ⟨other.toList, List.mem_map_of_mem listed', ?_⟩
  rw [addresses, decide_eq_true_eq, groupOfUrl, groupUrl_eq, base] at found
  exact found

variable {api : RulerClient RulerStore} {tenantId : String} {group : GroupSpec} {ruler : RulerStore}

theorem removal_apply :
    removeRulerRule (site.rulerClient api) site.apiUrl tenantId site.namespace_ group ruler =
      some ((), ruler.delete (site.addresses (site.groupUrl group.name)) tenantId) := rfl

theorem removesOnly_of_plain (plain : Url.Plain standard group.name.toList) :
    site.RemovesOnly api tenantId group ruler := by
  have addressed (other : String) : site.addresses (site.groupUrl group.name) other ↔
      other = group.name := addresses_of_plain plain other
  refine ⟨_, removal_apply, ?_, fun slot other => ?_⟩
  · rw [RulerStore.find_delete, if_pos ⟨rfl, (addressed _).mpr rfl⟩]
  · rw [RulerStore.find_delete, if_neg]
    intro deleted
    exact other (Prod.ext deleted.1 ((addressed _).mp deleted.2))

theorem plain_of_removesOnly (held : (ruler.find (tenantId, group.name)).isSome)
    (removes : site.RemovesOnly api tenantId group ruler) :
    Url.Plain standard group.name.toList := by
  obtain ⟨after, run, gone, -⟩ := removes
  rw [removal_apply] at run
  obtain rfl := (Prod.mk.inj (Option.some.inj run)).2
  apply (groupOfUrl_eq site group.name).mp
  by_contra other
  rw [RulerStore.find_delete, if_neg fun deleted => other (of_decide_eq_true deleted.2)] at gone
  rw [gone] at held
  cases held

end RulerSite

theorem removal_exact_iff {standard : Url.Standard} (site : RulerSite standard)
    (api : RulerClient RulerStore) (group : GroupSpec) :
    ((∀ tenantId ruler, site.RemovesOnly api tenantId group ruler) ↔
      Url.Plain standard group.name.toList) ∧
    ∀ tenantId ruler, (ruler.find (tenantId, group.name)).isSome →
      (site.RemovesOnly api tenantId group ruler ↔ Url.Plain standard group.name.toList) := by
  have held (tenantId : String) : ((RulerStore.empty.post 0 tenantId group).find
      (tenantId, group.name)).isSome := by
    rw [RulerStore.find_post, if_pos rfl]
    rfl
  refine ⟨⟨fun all => ?_, fun plain _ _ => RulerSite.removesOnly_of_plain plain⟩,
    fun tenantId ruler held => ⟨RulerSite.plain_of_removesOnly held,
      RulerSite.removesOnly_of_plain⟩⟩
  exact RulerSite.plain_of_removesOnly (held "") (all "" _)

theorem localhost_clean {standard : Url.Standard} :
    Url.Clean standard "127.0.0.1:8080".toList := by
  cases standard <;> decide

theorem default_words : "default".toList.all Url.isWord := by decide

def localSite (standard : Url.Standard) : RulerSite standard where
  secure := false
  host := "127.0.0.1:8080"
  mount := []
  namespace_ := "default"
  host_clean := localhost_clean
  mount_plain _ member := absurd member List.not_mem_nil
  namespace_plain := Url.plain_of_words default_words

theorem removal_hits_other :
    let api : RulerClient RulerStore :=
      { get := fun _ _ => pure .transportError
        post := fun _ _ _ => pure .transportError
        delete := fun _ _ => pure .transportError }
    let disk : GroupSpec := ⟨"disk", none, []⟩
    let asked : GroupSpec := ⟨"disk?", none, []⟩
    let ruler := (RulerStore.empty.post 0 "a" disk).post 0 "a" asked
    ¬ (localSite .rfc3986).RemovesOnly api "a" asked ruler ∧
    ¬ (localSite .whatwg).RemovesOnly api "a" asked ruler ∧
    ∃ after, removeRulerRule ((localSite .whatwg).rulerClient api) (localSite .whatwg).apiUrl "a"
        "default" asked ruler = some ((), after) ∧
      after.find ("a", "disk") = none ∧ after.find ("a", "disk?") = some asked := by
  intro api disk asked ruler
  have question (standard : Url.Standard) : ¬ Url.Plain standard asked.name.toList := fun plain =>
    (plain.clean '?' (by decide)).2.1 rfl
  have held : (ruler.find ("a", asked.name)).isSome := by decide
  have addressed : (localSite .whatwg).addresses ((localSite .whatwg).groupUrl asked.name) "disk" ∧
      (localSite .whatwg).addresses ((localSite .whatwg).groupUrl asked.name) "disk?" = false := by
    decide +kernel
  refine ⟨fun removes => question _ (RulerSite.plain_of_removesOnly held removes),
    fun removes => question _ (RulerSite.plain_of_removesOnly held removes),
    _, RulerSite.removal_apply, ?_, ?_⟩
  · rw [RulerStore.find_delete, if_pos ⟨rfl, addressed.1⟩]
  · rw [RulerStore.find_delete, if_neg fun deleted => by simp [addressed.2] at deleted]
    rfl

end OpenMetrics.Informer
