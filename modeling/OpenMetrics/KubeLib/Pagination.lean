import OpenMetrics.KubeLib.Listing

namespace OpenMetrics.KubeLib
open Library

variable {σ : Type}

/-- The continuation pages stand under the tokens that lead to them; the last page carries an
empty token or none. -/
structure PageChain where
  first : List OpenMetricsRule
  rest : List (String × List OpenMetricsRule)
  endsEmpty : Bool
  tokens_nodup : (rest.map Prod.fst).Nodup
  tokens_nonempty : "" ∉ rest.map Prod.fst

namespace PageChain

variable (chain : PageChain)

def items : Nat → List OpenMetricsRule
  | 0 => chain.first
  | k + 1 => (chain.rest[k]?.map Prod.snd).getD []

def token (k : Nat) : Option String :=
  match chain.rest[k]? with
  | some page => some page.1
  | none => if chain.endsEmpty then some "" else none

def position : Option String → Option Nat
  | none => some 0
  | some t => if t = "" then some 0
      else (chain.rest.findIdx? fun page => page.1 = t).map (· + 1)

def respond (fails : Nat → Bool) (token : Option String) : Except String ListPage :=
  match chain.position token with
  | none => .error "the provided continue parameter is invalid"
  | some k =>
      if fails k then .error "connection refused"
      else .ok { items := chain.items k, continue_ := chain.token k }

def client (fails : Nat → Bool) (api : KubeClient σ) : KubeClient σ :=
  { api with list := fun _ token s => some (chain.respond fails token, s) }

variable {chain} {fails : Nat → Bool} {api : KubeClient σ} {ns : String} {s : σ}

theorem token_eq_some {k : Nat} (more : k < chain.rest.length) :
    chain.token k = some chain.rest[k].1 := by
  rw [token, List.getElem?_eq_getElem more]

theorem token_ne_empty {k : Nat} (more : k < chain.rest.length) : chain.rest[k].1 ≠ "" :=
  fun empty => chain.tokens_nonempty (empty ▸ List.mem_map_of_mem (List.getElem_mem more))

theorem position_token {k : Nat} (more : k < chain.rest.length) :
    chain.position (some chain.rest[k].1) = some (k + 1) := by
  have index : chain.rest.findIdx? (fun page => page.1 = chain.rest[k].1) = some k := by
    rw [List.findIdx?_eq_some_iff_getElem]
    refine ⟨more, by simp, fun j before => ?_⟩
    have apart := List.pairwise_iff_getElem.mp chain.tokens_nodup j k
      (by simpa using before.trans more) (by simpa using more) before
    simpa using apart
  rw [position, if_neg (token_ne_empty more), index, Option.map_some]

theorem refresh_token {k : Nat} (more : k < chain.rest.length) :
    refreshOpenMetricsRules (chain.client fails api) (some chain.rest[k].1) ns s =
      some (if fails (k + 1) then (false, [], none)
        else (true, chain.items (k + 1), chain.token (k + 1)), s) := by
  by_cases failed : fails (k + 1) <;>
    simp [refreshOpenMetricsRules, client, respond, position_token more, failed]

theorem refresh_first :
    refreshOpenMetricsRules (chain.client fails api) none ns s =
      some (if fails 0 then (false, [], none)
        else (true, chain.items 0, chain.token 0), s) := by
  by_cases failed : fails 0 <;>
    simp [refreshOpenMetricsRules, client, respond, position, failed]

theorem retrieveRest_stops {k d : Nat} (more : k + d < chain.rest.length)
    (comes : ∀ j, k < j → j ≤ k + d → fails j = false) (failed : fails (k + d + 1) = true)
    (found : List OpenMetricsRule) :
    retrieveRest (chain.client fails api) ns (d + 1) chain.rest[k].1 found s =
      some (found ++ (List.range' (k + 1) d).flatMap chain.items, s) := by
  induction d generalizing k found with
  | zero =>
      have failed' : fails (k + 1) = true := failed
      have more' : k < chain.rest.length := more
      simp [retrieveRest, refresh_token more', failed']
  | succ d ih =>
      have here : fails (k + 1) = false := comes (k + 1) (by omega) (by omega)
      have next : k + 1 < chain.rest.length := by omega
      have later := ih (k := k + 1) (by omega) (fun j after upTo => comes j (by omega) (by omega))
        (by rwa [Nat.add_assoc k 1 d, Nat.add_comm 1 d]) (found ++ chain.items (k + 1))
      rw [retrieveRest]
      simp only [Act.bind_apply, refresh_token (by omega : k < chain.rest.length), here,
        token_eq_some next, Option.bind_some, Bool.false_eq_true, if_false]
      rw [later, List.range'_succ, List.flatMap_cons, List.append_assoc]

theorem discover_more (comes : fails 0 = false) (more : 0 < chain.rest.length) (fuel : Nat) :
    discoverOpenMetricsRules (chain.client fails api) ns fuel s =
      (retrieveRest (chain.client fails api) ns fuel chain.rest[0].1 chain.first s).map
        fun r => (.ok r.1, r.2) := by
  simp only [discoverOpenMetricsRules, Act.bind_apply, refresh_first, comes, token_eq_some more,
    Option.bind_some, Bool.false_eq_true, if_false, ne_eq, token_ne_empty more, not_false_eq_true,
    if_true]
  exact Option.map_eq_bind.symm

theorem discover_truncated {d : Nat} (more : d < chain.rest.length)
    (comes : ∀ j ≤ d, fails j = false) (failed : fails (d + 1) = true) :
    discoverOpenMetricsRules (chain.client fails api) ns (d + 1) s =
      some (.ok ((List.range (d + 1)).flatMap chain.items), s) := by
  have rest : retrieveRest (chain.client fails api) ns (d + 1) chain.rest[0].1 chain.first s =
      some (chain.first ++ (List.range' 1 d).flatMap chain.items, s) :=
    retrieveRest_stops (by omega) (fun j _ upTo => comes j (by omega)) (by rwa [Nat.zero_add]) _
  rw [discover_more (comes 0 (Nat.zero_le d)) (by omega), rest, Option.map_some,
    List.range_eq_range', List.range'_succ, List.flatMap_cons]
  rfl

theorem discover_first_fails (failed : fails 0 = true) (fuel : Nat) :
    discoverOpenMetricsRules (chain.client fails api) ns fuel s =
      some (.error "k8s communication failure", s) := by
  simp [discoverOpenMetricsRules, refresh_first, failed]

variable (chain) in
def allItems : List OpenMetricsRule := chain.first ++ chain.rest.flatMap Prod.snd

theorem token_last (ends : chain.endsEmpty = false) {k : Nat} (last : chain.rest.length ≤ k) :
    chain.token k = none := by
  rw [token, List.getElem?_eq_none last, ends]
  rfl

theorem items_succ {k : Nat} (more : k < chain.rest.length) :
    chain.items (k + 1) = chain.rest[k].2 := by
  rw [items, List.getElem?_eq_getElem more, Option.map_some, Option.getD_some]

theorem retrieveRest_all (ends : chain.endsEmpty = false) (comes : ∀ j, fails j = false)
    {k : Nat} (more : k < chain.rest.length) (spare : Nat) (found : List OpenMetricsRule) :
    retrieveRest (chain.client fails api) ns (chain.rest.length - k + spare) chain.rest[k].1 found s =
      some (found ++ (chain.rest.drop k).flatMap Prod.snd, s) := by
  induction left : chain.rest.length - k generalizing k found with
  | zero => omega
  | succ left' ih =>
      have page : refreshOpenMetricsRules (chain.client fails api) (some chain.rest[k].1) ns s =
          some ((true, chain.rest[k].2, chain.token (k + 1)), s) := by
        rw [refresh_token more, comes, if_neg Bool.false_ne_true, items_succ more]
      rw [Nat.add_right_comm, retrieveRest, Act.bind_apply, page, Option.bind_some,
        List.drop_eq_getElem_cons more, List.flatMap_cons, ← List.append_assoc]
      by_cases later : k + 1 < chain.rest.length
      · rw [token_eq_some later]
        exact ih later _ (by omega)
      · have last : chain.rest.length ≤ k + 1 := Nat.le_of_not_lt later
        rw [token_last ends last, List.drop_eq_nil_of_le last, List.flatMap_nil, List.append_nil]
        rfl

theorem discover_single (comes : fails 0 = false) (single : chain.rest = []) (fuel : Nat) :
    discoverOpenMetricsRules (chain.client fails api) ns fuel s =
      some (.ok chain.allItems, s) := by
  cases ends : chain.endsEmpty <;>
    simp [discoverOpenMetricsRules, refresh_first, comes, token, items, allItems, single, ends]

theorem discover_all (ends : chain.endsEmpty = false) (comes : ∀ j, fails j = false) {fuel : Nat}
    (enough : chain.rest.length ≤ fuel) :
    discoverOpenMetricsRules (chain.client fails api) ns fuel s =
      some (.ok chain.allItems, s) := by
  by_cases more : 0 < chain.rest.length
  · obtain ⟨spare, rfl⟩ := Nat.exists_eq_add_of_le enough
    have rest : retrieveRest (chain.client fails api) ns (chain.rest.length + spare)
        chain.rest[0].1 chain.first s =
        some (chain.first ++ chain.rest.flatMap Prod.snd, s) :=
      retrieveRest_all ends comes more spare chain.first
    rw [discover_more (comes 0) more, rest, Option.map_some, allItems]
  · exact discover_single (comes 0) (List.length_eq_zero_iff.mp (Nat.eq_zero_of_not_pos more)) fuel

variable (chain) in
def Served (t : String) : Prop := t = "" ∨ ∃ k, ∃ more : k < chain.rest.length, t = chain.rest[k].1

theorem served_next (ends : chain.endsEmpty = true) (k : Nat) :
    ∃ next, chain.token k = some next ∧ chain.Served next := by
  by_cases more : k < chain.rest.length
  · exact ⟨_, token_eq_some more, Or.inr ⟨k, more, rfl⟩⟩
  · refine ⟨"", ?_, Or.inl rfl⟩
    rw [token, List.getElem?_eq_none (Nat.le_of_not_lt more), ends]
    rfl

/-- The loop goes round the chain: an empty token leads back to the first page, which has a token
again. -/
theorem refresh_served (ends : chain.endsEmpty = true) (comes : ∀ j, fails j = false) {t : String}
    (served : chain.Served t) :
    ∃ k next, chain.Served next ∧ refreshOpenMetricsRules (chain.client fails api) (some t) ns s =
      some ((true, chain.items k, some next), s) := by
  cases served with
  | inl empty =>
      obtain ⟨next, token, served⟩ := served_next ends 0
      refine ⟨0, next, served, ?_⟩
      simp [refreshOpenMetricsRules, client, respond, position, empty, comes, token]
  | inr continuation =>
      obtain ⟨k, more, rfl⟩ := continuation
      obtain ⟨next, token, served⟩ := served_next ends (k + 1)
      refine ⟨k + 1, next, served, ?_⟩
      rw [refresh_token more, comes, if_neg Bool.false_ne_true, token]

theorem retrieveRest_endless (ends : chain.endsEmpty = true) (comes : ∀ j, fails j = false)
    (fuel : Nat) {t : String} (served : chain.Served t) (found : List OpenMetricsRule) :
    retrieveRest (chain.client fails api) ns fuel t found s = none := by
  induction fuel generalizing t found with
  | zero => rfl
  | succ fuel ih =>
      obtain ⟨k, next, served', page⟩ : ∃ k next, chain.Served next ∧
          refreshOpenMetricsRules (chain.client fails api) (some t) ns s =
            some ((true, chain.items k, some next), s) := refresh_served ends comes served
      rw [retrieveRest, Act.bind_apply, page, Option.bind_some]
      exact ih served' _

theorem discover_endless (ends : chain.endsEmpty = true) (comes : ∀ j, fails j = false)
    (more : 0 < chain.rest.length) (fuel : Nat) :
    discoverOpenMetricsRules (chain.client fails api) ns fuel s = none := by
  rw [discover_more (comes 0) more, retrieveRest_endless ends comes fuel (Or.inr ⟨0, more, rfl⟩),
    Option.map_none]

variable (chain) in
theorem listing_complete_iff (api : KubeClient σ) (ns : String) (s : σ) :
    (∃ enough, ∀ fuel ≥ enough,
      discoverOpenMetricsRules (chain.client (fun _ => false) api) ns fuel s =
        some (.ok (chain.first ++ chain.rest.flatMap Prod.snd), s)) ↔
      chain.endsEmpty = false ∨ chain.rest = [] := by
  constructor
  · intro returns
    rcases returns with ⟨enough, returns⟩
    by_contra endless
    rw [not_or, Bool.not_eq_false, ← ne_eq, ← List.length_pos_iff] at endless
    have listed := returns enough le_rfl
    rw [discover_endless endless.1 (fun _ => rfl) endless.2] at listed
    simp at listed
  · intro stops
    cases stops with
    | inl ends => exact ⟨chain.rest.length, fun fuel enough => discover_all ends (fun _ => rfl) enough⟩
    | inr single => exact ⟨0, fun fuel _ => discover_single rfl single fuel⟩

def endingEmpty : PageChain where
  first := []
  rest := [("page-2", [.new "late" { tenants := ["a"], description := none, groups := [] }])]
  endsEmpty := true
  tokens_nodup := List.nodup_singleton _
  tokens_nonempty := by decide

theorem listing_never_returns :
    let api : KubeClient Unit :=
      { list := fun _ _ => pure (.error "unused")
        patch := fun _ _ _ => pure (.ok ())
        delete := fun _ _ => pure (.ok ()) }
    ¬ ∃ fuel rules s, discoverOpenMetricsRules (endingEmpty.client (fun _ => false) api) "default"
      fuel () = some (.ok rules, s) := by
  intro api returns
  rcases returns with ⟨fuel, rules, s, listed⟩
  have endless : discoverOpenMetricsRules (endingEmpty.client (fun _ => false) api) "default"
      fuel () = none := discover_endless rfl (fun _ => rfl) (by decide) fuel
  exact Option.some_ne_none _ (listed.symm.trans endless)

end PageChain

end OpenMetrics.KubeLib
