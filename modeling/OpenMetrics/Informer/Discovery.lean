import OpenMetrics.Informer.Rules
import Mathlib.Data.String.Basic

namespace OpenMetrics.Informer
open Library KubeLib

variable {σ : Type}

/-- The reply settles the groups of the tenant; `none` when the ruler has no namespace for it. -/
inductive Conclusive : RulerReply → Option (List GroupSpec) → Prop
  | noNamespace (text : String) : Conclusive (.response 200 (some ⟨text, .ok ∅⟩)) none
  | groups (text ns : String) (groups : List GroupSpec) :
      Conclusive (.response 200 (some ⟨text, .ok (Finmap.singleton ns groups)⟩)) (some groups)
  | noGroups (body : Body) (text : Text.trim body.text = "no rule groups found") :
      Conclusive (.response 404 (some body)) none

inductive Silent : RulerReply → Prop
  | transportError : Silent .transportError
  | unreadable : Silent (.response 200 none)

inductive Detected : RulerReply → Prop
  | invalidYaml (text e : String) : Detected (.response 200 (some ⟨text, .error e⟩))
  | wrongText (body : Body) (text : Text.trim body.text ≠ "no rule groups found") :
      Detected (.response 404 (some body))
  | noText : Detected (.response 404 none)
  | otherStatus (status : UInt16) (body : Option Body) (notOk : status ≠ 200)
      (notNotFound : status ≠ 404) : Detected (.response status body)

def AtMostOneNamespace (reply : RulerReply) : Prop :=
  ∀ text groups, reply = .response 200 (some ⟨text, .ok groups⟩) → groups.keys.card ≤ 1

theorem empty_or_singleton {ν : Type} {m : HashMap String ν} (small : m.keys.card ≤ 1) :
    m = ∅ ∨ ∃ k v, m = Finmap.singleton k v := by
  obtain ⟨k, inside⟩ := Finset.card_le_one_iff_subset_singleton.mp small
  cases found : m.lookup k with
  | none =>
      refine Or.inl (Finmap.ext_lookup fun k' => ?_)
      rw [Finmap.lookup_empty, Finmap.lookup_eq_none]
      intro member
      obtain rfl := Finset.mem_singleton.mp (inside (Finmap.mem_keys.mpr member))
      exact Finmap.lookup_eq_none.mp found member
  | some v =>
      refine Or.inr ⟨k, v, Finmap.ext_lookup fun k' => ?_⟩
      by_cases same : k' = k
      · rw [same, found, Finmap.lookup_singleton_eq]
      · rw [Finmap.lookup_eq_none.mpr, Finmap.lookup_eq_none.mpr]
        · rwa [Finmap.mem_singleton]
        · exact fun member =>
            same (Finset.mem_singleton.mp (inside (Finmap.mem_keys.mpr member)))

/-- What the discovery takes a reply for: when it passes over one, the tenant has no groups. -/
def Taken (reply : RulerReply) (reported : Option (List GroupSpec)) : Prop :=
  Conclusive reply reported ∨ Silent reply ∧ reported = none

theorem taken_or_detected (reply : RulerReply) (single : AtMostOneNamespace reply) :
    (∃ reported, Taken reply reported) ∨ Detected reply := by
  cases reply with
  | transportError => exact Or.inl ⟨none, Or.inr ⟨.transportError, rfl⟩⟩
  | response status body =>
      by_cases ok : status = 200
      · subst ok
        cases body with
        | none => exact Or.inl ⟨none, Or.inr ⟨.unreadable, rfl⟩⟩
        | some body =>
            obtain ⟨text, yaml⟩ := body
            cases yaml with
            | error e => exact Or.inr (.invalidYaml text e)
            | ok groups =>
                rcases empty_or_singleton (single text groups rfl) with rfl | ⟨ns, l, rfl⟩
                · exact Or.inl ⟨none, Or.inl (.noNamespace text)⟩
                · exact Or.inl ⟨some l, Or.inl (.groups text ns l)⟩
      by_cases notFound : status = 404
      · subst notFound
        cases body with
        | none => exact Or.inr .noText
        | some body =>
            by_cases text : Text.trim body.text = "no rule groups found"
            · exact Or.inl ⟨none, Or.inl (.noGroups body text)⟩
            · exact Or.inr (.wrongText body text)
      · exact Or.inr (.otherStatus status body ok notFound)

variable {tenantId : String} {reply : RulerReply} {result : TenantGroups}

def unindexed (groups : List GroupSpec) : List (GroupSpec × Int) := groups.map (·, -1)

def record (tenantId : String) (reported : Option (List GroupSpec)) (result : TenantGroups) :
    TenantGroups :=
  match reported with
  | some groups => result.insert tenantId (unindexed groups)
  | none => result

theorem lookup_record (reported : Option (List GroupSpec)) :
    (record tenantId reported result).lookup tenantId =
      (reported.map unindexed).or (result.lookup tenantId) := by
  cases reported <;> simp [record]

theorem lookup_record_other {t : String} (other : t ≠ tenantId)
    (reported : Option (List GroupSpec)) :
    (record tenantId reported result).lookup t = result.lookup t := by
  cases reported
  · rfl
  · exact Finmap.lookup_insert_of_ne _ other

theorem readReply_conclusive {reported : Option (List GroupSpec)}
    (conclusive : Conclusive reply reported) (namespaces : HashOrder String) (tenantId : String)
    (result : TenantGroups) :
    readReply namespaces tenantId reply result = (record tenantId reported result, false) := by
  cases conclusive with
  | noNamespace text => simp [readReply, record]
  | groups text ns groups =>
      have one : namespaces.iter (Finmap.singleton ns groups) = [(ns, groups)] := by
        simp [HashOrder.iter]
      simp [readReply, one, unindexed, record]
  | noGroups body text => simp [readReply, text, record]

theorem readReply_record (namespaces : HashOrder String) (tenantId : String) (reply : RulerReply) :
    ∃ reported failed, ∀ result,
      readReply namespaces tenantId reply result = (record tenantId reported result, failed) := by
  have inserts (l : List (String × List GroupSpec)) : ∃ reported, ∀ result : TenantGroups,
      l.foldl (fun result namespaceGroups =>
        result.insert tenantId (namespaceGroups.2.map fun group => (group, -1))) result =
        record tenantId reported result := by
    induction l using List.reverseRecOn with
    | nil => exact ⟨none, fun _ => rfl⟩
    | append_singleton front last ih =>
        obtain ⟨reported, before⟩ := ih
        refine ⟨some last.2, fun result => ?_⟩
        rw [List.foldl_append, before]
        cases reported with
        | none => rfl
        | some groups => exact Finmap.insert_insert _
  cases reply with
  | transportError => exact ⟨none, false, fun _ => rfl⟩
  | response status body =>
      unfold readReply
      dsimp only
      split_ifs with ok notFound text
      · cases body with
        | none => exact ⟨none, false, fun _ => rfl⟩
        | some body =>
            dsimp only
            cases body.yaml with
            | error e => exact ⟨none, true, fun _ => rfl⟩
            | ok groups =>
                dsimp only
                split_ifs
                · obtain ⟨reported, all⟩ := inserts (namespaces.iter groups)
                  exact ⟨reported, false, fun result => by rw [all]⟩
                · exact ⟨none, false, fun _ => rfl⟩
      · exact ⟨none, false, fun _ => rfl⟩
      · exact ⟨none, true, fun _ => rfl⟩
      · exact ⟨none, true, fun _ => rfl⟩

theorem readReply_taken {reported : Option (List GroupSpec)} (taken : Taken reply reported)
    (namespaces : HashOrder String) (tenantId : String) (result : TenantGroups) :
    readReply namespaces tenantId reply result = (record tenantId reported result, false) := by
  cases taken with
  | inl conclusive => exact readReply_conclusive conclusive namespaces tenantId result
  | inr silent =>
      obtain ⟨silent, rfl⟩ := silent
      cases silent <;> rfl

theorem readReply_detected (detected : Detected reply) (namespaces : HashOrder String)
    (tenantId : String) (result : TenantGroups) :
    readReply namespaces tenantId reply result = (result, true) := by
  cases detected with
  | invalidYaml text e => rfl
  | wrongText body text => simp [readReply, text]
  | noText => simp [readReply]; decide
  | otherStatus status body notOk notNotFound => simp [readReply, notOk, notNotFound]

theorem Taken.not_detected {reported : Option (List GroupSpec)} (taken : Taken reply reported) :
    ¬ Detected reply := by
  intro detected
  have reads := readReply_detected detected (HashOrder.sorted String) "" ∅
  rw [readReply_taken taken] at reads
  exact Bool.false_ne_true (congrArg Prod.snd reads)

variable {rulerClient : RulerClient σ} {url : String} {replies : String → RulerReply} {s : σ}
  {tenants : List String}

theorem discoverLoop_detected (namespaces : Nat → HashOrder String)
    (gets : ∀ t ∈ tenants, rulerClient.get url t s = some (replies t, s))
    (single : ∀ t ∈ tenants, AtMostOneNamespace (replies t))
    (detected : ∃ t ∈ tenants, Detected (replies t)) (result : TenantGroups) :
    ∃ result', discoverLoop rulerClient url namespaces tenants result s =
      some ((result', true), s) := by
  induction tenants generalizing result with
  | nil => simp at detected
  | cons t rest ih =>
      cases taken_or_detected (replies t) (single t (by simp)) with
      | inr here => exact ⟨result, by simp [discoverLoop, gets t (by simp), readReply_detected here]⟩
      | inl taken =>
          obtain ⟨reported, taken⟩ := taken
          have later : ∃ t' ∈ rest, Detected (replies t') := by
            obtain ⟨t', member, failed⟩ := detected
            cases List.mem_cons.mp member with
            | inl same =>
                subst same
                exact absurd failed taken.not_detected
            | inr member => exact ⟨t', member, failed⟩
          obtain ⟨result', run⟩ := ih (fun t' m => gets t' (by simp [m]))
            (fun t' m => single t' (by simp [m])) later (record t reported result)
          have read := readReply_taken taken (namespaces rest.length) t result
          exact ⟨result', by simp [discoverLoop, gets t (by simp), read, run]⟩

theorem discoverLoop_read (namespaces : Nat → HashOrder String)
    (gets : ∀ t ∈ tenants, rulerClient.get url t s = some (replies t, s))
    (nodup : tenants.Nodup) (result : TenantGroups) :
    ∃ result' failed, discoverLoop rulerClient url namespaces tenants result s =
        some ((result', failed), s) ∧
      (failed = false → (∀ t ∈ tenants, ¬ Detected (replies t) ∧ ∃ order,
          result'.lookup t = (readReply order t (replies t) result).1.lookup t) ∧
        ∀ t ∉ tenants, result'.lookup t = result.lookup t) := by
  induction tenants generalizing result with
  | nil => exact ⟨result, false, rfl, fun _ => ⟨by simp, fun _ _ => rfl⟩⟩
  | cons t rest ih =>
      obtain ⟨fresh, nodup⟩ := List.nodup_cons.mp nodup
      obtain ⟨reported, failed, read⟩ := readReply_record (namespaces rest.length) t (replies t)
      cases failed with
      | true =>
          exact ⟨record t reported result, true,
            by simp [discoverLoop, gets t (by simp), read], by simp⟩
      | false =>
          obtain ⟨result', failed, run, shown⟩ := ih (fun t' m => gets t' (by simp [m])) nodup
            (record t reported result)
          refine ⟨result', failed, by simp [discoverLoop, gets t (by simp), read, run], fun ok => ?_⟩
          obtain ⟨inside, outside⟩ := shown ok
          refine ⟨fun t' member => ?_, fun t' unlisted => ?_⟩
          · cases List.mem_cons.mp member with
            | inl same =>
                subst same
                refine ⟨fun detected => ?_, namespaces rest.length, by rw [outside t' fresh, read]⟩
                have flags := congrArg Prod.snd ((readReply_detected detected _ t' result).symm.trans
                  (read result))
                cases flags
            | inr later =>
                have other : t' ≠ t := fun same => fresh (same ▸ later)
                obtain ⟨undetected, order, found⟩ := inside t' later
                obtain ⟨reported', failed', read'⟩ := readReply_record order t' (replies t')
                refine ⟨undetected, order, ?_⟩
                rw [found, read', read', lookup_record, lookup_record, lookup_record_other other]
          · rw [List.mem_cons, not_or] at unlisted
            rw [outside t' unlisted.2, lookup_record_other unlisted.1]

theorem discoverLoop_reported (namespaces : Nat → HashOrder String)
    {reported : String → Option (List GroupSpec)}
    (gets : ∀ t ∈ tenants, rulerClient.get url t s = some (replies t, s))
    (reads : ∀ t ∈ tenants, ∀ result order,
      readReply order t (replies t) result = (record t (reported t) result, false))
    (result : TenantGroups) :
    ∃ result', discoverLoop rulerClient url namespaces tenants result s =
        some ((result', false), s) ∧
      ∀ t, result'.lookup t =
        if t ∈ tenants then ((reported t).map unindexed).or (result.lookup t)
        else result.lookup t := by
  induction tenants generalizing result with
  | nil => exact ⟨result, rfl, by simp⟩
  | cons t rest ih =>
      obtain ⟨result', run, lookups⟩ := ih (fun t' m => gets t' (by simp [m]))
        (fun t' m => reads t' (by simp [m])) (record t (reported t) result)
      refine ⟨result', by simp [discoverLoop, gets t (by simp), reads t (by simp), run], ?_⟩
      intro t'
      rw [lookups]
      by_cases same : t' = t
      · subst same
        rw [lookup_record, if_pos (List.mem_cons_self)]
        split_ifs
        · rw [← Option.or_assoc, Option.or_self]
        · rfl
      · simp [lookup_record_other same, same]

theorem discoverRulerRules_reported (namespaces : Nat → HashOrder String)
    {reported : String → Option (List GroupSpec)} {rulerApiUrl ns : String}
    (gets : ∀ t ∈ tenants, rulerClient.get (rulesUrl rulerApiUrl ns) t s = some (replies t, s))
    (reads : ∀ t ∈ tenants, ∀ result order,
      readReply order t (replies t) result = (record t (reported t) result, false)) :
    ∃ m, discoverRulerRules namespaces tenants rulerClient rulerApiUrl ns s = some (.ok m, s) ∧
      ∀ t, m.lookup t = if t ∈ tenants then (reported t).map unindexed else none := by
  obtain ⟨m, run, lookups⟩ := discoverLoop_reported namespaces gets reads ∅
  exact ⟨m, by simp [discoverRulerRules, run], fun t => by simp [lookups]⟩

theorem discoverRulerRules_read (namespaces : Nat → HashOrder String) {rulerApiUrl ns : String}
    (gets : ∀ t ∈ tenants, rulerClient.get (rulesUrl rulerApiUrl ns) t s = some (replies t, s))
    (nodup : tenants.Nodup) :
    (∃ e, discoverRulerRules namespaces tenants rulerClient rulerApiUrl ns s =
      some (.error e, s)) ∨
    ∃ r, discoverRulerRules namespaces tenants rulerClient rulerApiUrl ns s = some (.ok r, s) ∧
      ∀ t ∈ tenants, ¬ Detected (replies t) ∧
        ∃ order, r.lookup t = (readReply order t (replies t) ∅).1.lookup t := by
  obtain ⟨r, failed, run, shown⟩ := discoverLoop_read namespaces gets nodup ∅
  cases failed with
  | true => exact Or.inl ⟨"failed to retrieve rules", by simp [discoverRulerRules, run]⟩
  | false => exact Or.inr ⟨r, by simp [discoverRulerRules, run], (shown rfl).1⟩

theorem discoverRulerRules_detected (namespaces : Nat → HashOrder String) {rulerApiUrl ns : String}
    (gets : ∀ t ∈ tenants, rulerClient.get (rulesUrl rulerApiUrl ns) t s = some (replies t, s))
    (single : ∀ t ∈ tenants, AtMostOneNamespace (replies t))
    (detected : ∃ t ∈ tenants, Detected (replies t)) :
    discoverRulerRules namespaces tenants rulerClient rulerApiUrl ns s =
      some (.error "failed to retrieve rules", s) := by
  obtain ⟨m, run⟩ := discoverLoop_detected namespaces gets single detected ∅
  simp [discoverRulerRules, run]

theorem Conclusive.unique {first second : Option (List GroupSpec)}
    (left : Conclusive reply first) (right : Conclusive reply second) : first = second := by
  let order := HashOrder.sorted String
  have same : record "" first ∅ = record "" second ∅ :=
    congrArg Prod.fst ((readReply_conclusive left order "" ∅).symm.trans
      (readReply_conclusive right order "" ∅))
  have lookups := congrArg (Finmap.lookup "") same
  simp only [lookup_record, Finmap.lookup_empty, Option.or_none] at lookups
  have injective : Function.Injective unindexed :=
    List.map_injective_iff.mpr fun _ _ same => congrArg Prod.fst same
  exact Option.map_injective injective lookups

theorem Conclusive.not_silent {reported : Option (List GroupSpec)}
    (conclusive : Conclusive reply reported) : ¬ Silent reply := by
  intro silent
  cases silent <;> cases conclusive

def AllOrNothing (tenants : List String) (replies : String → RulerReply)
    (result : Except String TenantGroups) : Prop :=
  ((∃ m, result = .ok m) ↔ ∀ t ∈ tenants, ∃ reported, Conclusive (replies t) reported) ∧
    ∀ m, result = .ok m →
      (∀ t ∈ tenants, ∀ reported, Conclusive (replies t) reported →
        m.lookup t = reported.map unindexed) ∧ ∀ t ∉ tenants, t ∉ m

def answering (replies : String → RulerReply) (rulerClient : RulerClient σ) : RulerClient σ :=
  { rulerClient with get := fun _ t s => some (replies t, s) }

theorem exists_taken (single : ∀ t ∈ tenants, AtMostOneNamespace (replies t))
    (undetected : ¬ ∃ t ∈ tenants, Detected (replies t)) :
    ∃ reported : String → Option (List GroupSpec), ∀ t ∈ tenants,
      Taken (replies t) (reported t) := by
  have each : ∀ t, ∃ reported, t ∈ tenants → Taken (replies t) reported := by
    intro t
    by_cases member : t ∈ tenants
    · cases taken_or_detected (replies t) (single t member) with
      | inl taken => exact taken.imp fun _ taken _ => taken
      | inr failed => exact absurd ⟨t, member, failed⟩ undetected
    · exact ⟨none, fun h => absurd h member⟩
  choose reported taken using each
  exact ⟨reported, taken⟩

theorem discoverRulerRules_allOrNothing (namespaces : Nat → HashOrder String) (tenants : List String)
    (replies : String → RulerReply) (single : ∀ t ∈ tenants, AtMostOneNamespace (replies t))
    (rulerClient : RulerClient σ) (rulerApiUrl ns : String) (s : σ) :
    ∃ result, discoverRulerRules namespaces tenants (answering replies rulerClient) rulerApiUrl ns s =
        some (result, s) ∧
      (AllOrNothing tenants replies result ↔
        (∃ t ∈ tenants, Detected (replies t)) ∨ ∀ t ∈ tenants, ¬ Silent (replies t)) := by
  have gets : ∀ t ∈ tenants, (answering replies rulerClient).get (rulesUrl rulerApiUrl ns) t s =
      some (replies t, s) := fun _ _ => rfl
  by_cases detected : ∃ t ∈ tenants, Detected (replies t)
  · refine ⟨_, discoverRulerRules_detected namespaces gets single detected,
      iff_of_true ?_ (Or.inl detected)⟩
    obtain ⟨t, member, failed⟩ := detected
    refine ⟨iff_of_false (by simp) fun conclusive => ?_, by simp⟩
    obtain ⟨reported, settled⟩ := conclusive t member
    exact Taken.not_detected (Or.inl settled) failed
  obtain ⟨reported, taken⟩ := exists_taken single detected
  obtain ⟨m, run, lookups⟩ := discoverRulerRules_reported namespaces gets
    fun t member result order => readReply_taken (taken t member) order t result
  refine ⟨_, run, ?_⟩
  constructor
  · intro complete
    rcases complete with ⟨conclusive, -⟩
    apply Or.inr
    intro t member silent
    obtain ⟨_, settled⟩ := conclusive.mp ⟨m, rfl⟩ t member
    exact settled.not_silent silent
  · intro condition
    have silence := condition.resolve_left detected
    have settled : ∀ t ∈ tenants, Conclusive (replies t) (reported t) := fun t member =>
      (taken t member).resolve_right fun h => silence t member h.1
    refine ⟨iff_of_true ⟨m, rfl⟩ fun t member => ⟨_, settled t member⟩, ?_⟩
    intro m' same
    obtain rfl := Except.ok.inj same
    constructor
    · intro t member r reports
      rw [lookups, if_pos member, (settled t member).unique reports]
    · intro t notAsked
      rw [← Finmap.lookup_eq_none, lookups, if_neg notAsked]

theorem discoverRulerRules_second_fails :
    let group : GroupSpec := { name := "g", interval := none, rules := [] }
    let replies (t : String) : RulerReply :=
      if t = "a" then .response 200 (some ⟨"", .ok (Finmap.singleton "default" [group])⟩)
      else .response 500 (some ⟨"", .ok ∅⟩)
    let ruler : RulerClient Unit :=
      { get := fun _ _ => pure .transportError
        post := fun _ _ _ => pure .transportError
        delete := fun _ _ => pure .transportError }
    (∀ t ∈ ["a", "b"], AtMostOneNamespace (replies t)) ∧ Detected (replies "b") ∧
    ∃ result, discoverRulerRules (fun _ => .sorted String) ["a", "b"] (answering replies ruler)
        "http://ruler/" "default" () = some (result, ()) ∧
      (AllOrNothing ["a", "b"] replies result ↔
        (∃ t ∈ ["a", "b"], Detected (replies t)) ∨ ∀ t ∈ ["a", "b"], ¬ Silent (replies t)) := by
  intro group replies ruler
  have single : ∀ t ∈ ["a", "b"], AtMostOneNamespace (replies t) := by
    intro t _ text groups reply
    by_cases first : t = "a"
    · simp only [replies, if_pos first, RulerReply.response.injEq, Option.some.injEq,
        Body.mk.injEq, Except.ok.injEq, true_and] at reply
      rw [← reply.2, Finmap.keys_singleton, Finset.card_singleton]
    · simp only [replies, if_neg first, RulerReply.response.injEq] at reply
      exact absurd reply.1 (by decide)
  exact ⟨single, .otherStatus 500 _ (by decide) (by decide),
    discoverRulerRules_allOrNothing (fun _ => .sorted String) ["a", "b"] replies single
      ruler "http://ruler/" "default" ()⟩

theorem allOrNothing_fails_transport :
    ∃ m, (discoverRulerRules (fun _ => .sorted String) ["a"]
        (answering (fun _ => .transportError)
          { get := fun _ _ => pure .transportError
            post := fun _ _ _ => pure .transportError
            delete := fun _ _ => pure .transportError }) "http://ruler/" "default" ()) =
        some (.ok m, ()) ∧ ¬ AllOrNothing ["a"] (fun _ => .transportError) (.ok m) := by
  refine ⟨∅, rfl, fun all => ?_⟩
  obtain ⟨_, settled⟩ := all.1.mp ⟨∅, rfl⟩ "a" (by simp)
  cases settled

end OpenMetrics.Informer
