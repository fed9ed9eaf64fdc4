import OpenMetrics.Library.Act
import OpenMetrics.Library.HashOrder
import Mathlib.Data.UInt

/-! `proxy/src/controller/controller.rs` -/

namespace OpenMetrics.Proxy
open Library

variable {κ : Type}

structure IngestionTenantController (κ : Type) where
  k8sClient : Option κ
  k8sPollMs : UInt64
  initialTenants : Finset String
  tenants : Finset String
  tenantsVec : List String
  namespace_ : String
  stopping : Option Bool

namespace IngestionTenantController

def new (variable_ : Option String) : IngestionTenantController κ where
  k8sClient := none
  k8sPollMs := 0
  initialTenants := ∅
  tenants := ∅
  tenantsVec := []
  namespace_ := variable_.getD "default"
  stopping := none

def clean (c : IngestionTenantController κ) : IngestionTenantController κ :=
  { c with initialTenants := ∅, tenants := ∅, tenantsVec := [], stopping := none }

def setK8sPollDelay (c : IngestionTenantController κ) (k8sPollMs : UInt64) :
    IngestionTenantController κ :=
  { c with k8sPollMs := k8sPollMs }

def setInitialAllowedTenants (order : HashOrder String) (c : IngestionTenantController κ)
    (initialAllowedTenants : List String) : IngestionTenantController κ :=
  let initialTenants := initialAllowedTenants.foldl (fun set t => insert t set) c.initialTenants
  { c with
    initialTenants := initialTenants
    tenantsVec := c.tenantsVec ++ order.keys initialTenants }

def addTenant (c : IngestionTenantController κ) (tenantId : String) :
    IngestionTenantController κ :=
  if tenantId ∉ c.initialTenants then
    if tenantId ∉ c.tenants then
      { c with
        tenantsVec := c.tenantsVec ++ [tenantId]
        tenants := insert tenantId c.tenants }
    else c
  else c

/-- The loop of `remove_tenant` that looks for a position, with its `u32` counter. -/
def findPosition (tenantId : String) (tenantsVec : List String) : Option UInt32 × UInt32 :=
  tenantsVec.foldl (fun acc tid => (if tid = tenantId then some acc.2 else acc.1, acc.2 + 1))
    (none, 0)

def removeTenant (c : IngestionTenantController κ) (tenantId : String) :
    IngestionTenantController κ :=
  if tenantId ∈ c.initialTenants then c
  else if tenantId ∉ c.tenants then c
  else
    let tenantsVec := match (findPosition tenantId c.tenantsVec).1 with
      | some idx => c.tenantsVec.eraseIdx idx.toNat
      | none => c.tenantsVec
    { c with tenantsVec := tenantsVec, tenants := c.tenants.erase tenantId }

def observeAdded (order : HashOrder String) (c : IngestionTenantController κ)
    (foundTenants : Finset String) : IngestionTenantController κ :=
  (order.keys foundTenants).foldl (fun c tenantId =>
    if tenantId ∉ c.initialTenants then
      if tenantId ∉ c.tenants then c.addTenant tenantId else c
    else c) c

def observeRemoved (order : HashOrder String) (c : IngestionTenantController κ)
    (foundTenants : Finset String) : IngestionTenantController κ :=
  (order.keys c.tenants).foldl (fun c tenantId =>
    if tenantId ∉ foundTenants then c.removeTenant tenantId else c) c

def observe (found existing : HashOrder String) (c : IngestionTenantController κ)
    (foundTenants : Finset String) : IngestionTenantController κ :=
  (c.observeAdded found foundTenants).observeRemoved existing foundTenants

def getTenants (c : IngestionTenantController κ) : List String := c.tenantsVec

def initK8s (c : IngestionTenantController κ) (cli : Option κ) : IngestionTenantController κ :=
  if cli.isSome then { c with k8sClient := cli } else c

end IngestionTenantController

open IngestionTenantController

def controllerIteration {σ : Type}
    (getTenantIds : κ → String → Act σ (Except String (Finset String)))
    (found existing : HashOrder String) (ctrl : IngestionTenantController κ) :
    Act σ (Bool × IngestionTenantController κ) :=
  if ctrl.stopping.isSome then pure (true, ctrl)
  else do
    let cli ← Act.unwrap ctrl.k8sClient
    match ← getTenantIds cli ctrl.namespace_ with
    | .ok foundTenants => pure (false, ctrl.observe found existing foundTenants)
    | .error _ => pure (false, ctrl)

theorem findPosition_absent {tenantId : String} {tenantsVec : List String}
    (absent : tenantId ∉ tenantsVec) (idx : Option UInt32) (ctr : UInt32) :
    (tenantsVec.foldl (fun acc tid =>
      (if tid = tenantId then some acc.2 else acc.1, acc.2 + 1)) (idx, ctr)).1 = idx := by
  induction tenantsVec generalizing ctr with
  | nil => rfl
  | cons tid rest ih =>
      rw [List.mem_cons, not_or] at absent
      rw [List.foldl_cons, if_neg (Ne.symm absent.1)]
      exact ih absent.2 _

theorem findPosition_counter (tenantId : String) (tenantsVec : List String) (idx : Option UInt32)
    (n : Nat) :
    (tenantsVec.foldl (fun acc tid =>
      (if tid = tenantId then some acc.2 else acc.1, acc.2 + 1)) (idx, UInt32.ofNat n)).2 =
      UInt32.ofNat (n + tenantsVec.length) := by
  induction tenantsVec generalizing idx n with
  | nil => rfl
  | cons tid rest ih =>
      have next : UInt32.ofNat n + 1 = UInt32.ofNat (n + 1) := by simp [UInt32.ofNat_add]
      rw [List.foldl_cons, next, ih, List.length_cons, Nat.add_right_comm, Nat.add_assoc]

theorem findPosition_last {tenantId : String} (front rest : List String) (last : tenantId ∉ rest) :
    (findPosition tenantId (front ++ tenantId :: rest)).1 = some (UInt32.ofNat front.length) := by
  have counted := findPosition_counter tenantId front none 0
  rw [findPosition, List.foldl_append, List.foldl_cons, if_pos rfl, findPosition_absent last]
  rw [Nat.zero_add] at counted
  exact congrArg some counted

theorem tenantsVec_removed {tenantId : String} {tenantsVec : List String}
    (once : tenantsVec.count tenantId = 1) (near : tenantId ∈ tenantsVec.take (2 ^ 32)) :
    (match (findPosition tenantId tenantsVec).1 with
      | some idx => tenantsVec.eraseIdx idx.toNat
      | none => tenantsVec) = tenantsVec.erase tenantId := by
  obtain ⟨i, inside, here⟩ := List.mem_iff_getElem.mp near
  rw [List.getElem_take] at here
  rw [List.length_take] at inside
  have split : tenantsVec = tenantsVec.take i ++ tenantId :: tenantsVec.drop (i + 1) := by
    rw [← here, List.getElem_cons_drop, List.take_append_drop]
  have length : (tenantsVec.take i).length = i := by
    rw [List.length_take]
    omega
  generalize tenantsVec.take i = front at split length
  generalize tenantsVec.drop (i + 1) = rest at split
  subst split
  have apart : tenantId ∉ front ∧ tenantId ∉ rest := by
    rw [List.count_append, List.count_cons_self] at once
    constructor <;> exact List.count_eq_zero.mp (by omega)
  have position : (UInt32.ofNat front.length).toNat = front.length := by
    rw [UInt32.toNat_ofNat', Nat.mod_eq_of_lt (by omega)]
  rw [findPosition_last front rest apart.2, List.erase_append_right _ apart.1,
    List.erase_cons_head]
  simp only [position]
  rw [List.eraseIdx_append_of_length_le (le_refl _), Nat.sub_self, List.eraseIdx_cons_zero]

namespace IngestionTenantController

structure Coherent (c : IngestionTenantController κ) : Prop where
  initial_listed : ∀ t ∈ c.initialTenants, t ∈ c.tenantsVec
  observed_count : ∀ t ∉ c.initialTenants, c.tenantsVec.count t = if t ∈ c.tenants then 1 else 0

theorem Coherent.mem_tenantsVec {c : IngestionTenantController κ} (h : c.Coherent) {t : String} :
    t ∈ c.tenantsVec ↔ t ∈ c.initialTenants ∨ t ∈ c.tenants := by
  by_cases initial : t ∈ c.initialTenants
  · simp [initial, h.initial_listed t initial]
  · rw [← List.count_pos_iff, h.observed_count t initial]
    by_cases observed : t ∈ c.tenants <;> simp [initial, observed]

theorem Coherent.toFinset_tenantsVec {c : IngestionTenantController κ} (h : c.Coherent) :
    c.tenantsVec.toFinset = c.initialTenants ∪ c.tenants := by
  ext t
  rw [List.mem_toFinset, h.mem_tenantsVec, Finset.mem_union]

def Edits (c c' : IngestionTenantController κ) : Prop :=
  c' = { c with tenantsVec := c'.tenantsVec, tenants := c'.tenants }

theorem Edits.refl (c : IngestionTenantController κ) : Edits c c := rfl

theorem Edits.trans {c c' c'' : IngestionTenantController κ} (first : Edits c c')
    (second : Edits c' c'') : Edits c c'' := by
  rw [Edits] at first second ⊢
  rw [second, first]

theorem Edits.initialTenants {c c' : IngestionTenantController κ} (h : Edits c c') :
    c'.initialTenants = c.initialTenants := by rw [h]

theorem Edits.k8sClient {c c' : IngestionTenantController κ} (h : Edits c c') :
    c'.k8sClient = c.k8sClient := by rw [h]

theorem Edits.stopping {c c' : IngestionTenantController κ} (h : Edits c c') :
    c'.stopping = c.stopping := by rw [h]

theorem edits_foldl {step : IngestionTenantController κ → String → IngestionTenantController κ}
    (edits : ∀ c t, Edits c (step c t)) (l : List String) (c : IngestionTenantController κ) :
    Edits c (l.foldl step c) := by
  induction l generalizing c with
  | nil => exact .refl c
  | cons t rest ih => exact (edits c t).trans (ih (step c t))

theorem addTenant_new {c : IngestionTenantController κ} {t : String}
    (notInitial : t ∉ c.initialTenants) (notObserved : t ∉ c.tenants) :
    c.addTenant t =
      { c with tenantsVec := c.tenantsVec ++ [t], tenants := insert t c.tenants } := by
  rw [addTenant, if_pos notInitial, if_pos notObserved]

theorem addTenant_known {c : IngestionTenantController κ} {t : String}
    (known : t ∈ c.initialTenants ∨ t ∈ c.tenants) : c.addTenant t = c := by
  rw [addTenant]
  cases known with
  | inl initial => rw [if_neg (not_not.mpr initial)]
  | inr observed => rw [if_neg (not_not.mpr observed), ite_self]

theorem new_or_known (c : IngestionTenantController κ) (t : String) :
    (t ∉ c.initialTenants ∧ t ∉ c.tenants) ∨ (t ∈ c.initialTenants ∨ t ∈ c.tenants) := by
  rw [← not_or]
  exact (em _).symm

theorem addTenant_edits (c : IngestionTenantController κ) (t : String) :
    Edits c (c.addTenant t) := by
  cases new_or_known c t with
  | inl new => rw [addTenant_new new.1 new.2]; rfl
  | inr known => rw [addTenant_known known]; rfl

theorem mem_tenants_addTenant {c : IngestionTenantController κ} {t t' : String} :
    t' ∈ (c.addTenant t).tenants ↔ t' ∈ c.tenants ∨ t' = t ∧ t ∉ c.initialTenants := by
  cases new_or_known c t with
  | inl new => simp [addTenant_new new.1 new.2, new.1, or_comm]
  | inr known =>
      rw [addTenant_known known]
      refine ⟨Or.inl, fun h => h.elim id ?_⟩
      intro added
      rcases added with ⟨rfl, notInitial⟩
      exact known.resolve_left notInitial

theorem Coherent.addTenant {c : IngestionTenantController κ} (h : c.Coherent) (t : String) :
    (c.addTenant t).Coherent := by
  cases new_or_known c t with
  | inl new =>
      rw [addTenant_new new.1 new.2]
      constructor
      · intro t' initial
        exact List.mem_append_left _ (h.initial_listed t' initial)
      · intro t' notInitial
        have before := h.observed_count t' notInitial
        by_cases same : t' = t
        · subst same
          simp [List.count_append, before, new.2]
        · simp [List.count_append, before, same, Ne.symm same]
  | inr known => rwa [addTenant_known known]

theorem nodup_addTenant {c : IngestionTenantController κ} (h : c.Coherent)
    (nodup : c.tenantsVec.Nodup) (t : String) : (c.addTenant t).tenantsVec.Nodup := by
  cases new_or_known c t with
  | inl new =>
      have fresh : t ∉ c.tenantsVec := fun listed =>
        (h.mem_tenantsVec.mp listed).elim new.1 new.2
      rw [addTenant_new new.1 new.2]
      simpa [List.concat_eq_append] using nodup.concat fresh
  | inr known => rwa [addTenant_known known]

theorem addTenants_spec (l : List String) {c : IngestionTenantController κ} (h : c.Coherent) :
    (l.foldl addTenant c).Coherent ∧
      (c.tenantsVec.Nodup → (l.foldl addTenant c).tenantsVec.Nodup) ∧
      ∀ t, t ∈ (l.foldl addTenant c).tenants ↔ t ∈ c.tenants ∨ t ∈ l ∧ t ∉ c.initialTenants := by
  induction l generalizing c with
  | nil => exact ⟨h, id, by simp⟩
  | cons tenantId rest ih =>
      obtain ⟨coherent, nodup, members⟩ := ih (h.addTenant tenantId)
      refine ⟨coherent, fun n => nodup (nodup_addTenant h n tenantId),
        fun t => (members t).trans ?_⟩
      rw [mem_tenants_addTenant, (addTenant_edits c tenantId).initialTenants, List.mem_cons]
      constructor
      · intro either
        rcases either with (old | ⟨rfl, new⟩) | ⟨later, new⟩
        · exact Or.inl old
        · exact Or.inr ⟨Or.inl rfl, new⟩
        · exact Or.inr ⟨Or.inr later, new⟩
      · intro either
        rcases either with old | ⟨rfl | later, new⟩
        · exact Or.inl (Or.inl old)
        · exact Or.inl (Or.inr ⟨rfl, new⟩)
        · exact Or.inr ⟨later, new⟩

theorem observeAdded_eq (order : HashOrder String) (c : IngestionTenantController κ)
    (foundTenants : Finset String) :
    c.observeAdded order foundTenants = (order.keys foundTenants).foldl addTenant c := by
  unfold observeAdded
  congr 1
  funext c tenantId
  -- both tests of `observe` are made again by `add_tenant`
  cases new_or_known c tenantId with
  | inl new => rw [if_pos new.1, if_pos new.2]
  | inr known => rw [addTenant_known known, ite_self, ite_self]

theorem observeAdded_edits (order : HashOrder String) (c : IngestionTenantController κ)
    (foundTenants : Finset String) : Edits c (c.observeAdded order foundTenants) := by
  rw [observeAdded_eq]
  exact edits_foldl addTenant_edits _ c

theorem observeAdded_spec (order : HashOrder String) {c : IngestionTenantController κ}
    (h : c.Coherent) (foundTenants : Finset String) :
    (c.observeAdded order foundTenants).Coherent ∧
      (c.tenantsVec.Nodup → (c.observeAdded order foundTenants).tenantsVec.Nodup) ∧
      ∀ t, t ∈ (c.observeAdded order foundTenants).tenants ↔
        t ∈ c.tenants ∨ t ∈ foundTenants ∧ t ∉ c.initialTenants := by
  rw [observeAdded_eq]
  simpa using addTenants_spec (order.keys foundTenants) h

theorem addTenants_count_initial (l : List String) {c : IngestionTenantController κ} {t : String}
    (initial : t ∈ c.initialTenants) :
    (l.foldl addTenant c).tenantsVec.count t = c.tenantsVec.count t := by
  induction l generalizing c with
  | nil => rfl
  | cons tenantId rest ih =>
      rw [List.foldl_cons, ih ((addTenant_edits c tenantId).initialTenants ▸ initial)]
      cases new_or_known c tenantId with
      | inl new =>
          have other : tenantId ≠ t := fun same => new.1 (same ▸ initial)
          simp [addTenant_new new.1 new.2, List.count_append, other]
      | inr known => rw [addTenant_known known]

theorem observeAdded_extends (order : HashOrder String) (c : IngestionTenantController κ)
    (foundTenants : Finset String) :
    c.tenantsVec <+: (c.observeAdded order foundTenants).tenantsVec := by
  rw [observeAdded_eq]
  refine List.foldlRecOn (motive := fun c' : IngestionTenantController κ =>
    c.tenantsVec <+: c'.tenantsVec) _ _ (List.prefix_refl _) fun c' before t _ => before.trans ?_
  cases new_or_known c' t with
  | inl new =>
      rw [addTenant_new new.1 new.2]
      exact List.prefix_append _ _
  | inr known => rw [addTenant_known known]

theorem removeTenant_kept {c : IngestionTenantController κ} {t : String}
    (kept : t ∈ c.initialTenants ∨ t ∉ c.tenants) : c.removeTenant t = c := by
  rw [removeTenant]
  cases kept with
  | inl initial => rw [if_pos initial]
  | inr notObserved => rw [if_pos notObserved, ite_self]

theorem observed_or_kept (c : IngestionTenantController κ) (t : String) :
    (t ∉ c.initialTenants ∧ t ∈ c.tenants) ∨ (t ∈ c.initialTenants ∨ t ∉ c.tenants) := by
  by_cases initial : t ∈ c.initialTenants <;> by_cases observed : t ∈ c.tenants <;>
    simp [initial, observed]

theorem removeTenant_edits (c : IngestionTenantController κ) (t : String) :
    Edits c (c.removeTenant t) := by
  unfold removeTenant
  split_ifs <;> rfl

theorem mem_tenants_removeTenant {c : IngestionTenantController κ} {t t' : String} :
    t' ∈ (c.removeTenant t).tenants ↔ t' ∈ c.tenants ∧ (t' = t → t ∈ c.initialTenants) := by
  cases observed_or_kept c t with
  | inl gone =>
      rw [removeTenant, if_neg gone.1, if_neg (not_not.mpr gone.2)]
      simp [gone.1, and_comm]
  | inr kept =>
      rw [removeTenant_kept kept]
      refine ⟨fun member => ⟨member, ?_⟩, And.left⟩
      intro same
      obtain rfl := same
      exact kept.resolve_right (not_not.mpr member)

/-- The tenants that are going to be removed stand where the `u32` counter finds them. -/
def Near (c : IngestionTenantController κ) (l : List String) : Prop :=
  ∀ t ∈ l, t ∉ c.initialTenants → t ∈ c.tenants → t ∈ c.tenantsVec.take (2 ^ 32)

theorem mem_take_erase {t t' : String} {l : List String} {n : Nat} (member : t ∈ l.take n)
    (other : t ≠ t') : t ∈ (l.erase t').take n := by
  have kept : t ∈ (l.take n).erase t' := (List.mem_erase_of_ne other).mpr member
  have before : (l.take n).erase t' <+: l.erase t' := by
    conv_rhs => rw [← List.take_append_drop n l]
    by_cases early : t' ∈ l.take n
    · rw [List.erase_append_left _ early]
      exact List.prefix_append _ _
    · rw [List.erase_append_right _ early, List.erase_of_not_mem early]
      exact List.prefix_append _ _
  have size : ((l.take n).erase t').length ≤ n :=
    List.erase_sublist.length_le.trans (List.length_take_le n l)
  rw [List.prefix_iff_eq_take] at before
  rw [before] at kept
  exact (List.take_subset_take_left _ size) kept

theorem removeTenant_observed {c : IngestionTenantController κ} (h : c.Coherent) {t : String}
    (notInitial : t ∉ c.initialTenants) (observed : t ∈ c.tenants)
    (near : t ∈ c.tenantsVec.take (2 ^ 32)) :
    c.removeTenant t =
      { c with tenantsVec := c.tenantsVec.erase t, tenants := c.tenants.erase t } := by
  have once : c.tenantsVec.count t = 1 := by simp [h.observed_count t notInitial, observed]
  rw [removeTenant, if_neg notInitial, if_neg (not_not.mpr observed)]
  simp only [tenantsVec_removed once near]

theorem Coherent.removeTenant {c : IngestionTenantController κ} (h : c.Coherent) {t : String}
    {rest : List String} (near : c.Near (t :: rest)) :
    (c.removeTenant t).Coherent ∧ (c.removeTenant t).tenantsVec.Sublist c.tenantsVec ∧
      (∀ t' ∈ c.initialTenants, (c.removeTenant t).tenantsVec.count t' = c.tenantsVec.count t') ∧
      (c.removeTenant t).Near rest := by
  cases observed_or_kept c t with
  | inl gone =>
      rw [removeTenant_observed h gone.1 gone.2 (near t (by simp) gone.1 gone.2)]
      have other : ∀ t' ∈ c.initialTenants, t' ≠ t := fun t' initial same => gone.1 (same ▸ initial)
      refine ⟨⟨?_, ?_⟩, List.erase_sublist, ?_, ?_⟩
      · intro t' initial
        exact (List.mem_erase_of_ne (other t' initial)).mpr (h.initial_listed t' initial)
      · intro t' notInitial
        have before := h.observed_count t' notInitial
        by_cases same : t' = t
        · subst same
          simp [List.count_erase_self, before, gone.2]
        · simp [List.count_erase_of_ne same, before, same]
      · exact fun t' initial => List.count_erase_of_ne (other t' initial)
      · intro t' later notInitial observed
        obtain ⟨apart, observed'⟩ := Finset.mem_erase.mp observed
        exact mem_take_erase (near t' (by simp [later]) notInitial observed') apart
  | inr kept =>
      rw [removeTenant_kept kept]
      exact ⟨h, List.Sublist.refl _, fun _ _ => rfl, fun t' later => near t' (by simp [later])⟩

theorem removeTenants_spec {l : List String} {c : IngestionTenantController κ} (h : c.Coherent)
    (near : c.Near l) :
    (l.foldl removeTenant c).Coherent ∧
      (l.foldl removeTenant c).tenantsVec.Sublist c.tenantsVec ∧
      (∀ t ∈ c.initialTenants,
        (l.foldl removeTenant c).tenantsVec.count t = c.tenantsVec.count t) ∧
      ∀ t, t ∈ (l.foldl removeTenant c).tenants ↔
        t ∈ c.tenants ∧ (t ∈ l → t ∈ c.initialTenants) := by
  induction l generalizing c with
  | nil => exact ⟨h, List.Sublist.refl _, fun _ _ => rfl, by simp⟩
  | cons tenantId rest ih =>
      obtain ⟨coherent', sublist', counts', near'⟩ := h.removeTenant near
      obtain ⟨coherent, sublist, counts, members⟩ := ih coherent' near'
      have settings := (removeTenant_edits c tenantId).initialTenants
      refine ⟨coherent, sublist.trans sublist', fun t initial => ?_, fun t => (members t).trans ?_⟩
      · exact (counts t (settings ▸ initial)).trans (counts' t initial)
      · rw [mem_tenants_removeTenant, settings, List.mem_cons]
        constructor
        · intro stays
          rcases stays with ⟨⟨old, this⟩, kept⟩
          exact ⟨old, fun member => member.elim (fun same => same ▸ this same) kept⟩
        · intro stays
          rcases stays with ⟨old, kept⟩
          exact ⟨⟨old, fun same => same ▸ kept (.inl same)⟩, fun later => kept (.inr later)⟩

theorem observeRemoved_eq (order : HashOrder String) (c : IngestionTenantController κ)
    (foundTenants : Finset String) :
    c.observeRemoved order foundTenants =
      ((order.keys c.tenants).filter fun t => t ∉ foundTenants).foldl removeTenant c := by
  simp only [observeRemoved, List.foldl_filter, decide_eq_true_eq]

theorem observeRemoved_edits (order : HashOrder String) (c : IngestionTenantController κ)
    (foundTenants : Finset String) : Edits c (c.observeRemoved order foundTenants) := by
  rw [observeRemoved_eq]
  exact edits_foldl removeTenant_edits _ c

theorem observeRemoved_spec (order : HashOrder String) {c : IngestionTenantController κ}
    (h : c.Coherent) {foundTenants : Finset String}
    (near : c.Near ((order.keys c.tenants).filter fun t => t ∉ foundTenants)) :
    (c.observeRemoved order foundTenants).Coherent ∧
      (c.observeRemoved order foundTenants).tenantsVec.Sublist c.tenantsVec ∧
      (∀ t ∈ c.initialTenants,
        (c.observeRemoved order foundTenants).tenantsVec.count t = c.tenantsVec.count t) ∧
      ∀ t, t ∈ (c.observeRemoved order foundTenants).tenants ↔
        t ∈ c.tenants ∧ (t ∈ foundTenants ∨ t ∈ c.initialTenants) := by
  obtain ⟨coherent, sublist, counts, members⟩ := removeTenants_spec h near
  rw [observeRemoved_eq]
  refine ⟨coherent, sublist, counts, fun t => (members t).trans ?_⟩
  rw [List.mem_filter, HashOrder.mem_keys_iff, decide_eq_true_eq]
  by_cases found : t ∈ foundTenants <;> simp +contextual [found]

theorem observe_edits (found existing : HashOrder String) (c : IngestionTenantController κ)
    (foundTenants : Finset String) : Edits c (c.observe found existing foundTenants) :=
  (observeAdded_edits found c foundTenants).trans (observeRemoved_edits existing _ foundTenants)

theorem observeAdded_near (found existing : HashOrder String) {c : IngestionTenantController κ}
    (h : c.Coherent) (foundTenants : Finset String) (short : c.tenantsVec.length ≤ 2 ^ 32) :
    (c.observeAdded found foundTenants).Near
      ((existing.keys (c.observeAdded found foundTenants).tenants).filter
        fun t => t ∉ foundTenants) := by
  obtain ⟨-, -, members⟩ := observeAdded_spec found h foundTenants
  intro t leaves notInitial observed
  rw [List.mem_filter, decide_eq_true_eq] at leaves
  -- what leaves was there before, in front of what was added
  have before : t ∈ c.tenants := ((members t).mp observed).resolve_right fun new => leaves.2 new.1
  have listed : t ∈ c.tenantsVec := h.mem_tenantsVec.mpr (Or.inr before)
  rw [List.prefix_iff_eq_take.mp (observeAdded_extends found c foundTenants)] at listed
  exact List.take_subset_take_left _ short listed

theorem observe_spec (found existing : HashOrder String) {c : IngestionTenantController κ}
    (h : c.Coherent) (foundTenants : Finset String) (short : c.tenantsVec.length ≤ 2 ^ 32) :
    (c.observe found existing foundTenants).Coherent ∧
      (c.tenantsVec.Nodup → (c.observe found existing foundTenants).tenantsVec.Nodup) ∧
      (∀ t ∈ c.initialTenants, (c.observe found existing foundTenants).tenantsVec.count t =
        c.tenantsVec.count t) ∧
      ∀ t ∉ c.initialTenants,
        t ∈ (c.observe found existing foundTenants).tenants ↔ t ∈ foundTenants := by
  obtain ⟨coherent₁, nodup₁, members₁⟩ := observeAdded_spec found h foundTenants
  obtain ⟨coherent₂, sublist₂, counts₂, members₂⟩ :=
    observeRemoved_spec existing coherent₁ (observeAdded_near found existing h foundTenants short)
  have settings := (observeAdded_edits found c foundTenants).initialTenants
  refine ⟨coherent₂, fun nodup => sublist₂.nodup (nodup₁ nodup), fun t initial => ?_, ?_⟩
  · rw [observe, counts₂ t (settings ▸ initial), observeAdded_eq]
    exact addTenants_count_initial _ initial
  · intro t notInitial
    rw [observe, members₂, members₁, settings]
    simp only [notInitial, not_false_eq_true, and_true, or_false]
    exact ⟨And.right, fun f => ⟨Or.inr f, f⟩⟩

theorem mem_removeTenant_wrapped {c : IngestionTenantController κ} {t : String}
    (notInitial : t ∉ c.initialTenants) (observed : t ∈ c.tenants) {front : List String}
    (last : c.tenantsVec = front ++ [t]) (long : 2 ^ 32 ≤ front.length) :
    t ∈ (c.removeTenant t).tenantsVec := by
  have position := findPosition_last front [] (List.not_mem_nil (a := t))
  rw [removeTenant, if_neg notInitial, if_neg (not_not.mpr observed)]
  simp only [last, position, UInt32.toNat_ofNat']
  have wrapped : front.length % 2 ^ 32 < front.length :=
    (Nat.mod_lt _ (Nat.two_pow_pos 32)).trans_le long
  rw [List.eraseIdx_append_of_lt_length wrapped]
  exact List.mem_append_right _ (List.mem_singleton_self t)

theorem observeAdded_subset (order : HashOrder String) {c : IngestionTenantController κ}
    {foundTenants : Finset String} (known : foundTenants ⊆ c.tenants) :
    c.observeAdded order foundTenants = c := by
  rw [observeAdded_eq]
  refine List.foldlRecOn (motive := fun c' => c' = c) _ _ rfl fun c' same t member => ?_
  rw [same]
  exact addTenant_known (Or.inr (known (order.mem_keys_iff.mp member)))

theorem observeRemoved_subset (order : HashOrder String) {c : IngestionTenantController κ}
    {foundTenants : Finset String} (known : c.tenants ⊆ foundTenants) :
    c.observeRemoved order foundTenants = c := by
  rw [observeRemoved_eq, List.filter_eq_nil_iff.mpr]
  · rfl
  · intro t member
    simpa using known (order.mem_keys_iff.mp member)

theorem observe_erase (found existing : HashOrder String) {c : IngestionTenantController κ}
    {t : String} (observed : t ∈ c.tenants) :
    c.observe found existing (c.tenants.erase t) = c.removeTenant t := by
  have gone : (existing.keys c.tenants).filter (fun t' => t' ∉ c.tenants.erase t) = [t] := by
    rw [← List.perm_singleton, List.perm_ext_iff_of_nodup
      ((existing.nodup_keys _).filter _) (List.nodup_singleton t)]
    intro t'
    rw [List.mem_filter, HashOrder.mem_keys_iff, decide_eq_true_eq, List.mem_singleton]
    constructor
    · intro missing
      rcases missing with ⟨member, missed⟩
      by_contra other
      exact missed (Finset.mem_erase.mpr ⟨other, member⟩)
    · intro same
      obtain rfl := same
      exact ⟨observed, Finset.notMem_erase t' _⟩
  rw [observe, observeAdded_subset found (Finset.erase_subset t c.tenants), observeRemoved_eq, gone]
  rfl

end IngestionTenantController

end OpenMetrics.Proxy
