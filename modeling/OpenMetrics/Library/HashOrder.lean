import Mathlib.Data.Finmap
import Mathlib.Data.List.Sort

namespace OpenMetrics.Library

variable {κ ν : Type} [DecidableEq κ]

abbrev HashMap (κ ν : Type) := Finmap (fun _ : κ => ν)

theorem foldl_insert (l : List κ) (set : Finset κ) :
    l.foldl (fun set x => insert x set) set = set ∪ l.toFinset := by
  induction l generalizing set with
  | nil => simp
  | cons x rest ih =>
      rw [List.foldl_cons, ih]
      ext y
      simp only [Finset.mem_union, Finset.mem_insert, List.mem_toFinset, List.mem_cons]
      tauto

theorem lookup_foldl {step : HashMap κ ν → κ → HashMap κ ν} {value : κ → Option ν}
    (own : ∀ m k, k ∉ m → (step m k).lookup k = value k)
    (other : ∀ m k k', k' ≠ k → (step m k).lookup k' = m.lookup k')
    {l : List κ} (nodup : l.Nodup) (m : HashMap κ ν) (fresh : ∀ k ∈ l, k ∉ m) (k : κ) :
    (l.foldl step m).lookup k = if k ∈ l then value k else m.lookup k := by
  induction l generalizing m with
  | nil => simp
  | cons a rest ih =>
      obtain ⟨apart, nodup'⟩ := List.nodup_cons.mp nodup
      have fresh' : ∀ k ∈ rest, k ∉ step m a := by
        intro k member
        have ne : k ≠ a := fun same => apart (same ▸ member)
        rw [← Finmap.lookup_eq_none, other m a k ne, Finmap.lookup_eq_none]
        exact fresh k (by simp [member])
      rw [List.foldl_cons, ih nodup' _ fresh']
      by_cases later : k ∈ rest
      · simp [later]
      · by_cases same : k = a
        · subst same
          simp [later, own m k (fresh k (by simp))]
        · simp [later, same, other m a k same]

section
variable {μ : Type} (f : Option ν → μ → ν)

def merge (m : HashMap κ ν) (e : κ × μ) : HashMap κ ν := m.insert e.1 (f (m.lookup e.1) e.2)

theorem lookup_foldl_merge_absent {l : List (κ × μ)} {k : κ} (absent : k ∉ l.map Prod.fst)
    (m : HashMap κ ν) : (l.foldl (merge f) m).lookup k = m.lookup k := by
  induction l generalizing m with
  | nil => rfl
  | cons e rest ih =>
      rw [List.map_cons, List.mem_cons, not_or] at absent
      rw [List.foldl_cons, ih absent.2, merge, Finmap.lookup_insert_of_ne _ absent.1]

theorem lookup_foldl_merge_mem {l : List (κ × μ)} (nodup : (l.map Prod.fst).Nodup) {k : κ} {v : μ}
    (member : (k, v) ∈ l) (m : HashMap κ ν) :
    (l.foldl (merge f) m).lookup k = some (f (m.lookup k) v) := by
  induction l generalizing m with
  | nil => simp at member
  | cons e rest ih =>
      rw [List.map_cons] at nodup
      obtain ⟨apart, nodup'⟩ := List.nodup_cons.mp nodup
      rw [List.foldl_cons]
      cases List.mem_cons.mp member with
      | inl here =>
          subst here
          rw [lookup_foldl_merge_absent f apart, merge, Finmap.lookup_insert]
      | inr later =>
          have other : k ≠ e.1 := fun same => apart (same ▸ List.mem_map_of_mem later)
          rw [ih nodup' later, merge, Finmap.lookup_insert_of_ne _ other]

end

/-- One way to iterate over hash sets. A program may rely on every element being visited once
and on nothing else, so results about a program quantify over all orders. -/
structure HashOrder (κ : Type) [DecidableEq κ] where
  keys : Finset κ → List κ
  nodup_keys : ∀ s, (keys s).Nodup
  mem_keys : ∀ s x, x ∈ keys s ↔ x ∈ s

namespace HashOrder

def iter (order : HashOrder κ) (m : HashMap κ ν) : List (κ × ν) :=
  (order.keys m.keys).filterMap fun k => (m.lookup k).map (k, ·)

@[simp] theorem mem_keys_iff (order : HashOrder κ) {s : Finset κ} {x : κ} :
    x ∈ order.keys s ↔ x ∈ s :=
  order.mem_keys s x

@[simp] theorem keys_singleton (order : HashOrder κ) (x : κ) : order.keys {x} = [x] := by
  have h := order.nodup_keys {x}
  have m : ∀ y, y ∈ order.keys {x} ↔ y = x := fun y => by simp
  exact List.perm_singleton.mp ((List.perm_ext_iff_of_nodup h (List.nodup_singleton x)).mpr
    fun y => by simp [m])

@[simp] theorem mem_iter (order : HashOrder κ) {m : HashMap κ ν} {k : κ} {v : ν} :
    (k, v) ∈ order.iter m ↔ m.lookup k = some v := by
  simp only [iter, List.mem_filterMap, mem_keys_iff, Finmap.mem_keys, Option.map_eq_some_iff,
    Prod.mk.injEq]
  constructor
  · intro visited
    rcases visited with ⟨k', -, v', found, rfl, rfl⟩
    exact found
  · intro found
    exact ⟨k, Finmap.mem_of_lookup_eq_some found, v, found, rfl, rfl⟩

theorem nodup_iter (order : HashOrder κ) (m : HashMap κ ν) :
    ((order.iter m).map Prod.fst).Nodup := by
  rw [iter, List.map_filterMap]
  refine (order.nodup_keys m.keys).filterMap fun k k' k'' here there => ?_
  simp only [Option.map_map, Option.mem_def, Option.map_eq_some_iff, Function.comp_apply]
    at here there
  obtain ⟨-, -, rfl⟩ := here
  obtain ⟨-, -, rfl⟩ := there
  rfl

theorem iter_perm (order order' : HashOrder κ) (m : HashMap κ ν) :
    (order.iter m).Perm (order'.iter m) :=
  (List.perm_ext_iff_of_nodup (order.nodup_iter m).of_map (order'.nodup_iter m).of_map).mpr
    fun _ => order.mem_iter.trans order'.mem_iter.symm

theorem map_fst_iter (order : HashOrder κ) (m : HashMap κ ν) :
    (order.iter m).map Prod.fst = order.keys m.keys := by
  rw [iter, List.map_filterMap]
  refine (List.filterMap_congr fun k visited => ?_).trans List.filterMap_some
  have member := Finmap.mem_keys.mp (order.mem_keys_iff.mp visited)
  obtain ⟨v, found⟩ := Option.isSome_iff_exists.mp (Finmap.lookup_isSome.mpr member)
  rw [found]
  rfl

theorem length_iter (order : HashOrder κ) (m : HashMap κ ν) :
    (order.iter m).length = m.keys.card := by
  have keys : (order.keys m.keys).toFinset = m.keys := by
    ext k
    simp
  rw [← List.length_map Prod.fst, map_fst_iter, ← List.toFinset_card_of_nodup (order.nodup_keys _),
    keys]

theorem sum_iter {M : Type} [AddCommMonoid M] (order : HashOrder κ) (m : HashMap κ ν) (k : κ)
    (f : ν → M) :
    ((order.iter m).map fun entry => if entry.1 = k then f entry.2 else 0).sum =
      (m.lookup k).elim 0 f := by
  have others : ∀ l : List (κ × ν), k ∉ l.map Prod.fst →
      (l.map fun entry => if entry.1 = k then f entry.2 else 0).sum = 0 := by
    intro l absent
    apply List.sum_eq_zero
    intro x listed
    obtain ⟨entry, member, rfl⟩ := List.mem_map.mp listed
    exact if_neg fun same : entry.1 = k => absent (same ▸ List.mem_map_of_mem member)
  have nodup := order.nodup_iter m
  cases found : m.lookup k with
  | none =>
      apply others
      intro listed
      obtain ⟨⟨_, v⟩, member, rfl⟩ := List.mem_map.mp listed
      rw [order.mem_iter.mp member] at found
      cases found
  | some v =>
      obtain ⟨front, back, split⟩ := List.append_of_mem (order.mem_iter.mpr found)
      rw [split, List.map_append, List.map_cons, List.nodup_middle, List.nodup_cons,
        List.mem_append, not_or] at nodup
      rw [split, List.map_append, List.map_cons, List.sum_append, List.sum_cons, if_pos rfl,
        others front nodup.1.1, others back nodup.1.2, zero_add, add_zero]
      rfl

theorem lookup_merge_all {μ : Type} (order : HashOrder κ) (f : Option ν → μ → ν)
    (entries : HashMap κ μ) (m : HashMap κ ν) (k : κ) :
    ((order.iter entries).foldl (merge f) m).lookup k =
      (entries.lookup k).elim (m.lookup k) fun v => some (f (m.lookup k) v) := by
  cases found : entries.lookup k with
  | none =>
      apply lookup_foldl_merge_absent
      intro listed
      obtain ⟨⟨_, v⟩, member, rfl⟩ := List.mem_map.mp listed
      rw [order.mem_iter.mp member] at found
      cases found
  | some v => exact lookup_foldl_merge_mem f (order.nodup_iter entries) (order.mem_iter.mpr found) m

def sorted (κ : Type) [DecidableEq κ] [LinearOrder κ] : HashOrder κ where
  keys s := Quot.liftOn s.val (List.insertionSort (· ≤ ·)) fun _ _ perm =>
    List.Perm.eq_of_pairwise (fun _ _ _ _ => le_antisymm) (List.pairwise_insertionSort _ _)
      (List.pairwise_insertionSort _ _)
      (((List.perm_insertionSort _ _).trans perm).trans (List.perm_insertionSort _ _).symm)
  nodup_keys := by
    rintro ⟨⟨l⟩, nodup⟩
    exact (List.perm_insertionSort _ l).nodup_iff.mpr nodup
  mem_keys := by
    rintro ⟨⟨l⟩, _⟩ x
    exact (List.perm_insertionSort _ l).mem_iff

end HashOrder

end OpenMetrics.Library
