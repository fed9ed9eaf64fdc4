import Mathlib.Data.List.Nodup

namespace OpenMetrics.Library.Keyed

variable {α κ : Type} [DecidableEq κ] (key : α → κ)

def write (place : Nat) (a : α) (l : List α) : List α :=
  if key a ∈ l.map key then l.map fun b => if key b = key a then a else b
  else l.take place ++ a :: l.drop place

def delete (k : κ) (l : List α) : List α := l.filter fun a => key a ≠ k

theorem write_over {a b : α} {front back : List α} (place : Nat)
    (nodup : ((front ++ b :: back).map key).Nodup) (same : key b = key a) :
    write key place a (front ++ b :: back) = front ++ a :: back := by
  have listed : key a ∈ (front ++ b :: back).map key := by simp [same]
  simp only [List.map_append, List.map_cons, List.nodup_append, List.nodup_cons, List.mem_map,
    List.mem_cons] at nodup
  obtain ⟨-, ⟨backApart, -⟩, frontApart⟩ := nodup
  have keep (l : List α) (apart : ∀ x ∈ l, key x ≠ key a) :
      l.map (fun x => if key x = key a then a else x) = l := by
    conv_rhs => rw [← List.map_id l]
    exact List.map_congr_left fun x member => if_neg (apart x member)
  rw [write, if_pos listed, List.map_append, List.map_cons, if_pos same, keep, keep]
  · intro x member h
    exact backApart ⟨x, member, h.trans same.symm⟩
  · intro x member h
    exact frontApart (key x) ⟨x, member, rfl⟩ (key b) (Or.inl rfl) (h.trans same.symm)

theorem write_new {a : α} {l : List α} (place : Nat) (new : key a ∉ l.map key) :
    ∃ front back, l = front ++ back ∧ write key place a l = front ++ a :: back :=
  ⟨l.take place, l.drop place, (List.take_append_drop place l).symm, by rw [write, if_neg new]⟩

theorem write_cases {l : List α} (place : Nat) (a : α) (nodup : (l.map key).Nodup) :
    (∃ front b back, l = front ++ b :: back ∧ key b = key a ∧
      write key place a l = front ++ a :: back) ∨
    (key a ∉ l.map key ∧ ∃ front back, l = front ++ back ∧
      write key place a l = front ++ a :: back) := by
  by_cases listed : key a ∈ l.map key
  · obtain ⟨b, member, same⟩ := List.mem_map.mp listed
    obtain ⟨front, back, rfl⟩ := List.append_of_mem member
    exact Or.inl ⟨front, b, back, rfl, same, write_over key place nodup same⟩
  · exact Or.inr ⟨listed, write_new key place listed⟩

theorem mem_write {l : List α} (place : Nat) (a : α) (nodup : (l.map key).Nodup) {x : α} :
    x ∈ write key place a l ↔ x = a ∨ x ∈ l ∧ key x ≠ key a := by
  cases write_cases key place a nodup with
  | inl replaced =>
      obtain ⟨front, b, back, rfl, same, written⟩ := replaced
      simp only [List.map_append, List.map_cons, List.nodup_append, List.nodup_cons,
        List.mem_map, List.mem_cons] at nodup
      obtain ⟨-, ⟨backApart, -⟩, frontApart⟩ := nodup
      rw [written]
      simp only [List.mem_append, List.mem_cons]
      constructor
      · intro either
        rcases either with member | rfl | member
        · exact Or.inr ⟨Or.inl member, fun h =>
            frontApart (key x) ⟨x, member, rfl⟩ (key b) (Or.inl rfl) (h.trans same.symm)⟩
        · exact Or.inl rfl
        · exact Or.inr ⟨Or.inr (Or.inr member), fun h => backApart ⟨x, member, h.trans same.symm⟩⟩
      · intro either
        rcases either with rfl | ⟨member | rfl | member, apart⟩
        · exact Or.inr (Or.inl rfl)
        · exact Or.inl member
        · exact absurd same apart
        · exact Or.inr (Or.inr member)
  | inr added =>
      obtain ⟨new, front, back, rfl, written⟩ := added
      have apart (x : α) (member : x ∈ front ++ back) : key x ≠ key a :=
        fun h => new (h ▸ List.mem_map_of_mem member)
      rw [written]
      simp only [List.mem_append, List.mem_cons] at apart ⊢
      constructor
      · intro either
        rcases either with member | rfl | member
        · exact Or.inr ⟨Or.inl member, apart x (Or.inl member)⟩
        · exact Or.inl rfl
        · exact Or.inr ⟨Or.inr member, apart x (Or.inr member)⟩
      · intro either
        rcases either with rfl | ⟨member | member, -⟩
        · exact Or.inr (Or.inl rfl)
        · exact Or.inl member
        · exact Or.inr (Or.inr member)

theorem nodup_write {l : List α} (place : Nat) (a : α) (nodup : (l.map key).Nodup) :
    ((write key place a l).map key).Nodup := by
  cases write_cases key place a nodup with
  | inl replaced =>
      obtain ⟨front, b, back, rfl, same, written⟩ := replaced
      rw [written]
      simpa [same] using nodup
  | inr added =>
      obtain ⟨new, front, back, rfl, written⟩ := added
      rw [written, List.map_append, List.map_cons]
      rw [List.map_append] at nodup new
      exact (List.nodup_middle).mpr (List.nodup_cons.mpr ⟨new, nodup⟩)

theorem delete_split {a : α} {front back : List α}
    (nodup : ((front ++ a :: back).map key).Nodup) :
    delete key (key a) (front ++ a :: back) = front ++ back := by
  simp only [List.map_append, List.map_cons, List.nodup_append, List.nodup_cons, List.mem_map,
    List.mem_cons] at nodup
  obtain ⟨-, ⟨backApart, -⟩, frontApart⟩ := nodup
  have keep (l : List α) (apart : ∀ x ∈ l, key x ≠ key a) :
      l.filter (fun x => key x ≠ key a) = l :=
    List.filter_eq_self.mpr fun x member => decide_eq_true (apart x member)
  rw [delete, List.filter_append, List.filter_cons_of_neg (by simp), keep, keep]
  · exact fun x member h => backApart ⟨x, member, h⟩
  · exact fun x member h => frontApart (key x) ⟨x, member, rfl⟩ (key a) (Or.inl rfl) h

theorem mem_delete {l : List α} {k : κ} {x : α} : x ∈ delete key k l ↔ x ∈ l ∧ key x ≠ k := by
  simp [delete]

theorem nodup_delete {l : List α} (k : κ) (nodup : (l.map key).Nodup) :
    ((delete key k l).map key).Nodup :=
  nodup.sublist (List.filter_sublist.map key)

omit [DecidableEq κ] in
theorem exists_first {l : List α} {k : κ} (member : k ∈ l.map key) :
    ∃ front a back, l = front ++ a :: back ∧ key a = k ∧ ∀ b ∈ front, key b ≠ k := by
  obtain ⟨ks, ks', split, fresh⟩ := List.eq_append_cons_of_mem member
  obtain ⟨front, rest, rfl, rfl, cons⟩ := List.map_eq_append_iff.mp split
  obtain ⟨a, back, rfl, named, -⟩ := List.map_eq_cons_iff.mp cons
  exact ⟨front, a, back, rfl, named, fun b inFront same => fresh (same ▸ List.mem_map_of_mem inFront)⟩

def find (k : κ) (l : List α) : Option α := l.find? fun a => key a = k

variable {key} {l : List α} {k : κ}

theorem find_key {a : α} (found : find key k l = some a) : key a = k := by
  simpa using List.find?_some found

theorem mem_of_find {a : α} (found : find key k l = some a) : a ∈ l :=
  List.mem_of_find?_eq_some found

theorem find_eq_none : find key k l = none ↔ ∀ a ∈ l, key a ≠ k := by
  simp [find]

theorem find_of_mem (nodup : (l.map key).Nodup) {a : α} (member : a ∈ l) :
    find key (key a) l = some a := by
  cases found : find key (key a) l with
  | none => exact absurd rfl (find_eq_none.mp found a member)
  | some b => rw [List.inj_on_of_nodup_map nodup (mem_of_find found) member (find_key found)]

theorem find_eq_some (nodup : (l.map key).Nodup) {a : α} :
    find key k l = some a ↔ a ∈ l ∧ key a = k := by
  constructor
  · exact fun found => ⟨mem_of_find found, find_key found⟩
  · intro found
    rcases found with ⟨member, rfl⟩
    exact find_of_mem nodup member

theorem find_write (nodup : (l.map key).Nodup) (place : Nat) (a : α) (k : κ) :
    find key k (write key place a l) = if k = key a then some a else find key k l := by
  have nodup' := nodup_write key place a nodup
  by_cases same : k = key a
  · rw [if_pos same, find_eq_some nodup', mem_write key place a nodup]
    exact ⟨Or.inl rfl, same.symm⟩
  · rw [if_neg same]
    ext b
    rw [find_eq_some nodup', find_eq_some nodup, mem_write key place a nodup]
    constructor
    · intro found
      rcases found with ⟨either, rfl⟩
      cases either with
      | inl new => exact absurd (congrArg key new) same
      | inr old => exact ⟨old.1, rfl⟩
    · intro found
      rcases found with ⟨member, rfl⟩
      exact ⟨Or.inr ⟨member, same⟩, rfl⟩

theorem find_delete (nodup : (l.map key).Nodup) (deleted k : κ) :
    find key k (delete key deleted l) = if k = deleted then none else find key k l := by
  have nodup' := nodup_delete key deleted nodup
  by_cases same : k = deleted
  · rw [if_pos same, find_eq_none]
    intro a member
    rw [same]
    exact (mem_delete key).mp member |>.2
  · rw [if_neg same]
    ext b
    rw [find_eq_some nodup', find_eq_some nodup, mem_delete]
    constructor
    · exact fun h => ⟨h.1.1, h.2⟩
    · intro found
      rcases found with ⟨member, rfl⟩
      exact ⟨⟨member, same⟩, rfl⟩

variable {σ π β : Type} (view : σ → κ → Option β) {slot : π → κ} {step : σ → π → σ}

theorem view_writes (invariant : σ → Prop) (value : π → β) {l : List π}
    (law : ∀ p ∈ l, ∀ s, invariant s → invariant (step s p) ∧
      ∀ k, view (step s p) k = if k = slot p then some (value p) else view s k)
    {s : σ} (start : invariant s) :
    invariant (l.foldl step s) ∧ ∀ k,
      ((∀ p ∈ l, slot p ≠ k) ∧ view (l.foldl step s) k = view s k) ∨
      ∃ p ∈ l, slot p = k ∧ view (l.foldl step s) k = some (value p) := by
  induction l generalizing s with
  | nil => exact ⟨start, fun k => Or.inl ⟨by simp, rfl⟩⟩
  | cons p rest ih =>
      obtain ⟨kept, written⟩ := law p (by simp) s start
      obtain ⟨last, cases⟩ := ih (fun q member => law q (by simp [member])) kept
      refine ⟨last, fun k => ?_⟩
      rw [List.foldl_cons]
      cases cases k with
      | inl untouched =>
          obtain ⟨apart, shown⟩ := untouched
          rw [written] at shown
          by_cases same : k = slot p
          · rw [if_pos same] at shown
            exact Or.inr ⟨p, by simp, same.symm, shown⟩
          · rw [if_neg same] at shown
            exact Or.inl ⟨by simpa [Ne.symm same] using apart, shown⟩
      | inr shownLast =>
          obtain ⟨q, member, same, shown⟩ := shownLast
          exact Or.inr ⟨q, by simp [member], same, shown⟩

omit [DecidableEq κ] in
theorem view_deletions (invariant : σ → Prop) (hits : π → κ → Prop)
    [∀ p k, Decidable (hits p k)] {l : List π}
    (law : ∀ p ∈ l, ∀ s, invariant s → invariant (step s p) ∧
      ∀ k, view (step s p) k = if hits p k then none else view s k)
    {s : σ} (start : invariant s) :
    invariant (l.foldl step s) ∧ ∀ k, view (l.foldl step s) k =
      if ∃ p ∈ l, hits p k then none else view s k := by
  induction l generalizing s with
  | nil => exact ⟨start, by simp⟩
  | cons p rest ih =>
      obtain ⟨kept, deleted⟩ := law p (by simp) s start
      obtain ⟨last, shown⟩ := ih (fun q member => law q (by simp [member])) kept
      refine ⟨last, fun k => ?_⟩
      rw [List.foldl_cons, shown, deleted]
      simp only [List.exists_mem_cons_iff]
      by_cases later : ∃ q ∈ rest, hits q k
      · rw [if_pos later, if_pos (Or.inr later)]
      · rw [if_neg later]
        exact (if_congr (or_iff_left later) rfl rfl).symm

end OpenMetrics.Library.Keyed
