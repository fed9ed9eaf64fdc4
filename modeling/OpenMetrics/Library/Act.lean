import Mathlib.Data.List.Basic

namespace OpenMetrics.Library

abbrev Act (σ α : Type) := StateT σ Option α

namespace Act

variable {σ α β : Type}

@[simp] theorem pure_apply (a : α) (s : σ) : (pure a : Act σ α) s = some (a, s) := rfl

@[simp] theorem bind_apply (x : Act σ α) (f : α → Act σ β) (s : σ) :
    (x >>= f) s = (x s).bind fun r => f r.1 r.2 := rfl

def unwrap : Option α → Act σ α
  | some a => pure a
  | none => fun _ => none

@[simp] theorem unwrap_some (a : α) : (unwrap (some a) : Act σ α) = pure a := rfl

@[simp] theorem forM_nil (body : α → Act σ Unit) (s : σ) : [].forM body s = some ((), s) := rfl

@[simp] theorem forM_cons (body : α → Act σ Unit) (a : α) (rest : List α) (s : σ) :
    (a :: rest).forM body s = (body a s).bind fun r => rest.forM body r.2 := rfl

theorem forM_append (body : α → Act σ Unit) (front back : List α) (s : σ) :
    (front ++ back).forM body s = (front.forM body s).bind fun r => back.forM body r.2 := by
  induction front generalizing s with
  | nil => rfl
  | cons a rest ih =>
      rw [List.cons_append, forM_cons, forM_cons]
      cases body a s with
      | none => rfl
      | some r => exact ih r.2

theorem forM_apply (body : α → Act σ Unit) (next : σ → α → σ) (invariant : σ → Prop)
    (l : List α) (returns : ∀ a ∈ l, ∀ s, invariant s → body a s = some ((), next s a))
    (preserved : ∀ a ∈ l, ∀ s, invariant s → invariant (next s a)) {s : σ} (start : invariant s) :
    l.forM body s = some ((), l.foldl next s) ∧ invariant (l.foldl next s) := by
  induction l generalizing s with
  | nil => exact ⟨rfl, start⟩
  | cons a rest ih =>
      have here := returns a (by simp) s start
      obtain ⟨run, kept⟩ := ih (fun b member => returns b (by simp [member]))
        (fun b member => preserved b (by simp [member])) (preserved a (by simp) s start)
      refine ⟨?_, kept⟩
      rw [forM_cons, here, Option.bind_some]
      exact run

def Returns (x : Act σ α) : Prop := ∀ s, (x s).isSome

theorem returns_bind {x : Act σ α} {f : α → Act σ β} (first : Returns x)
    (rest : ∀ a, Returns (f a)) : Returns (x >>= f) := by
  intro s
  obtain ⟨r, run⟩ := Option.isSome_iff_exists.mp (first s)
  rw [bind_apply, run, Option.bind_some]
  exact rest r.1 r.2

theorem returns_forM {body : α → Act σ Unit} {l : List α} (rounds : ∀ a ∈ l, Returns (body a)) :
    Returns (l.forM body) := by
  induction l with
  | nil => exact fun _ => rfl
  | cons a rest ih =>
      exact returns_bind (rounds a (by simp)) fun _ => ih fun b member => rounds b (by simp [member])

def Gives (P : α → Prop) (x : Act σ α) : Prop := ∀ s r, x s = some r → P r.1

theorem gives_pure {P : α → Prop} {a : α} (here : P a) : Gives P (pure a : Act σ α) := by
  intro s r run
  obtain rfl := Option.some.inj run
  exact here

theorem gives_bind {P : α → Prop} {Q : β → Prop} {x : Act σ α} {f : α → Act σ β}
    (first : Gives P x) (rest : ∀ a, P a → Gives Q (f a)) : Gives Q (x >>= f) := by
  intro s r run
  obtain ⟨r', here, run⟩ := Option.bind_eq_some_iff.mp run
  exact rest r'.1 (first s r' here) r'.2 r run

theorem Returns.bind_gives {P : α → Prop} {x : Act σ α} {f : α → Act σ β} (first : Returns x)
    (given : Gives P x) (rest : ∀ a, P a → Returns (f a)) : Returns (x >>= f) := by
  intro s
  obtain ⟨r, run⟩ := Option.isSome_iff_exists.mp (first s)
  rw [bind_apply, run, Option.bind_some]
  exact rest r.1 (given s r run) r.2

def Keeps (invariant : σ → Prop) (x : Act σ α) : Prop :=
  ∀ s r, invariant s → x s = some r → invariant r.2

variable {invariant : σ → Prop}

theorem keeps_pure (a : α) : Keeps invariant (pure a) := by
  intro s r start run
  obtain rfl := Option.some.inj run
  exact start

theorem keeps_bind {x : Act σ α} {f : α → Act σ β} (first : Keeps invariant x)
    (rest : ∀ a, Keeps invariant (f a)) : Keeps invariant (x >>= f) := by
  intro s r start run
  obtain ⟨r', run', run⟩ := Option.bind_eq_some_iff.mp run
  exact rest r'.1 r'.2 r (first s r' start run') run

theorem keeps_forM {body : α → Act σ Unit} {l : List α}
    (rounds : ∀ a ∈ l, Keeps invariant (body a)) : Keeps invariant (l.forM body) := by
  induction l with
  | nil => exact keeps_pure ()
  | cons a rest ih =>
      exact keeps_bind (rounds a (by simp)) fun _ => ih fun b member => rounds b (by simp [member])

def logged (entries : List β) (x : Act σ α) : Act (σ × List β) α := fun s =>
  (x s.1).map fun r => (r.1, r.2, s.2 ++ entries)

theorem logged_log {entries : List β} {x : Act σ α} {s : σ × List β} {r : Unit × σ × List β}
    (run : (logged entries x >>= fun _ => pure ()) s = some r) : r.2.2 = s.2 ++ entries := by
  obtain ⟨first, here, rest⟩ := Option.bind_eq_some_iff.mp run
  obtain ⟨r', -, rfl⟩ := Option.map_eq_some_iff.mp here
  obtain rfl := Option.some.inj rest
  rfl

/-- The first action does what the second does, and keeps a log. -/
def Follows (y : Act (σ × List β) α) (x : Act σ α) : Prop :=
  ∀ s log, (y (s, log)).map (fun r => (r.1, r.2.1)) = x s

theorem follows_logged (entries : List β) (x : Act σ α) : Follows (logged entries x) x := by
  intro s log
  rw [logged, Option.map_map]
  exact Option.map_id'

theorem follows_bind {γ : Type} {y : Act (σ × List β) α} {x : Act σ α}
    {g : α → Act (σ × List β) γ} {f : α → Act σ γ} (first : Follows y x)
    (rest : ∀ a, Follows (g a) (f a)) : Follows (y >>= g) (x >>= f) := by
  intro s log
  rw [bind_apply, bind_apply, ← first s log, Option.map_bind]
  cases y (s, log) with
  | none => rfl
  | some r => exact rest r.1 r.2.1 r.2.2

theorem follows_pure (a : α) : Follows (pure a : Act (σ × List β) α) (pure a) := fun _ _ => rfl

theorem follows_unwrap (a : Option α) :
    Follows (unwrap a : Act (σ × List β) α) (unwrap a) := by
  cases a <;> exact fun _ _ => rfl

theorem follows_forM {γ : Type} {l : List γ} {g : γ → Act (σ × List β) Unit}
    {f : γ → Act σ Unit} (rounds : ∀ a ∈ l, Follows (g a) (f a)) :
    Follows (l.forM g) (l.forM f) := by
  induction l with
  | nil => exact follows_pure ()
  | cons a rest ih =>
      exact follows_bind (rounds a (by simp)) fun _ =>
        ih fun b member => rounds b (by simp [member])

end Act

end OpenMetrics.Library
