import Mathlib.Algebra.BigOperators.Group.Finset.Basic
import Mathlib.Algebra.Order.BigOperators.Group.Finset
import Mathlib.Data.List.Nodup
import Mathlib.Tactic.Abel

namespace OpenMetrics.Library

inductive Access where
  | read | write
  deriving DecidableEq

/-- `guarded` is the part of the object that the lock protects, and `work` bounds the moves that a
task makes inside the lock and on its way through it. -/
structure Protocol (α γ π : Type) where
  holds : π → Option Access
  wants : π → Option Access
  enter : π → π
  guarded : α → γ
  fresh : α → π → Prop
  step : π → α → π → α → Prop
  leave : π → π → Prop
  work : π → Nat
  holds_of_wants : ∀ {p}, (wants p).isSome → holds p = none
  holds_enter : ∀ {p}, (wants p).isSome → holds (enter p) = wants p
  work_enter : ∀ {p}, (wants p).isSome → work (enter p) < work p
  fresh_holds : ∀ {a p}, fresh a p → holds p = none
  step_wants : ∀ {p a p' a'}, step p a p' a' → wants p = none
  step_holds : ∀ {p a p' a'}, step p a p' a' → holds p' = none ∨ holds p' = holds p
  step_work : ∀ {p a p' a'}, step p a p' a' → (holds p).isSome → work p' < work p
  step_guarded : ∀ {p a p' a'}, step p a p' a' → holds p ≠ some .write → guarded a' = guarded a
  leave_holds : ∀ {p p'}, leave p p' → holds p' = none
  leave_wants : ∀ {p p'}, leave p p' → wants p' = none

structure Sharing (α π : Type) where
  object : α
  tasks : List π
  queue : List Nat

/-- Tasks come to the lock from outside, move at the lock, or are dropped by their callers. -/
inductive Kind where
  | comes | moves | leaves

def Kind.cost : Kind → Nat
  | comes | leaves => 0
  | moves => 1

namespace Protocol

variable {α γ π : Type} (P : Protocol α γ π)

def Free (tasks : List π) : Access → Prop
  | .read => ∀ p ∈ tasks, P.holds p ≠ some .write
  | .write => ∀ p ∈ tasks, P.holds p = none

def ask (i : Nat) (p : π) : List Nat := if (P.wants p).isSome then [i] else []

inductive Move : Kind → Sharing α π → Sharing α π → Prop
  | arrive (s : Sharing α π) (p : π) (new : P.fresh s.object p) :
      Move .comes s { s with tasks := s.tasks ++ [p], queue := s.queue ++ P.ask s.tasks.length p }
  | join (s : Sharing α π) (i : Nat) (p p' : π) (a' : α) (task : s.tasks[i]? = some p)
      (outside : P.holds p = none) (act : P.step p s.object p' a') :
      Move .comes s ⟨a', s.tasks.set i p', s.queue ++ P.ask i p'⟩
  -- the lock is fair: readers and writers are let in in the order in which they asked
  | grant (s : Sharing α π) (i : Nat) (rest : List Nat) (p : π) (x : Access)
      (head : s.queue = i :: rest) (task : s.tasks[i]? = some p) (wants : P.wants p = some x)
      (free : P.Free s.tasks x) :
      Move .moves s ⟨s.object, s.tasks.set i (P.enter p), rest⟩
  | work (s : Sharing α π) (i : Nat) (p p' : π) (a' : α) (task : s.tasks[i]? = some p)
      (inside : (P.holds p).isSome) (act : P.step p s.object p' a') :
      Move .moves s ⟨a', s.tasks.set i p', s.queue ++ P.ask i p'⟩
  -- a guard is released and a place in the queue given up
  | leave (s : Sharing α π) (i : Nat) (p p' : π) (task : s.tasks[i]? = some p)
      (leaves : P.leave p p') :
      Move .leaves s ⟨s.object, s.tasks.set i p', s.queue.erase i⟩

/-- Runs of moves of some kinds that stay in the states of an invariant, with the number of moves
at the lock. -/
inductive Run (allowed : Kind → Prop) (invariant : Sharing α π → Prop) :
    Nat → Sharing α π → Sharing α π → Prop
  | start {s : Sharing α π} (here : invariant s) : Run allowed invariant 0 s s
  | move {n : Nat} {k : Kind} {s s' s'' : Sharing α π} (before : Run allowed invariant n s s')
      (may : allowed k) (last : P.Move k s' s'') (here : invariant s'') :
      Run allowed invariant (n + k.cost) s s''

structure Sound (s : Sharing α π) : Prop where
  queued : ∀ i, i ∈ s.queue ↔ ∃ p, s.tasks[i]? = some p ∧ (P.wants p).isSome
  nodup : s.queue.Nodup
  alone : ∀ (i j : Nat) p q, s.tasks[i]? = some p → s.tasks[j]? = some q → P.holds p = some .write →
    i ≠ j → P.holds q = none

variable {P} {s s' : Sharing α π} {k : Kind} {i : Nat} {p p' : π}

theorem mem_ask {j : Nat} : j ∈ P.ask i p ↔ j = i ∧ (P.wants p).isSome := by
  unfold ask
  split_ifs with waits
  · simp [waits]
  · simp [waits]

theorem eq_or_of_set {tasks : List π} {j : Nat} {q : π} (found : (tasks.set i p')[j]? = some q) :
    j = i ∧ q = p' ∨ j ≠ i ∧ tasks[j]? = some q := by
  rw [List.getElem?_set] at found
  split_ifs at found with same inside
  · exact Or.inl ⟨same.symm, (Option.some.inj found).symm⟩
  · exact Or.inr ⟨Ne.symm same, found⟩

theorem forall_mem_set {tasks : List π} {F : π → Prop} (all : ∀ q ∈ tasks, F q) (new : F p') :
    ∀ q ∈ tasks.set i p', F q := by
  intro q member
  cases List.mem_or_eq_of_mem_set member with
  | inl old => exact all q old
  | inr same => exact same ▸ new

theorem wants_enter (waits : (P.wants p).isSome) : P.wants (P.enter p) = none := by
  cases wants : P.wants (P.enter p) with
  | none => rfl
  | some x =>
      have free := P.holds_of_wants (p := P.enter p) (by rw [wants]; rfl)
      rw [P.holds_enter waits] at free
      rw [free] at waits
      cases waits

theorem Sound.queued_set (sound : P.Sound s) (task : s.tasks[i]? = some p)
    (idle : P.wants p = none) (j : Nat) :
    j ∈ s.queue ++ P.ask i p' ↔
      ∃ q, (s.tasks.set i p')[j]? = some q ∧ (P.wants q).isSome := by
  have inside : i < s.tasks.length := (List.getElem?_eq_some_iff.mp task).1
  rw [List.mem_append, sound.queued, mem_ask]
  by_cases same : j = i
  · subst same
    simp [List.getElem?_set_self inside, task, idle]
  · simp [List.getElem?_set_ne (Ne.symm same), same]

theorem Sound.nodup_ask (sound : P.Sound s) (task : s.tasks[i]? = some p)
    (idle : P.wants p = none) : (s.queue ++ P.ask i p').Nodup := by
  have absent : i ∉ s.queue := by
    intro listed
    obtain ⟨q, task', waits⟩ := (sound.queued i).mp listed
    rw [task] at task'
    obtain rfl := Option.some.inj task'
    rw [idle] at waits
    cases waits
  apply sound.nodup.append
  · unfold ask
    split_ifs <;> simp
  · intro j listed asks
    obtain ⟨rfl, -⟩ := mem_ask.mp asks
    exact absent listed

theorem Sound.alone_set (sound : P.Sound s) (task : s.tasks[i]? = some p)
    (keeps : P.holds p' = none ∨ P.holds p' = P.holds p) :
    ∀ (j j' : Nat) q q', (s.tasks.set i p')[j]? = some q → (s.tasks.set i p')[j']? = some q' →
      P.holds q = some .write → j ≠ j' → P.holds q' = none := by
  intro j j' q q' here there writes apart
  -- what the new state holds, the old one held
  have before : ∀ (l : Nat) r, (s.tasks.set i p')[l]? = some r → (P.holds r).isSome →
      ∃ r', s.tasks[l]? = some r' ∧ P.holds r' = P.holds r := by
    intro l r found held
    cases eq_or_of_set found with
    | inl own =>
        obtain ⟨rfl, rfl⟩ := own
        refine ⟨p, task, (keeps.resolve_left fun none => ?_).symm⟩
        rw [none] at held
        cases held
    | inr other => exact ⟨r, other.2, rfl⟩
  by_contra held
  obtain ⟨r, here', holds⟩ := before j q here (by rw [writes]; rfl)
  obtain ⟨r', there', holds'⟩ := before j' q' there (Option.isSome_iff_ne_none.mpr held)
  exact held (holds' ▸ sound.alone j j' r r' here' there' (holds.trans writes) apart)

theorem Sound.alone_enter (sound : P.Sound s) (task : s.tasks[i]? = some p) {x : Access}
    (wants : P.wants p = some x) (free : P.Free s.tasks x) :
    ∀ (j j' : Nat) q q', (s.tasks.set i (P.enter p))[j]? = some q →
      (s.tasks.set i (P.enter p))[j']? = some q' → P.holds q = some .write → j ≠ j' →
      P.holds q' = none := by
  have inside : i < s.tasks.length := (List.getElem?_eq_some_iff.mp task).1
  have holds : P.holds (P.enter p) = some x := (P.holds_enter (by rw [wants]; rfl)).trans wants
  intro j j' q q' here there writes apart
  by_cases first : j = i
  · subst first
    rw [List.getElem?_set_self inside] at here
    obtain rfl := Option.some.inj here
    rw [List.getElem?_set_ne apart] at there
    rw [holds] at writes
    obtain rfl := Option.some.inj writes
    exact free q' (List.mem_of_getElem? there)
  · rw [List.getElem?_set_ne (Ne.symm first)] at here
    by_cases second : j' = i
    · -- a task that holds the lock for writing lets nobody in
      have listed := List.mem_of_getElem? here
      cases x with
      | read => exact absurd writes (free q listed)
      | write =>
          rw [free q listed] at writes
          cases writes
    · rw [List.getElem?_set_ne (Ne.symm second)] at there
      exact sound.alone j j' q q' here there writes apart

theorem Sound.arrive (sound : P.Sound s) (free : P.holds p = none) :
    P.Sound { s with tasks := s.tasks ++ [p], queue := s.queue ++ P.ask s.tasks.length p } := by
  have entry : ∀ (j : Nat) q, (s.tasks ++ [p])[j]? = some q ↔
      s.tasks[j]? = some q ∨ j = s.tasks.length ∧ q = p := by
    intro j q
    by_cases old : j < s.tasks.length
    · simp [List.getElem?_append_left old, old.ne]
    · have last : j - s.tasks.length = 0 ↔ j = s.tasks.length := by omega
      simp [List.getElem?_append_right (Nat.le_of_not_lt old),
        List.getElem?_eq_none (Nat.le_of_not_lt old), List.getElem?_singleton, last, eq_comm]
  have waiting_lt : ∀ j ∈ s.queue, j < s.tasks.length := by
    intro j listed
    obtain ⟨q, task, -⟩ := (sound.queued j).mp listed
    exact (List.getElem?_eq_some_iff.mp task).1
  constructor
  · intro j
    simp only [List.mem_append, mem_ask, sound.queued, entry]
    constructor
    · intro either
      cases either with
      | inl old =>
          obtain ⟨q, task, waits⟩ := old
          exact ⟨q, Or.inl task, waits⟩
      | inr new => exact ⟨p, Or.inr ⟨new.1, rfl⟩, new.2⟩
    · intro found
      rcases found with ⟨q, task, waits⟩
      cases task with
      | inl old => exact Or.inl ⟨q, old, waits⟩
      | inr new => exact Or.inr ⟨new.1, new.2 ▸ waits⟩
  · apply sound.nodup.append
    · unfold ask
      split_ifs <;> simp
    · intro j listed asks
      obtain ⟨rfl, -⟩ := mem_ask.mp asks
      exact (waiting_lt _ listed).ne rfl
  · intro j j' q q' here there writes apart
    rw [entry] at here there
    cases there with
    | inr new => exact new.2 ▸ free
    | inl old' =>
        cases here with
        | inl old => exact sound.alone j j' q q' old old' writes apart
        | inr new =>
            rw [new.2, free] at writes
            cases writes

theorem Sound.grant (sound : P.Sound s) {rest : List Nat} {x : Access}
    (head : s.queue = i :: rest) (task : s.tasks[i]? = some p) (wants : P.wants p = some x)
    (free : P.Free s.tasks x) : P.Sound ⟨s.object, s.tasks.set i (P.enter p), rest⟩ := by
  have inside : i < s.tasks.length := (List.getElem?_eq_some_iff.mp task).1
  have nodup := sound.nodup
  rw [head, List.nodup_cons] at nodup
  refine ⟨fun j => ?_, nodup.2, sound.alone_enter task wants free⟩
  by_cases same : j = i
  · subst same
    have entered := wants_enter (P := P) (p := p) (by rw [wants]; rfl)
    simp [List.getElem?_set_self inside, entered, nodup.1]
  · have listed := sound.queued j
    rw [head, List.mem_cons, or_iff_right same] at listed
    simp [List.getElem?_set_ne (Ne.symm same), listed]

theorem Sound.act (sound : P.Sound s) {a a' : α} (task : s.tasks[i]? = some p)
    (act : P.step p a p' a') : P.Sound ⟨a', s.tasks.set i p', s.queue ++ P.ask i p'⟩ :=
  ⟨sound.queued_set task (P.step_wants act), sound.nodup_ask task (P.step_wants act),
    sound.alone_set task (P.step_holds act)⟩

theorem Sound.leave (sound : P.Sound s) (task : s.tasks[i]? = some p) (leaves : P.leave p p') :
    P.Sound ⟨s.object, s.tasks.set i p', s.queue.erase i⟩ := by
  refine ⟨fun j => ?_, sound.nodup.erase i, sound.alone_set task (Or.inl (P.leave_holds leaves))⟩
  rw [sound.nodup.mem_erase_iff, sound.queued]
  by_cases same : j = i
  · subst same
    simp [List.getElem?_set_self (List.getElem?_eq_some_iff.mp task).1, P.leave_wants leaves]
  · simp [List.getElem?_set_ne (Ne.symm same), same]

theorem Sound.move (sound : P.Sound s) (move : P.Move k s s') : P.Sound s' := by
  cases move with
  | arrive _ p new => exact sound.arrive (P.fresh_holds new)
  | join _ i p p' a' task outside act => exact sound.act task act
  | grant _ i rest p x head task wants free => exact sound.grant head task wants free
  | work _ i p p' a' task inside act => exact sound.act task act
  | leave _ i p p' task leaves => exact sound.leave task leaves

variable {allowed : Kind → Prop} {invariant : Sharing α π → Prop} {n : Nat}

theorem Run.sound (run : P.Run allowed invariant n s s') (sound : P.Sound s) : P.Sound s' := by
  induction run with
  | start here => exact sound
  | move before may last here ih => exact (ih sound).move last

theorem guarded_stable (sound : P.Sound s) (move : P.Move k s s') (task : s.tasks[i]? = some p)
    (reads : P.holds p = some .read) : P.guarded s'.object = P.guarded s.object := by
  have unchanged : ∀ (j : Nat) q q' a', s.tasks[j]? = some q → P.step q s.object q' a' →
      P.guarded a' = P.guarded s.object := by
    intro j q q' a' mover act
    apply P.step_guarded act
    intro writes
    by_cases same : j = i
    · subst same
      rw [task] at mover
      obtain rfl := Option.some.inj mover
      rw [reads] at writes
      cases writes
    · have free := sound.alone j i q p mover task writes same
      rw [reads] at free
      cases free
  cases move with
  | arrive _ q new => rfl
  | join _ j q q' a' mover outside act => exact unchanged j q q' a' mover act
  | grant _ j rest q x head mover wants free => rfl
  | work _ j q q' a' mover inside act => exact unchanged j q q' a' mover act
  | leave _ j q q' mover leaves => rfl

variable (P) in
/-- What is true of the tasks stays true: a task keeps it by its own moves, and may rely on the
guarded part while it holds the lock. -/
structure Kept (Good : γ → Prop) (Fine : γ → π → Prop) : Prop where
  arrives : ∀ {a p}, Good (P.guarded a) → P.fresh a p → Fine (P.guarded a) p
  enters : ∀ {g p}, Good g → Fine g p → (P.wants p).isSome → Fine g (P.enter p)
  acts : ∀ {a p a' p'}, Good (P.guarded a) → Fine (P.guarded a) p → P.step p a p' a' →
    Good (P.guarded a') ∧ Fine (P.guarded a') p'
  others : ∀ {a p a' p' q}, Good (P.guarded a) → Fine (P.guarded a) p → P.step p a p' a' →
    P.holds p = some .write → P.holds q = none → Fine (P.guarded a) q → Fine (P.guarded a') q
  leaves : ∀ {g p p'}, Good g → Fine g p → P.leave p p' → Fine g p'

section
variable {Good : γ → Prop} {Fine : γ → π → Prop}

theorem Kept.act (kept : P.Kept Good Fine) (sound : P.Sound s) {a' : α}
    (good : Good (P.guarded s.object)) (fine : ∀ q ∈ s.tasks, Fine (P.guarded s.object) q)
    (task : s.tasks[i]? = some p) (act : P.step p s.object p' a') :
    Good (P.guarded a') ∧ ∀ q ∈ s.tasks.set i p', Fine (P.guarded a') q := by
  have own := fine p (List.mem_of_getElem? task)
  obtain ⟨good', fine'⟩ := kept.acts good own act
  refine ⟨good', fun q member => ?_⟩
  obtain ⟨j, found⟩ := List.mem_iff_getElem?.mp member
  cases eq_or_of_set found with
  | inl same =>
      rw [same.2]
      exact fine'
  | inr other =>
      have before := fine q (List.mem_of_getElem? other.2)
      by_cases writes : P.holds p = some .write
      · exact kept.others good own act writes
          (sound.alone i j p q task other.2 writes (Ne.symm other.1)) before
      · rw [P.step_guarded act writes]
        exact before

theorem Kept.move (kept : P.Kept Good Fine) (sound : P.Sound s) (move : P.Move k s s')
    (good : Good (P.guarded s.object)) (fine : ∀ q ∈ s.tasks, Fine (P.guarded s.object) q) :
    Good (P.guarded s'.object) ∧ ∀ q ∈ s'.tasks, Fine (P.guarded s'.object) q := by
  cases move with
  | arrive _ p new =>
      refine ⟨good, fun q member => ?_⟩
      cases List.mem_append.mp member with
      | inl old => exact fine q old
      | inr last =>
          obtain rfl := List.mem_singleton.mp last
          exact kept.arrives good new
  | join _ i p p' a' task outside act => exact kept.act sound good fine task act
  | grant _ i rest p x head task wants free =>
      have own := fine p (List.mem_of_getElem? task)
      exact ⟨good, forall_mem_set fine (kept.enters good own (by rw [wants]; rfl))⟩
  | work _ i p p' a' task inside act => exact kept.act sound good fine task act
  | leave _ i p p' task leaves =>
      have own := fine p (List.mem_of_getElem? task)
      exact ⟨good, forall_mem_set fine (kept.leaves good own leaves)⟩

theorem Kept.run (kept : P.Kept Good Fine) (run : P.Run allowed invariant n s s')
    (sound : P.Sound s) (good : Good (P.guarded s.object))
    (fine : ∀ q ∈ s.tasks, Fine (P.guarded s.object) q) :
    Good (P.guarded s'.object) ∧ ∀ q ∈ s'.tasks, Fine (P.guarded s'.object) q := by
  induction run with
  | start here => exact ⟨good, fine⟩
  | move before may last here ih =>
      obtain ⟨good', fine'⟩ := ih sound good fine
      exact kept.move (before.sound sound) last good' fine'

end

variable (P) in
structure Counted {M : Type} [AddCommGroup M] (value : α → M) (own : π → M) : Prop where
  arrives : ∀ {a p}, P.fresh a p → own p = 0
  enters : ∀ {p}, (P.wants p).isSome → own (P.enter p) = own p
  acts : ∀ {a p a' p'}, P.step p a p' a' → value a' - value a = own p' - own p
  leaves : ∀ {p p'}, P.leave p p' → own p' = own p

section
variable {M : Type} [AddCommGroup M] {value : α → M} {own : π → M}

theorem sum_map_set (own : π → M) {tasks : List π} (task : tasks[i]? = some p) (p' : π) :
    ((tasks.set i p').map own).sum = (tasks.map own).sum + (own p' - own p) := by
  obtain ⟨inside, here⟩ := List.getElem?_eq_some_iff.mp task
  rw [List.map_set, List.sum_set', dif_pos (by simpa using inside), List.getElem_map, here]
  abel

theorem Counted.run (counted : P.Counted value own) (run : P.Run allowed invariant n s s')
    (start : value s.object = (s.tasks.map own).sum) :
    value s'.object = (s'.tasks.map own).sum := by
  induction run with
  | start here => exact start
  | @move n k s s' s'' before may last here ih =>
      have earlier := ih start
      have act : ∀ (i : Nat) p p' a', s'.tasks[i]? = some p → P.step p s'.object p' a' →
          value a' = ((s'.tasks.set i p').map own).sum := by
        intro i p p' a' task act
        rw [sum_map_set own task, ← earlier, ← counted.acts act, add_sub_cancel]
      have keep : ∀ (i : Nat) p p', s'.tasks[i]? = some p → own p' = own p →
          value s'.object = ((s'.tasks.set i p').map own).sum := by
        intro i p p' task same
        rw [sum_map_set own task, same, sub_self, add_zero, earlier]
      cases last with
      | arrive _ p new => simp [earlier, counted.arrives new]
      | join _ i p p' a' task outside moved => exact act i p p' a' task moved
      | grant _ i rest p x head task wants free =>
          exact keep i p _ task (counted.enters (by rw [wants]; rfl))
      | work _ i p p' a' task inside moved => exact act i p p' a' task moved
      | leave _ i p p' task leaves =>
          exact keep i p p' task (counted.leaves leaves)

end

variable (P) in
def share (front : List Nat) (i : Nat) (p : π) : Nat :=
  if (P.holds p).isSome ∨ i ∈ front then P.work p else 0

variable (P) in
def load (front : List Nat) (tasks : List π) : Nat :=
  ∑ j ∈ Finset.range tasks.length, (tasks[j]?).elim 0 (P.share front j)

section
variable {front front' : List Nat} {tasks : List π}

theorem share_le (shrinks : i ∈ front' → i ∈ front) : P.share front' i p ≤ P.share front i p := by
  have counts : (P.holds p).isSome ∨ i ∈ front' → (P.holds p).isSome ∨ i ∈ front :=
    Or.imp_right shrinks
  rw [share, share]
  split_ifs with later earlier
  · exact le_rfl
  · exact absurd (counts later) earlier
  · exact Nat.zero_le _
  · exact le_rfl

theorem load_set_lt (task : tasks[i]? = some p) (counted : (P.holds p).isSome ∨ i ∈ front)
    (less : P.work p' < P.work p) (shrinks : ∀ j ≠ i, j ∈ front' → j ∈ front) :
    P.load front' (tasks.set i p') < P.load front tasks := by
  have inside : i < tasks.length := (List.getElem?_eq_some_iff.mp task).1
  unfold load
  rw [List.length_set]
  apply Finset.sum_lt_sum
  · intro j _
    by_cases same : j = i
    · subst same
      rw [List.getElem?_set_self inside, task, Option.elim_some, Option.elim_some, share, share,
        if_pos counted]
      split_ifs <;> omega
    · rw [List.getElem?_set_ne (Ne.symm same)]
      cases tasks[j]? with
      | none => exact le_rfl
      | some q =>
          rw [Option.elim_some, Option.elim_some]
          exact share_le (shrinks j same)
  · refine ⟨i, Finset.mem_range.mpr inside, ?_⟩
    rw [List.getElem?_set_self inside, task, Option.elim_some, Option.elim_some, share, share,
      if_pos counted]
    split_ifs <;> omega

theorem load_set_outside (task : tasks[i]? = some p) (outside : P.holds p = none)
    (outside' : P.holds p' = none) (absent : i ∉ front) :
    P.load front (tasks.set i p') = P.load front tasks := by
  have inside : i < tasks.length := (List.getElem?_eq_some_iff.mp task).1
  unfold load
  rw [List.length_set]
  apply Finset.sum_congr rfl
  intro j _
  by_cases same : j = i
  · subst same
    simp [List.getElem?_set_self inside, task, share, outside, outside', absent]
  · rw [List.getElem?_set_ne (Ne.symm same)]

theorem load_leave_le (task : tasks[i]? = some p) (outside' : P.holds p' = none)
    (absent : i ∉ front') (shrinks : ∀ j ∈ front', j ∈ front) :
    P.load front' (tasks.set i p') ≤ P.load front tasks := by
  have inside : i < tasks.length := (List.getElem?_eq_some_iff.mp task).1
  unfold load
  rw [List.length_set]
  apply Finset.sum_le_sum
  intro j _
  by_cases same : j = i
  · subst same
    simp [List.getElem?_set_self inside, share, outside', absent]
  · rw [List.getElem?_set_ne (Ne.symm same)]
    cases tasks[j]? with
    | none => exact le_rfl
    | some q =>
        rw [Option.elim_some, Option.elim_some]
        exact share_le (shrinks j)

theorem load_arrive (outside : P.holds p = none) (absent : tasks.length ∉ front) :
    P.load front (tasks ++ [p]) = P.load front tasks := by
  unfold load
  rw [List.length_append, List.length_singleton, Finset.sum_range_succ,
    List.getElem?_append_right le_rfl, Nat.sub_self]
  have last : ([p] : List π)[0]?.elim 0 (P.share front tasks.length) = 0 := by
    simp [share, outside, absent]
  rw [last, Nat.add_zero]
  apply Finset.sum_congr rfl
  intro j member
  rw [List.getElem?_append_left (Finset.mem_range.mp member)]

end

def ahead (s : Sharing α π) (i : Nat) : List Nat := s.queue.takeWhile (· ≠ i)

theorem takeWhile_append_of_mem {l : List Nat} (member : i ∈ l) (m : List Nat) :
    (l ++ m).takeWhile (· ≠ i) = l.takeWhile (· ≠ i) := by
  induction l with
  | nil => cases member
  | cons j rest ih =>
      by_cases same : j = i
      · simp [same]
      · have later : i ∈ rest := (List.mem_cons.mp member).resolve_left (Ne.symm same)
        simp [same] at ih ⊢
        exact ih later

theorem mem_takeWhile_of_erase {j l : Nat} {queue : List Nat} (apart : j ≠ i)
    (listed : l ∈ (queue.erase j).takeWhile (· ≠ i)) : l ∈ queue.takeWhile (· ≠ i) := by
  induction queue with
  | nil => exact listed
  | cons first rest ih =>
      by_cases dropped : first = j
      · subst dropped
        rw [List.erase_cons_head] at listed
        rw [List.takeWhile_cons_of_pos (by simpa using apart)]
        exact List.mem_cons_of_mem _ listed
      · rw [List.erase_cons_tail (by simpa using dropped)] at listed
        by_cases last : first = i
        · rw [List.takeWhile_cons_of_neg (by simpa using last)] at listed
          cases listed
        · rw [List.takeWhile_cons_of_pos (by simpa using last)] at listed ⊢
          exact List.mem_cons.mpr ((List.mem_cons.mp listed).imp_right ih)

variable (P) in
def rank (s : Sharing α π) (i : Nat) : Nat := P.load (ahead s i) s.tasks

theorem Sound.absent_ahead (sound : P.Sound s) {j : Nat} {q : π} (task : s.tasks[j]? = some q)
    (idle : P.wants q = none) : j ∉ s.queue := by
  intro listed
  obtain ⟨q', task', waits⟩ := (sound.queued j).mp listed
  rw [task] at task'
  obtain rfl := Option.some.inj task'
  rw [idle] at waits
  cases waits

theorem Sound.rank_move (sound : P.Sound s) (move : P.Move k s s') (waits : i ∈ s.queue)
    (waits' : i ∈ s'.queue) : k.cost + P.rank s' i ≤ P.rank s i := by
  have behind (m : List Nat) : (s.queue ++ m).takeWhile (· ≠ i) = s.queue.takeWhile (· ≠ i) :=
    takeWhile_append_of_mem waits m
  cases move with
  | arrive _ p new =>
      have absent : s.tasks.length ∉ s.queue.takeWhile (· ≠ i) := by
        intro listed
        obtain ⟨q, task, -⟩ := (sound.queued _).mp (List.takeWhile_subset _ listed)
        exact absurd (List.getElem?_eq_some_iff.mp task).1 (lt_irrefl _)
      rw [rank, rank, ahead, ahead, behind, load_arrive (P.fresh_holds new) absent]
      exact (Nat.zero_add _).le
  | join _ j p p' a' task outside act =>
      have absent : j ∉ s.queue.takeWhile (· ≠ i) := fun listed =>
        sound.absent_ahead task (P.step_wants act) (List.takeWhile_subset _ listed)
      have outside' : P.holds p' = none := (P.step_holds act).elim id fun same => same.trans outside
      rw [rank, rank, ahead, ahead, behind, load_set_outside task outside outside' absent]
      exact (Nat.zero_add _).le
  | grant _ j rest p x head task wants free =>
      have apart : j ≠ i := by
        intro same
        have nodup := sound.nodup
        rw [head, List.nodup_cons, same] at nodup
        exact nodup.1 waits'
      have first : ahead s i = j :: rest.takeWhile (· ≠ i) := by
        rw [ahead, head, List.takeWhile_cons_of_pos (by simpa using apart)]
      have less : P.load (rest.takeWhile (· ≠ i)) (s.tasks.set j (P.enter p)) <
          P.load (ahead s i) s.tasks := by
        rw [first]
        exact load_set_lt task (Or.inr (List.mem_cons_self ..)) (P.work_enter (by rw [wants]; rfl))
          fun _ _ listed => List.mem_cons_of_mem _ listed
      rw [Kind.cost, Nat.add_comm]
      exact less
  | work _ j p p' a' task inside act =>
      have less : P.load (s.queue.takeWhile (· ≠ i)) (s.tasks.set j p') <
          P.load (ahead s i) s.tasks :=
        load_set_lt task (Or.inl inside) (P.step_work act inside) fun _ _ listed => listed
      rw [rank, ahead, behind, Kind.cost, Nat.add_comm]
      exact less
  | leave _ j p p' task leaves =>
      have apart : i ≠ j := (sound.nodup.mem_erase_iff.mp waits').1
      have gone : j ∉ (s.queue.erase j).takeWhile (· ≠ i) := fun listed =>
        (sound.nodup.mem_erase_iff.mp (List.takeWhile_subset _ listed)).1 rfl
      rw [Kind.cost, Nat.zero_add]
      exact load_leave_le task (P.leave_holds leaves) gone fun _ listed =>
        mem_takeWhile_of_erase apart.symm listed

theorem Run.bypass (run : P.Run allowed (fun s => i ∈ s.queue) n s s') (sound : P.Sound s) :
    n + P.rank s' i ≤ P.rank s i := by
  induction run with
  | start here => exact (Nat.zero_add _).le
  | @move n k s s' s'' before may last here ih =>
      have waits : i ∈ s'.queue := by cases before <;> assumption
      have step := (before.sound sound).rank_move last waits here
      have earlier := ih sound
      omega

variable (P) in
def total (s : Sharing α π) : Nat := P.load s.queue s.tasks

theorem total_move (move : P.Move .moves s s') : P.total s' < P.total s := by
  cases move with
  | grant _ j rest p x head task wants free =>
      have listed : j ∈ s.queue := by rw [head]; exact List.mem_cons_self ..
      exact load_set_lt task (Or.inr listed) (P.work_enter (by rw [wants]; rfl))
        fun _ _ later => head ▸ List.mem_cons_of_mem _ later
  | work _ j p p' a' task inside act =>
      apply load_set_lt task (Or.inl inside) (P.step_work act inside)
      intro l apart listed
      cases List.mem_append.mp listed with
      | inl old => exact old
      | inr asks => exact absurd (mem_ask.mp asks).1 apart

theorem Sound.total_leave (sound : P.Sound s) (move : P.Move .leaves s s') :
    P.total s' ≤ P.total s := by
  cases move with
  | leave _ j p p' task leaves =>
      refine load_leave_le task (P.leave_holds leaves) ?_ fun l listed => List.mem_of_mem_erase listed
      intro listed
      exact (sound.nodup.mem_erase_iff.mp listed).1 rfl

theorem Run.bounded (run : P.Run allowed invariant n s s') (closed : ¬ allowed .comes)
    (sound : P.Sound s) : n + P.total s' ≤ P.total s := by
  induction run with
  | start here => exact (Nat.zero_add _).le
  | @move n k s s' s'' before may last here ih =>
      have earlier := ih sound
      cases k with
      | comes => exact absurd may closed
      | moves =>
          have step := total_move last
          simp only [Kind.cost]
          omega
      | leaves =>
          have step := (before.sound sound).total_leave last
          simp only [Kind.cost]
          omega

theorem Run.exists_stuck {n : Nat} {s s' : Sharing α π}
    (run : P.Run (fun k => k = .moves) (fun _ => True) n s s') :
    ∃ m t, P.Run (fun k => k = .moves) (fun _ => True) m s t ∧ ∀ t', ¬ P.Move .moves t t' := by
  by_cases stuck : ∀ t, ¬ P.Move .moves s' t
  · exact ⟨n, s', run, stuck⟩
  · obtain ⟨t, last⟩ := not_forall_not.mp stuck
    exact (run.move rfl last trivial).exists_stuck
termination_by P.total s'
decreasing_by exact total_move last

theorem Sound.exists_grant (sound : P.Sound s) (free : ∀ p ∈ s.tasks, P.holds p = none)
    (someone : s.queue ≠ []) : ∃ s', P.Move .moves s s' := by
  obtain ⟨i, rest, head⟩ := List.exists_cons_of_ne_nil someone
  obtain ⟨p, task, waits⟩ := (sound.queued i).mp (head ▸ List.mem_cons_self ..)
  obtain ⟨x, wants⟩ := Option.isSome_iff_exists.mp waits
  refine ⟨_, .grant s i rest p x head task wants ?_⟩
  cases x with
  | read => exact fun q member => by simp [free q member]
  | write => exact free

end Protocol

end OpenMetrics.Library
