import Mathlib.Data.List.Perm.Basic

namespace OpenMetrics.Library

structure Pool (ι ρ : Type) where
  waiting : List ι
  running : List ι
  finished : List (ι × ρ)

namespace Pool

variable {ι ρ : Type}

def start (jobs : List ι) : Pool ι ρ where
  waiting := jobs
  running := []
  finished := []

inductive Step (limit : Nat) : Pool ι ρ → Pool ι ρ → Prop
  | start (job : ι) (rest running : List ι) (finished : List (ι × ρ))
      (room : running.length < limit) :
      Step limit ⟨job :: rest, running, finished⟩ ⟨rest, running ++ [job], finished⟩
  | finish (waiting front : List ι) (job : ι) (back : List ι) (finished : List (ι × ρ))
      (result : ρ) :
      Step limit ⟨waiting, front ++ job :: back, finished⟩
        ⟨waiting, front ++ back, finished ++ [(job, result)]⟩

def jobs (pool : Pool ι ρ) : List ι :=
  pool.waiting ++ pool.running ++ pool.finished.map Prod.fst

def work (pool : Pool ι ρ) : Nat := 2 * pool.waiting.length + pool.running.length

def Done (pool : Pool ι ρ) : Prop := pool.waiting = [] ∧ pool.running = []

variable {limit : Nat} {pool pool' : Pool ι ρ}

@[simp] theorem jobs_start (l : List ι) : (start l : Pool ι ρ).jobs = l := by
  simp [start, jobs]

@[simp] theorem work_start (l : List ι) : (start l : Pool ι ρ).work = 2 * l.length := rfl

theorem Step.jobs_perm (step : Step limit pool pool') : pool'.jobs.Perm pool.jobs := by
  cases step with
  | start job rest running finished room =>
      have moved : (rest ++ (running ++ [job])).Perm (job :: rest ++ running) := by
        rw [← List.append_assoc]
        exact List.perm_append_singleton job (rest ++ running)
      exact moved.append_right _
  | finish waiting front job back finished result =>
      simp only [jobs, List.map_append, List.map_cons, List.map_nil, List.append_assoc]
      apply List.Perm.append_left
      apply List.Perm.append_left
      rw [← List.append_assoc, List.cons_append]
      exact List.perm_append_singleton job (back ++ finished.map Prod.fst)

theorem Step.work_eq (step : Step limit pool pool') : pool'.work + 1 = pool.work := by
  cases step with
  | start job rest running finished room =>
      simp only [work, List.length_append, List.length_cons, List.length_nil]
      omega
  | finish waiting front job back finished result =>
      simp only [work, List.length_append, List.length_cons]
      omega

theorem exists_step [Inhabited ρ] (some_room : 0 < limit) (unfinished : ¬ pool.Done) :
    ∃ pool', Step limit pool pool' := by
  obtain ⟨waiting, running, finished⟩ := pool
  cases running with
  | cons job rest => exact ⟨_, .finish waiting [] job rest finished default⟩
  | nil =>
      cases waiting with
      | nil => exact absurd ⟨rfl, rfl⟩ unfinished
      | cons job rest => exact ⟨_, .start job rest [] finished some_room⟩

theorem Done.jobs_eq (done : pool.Done) : pool.jobs = pool.finished.map Prod.fst := by
  rw [jobs, done.1, done.2, List.append_nil, List.nil_append]

end Pool

end OpenMetrics.Library
