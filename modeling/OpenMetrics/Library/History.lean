import OpenMetrics.Library.Act

namespace OpenMetrics.Library

variable {β : Type}

def Accounted (justified : List β → β → Prop) (history : List β) : Prop :=
  ∀ front e back, history = front ++ e :: back → justified front e

theorem accounted_nil (justified : List β → β → Prop) : Accounted justified [] :=
  fun front _ _ split => absurd split.symm (List.append_ne_nil_of_right_ne_nil front (by simp))

theorem Accounted.append {justified : List β → β → Prop} {history : List β}
    (accounted : Accounted justified history) {e : β} (here : justified history e) :
    Accounted justified (history ++ [e]) := by
  intro front e' back split
  rcases List.eq_nil_or_concat back with rfl | ⟨rest, last, rfl⟩
  · obtain ⟨rfl, same⟩ := List.append_inj' split rfl
    obtain rfl := List.singleton_inj.mp same
    exact here
  · rw [List.concat_eq_append, ← List.cons_append, ← List.append_assoc] at split
    obtain ⟨earlier, -⟩ := List.append_inj' split rfl
    exact accounted front e' rest earlier

def Lasting (F : List β → Prop) : Prop := ∀ history more, F history → F (history ++ more)

theorem Lasting.and {F G : List β → Prop} (first : Lasting F) (second : Lasting G) :
    Lasting fun history => F history ∧ G history :=
  fun history more both => ⟨first history more both.1, second history more both.2⟩

theorem lasting_const (P : Prop) : Lasting fun _ : List β => P := fun _ _ holds => holds

theorem lasting_forall {γ : Type} {F : γ → List β → Prop} (each : ∀ c, Lasting (F c)) :
    Lasting fun history => ∀ c, F c history :=
  fun history more all c => each c history more (all c)

theorem Lasting.imp {F : List β → Prop} (lasting : Lasting F) (P : Prop) :
    Lasting fun history => P → F history :=
  fun history more known holds => lasting history more (known holds)

namespace Act

variable {σ α γ : Type}

def traced (events : α → List β) (x : Act σ α) : Act (σ × List β) α := fun s =>
  (x s.1).map fun r => (r.1, r.2, s.2 ++ events r.1)

theorem follows_traced (events : α → List β) (x : Act σ α) : Follows (traced events x) x := by
  intro s history
  rw [traced, Option.map_map]
  exact Option.map_id'

def Tells (justified : List β → β → Prop) (P : List β → Prop) (x : Act (σ × List β) α)
    (Q : α → List β → Prop) : Prop :=
  ∀ s r, Accounted justified s.2 → P s.2 → x s = some r →
    Accounted justified r.2.2 ∧ s.2 <+: r.2.2 ∧ Q r.1 r.2.2

variable {justified : List β → β → Prop} {P : List β → Prop} {Q : α → List β → Prop}

theorem Tells.run {x : Act σ α} {y : Act (σ × List β) α} {R : α → List β → Prop}
    (tells : Tells justified (fun _ => True) y R) (follows : Follows y x) {s : σ} {r : α × σ}
    (run : x s = some r) :
    ∃ history, y (s, []) = some (r.1, r.2, history) ∧ Accounted justified history := by
  rw [← follows s []] at run
  obtain ⟨result, followed, rfl⟩ := Option.map_eq_some_iff.mp run
  obtain ⟨accounted, -⟩ := tells (s, []) result (accounted_nil _) trivial followed
  exact ⟨result.2.2, followed, accounted⟩

theorem tells_pure (a : α) (now : ∀ history, P history → Q a history) :
    Tells justified P (pure a : Act (σ × List β) α) Q := by
  intro s r accounted start run
  obtain rfl := Option.some.inj run
  exact ⟨accounted, List.prefix_refl _, now _ start⟩

theorem tells_bind {R : γ → List β → Prop} {x : Act (σ × List β) γ}
    {f : γ → Act (σ × List β) α} (first : Tells justified P x R)
    (rest : ∀ c, Tells justified (R c) (f c) Q) : Tells justified P (x >>= f) Q := by
  intro s r accounted start run
  obtain ⟨r', here, run⟩ := Option.bind_eq_some_iff.mp run
  obtain ⟨accounted', before, middle⟩ := first s r' accounted start here
  obtain ⟨accounted'', after, done⟩ := rest r'.1 r'.2 r accounted' middle run
  exact ⟨accounted'', before.trans after, done⟩

theorem Tells.weaken {P' : List β → Prop} {Q' : α → List β → Prop} {x : Act (σ × List β) α}
    (tells : Tells justified P x Q) (pre : ∀ history, P' history → P history)
    (post : ∀ a history, Q a history → Q' a history) : Tells justified P' x Q' := by
  intro s r accounted start run
  obtain ⟨accounted', extends', done⟩ := tells s r accounted (pre _ start) run
  exact ⟨accounted', extends', post _ _ done⟩

theorem Tells.frame {F : List β → Prop} (lasting : Lasting F) {x : Act (σ × List β) α}
    (tells : Tells justified P x Q) :
    Tells justified (fun history => P history ∧ F history) x
      (fun a history => Q a history ∧ F history) := by
  intro s r accounted start run
  obtain ⟨accounted', extends', done⟩ := tells s r accounted start.1 run
  refine ⟨accounted', extends', done, ?_⟩
  obtain ⟨more, same⟩ := extends'
  rw [← same]
  exact lasting _ more start.2

theorem Tells.keep {F : List β → Prop} (lasting : Lasting F) {x : Act (σ × List β) α}
    (tells : Tells justified F x fun _ _ => True) : Tells justified F x fun _ => F :=
  (tells.frame lasting).weaken (fun _ known => ⟨known, known⟩) fun _ _ known => known.2

theorem tells_unwrap {a : Option γ} {f : γ → Act (σ × List β) α}
    (rest : ∀ c, a = some c → Tells justified P (f c) Q) :
    Tells justified P (unwrap a >>= f) Q := by
  cases a with
  | none => exact fun s r _ _ run => absurd run.symm (Option.some_ne_none _)
  | some c => exact rest c rfl

theorem tells_forM {F : List β → Prop} (lasting : Lasting F) {l : List γ}
    {body : γ → Act (σ × List β) Unit}
    (rounds : ∀ a ∈ l, Tells justified F (body a) fun _ _ => True) :
    Tells justified F (l.forM body) fun _ _ => True := by
  induction l with
  | nil => exact tells_pure () fun _ _ => trivial
  | cons a rest ih =>
      exact tells_bind ((rounds a (by simp)).keep lasting) fun _ =>
        ih fun b member => rounds b (by simp [member])

theorem tells_traced {events : α → List β} {x : Act σ α}
    (accounted : ∀ a history, Accounted justified history → P history →
      Accounted justified (history ++ events a))
    (told : ∀ a history, P history → Q a (history ++ events a)) :
    Tells justified P (traced events x) Q := by
  intro s r before start run
  obtain ⟨r', -, rfl⟩ := Option.map_eq_some_iff.mp run
  exact ⟨accounted r'.1 s.2 before start, List.prefix_append _ _, told r'.1 s.2 start⟩

theorem tells_event {x : Act σ α} {e : β}
    (here : ∀ history, P history → justified history e) :
    Tells justified P (traced (fun _ => [e]) x) fun _ _ => True :=
  tells_traced (fun _ history before start => before.append (here history start))
    fun _ _ _ => trivial

end Act

end OpenMetrics.Library
