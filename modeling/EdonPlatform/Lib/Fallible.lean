import Mathlib.Data.List.Basic

/- Computations that return a value or fail. A computation that returned is taken
   apart one step at a time: `bind_ok` for a sequence, `require_ok` and `orRaise_ok`
   for the two ways a check is written, `mem_of_mapM`,
   `result_of_mapM`, `mapM_succeeds` and `forM_ok` for loops. `transaction` is a computation on a state that
   leaves it alone when it fails. -/
namespace Fallible

variable {ε α β : Type}

/-- A computation that did not fail, taken apart. -/
theorem bind_ok {x : Except ε α} {f : α → Except ε β} {b : β} :
    x >>= f = .ok b ↔ ∃ a, x = .ok a ∧ f a = .ok b := by
  cases x with
  | error e => simp [bind, Except.bind]
  | ok a => simp [bind, Except.bind]

/-- A computation that failed, in its first part or in its second. -/
theorem bind_error {x : Except ε α} {f : α → Except ε β} {e : ε} :
    x >>= f = .error e ↔ x = .error e ∨ ∃ a, x = .ok a ∧ f a = .error e := by
  cases x with
  | error e' => simp [bind, Except.bind]
  | ok a => simp [bind, Except.bind]

/-- Fail with `e` unless the condition holds. -/
def require (condition : Bool) (e : ε) : Except ε Unit :=
  if condition then .ok () else .error e

theorem require_ok {condition : Bool} {e : ε} {u : Unit} :
    require condition e = .ok u ↔ condition = true := by
  unfold require
  split <;> simp_all

/-- The value, or fail with `e` where there is none. -/
def orRaise (e : ε) : Option α → Except ε α
  | some a => .ok a
  | none => .error e

theorem orRaise_ok {e : ε} {o : Option α} {a : α} : orRaise e o = .ok a ↔ o = some a := by
  cases o <;> simp [orRaise]

theorem toOption_ok {x : Except ε α} {a : α} : x.toOption = some a ↔ x = .ok a := by
  cases x <;> simp [Except.toOption]

/-- A computation whose result passes a test returned it. -/
theorem ok_of_any {x : Except ε α} {p : α → Bool} (h : x.toOption.any p = true) :
    ∃ a, x = .ok a ∧ p a = true := by
  obtain ⟨a, ha, hp⟩ := (Option.any_eq_true _ _).mp h
  exact ⟨a, toOption_ok.mp ha, hp⟩

/-- Every result of a loop that returned is the result of one of its items. -/
theorem mem_of_mapM {f : α → Except ε β} {l : List α} {ys : List β} (h : l.mapM f = .ok ys) :
    ∀ y ∈ ys, ∃ x ∈ l, f x = .ok y := by
  induction l generalizing ys with
  | nil =>
    cases h
    simp
  | cons x l ih =>
    rw [List.mapM_cons] at h
    obtain ⟨y, hy, h⟩ := bind_ok.mp h
    obtain ⟨ys', hys, h⟩ := bind_ok.mp h
    cases h
    intro z hz
    rcases List.mem_cons.mp hz with rfl | hz
    · exact ⟨x, by simp, hy⟩
    · obtain ⟨w, hw, hwz⟩ := ih hys z hz
      exact ⟨w, List.mem_cons_of_mem _ hw, hwz⟩

/-- Every item of a loop that returned has its result among the results. -/
theorem result_of_mapM {f : α → Except ε β} {l : List α} {ys : List β} (h : l.mapM f = .ok ys) :
    ∀ x ∈ l, ∃ y ∈ ys, f x = .ok y := by
  induction l generalizing ys with
  | nil => simp
  | cons x l ih =>
    rw [List.mapM_cons] at h
    obtain ⟨y, hy, h⟩ := bind_ok.mp h
    obtain ⟨ys', hys, h⟩ := bind_ok.mp h
    cases h
    intro z hz
    rcases List.mem_cons.mp hz with rfl | hz
    · exact ⟨y, by simp, hy⟩
    · obtain ⟨w, hw, hzw⟩ := ih hys z hz
      exact ⟨w, List.mem_cons_of_mem _ hw, hzw⟩

/-- A loop returns when each of its items does. -/
theorem mapM_succeeds {f : α → Except ε β} {l : List α} (h : ∀ x ∈ l, ∃ y, f x = .ok y) :
    ∃ ys, l.mapM f = .ok ys := by
  induction l with
  | nil => exact ⟨[], rfl⟩
  | cons x l ih =>
    obtain ⟨y, hy⟩ := h x List.mem_cons_self
    obtain ⟨ys, hys⟩ := ih fun z hz => h z (List.mem_cons_of_mem _ hz)
    exact ⟨y :: ys, by rw [List.mapM_cons, hy, hys]; rfl⟩

/-- Commit what the body leaves, or nothing when it fails. -/
def transaction {σ : Type} (body : σ → Except ε (α × σ)) (s : σ) : Except ε α × σ :=
  match body s with
  | .error e => (.error e, s)
  | .ok (a, t) => (.ok a, t)

theorem transaction_cases {σ : Type} (body : σ → Except ε (α × σ)) (s : σ) :
    (∃ e, body s = .error e ∧ transaction body s = (.error e, s)) ∨
      ∃ a t, body s = .ok (a, t) ∧ transaction body s = (.ok a, t) := by
  unfold transaction
  cases h : body s with
  | error e => exact .inl ⟨e, rfl, rfl⟩
  | ok r => exact .inr ⟨r.1, r.2, rfl, rfl⟩

theorem forM_ok {f : α → Except ε Unit} {l : List α} {u : Unit} (h : l.forM f = .ok u) :
    ∀ x ∈ l, f x = .ok () := by
  induction l with
  | nil => simp
  | cons x l ih =>
    obtain ⟨_, hx, h⟩ := bind_ok.mp h
    intro y hy
    rcases List.mem_cons.mp hy with rfl | hy
    · exact hx
    · exact ih h y hy

/-- A loop whose body always returns does. -/
theorem forM_succeeds {f : α → Except ε Unit} {l : List α} (h : ∀ x ∈ l, f x = .ok ()) :
    l.forM f = .ok () := by
  induction l with
  | nil => rfl
  | cons x l ih =>
    have hrest := ih fun y hy => h y (List.mem_cons_of_mem _ hy)
    show (f x >>= fun _ => l.forM f) = .ok ()
    rw [h x (List.mem_cons_self ..)]
    exact hrest

end Fallible
