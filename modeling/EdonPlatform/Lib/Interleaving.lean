import EdonPlatform.Lib.Run
import EdonPlatform.Lib.Fallible

/- Programs that take turns on one state. A program is written over atomic statements:
   it asks for one, goes on with its answer, and returns or fails. A pool is a state and
   the programs under way; a move calls another program, or executes the next statement of
   one of them, so a list of moves is an interleaving.

   `run` executes a program alone. `Meets exec R Pre` is the precondition calculus for one
   program among others: each of its statements is executed in a state that meets `Pre`,
   whatever steps of the relation `R` the others take in between. `Pool.Sound.step` and
   `Pool.Sound.pre` carry it to the pool: where every program meets its obligations when it
   is called, every statement that is ever executed meets `Pre`. With `R` equality nobody
   interferes, and `Meets.run` gives what a call made alone returns and leaves. -/
namespace Interleaving

inductive Prog (C : Type) (A : C → Type) (ε α : Type) where
  | done (a : α)
  | fail (e : ε)
  | ask (c : C) (next : A c → Prog C A ε α)

namespace Prog
variable {C : Type} {A : C → Type} {ε α β γ : Type}

def bind : Prog C A ε α → (α → Prog C A ε β) → Prog C A ε β
  | .done a, f => f a
  | .fail e, _ => .fail e
  | .ask c next, f => .ask c (fun a => (next a).bind f)

instance : Monad (Prog C A ε) where
  pure := .done
  bind := bind

/-- One statement. -/
def statement (c : C) : Prog C A ε (A c) := .ask c .done

/-- A computation that asks for nothing. -/
def check : Except ε α → Prog C A ε α
  | .ok a => .done a
  | .error e => .fail e

instance : MonadLift (Except ε) (Prog C A ε) := ⟨check⟩

theorem bind_done (p : Prog C A ε α) : p.bind .done = p := by
  induction p with
  | done a => rfl
  | fail e => rfl
  | ask c next ih =>
    show Prog.ask c _ = Prog.ask c _
    congr 1
    funext a
    exact ih a

theorem bind_assoc (p : Prog C A ε α) (f : α → Prog C A ε β) (g : β → Prog C A ε γ) :
    (p.bind f).bind g = p.bind (fun a => (f a).bind g) := by
  induction p with
  | done a => rfl
  | fail e => rfl
  | ask c next ih =>
    show Prog.ask c _ = Prog.ask c _
    congr 1
    funext a
    exact ih a

instance : LawfulMonad (Prog C A ε) :=
  LawfulMonad.mk' _ bind_done (fun _ _ => rfl) bind_assoc

/-- The statement the program executes next. -/
def head : Prog C A ε α → Option C
  | .ask c _ => some c
  | _ => none

/-! ## A program alone -/

section
variable {σ : Type} (exec : (c : C) → σ → A c × σ)

/-- The program executed without interruption. -/
def run : Prog C A ε α → σ → Except ε α × σ
  | .done a, s => (.ok a, s)
  | .fail e, s => (.error e, s)
  | .ask c next, s => (next (exec c s).1).run (exec c s).2

theorem run_statement (c : C) (f : A c → Prog C A ε β) (s : σ) :
    (statement c >>= f).run exec s = (f (exec c s).1).run exec (exec c s).2 := rfl

theorem run_bind (p : Prog C A ε α) (f : α → Prog C A ε β) (s : σ) :
    (p >>= f).run exec s =
      match p.run exec s with
      | (.ok a, t) => (f a).run exec t
      | (.error e, t) => (.error e, t) := by
  induction p generalizing s with
  | done a => rfl
  | fail e => rfl
  | ask c next ih => exact ih (exec c s).1 (exec c s).2
end

/-! ## What one program guarantees -/

section
variable {σ : Type} (exec : (c : C) → σ → A c × σ) (R : σ → σ → Prop) (Pre : σ → C → Prop)

/-- Started in `s`, with steps of `R` by others before each of its statements, the program
executes each of them in a state that meets `Pre`, returns values that meet `Q`, and fails
in states that meet `E`. -/
def Meets : Prog C A ε α → (α → σ → Prop) → (σ → Prop) → σ → Prop
  | .done a, Q, _, s => Q a s
  | .fail _, _, E, s => E s
  | .ask c next, Q, E, s =>
    ∀ t, R s t → Pre t c ∧ (next (exec c t).1).Meets Q E (exec c t).2
end

section
variable {σ : Type} {exec : (c : C) → σ → A c × σ} {R : σ → σ → Prop} {Pre : σ → C → Prop}
  {E : σ → Prop} {s t : σ}

theorem Meets.mono {p : Prog C A ε α} {Q Q' : α → σ → Prop} (h : ∀ a s, Q a s → Q' a s)
    (hp : p.Meets exec R Pre Q E s) : p.Meets exec R Pre Q' E s := by
  induction p generalizing s with
  | done a => exact h a s hp
  | fail e => exact hp
  | ask c next ih =>
    intro t hst
    obtain ⟨hpre, hnext⟩ := hp t hst
    exact ⟨hpre, ih _ hnext⟩

/-- A program may wait before its first statement. -/
theorem Meets.wait (htrans : ∀ s t u, R s t → R t u → R s u) {p : Prog C A ε α}
    {Q : α → σ → Prop} (hQ : ∀ a, Q a s → Q a t) (hE : E s → E t) (hst : R s t)
    (hp : p.Meets exec R Pre Q E s) : p.Meets exec R Pre Q E t := by
  cases p with
  | done a => exact hQ a hp
  | fail e => exact hE hp
  | ask c next =>
    intro u htu
    exact hp u (htrans s t u hst htu)

theorem meets_bind {p : Prog C A ε α} {f : α → Prog C A ε β} {Q : β → σ → Prop} :
    (p >>= f).Meets exec R Pre Q E s ↔
      p.Meets exec R Pre (fun a t => (f a).Meets exec R Pre Q E t) E s := by
  induction p generalizing s with
  | done a => exact Iff.rfl
  | fail e => exact Iff.rfl
  | ask c next ih =>
    apply forall_congr'
    intro t
    apply imp_congr_right
    intro _
    exact and_congr_right (fun _ => ih _)

theorem meets_pure {a : α} {Q : α → σ → Prop} :
    (pure a : Prog C A ε α).Meets exec R Pre Q E s ↔ Q a s := Iff.rfl

/-- The next statement of a program. -/
theorem Meets.ask {c : C} {f : A c → Prog C A ε β} {Q : β → σ → Prop}
    (h : ∀ t, R s t → Pre t c ∧ (f (exec c t).1).Meets exec R Pre Q E (exec c t).2) :
    (statement c >>= f).Meets exec R Pre Q E s := h

/-- A computation between two statements. -/
theorem Meets.lift {x : Except ε α} {f : α → Prog C A ε β} {Q : β → σ → Prop} (hE : E s)
    (h : ∀ a, x = .ok a → (f a).Meets exec R Pre Q E s) :
    ((liftM x : Prog C A ε α) >>= f).Meets exec R Pre Q E s := by
  cases x with
  | ok a => exact h a rfl
  | error e => exact hE

/-- The computation a program ends with. -/
theorem Meets.last {x : Except ε α} {Q : α → σ → Prop} (hE : E s)
    (h : ∀ a, x = .ok a → Q a s) : (liftM x : Prog C A ε α).Meets exec R Pre Q E s := by
  cases x with
  | ok a => exact h a rfl
  | error e => exact hE

/-- What a program makes of the outcome of a transaction it just executed. -/
theorem Meets.transaction {body : σ → Except ε (α × σ)} {f : α → Prog C A ε β} {Q : β → σ → Prop}
    (hE : E s) (h : ∀ a t, body s = .ok (a, t) → (f a).Meets exec R Pre Q E t) :
    ((liftM (Fallible.transaction body s).1 : Prog C A ε α) >>= f).Meets exec R Pre Q E
      (Fallible.transaction body s).2 := by
  rcases Fallible.transaction_cases body s with ⟨e, _, htx⟩ | ⟨a, t, hok, htx⟩
  · rw [htx]
    exact hE
  · rw [htx]
    exact h a t hok

/-- A loop, with what holds of each item once it has been through. -/
theorem meets_mapM (hrefl : ∀ s, R s s) (htrans : ∀ s t u, R s t → R t u → R s u)
    {f : α → Prog C A ε β} {P : α → σ → Prop} (hP : ∀ a s t, R s t → P a s → P a t)
    (hf : ∀ a s, (f a).Meets exec R Pre (fun _ t => R s t ∧ P a t) E s) (l : List α) (s : σ) :
    (l.mapM f).Meets exec R Pre (fun _ t => R s t ∧ ∀ a ∈ l, P a t) E s := by
  induction l generalizing s with
  | nil => exact ⟨hrefl s, nofun⟩
  | cons a l ih =>
    rw [List.mapM_cons, meets_bind]
    refine (hf a s).mono ?_
    rintro b t ⟨hst, hPt⟩
    rw [meets_bind]
    refine (ih t).mono ?_
    rintro bs u ⟨htu, hl⟩
    refine ⟨htrans s t u hst htu, ?_⟩
    intro x hx
    rcases List.mem_cons.mp hx with rfl | hx
    · exact hP x t u htu hPt
    · exact hl x hx

/-- What a program guarantees among others, it guarantees alone. -/
theorem Meets.run (hrefl : ∀ s, R s s) {p : Prog C A ε α} {Q : α → σ → Prop}
    (hp : p.Meets exec R Pre Q E s) :
    (∃ a t, p.run exec s = (.ok a, t) ∧ Q a t) ∨ ∃ e t, p.run exec s = (.error e, t) ∧ E t := by
  induction p generalizing s with
  | done a => exact .inl ⟨a, s, rfl, hp⟩
  | fail e => exact .inr ⟨e, s, rfl, hp⟩
  | ask c next ih => exact ih _ (hp s (hrefl s)).2

theorem Meets.head (hrefl : ∀ s, R s s) {p : Prog C A ε α} {Q : α → σ → Prop}
    (hp : p.Meets exec R Pre Q E s) {c : C} (h : p.head = some c) : Pre s c := by
  cases p with
  | done a => cases h
  | fail e => cases h
  | ask c' next =>
    cases h
    exact (hp s (hrefl s)).1

theorem Meets.next (hrefl : ∀ s, R s s) {c : C} {next : A c → Prog C A ε α} {Q : α → σ → Prop}
    (hp : (Prog.ask c next).Meets exec R Pre Q E s) :
    (next (exec c s).1).Meets exec R Pre Q E (exec c s).2 := (hp s (hrefl s)).2
end

-- the rules above are what proofs about programs use
attribute [irreducible] Meets

end Prog

/-! ## Pools -/

structure Pool (σ C : Type) (A : C → Type) (ε α : Type) where
  state : σ
  threads : List (Prog C A ε α)

inductive Move (K : Type) where
  | call (k : K)
  | resume (i : Nat)
  deriving DecidableEq, Repr

namespace Pool
variable {σ C K : Type} {A : C → Type} {ε α : Type}

/-- The statement a move executes. -/
def pending (p : Pool σ C A ε α) : Move K → Option C
  | .call _ => none
  | .resume i => (p.threads[i]?).bind Prog.head

section
variable (exec : (c : C) → σ → A c × σ) (program : K → Prog C A ε α)

def step (p : Pool σ C A ε α) : Move K → Pool σ C A ε α
  | .call k => { p with threads := p.threads ++ [program k] }
  | .resume i =>
    match p.threads[i]? with
    | some (.ask c next) => ⟨(exec c p.state).2, p.threads.set i (next (exec c p.state).1)⟩
    | _ => p

/-- Every program under way meets its obligations from here on. -/
def Sound (R : σ → σ → Prop) (Pre : σ → C → Prop) (p : Pool σ C A ε α) : Prop :=
  ∀ t ∈ p.threads, t.Meets exec R Pre (fun _ _ => True) (fun _ => True) p.state
end

section
variable {exec : (c : C) → σ → A c × σ} {program : K → Prog C A ε α} {R : σ → σ → Prop}
  {Pre : σ → C → Prop}

/-- A move changes the state by the statement it executes. -/
theorem step_state (p : Pool σ C A ε α) (m : Move K) :
    (p.step exec program m).state =
      match p.pending m with
      | some c => (exec c p.state).2
      | none => p.state := by
  cases m with
  | call k => rfl
  | resume i =>
    dsimp only [step, pending]
    cases p.threads[i]? with
    | none => rfl
    | some t => cases t <;> rfl

theorem sound_nil (s : σ) : Sound exec R Pre (⟨s, []⟩ : Pool σ C A ε α) := nofun

theorem Sound.pre (hrefl : ∀ s, R s s) {p : Pool σ C A ε α} (hp : p.Sound exec R Pre) {m : Move K}
    {c : C} (h : p.pending m = some c) : Pre p.state c := by
  cases m with
  | call k => cases h
  | resume i =>
    obtain ⟨t, ht, hhead⟩ := Option.bind_eq_some_iff.mp h
    exact (hp t (List.mem_of_getElem? ht)).head hrefl hhead

theorem Sound.step (hrefl : ∀ s, R s s) (htrans : ∀ s t u, R s t → R t u → R s u)
    (hexec : ∀ s c, R s (exec c s).2)
    (hcall : ∀ k s, (program k).Meets exec R Pre (fun _ _ => True) (fun _ => True) s) {p : Pool σ C A ε α}
    (hp : p.Sound exec R Pre) (m : Move K) : (p.step exec program m).Sound exec R Pre := by
  cases m with
  | call k =>
    intro t ht
    rcases List.mem_append.mp ht with ht | ht
    · exact hp t ht
    · rw [List.mem_singleton.mp ht]
      exact hcall k p.state
  | resume i =>
    unfold Pool.step
    dsimp only
    split
    · next c next hi =>
      intro t ht
      rcases List.mem_or_eq_of_mem_set ht with ht | rfl
      · -- another program waited
        exact (hp t ht).wait htrans (fun _ h => h) id (hexec p.state c)
      · exact (hp _ (List.mem_of_getElem? hi)).next hrefl
    · exact hp

end
end Pool
end Interleaving
