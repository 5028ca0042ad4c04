import Mathlib

/-!
# Programs made of operations

`Prog ω β α` is a program that performs operations of `ω` one after the other, each answered by a
value of `β`, and ends with a value of `α`. What an operation does is not part of the program, so
that one program can run alone (`runAlone`) or with the operations of others in between.
-/

namespace Junjo

universe u

inductive Prog (ω : Type*) (β : ω → Type*) (α : Type*) where
  | done (a : α)
  | op (o : ω) (next : β o → Prog ω β α)

namespace Prog

variable {ω : Type*} {β : ω → Type*} {α γ : Type*} {σ : Type*}

/-- One program after the other. -/
def andThen (p : Prog ω β α) (f : α → Prog ω β γ) : Prog ω β γ :=
  match p with
  | .done a => f a
  | .op o next => .op o fun b => (next b).andThen f

instance : Monad (Prog ω β) where
  pure := .done
  bind := andThen

lemma bind_done (p : Prog ω β α) : p >>= .done = p := by
  induction p with
  | done a => rfl
  | op o next ih => exact congrArg (op o) (funext ih)

lemma bind_bind {δ : Type*} (p : Prog ω β α) (f : α → Prog ω β γ) (g : γ → Prog ω β δ) :
    (p.andThen f).andThen g = p.andThen fun a => (f a).andThen g := by
  induction p with
  | done a => rfl
  | op o next ih => exact congrArg (op o) (funext ih)

instance : LawfulMonad (Prog ω β) :=
  LawfulMonad.mk' _ bind_done (fun _ _ => rfl) bind_bind

/-- The program of a single operation. -/
def perform (o : ω) : Prog ω β (β o) := .op o .done

variable (exec : σ → (o : ω) → β o × σ)

/-- Run a program with nothing in between. -/
def runAlone : σ → Prog ω β α → α × σ
  | s, .done a => (a, s)
  | s, .op o next => runAlone (exec s o).2 (next (exec s o).1)

@[simp] lemma runAlone_done (s : σ) (a : α) :
    runAlone exec s (.done a : Prog ω β α) = (a, s) := rfl

@[simp] lemma runAlone_op (s : σ) (o : ω) (next : β o → Prog ω β α) :
    runAlone exec s (.op o next) = runAlone exec (exec s o).2 (next (exec s o).1) := rfl

@[simp] lemma runAlone_pure (s : σ) (a : α) :
    runAlone exec s (pure a : Prog ω β α) = (a, s) := rfl

@[simp] lemma runAlone_bind {α γ : Type u} (s : σ) (p : Prog ω β α) (f : α → Prog ω β γ) :
    runAlone exec s (p >>= f) =
      runAlone exec (runAlone exec s p).2 (f (runAlone exec s p).1) := by
  induction p generalizing s with
  | done a => rfl
  | op o next ih => exact ih _ _

end Prog

end Junjo
