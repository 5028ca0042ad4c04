import Mathlib

/-!
# Runs of machines

A machine that answers every event (`runOn`, `repliesOn`), a machine whose steps can be refused
(`runSteps`), and the rules by which what one step keeps is kept by a run.
-/

namespace Junjo

variable {σ τ ε η ω : Type*}

/-! ### Machines that answer -/

section Answers

variable (step : σ → ε → σ × ω)

/-- The state after some events. -/
def runOn (s : σ) (events : List ε) : σ := events.foldl (fun s e => (step s e).1) s

/-- The replies to some events. -/
def repliesOn : σ → List ε → List ω
  | _, [] => []
  | s, e :: events => (step s e).2 :: repliesOn (step s e).1 events

@[simp] lemma runOn_nil (s : σ) : runOn step s [] = s := rfl

@[simp] lemma runOn_cons (s : σ) (e : ε) (events : List ε) :
    runOn step s (e :: events) = runOn step (step s e).1 events := rfl

lemma runOn_concat (s : σ) (events : List ε) (e : ε) :
    runOn step s (events ++ [e]) = (step (runOn step s events) e).1 := by
  rw [runOn, List.foldl_append]
  rfl

variable {step}

/-- Machines whose steps keep a relation and give equal replies reply the same on every run. -/
lemma simulation {step' : τ → η → τ × ω} {R : σ → τ → Prop} {f : ε → η}
    (h : ∀ s t e, R s t → R (step s e).1 (step' t (f e)).1 ∧ (step s e).2 = (step' t (f e)).2)
    {s : σ} {t : τ} (hst : R s t) (events : List ε) :
    R (runOn step s events) (runOn step' t (events.map f)) ∧
      repliesOn step s events = repliesOn step' t (events.map f) := by
  induction events generalizing s t with
  | nil => exact ⟨hst, rfl⟩
  | cons e events ih =>
    obtain ⟨hnext, hreply⟩ := h s t e hst
    obtain ⟨hrun, hreplies⟩ := ih hnext
    refine ⟨hrun, ?_⟩
    rw [repliesOn, List.map_cons, repliesOn, hreply, hreplies]

end Answers

/-! ### Machines whose steps can be refused -/

section Partial

variable (next : σ → ε → Option σ)

/-- The state after some events, when each of them is possible in its turn. -/
def runSteps (s : σ) (events : List ε) : Option σ := events.foldlM next s

@[simp] lemma runSteps_nil (s : σ) : runSteps next s [] = some s := rfl

lemma runSteps_cons (s : σ) (e : ε) (events : List ε) :
    runSteps next s (e :: events) = (next s e).bind fun s' => runSteps next s' events := rfl

lemma runSteps_concat (s : σ) (events : List ε) (e : ε) :
    runSteps next s (events ++ [e]) = (runSteps next s events).bind fun s' => next s' e := by
  rw [runSteps, List.foldlM_append]
  exact bind_congr fun s' => bind_pure _

lemma runSteps_append (s : σ) (before after : List ε) :
    runSteps next s (before ++ after) =
      (runSteps next s before).bind fun s' => runSteps next s' after :=
  List.foldlM_append

variable {next}

/-- What holds at the start and is kept by every step holds after a run. -/
lemma runSteps_invariant {P : σ → Prop} (hstep : ∀ s e s', P s → next s e = some s' → P s')
    {s s' : σ} {events : List ε} (hs : P s) (h : runSteps next s events = some s') : P s' := by
  induction events generalizing s with
  | nil => exact Option.some.inj h ▸ hs
  | cons e events ih =>
    rw [runSteps_cons, Option.bind_eq_some_iff] at h
    obtain ⟨s₁, hnext, hrest⟩ := h
    exact ih (hstep s e s₁ hs hnext) hrest

/-- The rule for runs whose every step meets a condition. -/
lemma runSteps_invariant_of {P : σ → Prop} {C : σ → ε → Prop}
    (hstep : ∀ s e s', P s → C s e → next s e = some s' → P s') {s s' : σ} {events : List ε}
    (hs : P s) (h : runSteps next s events = some s')
    (hC : ∀ before e after s₁, events = before ++ e :: after →
      runSteps next s before = some s₁ → C s₁ e) : P s' := by
  induction events generalizing s with
  | nil => exact Option.some.inj h ▸ hs
  | cons e events ih =>
    rw [runSteps_cons, Option.bind_eq_some_iff] at h
    obtain ⟨s₁, hnext, hrest⟩ := h
    refine ih (hstep s e s₁ hs (hC [] e events s rfl rfl) hnext) hrest ?_
    intro before e' after s₂ hsplit hrun
    refine hC (e :: before) e' after s₂ (by rw [hsplit, List.cons_append]) ?_
    rw [runSteps_cons, hnext]
    exact hrun

/-- A condition on the steps of a run, one step at a time. -/
lemma forall_step_of_take {C : σ → ε → Prop} {s : σ} {events : List ε}
    (h : ∀ n (hn : n < events.length),
      ∀ s₁ ∈ runSteps next s (events.take n), C s₁ (events.get ⟨n, hn⟩))
    (before : List ε) (e : ε) (after : List ε) (s₁ : σ) (hsplit : events = before ++ e :: after)
    (hrun : runSteps next s before = some s₁) : C s₁ e := by
  subst hsplit
  have hstep := h before.length (by simp)
  simpa [hrun] using hstep

end Partial

end Junjo
