import ForgeData.Interleaving.Program

/-!
# Schedules

When the operations are functions of what they draw from outside, an execution is determined by a
schedule: at each turn either the program performs its next operation or the environment acts.
Executions of concrete programs are computed this way.
-/

namespace Interleaving

variable {Op : Type} {Ans : Op → Type} {α ι σ Env : Type}

/-- Whose turn it is, and what is drawn from outside. -/
inductive Turn (ι Env : Type) where
  | own (i : ι)
  | env (e : Env)

/-- A point of an execution: the steps so far, what is left of the program, and the state. -/
structure Point (Op : Type) (Ans : Op → Type) (σ Env α : Type) where
  history : History Op Ans σ Env
  rest : Prog Op Ans α
  state : σ

/-- The point that a schedule leads to. A finished program skips its turns. -/
def simulate (run : ι → (o : Op) → σ → Ans o × σ) (act : Env → σ → σ) :
    List (Turn ι Env) → Prog Op Ans α → σ → Point Op Ans σ Env α
  | [], p, s => ⟨[], p, s⟩
  | .own i :: turns, .call o k, s =>
    let next := simulate run act turns (k (run i o s).1) (run i o s).2
    ⟨⟨.own o (run i o s).1, s, (run i o s).2⟩ :: next.history, next.rest, next.state⟩
  | .own _ :: turns, .pure a, s => simulate run act turns (.pure a) s
  | .env e :: turns, p, s =>
    let next := simulate run act turns p (act e s)
    ⟨⟨.env e, s, act e s⟩ :: next.history, next.rest, next.state⟩

/-- What a finished program has returned. -/
def Prog.result? : Prog Op Ans α → Option α
  | .pure a => some a
  | .call _ _ => none

theorem Prog.eq_pure_of_result? {p : Prog Op Ans α} {a : α} (h : p.result? = some a) :
    p = .pure a := by
  cases p with
  | pure b => rw [Option.some.inj h]
  | call => cases h

theorem exec_simulate {S : System Op Ans σ Env} {run : ι → (o : Op) → σ → Ans o × σ}
    {act : Env → σ → σ} (hrun : ∀ i o s, S.sem o s (run i o s).1 (run i o s).2)
    (hact : ∀ e s, S.env e s (act e s)) (turns : List (Turn ι Env)) (p : Prog Op Ans α) (s : σ) :
    Exec S p s (simulate run act turns p s).history (simulate run act turns p s).rest
      (simulate run act turns p s).state := by
  induction turns generalizing p s with
  | nil => exact .nil p s
  | cons turn turns ih =>
    cases turn with
    | env e => exact .env (hact e s) (ih p _)
    | own i =>
      cases p with
      | pure a => exact ih (.pure a) s
      | call o k => exact .own (hrun i o s) (ih _ _)

end Interleaving
