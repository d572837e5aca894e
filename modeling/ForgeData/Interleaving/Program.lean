import Mathlib.Data.List.Basic
import Mathlib.Logic.IsEmpty.Basic
import Mathlib.Tactic.Common

/-!
# Programs whose operations interleave with other parties

A program is a tree: it is finished, or it asks for an operation and continues with the answer.
Each operation is one atomic step on a shared state. What an operation may answer and do is given
by a relation, so clocks, fresh identifiers and the outcome of outside work are all left open.

Between any two operations of a program other parties may change the state. An execution is a finite
list of steps, each labelled as the program's own or as one of the environment's, from a program and
a state to what is left of the program and the state reached. Nothing requires the program to be
finished, so every point of a run is the end of an execution, a crash included.
-/

namespace Interleaving

/-- A program over the operations `Op`, whose operation `o` answers in `Ans o`. -/
inductive Prog (Op : Type) (Ans : Op → Type) (α : Type) where
  | pure (a : α)
  | call (o : Op) (k : Ans o → Prog Op Ans α)

variable {Op : Type} {Ans : Op → Type} {α β γ ε σ Env : Type}

namespace Prog

/-- Run the first program, then the second on its result. -/
def bind : Prog Op Ans α → (α → Prog Op Ans β) → Prog Op Ans β
  | pure a, f => f a
  | call o k, f => call o fun x ↦ (k x).bind f

instance : Monad (Prog Op Ans) where
  pure := pure
  bind := bind

/-- The program that performs one operation and returns its answer. -/
def op (o : Op) : Prog Op Ans (Ans o) := call o pure

@[simp] theorem bind_eq (p : Prog Op Ans α) (f : α → Prog Op Ans β) : p >>= f = p.bind f := rfl

@[simp] theorem pure_eq (a : α) : (Pure.pure a : Prog Op Ans α) = pure a := rfl

@[simp] theorem pure_bind (a : α) (f : α → Prog Op Ans β) : (pure a).bind f = f a := rfl

@[simp] theorem call_bind (o : Op) (k : Ans o → Prog Op Ans α) (f : α → Prog Op Ans β) :
    (call o k).bind f = call o fun x ↦ (k x).bind f := rfl

@[simp] theorem bind_pure (p : Prog Op Ans α) : p.bind pure = p := by
  induction p with
  | pure a => rfl
  | call o k ih => rw [call_bind, funext ih]

@[simp] theorem op_bind (o : Op) (f : Ans o → Prog Op Ans β) : (op o).bind f = call o f := rfl

theorem bind_assoc (p : Prog Op Ans α) (f : α → Prog Op Ans β) (g : β → Prog Op Ans γ) :
    (p.bind f).bind g = p.bind fun a ↦ (f a).bind g := by
  induction p with
  | pure a => rfl
  | call o k ih => rw [call_bind, call_bind, call_bind, funext ih]

instance : LawfulMonad (Prog Op Ans) :=
  LawfulMonad.mk' _ bind_pure (fun _ _ ↦ rfl) bind_assoc

/-- Sequencing of programs that may raise: an exception skips the second. -/
def andThen (p : Prog Op Ans (Except ε α)) (f : α → Prog Op Ans (Except ε β)) :
    Prog Op Ans (Except ε β) :=
  p.bind fun
    | .ok a => f a
    | .error e => pure (.error e)

end Prog

/-- What the operations and the environment may do to the shared state. -/
structure System (Op : Type) (Ans : Op → Type) (σ Env : Type) where
  /-- Operation `o` may answer `a` and leave the second state. -/
  sem : (o : Op) → σ → Ans o → σ → Prop
  /-- Another party may take the first state to the second. -/
  env : Env → σ → σ → Prop

/-- Who took a step, and with what answer. -/
inductive Event (Op : Type) (Ans : Op → Type) (Env : Type) where
  | own (o : Op) (a : Ans o)
  | env (e : Env)

/-- One step of an execution, with the states before and after it. -/
structure Step (Op : Type) (Ans : Op → Type) (σ Env : Type) where
  event : Event Op Ans Env
  before : σ
  after : σ

/-- The steps taken so far, oldest first. -/
abbrev History (Op : Type) (Ans : Op → Type) (σ Env : Type) := List (Step Op Ans σ Env)

/-- The steps that the program has taken itself. -/
def ownSteps (t : History Op Ans σ Env) : History Op Ans σ Env :=
  t.filter fun x ↦ match x.event with
    | .own _ _ => true
    | .env _ => false

theorem ownSteps_own (o : Op) (a : Ans o) (s s' : σ) (t : History Op Ans σ Env) :
    ownSteps (⟨.own o a, s, s'⟩ :: t) = ⟨.own o a, s, s'⟩ :: ownSteps t := rfl

theorem ownSteps_env (e : Env) (s s' : σ) (t : History Op Ans σ Env) :
    ownSteps (⟨.env e, s, s'⟩ :: t) = ownSteps t := rfl

theorem ownSteps_append (t t' : History Op Ans σ Env) :
    ownSteps (t ++ t') = ownSteps t ++ ownSteps t' := List.filter_append ..

theorem mem_ownSteps_iff {t : History Op Ans σ Env} {x : Step Op Ans σ Env} {o : Op} {a : Ans o}
    (hx : x.event = .own o a) : x ∈ ownSteps t ↔ x ∈ t := by
  rw [ownSteps, List.mem_filter, hx]
  simp

/-- Executions: from a program in a state, through a list of steps, to what is left of it. -/
inductive Exec (S : System Op Ans σ Env) :
    Prog Op Ans α → σ → History Op Ans σ Env → Prog Op Ans α → σ → Prop
  | nil (p : Prog Op Ans α) (s : σ) : Exec S p s [] p s
  | own {o : Op} {k : Ans o → Prog Op Ans α} {s s' s'' : σ} {a : Ans o}
      {t : History Op Ans σ Env} {q : Prog Op Ans α} :
      S.sem o s a s' → Exec S (k a) s' t q s'' →
      Exec S (.call o k) s (⟨.own o a, s, s'⟩ :: t) q s''
  | env {p : Prog Op Ans α} {e : Env} {s s' s'' : σ} {t : History Op Ans σ Env}
      {q : Prog Op Ans α} :
      S.env e s s' → Exec S p s' t q s'' → Exec S p s (⟨.env e, s, s'⟩ :: t) q s''

namespace Exec

variable {S : System Op Ans σ Env}

theorem append {p q r : Prog Op Ans α} {s s' s'' : σ} {t t' : History Op Ans σ Env}
    (h : Exec S p s t q s') (h' : Exec S q s' t' r s'') : Exec S p s (t ++ t') r s'' := by
  induction h with
  | nil => exact h'
  | own hsem _ ih => exact .own hsem (ih h')
  | env henv _ ih => exact .env henv (ih h')

theorem bind_left {p q : Prog Op Ans α} {s s' : σ} {t : History Op Ans σ Env}
    (h : Exec S p s t q s') (f : α → Prog Op Ans β) : Exec S (p.bind f) s t (q.bind f) s' := by
  induction h with
  | nil => exact .nil _ _
  | own hsem _ ih => exact .own hsem ih
  | env henv _ ih => exact .env henv ih

theorem bind {p : Prog Op Ans α} {f : α → Prog Op Ans β} {a : α} {q : Prog Op Ans β}
    {s s' s'' : σ} {t t' : History Op Ans σ Env}
    (h : Exec S p s t (.pure a) s') (h' : Exec S (f a) s' t' q s'') :
    Exec S (p.bind f) s (t ++ t') q s'' := (h.bind_left f).append h'

/-- An execution of a sequence is still in the first program, or has finished it and is in the
second. -/
theorem of_bind {p : Prog Op Ans α} {f : α → Prog Op Ans β} {q : Prog Op Ans β} {s s' : σ}
    {t : History Op Ans σ Env} (h : Exec S (p.bind f) s t q s') :
    (∃ p', q = p'.bind f ∧ Exec S p s t p' s') ∨
      ∃ a s₁ t₁ t₂, t = t₁ ++ t₂ ∧ Exec S p s t₁ (.pure a) s₁ ∧ Exec S (f a) s₁ t₂ q s' := by
  generalize hp : p.bind f = pf at h
  induction h generalizing p with
  | nil => exact .inl ⟨p, hp.symm, .nil p _⟩
  | @own o k s s₁ s' a t q hsem hrest ih =>
    cases p with
    | pure b =>
      rw [Prog.pure_bind] at hp
      exact .inr ⟨b, s, [], _, rfl, .nil _ _, hp ▸ .own hsem hrest⟩
    | call o' k' =>
      rw [Prog.call_bind] at hp
      cases hp
      rcases ih rfl with ⟨p', hq, h'⟩ | ⟨b, s₂, t₁, t₂, rfl, h₁, h₂⟩
      · exact .inl ⟨p', hq, .own hsem h'⟩
      · exact .inr ⟨b, s₂, _ :: t₁, t₂, rfl, .own hsem h₁, h₂⟩
  | @env p' e s s₁ s' t q henv hrest ih =>
    rcases ih hp with ⟨p'', hq, h'⟩ | ⟨b, s₂, t₁, t₂, rfl, h₁, h₂⟩
    · exact .inl ⟨p'', hq, .env henv h'⟩
    · exact .inr ⟨b, s₂, _ :: t₁, t₂, rfl, .env henv h₁, h₂⟩

theorem of_bind_pure {p : Prog Op Ans α} {f : α → Prog Op Ans β} {b : β} {s s' : σ}
    {t : History Op Ans σ Env} (h : Exec S (p.bind f) s t (.pure b) s') :
    ∃ a s₁ t₁ t₂, t = t₁ ++ t₂ ∧ Exec S p s t₁ (.pure a) s₁ ∧ Exec S (f a) s₁ t₂ (.pure b) s' := by
  rcases h.of_bind with ⟨p', hq, hp⟩ | hdone
  · cases p' with
    | pure a =>
      refine ⟨a, s', t, [], (List.append_nil t).symm, hp, ?_⟩
      rw [Prog.pure_bind] at hq
      exact hq ▸ .nil _ _
    | call o k => cases hq
  · exact hdone

theorem of_pure [IsEmpty Env] {a b : α} {s s' : σ} {t : History Op Ans σ Env}
    (h : Exec S (.pure a) s t (.pure b) s') : b = a ∧ t = [] ∧ s' = s := by
  cases h with
  | nil => exact ⟨rfl, rfl, rfl⟩
  | @env _ e => exact isEmptyElim e

theorem of_call [IsEmpty Env] {o : Op} {k : Ans o → Prog Op Ans α} {b : α} {s s' : σ}
    {t : History Op Ans σ Env} (h : Exec S (.call o k) s t (.pure b) s') :
    ∃ a s₁ t', t = ⟨.own o a, s, s₁⟩ :: t' ∧ S.sem o s a s₁ ∧ Exec S (k a) s₁ t' (.pure b) s' := by
  cases h with
  | own hsem hrest => exact ⟨_, _, _, rfl, hsem, hrest⟩
  | @env _ e => exact isEmptyElim e

theorem ownSteps_of_pure {a b : α} {s s' : σ} {t : History Op Ans σ Env}
    (h : Exec S (.pure a) s t (.pure b) s') : b = a ∧ ownSteps t = [] := by
  generalize hp : (Prog.pure a : Prog Op Ans α) = p at h
  generalize hq : (Prog.pure b : Prog Op Ans α) = q at h
  induction h with
  | nil =>
    cases hp
    cases hq
    exact ⟨rfl, rfl⟩
  | own => cases hp
  | env _ _ ih =>
    obtain ⟨hb, ht⟩ := ih hp hq
    exact ⟨hb, by rwa [ownSteps_env]⟩

/-- The first own step of a program is the operation that it asks for. -/
theorem ownSteps_of_call {o : Op} {k : Ans o → Prog Op Ans α} {b : α} {s s' : σ}
    {t : History Op Ans σ Env} (h : Exec S (.call o k) s t (.pure b) s') :
    ∃ a s₁ s₂ t', ownSteps t = ⟨.own o a, s₁, s₂⟩ :: ownSteps t' ∧ S.sem o s₁ a s₂ ∧
      Exec S (k a) s₂ t' (.pure b) s' := by
  generalize hp : Prog.call o k = p at h
  generalize hq : (Prog.pure b : Prog Op Ans α) = q at h
  induction h with
  | nil =>
    cases hp
    cases hq
  | own hsem hrest =>
    cases hp
    cases hq
    exact ⟨_, _, _, _, ownSteps_own .., hsem, hrest⟩
  | env _ _ ih =>
    obtain ⟨a, s₁, s₂, t', ht, hrest⟩ := ih hp hq
    exact ⟨a, s₁, s₂, t', by rwa [ownSteps_env], hrest⟩

theorem sem_of_mem {p q : Prog Op Ans α} {s s' : σ} {t : History Op Ans σ Env} (h : Exec S p s t q s')
    {x : Step Op Ans σ Env} (hx : x ∈ t) {o : Op} {a : Ans o} (hevent : x.event = .own o a) :
    S.sem o x.before a x.after := by
  induction h with
  | nil => cases hx
  | own hsem _ ih =>
    rcases List.mem_cons.1 hx with rfl | hx
    · cases hevent
      exact hsem
    · exact ih hx
  | env _ _ ih =>
    rcases List.mem_cons.1 hx with rfl | hx
    · cases hevent
    · exact ih hx

theorem exists_of_append {p q : Prog Op Ans α} {s s' : σ} {t₁ t₂ : History Op Ans σ Env}
    {x : Step Op Ans σ Env} (h : Exec S p s (t₁ ++ x :: t₂) q s') : ∃ r, Exec S r x.after t₂ q s' := by
  generalize ht : t₁ ++ x :: t₂ = t at h
  induction h generalizing t₁ with
  | nil => cases t₁ <;> cases ht
  | own _ hrest ih | env _ hrest ih =>
    cases t₁ with
    | nil =>
      cases ht
      exact ⟨_, hrest⟩
    | cons y t₁ =>
      cases ht
      exact ih rfl

theorem ownSteps_of_op_bind {o : Op} {f : Ans o → Prog Op Ans α} {b : α} {s s' : σ}
    {t : History Op Ans σ Env} (h : Exec S (Prog.op o >>= f) s t (.pure b) s') :
    ∃ a s₁ s₂ t', ownSteps t = ⟨.own o a, s₁, s₂⟩ :: ownSteps t' ∧ S.sem o s₁ a s₂ ∧
      Exec S (f a) s₂ t' (.pure b) s' := h.ownSteps_of_call

theorem op {o : Op} {s s' : σ} {a : Ans o} (h : S.sem o s a s') :
    Exec S (Prog.op o) s [⟨.own o a, s, s'⟩] (.pure a) s' := .own h (.nil _ _)

theorem mono {S' : System Op Ans σ Env} (hsem : ∀ o s a s', S.sem o s a s' → S'.sem o s a s')
    (henv : ∀ e s s', S.env e s s' → S'.env e s s') {p q : Prog Op Ans α} {s s' : σ}
    {t : History Op Ans σ Env} (h : Exec S p s t q s') : Exec S' p s t q s' := by
  induction h with
  | nil => exact .nil _ _
  | own hstep _ ih => exact .own (hsem _ _ _ _ hstep) ih
  | env hstep _ ih => exact .env (henv _ _ _ hstep) ih

theorem exists_complete (hS : ∀ o s, ∃ a s', S.sem o s a s') (p : Prog Op Ans α) (s : σ) :
    ∃ t a s', Exec S p s t (.pure a) s' := by
  induction p generalizing s with
  | pure a => exact ⟨[], a, s, .nil _ _⟩
  | call o k ih =>
    obtain ⟨x, s₁, hsem⟩ := hS o s
    obtain ⟨t, a, s', h⟩ := ih x s₁
    exact ⟨_, a, s', .own hsem h⟩

end Exec

/-- A split of a history that was extended by one step: the split is at the new step, or it is a
split of the old history. -/
theorem append_singleton_eq_append_cons {ι : Type} {h t₁ t₂ : List ι} {x y : ι}
    (heq : h ++ [y] = t₁ ++ x :: t₂) :
    (h = t₁ ∧ y = x ∧ t₂ = []) ∨ ∃ t₂', t₂ = t₂' ++ [y] ∧ h = t₁ ++ x :: t₂' := by
  rcases List.eq_nil_or_concat t₂ with rfl | ⟨t₂', z, rfl⟩
  · obtain ⟨rfl, hyx⟩ := List.append_inj' heq rfl
    exact .inl ⟨rfl, List.singleton_inj.1 hyx, rfl⟩
  · rw [List.concat_eq_append, ← List.cons_append, ← List.append_assoc] at heq
    obtain ⟨rfl, hyz⟩ := List.append_inj' heq rfl
    rw [List.concat_eq_append, List.singleton_inj.1 hyz]
    exact .inr ⟨t₂', rfl, rfl⟩

theorem forall_split_iff {ι : Type} {t : List ι} {P : List ι → ι → Prop} :
    (∀ t₁ x t₂, t = t₁ ++ x :: t₂ → P t₁ x) ↔ ∀ n (h : n < t.length), P (t.take n) t[n] := by
  constructor
  · intro h n hn
    refine h _ _ (t.drop (n + 1)) ?_
    rw [← List.drop_eq_getElem_cons hn, List.take_append_drop]
  · rintro h t₁ x t₂ rfl
    simpa using h t₁.length (by simp)

end Interleaving
