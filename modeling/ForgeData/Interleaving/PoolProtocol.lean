import ForgeData.Interleaving.Pool
import ForgeData.Interleaving.Protocol
import Mathlib.Logic.Function.Basic

/-!
# Protocols in a pool

If every program of a pool keeps to a protocol, every point of a run has a phase for each thread, and
each step moves its own thread along the protocol. An assertion on the phases, the history and the
state that every such step keeps holds wherever the run has got to. Threads that are not there yet are
in the first phase, so that starting a program changes nothing.
-/

namespace Interleaving

variable {Op : Type} {Ans : Op → Type} {σ Q : Type} {sem : (o : Op) → σ → Ans o → σ → Prop}
  {Party : Prog Op Ans Unit → Prop} {next : Protocol Op Ans Q} {fin : Unit → Q → Prop} {first : Q}

theorem Prog.Performs.follows {α : Type} {P : Op → Prop} (hnext : ∀ q o a, P o → ∃ q', next q o a q')
    {p : Prog Op Ans α} (hp : p.Performs P) (q : Q) : p.Follows next (fun _ _ ↦ True) q := by
  induction p generalizing q with
  | pure a => trivial
  | call o k ih =>
    intro a
    obtain ⟨q', hq'⟩ := hnext q o a hp.1
    exact ⟨q', hq', ih a (hp.2 a) q'⟩

/-- Every operation of a program that keeps to a protocol is one to which the protocol admits the
picked answer. -/
theorem Prog.Follows.performs_of_pick {α : Type} (pick : ∀ o, Ans o) {P : Op → Prop}
    {fin : α → Q → Prop} (hnext : ∀ {q o q'}, next q o (pick o) q' → P o) {p : Prog Op Ans α} {q : Q}
    (hp : p.Follows next fin q) : p.Performs P := by
  induction p generalizing q with
  | pure a => trivial
  | call o k ih =>
    obtain ⟨q', hq', -⟩ := hp (pick o)
    refine ⟨hnext hq', fun b ↦ ?_⟩
    obtain ⟨q'', -, hk⟩ := hp b
    exact ih b hk

theorem Prog.Follows.performs {α : Type} [∀ o, Nonempty (Ans o)] {P : Op → Prop} {fin : α → Q → Prop}
    (hnext : ∀ {q o a q'}, next q o a q' → P o) {p : Prog Op Ans α} {q : Q}
    (hp : p.Follows next fin q) : p.Performs P :=
  hp.performs_of_pick (fun _ ↦ Classical.choice inferInstance) hnext

/-- The steps of one thread. -/
def threadSteps (i : ℕ) (t : List (PoolStep Op Ans σ)) : List (PoolStep Op Ans σ) :=
  t.filter (·.thread = i)

@[simp] theorem threadSteps_append (i : ℕ) (t t' : List (PoolStep Op Ans σ)) :
    threadSteps i (t ++ t') = threadSteps i t ++ threadSteps i t' := List.filter_append ..

theorem threadSteps_own (x : PoolStep Op Ans σ) : threadSteps x.thread [x] = [x] := by
  simp [threadSteps]

theorem threadSteps_other {i : ℕ} {x : PoolStep Op Ans σ} (hx : x.thread ≠ i) :
    threadSteps i [x] = [] := by simp [threadSteps, hx]

/-- **The invariant rule of a pool**: what every step of the protocol keeps, together with the phase of
the thread that takes it, holds wherever a run of programs that follow the protocol has got to. -/
theorem PoolRun.invariant_of_follows {J : (ℕ → Q) → List (PoolStep Op Ans σ) → σ → Prop}
    (hparty : ∀ p : Prog Op Ans Unit, Party p → p.Follows next fin first)
    (hstep : ∀ {phase h s i o a q s'}, J phase h s → next (phase i) o a q → sem o s a s' →
      J (Function.update phase i q) (h ++ [⟨i, o, a, s, s'⟩]) s')
    {ps qs : List (Prog Op Ans Unit)} {s s' : σ} {h t : List (PoolStep Op Ans σ)} {phase : ℕ → Q}
    (hrun : PoolRun sem Party ps s t qs s')
    (hps : ∀ (i : ℕ) (p : Prog Op Ans Unit), ps[i]? = some p → p.Follows next fin (phase i))
    (hnew : ∀ i, ps.length ≤ i → phase i = first) (hJ : J phase h s) :
    ∃ phase', J phase' (h ++ t) s' := by
  induction hrun generalizing h phase with
  | nil => exact ⟨phase, by rwa [List.append_nil]⟩
  | @start p ps qs s s' t hp _ ih =>
    refine ih (fun i q hq ↦ ?_) (fun i hi ↦ hnew i ?_) hJ
    · rcases Nat.lt_trichotomy i ps.length with hi | rfl | hi
      · rw [List.getElem?_append_left hi] at hq
        exact hps i q hq
      · rw [List.getElem?_concat_length] at hq
        exact hnew ps.length (Nat.le_refl _) ▸ Option.some.inj hq ▸ hparty p hp
      · rw [List.getElem?_eq_none (by simp; omega)] at hq
        cases hq
    · rw [List.length_append] at hi
      omega
  | @step i o k a ps qs s s₁ s' t hthread hsem _ ih =>
    obtain ⟨q, hnext, hk⟩ := hps i _ hthread a
    have hi : i < ps.length := (List.getElem?_eq_some_iff.1 hthread).1
    have hps' : ∀ (j : ℕ) (p : Prog Op Ans Unit), (ps.set i (k a))[j]? = some p →
        p.Follows next fin (Function.update phase i q j) := by
      intro j p hj
      by_cases hji : j = i
      · subst hji
        rw [List.getElem?_set_self hi] at hj
        rw [Function.update_self, ← Option.some.inj hj]
        exact hk
      · rw [List.getElem?_set_ne (Ne.symm hji)] at hj
        rw [Function.update_of_ne hji]
        exact hps j p hj
    have hnew' : ∀ j, (ps.set i (k a)).length ≤ j → Function.update phase i q j = first := by
      intro j hj
      rw [List.length_set] at hj
      rw [Function.update_of_ne (by omega)]
      exact hnew j hj
    obtain ⟨phase', hJ'⟩ := ih hps' hnew' (hstep hJ hnext hsem)
    exact ⟨phase', by simpa using hJ'⟩

theorem PoolRun.exists_phases {J : (ℕ → Q) → List (PoolStep Op Ans σ) → σ → Prop}
    (hparty : ∀ p : Prog Op Ans Unit, Party p → p.Follows next fin first)
    (hstep : ∀ {phase h s i o a q s'}, J phase h s → next (phase i) o a q → sem o s a s' →
      J (Function.update phase i q) (h ++ [⟨i, o, a, s, s'⟩]) s')
    {qs : List (Prog Op Ans Unit)} {s s' : σ} {t : List (PoolStep Op Ans σ)}
    (hrun : PoolRun sem Party [] s t qs s') (hJ : J (fun _ ↦ first) [] s) :
    ∃ phase, J phase t s' :=
  hrun.invariant_of_follows hparty hstep (fun _ _ h ↦ nomatch h) (fun _ _ ↦ rfl) hJ

end Interleaving
