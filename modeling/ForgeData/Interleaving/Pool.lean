import ForgeData.Interleaving.Program

/-!
# Pools of programs

Any number of programs run side by side on one state. At each turn a further program is started, or
one of those already there performs its next operation. A program that is never scheduled again has
crashed, or is waiting; a pool does not tell the two apart.
-/

namespace Interleaving

variable {Op : Type} {Ans : Op → Type} {σ ι α : Type}

/-- The program without its result. -/
def Prog.discard (p : Prog Op Ans α) : Prog Op Ans Unit := p.bind fun _ ↦ .pure ()

/-- Every operation that the program can come to perform is of the given kind. -/
def Prog.Performs (P : Op → Prop) : Prog Op Ans α → Prop
  | .pure _ => True
  | .call o k => P o ∧ ∀ a, (k a).Performs P

theorem Prog.Performs.bind {β : Type} {P : Op → Prop} {p : Prog Op Ans α} {f : α → Prog Op Ans β}
    (hp : p.Performs P) (hf : ∀ a, (f a).Performs P) : (p.bind f).Performs P := by
  induction p with
  | pure a => exact hf a
  | call o k ih => exact ⟨hp.1, fun a ↦ ih a (hp.2 a)⟩

theorem Prog.Performs.discard {P : Op → Prop} {p : Prog Op Ans α} (hp : p.Performs P) :
    p.discard.Performs P := hp.bind fun _ ↦ trivial

theorem Prog.Performs.foldlM {β : Type} {P : Op → Prop} {f : β → ι → Prog Op Ans β}
    (hf : ∀ b x, (f b x).Performs P) (l : List ι) (b : β) : (l.foldlM f b).Performs P := by
  induction l generalizing b with
  | nil => trivial
  | cons x l ih =>
    rw [List.foldlM_cons]
    exact (hf b x).bind ih

theorem Prog.Performs.forall_ownSteps {Env : Type} {S : System Op Ans σ Env} {P : Op → Prop}
    {p q : Prog Op Ans α} {s s' : σ} {t : History Op Ans σ Env} (hp : p.Performs P)
    (h : Exec S p s t q s') : ∀ x ∈ ownSteps t, ∃ (o : Op) (a : Ans o), P o ∧ x.event = .own o a := by
  induction h with
  | nil => exact List.forall_mem_nil _
  | @own o k s s' s'' a t q _ _ ih =>
    rw [ownSteps_own]
    exact List.forall_mem_cons.2 ⟨⟨o, a, hp.1, rfl⟩, ih (hp.2 a)⟩
  | env _ _ ih =>
    rw [ownSteps_env]
    exact ih hp

theorem Prog.Performs.mono {P P' : Op → Prop} (hP : ∀ o, P o → P' o) {p : Prog Op Ans α}
    (hp : p.Performs P) : p.Performs P' := by
  induction p with
  | pure a => trivial
  | call o k ih => exact ⟨hP o hp.1, fun a ↦ ih a (hp.2 a)⟩

/-- One operation of one of the programs. -/
structure PoolStep (Op : Type) (Ans : Op → Type) (σ : Type) where
  thread : ℕ
  op : Op
  ans : Ans op
  before : σ
  after : σ

/-- Runs of a pool whose programs are all of the given kind: from the programs and a state, through
a list of steps, to the programs and the state reached. -/
inductive PoolRun (sem : (o : Op) → σ → Ans o → σ → Prop) (Party : Prog Op Ans Unit → Prop) :
    List (Prog Op Ans Unit) → σ → List (PoolStep Op Ans σ) → List (Prog Op Ans Unit) → σ → Prop
  | nil (ps : List (Prog Op Ans Unit)) (s : σ) : PoolRun sem Party ps s [] ps s
  | start {p : Prog Op Ans Unit} {ps qs : List (Prog Op Ans Unit)} {s s' : σ}
      {t : List (PoolStep Op Ans σ)} :
      Party p → PoolRun sem Party (ps ++ [p]) s t qs s' → PoolRun sem Party ps s t qs s'
  | step {i : ℕ} {o : Op} {k : Ans o → Prog Op Ans Unit} {a : Ans o}
      {ps qs : List (Prog Op Ans Unit)} {s s' s'' : σ} {t : List (PoolStep Op Ans σ)} :
      ps[i]? = some (.call o k) → sem o s a s' → PoolRun sem Party (ps.set i (k a)) s' t qs s'' →
      PoolRun sem Party ps s (⟨i, o, a, s, s'⟩ :: t) qs s''

namespace PoolRun

variable {sem : (o : Op) → σ → Ans o → σ → Prop} {Party : Prog Op Ans Unit → Prop}
  {ps qs : List (Prog Op Ans Unit)} {s s' : σ} {t : List (PoolStep Op Ans σ)}

theorem sem_of_mem (h : PoolRun sem Party ps s t qs s') :
    ∀ x ∈ t, sem x.op x.before x.ans x.after := by
  induction h with
  | nil => exact List.forall_mem_nil _
  | start _ _ ih => exact ih
  | step _ hsem _ ih => exact List.forall_mem_cons.2 ⟨hsem, ih⟩

theorem forall_op {P : Op → Prop} (h : PoolRun sem Party ps s t qs s')
    (hparty : ∀ p, Party p → p.Performs P) (hps : ∀ p ∈ ps, p.Performs P) : ∀ x ∈ t, P x.op := by
  induction h with
  | nil => exact List.forall_mem_nil _
  | start hp _ ih =>
    refine ih fun q hq ↦ ?_
    rcases List.mem_append.1 hq with hq | hq
    · exact hps q hq
    · exact List.mem_singleton.1 hq ▸ hparty _ hp
  | step hthread _ _ ih =>
    have hcall := hps _ (List.mem_of_getElem? hthread)
    refine List.forall_mem_cons.2 ⟨hcall.1, ih fun q hq ↦ ?_⟩
    rcases List.mem_or_eq_of_mem_set hq with hq | rfl
    · exact hps q hq
    · exact hcall.2 _

/-- **The invariant rule**: what every step of the run keeps holds in every state it reaches. -/
theorem invariant {J : σ → Prop} (h : PoolRun sem Party ps s t qs s')
    (hstep : ∀ x ∈ t, J x.before → J x.after) (hs : J s) : J s' ∧ ∀ x ∈ t, J x.after := by
  induction h with
  | nil => exact ⟨hs, List.forall_mem_nil _⟩
  | start _ _ ih => exact ih hstep hs
  | step _ _ _ ih =>
    rw [List.forall_mem_cons] at hstep
    have hafter := hstep.1 hs
    exact (ih hstep.2 hafter).imp_right fun hrest ↦ List.forall_mem_cons.2 ⟨hafter, hrest⟩

theorem invariant_before {J : σ → Prop} (h : PoolRun sem Party ps s t qs s')
    (hstep : ∀ x ∈ t, J x.before → J x.after) (hs : J s) : ∀ x ∈ t, J x.before := by
  induction h with
  | nil => exact List.forall_mem_nil _
  | start _ _ ih => exact ih hstep hs
  | step _ _ _ ih =>
    rw [List.forall_mem_cons] at hstep
    exact List.forall_mem_cons.2 ⟨hs, ih hstep.2 (hstep.1 hs)⟩

theorem exists_of_append {t₁ t₂ : List (PoolStep Op Ans σ)} {x : PoolStep Op Ans σ}
    (h : PoolRun sem Party ps s (t₁ ++ x :: t₂) qs s') :
    ∃ ps', PoolRun sem Party ps' x.after t₂ qs s' := by
  generalize ht : t₁ ++ x :: t₂ = t at h
  induction h generalizing t₁ with
  | nil => cases t₁ <;> cases ht
  | start _ _ ih => exact ih ht
  | step _ _ hrest ih =>
    cases t₁ with
    | nil =>
      cases ht
      exact ⟨_, hrest⟩
    | cons y t₁ =>
      cases ht
      exact ih rfl

/-- The steps up to one of them are a run themselves. -/
theorem exists_upto {t₁ t₂ : List (PoolStep Op Ans σ)} {x : PoolStep Op Ans σ}
    (h : PoolRun sem Party ps s (t₁ ++ x :: t₂) qs s') :
    ∃ ps', PoolRun sem Party ps s (t₁ ++ [x]) ps' x.after := by
  generalize ht : t₁ ++ x :: t₂ = t at h
  induction h generalizing t₁ with
  | nil => cases t₁ <;> cases ht
  | start hp _ ih =>
    obtain ⟨ps', hrun⟩ := ih ht
    exact ⟨ps', .start hp hrun⟩
  | step hthread hsem _ ih =>
    cases t₁ with
    | nil =>
      cases ht
      exact ⟨_, .step hthread hsem (.nil _ _)⟩
    | cons y t₁ =>
      cases ht
      obtain ⟨ps', hrun⟩ := ih rfl
      exact ⟨ps', .step hthread hsem hrun⟩

/-- The steps before one of them are a run themselves. -/
theorem exists_until {t₁ t₂ : List (PoolStep Op Ans σ)} {x : PoolStep Op Ans σ}
    (h : PoolRun sem Party ps s (t₁ ++ x :: t₂) qs s') :
    ∃ ps', PoolRun sem Party ps s t₁ ps' x.before := by
  generalize ht : t₁ ++ x :: t₂ = t at h
  induction h generalizing t₁ with
  | nil => cases t₁ <;> cases ht
  | start hp _ ih =>
    obtain ⟨ps', hrun⟩ := ih ht
    exact ⟨ps', .start hp hrun⟩
  | step hthread hsem _ ih =>
    cases t₁ with
    | nil =>
      cases ht
      exact ⟨_, .nil _ _⟩
    | cons y t₁ =>
      cases ht
      obtain ⟨ps', hrun⟩ := ih rfl
      exact ⟨ps', .step hthread hsem hrun⟩

end PoolRun

/-! ## Schedules of pools -/

/-- A further program is started, or one of them performs its next operation. -/
inductive PoolTurn (Op : Type) (Ans : Op → Type) (ι : Type) where
  | start (p : Prog Op Ans Unit)
  | act (thread : ℕ) (i : ι)

/-- The program that a turn starts. -/
def PoolTurn.program? : PoolTurn Op Ans ι → Option (Prog Op Ans Unit)
  | .start p => some p
  | .act _ _ => none

/-- The programs that a schedule starts. -/
def PoolTurn.started (turns : List (PoolTurn Op Ans ι)) : List (Prog Op Ans Unit) :=
  turns.filterMap PoolTurn.program?

theorem PoolTurn.mem_started {p : Prog Op Ans Unit} {turns : List (PoolTurn Op Ans ι)} :
    p ∈ started turns ↔ .start p ∈ turns := by
  rw [started, List.mem_filterMap]
  constructor
  · rintro ⟨turn, hturn, hp⟩
    cases turn with
    | start q => rwa [← Option.some.inj hp]
    | act thread i => cases hp
  · intro hp
    exact ⟨.start p, hp, rfl⟩

/-- A point of a run of a pool. -/
structure PoolPoint (Op : Type) (Ans : Op → Type) (σ : Type) where
  history : List (PoolStep Op Ans σ)
  threads : List (Prog Op Ans Unit)
  state : σ

/-- The point that a schedule leads to. A finished or missing program skips its turns. -/
def simulatePool (run : ι → (o : Op) → σ → Ans o × σ) :
    List (PoolTurn Op Ans ι) → List (Prog Op Ans Unit) → σ → PoolPoint Op Ans σ
  | [], ps, s => ⟨[], ps, s⟩
  | .start p :: turns, ps, s => simulatePool run turns (ps ++ [p]) s
  | .act thread i :: turns, ps, s =>
    match ps[thread]? with
    | some (.call o k) =>
      let next := simulatePool run turns (ps.set thread (k (run i o s).1)) (run i o s).2
      ⟨⟨thread, o, (run i o s).1, s, (run i o s).2⟩ :: next.history, next.threads, next.state⟩
    | _ => simulatePool run turns ps s

/-- Every schedule that starts only programs of the given kind leads to a run. -/
theorem poolRun_simulatePool {sem : (o : Op) → σ → Ans o → σ → Prop}
    {Party : Prog Op Ans Unit → Prop} {run : ι → (o : Op) → σ → Ans o × σ}
    (hrun : ∀ i o s, sem o s (run i o s).1 (run i o s).2) {turns : List (PoolTurn Op Ans ι)}
    (hparty : ∀ p, .start p ∈ turns → Party p) (ps : List (Prog Op Ans Unit)) (s : σ) :
    PoolRun sem Party ps s (simulatePool run turns ps s).history
      (simulatePool run turns ps s).threads (simulatePool run turns ps s).state := by
  induction turns generalizing ps s with
  | nil => exact .nil ps s
  | cons turn turns ih =>
    have hrest : ∀ p, .start p ∈ turns → Party p := fun p hp ↦
      hparty p (List.mem_cons_of_mem turn hp)
    cases turn with
    | start p => exact .start (hparty p (List.mem_cons_self ..)) (ih hrest _ _)
    | act thread i =>
      rw [simulatePool]
      split
      · next o k hthread => exact .step hthread (hrun i o s) (ih hrest _ _)
      · exact ih hrest ps s

end Interleaving
