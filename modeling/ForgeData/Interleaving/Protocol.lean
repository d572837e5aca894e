import ForgeData.Interleaving.Program

/-!
# Protocols

A protocol says which operations a party may perform in which phase, and to which phase an answer
leads. `Prog.Follows` says that a program keeps to a protocol; it is proved by walking through the
program once, with `Follows.bind` at every sequencing.

What is shown about every interleaved execution of the program is then a statement about phases: an
assertion on the phase, the history and the state that every step of the protocol keeps when it is
performed, and that the environment keeps too (`Follows.invariant`). The program itself is not looked
at again.
-/

namespace Interleaving

variable {Op : Type} {Ans : Op → Type} {α β ε σ Env Q : Type}

/-- In the first phase the operation may be performed, and the answer leads to the second. -/
abbrev Protocol (Op : Type) (Ans : Op → Type) (Q : Type) := Q → (o : Op) → Ans o → Q → Prop

namespace Prog

/-- From phase `q` the program keeps to the protocol, and it ends in a phase allowed by `fin`. -/
def Follows (next : Protocol Op Ans Q) (fin : α → Q → Prop) : Prog Op Ans α → Q → Prop
  | pure a, q => fin a q
  | call o k, q => ∀ a, ∃ q', next q o a q' ∧ (k a).Follows next fin q'

variable {next : Protocol Op Ans Q} {fin : α → Q → Prop} {fin' : β → Q → Prop}

@[simp] theorem follows_pure {a : α} {q : Q} :
    (pure a : Prog Op Ans α).Follows next fin q ↔ fin a q := Iff.rfl

@[simp] theorem follows_call {o : Op} {k : Ans o → Prog Op Ans α} {q : Q} :
    (call o k).Follows next fin q ↔ ∀ a, ∃ q', next q o a q' ∧ (k a).Follows next fin q' := Iff.rfl

@[simp] theorem follows_op {o : Op} {fin : Ans o → Q → Prop} {q : Q} :
    (op o : Prog Op Ans (Ans o)).Follows next fin q ↔ ∀ a, ∃ q', next q o a q' ∧ fin a q' := Iff.rfl

theorem follows_op_bind {o : Op} {f : Ans o → Prog Op Ans α} {q : Q} :
    (op o >>= f).Follows next fin q ↔ ∀ a, ∃ q', next q o a q' ∧ (f a).Follows next fin q' := Iff.rfl

theorem Follows.mono {fin₁ fin₂ : α → Q → Prop} (h : ∀ a q, fin₁ a q → fin₂ a q)
    {p : Prog Op Ans α} {q : Q} (hp : p.Follows next fin₁ q) : p.Follows next fin₂ q := by
  induction p generalizing q with
  | pure a => exact h a q hp
  | call o k ih =>
    intro a
    obtain ⟨q', hq', hk⟩ := hp a
    exact ⟨q', hq', ih a hk⟩

/-- **Sequencing**: the second program takes over in the phase where the first one ends. -/
theorem Follows.bind {p : Prog Op Ans α} {f : α → Prog Op Ans β} {q : Q}
    (hp : p.Follows next fin q) (hf : ∀ a q', fin a q' → (f a).Follows next fin' q') :
    (p.bind f).Follows next fin' q := by
  induction p generalizing q with
  | pure a => exact hf a q hp
  | call o k ih =>
    intro a
    obtain ⟨q', hq', hk⟩ := hp a
    exact ⟨q', hq', ih a hk⟩

theorem Follows.andThen {p : Prog Op Ans (Except ε α)} {f : α → Prog Op Ans (Except ε β)} {q : Q}
    {fin : Except ε α → Q → Prop} {fin' : Except ε β → Q → Prop} (hp : p.Follows next fin q)
    (hok : ∀ a q', fin (.ok a) q' → (f a).Follows next fin' q')
    (herror : ∀ e q', fin (.error e) q' → fin' (.error e) q') :
    (p.andThen f).Follows next fin' q := by
  refine hp.bind fun r q' hfin ↦ ?_
  rcases r with e | a
  · exact herror e q' hfin
  · exact hok a q' hfin

theorem Follows.map {Q' : Type} {next' : Protocol Op Ans Q'} (f : Q → Q')
    (hnext : ∀ q o a q', next q o a q' → next' (f q) o a (f q')) {p : Prog Op Ans α} {q : Q}
    (hp : p.Follows next fin q) :
    p.Follows next' (fun a q' ↦ ∃ q₀, q' = f q₀ ∧ fin a q₀) (f q) := by
  induction p generalizing q with
  | pure a => exact ⟨q, rfl, hp⟩
  | call o k ih =>
    intro a
    obtain ⟨q', hq', hk⟩ := hp a
    exact ⟨f q', hnext q o a q' hq', ih a hk⟩

/-- A loop keeps to the protocol if its body does, and if a condition on the value and the phase holds
before and after every pass. -/
theorem Follows.foldlM {ι : Type} {I : β → Q → Prop} {f : β → ι → Prog Op Ans β} {l : List ι} {b : β}
    {q : Q} (hf : ∀ b, ∀ x ∈ l, ∀ q, I b q → (f b x).Follows next I q) (hb : I b q) :
    (l.foldlM f b).Follows next I q := by
  induction l generalizing b q with
  | nil => exact hb
  | cons x l ih =>
    rw [List.foldlM_cons]
    exact (hf b x (List.mem_cons_self ..) q hb).bind fun b' q' hb' ↦
      ih (fun b y hy ↦ hf b y (List.mem_cons_of_mem x hy)) hb'

/-- **The invariant rule.** An assertion that every performed step of the protocol keeps, and every
step of the environment, holds wherever an execution of a program that follows it has got to; and
what is left of the program follows the protocol from there. -/
theorem Follows.invariant {S : System Op Ans σ Env} {J : Q → History Op Ans σ Env → σ → Prop}
    (hown : ∀ {q h s o a q' s'}, J q h s → next q o a q' → S.sem o s a s' →
      J q' (h ++ [⟨.own o a, s, s'⟩]) s')
    (henv : ∀ {q h s e s'}, J q h s → S.env e s s' → J q (h ++ [⟨.env e, s, s'⟩]) s')
    {p p' : Prog Op Ans α} {q : Q} {h t : History Op Ans σ Env} {s s' : σ}
    (hp : p.Follows next fin q) (hJ : J q h s) (hexec : Exec S p s t p' s') :
    ∃ q', J q' (h ++ t) s' ∧ p'.Follows next fin q' := by
  induction hexec generalizing q h with
  | nil p s => exact ⟨q, by rwa [List.append_nil], hp⟩
  | own hsem _ ih =>
    obtain ⟨q', hnext, hk⟩ := hp _
    simpa using ih hk (hown hJ hnext hsem)
  | env hstep _ ih => simpa using ih hp (henv hJ hstep)

end Prog

end Interleaving
