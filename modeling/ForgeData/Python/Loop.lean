import Mathlib.Data.List.Forall2
import Mathlib.Tactic.Common

/-!
# Loops that may raise

A `for` loop whose body may raise is a `List.foldlM` into `Except`. The rules below are how the results
about such loops are proved: one carries an invariant along a run that does not raise, one says when a
run does not raise, and one compares two runs over the same input.
-/

namespace Python

variable {ε α β σ : Type}

@[simp] theorem bind_eq_ok_iff {x : Except ε α} {f : α → Except ε β} {b : β} :
    x >>= f = .ok b ↔ ∃ a, x = .ok a ∧ f a = .ok b := by
  rcases x with e | a
  · exact ⟨fun h ↦ (nomatch h), fun ⟨_, h, _⟩ ↦ (nomatch h)⟩
  · exact ⟨fun h ↦ ⟨a, rfl, h⟩, fun ⟨_, h, h'⟩ ↦ Except.ok.inj h ▸ h'⟩

/-- **The invariant rule** for a loop that may raise. `I` relates the part of the input consumed so
far to the state. -/
theorem foldlM_invariant {f : σ → α → Except ε σ} {I : List α → σ → Prop} {l : List α}
    (hI : ∀ {pre a post s s'}, l = pre ++ a :: post → I pre s → f s a = .ok s' →
      I (pre ++ [a]) s')
    {s₀ s : σ} (h₀ : I [] s₀) (h : l.foldlM f s₀ = .ok s) : I l s := by
  suffices hgen : ∀ (rest pre : List α) (s₀ : σ), l = pre ++ rest → I pre s₀ →
      rest.foldlM f s₀ = .ok s → I l s from hgen l [] s₀ rfl h₀ h
  intro rest
  induction rest with
  | nil =>
    intro pre s₀ hl h₀ h
    rw [hl, List.append_nil, ← Except.ok.inj h]
    exact h₀
  | cons a rest ih =>
    intro pre s₀ hl h₀ h
    rw [List.foldlM_cons, bind_eq_ok_iff] at h
    obtain ⟨s₁, hstep, hrest⟩ := h
    exact ih (pre ++ [a]) s₁ (by simp [hl]) (hI hl h₀ hstep) hrest

/-- **The invariant rule** for a loop that cannot raise. -/
theorem foldl_invariant {f : σ → α → σ} {I : List α → σ → Prop} {l : List α}
    (hI : ∀ {pre a post s}, l = pre ++ a :: post → I pre s → I (pre ++ [a]) (f s a))
    {s₀ : σ} (h₀ : I [] s₀) : I l (l.foldl f s₀) := by
  suffices hgen : ∀ (rest pre : List α) (s₀ : σ), l = pre ++ rest → I pre s₀ →
      I l (rest.foldl f s₀) from hgen l [] s₀ rfl h₀
  intro rest
  induction rest with
  | nil =>
    intro pre s₀ hl h₀
    rw [hl, List.append_nil]
    exact h₀
  | cons a rest ih => exact fun pre s₀ hl h₀ ↦ ih (pre ++ [a]) _ (by simp [hl]) (hI hl h₀)

/-- The rule for showing that a loop does not raise: in a state that satisfies `I` the next pass
succeeds and leaves one that does. -/
theorem foldlM_total {f : σ → α → Except ε σ} {I : List α → σ → Prop} {l : List α}
    (hI : ∀ {pre a post s}, l = pre ++ a :: post → I pre s →
      ∃ s', f s a = .ok s' ∧ I (pre ++ [a]) s')
    {s₀ : σ} (h₀ : I [] s₀) : ∃ s, l.foldlM f s₀ = .ok s ∧ I l s := by
  suffices hgen : ∀ (rest pre : List α) (s₀ : σ), l = pre ++ rest → I pre s₀ →
      ∃ s, rest.foldlM f s₀ = .ok s ∧ I l s from hgen l [] s₀ rfl h₀
  intro rest
  induction rest with
  | nil =>
    intro pre s₀ hl h₀
    exact ⟨s₀, rfl, by rwa [hl, List.append_nil]⟩
  | cons a rest ih =>
    intro pre s₀ hl h₀
    obtain ⟨s₁, hstep, h₁⟩ := hI hl h₀
    obtain ⟨s, hrest, hs⟩ := ih (pre ++ [a]) s₁ (by simp [hl]) h₁
    exact ⟨s, by rw [List.foldlM_cons, hstep]; exact hrest, hs⟩

theorem exists_of_foldlM_eq_error {f : σ → α → Except ε σ} {l : List α} {s₀ : σ} {e : ε}
    (h : l.foldlM f s₀ = .error e) :
    ∃ pre a post s, l = pre ++ a :: post ∧ pre.foldlM f s₀ = .ok s ∧ f s a = .error e := by
  induction l generalizing s₀ with
  | nil => cases h
  | cons a l ih =>
    rw [List.foldlM_cons] at h
    rcases hstep : f s₀ a with e' | s₁
    · rw [hstep] at h
      cases h
      exact ⟨[], a, l, s₀, rfl, rfl, hstep⟩
    · rw [hstep] at h
      obtain ⟨pre, b, post, s, hl, hpre, hb⟩ := ih h
      exact ⟨a :: pre, b, post, s, by rw [hl, List.cons_append],
        by rw [List.foldlM_cons, hstep]; exact hpre, hb⟩

theorem forall₂_of_mapM_eq_ok {f : α → Except ε β} {l : List α} {bs : List β}
    (h : l.mapM f = .ok bs) : List.Forall₂ (fun a b ↦ f a = .ok b) l bs := by
  induction l generalizing bs with
  | nil =>
    rw [List.mapM_nil] at h
    rw [← Except.ok.inj h]
    exact .nil
  | cons a l ih =>
    rw [List.mapM_cons, bind_eq_ok_iff] at h
    obtain ⟨b, hb, h⟩ := h
    rw [bind_eq_ok_iff] at h
    obtain ⟨cs, hcs, h⟩ := h
    rw [← Except.ok.inj h]
    exact .cons hb (ih hcs)

theorem exists_of_forall₂_right {P : α → β → Prop} {l : List α} {l' : List β}
    (h : List.Forall₂ P l l') {b : β} (hb : b ∈ l') : ∃ a ∈ l, P a b := by
  obtain ⟨i, hi, rfl⟩ := List.getElem_of_mem hb
  have hi' : i < l.length := h.length_eq ▸ hi
  exact ⟨l[i], List.getElem_mem hi', (List.forall₂_iff_get.1 h).2 i hi' hi⟩

theorem exists_mapM_eq_ok {f : α → Except ε β} {l : List α} (h : ∀ a ∈ l, ∃ b, f a = .ok b) :
    ∃ bs, l.mapM f = .ok bs := by
  induction l with
  | nil => exact ⟨[], rfl⟩
  | cons a l ih =>
    obtain ⟨b, hb⟩ := h a List.mem_cons_self
    obtain ⟨bs, hbs⟩ := ih fun a' ha' ↦ h a' (List.mem_cons_of_mem _ ha')
    exact ⟨b :: bs, by rw [List.mapM_cons, hb, hbs]; rfl⟩

theorem mapM_eq_some_map {f : α → Option β} {g : α → β} {l : List α} (h : ∀ a ∈ l, f a = some (g a)) :
    l.mapM f = some (l.map g) := by
  induction l with
  | nil => rfl
  | cons a l ih =>
    rw [List.forall_mem_cons] at h
    rw [List.mapM_cons, h.1, ih h.2]
    rfl

/-! ## Two runs side by side -/

/-- Two computations that raise the same exception, or end in related states. -/
def SameUpTo (r : σ → σ → Prop) : Except ε σ → Except ε σ → Prop
  | .error e, .error e' => e = e'
  | .ok s, .ok t => r s t
  | _, _ => False

theorem SameUpTo.of_eq (x : Except ε σ) : SameUpTo Eq x x := by
  cases x <;> exact rfl

theorem SameUpTo.eq {x y : Except ε σ} (h : SameUpTo Eq x y) : x = y := by
  cases x with
  | error e =>
    cases y with
    | error e' => exact congrArg Except.error h
    | ok t => exact h.elim
  | ok s =>
    cases y with
    | error e' => exact h.elim
    | ok t => exact congrArg Except.ok h

theorem SameUpTo.bind {τ : Type} {r : σ → σ → Prop} {r' : τ → τ → Prop} {x y : Except ε σ}
    {f g : σ → Except ε τ} (h : SameUpTo r x y) (hstep : ∀ s t, r s t → SameUpTo r' (f s) (g t)) :
    SameUpTo r' (x >>= f) (y >>= g) := by
  cases x with
  | error e =>
    cases y with
    | error e' => exact h
    | ok t => exact h.elim
  | ok s =>
    cases y with
    | error e' => exact h.elim
    | ok t => exact hstep s t h

theorem SameUpTo.foldlM {r : σ → σ → Prop} {f : σ → α → Except ε σ} {l : List α}
    (hstep : ∀ s t a, r s t → SameUpTo r (f s a) (f t a)) {s t : σ} (h : r s t) :
    SameUpTo r (l.foldlM f s) (l.foldlM f t) := by
  induction l generalizing s t with
  | nil => exact h
  | cons a l ih =>
    rw [List.foldlM_cons, List.foldlM_cons]
    exact (hstep s t a h).bind fun s t hst ↦ ih hst

end Python
