import Mathlib.Data.Int.Notation
import Mathlib.Data.List.Basic
import Mathlib.Data.List.Nodup
import Mathlib.Tactic.Common

/-!
# Generators

A Python generator yields some values and then either returns or raises; the consumer has already
seen what was yielded before the exception. `Gen.loop` is the generator whose body is one `for`
loop over an input followed by a closing part.

`loop_cases` is its invariant rule. The invariant relates the input consumed so far, the loop's
local variables and everything yielded so far, which is how one wants to say what a streaming
algorithm has already decided.
-/

namespace Python

/-- What a generator does when it is run to its end: the values it yields, in order, and the
exception it ends with, if any. -/
structure Gen (ε β : Type) where
  /-- The values yielded, in order. -/
  yields : List β
  /-- The exception the generator ends with. -/
  raised : Option ε

namespace Gen

variable {ε α β σ : Type}

/-- Yield the values `ys` and go on as `g`. -/
def prepend (ys : List β) (g : Gen ε β) : Gen ε β := ⟨ys ++ g.yields, g.raised⟩

/-- `for a in input: step`, then `finish`. One step may yield several values, and may raise. -/
def loop (step : σ → α → Except ε (σ × List β)) (finish : σ → List β) : σ → List α → Gen ε β
  | s, [] => ⟨finish s, none⟩
  | s, a :: l =>
    match step s a with
    | .error e => ⟨[], some e⟩
    | .ok (s', ys) => (loop step finish s' l).prepend ys

/-- **The invariant rule.** If every successful step preserves `I`, then either the whole input is
consumed and `I` holds of it, or some step raises in a state that satisfies `I`. -/
theorem loop_cases {step : σ → α → Except ε (σ × List β)} {finish : σ → List β}
    {I : List α → σ → List β → Prop}
    (hI : ∀ {pre s ys a s' out}, I pre s ys → step s a = .ok (s', out) →
      I (pre ++ [a]) s' (ys ++ out))
    {s₀ : σ} (h₀ : I [] s₀ []) (input : List α) :
    (∃ s ys, I input s ys ∧ loop step finish s₀ input = ⟨ys ++ finish s, none⟩) ∨
      ∃ pre a rest s ys e, input = pre ++ a :: rest ∧ I pre s ys ∧ step s a = .error e ∧
        loop step finish s₀ input = ⟨ys, some e⟩ := by
  suffices h : ∀ (rest pre : List α) (s : σ) (ys : List β), I pre s ys →
      (∃ s' zs, I (pre ++ rest) s' (ys ++ zs) ∧
        loop step finish s rest = ⟨zs ++ finish s', none⟩) ∨
      ∃ mid a post s' zs e, rest = mid ++ a :: post ∧ I (pre ++ mid) s' (ys ++ zs) ∧
        step s' a = .error e ∧ loop step finish s rest = ⟨zs, some e⟩ by
    simpa using h input [] s₀ [] h₀
  intro rest
  induction rest with
  | nil => exact fun pre s ys hs ↦ .inl ⟨s, [], by simpa using hs, rfl⟩
  | cons a rest ih =>
    intro pre s ys hs
    rw [loop]
    rcases hstep : step s a with e | ⟨s', out⟩
    · exact .inr ⟨[], a, rest, s, [], e, rfl, by simpa using hs, hstep, rfl⟩
    · rcases ih (pre ++ [a]) s' (ys ++ out) (hI hs hstep) with
        ⟨t, zs, ht, hloop⟩ | ⟨mid, b, post, t, zs, e, hrest, ht, herr, hloop⟩
      · refine .inl ⟨t, out ++ zs, by simpa using ht, ?_⟩
        simp [hloop, prepend]
      · refine .inr ⟨a :: mid, b, post, t, out ++ zs, e, by rw [hrest]; rfl, by simpa using ht,
          herr, ?_⟩
        simp [hloop, prepend]

end Gen

/-- `range(lo, hi)` over the integers. -/
def range (lo hi : ℤ) : List ℤ := (List.range (hi - lo).toNat).map fun n : ℕ ↦ lo + n

theorem mem_range {lo hi k : ℤ} : k ∈ range lo hi ↔ lo ≤ k ∧ k < hi := by
  simp only [range, List.mem_map, List.mem_range]
  constructor
  · rintro ⟨n, hn, rfl⟩
    omega
  · rintro ⟨hlo, hhi⟩
    exact ⟨(k - lo).toNat, by omega, by omega⟩

theorem nodup_range (lo hi : ℤ) : (range lo hi).Nodup :=
  List.nodup_range.map fun _ _ h ↦ Int.ofNat_inj.1 (Int.add_left_cancel h)

end Python
