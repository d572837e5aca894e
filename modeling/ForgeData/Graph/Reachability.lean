import Mathlib.Data.Fintype.Card
import Mathlib.Data.List.Basic
import Mathlib.Data.Set.Finite.Basic
import Mathlib.Logic.Relation
import Mathlib.Order.WellFounded
import Mathlib.Tactic.Common

/-!
# Reachability and acyclic relations

Reachability is the reflexive transitive closure of a relation. Two facts about it carry what is
shown about graphs that grow: a set that contains the start and is closed under the relation contains
everything reachable, and an arrow that closes no loop puts no other arrow on a loop.
-/

namespace Graph

open Relation

variable {κ : Type*} {E E' : κ → κ → Prop} {a b c p x y : κ}

/-- No way leads back to where it started. -/
def Acyclic (E : κ → κ → Prop) : Prop := ∀ x, ¬ TransGen E x x

theorem mem_of_closed {S : Set κ} (hclosed : ∀ x ∈ S, ∀ y, E x y → y ∈ S) (ha : a ∈ S)
    (h : ReflTransGen E a b) : b ∈ S := by
  induction h with
  | refl => exact ha
  | tail _ hstep ih => exact hclosed _ ih _ hstep

theorem reflTransGen_congr (h : ∀ a b, E a b ↔ E' a b) :
    ReflTransGen E a b ↔ ReflTransGen E' a b := by
  rw [show E = E' from funext fun a ↦ funext fun b ↦ propext (h a b)]

theorem eq_or_transGen_of_reflTransGen (h : ReflTransGen E a b) : a = b ∨ TransGen E a b := by
  rcases reflTransGen_iff_eq_or_transGen.1 h with rfl | h
  · exact .inl rfl
  · exact .inr h

namespace Acyclic

theorem mono (h : Acyclic E) (hsub : ∀ a b, E' a b → E a b) : Acyclic E' :=
  fun x hx ↦ h x (TransGen.mono hsub x x hx)

theorem of_rank (rank : κ → ℕ) (h : ∀ a b, E a b → rank a < rank b) : Acyclic E := by
  intro x hx
  have hlt : ∀ {a b}, TransGen E a b → rank a < rank b := by
    intro a b hab
    induction hab with
    | single hstep => exact h _ _ hstep
    | tail _ hstep ih => exact Nat.lt_trans ih (h _ _ hstep)
  exact Nat.lt_irrefl _ (hlt hx)

theorem notMem_of_forall_exists (h : Acyclic E) {S : Set κ} (hS : S.Finite)
    (hpred : ∀ c ∈ S, ∃ p ∈ S, E p c) {x : κ} : x ∉ S := by
  intro hx
  have hfinite : Finite S := hS
  let R (a b : S) : Prop := TransGen E a.1 b.1
  have htrans : IsTrans S R := ⟨fun _ _ _ hab hbc ↦ TransGen.trans hab hbc⟩
  have hirrefl : Std.Irrefl R := ⟨fun a ha ↦ h a.1 ha⟩
  obtain ⟨m, -, hmin⟩ := (Finite.wellFounded_of_trans_of_irrefl R).has_min Set.univ
    ⟨⟨x, hx⟩, trivial⟩
  obtain ⟨p, hp, hpm⟩ := hpred m.1 m.2
  exact hmin ⟨p, hp⟩ trivial (.single hpm)

end Acyclic

theorem transGen_or_of_insert (h : TransGen (fun a b ↦ E a b ∨ (a = p ∧ b = c)) x y) :
    TransGen E x y ∨ ReflTransGen E x p ∧ ReflTransGen (fun a b ↦ E a b ∨ (a = p ∧ b = c)) c y := by
  induction h with
  | single hstep =>
    rcases hstep with hstep | ⟨rfl, rfl⟩
    · exact .inl (.single hstep)
    · exact .inr ⟨.refl, .refl⟩
  | tail _ hstep ih =>
    rcases ih with hold | ⟨hxp, hcy⟩
    · rcases hstep with hnew | ⟨rfl, rfl⟩
      · exact .inl (hold.tail hnew)
      · exact .inr ⟨hold.to_reflTransGen, .refl⟩
    · exact .inr ⟨hxp, hcy.tail hstep⟩

theorem reflTransGen_of_insert (hcp : ¬ ReflTransGen E c p)
    (h : ReflTransGen (fun a b ↦ E a b ∨ (a = p ∧ b = c)) c y) : ReflTransGen E c y := by
  induction h with
  | refl => exact .refl
  | tail _ hstep ih =>
    rcases hstep with hstep | ⟨rfl, rfl⟩
    · exact ih.tail hstep
    · exact (hcp ih).elim

theorem not_reflTransGen_insert (hcp : ¬ ReflTransGen E c p) (hxy : E x y)
    (hyx : ¬ ReflTransGen E y x) : ¬ ReflTransGen (fun a b ↦ E a b ∨ (a = p ∧ b = c)) y x := by
  intro hback
  rcases eq_or_transGen_of_reflTransGen hback with rfl | hback
  · exact hyx .refl
  rcases transGen_or_of_insert hback with hold | ⟨hyp, hcx⟩
  · exact hyx hold.to_reflTransGen
  · exact hcp (((reflTransGen_of_insert hcp hcx).tail hxy).trans hyp)

theorem acyclic_iff : Acyclic E ↔ ∀ a b, E a b → ¬ ReflTransGen E b a := by
  refine ⟨fun h a b hab hba ↦ h a (.head' hab hba), fun h x hx ↦ ?_⟩
  obtain ⟨y, hxy, hyx⟩ := TransGen.head'_iff.1 hx
  exact h x y hxy hyx

end Graph
