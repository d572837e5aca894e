import ForgeData.FileSystem.Mount
import ForgeData.Interleaving.PoolProtocol

/-!
# Calls that may fail

What a system call may do when the device or the kernel can fail it at any time. A failed call leaves
the tree as it is, with three exceptions: making a directory may have made some of its parents, a write
may have put down a part of its bytes, and the removal of a directory, whose errors are ignored, may
have left anything of it. A program that is stopped in the middle of a call has taken such a step and
no further one.

Which nodes a call can change at all is `Op.Touches`; everything else stays (`Effect.frame`).
-/

namespace FileSystem

open Python (Dict)
open Interleaving

variable {N B : Type} [DecidableEq N]

/-- The answer and the tree of a call that does not come to its end. -/
def Op.Stops : (o : Op N B) → Tree N B → o.Ans → Tree N B → Prop
  -- the parents are made from the root on
  | .makeDirs p _, t, a, t' =>
    ∃ e q, a = .error e ∧ q <+: p.dropLast ∧ t' = (perform (.makeDirs q true) t).2
  | .append p content, t, a, t' =>
    ∃ e written, a = .error e ∧ written <+: content ∧ t' = (perform (.append p written) t).2
  -- everything goes before the directory that it is in
  | .removeTree p, t, a, t' =>
    a = .ok () ∧ t'.get? p = t.get? p ∧ (∀ q, ¬p <+: q → t'.get? q = t.get? q) ∧
      ∀ q r, p <+: q → t'.get? (q ++ r) ≠ none → t'.get? q = t.get? q
  | _, t, a, t' => (∃ e, a = .error e) ∧ t' = t

/-- What a call may answer, and the tree it may leave. -/
def Effect (o : Op N B) (t : Tree N B) (a : o.Ans) (t' : Tree N B) : Prop :=
  perform o t = (a, t') ∨ o.Stops t a t'

/-- The call may change the node at the path. -/
def Op.Touches (p : Path N) : Op N B → Prop
  | .pathExists _ | .read _ | .list _ => False
  | .makeDirs q _ => p <+: q
  | .create q | .append q _ | .unlink q _ => p = q
  | .replace src dst => p = src ∨ p = dst
  | .rename src dst => src <+: p ∨ dst <+: p
  | .removeTree q => q <+: p

/-! ## What calls leave alone -/

/-- A call that is turned away changes nothing. -/
theorem perform_error {o : Op N B} {t t' : Tree N B} {e : Error} (h : perform o t = (.error e, t')) :
    t' = t := by
  -- every branch of a call answers with success, or with the tree that it got
  have hok {α : Type} {v : α} {t₁ : Tree N B} (heq : ((.ok v : Except Error α), t₁) = (.error e, t')) :
      t' = t := by
    cases (Prod.mk.inj heq).1
  have hself {α : Type} {a : Except Error α} (heq : (a, t) = (.error e, t')) : t' = t :=
    (Prod.mk.inj heq).2.symm
  cases o with
  | pathExists p | list p | removeTree p => exact hok h
  | read p =>
    rw [perform] at h
    split at h
    · exact hself h
    · exact hself h
  | makeDirs p existOk =>
    rw [perform] at h
    split_ifs at h
    · exact hself h
    · exact hself h
    · exact hok h
  | create p =>
    rw [perform] at h
    split_ifs at h
    · exact hself h
    · exact hok h
    · exact hself h
  | append p content =>
    rw [perform] at h
    split at h
    · exact hok h
    · exact hok h
  | unlink p missingOk =>
    rw [perform] at h
    split at h
    · exact hok h
    · exact hself h
    · exact hself h
  | replace src dst =>
    rw [perform] at h
    split at h
    · split_ifs at h
      · exact hself h
      · exact hok h
      · exact hself h
    · exact hself h
  | rename src dst =>
    rw [perform] at h
    split_ifs at h
    · exact hself h
    · exact hself h
    · exact hself h
    · exact hself h
    · exact hok h
    · exact hself h

/-- **The frame rule**: what a call does not touch stays as it is. -/
theorem perform_frame (o : Op N B) (t : Tree N B) {p : Path N} (hp : ¬o.Touches p) :
    (perform o t).2.get? p = t.get? p := by
  cases o with
  | pathExists q | list q => rfl
  | read q =>
    rw [perform]
    split <;> rfl
  -- new directories lie above the path of the call only
  | makeDirs q existOk =>
    rw [perform]
    split_ifs
    · rfl
    · rfl
    · rw [Tree.get?_addDirs, if_neg]
      exact fun hmem ↦ hp (mem_ancestors.mp hmem.1).1
  | create q =>
    rw [perform]
    split_ifs
    · rfl
    · exact (Dict.get?_set ..).trans (if_neg hp)
    · rfl
  | append q content =>
    rw [perform]
    split
    · exact (Dict.get?_set ..).trans (if_neg hp)
    · rfl
  | unlink q missingOk =>
    rw [perform]
    split
    · exact (Dict.get?_erase ..).trans (if_neg hp)
    · rfl
    · rfl
  | replace src dst =>
    obtain ⟨hsrc, hdst⟩ := not_or.mp hp
    rw [perform]
    split
    · split_ifs
      · rfl
      · refine (Dict.get?_set ..).trans ((if_neg hdst).trans ?_)
        exact (Dict.get?_erase ..).trans (if_neg hsrc)
      · rfl
    · rfl
  | rename src dst =>
    obtain ⟨hsrc, hdst⟩ := not_or.mp hp
    rw [perform]
    split_ifs with _ hapart
    · rfl
    · rfl
    · rfl
    · rfl
    · obtain ⟨hsd, hds⟩ := not_or.mp hapart
      rw [Tree.get?_move t hsd hds, if_neg hdst, if_neg hsrc]
    · rfl
  | removeTree q =>
    rw [perform]
    split_ifs
    · exact (t.get?_removeTree q p).trans (if_neg hp)
    · rfl

theorem Effect.frame {o : Op N B} {t t' : Tree N B} {a : o.Ans} {p : Path N} (h : Effect o t a t')
    (hp : ¬o.Touches p) : t'.get? p = t.get? p := by
  rcases h with h | h
  · rw [← perform_frame o t hp, h]
  · cases o with
    | makeDirs q existOk =>
      obtain ⟨_, r, _, hr, rfl⟩ := h
      exact perform_frame (.makeDirs r true) t fun hle ↦
        hp ((List.IsPrefix.trans hle hr).trans (List.dropLast_prefix q))
    | append q content =>
      obtain ⟨_, written, _, _, rfl⟩ := h
      exact perform_frame (.append q written) t hp
    | removeTree q => exact h.2.2.1 p hp
    | _ => rw [h.2]

theorem perform_makeDirs_of_ne_none {p q : Path N} {existOk : Bool} {t : Tree N B}
    (h : t.get? p ≠ none) : (perform (.makeDirs q existOk) t).2.get? p = t.get? p := by
  rw [perform]
  split_ifs
  · rfl
  · rfl
  · rw [Tree.get?_addDirs, if_neg fun hmem ↦ h hmem.2]

theorem Effect.frame_of_makeDirs_error {p q : Path N} {existOk : Bool} {t t' : Tree N B} {e : Error}
    (h : Effect (.makeDirs q existOk) t (.error e) t') (hp : p <+: q.dropLast → t.get? p ≠ none) :
    t'.get? p = t.get? p := by
  rcases h with h | ⟨_, r, _, hr, rfl⟩
  · rw [perform_error h]
  · by_cases hle : p <+: r
    · exact perform_makeDirs_of_ne_none (hp (hle.trans hr))
    · exact perform_frame (.makeDirs r true) t hle

/-! ## Answers -/

section Answers

variable {t t' : Tree N B}

theorem perform_makeDirs_ok {p : Path N} {existOk : Bool}
    (h : perform (.makeDirs p existOk) t = (.ok (), t')) :
    (t.pathExists p = true → existOk = true) ∧ t' = t.addDirs (ancestors p) := by
  rw [perform] at h
  split_ifs at h with _ hexists
  · cases (Prod.mk.inj h).1
  · cases (Prod.mk.inj h).1
  · refine ⟨fun hp ↦ ?_, (Prod.mk.inj h).2.symm⟩
    rw [hp, Bool.true_and, Bool.not_eq_true', Bool.not_eq_false, Bool.and_eq_true] at hexists
    exact hexists.2

theorem perform_create_ok {p : Path N} (h : perform (.create p) t = (.ok (), t')) :
    t' = t.set p (.file []) := by
  rw [perform] at h
  split_ifs at h
  · cases (Prod.mk.inj h).1
  · exact (Prod.mk.inj h).2.symm
  · cases (Prod.mk.inj h).1

theorem perform_unlink_ok {p : Path N} {missingOk : Bool}
    (h : perform (.unlink p missingOk) t = (.ok (), t')) (q : Path N) :
    t'.get? q = if q = p then none else t.get? q := by
  rw [perform] at h
  split at h
  · rw [← (Prod.mk.inj h).2]
    exact Dict.get?_erase ..
  · cases (Prod.mk.inj h).1
  · next hnone =>
    rw [← (Prod.mk.inj h).2]
    split
    · next hq => rw [hq, hnone]
    · rfl

theorem perform_replace_ok {src dst : Path N} {content : List B}
    (hfile : t.get? src = some (.file content))
    (h : perform (.replace src dst) t = (.ok (), t')) :
    t' = (t.erase src).set dst (.file content) := by
  rw [perform, t.file?_eq_some_iff.mpr hfile] at h
  dsimp only at h
  split_ifs at h
  · cases (Prod.mk.inj h).1
  · exact (Prod.mk.inj h).2.symm
  · cases (Prod.mk.inj h).1

theorem perform_rename_ok {src dst : Path N} (h : perform (.rename src dst) t = (.ok (), t')) :
    ¬src <+: dst ∧ ¬dst <+: src ∧ t.below dst = [] ∧ t' = t.move src dst := by
  rw [perform] at h
  split_ifs at h with _ hapart _ hbelow
  · cases (Prod.mk.inj h).1
  · cases (Prod.mk.inj h).1
  · cases (Prod.mk.inj h).1
  · cases (Prod.mk.inj h).1
  · obtain ⟨hsrc, hdst⟩ := not_or.mp hapart
    exact ⟨hsrc, hdst, not_not.mp hbelow, (Prod.mk.inj h).2.symm⟩
  · cases (Prod.mk.inj h).1

end Answers

theorem Effect.of_ok {o : Op N B} {t t' : Tree N B} {v : o.Val} (h : Effect o t (.ok v) t')
    (ho : ∀ p, o ≠ .removeTree p) : perform o t = (.ok v, t') := by
  refine h.resolve_right fun hstops ↦ ?_
  cases o with
  | makeDirs q existOk | append q content =>
    obtain ⟨_, _, hok, _⟩ := hstops
    cases hok
  | removeTree q => exact ho q rfl
  | _ =>
    obtain ⟨⟨_, hok⟩, _⟩ := hstops
    cases hok

/-- The call has all of its effect or none. -/
def Op.Indivisible : Op N B → Prop
  | .makeDirs .. | .append .. => False
  | _ => True

theorem Effect.of_error {o : Op N B} {t t' : Tree N B} {e : Error} (h : Effect o t (.error e) t')
    (ho : o.Indivisible) : t' = t := by
  rcases h with h | h
  · exact perform_error h
  · cases o with
    | makeDirs q existOk | append q content => exact ho.elim
    | removeTree q => cases h.1
    | _ => exact h.2

/-- A result that the call can have. -/
def Op.someVal : (o : Op N B) → o.Val
  | .pathExists _ => false
  | .read _ => []
  | .list _ => []
  | .makeDirs .. | .create _ | .append .. | .unlink .. | .replace .. | .rename .. | .removeTree _ => ()

/-! ## Programs that keep to a protocol -/

section Follows

omit [DecidableEq N]

variable {Q ε α β : Type} {next : Protocol (Op N B) Op.Ans Q} {q : Q}

/-- The ends of a program that may raise: with a result of the first kind, or in a phase of the
second. -/
def Ends (ok : α → Q → Prop) (error : Q → Prop) : Except ε α → Q → Prop
  | .ok a, q => ok a q
  | .error _, q => error q

/-- From the phase on, the program keeps to the protocol and comes to one of the ends. -/
def Program.Follows (next : Protocol (Op N B) Op.Ans Q) (ok : α → Q → Prop) (error : Q → Prop)
    (p : Program N B ε α) (q : Q) : Prop :=
  Prog.Follows next (Ends ok error) p.run q

variable {K M : α → Q → Prop} {F : β → Q → Prop} {E C : Q → Prop}

theorem follows_pure {a : α} (h : K a q) :
    (pure a : Program N B ε α).Follows next K E q := h

theorem follows_throw {e : ε} (h : E q) :
    (throw e : Program N B ε α).Follows next K E q := h

theorem follows_call [HasError ε] {o : Op N B} {K : o.Val → Q → Prop}
    (hok : ∀ v, ∃ q', next q o (.ok v) q' ∧ K v q')
    (herror : ∀ e, ∃ q', next q o (.error e) q' ∧ E q') :
    (call o : Program N B ε o.Val).Follows next K E q := by
  rintro (e | v)
  · exact herror e
  · exact hok v

theorem Program.Follows.bind {p : Program N B ε α} {f : α → Program N B ε β}
    (hp : p.Follows next M E q) (hf : ∀ a q', M a q' → (f a).Follows next F E q') :
    (p >>= f).Follows next F E q := by
  change Prog.Follows next _ (Prog.bind p.run (ExceptT.bindCont f)) q
  refine Prog.Follows.bind hp ?_
  rintro (e | a) q' hend
  · exact hend
  · exact hf a q' hend

theorem Program.Follows.tryCatch {p : Program N B ε α} {f : ε → Program N B ε α}
    (hp : p.Follows next K C q) (hf : ∀ e q', C q' → (f e).Follows next K E q') :
    (tryCatch p f).Follows next K E q := by
  change Prog.Follows next _ (Prog.bind p.run _) q
  refine Prog.Follows.bind hp ?_
  rintro (e | a) q' hend
  · exact hf e q' hend
  · exact hend

theorem Program.Follows.mono {p : Program N B ε α} (hp : p.Follows next M C q)
    (hok : ∀ a q', M a q' → K a q') (herror : ∀ q', C q' → E q') :
    p.Follows next K E q := by
  refine Prog.Follows.mono ?_ hp
  rintro (e | a) q' hend
  · exact herror q' hend
  · exact hok a q' hend

end Follows

end FileSystem
