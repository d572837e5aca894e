import ForgeData.FileSystem.Tree
import ForgeData.Interleaving.Program

/-!
# Operations on a file system

The system calls that programs make, each one step on the tree. A call answers what the tree makes it
answer, or it fails with an error and leaves the tree as it is. Programs may raise; when nobody else
works on the tree and nothing goes wrong with the device, what a program does is a function of the tree.
-/

namespace FileSystem

open Interleaving

variable {N B : Type}

/-- The errors of system calls. -/
inductive Error where
  | fileExists
  | notFound
  | notADirectory
  | isADirectory
  | notEmpty
  | invalid
deriving DecidableEq

/-- The system calls. -/
inductive Op (N B : Type) where
  /-- Whether there is something at the path. -/
  | pathExists (p : Path N)
  /-- Make a directory and the parents that are missing; an existing one is an error unless
  `existOk`. -/
  | makeDirs (p : Path N) (existOk : Bool)
  /-- Open a file for writing: it is empty then. -/
  | create (p : Path N)
  /-- Write to the open file. -/
  | append (p : Path N) (content : List B)
  | read (p : Path N)
  /-- Unlink a file; a missing one is an error unless `missingOk`. -/
  | unlink (p : Path N) (missingOk : Bool)
  /-- Rename a file, in the place of one that may be there. -/
  | replace (src dst : Path N)
  /-- Rename a directory. -/
  | rename (src dst : Path N)
  /-- The paths below a directory. -/
  | list (p : Path N)
  /-- Remove a directory with everything below it; errors are ignored. -/
  | removeTree (p : Path N)

/-- What a call returns if it does not fail. -/
def Op.Val : Op N B → Type
  | .pathExists _ => Bool
  | .read _ => List B
  | .list _ => List (Path N)
  | _ => Unit

/-- What a call answers. -/
abbrev Op.Ans (o : Op N B) : Type := Except Error o.Val

section Perform

variable [DecidableEq N]

/-- What a call does. -/
def perform : (o : Op N B) → Tree N B → o.Ans × Tree N B
  | .pathExists p, t => (.ok (t.pathExists p), t)
  | .makeDirs p existOk, t =>
    if (ancestors p.dropLast).any fun q ↦ (t.file? q).isSome then (.error .notADirectory, t)
    else if t.pathExists p && !(t.isDir p && existOk) then (.error .fileExists, t)
    else (.ok (), t.addDirs (ancestors p))
  | .create p, t =>
    if t.isDir p then (.error .isADirectory, t)
    else if t.isDir p.dropLast then (.ok (), t.set p (.file []))
    else (.error .notFound, t)
  | .append p content, t =>
    match t.file? p with
    | some before => (.ok (), t.set p (.file (before ++ content)))
    | none => (.ok (), t)
  | .read p, t =>
    match t.file? p with
    | some content => (.ok content, t)
    | none => (.error (if t.isDir p then .isADirectory else .notFound), t)
  | .unlink p missingOk, t =>
    match t.get? p with
    | some (.file _) => (.ok (), t.erase p)
    | some .dir => (.error .isADirectory, t)
    | none => (if missingOk then .ok () else .error .notFound, t)
  | .replace src dst, t =>
    match t.file? src with
    | some content =>
      if t.isDir dst then (.error .isADirectory, t)
      else if t.isDir dst.dropLast then (.ok (), (t.erase src).set dst (.file content))
      else (.error .notFound, t)
    | none => (.error .notFound, t)
  | .rename src dst, t =>
    if !t.isDir src then (.error .notFound, t)
    else if src <+: dst ∨ dst <+: src then (.error .invalid, t)
    else if (t.file? dst).isSome then (.error .notADirectory, t)
    else if t.below dst ≠ [] then (.error .notEmpty, t)
    else if t.isDir dst.dropLast then (.ok (), t.move src dst)
    else (.error .notFound, t)
  | .list p, t => (.ok (t.below p), t)
  | .removeTree p, t => (.ok (), if t.isDir p then t.removeTree p else t)

/-- What a program does if nothing else happens. -/
def runProg {α : Type} : Prog (Op N B) Op.Ans α → Tree N B → α × Tree N B
  | .pure a, t => (a, t)
  | .call o k, t => runProg (k (perform o t).1) (perform o t).2

theorem runProg_bind {α β : Type} (p : Prog (Op N B) Op.Ans α) (f : α → Prog (Op N B) Op.Ans β)
    (t : Tree N B) : runProg (p.bind f) t = runProg (f (runProg p t).1) (runProg p t).2 := by
  induction p generalizing t with
  | pure a => rfl
  | call o k ih => exact ih _ _

end Perform

/-! ## Programs that may raise -/

/-- A program on the file system that may raise. -/
abbrev Program (N B ε α : Type) := ExceptT ε (Prog (Op N B) Op.Ans) α

/-- Exceptions among which those of system calls are. -/
class HasError (ε : Type) where
  ofError : Error → ε

/-- One system call. -/
def call {ε : Type} [HasError ε] (o : Op N B) : Program N B ε o.Val :=
  ExceptT.mk (.call o fun a ↦ .pure (a.mapError HasError.ofError))

/-- The program, run on the first tree, comes to this end and leaves the second tree. -/
def Runs [DecidableEq N] {ε α : Type} (p : Program N B ε α) (t : Tree N B) (r : Except ε α)
    (t' : Tree N B) : Prop :=
  runProg p.run t = (r, t')

namespace Runs

variable [DecidableEq N] {ε α β : Type} {t t' t'' : Tree N B}

theorem pure (a : α) (t : Tree N B) : Runs (Pure.pure a : Program N B ε α) t (.ok a) t := rfl

theorem throw (e : ε) (t : Tree N B) : Runs (throw e : Program N B ε α) t (.error e) t := rfl

theorem call [HasError ε] {o : Op N B} {v : o.Val} (h : perform o t = (.ok v, t')) :
    Runs (FileSystem.call o : Program N B ε o.Val) t (.ok v) t' := by
  change (((perform o t).1.mapError HasError.ofError, (perform o t).2) : Except ε o.Val × _) = _
  rw [h]
  rfl

theorem call_error [HasError ε] {o : Op N B} {e : Error} (h : perform o t = (.error e, t')) :
    Runs (FileSystem.call o : Program N B ε o.Val) t (.error (HasError.ofError e)) t' := by
  change (((perform o t).1.mapError HasError.ofError, (perform o t).2) : Except ε o.Val × _) = _
  rw [h]
  rfl

theorem bind {p : Program N B ε α} {f : α → Program N B ε β} {a : α} {r : Except ε β}
    (hp : Runs p t (.ok a) t') (hf : Runs (f a) t' r t'') : Runs (p >>= f) t r t'' := by
  rw [Runs] at hp hf ⊢
  change runProg (Prog.bind p.run (ExceptT.bindCont f)) t = _
  rw [runProg_bind, hp]
  exact hf

theorem bind_error {p : Program N B ε α} (f : α → Program N B ε β) {e : ε}
    (hp : Runs p t (.error e) t') : Runs (p >>= f) t (.error e) t' := by
  rw [Runs] at hp ⊢
  change runProg (Prog.bind p.run (ExceptT.bindCont f)) t = _
  rw [runProg_bind, hp]
  rfl

theorem tryCatch_ok {p : Program N B ε α} (f : ε → Program N B ε α) {a : α}
    (hp : Runs p t (.ok a) t') : Runs (tryCatch p f) t (.ok a) t' := by
  rw [Runs] at hp ⊢
  change runProg (Prog.bind p.run _) t = _
  rw [runProg_bind, hp]
  rfl

theorem tryCatch_error {p : Program N B ε α} {f : ε → Program N B ε α} {e : ε} {r : Except ε α}
    (hp : Runs p t (.error e) t') (hf : Runs (f e) t' r t'') : Runs (tryCatch p f) t r t'' := by
  rw [Runs] at hp hf ⊢
  change runProg (Prog.bind p.run _) t = _
  rw [runProg_bind, hp]
  exact hf

theorem mapM {ι : Type} {F : ι → Program N B ε α} {l : List ι}
    (h : ∀ x ∈ l, ∃ a, Runs (F x) t (.ok a) t) :
    ∃ as, Runs (l.mapM F) t (.ok as) t ∧ List.Forall₂ (fun x a ↦ Runs (F x) t (.ok a) t) l as := by
  induction l with
  | nil => exact ⟨[], Runs.pure [] t, .nil⟩
  | cons x l ih =>
    rw [List.forall_mem_cons] at h
    obtain ⟨a, ha⟩ := h.1
    obtain ⟨as, has, hall⟩ := ih h.2
    refine ⟨a :: as, ?_, .cons ha hall⟩
    rw [List.mapM_cons]
    exact ha.bind (has.bind (Runs.pure _ t))

theorem unique {p : Program N B ε α} {r r' : Except ε α} (h : Runs p t r t') (h' : Runs p t r' t'') :
    r = r' ∧ t' = t'' := Prod.mk.inj (h.symm.trans h')

end Runs

end FileSystem
