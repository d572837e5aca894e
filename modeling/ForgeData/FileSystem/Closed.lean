import ForgeData.FileSystem.Faults

/-!
# Closed trees

In the tree of a real file system everything is in a directory. Calls keep it so, whether they succeed
or fail.
-/

namespace FileSystem

open Python (Dict)
open Interleaving

variable {N B : Type} [DecidableEq N]

/-- Above everything there is a directory. -/
def Tree.Closed (t : Tree N B) : Prop :=
  ∀ q r, q ≠ [] → r ≠ [] → t.get? (q ++ r) ≠ none → t.get? q = some .dir

namespace Tree

variable {t : Tree N B}

theorem closed_empty : Tree.Closed (Dict.empty : Tree N B) := fun _ _ _ _ h ↦ absurd rfl h

theorem Closed.eq_none (h : t.Closed) {p r : Path N} (hp : p ≠ []) (hr : r ≠ [])
    (hdir : t.get? p ≠ some .dir) : t.get? (p ++ r) = none :=
  not_not.mp fun hnone ↦ hdir (h p r hp hr hnone)

theorem Closed.absent (h : t.Closed) {p : Path N} (hp : p ≠ []) (hnone : t.get? p = none) :
    t.Absent p := by
  rintro _ ⟨r, rfl⟩
  rcases eq_or_ne r [] with rfl | hr
  · rw [List.append_nil, hnone]
  · refine h.eq_none hp hr ?_
    rw [hnone]
    exact (Option.some_ne_none _).symm

theorem Closed.of_isDir (h : t.Closed) {p q : Path N} (hp : t.isDir p = true) (hq : q ≠ [])
    (hle : q <+: p) : t.get? q = some .dir := by
  obtain ⟨r, rfl⟩ := hle
  rcases t.isDir_iff.mp hp with hnil | hdir
  · exact absurd (List.append_eq_nil_iff.mp hnil).1 hq
  · rcases eq_or_ne r [] with rfl | hr
    · rwa [List.append_nil] at hdir
    · exact h q r hq hr (hdir ▸ Option.some_ne_none _)

theorem Closed.isDir_of_append (h : t.Closed) {p r : Path N} (hdir : t.isDir (p ++ r) = true) :
    t.isDir p = true := by
  rcases eq_or_ne p [] with rfl | hp
  · rfl
  · exact t.isDir_iff.mpr (.inr (h.of_isDir hdir hp (List.prefix_append p r)))

theorem pathExists_of_isDir {p : Path N} (h : t.isDir p = true) : t.pathExists p = true := by
  rcases t.isDir_iff.mp h with rfl | hdir
  · rfl
  · rw [pathExists, hdir]
    exact Bool.or_true _

/-- A file is put into a directory, where there is none. -/
theorem Closed.set_file (h : t.Closed) {p : Path N} (hp : p ≠ []) (hparent : t.isDir p.dropLast = true)
    (hnot : t.get? p ≠ some .dir) (content : List B) : Tree.Closed (t.set p (.file content)) := by
  intro q r hq hr hnone
  have hne : q ≠ p := by
    rintro rfl
    have hlonger : q ++ r ≠ q := fun heq ↦ hr (List.append_right_eq_self.mp heq)
    rw [Dict.get?_set, if_neg hlonger, h.eq_none hq hr hnot] at hnone
    exact hnone rfl
  rw [Dict.get?_set, if_neg hne]
  rw [Dict.get?_set] at hnone
  split at hnone
  · next heq =>
    refine h.of_isDir hparent hq ?_
    rw [← heq, List.dropLast_append_of_ne_nil hr]
    exact List.prefix_append _ _
  · exact h q r hq hr hnone

/-- A file is written again. -/
theorem Closed.set_same (h : t.Closed) {p : Path N} {before : List B}
    (hfile : t.get? p = some (.file before)) (content : List B) :
    Tree.Closed (t.set p (.file content)) := by
  intro q r hq hr hnone
  have hdir : t.get? q = some .dir := by
    refine h q r hq hr ?_
    rw [Dict.get?_set] at hnone
    split at hnone
    · next heq =>
      rw [heq, hfile]
      exact Option.some_ne_none _
    · exact hnone
  rw [Dict.get?_set, if_neg, hdir]
  rintro rfl
  rw [hfile] at hdir
  cases hdir

theorem Closed.erase (h : t.Closed) {p : Path N} (hnot : t.get? p ≠ some .dir) :
    Tree.Closed (t.erase p) := by
  intro q r hq hr hnone
  rw [Dict.get?_erase] at hnone
  split at hnone
  · exact absurd rfl hnone
  · have hdir := h q r hq hr hnone
    rw [Dict.get?_erase, if_neg, hdir]
    rintro rfl
    exact hnot hdir

theorem Closed.addDirs (h : t.Closed) {p : Path N}
    (hfiles : ∀ q, q ≠ [] → q <+: p.dropLast → t.file? q = none) :
    (t.addDirs (ancestors p)).Closed := by
  intro q r hq hr hnone
  rw [get?_addDirs] at hnone ⊢
  by_cases hmem : q ++ r ∈ ancestors p
  · have hle : q <+: p.dropLast := by
      obtain ⟨s, rfl⟩ := (mem_ancestors.mp hmem).1
      rw [List.append_assoc, List.dropLast_append_of_ne_nil (List.append_ne_nil_of_left_ne_nil hr _)]
      exact List.prefix_append _ _
    have hq' : q ∈ ancestors p := mem_ancestors.mpr ⟨hle.trans (List.dropLast_prefix p), hq⟩
    rcases t.file?_eq_none_iff.mp (hfiles q hq hle) with hnode | hnode
    · rw [if_pos ⟨hq', hnode⟩]
    · rw [if_neg (fun hand ↦ Option.some_ne_none _ (hnode.symm.trans hand.2)), hnode]
  · rw [if_neg (fun hand ↦ hmem hand.1)] at hnone
    have hdir := h q r hq hr hnone
    rw [if_neg (fun hand ↦ Option.some_ne_none _ (hdir.symm.trans hand.2)), hdir]

/-- A directory is put, with what is below it, into another one. -/
theorem Closed.move (h : t.Closed) {src dst : Path N} (hne : src ≠ []) (hsrc : ¬src <+: dst)
    (hdst : ¬dst <+: src) (hdir : t.isDir src = true) (hparent : t.isDir dst.dropLast = true) :
    (t.move src dst).Closed := by
  have hmoved (s : Path N) : (t.move src dst).get? (dst ++ s) = t.get? (src ++ s) := by
    rw [get?_move t hsrc hdst, if_pos (List.prefix_append dst s), relocate_append]
  have hself : t.get? src = some .dir := (t.isDir_iff.mp hdir).resolve_left hne
  intro q r hq hr hnone
  by_cases hle : dst <+: q
  · obtain ⟨s, rfl⟩ := hle
    rw [List.append_assoc, hmoved, ← List.append_assoc] at hnone
    rw [hmoved]
    exact h (src ++ s) r (List.append_ne_nil_of_left_ne_nil hne _) hr hnone
  · rw [get?_move t hsrc hdst, if_neg hle]
    by_cases hle' : dst <+: q ++ r
    · -- the path leads to the new place, so it goes on above it
      have hq' : q <+: dst.dropLast := by
        obtain ⟨s, rfl⟩ := (List.prefix_or_prefix_of_prefix hle' (List.prefix_append q r)).resolve_left hle
        have hs : s ≠ [] := by
          rintro rfl
          exact hle (by rw [List.append_nil])
        rw [List.dropLast_append_of_ne_nil hs]
        exact List.prefix_append _ _
      rw [if_neg fun hle'' ↦ hsrc (hle''.trans (hq'.trans (List.dropLast_prefix dst)))]
      exact h.of_isDir hparent hq hq'
    · rw [get?_move t hsrc hdst, if_neg hle'] at hnone
      split at hnone
      · exact absurd rfl hnone
      · next hnot =>
        rw [if_neg fun hle'' ↦ hnot (hle''.trans (List.prefix_append q r))]
        exact h q r hq hr hnone

theorem Closed.removeTree (h : t.Closed) (p : Path N) : (t.removeTree p).Closed := by
  intro q r hq hr hnone
  rw [get?_removeTree] at hnone ⊢
  split at hnone
  · exact absurd rfl hnone
  · next hnot =>
    rw [if_neg fun hle ↦ hnot (hle.trans (List.prefix_append q r))]
    exact h q r hq hr hnone

end Tree

/-! ## Calls -/

/-- **A call keeps the tree closed.** -/
theorem perform_closed (o : Op N B) {t : Tree N B} (h : t.Closed) : (perform o t).2.Closed := by
  cases o with
  | pathExists p | list p => exact h
  | read p =>
    rw [perform]
    split <;> exact h
  | makeDirs p existOk =>
    rw [perform]
    split_ifs with hany
    · exact h
    · exact h
    -- a file above the new directories would have made the call fail
    · refine h.addDirs fun q hq hle ↦ ?_
      by_contra hfile
      exact hany (List.any_eq_true.mpr
        ⟨q, mem_ancestors.mpr ⟨hle, hq⟩, Option.isSome_iff_ne_none.mpr hfile⟩)
  | create p =>
    rw [perform]
    split_ifs with hdir hparent
    · exact h
    · obtain ⟨hp, hnot⟩ := not_or.mp ((not_congr t.isDir_iff).mp hdir)
      exact h.set_file hp hparent hnot []
    · exact h
  | append p content =>
    rw [perform]
    split
    · next before hfile =>
      exact h.set_same (t.file?_eq_some_iff.mp hfile) (before ++ content)
    · exact h
  | unlink p missingOk =>
    rw [perform]
    split
    · next hfile => exact h.erase (by rw [hfile]; simp)
    · exact h
    · exact h
  | replace src dst =>
    rw [perform]
    split
    · next content hfile =>
      rw [t.file?_eq_some_iff] at hfile
      split_ifs with hdir hparent
      · exact h
      · obtain ⟨hp, hnot⟩ := not_or.mp ((not_congr t.isDir_iff).mp hdir)
        have hsrc : t.get? src ≠ some .dir := by
          rw [hfile]
          simp
        -- the source is gone before the content is put in its place
        refine (h.erase hsrc).set_file hp ?_ ?_ content
        · rw [Tree.isDir_iff]
          refine (t.isDir_iff.mp hparent).imp_right fun hnode ↦ ?_
          refine (Dict.get?_erase ..).trans ((if_neg ?_).trans hnode)
          rintro rfl
          exact hsrc hnode
        · rw [Dict.get?_erase]
          split
          · exact (Option.some_ne_none _).symm
          · exact hnot
      · exact h
    · exact h
  | rename src dst =>
    rw [perform]
    split_ifs with hdir hapart _ _ hparent
    · exact h
    · exact h
    · exact h
    · exact h
    -- the two paths are apart, so the moved tree does not land inside itself
    · obtain ⟨hsrc, hdst⟩ := not_or.mp hapart
      refine h.move ?_ hsrc hdst (by simpa using hdir) hparent
      rintro rfl
      exact hsrc List.nil_prefix
    · exact h
  | removeTree p =>
    rw [perform]
    split_ifs
    · exact h.removeTree p
    · exact h

theorem runProg_closed {α : Type} (p : Prog (Op N B) Op.Ans α) {t : Tree N B} (h : t.Closed) :
    (runProg p t).2.Closed := by
  induction p generalizing t with
  | pure a => exact h
  | call o k ih => exact ih _ (perform_closed o h)

/-- Also a call that fails keeps the tree closed. -/
theorem Effect.closed {o : Op N B} {t t' : Tree N B} {a : o.Ans} (he : Effect o t a t')
    (h : t.Closed) : t'.Closed := by
  rcases he with he | he
  · have hclosed := perform_closed o h
    rwa [he] at hclosed
  · cases o with
    | makeDirs p existOk =>
      obtain ⟨_, q, _, _, rfl⟩ := he
      exact perform_closed (.makeDirs q true) h
    | append p content =>
      obtain ⟨_, written, _, _, rfl⟩ := he
      exact perform_closed (.append p written) h
    | removeTree p =>
      obtain ⟨-, -, houtside, hinside⟩ := he
      intro q r hq hr hnone
      by_cases hle : p <+: q
      · rw [hinside q r hle hnone]
        refine h q r hq hr ?_
        have hself := hinside (q ++ r) [] (hle.trans (List.prefix_append q r)) (by rwa [List.append_nil])
        rwa [← hself]
      · rw [houtside q hle]
        by_cases hle' : p <+: q ++ r
        · have hself := hinside (q ++ r) [] hle' (by rwa [List.append_nil])
          exact h q r hq hr (by rwa [← hself])
        · exact h q r hq hr (by rwa [← houtside _ hle'])
    | _ => exact he.2 ▸ h

theorem closed_of_poolRun {A : Prog (Op N B) Op.Ans Unit → Prop}
    {ps qs : List (Prog (Op N B) Op.Ans Unit)} {t t' : Tree N B}
    {s : List (PoolStep (Op N B) Op.Ans (Tree N B))} (hrun : PoolRun Effect A ps t s qs t')
    (h : t.Closed) : t'.Closed ∧ ∀ x ∈ s, x.after.Closed :=
  hrun.invariant (fun x hx ↦ (hrun.sem_of_mem x hx).closed) h

end FileSystem
