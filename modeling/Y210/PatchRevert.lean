import Mathlib.Data.List.Pairwise
import Y210.Patches

/-!
# Reverting the patches

`revert-patches.sh` undoes nine patches by their reverse, ten by resets of three projects to commits it
names, and two copies by deleting the files.
-/
namespace PatchRevert

open LocalSteps Patches

variable {Content Commit : Type}

/-- The same commit checked out and the same files in every project. -/
def Restored (t t' : Tree Content Commit) : Prop :=
  ∀ p, (t' p).head = (t p).head ∧ (t' p).work.file = (t p).work.file

/-- The commit that `revert_commits` names for a project. -/
def base : Project → Option String
  | .msm7k => some "5336b50"
  | .frameworksBase => some "aa02ad1445e"
  | .camera => some "434f8777"
  | _ => none

def patchedFiles : Step → List Path
  | .apply _ n => files n
  | .copyNew _ _ _ => []

def copiedFiles : Step → List Path
  | .apply _ _ => []
  | .copyNew _ _ dst => [dst]

/-- The steps of `run_all` in a project. -/
def stepsIn (p : Project) : List Step := run_all.filter fun s => s.project = p

def undosIn (p : Project) : List Undo := undoAll.filter fun u => u.project = p

def patchedIn (p : Project) : List Path := (stepsIn p).flatMap patchedFiles

def copiedIn (p : Project) : List Path := (stepsIn p).flatMap copiedFiles

/-- What a reset to the base puts into place: the files of the base, the tracked ones, and the
patched ones besides. -/
def Concerned (p : Project) (r : Repo Content Commit) (f : Path) : Prop :=
  ((r.tree r.head).file f).isSome = true ∨ r.tracked f = true ∨ f ∈ patchedIn p

/-- The copied files are new, and a project that is reset is at its base without uncommitted changes. -/
structure AtBase (t : Tree Content Commit) : Prop where
  absent : ∀ p, ∀ f ∈ copiedIn p, (t p).work.file f = none
  commit : ∀ p, ∀ b ∈ base p, (t p).resolve b = some (t p).head
  clean : ∀ p, base p ≠ none → ∀ f ∉ copiedIn p, Concerned p (t p) f →
    (t p).work.file f = ((t p).tree (t p).head).file f

/-! ## One patch -/

section
variable {git : Git Content} {newFile : NewFile → Option Content} {r r' : Repo Content Commit} {n : Patch}

theorem applicable_iff {fs : Files Content} {targets : List Path} {g : Path → Content → Option Content} :
    applicable fs targets g = true ↔ ∀ f ∈ targets, ∃ c c', fs.file f = some c ∧ g f c = some c' := by
  simp only [applicable, List.all_eq_true, Option.isSome_iff_exists, Option.bind_eq_some_iff]
  exact forall₂_congr fun f _ => ⟨fun ⟨c', c, h⟩ => ⟨c, c', h⟩, fun ⟨c, c', h⟩ => ⟨c', c, h⟩⟩

theorem rewrite_mem {fs : Files Content} {targets : List Path} {g : Path → Content → Option Content}
    {f : Path} (h : f ∈ targets) : (fs.rewrite targets g).file f = (fs.file f).bind (g f) := if_pos h

theorem rewrite_not_mem {fs : Files Content} {targets : List Path} {g : Path → Content → Option Content}
    {f : Path} (h : f ∉ targets) : (fs.rewrite targets g).file f = fs.file f := if_neg h

theorem gitApply_eq_some : gitApply git n r = some r' ↔
    (∀ f ∈ files n, ∃ c c', r.work.file f = some c ∧ git.patched n f c = some c') ∧
      r' = { r with work := r.work.rewrite (files n) (git.patched n) } := by
  unfold gitApply
  rw [← applicable_iff]
  by_cases h : applicable r.work (files n) (git.patched n) = true
  · rw [if_pos h, Option.some.injEq]
    exact ⟨fun he => ⟨h, he.symm⟩, fun he => he.2.symm⟩
  · rw [if_neg h]
    exact ⟨fun he => (Option.some_ne_none r' he.symm).elim, fun he => absurd he.1 h⟩

/-- The reverse of a patch gives back its files, whatever happened to the others. -/
theorem gitApplyReverse_restores (hpatched : ∀ f ∈ files n, ∃ c c', r.work.file f = some c ∧
      git.patched n f c = some c' ∧ r'.work.file f = some c') :
    ∃ r'', gitApplyReverse git n r' = some r'' ∧ r''.head = r'.head ∧
      ∀ f, r''.work.file f = if f ∈ files n then r.work.file f else r'.work.file f := by
  have happlicable : applicable r'.work (files n) (git.unpatched n) = true := by
    rw [applicable_iff]
    intro f hf
    obtain ⟨c, c', -, hp, hc'⟩ := hpatched f hf
    exact ⟨c', c, hc', git.exact n f c c' hp⟩
  refine ⟨_, if_pos happlicable, rfl, fun f => ?_⟩
  by_cases hf : f ∈ files n
  · obtain ⟨c, c', hc, hp, hc'⟩ := hpatched f hf
    rw [if_pos hf, rewrite_mem hf, hc', hc]
    exact git.exact n f c c' hp
  · rw [if_neg hf, rewrite_not_mem hf]

/-! ## The steps of a project -/

/-- From `r` to `r'` the files of `ps` were changed, those of `cs` may have been, and nothing else. -/
structure Touched (ps cs : List Path) (r r' : Repo Content Commit) : Prop where
  head : r'.head = r.head
  resolve : r'.resolve = r.resolve
  tree : r'.tree = r.tree
  tracked : r'.tracked = r.tracked
  present : ∀ f ∈ ps, (r.work.file f).isSome = true
  changed : ∀ f ∈ ps, r'.work.file f ≠ r.work.file f
  others : ∀ f, f ∉ ps → f ∉ cs → r'.work.file f = r.work.file f

theorem touched_perform {s : Step} (h : perform git newFile r s = some r') :
    Touched (patchedFiles s) (copiedFiles s) r r' := by
  cases s with
  | apply p n =>
    obtain ⟨hpatched, rfl⟩ := gitApply_eq_some.mp h
    refine ⟨rfl, rfl, rfl, rfl, fun f hf => ?_, fun f hf => ?_, fun f hf _ => rewrite_not_mem hf⟩
    · obtain ⟨c, c', hc, -⟩ := hpatched f hf
      rw [hc]
      rfl
    · obtain ⟨c, c', hc, hp⟩ := hpatched f hf
      change (r.work.rewrite (files n) (git.patched n)).file f ≠ r.work.file f
      rw [rewrite_mem (show f ∈ files n from hf), hc, Option.bind_some, hp]
      exact fun he => git.changes n f c c' hp (Option.some.inj he)
  | copyNew src p dst =>
    obtain ⟨c, -, hcopy⟩ := Option.bind_eq_some_iff.mp h
    unfold copy at hcopy
    split at hcopy
    · cases hcopy
      refine ⟨rfl, rfl, rfl, rfl, fun f hf => ?_, fun f hf => ?_, fun f _ hf => ?_⟩
      · cases hf
      · cases hf
      · exact if_neg fun he => hf (List.mem_singleton.mpr he)
    · cases hcopy

/-- Later steps on other files. -/
theorem Touched.trans {ps ps' cs cs' : List Path} {r'' : Repo Content Commit} (h : Touched ps cs r r')
    (h' : Touched ps' cs' r' r'') (hd : ∀ f ∈ ps, f ∉ ps' ∧ f ∉ cs') (hd' : ∀ f ∈ cs, f ∉ ps') :
    Touched (ps ++ ps') (cs ++ cs') r r'' := by
  have hfirst {f : Path} (hf : f ∈ ps') : r'.work.file f = r.work.file f :=
    h.others f (fun hp => (hd f hp).1 hf) (fun hc => hd' f hc hf)
  refine ⟨h'.head.trans h.head, h'.resolve.trans h.resolve, h'.tree.trans h.tree,
    h'.tracked.trans h.tracked, fun f hf => ?_, fun f hf => ?_, fun f hp hc => ?_⟩
  · rcases List.mem_append.mp hf with hf | hf
    · exact h.present f hf
    · rw [← hfirst hf]
      exact h'.present f hf
  · rcases List.mem_append.mp hf with hf | hf
    · rw [h'.others f (hd f hf).1 (hd f hf).2]
      exact h.changed f hf
    · rw [← hfirst hf]
      exact h'.changed f hf
  · rw [List.mem_append, not_or] at hp hc
    rw [h'.others f hp.2 hc.2, h.others f hp.1 hc.1]

/-- Steps that touch no file twice. -/
def Apart (steps : List Step) : Prop :=
  steps.Pairwise fun s s' => ∀ f ∈ patchedFiles s ++ copiedFiles s, f ∉ patchedFiles s' ++ copiedFiles s'

instance (steps : List Step) : Decidable (Apart steps) := by
  unfold Apart
  infer_instance

theorem touched_foldlM {steps : List Step} (hapart : Apart steps)
    (h : steps.foldlM (perform git newFile) r = some r') :
    Touched (steps.flatMap patchedFiles) (steps.flatMap copiedFiles) r r' := by
  induction steps generalizing r with
  | nil =>
    cases h
    exact ⟨rfl, rfl, rfl, rfl, nofun, nofun, fun _ _ _ => rfl⟩
  | cons s steps ih =>
    rw [List.foldlM_cons, Option.bind_eq_bind, Option.bind_eq_some_iff] at h
    obtain ⟨u, hs, hrest⟩ := h
    obtain ⟨hhead, htail⟩ := List.pairwise_cons.mp hapart
    have hlater {f : Path} (hf : f ∈ patchedFiles s ++ copiedFiles s) :
        f ∉ steps.flatMap patchedFiles ∧ f ∉ steps.flatMap copiedFiles := by
      constructor
      · intro hm
        obtain ⟨s', hs', hf'⟩ := List.mem_flatMap.mp hm
        exact hhead s' hs' f hf (List.mem_append_left _ hf')
      · intro hm
        obtain ⟨s', hs', hf'⟩ := List.mem_flatMap.mp hm
        exact hhead s' hs' f hf (List.mem_append_right _ hf')
    exact (touched_perform hs).trans (ih htail hrest) (fun f hf => hlater (List.mem_append_left _ hf))
      fun f hf => (hlater (List.mem_append_right _ hf)).1

theorem apart_stepsIn (p : Project) : Apart (stepsIn p) := by
  cases p <;> decide +kernel

/-! ## The undos of a project -/

/-- The commit and the files are the old ones. -/
def Back (r r' : Repo Content Commit) : Prop := r'.head = r.head ∧ r'.work.file = r.work.file

/-- The copies are deleted. -/
theorem foldlM_removeNew (git : Git Content) (p : Project) (cs : List Path) (r : Repo Content Commit) :
    ∃ r', (cs.map (Undo.removeNew p)).foldlM (undo git) r = some r' ∧ r'.head = r.head ∧
      ∀ f, r'.work.file f = if f ∈ cs then none else r.work.file f := by
  induction cs generalizing r with
  | nil => exact ⟨r, rfl, rfl, fun f => by simp⟩
  | cons c cs ih =>
    obtain ⟨r', h, hhead, hfile⟩ := ih { r with work := r.work.remove c }
    refine ⟨r', h, hhead, fun f => ?_⟩
    rw [hfile]
    by_cases hcs : f ∈ cs
    · rw [if_pos hcs, if_pos (List.mem_cons_of_mem c hcs)]
    · by_cases hc : f = c
      · rw [if_neg hcs, hc, if_pos List.mem_cons_self]
        exact if_pos rfl
      · rw [if_neg hcs, if_neg (by simp [hc, hcs])]
        exact if_neg hc

/-- What a reset makes of one file, against the file before the patches. -/
theorem reset_file_iff {ps cs : List Path} (h : Touched ps cs r r') {f : Path} (hf : f ∉ cs) :
    (r'.work.reset r'.tracked (r'.tree r.head)).file f = r.work.file f ↔
      (((r.tree r.head).file f).isSome = true ∨ r.tracked f = true ∨ f ∈ ps →
        r.work.file f = (r.tree r.head).file f) := by
  unfold Files.reset
  rw [h.tree, h.tracked]
  dsimp only
  cases (r.tree r.head).file f with
  | some c => exact ⟨fun he _ => he.symm, fun he => (he (.inl rfl)).symm⟩
  | none =>
    cases r.tracked f with
    | true => exact ⟨fun he _ => he.symm, fun he => (he (.inr (.inl rfl))).symm⟩
    | false =>
      by_cases hp : f ∈ ps
      · have hsome := Option.isSome_iff_ne_none.mp (h.present f hp)
        simp [hp, h.changed f hp, hsome]
      · simp [hp, h.others f hp hf]

/-- A reset and the deletion of the copies give back a repository that was at its base. -/
theorem reset_back_iff {ps cs : List Path} {p : Project} {b : String} (h : Touched ps cs r r') :
    (∃ r'', (Undo.revertCommits p b :: cs.map (Undo.removeNew p)).foldlM (undo git) r' = some r'' ∧
        Back r r'') ↔
      r.resolve b = some r.head ∧ (∀ f ∈ cs, r.work.file f = none) ∧
        ∀ f ∉ cs, (((r.tree r.head).file f).isSome = true ∨ r.tracked f = true ∨ f ∈ ps) →
          r.work.file f = (r.tree r.head).file f := by
  rw [← h.resolve]
  simp only [List.foldlM_cons, Option.bind_eq_bind, undo, gitResetHard]
  cases hb : r'.resolve b with
  | none => simp
  | some c =>
    simp only [Option.map_some, Option.bind_some, Option.some.injEq]
    obtain ⟨r'', hr'', hhead, hfile⟩ := foldlM_removeNew git p cs
      { r' with head := c, tracked := fun f => ((r'.tree c).file f).isSome,
                work := r'.work.reset r'.tracked (r'.tree c) }
    simp only [hr'', Option.some.injEq, exists_eq_left']
    unfold Back
    rw [hhead, funext_iff]
    refine and_congr_right fun hc => ?_
    subst hc
    constructor
    · intro hall
      refine ⟨fun f hf => ?_, fun f hf => (reset_file_iff h hf).mp ?_⟩
      · rw [← hall f, hfile, if_pos hf]
      · rw [← hall f, hfile, if_neg hf]
    · rintro ⟨habsent, hclean⟩ f
      rw [hfile]
      by_cases hf : f ∈ cs
      · rw [if_pos hf, habsent f hf]
      · rw [if_neg hf]
        exact (reset_file_iff h hf).mpr (hclean f hf)

/-- The reverse of the one patch of a project and the deletion of the copies give back a repository
that did not have these files. -/
theorem reverse_back_iff {cs : List Path} {p : Project}
    (hpatched : ∀ f ∈ files n, ∃ c c', r.work.file f = some c ∧ git.patched n f c = some c' ∧
      r'.work.file f = some c')
    (h : Touched (files n) cs r r') :
    (∃ r'', (Undo.revertWt p n :: cs.map (Undo.removeNew p)).foldlM (undo git) r' = some r'' ∧ Back r r'') ↔
      ∀ f ∈ cs, r.work.file f = none := by
  obtain ⟨u, hu, huhead, hufile⟩ := gitApplyReverse_restores hpatched
  obtain ⟨r'', hr'', hhead, hfile⟩ := foldlM_removeNew git p cs u
  simp only [List.foldlM_cons, Option.bind_eq_bind, undo, hu, Option.bind_some, hr'', Option.some.injEq,
    exists_eq_left']
  constructor
  · rintro ⟨-, hback⟩ f hf
    rw [← hback, hfile, if_pos hf]
  · intro habsent
    refine ⟨by rw [hhead, huhead, h.head], funext fun f => ?_⟩
    rw [hfile, hufile]
    by_cases hf : f ∈ cs
    · rw [if_pos hf, habsent f hf]
    · rw [if_neg hf]
      by_cases hn : f ∈ files n
      · rw [if_pos hn]
      · rw [if_neg hn, h.others f hn hf]

/-! ## The two scripts -/

/-- A project is either reset, or its one patch is reversed; then its copies are deleted. -/
theorem undosIn_cases (p : Project) :
    (∃ b, base p = some b ∧ undosIn p = .revertCommits p b :: (copiedIn p).map (Undo.removeNew p)) ∨
      base p = none ∧ ∃ n rest, stepsIn p = .apply p n :: rest ∧ rest.flatMap patchedFiles = [] ∧
        undosIn p = .revertWt p n :: (copiedIn p).map (Undo.removeNew p) := by
  cases p with
  | msm7k | frameworksBase | camera => exact .inl ⟨_, rfl, rfl⟩
  | _ => exact .inr ⟨rfl, _, _, rfl, rfl, rfl⟩

/-- A single patch is still in place behind the copies that follow it. -/
theorem patched_kept {p : Project} {rest : List Step} (hapart : Apart (.apply p n :: rest))
    (h : (Step.apply p n :: rest).foldlM (perform git newFile) r = some r') :
    ∀ f ∈ files n, ∃ c c', r.work.file f = some c ∧ git.patched n f c = some c' ∧ r'.work.file f = some c' := by
  rw [List.foldlM_cons, Option.bind_eq_bind, Option.bind_eq_some_iff] at h
  obtain ⟨u, hu, hrest⟩ := h
  obtain ⟨hhead, htail⟩ := List.pairwise_cons.mp hapart
  obtain ⟨hpatched, rfl⟩ := gitApply_eq_some.mp hu
  intro f hf
  obtain ⟨c, c', hc, hp⟩ := hpatched f hf
  refine ⟨c, c', hc, hp, ?_⟩
  have hlater := (touched_foldlM htail hrest).others f
    (fun hm => by
      obtain ⟨s, hs, hfs⟩ := List.mem_flatMap.mp hm
      exact hhead s hs f (List.mem_append_left _ hf) (List.mem_append_left _ hfs))
    (fun hm => by
      obtain ⟨s, hs, hfs⟩ := List.mem_flatMap.mp hm
      exact hhead s hs f (List.mem_append_left _ hf) (List.mem_append_right _ hfs))
  rw [hlater, rewrite_mem hf, hc]
  exact hp

/-- The undos of a project after its steps. -/
theorem project_back_iff {p : Project} (h : (stepsIn p).foldlM (perform git newFile) r = some r') :
    (∃ r'', (undosIn p).foldlM (undo git) r' = some r'' ∧ Back r r'') ↔
      (∀ f ∈ copiedIn p, r.work.file f = none) ∧ (∀ b ∈ base p, r.resolve b = some r.head) ∧
        (base p ≠ none → ∀ f ∉ copiedIn p, Concerned p r f → r.work.file f = (r.tree r.head).file f) := by
  have htouched : Touched (patchedIn p) (copiedIn p) r r' := touched_foldlM (apart_stepsIn p) h
  rcases undosIn_cases p with ⟨b, hb, hundos⟩ | ⟨hb, n, rest, hsteps, hrest, hundos⟩
  · rw [hundos, reset_back_iff htouched, hb]
    simp only [Option.mem_def, Option.some.injEq, forall_eq', ne_eq, reduceCtorEq, not_false_eq_true,
      true_imp_iff]
    exact and_left_comm
  · have hcopied : patchedIn p = files n := by
      unfold patchedIn
      rw [hsteps, List.flatMap_cons, hrest, List.append_nil]
      rfl
    have hapart := apart_stepsIn p
    rw [hsteps] at h hapart
    rw [hundos, reverse_back_iff (patched_kept hapart h) (hcopied ▸ htouched), hb]
    simp

end

/-- After `apply-patches.sh`, `revert-patches.sh` succeeds and brings every project back exactly when
the copied files were new and the projects it resets were at their bases without uncommitted changes. -/
theorem revert_restores_iff (git : Git Content) (newFile : NewFile → Option Content)
    {t t' : Tree Content Commit} (h : applyPatches git newFile t = some t') :
    (∃ t'', revertPatches git t' = some t'' ∧ Restored t t'') ↔ AtBase t := by
  have happly : applyPhase git newFile t = some t' := by
    unfold applyPatches at h
    split at h
    · exact h
    · cases h
  have hsteps := (foldlM_lift_iff Step.project (perform git newFile) run_all t t').mp happly
  have hundos := exists_foldlM_lift_iff Undo.project (undo git) undoAll t' fun p => Back (t p)
  refine hundos.trans ((forall_congr' fun p => project_back_iff (hsteps p)).trans ?_)
  exact ⟨fun hall => ⟨fun p => (hall p).1, fun p => (hall p).2.1, fun p => (hall p).2.2⟩,
    fun hbase p => ⟨hbase.absent p, hbase.commit p, hbase.clean p⟩⟩

/-! ## A small tree -/

/-- Contents are numbers and a patch adds one. -/
def addOne : Git Nat where
  patched _ _ c := some (c + 1)
  unpatched _ _ c := if c = 0 then none else some (c - 1)
  exact := by simp
  changes := by simp

def freshFiles : Files Nat where
  file f := if f = androidHardwareFmQcomCpp ∨ f = cyanogenY210Mk then none else some 0
  dirs _ := true
  file_dir _ _ := rfl

/-- Projects whose base is the commit `true`, each with a commit checked out. -/
def treeAt (head : Project → Bool) : Tree Nat Bool := fun p =>
  ⟨fun _ => some true, fun _ => freshFiles, head p, fun f => (freshFiles.file f).isSome, freshFiles⟩

/-- A clean tree at the bases comes back. -/
theorem treeAt_base_restored : ∃ t', applyPatches addOne (fun _ => some 1) (treeAt fun _ => true) = some t' ∧
    ∃ t'', revertPatches addOne t' = some t'' ∧ Restored (treeAt fun _ => true) t'' := by
  have hruns : (applyPatches addOne (fun _ => some 1) (treeAt fun _ => true)).isSome = true := by
    decide +kernel
  obtain ⟨t', h⟩ := Option.isSome_iff_exists.mp hruns
  refine ⟨t', h, (revert_restores_iff addOne (fun _ => some 1) h).mpr ⟨fun p f hf => ?_, fun _ _ _ => rfl,
    fun _ _ _ _ _ => rfl⟩⟩
  have hcopied : f = androidHardwareFmQcomCpp ∨ f = cyanogenY210Mk := by
    cases p with
    | frameworksBase => exact .inl (List.mem_singleton.mp hf)
    | vendorCyanogen => exact .inr (List.mem_singleton.mp hf)
    | _ => cases hf
  exact if_pos hcopied

/-- With another commit checked out in `frameworks/base`, that commit is lost. -/
theorem checkout_lost : ¬ ∀ (Content Commit : Type) (git : Git Content) (newFile : NewFile → Option Content)
    (t t' : Tree Content Commit), applyPatches git newFile t = some t' →
      ∃ t'', revertPatches git t' = some t'' ∧ Restored t t'' := by
  intro h
  have hhead : ((applyPatches addOne (fun _ => some 1) (treeAt fun p => p ≠ .frameworksBase)).bind
      (revertPatches addOne)).map (fun t => (t .frameworksBase).head) = some true := by
    decide +kernel
  obtain ⟨t'', hruns, htrue⟩ := Option.map_eq_some_iff.mp hhead
  obtain ⟨t', happly, hrevert⟩ := Option.bind_eq_some_iff.mp hruns
  obtain ⟨u, hu, hrestored⟩ := h Nat Bool addOne _ _ t' happly
  obtain rfl := Option.some.inj (hrevert.symm.trans hu)
  have hfalse := (hrestored .frameworksBase).1
  rw [htrue] at hfalse
  cases hfalse

end PatchRevert
