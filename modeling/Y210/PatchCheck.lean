import Y210.PatchRevert

/-!
# Checking the patches

The check phase of `apply-patches.sh` tries every patch on the untouched tree, and of a copy it
looks at the source only.
-/
namespace PatchCheck

open LocalSteps Patches PatchRevert

variable {Content Commit : Type}

/-- The directories that a step needs. -/
def copyDirs : Step → List String
  | .apply _ _ => []
  | .copyNew _ _ dst => [dst.dir]

/-- The check phase. -/
def checkPhase (git : Git Content) (newFile : NewFile → Option Content) (t : Tree Content Commit) : Bool :=
  run_all.all fun s => check git newFile (t s.project) s

section
variable {git : Git Content} {newFile : NewFile → Option Content} {r r' : Repo Content Commit}

theorem gitApply_isSome (n : Patch) :
    (gitApply git n r).isSome = applicable r.work (files n) (git.patched n) := by
  unfold gitApply
  cases applicable r.work (files n) (git.patched n) <;> rfl

theorem copy_isSome (dst : Path) (c : Content) : (copy dst c r).isSome = r.work.dirs dst.dir := by
  unfold copy
  split
  · rename_i hdir
    exact hdir.symm
  · rename_i hdir
    rw [Bool.not_eq_true] at hdir
    exact hdir.symm

/-- A step succeeds when its check does and there is a directory to copy into. -/
theorem perform_isSome_iff (s : Step) : (perform git newFile r s).isSome = true ↔
    check git newFile r s = true ∧ ∀ d ∈ copyDirs s, r.work.dirs d = true := by
  cases s with
  | apply p n => exact (and_iff_left fun d hd => absurd hd List.not_mem_nil).symm
  | copyNew src p dst =>
    rw [copyDirs, List.forall_mem_singleton, perform, check]
    cases newFile src with
    | none =>
      rw [Option.bind_none, Option.isSome_none]
      exact iff_of_false Bool.false_ne_true fun h => Bool.false_ne_true h.1
    | some c =>
      rw [Option.bind_some, copy_isSome]
      exact (and_iff_right rfl).symm

/-- No step makes or removes a directory. -/
theorem perform_dirs {s : Step} (h : perform git newFile r s = some r') : r'.work.dirs = r.work.dirs := by
  cases s with
  | apply p n =>
    obtain ⟨-, rfl⟩ := gitApply_eq_some.mp h
    rfl
  | copyNew src p dst =>
    obtain ⟨c, -, hcopy⟩ := Option.bind_eq_some_iff.mp h
    unfold copy at hcopy
    split at hcopy
    · cases hcopy
      rfl
    · cases hcopy

/-- A check reads nothing but the files of its patch. -/
theorem check_congr {s : Step} (h : ∀ f ∈ patchedFiles s, r'.work.file f = r.work.file f) :
    check git newFile r' s = check git newFile r s := by
  cases s with
  | apply p n =>
    rw [check, check, gitApply_isSome, gitApply_isSome, Bool.eq_iff_iff, applicable_iff, applicable_iff]
    refine forall₂_congr fun f hf => ?_
    rw [h f hf]
  | copyNew src p dst => rfl

theorem spares_of_apart {s s' : Step}
    (h : ∀ f ∈ patchedFiles s ++ copiedFiles s, f ∉ patchedFiles s' ++ copiedFiles s') :
    Spares (fun r : Repo Content Commit => perform git newFile r) s s' := by
  intro r r' hs
  have htouched := touched_perform hs
  have hfiles : ∀ f ∈ patchedFiles s', r'.work.file f = r.work.file f := fun f hf =>
    htouched.others f (fun hp => h f (List.mem_append_left _ hp) (List.mem_append_left _ hf))
      fun hc => h f (List.mem_append_right _ hc) (List.mem_append_left _ hf)
  rw [perform_isSome_iff, perform_isSome_iff, check_congr hfiles, perform_dirs hs]

/-- A patch that applies finds the directories of its files. -/
theorem dirs_of_check {p : Project} {n : Patch} (h : check git newFile r (.apply p n) = true) {f : Path}
    (hf : f ∈ files n) : r.work.dirs f.dir = true := by
  rw [check, gitApply_isSome, applicable_iff] at h
  obtain ⟨c, -, hc, -⟩ := h f hf
  exact r.work.file_dir f (by rw [hc]; rfl)

end

section
variable (git : Git Content) (newFile : NewFile → Option Content) (t : Tree Content Commit)

/-- Steps of `run_all`, some of them left out, succeed when each would on the untouched tree. -/
theorem steps_iff {steps : List Step} (hsteps : steps.Sublist run_all) :
    (∃ t', steps.foldlM (lift Step.project (perform git newFile)) t = some t') ↔
      ∀ s ∈ steps, (perform git newFile (t s.project) s).isSome = true := by
  have hsplit := exists_foldlM_lift_iff Step.project (perform git newFile) steps t fun _ _ => True
  simp only [implies_true, and_true] at hsplit
  refine hsplit.trans ?_
  have hproject (p : Project) :
      (∃ r', (steps.filter fun s => s.project = p).foldlM (perform git newFile) (t p) = some r') ↔
        ∀ s ∈ steps.filter fun s => s.project = p, (perform git newFile (t p) s).isSome = true := by
    have hapart : Apart (steps.filter fun s => s.project = p) :=
      (apart_stepsIn p).sublist (hsteps.filter _)
    exact exists_foldlM_iff (hapart.imp fun h => spares_of_apart h) (t p)
  refine (forall_congr' hproject).trans ⟨fun h s hs => ?_, fun h p s hs => ?_⟩
  · exact h s.project s (List.mem_filter.mpr ⟨hs, decide_eq_true rfl⟩)
  · obtain ⟨hmem, hp⟩ := List.mem_filter.mp hs
    have hs' := h s hmem
    rwa [of_decide_eq_true hp] at hs'

variable {git newFile t}

/-- The FM patch finds `core/jni` for the first copy; nothing looks for the directory of the second. -/
theorem perform_checked_iff (h : checkPhase git newFile t = true) {s : Step} (hs : s ∈ run_all) :
    (perform git newFile (t s.project) s).isSome = true ↔
      (s.project = .vendorCyanogen → "products" ∈ copyDirs s → (t .vendorCyanogen).work.dirs "products" = true) := by
  have hcheck : ∀ s ∈ run_all, check git newFile (t s.project) s = true := List.all_eq_true.mp h
  have hjni : (t .frameworksBase).work.dirs "core/jni" = true :=
    dirs_of_check (hcheck (.apply .frameworksBase .baseFm) (by decide)) List.mem_cons_self
  have hcopies : ∀ s ∈ run_all, ∀ d ∈ copyDirs s,
      s.project = .frameworksBase ∧ d = "core/jni" ∨ s.project = .vendorCyanogen ∧ d = "products" := by
    decide
  rw [perform_isSome_iff]
  constructor
  · rintro ⟨-, hdirs⟩ hp hd
    rw [← hp]
    exact hdirs "products" hd
  · intro hproducts
    refine ⟨hcheck s hs, fun d hd => ?_⟩
    rcases hcopies s hs d hd with ⟨hp, rfl⟩ | ⟨hp, rfl⟩
    · rw [hp]
      exact hjni
    · rw [hp]
      exact hproducts hp hd

/-- Behind the check phase only the last step can fail. -/
theorem dropLast_succeeds (h : checkPhase git newFile t = true) :
    ∃ t', run_all.dropLast.foldlM (lift Step.project (perform git newFile)) t = some t' := by
  rw [steps_iff git newFile t (List.dropLast_sublist run_all)]
  intro s hs
  rw [perform_checked_iff h (List.dropLast_subset run_all hs)]
  have hnone : ∀ s ∈ run_all.dropLast, s.project = .vendorCyanogen → "products" ∉ copyDirs s := by
    decide
  exact fun hp hd => absurd hd (hnone s hs hp)

variable (git newFile t)

/-- A tree that passes the check phase is patched to the end exactly when `vendor/cyanogen` has the
directory `products`. -/
theorem check_suffices_iff (h : checkPhase git newFile t = true) :
    (∃ t', applyPhase git newFile t = some t') ↔ (t .vendorCyanogen).work.dirs "products" = true := by
  unfold applyPhase
  rw [steps_iff git newFile t (List.Sublist.refl run_all)]
  constructor
  · intro hall
    have hcopy : Step.copyNew .vendorCyanogenY210 .vendorCyanogen cyanogenY210Mk ∈ run_all := by decide
    exact (perform_checked_iff h hcopy).mp (hall _ hcopy) rfl List.mem_cons_self
  · intro hproducts s hs
    exact (perform_checked_iff h hs).mpr fun _ _ => hproducts

end

/-! ## A tree without `products` -/

/-- As `freshFiles`, where a directory may be missing with all its files. -/
def freshWithout (missing : Option String) : Files Nat where
  file f := if some f.dir = missing then none else freshFiles.file f
  dirs d := some d ≠ missing
  file_dir f h := by
    split at h
    · cases h
    · rename_i hdir
      exact decide_eq_true hdir

def treeWithout (missing : Option String) : Tree Nat Bool := fun _ =>
  ⟨fun _ => some true, fun _ => freshWithout missing, true, fun f => ((freshWithout missing).file f).isSome,
    freshWithout missing⟩

theorem treeWithout_none_patched :
    ∃ t', applyPhase addOne (fun _ => some 1) (treeWithout none) = some t' :=
  (check_suffices_iff addOne (fun _ => some 1) (treeWithout none) (by decide +kernel)).mpr rfl

/-- Without the directory the checks pass and the last copy fails. -/
theorem copy_unchecked : ¬ ∀ (Content Commit : Type) (git : Git Content) (newFile : NewFile → Option Content)
    (t : Tree Content Commit), checkPhase git newFile t = true → ∃ t', applyPhase git newFile t = some t' := by
  intro h
  obtain ⟨t', ht'⟩ := h Nat Bool addOne (fun _ => some 1) (treeWithout (some "products")) (by decide +kernel)
  have hnone : (applyPhase addOne (fun _ => some 1) (treeWithout (some "products"))).isSome = false := by
    decide +kernel
  rw [ht'] at hnone
  cases hnone

end PatchCheck
