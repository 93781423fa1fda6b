import Y210.LocalSteps

/-!
# The patches of the CM7 tree

`apply-patches.sh` and `revert-patches.sh` over the twelve projects they touch. What git makes of
the hunks of a patch is a parameter.
-/
namespace Patches

open LocalSteps

inductive Project where
  | hardwareRil | libhardwareLegacy | msm7k | netd | frameworksBase | camera | packageInstaller | tag
  | contacts | fm | settings | vendorCyanogen
  deriving DecidableEq, Repr

/-- A path in a project: the directory and the name in it. -/
structure Path where
  dir : String
  name : String
  deriving DecidableEq, Repr

inductive Patch where
  | hardwareRil | libhardwareLegacy | msm7k | netd | baseCamera | baseTelephony | baseRilClass | baseFm
  | baseFmJava | baseStatusbar | baseStatusbarExpanded | baseTitlebarNinepatch | camera | packageInstaller
  | tag | contacts | fm | settings | vendorCyanogen
  deriving DecidableEq, Repr

/-- The files a patch changes; no patch adds, deletes or renames one. -/
def files : Patch → List Path
  | .hardwareRil => [⟨"libril", "ril.cpp"⟩, ⟨"libril", "ril_unsol_commands.h"⟩]
  | .libhardwareLegacy => [⟨"wifi", "wifi.c"⟩]
  | .msm7k => [⟨"libcopybit", "Android.mk"⟩, ⟨"libcopybit", "copybit.cpp"⟩]
  | .netd => [⟨"", "SoftapControllerATH.cpp"⟩]
  | .baseCamera =>
    [⟨"include/camera", "CameraParameters.h"⟩, ⟨"libs/camera", "CameraParameters.cpp"⟩,
      ⟨"media/libmediaplayerservice", "StagefrightRecorder.cpp"⟩,
      ⟨"services/camera/libcameraservice", "CameraService.cpp"⟩,
      ⟨"services/surfaceflinger", "TextureManager.cpp"⟩]
  | .baseTelephony =>
    [⟨"core/java/com/android/internal/os", "ZygoteInit.java"⟩,
      ⟨"telephony/java/com/android/internal/telephony", "DataConnection.java"⟩,
      ⟨"telephony/java/com/android/internal/telephony", "RIL.java"⟩,
      ⟨"telephony/java/com/android/internal/telephony", "RILConstants.java"⟩,
      ⟨"telephony/java/com/android/internal/telephony/gsm", "GsmDataConnectionTracker.java"⟩]
  | .baseRilClass => [⟨"telephony/java/com/android/internal/telephony", "PhoneFactory.java"⟩]
  | .baseFm => [⟨"core/jni", "Android.mk"⟩]
  | .baseFmJava =>
    [⟨"core/java/android/hardware/fmradio", "FmReceiver.java"⟩,
      ⟨"core/java/android/hardware/fmradio", "FmRxControls.java"⟩,
      ⟨"core/java/android/hardware/fmradio", "FmRxEventListner.java"⟩,
      ⟨"core/java/android/hardware/fmradio", "FmTransceiver.java"⟩]
  | .baseStatusbar =>
    [⟨"libs/surfaceflinger_client", "Surface.cpp"⟩,
      ⟨"services/java/com/android/server", "StatusBarManagerService.java"⟩]
  | .baseStatusbarExpanded =>
    [⟨"packages/SystemUI/res/drawable-hdpi", "title_bar_portrait.9.png"⟩,
      ⟨"packages/SystemUI/res/drawable-mdpi", "title_bar_portrait.9.png"⟩,
      ⟨"packages/SystemUI/res/layout", "status_bar_expanded.xml"⟩,
      ⟨"packages/SystemUI/src/com/android/systemui/statusbar", "StatusBarService.java"⟩,
      ⟨"packages/SystemUI/src/com/android/systemui/statusbar", "StatusBarView.java"⟩]
  | .baseTitlebarNinepatch =>
    ["hdpi", "ldpi", "mdpi"].flatMap fun density =>
      ["title_bar_medium.9.png", "title_bar_portrait.9.png", "title_bar_shadow.9.png",
        "title_bar_tall.9.png"].map fun name => ⟨"core/res/res/drawable-" ++ density, name⟩
  | .camera =>
    ["BaseCamera.java", "Camera.java", "CameraSettings.java", "MenuHelper.java", "Util.java",
      "VideoCamera.java"].map fun name => ⟨"src/com/android/camera", name⟩
  | .packageInstaller | .tag =>
    [⟨"res/drawable-hdpi", "title_bar_medium.9.png"⟩, ⟨"res/drawable-mdpi", "title_bar_medium.9.png"⟩]
  | .contacts =>
    [⟨"res/drawable-hdpi-finger", "title_bar_shadow.9.png"⟩,
      ⟨"res/drawable-mdpi-finger", "title_bar_shadow.9.png"⟩]
  | .fm =>
    [⟨"res/values", "config.xml"⟩, ⟨"src/com/android/fm/radio", "FMRadio.java"⟩,
      ⟨"src/com/android/fm/radio", "FMRadioService.java"⟩,
      ⟨"src/com/android/fm/radio", "FmSharedPreferences.java"⟩]
  | .settings =>
    [⟨"src/com/android/settings", "ApnEditor.java"⟩, ⟨"src/com/android/settings", "ApnSettings.java"⟩]
  | .vendorCyanogen => [⟨"prebuilt/common/etc", "apns-conf.xml"⟩]

/-- The files beside the scripts that `copy_new` copies. -/
inductive NewFile where
  | androidHardwareFmQcom | vendorCyanogenY210
  deriving DecidableEq, Repr

def androidHardwareFmQcomCpp : Path := ⟨"core/jni", "android_hardware_fm_qcom.cpp"⟩
def cyanogenY210Mk : Path := ⟨"products", "cyanogen_y210.mk"⟩

/-! ## Projects -/

variable {Content Commit : Type}

/-- Files and directories. A file's directory exists. -/
structure Files (Content : Type) where
  file : Path → Option Content
  dirs : String → Bool
  file_dir : ∀ f, (file f).isSome = true → dirs f.dir = true

/-- A project's repository: its commits, the one checked out, the files in the index, and the
working tree. -/
structure Repo (Content Commit : Type) where
  resolve : String → Option Commit
  tree : Commit → Files Content
  head : Commit
  tracked : Path → Bool
  work : Files Content

abbrev Tree (Content Commit : Type) := Project → Repo Content Commit

/-- What git makes of the hunks of one file in a patch. The reverse undoes what was applied, and
what is applied changes the file. -/
structure Git (Content : Type) where
  patched : Patch → Path → Content → Option Content
  unpatched : Patch → Path → Content → Option Content
  exact : ∀ n f c c', patched n f c = some c' → unpatched n f c' = some c
  changes : ∀ n f c c', patched n f c = some c' → c' ≠ c

/-- Some files rewritten in place. -/
def Files.rewrite (fs : Files Content) (targets : List Path) (g : Path → Content → Option Content) :
    Files Content where
  file f := if f ∈ targets then (fs.file f).bind (g f) else fs.file f
  dirs := fs.dirs
  file_dir f h := by
    refine fs.file_dir f ?_
    split at h
    · exact Option.isSome_of_isSome_bind h
    · exact h

def Files.write (fs : Files Content) (f : Path) (c : Content) (h : fs.dirs f.dir = true) : Files Content where
  file g := if g = f then some c else fs.file g
  dirs := fs.dirs
  file_dir g hg := by
    split at hg
    · rename_i he
      rw [he]
      exact h
    · exact fs.file_dir g hg

def Files.remove (fs : Files Content) (f : Path) : Files Content where
  file g := if g = f then none else fs.file g
  dirs := fs.dirs
  file_dir g hg := by
    split at hg
    · cases hg
    · exact fs.file_dir g hg

/-- The working tree after `git reset --hard`: the files of the commit, without the files that were
tracked and are not in it. -/
def Files.reset (fs : Files Content) (tracked : Path → Bool) (commit : Files Content) : Files Content where
  file f :=
    match commit.file f with
    | some c => some c
    | none => if tracked f then none else fs.file f
  dirs d := fs.dirs d || commit.dirs d
  file_dir f h := by
    rw [Bool.or_eq_true]
    cases hc : commit.file f with
    | some c => exact .inr (commit.file_dir f (by rw [hc]; rfl))
    | none =>
      simp only [hc] at h
      split at h
      · cases h
      · exact .inl (fs.file_dir f h)

/-- Whether `g` applies to every target. -/
def applicable (fs : Files Content) (targets : List Path) (g : Path → Content → Option Content) : Bool :=
  targets.all fun f => ((fs.file f).bind (g f)).isSome

/-- `git apply`: all of the patch or nothing. -/
def gitApply (git : Git Content) (n : Patch) (r : Repo Content Commit) : Option (Repo Content Commit) :=
  if applicable r.work (files n) (git.patched n) then
    some { r with work := r.work.rewrite (files n) (git.patched n) }
  else none

/-- `git apply --reverse`. -/
def gitApplyReverse (git : Git Content) (n : Patch) (r : Repo Content Commit) :
    Option (Repo Content Commit) :=
  if applicable r.work (files n) (git.unpatched n) then
    some { r with work := r.work.rewrite (files n) (git.unpatched n) }
  else none

/-- `git reset --hard`. -/
def gitResetHard (commit : String) (r : Repo Content Commit) : Option (Repo Content Commit) :=
  (r.resolve commit).map fun c =>
    { r with head := c, tracked := fun f => ((r.tree c).file f).isSome, work := r.work.reset r.tracked (r.tree c) }

/-- `cp`, to a file in a directory that exists. -/
def copy (f : Path) (c : Content) (r : Repo Content Commit) : Option (Repo Content Commit) :=
  if h : r.work.dirs f.dir = true then some { r with work := r.work.write f c h } else none

/-! ## `apply-patches.sh` -/

inductive Step where
  | apply (project : Project) (patch : Patch)
  | copyNew (src : NewFile) (project : Project) (dst : Path)
  deriving DecidableEq, Repr

def Step.project : Step → Project
  | .apply project _ => project
  | .copyNew _ project _ => project

/-- `run_all`. -/
def run_all : List Step :=
  [.apply .hardwareRil .hardwareRil,
    .apply .libhardwareLegacy .libhardwareLegacy,
    .apply .msm7k .msm7k,
    .apply .netd .netd,
    .apply .frameworksBase .baseCamera,
    .apply .frameworksBase .baseTelephony,
    .apply .frameworksBase .baseRilClass,
    .apply .frameworksBase .baseFm,
    .copyNew .androidHardwareFmQcom .frameworksBase androidHardwareFmQcomCpp,
    .apply .frameworksBase .baseFmJava,
    .apply .frameworksBase .baseStatusbar,
    .apply .frameworksBase .baseStatusbarExpanded,
    .apply .frameworksBase .baseTitlebarNinepatch,
    .apply .camera .camera,
    .apply .packageInstaller .packageInstaller,
    .apply .tag .tag,
    .apply .contacts .contacts,
    .apply .fm .fm,
    .apply .settings .settings,
    .apply .vendorCyanogen .vendorCyanogen,
    .copyNew .vendorCyanogenY210 .vendorCyanogen cyanogenY210Mk]

section
variable (git : Git Content) (newFile : NewFile → Option Content)

/-- `apply` and `copy_new` with `CHECK_ONLY=1`. -/
def check (r : Repo Content Commit) : Step → Bool
  | .apply _ n => (gitApply git n r).isSome
  | .copyNew src _ _ => (newFile src).isSome

/-- `apply` and `copy_new` with `CHECK_ONLY=0`; `none` ends the script, by `set -e`. -/
def perform (r : Repo Content Commit) : Step → Option (Repo Content Commit)
  | .apply _ n => gitApply git n r
  | .copyNew src _ dst => (newFile src).bind fun c => copy dst c r

/-- The second `run_all`. -/
def applyPhase (t : Tree Content Commit) : Option (Tree Content Commit) :=
  run_all.foldlM (lift Step.project (perform git newFile)) t

/-- `apply-patches.sh`, to its end. -/
def applyPatches (t : Tree Content Commit) : Option (Tree Content Commit) :=
  if run_all.all fun s => check git newFile (t s.project) s then applyPhase git newFile t else none

end

/-! ## `revert-patches.sh` -/

inductive Undo where
  | revertWt (project : Project) (patch : Patch)
  | revertCommits (project : Project) (base : String)
  | removeNew (project : Project) (dst : Path)
  deriving DecidableEq, Repr

def Undo.project : Undo → Project
  | .revertWt project _ => project
  | .revertCommits project _ => project
  | .removeNew project _ => project

def undoAll : List Undo :=
  [.revertWt .hardwareRil .hardwareRil,
    .revertWt .libhardwareLegacy .libhardwareLegacy,
    .revertCommits .msm7k "5336b50",
    .revertWt .netd .netd,
    .revertCommits .frameworksBase "aa02ad1445e",
    .removeNew .frameworksBase androidHardwareFmQcomCpp,
    .revertCommits .camera "434f8777",
    .revertWt .packageInstaller .packageInstaller,
    .revertWt .tag .tag,
    .revertWt .contacts .contacts,
    .revertWt .fm .fm,
    .revertWt .settings .settings,
    .revertWt .vendorCyanogen .vendorCyanogen,
    .removeNew .vendorCyanogen cyanogenY210Mk]

def undo (git : Git Content) (r : Repo Content Commit) : Undo → Option (Repo Content Commit)
  | .revertWt _ n => gitApplyReverse git n r
  | .revertCommits _ base => gitResetHard base r
  | .removeNew _ dst => some { r with work := r.work.remove dst }

/-- `revert-patches.sh`, to its end. -/
def revertPatches (git : Git Content) (t : Tree Content Commit) : Option (Tree Content Commit) :=
  undoAll.foldlM (lift Undo.project (undo git)) t

end Patches
