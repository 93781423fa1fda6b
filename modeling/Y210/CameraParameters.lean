import Mathlib.Data.List.Basic
import Mathlib.Logic.Function.Basic
import Y210.CString

/-!
# Camera parameters

The parameter maps of `Y210CameraWrapper`: the set it starts from, the keys it copies
from a client, and the keys it hands to the blob.
-/
namespace CameraParameters

open CString

/-- The keys that the wrapper names, and any other key of a client. -/
inductive Key where
  | previewSize
  | supportedPreviewSizes
  | previewFormat
  | supportedPreviewFormats
  | previewFrameRate
  | supportedPreviewFrameRates
  | previewFpsRange
  | supportedPreviewFpsRange
  | previewFrameRateMode
  | supportedPreviewFrameRateModes
  | pictureSize
  | supportedPictureSizes
  | pictureFormat
  | supportedPictureFormats
  | jpegThumbnailWidth
  | jpegThumbnailHeight
  | jpegThumbnailQuality
  | jpegQuality
  | rotation
  | focusMode
  | supportedFocusModes
  | whiteBalance
  | supportedWhiteBalance
  | effect
  | supportedEffects
  | antibanding
  | zoom
  | maxZoom
  | zoomRatios
  | zoomSupported
  | videoSize
  | videoFrameFormat
  | videoHighFrameRate
  | supportedVideoHighFrameRateModes
  | supportedHfrSizes
  | denoise
  | supportedDenoise
  | redeyeReduction
  | supportedRedeyeReduction
  | supportedVideoSizes
  | preferredPreviewSizeForVideo
  | recordingHint
  | other (name : String)
  deriving DecidableEq, Repr

/-- The map of a `CameraParameters` object. -/
abbrev Params := Key → Option String

/-- The part of the framework's class that decides: which values `set` stores, and the
size that `getPreviewSize` reads from a text. -/
structure Framework where
  accepts : String → Bool
  readSize : String → Int × Int

/-- The framework's `set` refuses `=` and `;`, which separate the pairs of a flattened map. -/
def Documented (f : Framework) : Prop :=
  ∀ value, '=' ∉ value.toList → ';' ∉ value.toList → f.accepts value = true

/-! ## The class -/

def empty : Params := fun _ => none

def set (f : Framework) (key : Key) (value : String) (params : Params) : Params :=
  if f.accepts value then Function.update params key (some value) else params

/-- `"%dx%d"`. -/
def sizeText (width height : Nat) : String := toString width ++ "x" ++ toString height

def setPreviewSize (f : Framework) (width height : Nat) : Params → Params :=
  set f .previewSize (sizeText width height)

def setPictureSize (f : Framework) (width height : Nat) : Params → Params :=
  set f .pictureSize (sizeText width height)

def getPreviewSize (f : Framework) (params : Params) : Int × Int :=
  match params .previewSize with
  | some text => f.readSize text
  | none => (-1, -1)

def pixelFormatYuv420sp : String := "yuv420sp"
def pixelFormatJpeg : String := "jpeg"

/-! ## The wrapper's sets -/

/-- What `seedParameters` sets, in its order. -/
def seeds : List (Key × String) :=
  [(.previewSize, sizeText 640 480), (.previewFrameRate, "15"), (.previewFormat, pixelFormatYuv420sp),
    (.pictureSize, sizeText 1600 1200), (.pictureFormat, pixelFormatJpeg), (.jpegQuality, "100"),
    (.jpegThumbnailWidth, "512"), (.jpegThumbnailHeight, "384"), (.jpegThumbnailQuality, "90"),
    (.focusMode, "auto"), (.whiteBalance, "auto"), (.effect, "none"), (.rotation, "0"),
    (.supportedPreviewSizes, "640x480,480x320,352x288,240x160,176x144"),
    (.supportedPictureSizes, "1600x1200,640x480,512x384,320x240"), (.supportedPreviewFrameRates, "15"),
    (.previewFpsRange, "5000,31000"), (.supportedPreviewFpsRange, "(5000,31000)"),
    (.supportedPictureFormats, pixelFormatJpeg), (.supportedPreviewFormats, pixelFormatYuv420sp),
    (.supportedWhiteBalance, "auto"), (.supportedEffects, "none"), (.supportedFocusModes, "auto"),
    (.videoSize, sizeText 352 288), (.videoFrameFormat, pixelFormatYuv420sp),
    (.videoHighFrameRate, "off"), (.supportedVideoHighFrameRateModes, "off"),
    (.supportedHfrSizes, "352x288"), (.denoise, "denoise-off"), (.supportedDenoise, "denoise-off"),
    (.redeyeReduction, "redeye-disable"), (.supportedRedeyeReduction, "redeye-disable"),
    (.supportedVideoSizes, "352x288,320x240,176x144"), (.preferredPreviewSizeForVideo, "352x288")]

def setAll (f : Framework) (pairs : List (Key × String)) (params : Params) : Params :=
  pairs.foldl (fun params pair => set f pair.1 pair.2 params) params

def seedParameters (f : Framework) : Params := setAll f seeds empty

/-- The new `dst`, and whether the key was present with a text. -/
def copyParameterIfPresent (f : Framework) (dst src : Params) (key : Key) : Params × Bool :=
  match src key with
  | none => (dst, false)
  | some value => if value = "" then (dst, false) else (set f key value dst, true)

def copyAll (f : Framework) (src : Params) (keys : List Key) (dst : Params) : Params :=
  keys.foldl (fun dst key => (copyParameterIfPresent f dst src key).1) dst

/-- The keys that `sanitizeParameters` copies, in its order. -/
def sanitizedKeys : List Key :=
  [.previewSize, .supportedPreviewSizes, .previewFormat, .supportedPreviewFormats, .previewFrameRate,
    .supportedPreviewFrameRates, .previewFpsRange, .supportedPreviewFpsRange, .previewFrameRateMode,
    .supportedPreviewFrameRateModes, .pictureSize, .supportedPictureSizes, .pictureFormat,
    .supportedPictureFormats, .jpegThumbnailWidth, .jpegThumbnailHeight, .jpegThumbnailQuality,
    .jpegQuality, .rotation, .focusMode, .supportedFocusModes, .whiteBalance, .supportedWhiteBalance,
    .antibanding, .zoom, .maxZoom, .zoomRatios, .zoomSupported, .videoSize, .videoFrameFormat,
    .supportedVideoSizes, .preferredPreviewSizeForVideo]

def sanitizeParameters (f : Framework) (raw : Option Params) : Params :=
  match raw with
  | none => seedParameters f
  | some raw => copyAll f raw sanitizedKeys (seedParameters f)

def isDelegatableParameterKey (key : Key) : Bool :=
  key = .previewSize || key = .pictureSize || key = .previewFormat || key = .pictureFormat ||
    key = .jpegQuality || key = .rotation || key = .videoSize || key = .videoFrameFormat ||
    key = .recordingHint

/-- The table of `buildDelegatedParameters`. -/
def kKeys : List Key :=
  [.previewSize, .pictureSize, .previewFormat, .pictureFormat, .jpegQuality, .rotation, .whiteBalance,
    .focusMode, .videoSize, .videoFrameFormat, .recordingHint]

def buildDelegatedParameters (f : Framework) (input : Params) : Params :=
  kKeys.foldl (fun out key =>
    if isDelegatableParameterKey key = false then out else (copyParameterIfPresent f out input key).1)
    (seedParameters f)

/-! ## Lookup -/

section
variable (f : Framework)

theorem set_apply (key : Key) (value : String) (params : Params) (k : Key) :
    set f key value params k = if k = key ∧ f.accepts value = true then some value else params k := by
  unfold set
  by_cases ha : f.accepts value = true
  · simp [ha, Function.update_apply]
  · simp [ha]

/-- The text that a copy takes over. -/
def copied (value : Option String) : Option String := value.filter fun text => text ≠ "" && f.accepts text

@[simp] theorem copied_none : copied f none = none := rfl

theorem copied_some (text : String) :
    copied f (some text) = if text ≠ "" ∧ f.accepts text = true then some text else none := by
  simp [copied, Option.filter_some]

theorem copied_copied (value : Option String) : copied f (copied f value) = copied f value := by
  cases value with
  | none => rfl
  | some text =>
    rw [copied_some]
    split
    · rename_i h
      rw [copied_some, if_pos h]
    · rfl

theorem copied_or_self (value : Option String) : (copied f value).or value = value := by
  cases value with
  | none => rfl
  | some text =>
    rw [copied_some]
    split <;> rfl

theorem copyParameterIfPresent_apply (dst src : Params) (key k : Key) :
    (copyParameterIfPresent f dst src key).1 k =
      if k = key then (copied f (src key)).or (dst k) else dst k := by
  unfold copyParameterIfPresent
  cases hsrc : src key with
  | none => simp
  | some value =>
    rw [copied_some]
    by_cases hv : value = ""
    · simp [hv]
    · simp only [hv, if_false, set_apply, ne_eq, not_false_eq_true, true_and]
      by_cases ha : f.accepts value = true <;> by_cases hk : k = key <;> simp [ha, hk]

theorem copyAll_apply (src : Params) (keys : List Key) (dst : Params) (k : Key) :
    copyAll f src keys dst k = if k ∈ keys then (copied f (src k)).or (dst k) else dst k := by
  induction keys generalizing dst with
  | nil => rfl
  | cons key keys ih =>
    change copyAll f src keys (copyParameterIfPresent f dst src key).1 k = _
    rw [ih, copyParameterIfPresent_apply]
    by_cases hk : k = key
    · subst hk
      cases copied f (src k) <;> simp
    · simp [hk]

theorem sanitizeParameters_apply (raw : Params) (k : Key) :
    sanitizeParameters f (some raw) k =
      if k ∈ sanitizedKeys then (copied f (raw k)).or (seedParameters f k) else seedParameters f k :=
  copyAll_apply f raw sanitizedKeys (seedParameters f) k

/-- The table and the predicate together: what the blob is told. -/
theorem buildDelegatedParameters_apply (input : Params) (k : Key) :
    buildDelegatedParameters f input k =
      if k ∈ kKeys.filter isDelegatableParameterKey then (copied f (input k)).or (seedParameters f k)
      else seedParameters f k :=
  copyAll_apply f input (kKeys.filter isDelegatableParameterKey) (seedParameters f) k

/-- The blob is told what the sanitized set holds, for every key on both ways. -/
theorem delegated_sanitized (raw : Params) {k : Key} (hk : k ∈ kKeys.filter isDelegatableParameterKey)
    (hs : k ∈ sanitizedKeys) :
    buildDelegatedParameters f (sanitizeParameters f (some raw)) k = sanitizeParameters f (some raw) k := by
  rw [buildDelegatedParameters_apply, if_pos hk, sanitizeParameters_apply, if_pos hs]
  cases hc : copied f (raw k) with
  | none => exact copied_or_self f _
  | some text =>
    have hcc := copied_copied f (raw k)
    rw [hc] at hcc
    rw [Option.some_or, hcc, Option.some_or]

/-- Every seed that the framework stores is there. -/
theorem setAll_isSome (pairs : List (Key × String)) (hset : ∀ pair ∈ pairs, f.accepts pair.2 = true)
    (params : Params) {k : Key} (h : k ∈ pairs.map Prod.fst ∨ (params k).isSome) :
    (setAll f pairs params k).isSome := by
  induction pairs generalizing params with
  | nil => simpa [setAll] using h
  | cons pair pairs ih =>
    refine ih (fun q hq => hset q (List.mem_cons_of_mem _ hq)) (set f pair.1 pair.2 params) ?_
    rw [set_apply]
    by_cases hk : k = pair.1
    · simp [hk, hset pair List.mem_cons_self]
    · simpa [hk] using h

theorem seedParameters_isSome (hf : Documented f) {k : Key} (hk : k ∈ seeds.map Prod.fst) :
    (seedParameters f k).isSome := by
  refine setAll_isSome f seeds (fun pair hp => ?_) empty (.inl hk)
  have hplain : ∀ pair ∈ seeds, '=' ∉ pair.2.toList ∧ ';' ∉ pair.2.toList := by decide +kernel
  exact hf pair.2 (hplain pair hp).1 (hplain pair hp).2

end

/-! ## The framework -/

/-- `parse_pair` with the delimiter `x`. -/
def parsePair (text : String) : Int × Int :=
  match strtol 10 text.toList with
  | (width, 'x' :: rest) => (width, (strtol 10 rest).1)
  | _ => (-1, -1)

/-- A framework as documented. -/
def stockFramework : Framework := ⟨fun value => '=' ∉ value.toList ∧ ';' ∉ value.toList, parsePair⟩

theorem stockFramework_documented : Documented stockFramework := fun _ heq hsemi =>
  decide_eq_true ⟨heq, hsemi⟩

end CameraParameters
