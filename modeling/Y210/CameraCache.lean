import Y210.CameraWrapper

/-!
# The cache of the parameters

`getParameters` answers from a cache that `setParameters` writes before the blob has
answered. The laws below say when the cache holds what the blob took.
-/
namespace CameraCache

open CameraParameters CameraWrapper

variable {f : Framework} {b : Blob}

/-- The last set that the blob accepted. -/
def acceptedParams (b : Blob) : List BlobCall → Option Params
  | [] => none
  | .setParameters params :: older => if b.status older = noError then some params else acceptedParams b older
  | _ :: older => acceptedParams b older

/-- The keys of the sizes and formats. -/
def sizeKeys : List Key := [.previewSize, .pictureSize, .previewFormat, .pictureFormat]

/-- The sizes and formats that `getParameters` reports are those that the blob accepted
last, or the seeded ones. -/
def Agrees (f : Framework) (b : Blob) (w : World) : Prop :=
  ∀ k ∈ sizeKeys, (getParameters f w).2 k = (acceptedParams b w.calls).getD (seedParameters f) k

/-- A set that the blob rejects leaves the cache as it was. -/
def KeepsCache (f : Framework) (b : Blob) (w : World) (op : Op) : Prop :=
  ∀ params, op = .setParameters params → isUsable w = true → b.status w.calls ≠ noError →
    (step f b w op).wrapper.mLastGoodParameters = w.wrapper.mLastGoodParameters

/-! ## What a client asks for -/

/-- The sizes and formats of a client that names none. -/
def defaults : Key → Option String
  | .previewSize => some (sizeText 480 320)
  | .pictureSize => some (sizeText 640 480)
  | .previewFormat => some pixelFormatYuv420sp
  | .pictureFormat => some pixelFormatJpeg
  | _ => none

/-- The client's text, for the keys that the wrapper takes from a client; the seed elsewhere. -/
def chosen (f : Framework) (params : Params) (k : Key) : Option String :=
  if k ∈ sanitizedKeys then (copied f ((params k).or (defaults k))).or (seedParameters f k)
  else seedParameters f k

/-- The same with 480x320 in place of the preview size 432x320. -/
def asked (f : Framework) (params : Params) (k : Key) : Option String :=
  if k = .previewSize ∧ (chosen f params .previewSize).map f.readSize = some (432, 320) then
    some (sizeText 480 320)
  else chosen f params k

/-- Whatever the blob rejects asks, key by key, for what is cached already. -/
def AsksForCached (f : Framework) (b : Blob) (w : World) (op : Op) : Prop :=
  ∀ params, op = .setParameters params → isUsable w = true → b.status w.calls ≠ noError →
    ∀ k, asked f params k = w.wrapper.mLastGoodParameters k

/-! ## What is stored -/

/-- A default is set where the client names nothing. -/
theorem fill_apply {key : Key} {value : String} (ha : f.accepts value = true) (params : Params) (k : Key) :
    (if params key = none then set f key value params else params) k =
      if k = key then (params k).or (some value) else params k := by
  by_cases hk : k = key
  · subst hk
    cases hp : params k <;> simp [set_apply, ha, hp]
  · split <;> simp [set_apply, hk]

theorem patch_apply (hf : Documented f) (params : Params) (k : Key) :
    patch f params k = (params k).or (defaults k) := by
  have h1 : f.accepts (sizeText 480 320) = true := hf _ (by decide +kernel) (by decide +kernel)
  have h2 : f.accepts (sizeText 640 480) = true := hf _ (by decide +kernel) (by decide +kernel)
  have h3 : f.accepts pixelFormatYuv420sp = true := hf _ (by decide +kernel) (by decide +kernel)
  have h4 : f.accepts pixelFormatJpeg = true := hf _ (by decide +kernel) (by decide +kernel)
  unfold patch setPreviewSize setPictureSize
  rw [fill_apply h4, fill_apply h3, fill_apply h2, fill_apply h1]
  cases k <;> simp [defaults]

theorem sanitized_apply (hf : Documented f) (params : Params) (k : Key) :
    sanitized f params k = chosen f params k := by
  rw [sanitized, sanitizeParameters_apply, patch_apply hf, chosen]

/-- The sizes and formats go to the blob as they are cached. -/
theorem delegated_apply (params : Params) {k : Key} (hk : k ∈ sizeKeys) :
    buildDelegatedParameters f (sanitized f params) k = sanitized f params k :=
  have hkeys : ∀ k ∈ sizeKeys, k ∈ kKeys.filter isDelegatableParameterKey ∧ k ∈ sanitizedKeys := by decide
  delegated_sanitized f _ (hkeys k hk).1 (hkeys k hk).2

theorem told_apply (params : Params) {k : Key} (hk : k ∈ sizeKeys) : told f params k = stored f params k := by
  have hdel := delegated_apply (f := f) params hk
  unfold told stored
  split
  · rw [setPreviewSize, set_apply, set_apply, hdel]
  · exact hdel

theorem remapped_iff (hf : Documented f) (params : Params) :
    remapped f params = true ↔ (chosen f params .previewSize).map f.readSize = some (432, 320) := by
  have hdel := delegated_apply (f := f) params (k := .previewSize) (by decide)
  rw [remapped, getPreviewSize, hdel, sanitized_apply hf, decide_eq_true_iff]
  cases chosen f params .previewSize <;> simp

theorem stored_apply (hf : Documented f) (params : Params) (k : Key) :
    stored f params k = asked f params k := by
  have h1 : f.accepts (sizeText 480 320) = true := hf _ (by decide +kernel) (by decide +kernel)
  unfold stored asked
  by_cases hr : remapped f params = true
  · rw [if_pos hr, setPreviewSize, set_apply, sanitized_apply hf]
    simp only [h1, and_true, (remapped_iff hf params).mp hr]
  · have hno := mt (remapped_iff hf params).mpr hr
    rw [if_neg hr, sanitized_apply hf, if_neg fun h => hno h.2]

/-- Every set asks for some preview size. -/
theorem asked_isSome (hf : Documented f) (params : Params) : (asked f params .previewSize).isSome := by
  have hseed := seedParameters_isSome f hf (k := .previewSize) (by decide)
  unfold asked
  split
  · rfl
  · unfold chosen
    split
    · simp [hseed]
    · exact hseed

/-! ## One step -/

/-- The cache is in order: what is reported was accepted, and an unset cache is empty. -/
structure CacheOk (f : Framework) (b : Blob) (w : World) : Prop where
  agrees : Agrees f b w
  unset : w.wrapper.mHasLastGoodParameters = false → w.wrapper.mLastGoodParameters = empty

section
variable {w : World}

theorem getParameters_snd (w : World) : (getParameters f w).2 =
    if w.wrapper.mHasLastGoodParameters then w.wrapper.mLastGoodParameters else seedParameters f := by
  unfold getParameters
  split <;> split <;> rfl

/-- What operations other than `setParameters` leave alone: the accepted set, and the cache
unless it is filled with the seeds. -/
structure KeepsSet (f : Framework) (b : Blob) (w w' : World) : Prop where
  accepted : acceptedParams b w'.calls = acceptedParams b w.calls
  cache : w'.wrapper.mHasLastGoodParameters = w.wrapper.mHasLastGoodParameters ∧
      w'.wrapper.mLastGoodParameters = w.wrapper.mLastGoodParameters ∨
    w.wrapper.mHasLastGoodParameters = false ∧ w'.wrapper.mHasLastGoodParameters = true ∧
      w'.wrapper.mLastGoodParameters = seedParameters f

theorem KeepsSet.refl (w : World) : KeepsSet f b w w := ⟨rfl, .inl ⟨rfl, rfl⟩⟩

theorem KeepsSet.cacheOk {w' : World} (hk : KeepsSet f b w w') (h : CacheOk f b w) : CacheOk f b w' := by
  have hagrees := h.agrees
  simp only [Agrees, getParameters_snd] at hagrees
  rcases hk.cache with ⟨hhas, hlast⟩ | ⟨hno, hhas, hlast⟩
  · refine ⟨?_, fun hn => hlast.trans (h.unset (hhas.symm.trans hn))⟩
    simp only [Agrees, getParameters_snd, hhas, hlast, hk.accepted]
    exact hagrees
  · refine ⟨?_, fun hn => absurd (hhas.symm.trans hn) (by decide)⟩
    -- the seeds were reported before they were cached
    rw [hno] at hagrees
    simp only [Agrees, getParameters_snd, hhas, hlast, hk.accepted]
    exact hagrees

theorem keepsSet_plain {w' : World} (hp : Plain w w') : KeepsSet f b w w' := by
  refine ⟨?_, .inl ⟨hp.cached, hp.cache⟩⟩
  rcases hp.calls with hc | ⟨call, hn, hc⟩
  · rw [hc]
  · rw [hc]
    cases call <;> first | rfl | cases hn

theorem keepsSet_getParameters (w : World) : KeepsSet f b w (getParameters f w).1 := by
  refine ⟨by rw [getParameters_calls], ?_⟩
  unfold getParameters
  split <;> split
  · exact .inl ⟨rfl, rfl⟩
  · exact .inl ⟨rfl, rfl⟩
  · exact .inl ⟨rfl, rfl⟩
  · rename_i hhas
    exact .inr ⟨Bool.not_eq_true _ ▸ hhas, rfl, rfl⟩

/-- Only `setParameters` tells the blob a set or caches anything but the seeds. -/
theorem step_keepsSet {op : Op} (hop : ∀ params, op ≠ .setParameters params) (w : World) :
    KeepsSet f b w (step f b w op) := by
  have hget := keepsSet_getParameters (f := f) (b := b) w
  cases hplain : op.plain with
  | true => exact keepsSet_plain (step_plain hplain w)
  | false =>
    cases op with
    | getParameters => exact hget
    | setParameters params => exact absurd rfl (hop params)
    | startPreview =>
      cases hu : isUsable w with
      | false => simpa [step, startPreview, hu] using KeepsSet.refl w
      | true =>
        rw [step]
        rcases startPreview_cases (f := f) (b := b) hu with ⟨-, he⟩ | ⟨-, he⟩ | ⟨-, -, he⟩ | ⟨-, -, he⟩ <;>
          rw [he] <;> exact ⟨hget.accepted, hget.cache⟩
    | release =>
      cases hu : isUsable w with
      | false => simpa [step, release, hu] using KeepsSet.refl w
      | true =>
        rw [step, release_usable hu]
        refine ⟨?_, .inl ⟨rfl, rfl⟩⟩
        cases w.wrapper.mPreviewRunning <;> rfl
    | stopPreview =>
      simp only [step, stopPreview]
      split
      · exact .refl w
      · split
        · exact .refl w
        · exact ⟨rfl, .inl ⟨rfl, rfl⟩⟩
    | startRecording =>
      simp only [step, startRecording]
      split
      · exact .refl w
      · split <;> exact ⟨hget.accepted, hget.cache⟩
    | stopRecording =>
      simp only [step, stopRecording]
      split
      · exact .refl w
      · exact ⟨rfl, .inl ⟨rfl, rfl⟩⟩
    | takePicture =>
      simp only [step, takePicture]
      split
      · exact .refl w
      · exact ⟨hget.accepted, hget.cache⟩
    | dataCallback msgType dataPtr user =>
      cases user with
      | false => exact .refl w
      | true =>
        rw [step, dataCallbackShim_user]
        exact ⟨rfl, .inl ⟨rfl, rfl⟩⟩
    | _ => cases hplain

/-- A set that goes to the blob: accepted it is what is reported, rejected it must have
been cached before. -/
theorem cacheOk_setParameters (hf : Documented f) (hd : shouldDelegateSetParameters w = true)
    (h : CacheOk f b w) {params : Params} (hasks : AsksForCached f b w (.setParameters params)) :
    CacheOk f b (setParameters f params w).1 := by
  cases hu : isUsable w with
  | false => simpa [setParameters, hu] using h
  | true =>
    rw [setParameters_delegated params hu hd]
    refine ⟨fun k hk => ?_, fun hno => by cases hno⟩
    rw [getParameters_snd]
    by_cases hrc : b.status w.calls = noError
    · simp [acceptedParams, hrc, told_apply params hk]
    · have hcached := hasks params rfl hu hrc
      have hhas : w.wrapper.mHasLastGoodParameters = true := by
        by_contra hno
        have hkey := hcached .previewSize
        rw [h.unset (Bool.not_eq_true _ ▸ hno)] at hkey
        have hsome := asked_isSome hf params
        rw [hkey] at hsome
        cases hsome
      have hw := h.agrees k hk
      rw [getParameters_snd, hhas, if_pos rfl, ← hcached, ← stored_apply hf] at hw
      simpa [acceptedParams, hrc] using hw

/-- What a rejected set does to the cache. -/
theorem keepsCache_iff (hf : Documented f) (hd : shouldDelegateSetParameters w = true) (op : Op) :
    KeepsCache f b w op ↔ AsksForCached f b w op := by
  refine forall_congr' fun params => ⟨fun h hop hu hrc k => ?_, fun h hop hu hrc => ?_⟩
  · have hkept := h hop hu hrc
    rw [hop, step, setParameters_delegated params hu hd] at hkept
    rw [← hkept, ← stored_apply hf]
  · rw [hop, step, setParameters_delegated params hu hd]
    funext k
    rw [← h hop hu hrc k, ← stored_apply hf]

end

/-! ## Runs -/

/-- In every life of a wrapper with delegation on, the reported sizes and formats are the
accepted ones and no rejected set reaches the cache exactly when every set that the blob
rejects asks for what is cached already. -/
theorem cache_agrees_iff (f : Framework) (hf : Documented f) (b : Blob) (iface : Bool)
    (properties : String → String) (ops : List Op)
    (hd : Run.AllStates (step f b) (fun w => shouldDelegateSetParameters w = true)
      (create iface properties) ops) :
    Run.AllStates (step f b) (Agrees f b) (create iface properties) ops ∧
        Run.AllSteps (step f b) (KeepsCache f b) (create iface properties) ops ↔
      Run.AllSteps (step f b) (AsksForCached f b) (create iface properties) ops := by
  have hdel : Run.AllSteps (step f b) (fun w _ => shouldDelegateSetParameters w = true)
      (create iface properties) ops := Run.allSteps_of_allStates (fun _ _ h => h) hd
  constructor
  · rintro ⟨-, hkeeps⟩
    exact Run.AllSteps.map₂ (fun _ op hd hk => (keepsCache_iff hf hd op).mp hk) hdel hkeeps
  · intro hasks
    have hcreate : CacheOk f b (create iface properties) :=
      ⟨fun k _ => by rw [getParameters_snd]; rfl, fun _ => rfl⟩
    have hstep : ∀ w op, CacheOk f b w → shouldDelegateSetParameters w = true ∧ AsksForCached f b w op →
        CacheOk f b (step f b w op) := by
      rintro w op hw ⟨hd, ha⟩
      by_cases hop : ∃ params, op = .setParameters params
      · obtain ⟨params, rfl⟩ := hop
        exact cacheOk_setParameters hf hd hw ha
      · exact (step_keepsSet (fun params he => hop ⟨params, he⟩) w).cacheOk hw
    have hok := Run.allStates_of_guarded hstep hcreate (Run.AllSteps.map₂ (fun _ _ => And.intro) hdel hasks)
    exact ⟨hok.mono fun _ h => h.agrees,
      Run.AllSteps.map₂ (fun _ op hd ha => (keepsCache_iff hf hd op).mpr ha) hdel hasks⟩

/-- A set with one preview size. -/
def sized (width height : Nat) : Params := Function.update empty .previewSize (some (sizeText width height))

/-- The blob takes a remapped size, and the remapped size is reported. -/
theorem remapped_size_agrees :
    Agrees stockFramework obedient (Run.exec (step stockFramework obedient) (create true fun _ => "")
      [.getParameters, .setParameters (sized 432 320)]) := by
  have hd : Run.AllStates (step stockFramework obedient) (fun w => shouldDelegateSetParameters w = true)
      (create true fun _ => "") [.getParameters, .setParameters (sized 432 320)] := by
    simp only [Run.allStates_cons, Run.allStates_nil]
    decide +kernel
  have hasks : Run.AllSteps (step stockFramework obedient) (AsksForCached stockFramework obedient)
      (create true fun _ => "") [.getParameters, .setParameters (sized 432 320)] :=
    ⟨fun _ _ _ hrc => absurd rfl hrc, fun _ _ _ hrc => absurd rfl hrc, trivial⟩
  exact ((cache_agrees_iff stockFramework stockFramework_documented obedient true _ _ hd).mpr hasks).1.last

/-- A blob that rejects every set. -/
theorem rejected_size_is_reported :
    ¬ (Run.AllStates (step stockFramework { obedient with status := fun _ => -22 })
          (Agrees stockFramework { obedient with status := fun _ => -22 }) (create true fun _ => "")
          [.setParameters (sized 352 288)] ∧
        Run.AllSteps (step stockFramework { obedient with status := fun _ => -22 })
          (KeepsCache stockFramework { obedient with status := fun _ => -22 }) (create true fun _ => "")
          [.setParameters (sized 352 288)]) := by
  rintro ⟨⟨-, h⟩, -⟩
  exact absurd (h .previewSize (by decide)) (by decide +kernel)

end CameraCache
