import Y210.CameraDelegation

/-!
# Setting what was read

`setParameters` fills in defaults, overlays the client's texts on the seeds, overlays
the result on the seeds once more for the blob, and replaces one preview size. A client
that sets what `getParameters` answered must find all four of these without effect.
-/
namespace CameraRoundTrip

open CameraParameters CameraWrapper CameraCache CameraDelegation

variable {f : Framework} {b : Blob}

/-- Every seeded key has a text. -/
def Complete (f : Framework) (m : Params) : Prop :=
  ∀ k, (seedParameters f k).isSome = true → ∃ value, value ≠ "" ∧ m k = some value

/-- The wrapper after a client has set what it read. -/
def setAgain (f : Framework) (w : World) : World :=
  (setParameters f (getParameters f w).2 (getParameters f w).1).1

/-- Setting the parameters and then what is read back: the cache stays and the blob is
handed one map twice, or twice nothing when sets are not delegated. -/
structure RoundTrip (f : Framework) (params : Params) (w : World) : Prop where
  cache : (setAgain f (setParameters f params w).1).wrapper.mLastGoodParameters =
    (setParameters f params w).1.wrapper.mLastGoodParameters
  handed : ∃ m : Option Params, m.isSome = shouldDelegateSetParameters w ∧
    (setParameters f params w).1.calls = (m.map BlobCall.setParameters).toList ++ w.calls ∧
    (setAgain f (setParameters f params w).1).calls =
      (m.map BlobCall.setParameters).toList ++ (setParameters f params w).1.calls

/-! ## A second overlay changes nothing -/

theorem defaults_seeded (hf : Documented f) {k : Key} (h : seedParameters f k = none) : defaults k = none := by
  have hkeys : ∀ k ∈ sizeKeys, (seedParameters f k).isSome := by
    have hseeds : ∀ k ∈ sizeKeys, k ∈ seeds.map Prod.fst := by decide
    exact fun k hk => seedParameters_isSome f hf (hseeds k hk)
  by_cases hk : k ∈ sizeKeys
  · have hsome := hkeys k hk
    rw [h] at hsome
    cases hsome
  · cases k <;> first | rfl | exact absurd (by decide) hk

/-- What a set chose for a key is chosen again. -/
theorem chosen_again (hf : Documented f) {params m : Params} {k : Key} (h : m k = chosen f params k) :
    chosen f m k = chosen f params k := by
  by_cases hk : k ∈ sanitizedKeys
  · have hm : chosen f m k = (copied f ((chosen f params k).or (defaults k))).or (seedParameters f k) := by
      rw [chosen, if_pos hk, h]
    rw [hm]
    have hparams : chosen f params k =
        (copied f ((params k).or (defaults k))).or (seedParameters f k) := by rw [chosen, if_pos hk]
    have hcc := copied_copied f ((params k).or (defaults k))
    rw [hparams]
    cases hc : copied f ((params k).or (defaults k)) with
    | some text =>
      rw [hc] at hcc
      rw [Option.some_or, Option.some_or, hcc, Option.some_or]
    | none =>
      rw [Option.none_or]
      cases hs : seedParameters f k with
      | none =>
        rw [defaults_seeded hf hs]
        rfl
      | some text => exact copied_or_self f (some text)
  · rw [chosen, chosen, if_neg hk, if_neg hk]

/-- The remapped size is not remapped again. -/
theorem asked_again (hf : Documented f) (hsize : f.readSize (sizeText 480 320) = (480, 320)) (params : Params) :
    asked f (asked f params) = asked f params := by
  funext k
  by_cases hr : k = .previewSize ∧ (chosen f params .previewSize).map f.readSize = some (432, 320)
  · obtain ⟨rfl, hr⟩ := hr
    have ha : f.accepts (sizeText 480 320) = true := hf _ (by decide +kernel) (by decide +kernel)
    have hfirst : asked f params .previewSize = some (sizeText 480 320) := if_pos ⟨rfl, hr⟩
    have hchosen : chosen f (asked f params) .previewSize = some (sizeText 480 320) := by
      rw [chosen, if_pos (by decide), hfirst, Option.some_or, copied_some,
        if_pos ⟨by decide +kernel, ha⟩, Option.some_or]
    rw [asked_unmapped, hchosen, hfirst]
    intro _
    rw [hchosen, Option.map_some, hsize]
    decide
  · have hfirst : asked f params k = chosen f params k := if_neg hr
    have hchosen := chosen_again hf hfirst
    rw [asked_unmapped, hchosen, hfirst]
    rintro rfl hread
    exact hr ⟨rfl, hchosen ▸ hread⟩

/-- The blob is told the same. -/
theorem told_again (hf : Documented f) (hsize : f.readSize (sizeText 480 320) = (480, 320)) (params : Params) :
    told f (asked f params) = told f params := by
  funext k
  by_cases hk : k ∈ delegatedKeys
  · by_cases hh : k = .recordingHint
    · rw [hh, told_hint, told_hint]
    · rw [told_listed hf _ hk hh, told_listed hf _ hk hh, asked_again hf hsize]
  · rw [told_seeded _ hk, told_seeded _ hk]

theorem roundTrip (hf : Documented f) (hsize : f.readSize (sizeText 480 320) = (480, 320)) {w : World}
    (hu : isUsable w = true) (params : Params) : RoundTrip f params w := by
  cases hd : shouldDelegateSetParameters w with
  | true =>
    have hfirst := setParameters_delegated (f := f) params hu hd
    have hstored : stored f params = asked f params := funext (stored_apply hf params)
    have hu₁ : isUsable (setParameters f params w).1 = true := by rw [hfirst]; exact hu
    have hd₁ : shouldDelegateSetParameters (setParameters f params w).1 = true := by rw [hfirst]; exact hd
    have hget : getParameters f (setParameters f params w).1 =
        ((setParameters f params w).1, asked f params) := by
      unfold getParameters
      rw [hu₁, hfirst, ← hstored]
      rfl
    have hagain : setAgain f (setParameters f params w).1 =
        (setParameters f (asked f params) (setParameters f params w).1).1 := by rw [setAgain, hget]
    rw [setParameters_delegated _ hu₁ hd₁] at hagain
    constructor
    · rw [hagain, funext (stored_apply hf (asked f params)), asked_again hf hsize, hfirst, hstored]
    · refine ⟨some (told f params), hd.symm, ?_, ?_⟩
      · rw [hfirst]
        rfl
      · rw [hagain, told_again hf hsize]
        rfl
  | false =>
    have hfirst := setParameters_cached (f := f) params hu hd
    have hu₁ : isUsable (setParameters f params w).1 = true := by rw [hfirst]; exact hu
    have hd₁ : shouldDelegateSetParameters (setParameters f params w).1 = false := by rw [hfirst]; exact hd
    have hget : getParameters f (setParameters f params w).1 =
        ((setParameters f params w).1, sanitized f params) := by
      unfold getParameters
      rw [hu₁, hfirst]
      rfl
    have hagain : setAgain f (setParameters f params w).1 =
        (setParameters f (sanitized f params) (setParameters f params w).1).1 := by rw [setAgain, hget]
    rw [setParameters_cached _ hu₁ hd₁] at hagain
    constructor
    · rw [hagain, hfirst]
      funext k
      change sanitized f (sanitized f params) k = sanitized f params k
      rw [sanitized_apply hf, sanitized_apply hf, chosen_again hf (sanitized_apply hf params k)]
    · refine ⟨none, hd.symm, ?_, ?_⟩
      · rw [hfirst]
        rfl
      · rw [hagain]
        rfl

/-! ## The seeded keys -/

theorem seedParameters_complete : Complete f (seedParameters f) := by
  intro k hk
  obtain ⟨value, hv⟩ := Option.isSome_iff_exists.mp hk
  refine ⟨value, ?_, hv⟩
  have hseeds : ∀ pair ∈ seeds, pair.2 ≠ "" := by decide +kernel
  exact setAll_texts (P := (· ≠ "")) seeds (fun pair hp _ => hseeds pair hp) empty nofun hv

theorem copied_ne_empty {value : Option String} {text : String} (h : copied f value = some text) : text ≠ "" := by
  cases value with
  | none => cases h
  | some t =>
    rw [copied_some] at h
    split at h
    · rename_i ht
      cases h
      exact ht.1
    · cases h

theorem chosen_complete (params : Params) : Complete f (chosen f params) := by
  intro k hk
  unfold chosen
  split
  · cases hc : copied f ((params k).or (defaults k)) with
    | some text => exact ⟨text, copied_ne_empty hc, rfl⟩
    | none => exact seedParameters_complete k hk
  · exact seedParameters_complete k hk

theorem asked_complete (params : Params) : Complete f (asked f params) := by
  intro k hk
  unfold asked
  split
  · exact ⟨_, by decide +kernel, rfl⟩
  · exact chosen_complete params k hk

/-- The cache, once it is set, has a text for every seeded key. -/
def CacheComplete (f : Framework) (w : World) : Prop :=
  w.wrapper.mHasLastGoodParameters = true → Complete f w.wrapper.mLastGoodParameters

theorem CacheComplete.reported {w : World} (h : CacheComplete f w) : Complete f (getParameters f w).2 := by
  rw [getParameters_snd]
  split
  · rename_i hhas
    exact h hhas
  · exact seedParameters_complete

/-- The seeds are complete as well. -/
theorem CacheComplete.kept {w w' : World} (hk : KeepsSet f b w w') (h : CacheComplete f w) :
    CacheComplete f w' := by
  intro hhas
  rcases hk.cache with ⟨hh, hl⟩ | ⟨-, -, hl⟩
  · rw [hl]
    exact h (hh ▸ hhas)
  · rw [hl]
    exact seedParameters_complete

theorem cacheComplete_setParameters (hf : Documented f) (params : Params) {w : World}
    (h : CacheComplete f w) : CacheComplete f (setParameters f params w).1 := by
  cases hu : isUsable w with
  | false => simpa [setParameters, hu] using h
  | true =>
    intro _
    cases hd : shouldDelegateSetParameters w with
    | true =>
      rw [setParameters_delegated params hu hd, funext (stored_apply hf params)]
      exact asked_complete params
    | false =>
      rw [setParameters_cached params hu hd, funext (sanitized_apply hf params)]
      exact chosen_complete params

/-- One operation. -/
theorem cacheComplete_step (hf : Documented f) (w : World) (op : Op) (h : CacheComplete f w) :
    CacheComplete f (step f b w op) := by
  by_cases hop : ∃ params, op = .setParameters params
  · obtain ⟨params, rfl⟩ := hop
    exact cacheComplete_setParameters hf params h
  · exact h.kept (step_keepsSet (fun params he => hop ⟨params, he⟩) w)

/-- On a usable wrapper a set is not changed by reading and setting it once more, and in
every life of a wrapper every seeded key is reported with a text. -/
theorem parameters_round_trip (f : Framework) (hf : Documented f)
    (hsize : f.readSize (sizeText 480 320) = (480, 320)) :
    (∀ w, isUsable w = true → ∀ params, RoundTrip f params w) ∧
    ∀ (b : Blob) (iface : Bool) (properties : String → String) (ops : List Op),
      Run.AllStates (step f b) (fun w => Complete f (getParameters f w).2) (create iface properties) ops := by
  constructor
  · intro w hu params
    exact roundTrip hf hsize hu params
  · intro b iface properties ops
    have hcreate : CacheComplete f (create iface properties) := nofun
    exact (Run.allStates_of_invariant (cacheComplete_step hf) hcreate ops).mono
      fun _ h => h.reported

/-- A size that is remapped, set and read and set again. -/
theorem remapped_size_round_trip :
    RoundTrip stockFramework (sized 432 320) (create true fun _ => "") :=
  (parameters_round_trip stockFramework stockFramework_documented (by decide +kernel)).1
    (create true fun _ => "") rfl (sized 432 320)

end CameraRoundTrip
