import Y210.CameraCache

/-!
# The set that reaches the blob

A key of a client passes three lists on its way: the keys that are sanitized, the table of
the delegated set and the predicate over it.
-/
namespace CameraDelegation

open CameraParameters CameraWrapper CameraCache

variable {f : Framework}

/-- The keys that the table and the predicate both let through. -/
def delegatedKeys : List Key := kKeys.filter isDelegatableParameterKey

/-- The text that the blob gets for a text of the client. -/
def remap (f : Framework) (k : Key) (value : String) : String :=
  if k = .previewSize ∧ f.readSize value = (432, 320) then sizeText 480 320 else value

/-- The map `m` for the blob carries the client's non-empty texts. Where the client names
nothing it holds the default of `setParameters` or the seed, elsewhere the seed. -/
structure Delegated (f : Framework) (params m : Params) : Prop where
  carried : ∀ k ∈ delegatedKeys, ∀ value, params k = some value → value ≠ "" →
    m k = some (remap f k value)
  emptied : ∀ k ∈ delegatedKeys, params k = some "" → m k = seedParameters f k
  unnamed : ∀ k ∈ delegatedKeys, params k = none → m k = (defaults k).or (seedParameters f k)
  seeded : ∀ k ∉ delegatedKeys, m k = seedParameters f k

/-- The client gives no recording hint, and its other texts for the delegated keys are such
as the framework stores. -/
structure Carriable (f : Framework) (params : Params) : Prop where
  hint : (params .recordingHint).getD "" = ""
  stored : ∀ k ∈ delegatedKeys, k ≠ .recordingHint → ∀ value, params k = some value → value ≠ "" →
    f.accepts value = true

/-! ## The three lists -/

/-- The allowlist has every delegated key but one. -/
theorem mem_sanitizedKeys {k : Key} (hk : k ∈ delegatedKeys) : k ∈ sanitizedKeys ↔ k ≠ .recordingHint := by
  have hall : ∀ k ∈ delegatedKeys, k ∈ sanitizedKeys ↔ k ≠ .recordingHint := by decide
  exact hall k hk

theorem told_seeded (params : Params) {k : Key} (hk : k ∉ delegatedKeys) : told f params k = seedParameters f k := by
  have hsize : k ≠ .previewSize := by
    rintro rfl
    exact hk (by decide)
  have hbuild : buildDelegatedParameters f (sanitized f params) k = seedParameters f k := by
    rw [buildDelegatedParameters_apply]
    exact if_neg hk
  unfold told
  split
  · rw [setPreviewSize, set_apply, if_neg fun h => hsize h.1, hbuild]
  · exact hbuild

/-- What a delegated key on the allowlist becomes. -/
theorem told_listed (hf : Documented f) (params : Params) {k : Key} (hk : k ∈ delegatedKeys)
    (hh : k ≠ .recordingHint) : told f params k = asked f params k := by
  have hdel := delegated_sanitized f (patch f params) hk ((mem_sanitizedKeys hk).mpr hh)
  rw [← stored_apply hf]
  unfold told stored sanitized
  split
  · rw [setPreviewSize, set_apply, set_apply, hdel]
  · exact hdel

/-! ## The seeds -/

theorem setAll_notMem (pairs : List (Key × String)) (params : Params) {k : Key} (hk : k ∉ pairs.map Prod.fst) :
    setAll f pairs params k = params k := by
  induction pairs generalizing params with
  | nil => rfl
  | cons pair pairs ih =>
    simp only [List.map_cons, List.mem_cons, not_or] at hk
    change setAll f pairs (set f pair.1 pair.2 params) k = params k
    rw [ih _ hk.2, set_apply, if_neg fun h => hk.1 h.1]

/-- What holds of the texts that the framework stores holds of what is there. -/
theorem setAll_texts {P : String → Prop} (pairs : List (Key × String))
    (hset : ∀ pair ∈ pairs, f.accepts pair.2 = true → P pair.2) (params : Params)
    (hparams : ∀ k value, params k = some value → P value) {k : Key} {value : String}
    (h : setAll f pairs params k = some value) : P value := by
  induction pairs generalizing params with
  | nil => exact hparams k value h
  | cons pair pairs ih =>
    refine ih (fun q hq => hset q (List.mem_cons_of_mem _ hq)) (set f pair.1 pair.2 params)
      (fun k value hk => ?_) h
    rw [set_apply] at hk
    split at hk
    · rename_i hstored
      cases hk
      exact hset pair List.mem_cons_self hstored.2
    · exact hparams k value hk

theorem seedParameters_accepts {k : Key} {value : String} (h : seedParameters f k = some value) :
    f.accepts value = true := by
  apply setAll_texts seeds (fun _ _ ha => ha) empty _ h
  intro k value hk
  cases hk

theorem seedParameters_hint : seedParameters f .recordingHint = none :=
  setAll_notMem seeds empty (by decide)

theorem seedParameters_previewSize (hf : Documented f) :
    seedParameters f .previewSize = some (sizeText 640 480) := by
  have ha : f.accepts (sizeText 640 480) = true := hf _ (by decide +kernel) (by decide +kernel)
  change setAll f seeds.tail (set f .previewSize (sizeText 640 480) empty) .previewSize = _
  rw [setAll_notMem _ _ (by decide), set_apply, if_pos ⟨rfl, ha⟩]

/-! ## What becomes of a text -/

/-- The hint is dropped on the way. -/
theorem told_hint (params : Params) : told f params .recordingHint = none := by
  have hsan : sanitized f params .recordingHint = none := by
    rw [sanitized, sanitizeParameters_apply, if_neg (by decide), seedParameters_hint]
  have hbuild : buildDelegatedParameters f (sanitized f params) .recordingHint = none := by
    rw [buildDelegatedParameters_apply, hsan, seedParameters_hint]
    split <;> rfl
  unfold told
  split
  · rw [setPreviewSize, set_apply, if_neg (by simp), hbuild]
  · exact hbuild

theorem asked_eq (params : Params) {k : Key} {text : String} (h : chosen f params k = some text) :
    asked f params k = some (remap f k text) := by
  unfold asked remap
  by_cases hk : k = .previewSize
  · subst hk
    simp only [h, Option.map_some, Option.some.injEq, true_and]
    split <;> rfl
  · simp [hk, h]

/-- A preview size that is not read as 432x320 stays, and no other key is remapped. -/
theorem asked_unmapped (params : Params) {k : Key} (h : k = .previewSize →
    (chosen f params k).map f.readSize ≠ some (432, 320)) : asked f params k = chosen f params k := by
  unfold asked
  rw [if_neg]
  rintro ⟨rfl, hsize⟩
  exact h rfl hsize

/-- A text that the framework stores arrives. -/
theorem told_carried (hf : Documented f) {params : Params} {k : Key} (hk : k ∈ delegatedKeys)
    (hh : k ≠ .recordingHint) {value : String} (hv : params k = some value) (hne : value ≠ "")
    (ha : f.accepts value = true) : told f params k = some (remap f k value) := by
  have hchosen : chosen f params k = some value := by
    rw [chosen, if_pos ((mem_sanitizedKeys hk).mpr hh), hv, Option.some_or, copied_some, if_pos ⟨hne, ha⟩,
      Option.some_or]
  rw [told_listed hf params hk hh, asked_eq params hchosen]

/-- A text that the framework refuses, or an empty one, leaves the seed. -/
theorem told_refused (hf : Documented f) (hsize : f.readSize (sizeText 640 480) = (640, 480))
    {params : Params} {k : Key} (hk : k ∈ delegatedKeys) (hh : k ≠ .recordingHint) {value : String}
    (hv : params k = some value) (hno : value = "" ∨ f.accepts value = false) :
    told f params k = seedParameters f k := by
  have hchosen : chosen f params k = seedParameters f k := by
    have hcopied : copied f (some value) = none := by
      rw [copied_some, if_neg]
      rintro ⟨hne, ha⟩
      rcases hno with h | h
      · exact hne h
      · exact absurd (h.symm.trans ha) (by decide)
    rw [chosen, if_pos ((mem_sanitizedKeys hk).mpr hh), hv, Option.some_or, hcopied, Option.none_or]
  rw [told_listed hf params hk hh, asked_unmapped, hchosen]
  rintro rfl
  rw [hchosen, seedParameters_previewSize hf, Option.map_some, hsize]
  decide

/-- The defaults are such as the framework stores. -/
theorem copied_defaults (hf : Documented f) (k : Key) : copied f (defaults k) = defaults k := by
  have hset : ∀ text : String, text ≠ "" → '=' ∉ text.toList → ';' ∉ text.toList →
      copied f (some text) = some text := by
    intro text hne heq hsemi
    rw [copied_some, if_pos ⟨hne, hf text heq hsemi⟩]
  unfold defaults
  split
  · exact hset _ (by decide +kernel) (by decide +kernel) (by decide +kernel)
  · exact hset _ (by decide +kernel) (by decide +kernel) (by decide +kernel)
  · exact hset _ (by decide +kernel) (by decide +kernel) (by decide +kernel)
  · exact hset _ (by decide +kernel) (by decide +kernel) (by decide +kernel)
  · rfl

/-- The default 480x320 is its own remap. -/
theorem told_unnamed (hf : Documented f) {params : Params} {k : Key} (hk : k ∈ delegatedKeys)
    (hv : params k = none) : told f params k = (defaults k).or (seedParameters f k) := by
  by_cases hh : k = .recordingHint
  · subst hh
    rw [told_hint, seedParameters_hint]
    rfl
  · have hchosen : chosen f params k = (defaults k).or (seedParameters f k) := by
      rw [chosen, if_pos ((mem_sanitizedKeys hk).mpr hh), hv, Option.none_or, copied_defaults hf]
    rw [told_listed hf params hk hh]
    by_cases hsize : k = .previewSize
    · subst hsize
      rw [asked_eq params hchosen, remap, ite_self]
      rfl
    · rw [asked_unmapped params fun h => absurd h hsize, hchosen]

/-! ## The whole map -/

/-- The delegated map carries what the client asks exactly when it asks for no recording
hint and for texts that the framework stores. -/
theorem delegated_told_iff (hf : Documented f) (hsize : f.readSize (sizeText 640 480) = (640, 480))
    (params : Params) : Delegated f params (told f params) ↔ Carriable f params := by
  constructor
  · intro h
    constructor
    · cases hv : params .recordingHint with
      | none => rfl
      | some value =>
        by_contra hne
        have hm := h.carried .recordingHint (by decide) value hv hne
        rw [told_hint] at hm
        cases hm
    · intro k hk hh value hv hne
      by_contra hno
      have hm := h.carried k hk value hv hne
      rw [told_refused hf hsize hk hh hv (.inr (Bool.not_eq_true _ ▸ hno))] at hm
      have ha := seedParameters_accepts hm
      unfold remap at ha hm
      split at ha
      · rename_i hmap
        obtain ⟨rfl, hread⟩ := hmap
        rw [if_pos ⟨rfl, hread⟩, seedParameters_previewSize hf] at hm
        exact absurd hm (by decide +kernel)
      · exact hno ha
  · intro h
    constructor
    · intro k hk value hv hne
      by_cases hh : k = .recordingHint
      · subst hh
        have hhint := h.hint
        rw [hv] at hhint
        exact absurd hhint hne
      · exact told_carried hf hk hh hv hne (h.stored k hk hh value hv hne)
    · intro k hk hv
      by_cases hh : k = .recordingHint
      · subst hh
        rw [told_hint, seedParameters_hint]
      · exact told_refused hf hsize hk hh hv (.inl rfl)
    · intro k hk hv
      exact told_unnamed hf hk hv
    · intro k hk
      exact told_seeded params hk

/-- A client that only hints at a recording. -/
def hinting : Params := Function.update empty .recordingHint (some "true")

end CameraDelegation
