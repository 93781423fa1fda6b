import Y210.Nearest
import Y210.AudioProposal

/-!
# The nearest sample rate

`getInputSampleRate` reads the difference of two `uint32_t` as an `int`. For a rate far above the
table that distance shrinks again, first of all to the lowest entry.
-/
namespace AudioSampleRate

open Nearest AudioStreams AudioInput AudioProposal

def place (rate : BitVec 32) : Int := rate.toNat

/-- The distance over the integers. -/
def distance (sampleRate rate : BitVec 32) : Nat := away place sampleRate.toNat rate

/-- The distance that the code computes. -/
def delta (sampleRate rate : BitVec 32) : Nat := (absDelta sampleRate rate).toNat

/-- What the answer for a rate is to be, by one distance or the other. -/
structure Conforms (d : BitVec 32 → BitVec 32 → Nat) (sampleRate : BitVec 32) : Prop where
  nearest : IsNearest place inputSamplingRates (d sampleRate) (getInputSampleRate sampleRate)
  supported : getInputSampleRate sampleRate = sampleRate ↔ sampleRate ∈ inputSamplingRates
  monotone : ∀ r ≤ sampleRate, getInputSampleRate r ≤ getInputSampleRate sampleRate

/-- 2^31 + 9512. The next rate is 8000 away by the code's reckoning before it is 11025 away. -/
def lastRate : BitVec 32 := 2147493160

/-! ## The loop -/

theorem nearestRate_cons (sampleRate rate prev prevDelta : BitVec 32) (l : List (BitVec 32)) :
    nearestRate sampleRate (rate :: l) prev prevDelta =
      if prevDelta < absDelta sampleRate rate then prev
      else nearestRate sampleRate l rate (absDelta sampleRate rate) := rfl

theorem nearestRate_eq_scan (sampleRate rate : BitVec 32) (l : List (BitVec 32)) :
    nearestRate sampleRate l rate (absDelta sampleRate rate) = scan (delta sampleRate) rate l := by
  induction l generalizing rate with
  | nil => rfl
  | cons r l ih =>
    rw [nearestRate_cons, ih]
    exact if_congr BitVec.lt_def rfl rfl

/-- The first distance is never the greater one. -/
theorem getInputSampleRate_eq_scan (sampleRate : BitVec 32) :
    getInputSampleRate sampleRate = scan (delta sampleRate) 8000 inputSamplingRates.tail := by
  have hfirst : ¬ (0xffffffff : BitVec 32) < absDelta sampleRate 8000 := by
    rw [BitVec.lt_def, not_lt]
    exact Nat.le_of_lt_succ (absDelta sampleRate 8000).isLt
  have hcons : inputSamplingRates = 8000 :: inputSamplingRates.tail := rfl
  unfold getInputSampleRate
  rw [hcons, nearestRate_cons, if_neg hfirst, List.tail_cons]
  exact nearestRate_eq_scan sampleRate 8000 inputSamplingRates.tail

theorem ascending_rates : Ascending place inputSamplingRates := by
  simp [Ascending, inputSamplingRates, place]

theorem rate_bounds : ∀ rate ∈ inputSamplingRates,
    rate.toNat = 8000 ∨ 11025 ≤ rate.toNat ∧ rate.toNat ≤ 48000 := by
  simp [inputSamplingRates]

section
variable {sampleRate rate : BitVec 32}

/-- Up to 2^31 the two distances are the same. -/
theorem delta_eq (h : rate.toNat ≤ 48000) : delta sampleRate rate =
    if sampleRate.toNat < rate.toNat then rate.toNat - sampleRate.toNat
    else if sampleRate.toNat - rate.toNat ≤ 2147483648 then sampleRate.toNat - rate.toNat
    else 4294967296 - (sampleRate.toNat - rate.toNat) := by
  have hlt := sampleRate.isLt
  unfold delta absDelta
  rw [BitVec.msb_eq_decide]
  by_cases hneg : 2 ^ (32 - 1) ≤ (sampleRate - rate).toNat
  · rw [if_pos (decide_eq_true hneg), BitVec.toNat_neg]
    rw [BitVec.toNat_sub] at hneg ⊢
    split_ifs <;> omega
  · rw [if_neg (by simpa using hneg)]
    rw [BitVec.toNat_sub] at hneg ⊢
    split_ifs <;> omega

/-- Up to `lastRate` the distances compare as they should. -/
theorem distance_lt_iff (hlast : sampleRate ≤ lastRate) : ∀ b ∈ inputSamplingRates, ∀ c ∈ inputSamplingRates,
    place b < place c → (distance sampleRate b < distance sampleRate c ↔ delta sampleRate b < delta sampleRate c) := by
  intro b hb c hc hbc
  have hb' := rate_bounds b hb
  have hc' := rate_bounds c hc
  rw [delta_eq (by omega), delta_eq (by omega)]
  rw [BitVec.le_def] at hlast
  have hnat : sampleRate.toNat ≤ 2147493160 := hlast
  unfold distance away
  unfold place at hbc ⊢
  split_ifs <;> omega

theorem nearest_of_le (hlast : sampleRate ≤ lastRate) :
    IsNearest place inputSamplingRates (distance sampleRate) (getInputSampleRate sampleRate) ∧
      IsNearest place inputSamplingRates (delta sampleRate) (getInputSampleRate sampleRate) := by
  have hvalley : Valley place (delta sampleRate) inputSamplingRates :=
    (valley_away place sampleRate.toNat inputSamplingRates).congr (distance_lt_iff hlast)
  have hdelta : IsNearest place inputSamplingRates (delta sampleRate) (getInputSampleRate sampleRate) := by
    rw [getInputSampleRate_eq_scan]
    exact scan_nearest ascending_rates hvalley
  refine ⟨hdelta.congr fun b hb c hc hbc => ?_, hdelta⟩
  exact (distance_lt_iff hlast b hb c hc hbc).symm

/-- Above `lastRate` the second entry seems farther than the first. -/
theorem getInputSampleRate_high (hhigh : lastRate < sampleRate) : getInputSampleRate sampleRate = 8000 := by
  have hgrows : delta sampleRate 8000 < delta sampleRate 11025 := by
    have hlt := sampleRate.isLt
    rw [BitVec.lt_def] at hhigh
    have hnat : 2147493160 < sampleRate.toNat := hhigh
    have h8000 : (8000 : BitVec 32).toNat = 8000 := rfl
    have h11025 : (11025 : BitVec 32).toNat = 11025 := rfl
    rw [delta_eq (by omega), delta_eq (by omega), h8000, h11025]
    split_ifs <;> omega
  rw [getInputSampleRate_eq_scan]
  exact if_pos hgrows

theorem getInputSampleRate_eq_self_iff (sampleRate : BitVec 32) :
    getInputSampleRate sampleRate = sampleRate ↔ sampleRate ∈ inputSamplingRates := by
  refine ⟨fun h => ?_, getInputSampleRate_of_mem⟩
  rw [← h]
  exact getInputSampleRate_mem sampleRate

theorem getInputSampleRate_mono (hlast : sampleRate ≤ lastRate) {r : BitVec 32} (hr : r ≤ sampleRate) :
    getInputSampleRate r ≤ getInputSampleRate sampleRate := by
  have hnear := (nearest_of_le (BitVec.le_trans hr hlast)).1
  have hplaces := hnear.mono (Int.ofNat_le.mpr (BitVec.le_def.mp hr)) (nearest_of_le hlast).1
  exact BitVec.le_def.mpr (Int.ofNat_le.mp hplaces)

end

/-- By either distance the answer is right exactly up to `lastRate`. -/
theorem nearest_rate_iff (sampleRate : BitVec 32) :
    (Conforms distance sampleRate ↔ sampleRate ≤ lastRate) ∧ (Conforms delta sampleRate ↔ sampleRate ≤ lastRate) := by
  have hhigh {d : BitVec 32 → BitVec 32 → Nat} (h : Conforms d sampleRate) : sampleRate ≤ lastRate := by
    by_contra hlast
    rw [BitVec.not_le] at hlast
    have h48000 : getInputSampleRate 48000 = 48000 := getInputSampleRate_of_mem (by decide)
    have hle : (48000 : BitVec 32) ≤ sampleRate :=
      BitVec.le_trans (by decide : (48000 : BitVec 32) ≤ lastRate) (BitVec.le_of_lt hlast)
    have hmono := h.monotone 48000 hle
    rw [h48000, getInputSampleRate_high hlast] at hmono
    exact absurd hmono (by decide)
  refine ⟨⟨hhigh, fun hlast => ?_⟩, hhigh, fun hlast => ?_⟩
  · exact ⟨(nearest_of_le hlast).1, getInputSampleRate_eq_self_iff sampleRate, fun _ => getInputSampleRate_mono hlast⟩
  · exact ⟨(nearest_of_le hlast).2, getInputSampleRate_eq_self_iff sampleRate, fun _ => getInputSampleRate_mono hlast⟩

/-- The greatest rate gets the lowest entry. -/
theorem greatest_rate_lowest : ¬ (∀ sampleRate, Conforms distance sampleRate) ∧
    ¬ ∀ sampleRate, Conforms delta sampleRate := by
  have hlow : ¬ getInputSampleRate 48000 ≤ getInputSampleRate 0xffffffff := by decide
  exact ⟨fun h => hlow ((h 0xffffffff).monotone 48000 (by decide)),
    fun h => hlow ((h 0xffffffff).monotone 48000 (by decide))⟩

end AudioSampleRate
