import Mathlib.Data.BitVec
import Mathlib.Logic.Function.Basic

/-!
# TextureManager: camera frames as RGB565

The conversion of `frameworks_base_camera.patch` handles two pixels at a time, also where
a row has an odd pixel left. Its offsets are products of type `int`.
-/
namespace TextureManager

/-! ## The formula -/

/-- `r<0?0:r>255?255:r`. -/
def clamp (n : Int) : Nat := if n < 0 then 0 else if 255 < n then 255 else n.toNat

/-- `((r>>3)<<11)|((g>>2)<<5)|(b>>3)`. -/
def pack (r g b : Nat) : BitVec 16 :=
  BitVec.ofNat 16 (((r >>> 3) <<< 11) ||| ((g >>> 2) <<< 5) ||| (b >>> 3))

/-- The pixel of `c`, with the products that its pair shares. -/
def pixel (c rv gu gv bu : Int) : BitVec 16 :=
  pack (clamp ((298 * c + rv + 128) >>> (8 : Nat))) (clamp ((298 * c - gu - gv + 128) >>> (8 : Nat)))
    (clamp ((298 * c + bu + 128) >>> (8 : Nat)))

/-- A number within one byte. -/
def saturate (n : Int) : Nat := (max 0 (min 255 n)).toNat

/-- BT.601 with the factors as 256ths, packed 5-6-5. -/
def bt601 (luma cr cb : BitVec 8) : BitVec 16 :=
  let c : Int := luma.toNat - 16
  let d : Int := cb.toNat - 128
  let e : Int := cr.toNat - 128
  let r := saturate ((298 * c + 409 * e + 128) / 256)
  let g := saturate ((298 * c - 100 * d - 208 * e + 128) / 256)
  let b := saturate ((298 * c + 516 * d + 128) / 256)
  BitVec.ofNat 16 (r / 8 * 2048 + g / 4 * 32 + b / 8)

theorem clamp_eq (n : Int) : clamp n = saturate n := by
  unfold clamp saturate
  split
  · omega
  · split <;> omega

theorem saturate_le (n : Int) : saturate n ≤ 255 := by
  unfold saturate
  omega

/-- The three fields do not overlap. -/
theorem pack_eq {r g b : Nat} (hg : g ≤ 255) (hb : b ≤ 255) :
    pack r g b = BitVec.ofNat 16 (r / 8 * 2048 + g / 4 * 32 + b / 8) := by
  have hgreen : g / 4 < 2 ^ 6 := by omega
  have hblue : b / 8 < 2 ^ 5 := by omega
  have hlow : (g / 4) <<< 5 + b / 8 < 2 ^ 11 := by
    rw [Nat.shiftLeft_eq]
    omega
  unfold pack
  rw [Nat.shiftRight_eq_div_pow, Nat.shiftRight_eq_div_pow, Nat.shiftRight_eq_div_pow, Nat.or_assoc,
    ← Nat.shiftLeft_add_eq_or_of_lt hblue, ← Nat.shiftLeft_add_eq_or_of_lt hlow, Nat.shiftLeft_eq,
    Nat.shiftLeft_eq, Nat.add_assoc]

theorem pixel_eq (luma cr cb : BitVec 8) :
    pixel (luma.toNat - 16) (409 * (cr.toNat - 128)) (100 * (cb.toNat - 128))
      (208 * (cr.toNat - 128)) (516 * (cb.toNat - 128)) = bt601 luma cr cb := by
  unfold pixel bt601
  simp only [clamp_eq, Int.shiftRight_eq_div_pow]
  exact pack_eq (saturate_le _) (saturate_le _)

/-! ## The loops -/

/-- The destination, the offsets that have been read and written, and the results of `int` operations
on sizes and subscripts, none of which is negative. -/
structure Pass where
  dst : Nat → BitVec 16
  reads : List Nat
  writes : List Nat
  ints : List Nat

def computed (ns : List Nat) (s : Pass) : Pass := { s with ints := ns ++ s.ints }

section
variable (src : Nat → BitVec 8) (width height stride : Nat)

/-- One round of the loop over `p`. -/
def convertPixel (rv gu gv bu : Int) (luma out : Nat) (s : Pass) : Pass :=
  { s with
    dst := Function.update s.dst out (pixel ((src luma).toNat - 16) rv gu gv bu)
    reads := luma :: s.reads
    writes := out :: s.writes }

/-- One round of the loop over `x`. -/
def convertPair (yrow uvrow drow x : Nat) (s : Pass) : Pass :=
  let v : Int := (src (uvrow + x)).toNat - 128
  let u : Int := (src (uvrow + (x + 1))).toNat - 128
  let rv := 409 * v
  let gu := 100 * u
  let gv := 208 * v
  let bu := 516 * u
  let s := computed [x + 1] { s with reads := (uvrow + (x + 1)) :: (uvrow + x) :: s.reads }
  let s := convertPixel src rv gu gv bu (yrow + x) (drow + x) s
  convertPixel src rv gu gv bu (yrow + (x + 1)) (drow + (x + 1)) s

def convertRow (yrow uvrow drow x : Nat) (s : Pass) : Pass :=
  if x < width then
    convertRow yrow uvrow drow (x + 2) (computed [x + 2] (convertPair src yrow uvrow drow x s))
  else s
termination_by width - x

def convertRows (y : Nat) (s : Pass) : Pass :=
  if y < height then
    convertRows (y + 1) (computed [y + 1] (convertRow src width (y * stride)
      (stride * height + (y >>> 1) * stride) (y * width) 0
      (computed [y * stride, (y >>> 1) * stride, y * width] s)))
  else s
termination_by height - y

def convertNV21toRGB565 (dst : Nat → BitVec 16) : Pass :=
  convertRows src width height stride 0 (computed [stride * height] ⟨dst, [], [], []⟩)

/-! ## What the loops touch -/

/-- A row is written to the end of its last pair. -/
def roundUp (width : Nat) : Nat := 2 * ((width + 1) / 2)

/-- The pixel at `x` of a row, with the chroma of its pair. -/
def rowPixel (yrow uvrow x : Nat) : BitVec 16 :=
  bt601 (src (yrow + x)) (src (uvrow + 2 * (x / 2))) (src (uvrow + 2 * (x / 2) + 1))

section
variable {src width height stride} {yrow uvrow drow x : Nat} {s : Pass}

@[simp] theorem computed_dst (ns : List Nat) (s : Pass) : (computed ns s).dst = s.dst := rfl
@[simp] theorem computed_reads (ns : List Nat) (s : Pass) : (computed ns s).reads = s.reads := rfl
@[simp] theorem computed_writes (ns : List Nat) (s : Pass) : (computed ns s).writes = s.writes := rfl
@[simp] theorem computed_ints (ns : List Nat) (s : Pass) : (computed ns s).ints = ns ++ s.ints := rfl

theorem convertPair_ints : (convertPair src yrow uvrow drow x s).ints = (x + 1) :: s.ints := rfl

theorem convertPair_writes :
    (convertPair src yrow uvrow drow x s).writes = (drow + (x + 1)) :: (drow + x) :: s.writes := rfl

theorem convertPair_reads : (convertPair src yrow uvrow drow x s).reads =
    (yrow + (x + 1)) :: (yrow + x) :: (uvrow + (x + 1)) :: (uvrow + x) :: s.reads := rfl

theorem convertPair_dst (hx : x % 2 = 0) (i : Nat) : (convertPair src yrow uvrow drow x s).dst i =
    if drow + x ≤ i ∧ i < drow + (x + 2) then rowPixel src yrow uvrow (i - drow) else s.dst i := by
  have hpixel (k : Nat) (hk : k = x ∨ k = x + 1) : rowPixel src yrow uvrow k =
      bt601 (src (yrow + k)) (src (uvrow + x)) (src (uvrow + (x + 1))) := by
    have hhalf : 2 * (k / 2) = x := by omega
    rw [rowPixel, hhalf, Nat.add_assoc]
  unfold convertPair convertPixel
  dsimp only
  by_cases hsecond : i = drow + (x + 1)
  · have hin : drow + x ≤ i ∧ i < drow + (x + 2) := by omega
    have hk : i - drow = x + 1 := by omega
    rw [if_pos hin, hk, hpixel (x + 1) (.inr rfl), hsecond, Function.update_self, pixel_eq]
  · rw [Function.update_of_ne hsecond]
    by_cases hfirst : i = drow + x
    · have hin : drow + x ≤ i ∧ i < drow + (x + 2) := by omega
      have hk : i - drow = x := by omega
      rw [if_pos hin, hk, hpixel x (.inl rfl), hfirst, Function.update_self, pixel_eq]
    · have hout : ¬ (drow + x ≤ i ∧ i < drow + (x + 2)) := by omega
      rw [Function.update_of_ne hfirst, if_neg hout, computed_dst]

theorem convertRow_dst (hx : x % 2 = 0) (i : Nat) :
    (convertRow src width yrow uvrow drow x s).dst i =
      if drow + x ≤ i ∧ i < drow + roundUp width then rowPixel src yrow uvrow (i - drow) else s.dst i := by
  induction x, s using convertRow.induct src width yrow uvrow drow with
  | case1 x s hlt ih =>
    rw [convertRow, if_pos hlt, ih (by omega), computed_dst, convertPair_dst hx]
    unfold roundUp
    by_cases hpair : drow + x ≤ i ∧ i < drow + (x + 2)
    · have hrow : drow + x ≤ i ∧ i < drow + 2 * ((width + 1) / 2) := by omega
      rw [if_pos hpair, if_pos hrow, ite_self]
    · have hrest : (drow + (x + 2) ≤ i ∧ i < drow + 2 * ((width + 1) / 2)) ↔
          (drow + x ≤ i ∧ i < drow + 2 * ((width + 1) / 2)) := by omega
      simp only [hrest, if_neg hpair]
  | case2 x s hge =>
    have hout : ¬ (drow + x ≤ i ∧ i < drow + roundUp width) := by
      unfold roundUp
      omega
    rw [convertRow, if_neg hge, if_neg hout]

theorem mem_convertRow_writes (hx : x % 2 = 0) (i : Nat) :
    i ∈ (convertRow src width yrow uvrow drow x s).writes ↔
      i ∈ s.writes ∨ drow + x ≤ i ∧ i < drow + roundUp width := by
  induction x, s using convertRow.induct src width yrow uvrow drow with
  | case1 x s hlt ih =>
    have hpair : drow + x ≤ i ∧ i < drow + roundUp width ↔
        i = drow + (x + 1) ∨ i = drow + x ∨ drow + (x + 2) ≤ i ∧ i < drow + roundUp width := by
      unfold roundUp
      omega
    rw [convertRow, if_pos hlt, ih (by omega), computed_writes, convertPair_writes, List.mem_cons, List.mem_cons, hpair]
    simp only [or_assoc, or_comm, or_left_comm]
  | case2 x s hge =>
    have hout : ¬ (drow + x ≤ i ∧ i < drow + roundUp width) := by
      unfold roundUp
      omega
    rw [convertRow, if_neg hge, or_iff_left hout]

/-- A row reads its luma and its chroma to the end of its last pair. -/
theorem mem_convertRow_reads (hx : x % 2 = 0) {i : Nat}
    (h : i ∈ (convertRow src width yrow uvrow drow x s).reads) :
    i ∈ s.reads ∨ ∃ k < roundUp width, i = yrow + k ∨ i = uvrow + k := by
  induction x, s using convertRow.induct src width yrow uvrow drow with
  | case1 x s hlt ih =>
    rw [convertRow, if_pos hlt] at h
    have hfirst : x < roundUp width := by
      unfold roundUp
      omega
    have hsecond : x + 1 < roundUp width := by
      unfold roundUp
      omega
    rcases ih (by omega) h with h | h
    · rw [computed_reads, convertPair_reads] at h
      simp only [List.mem_cons] at h
      rcases h with h | h | h | h | h
      · exact .inr ⟨x + 1, hsecond, .inl h⟩
      · exact .inr ⟨x, hfirst, .inl h⟩
      · exact .inr ⟨x + 1, hsecond, .inr h⟩
      · exact .inr ⟨x, hfirst, .inr h⟩
      · exact .inl h
    · exact .inr h
  | case2 x s hge =>
    rw [convertRow, if_neg hge] at h
    exact .inl h

/-- In a row of whole pairs no subscript is greater than the width. -/
theorem convertRow_ints (heven : width % 2 = 0) (hx : x % 2 = 0) {n : Nat}
    (h : n ∈ (convertRow src width yrow uvrow drow x s).ints) : n ∈ s.ints ∨ n ≤ width := by
  induction x, s using convertRow.induct src width yrow uvrow drow with
  | case1 x s hlt ih =>
    rw [convertRow, if_pos hlt] at h
    rcases ih (by omega) h with h | h
    · rw [computed_ints, convertPair_ints, List.singleton_append, List.mem_cons, List.mem_cons] at h
      rcases h with rfl | rfl | h
      · exact .inr (by omega)
      · exact .inr (by omega)
      · exact .inl h
    · exact .inr h
  | case2 x s hge =>
    rw [convertRow, if_neg hge] at h
    exact .inl h

variable {y : Nat}

theorem mem_convertRows_writes (i : Nat) : i ∈ (convertRows src width height stride y s).writes ↔
    i ∈ s.writes ∨ ∃ k, y ≤ k ∧ k < height ∧ k * width ≤ i ∧ i < k * width + roundUp width := by
  induction y, s using convertRows.induct src width height stride with
  | case1 y s hlt ih =>
    rw [convertRows, if_pos hlt, ih, computed_writes, mem_convertRow_writes rfl, computed_writes, Nat.add_zero]
    constructor
    · rintro ((h | h) | ⟨k, hk, hlt', h⟩)
      · exact .inl h
      · exact .inr ⟨y, Nat.le_refl _, hlt, h⟩
      · exact .inr ⟨k, by omega, hlt', h⟩
    · rintro (h | ⟨k, hk, hlt', h⟩)
      · exact .inl (.inl h)
      · by_cases he : k = y
        · rw [he] at h
          exact .inl (.inr h)
        · exact .inr ⟨k, by omega, hlt', h⟩
  | case2 y s hge =>
    rw [convertRows, if_neg hge, or_iff_left]
    rintro ⟨k, hk, hlt, -⟩
    omega

theorem mem_convertRows_reads {i : Nat} (h : i ∈ (convertRows src width height stride y s).reads) :
    i ∈ s.reads ∨ ∃ k < height, ∃ x < roundUp width,
      i = k * stride + x ∨ i = stride * height + k / 2 * stride + x := by
  induction y, s using convertRows.induct src width height stride with
  | case1 y s hlt ih =>
    rw [convertRows, if_pos hlt] at h
    rcases ih h with h | h
    · rcases mem_convertRow_reads rfl h with h | ⟨x, hx, h⟩
      · exact .inl h
      · rw [Nat.shiftRight_eq_div_pow] at h
        exact .inr ⟨y, hlt, x, hx, h⟩
    · exact .inr h
  | case2 y s hge =>
    rw [convertRows, if_neg hge] at h
    exact .inl h

/-- Nor is any offset greater than the size of the luma plane. -/
theorem convertRows_ints (heven : width % 2 = 0) (hwidth : 1 ≤ width) (hstride : width ≤ stride) {n : Nat}
    (h : n ∈ (convertRows src width height stride y s).ints) : n ∈ s.ints ∨ n ≤ stride * height := by
  induction y, s using convertRows.induct src width height stride with
  | case1 y s hlt ih =>
    rw [convertRows, if_pos hlt] at h
    have hplane : stride * 1 ≤ stride * height := Nat.mul_le_mul_left stride (by omega)
    have hheight : 1 * height ≤ stride * height := Nat.mul_le_mul_right height (by omega)
    have hrow : y * stride ≤ height * stride := Nat.mul_le_mul_right stride (by omega)
    have hchroma : (y >>> 1) * stride ≤ y * stride := Nat.mul_le_mul_right stride (Nat.shiftRight_le y 1)
    have hout : y * width ≤ y * stride := Nat.mul_le_mul_left y hstride
    rw [Nat.mul_comm height] at hrow
    rcases ih h with h | h
    · rw [computed_ints, List.singleton_append, List.mem_cons] at h
      rcases h with rfl | h
      · exact .inr (by omega)
      rcases convertRow_ints heven rfl h with h | h
      · rw [computed_ints, List.mem_append] at h
        rcases h with h | h
        · simp only [List.mem_cons, List.not_mem_nil, or_false] at h
          exact .inr (by omega)
        · exact .inl h
      · exact .inr (by omega)
    · exact .inr h
  | case2 y s hge =>
    rw [convertRows, if_neg hge] at h
    exact .inl h

/-- What has been computed is kept. -/
theorem convertRow_keeps {n : Nat} (h : n ∈ s.ints) : n ∈ (convertRow src width yrow uvrow drow x s).ints := by
  induction x, s using convertRow.induct src width yrow uvrow drow with
  | case1 x s hlt ih =>
    rw [convertRow, if_pos hlt]
    exact ih (List.mem_cons_of_mem _ (List.mem_cons_of_mem _ h))
  | case2 x s hge =>
    rw [convertRow, if_neg hge]
    exact h

theorem convertRows_keeps {n : Nat} (h : n ∈ s.ints) : n ∈ (convertRows src width height stride y s).ints := by
  induction y, s using convertRows.induct src width height stride with
  | case1 y s hlt ih =>
    rw [convertRows, if_pos hlt]
    exact ih (List.mem_cons_of_mem _ (convertRow_keeps (List.mem_append_right _ h)))
  | case2 y s hge =>
    rw [convertRows, if_neg hge]
    exact h

/-- Later rows do not reach back. -/
theorem convertRows_dst {k x : Nat} (hk : k < height) (hx : x < width) :
    (convertRows src width height stride y s).dst (k * width + x) =
      if y ≤ k then rowPixel src (k * stride) (stride * height + k / 2 * stride) x
      else s.dst (k * width + x) := by
  have hround : width ≤ roundUp width := by
    unfold roundUp
    omega
  induction y, s using convertRows.induct src width height stride with
  | case1 y s hlt ih =>
    rw [convertRows, if_pos hlt, ih, computed_dst, convertRow_dst rfl, computed_dst, Nat.shiftRight_eq_div_pow]
    rcases Nat.lt_trichotomy k y with hky | rfl | hky
    · have hbelow : (k + 1) * width ≤ y * width := Nat.mul_le_mul_right width hky
      rw [Nat.succ_mul] at hbelow
      have hrow : ¬ (y * width + 0 ≤ k * width + x ∧ k * width + x < y * width + roundUp width) := by omega
      rw [if_neg (by omega), if_neg hrow, if_neg (by omega)]
    · have hrow : k * width + 0 ≤ k * width + x ∧ k * width + x < k * width + roundUp width := by omega
      rw [if_neg (by omega), if_pos hrow, if_pos (Nat.le_refl _), Nat.add_sub_cancel_left]
    · rw [if_pos (Nat.succ_le_of_lt hky), if_pos (Nat.le_of_lt hky)]
  | case2 y s hge =>
    rw [convertRows, if_neg hge, if_neg (by omega)]

end

/-! ## The conversion -/

/-- No `int` overflows, the conversion stays within both buffers, and each pixel has its own luma and the
chroma of its block. -/
structure Converts (r : Pass) : Prop where
  ints : ∀ n ∈ r.ints, n < 2 ^ 31
  reads : ∀ i ∈ r.reads, i < stride * height + stride * ((height + 1) / 2)
  writes : ∀ i ∈ r.writes, i < width * height
  pixels : ∀ x < width, ∀ y < height, r.dst (y * width + x) =
    bt601 (src (y * stride + x)) (src (stride * height + y / 2 * stride + 2 * (x / 2)))
      (src (stride * height + y / 2 * stride + 2 * (x / 2) + 1))

section
variable {src width height stride}

/-- The pixels are right for every width. -/
theorem convert_pixels (dst : Nat → BitVec 16) {x y : Nat} (hx : x < width) (hy : y < height) :
    (convertNV21toRGB565 src width height stride dst).dst (y * width + x) =
      bt601 (src (y * stride + x)) (src (stride * height + y / 2 * stride + 2 * (x / 2)))
        (src (stride * height + y / 2 * stride + 2 * (x / 2) + 1)) := by
  unfold convertNV21toRGB565
  rw [convertRows_dst hy hx, if_pos (Nat.zero_le y)]
  rfl

theorem mem_convert_writes (dst : Nat → BitVec 16) (i : Nat) :
    i ∈ (convertNV21toRGB565 src width height stride dst).writes ↔
      ∃ y < height, y * width ≤ i ∧ i < y * width + roundUp width := by
  unfold convertNV21toRGB565
  rw [mem_convertRows_writes, computed_writes, or_iff_right List.not_mem_nil]
  exact exists_congr fun y => and_iff_right (Nat.zero_le y)

/-- A full last pair stays within the row. -/
theorem convert_in_bounds (dst : Nat → BitVec 16) (hwidth : 1 ≤ width) (hstride : width ≤ stride)
    (heven : width % 2 = 0) (hplane : stride * height < 2 ^ 31) :
    Converts src width height stride (convertNV21toRGB565 src width height stride dst) := by
  have hround : roundUp width = width := by
    unfold roundUp
    omega
  constructor
  · intro n hn
    unfold convertNV21toRGB565 at hn
    rcases convertRows_ints heven hwidth hstride hn with h | h
    · rw [computed_ints, List.append_nil, List.mem_singleton] at h
      omega
    · omega
  · intro i hi
    unfold convertNV21toRGB565 at hi
    rcases mem_convertRows_reads hi with h | ⟨y, hy, x, hx, h | h⟩
    · exact absurd h List.not_mem_nil
    · rw [hround] at hx
      have hrow : (y + 1) * stride ≤ height * stride := Nat.mul_le_mul_right stride hy
      rw [Nat.succ_mul, Nat.mul_comm height] at hrow
      omega
    · rw [hround] at hx
      have hrow : (y / 2 + 1) * stride ≤ (height + 1) / 2 * stride :=
        Nat.mul_le_mul_right stride (by omega)
      rw [Nat.succ_mul, Nat.mul_comm ((height + 1) / 2)] at hrow
      omega
  · intro i hi
    obtain ⟨y, hy, -, hlt⟩ := (mem_convert_writes dst i).mp hi
    rw [hround] at hlt
    have hrow : (y + 1) * width ≤ height * width := Nat.mul_le_mul_right width hy
    rw [Nat.succ_mul, Nat.mul_comm height] at hrow
    omega
  · intro x hx y hy
    exact convert_pixels dst hx hy

/-- The last pair of the last row is written behind the buffer when it has one pixel. -/
theorem convert_writes_behind (dst : Nat → BitVec 16) (hheight : 1 ≤ height) (hodd : width % 2 = 1) :
    width * height ∈ (convertNV21toRGB565 src width height stride dst).writes := by
  rw [mem_convert_writes]
  refine ⟨height - 1, by omega, ?_⟩
  have hlast : (height - 1) * width + width = width * height := by
    rw [← Nat.succ_mul, Nat.succ_eq_add_one, Nat.sub_add_cancel hheight, Nat.mul_comm]
  unfold roundUp
  omega

theorem convert_iff (dst : Nat → BitVec 16) (hwidth : 1 ≤ width) (hheight : 1 ≤ height)
    (hstride : width ≤ stride) :
    Converts src width height stride (convertNV21toRGB565 src width height stride dst) ↔
      width % 2 = 0 ∧ stride * height < 2 ^ 31 := by
  constructor
  · intro h
    constructor
    · by_contra hodd
      have hbehind := h.writes _ (convert_writes_behind dst hheight (by omega))
      exact Nat.lt_irrefl _ hbehind
    · exact h.ints _ (convertRows_keeps (List.mem_singleton_self _))
  · rintro ⟨heven, hplane⟩
    exact convert_in_bounds dst hwidth hstride heven hplane

/-- A grey frame. -/
def grey : Nat → BitVec 8 := fun _ => 128

theorem convert_two_by_one : Converts grey 2 1 2 (convertNV21toRGB565 grey 2 1 2 fun _ => 0) :=
  (convert_iff (fun _ => 0) (by decide) (by decide) (by decide)).mpr (by decide)

theorem convert_one_by_one :
    ¬ Converts grey 1 1 1 (convertNV21toRGB565 grey 1 1 1 fun _ => 0) := by
  intro h
  have hbehind := h.writes _ (convert_writes_behind (fun _ => 0) (Nat.le_refl 1) rfl)
  exact Nat.lt_irrefl _ hbehind

end

end

end TextureManager
