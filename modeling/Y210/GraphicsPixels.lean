import Y210.Graphics
import Y210.Records

/-!
# The pixels of the recovery's frame buffer

`get_framebuffer` clears the frames it finds in the mapping, and `gr_init` draws stripes into the visible
one. The lengths come from the driver and are multiplied in 32 bits; a store beside the mapping or an `int`
that overflows ends the program.
-/
namespace GraphicsPixels

open Graphics Records

/-- A mapped frame buffer. -/
structure Mapping where
  size : Nat
  bytes : Memory

/-- The result of `int` arithmetic, where it is defined. -/
def int (z : Int) : Option Int := if -2147483648 ≤ z ∧ z < 2147483648 then some z else none

/-- `memset` with 0. -/
def clear (offset length : BitVec 32) (m : Mapping) : Option Mapping :=
  if length = 0 ∨ offset.toNat + length.toNat ≤ m.size then
    some { m with bytes := fun i =>
      if offset.toNat ≤ i ∧ i < offset.toNat + length.toNat then 0 else m.bytes i }
  else none

/-- `p[i] = color`, with 16 bits a pixel. -/
def putPixel (i : Int) (color : BitVec 16) (m : Mapping) : Option Mapping :=
  if 0 ≤ i ∧ 2 * i + 2 ≤ m.size then some { m with bytes := store16 m.bytes (2 * i.toNat) color.toNat } else none

def pixel (m : Mapping) (i : Nat) : Nat := load16 m.bytes (2 * i)

/-! ## The functions -/

section
variable (fi : FixScreeninfo) (vi : VarScreeninfo)

/-- What `get_framebuffer` clears. -/
def clearFrames (m : Mapping) : Option Mapping := do
  let m ← clear 0 (vi.yres * vi.xres * 2) m
  if 2 * vi.yres * fi.line_length ≤ fi.smem_len then
    clear (vi.yres * fi.line_length) (vi.yres * vi.xres * 2) m
  else some m

def stripeColor (h y : Int) : Option (BitVec 16) :=
  if y < h.tdiv 3 then some 0xF800
  else do
    let twice ← int (2 * h)
    some (if y < twice.tdiv 3 then 0x07E0 else 0x001F)

def stripeRow (stride y : Int) (color : BitVec 16) (m : Mapping) : Option Mapping :=
  (List.range stride.toNat).foldlM (fun m (x : Nat) => do
    let i ← int (y * stride + x)
    putPixel i color m) m

/-- The fill of `gr_init`. -/
def stripes (stride h : Int) (m : Mapping) : Option Mapping :=
  (List.range h.toNat).foldlM (fun m (y : Nat) => do
    let color ← stripeColor h y
    stripeRow stride y color m) m

/-- What a `gr_init` that maps the frame buffer stores there. -/
def drawScreen (gr_mem_surface : GGLSurface) (m : Mapping) : Option Mapping := do
  let m ← clearFrames fi vi m
  stripes gr_mem_surface.stride.toInt gr_mem_surface.height.toInt m

end

/-! ## Loops -/

/-- What holds before the loop, and of one more count when it holds of a count, holds behind the loop. -/
theorem counting_loop {σ : Type} {f : σ → Nat → Option σ} {P : Nat → σ → Prop} {n : Nat} {s : σ} (h : P 0 s)
    (hstep : ∀ k < n, ∀ s, P k s → ∃ s', f s k = some s' ∧ P (k + 1) s') :
    ∃ s', (List.range n).foldlM f s = some s' ∧ P n s' := by
  induction n with
  | zero => exact ⟨s, rfl, h⟩
  | succ n ih =>
    obtain ⟨before, hbefore, hn⟩ := ih fun k hk => hstep k (Nat.lt_succ_of_lt hk)
    obtain ⟨after, hafter, hsucc⟩ := hstep n (Nat.lt_succ_self n) before hn
    refine ⟨after, ?_, hsucc⟩
    rw [List.range_succ, List.foldlM_append, hbefore]
    change List.foldlM f before [n] = some after
    rw [List.foldlM_cons, hafter]
    rfl

/-! ## The picture -/

/-- Red above green above blue. -/
def stripe (h y : Nat) : BitVec 16 := if y < h / 3 then 0xF800 else if y < 2 * h / 3 then 0x07E0 else 0x001F

/-- The byte of a pixel at an even or odd address. -/
def pixelByte (color : BitVec 16) (i : Nat) : Byte := BitVec.ofNat 8 (if i % 2 = 0 then color.toNat else color.toNat / 256)

/-- The first `k` pixels are those of the image. -/
structure Painted (image : Nat → BitVec 16) (m : Mapping) (k : Nat) (m' : Mapping) : Prop where
  size : m'.size = m.size
  bytes : ∀ i, m'.bytes i = if i < 2 * k then pixelByte (image (i / 2)) i else m.bytes i

section
variable {image : Nat → BitVec 16} {m m' : Mapping} {k : Nat}

theorem painted_zero (image : Nat → BitVec 16) (m : Mapping) : Painted image m 0 m := ⟨rfl, fun _ => rfl⟩

theorem store16_apply (mem : Memory) (k n i : Nat) : store16 mem (2 * k) n i =
    if i = 2 * k then BitVec.ofNat 8 n else if i = 2 * k + 1 then BitVec.ofNat 8 (n / 256) else mem i := by
  unfold store16 store leBytes leBytes leBytes
  by_cases h0 : i = 2 * k
  · simp [h0]
  · by_cases h1 : i = 2 * k + 1
    · simp [h1]
    · by_cases hle : 2 * k ≤ i
      · have hnone : [BitVec.ofNat 8 n, BitVec.ofNat 8 (n / 256)][i - 2 * k]? = none := by
          rw [List.getElem?_eq_none_iff]
          simp only [List.length_cons, List.length_nil]
          omega
        rw [if_pos hle, hnone, if_neg h0, if_neg h1]
        rfl
      · rw [if_neg hle, if_neg h0, if_neg h1]

/-- The next pixel. -/
theorem Painted.put (h : Painted image m k m') (hroom : 2 * k + 2 ≤ m.size) :
    ∃ m'', putPixel k (image k) m' = some m'' ∧ Painted image m (k + 1) m'' := by
  have hin : (0 : Int) ≤ k ∧ 2 * (k : Int) + 2 ≤ m'.size := by
    rw [h.size]
    omega
  refine ⟨_, if_pos hin, h.size, fun i => ?_⟩
  dsimp only
  rw [Int.toNat_natCast, store16_apply, h.bytes]
  unfold pixelByte
  by_cases h0 : i = 2 * k
  · have hhalf : i / 2 = k := by omega
    have heven : i % 2 = 0 := by omega
    have hlt : i < 2 * (k + 1) := by omega
    rw [if_pos h0, if_pos hlt, hhalf, if_pos heven]
  · by_cases h1 : i = 2 * k + 1
    · have hhalf : i / 2 = k := by omega
      have hodd : ¬ i % 2 = 0 := by omega
      have hlt : i < 2 * (k + 1) := by omega
      rw [if_neg h0, if_pos h1, if_pos hlt, hhalf, if_neg hodd]
    · have hiff : i < 2 * (k + 1) ↔ i < 2 * k := by omega
      simp only [h0, h1, hiff, if_false]

/-- The pixels read back. -/
theorem Painted.pixel (h : Painted image m k m') {i : Nat} (hi : i < k) : pixel m' i = (image i).toNat := by
  have hlow : 2 * i < 2 * k := by omega
  have hhigh : 2 * i + 1 < 2 * k := by omega
  have hhalf : (2 * i + 1) / 2 = i := by omega
  have hodd : ¬ (2 * i + 1) % 2 = 0 := by omega
  have hlt := (image i).isLt
  unfold GraphicsPixels.pixel load16 slice
  simp only [List.range_succ, List.range_zero, List.nil_append, List.map_cons, List.map_nil,
    List.cons_append, leValue, Nat.add_zero, Nat.mul_zero, h.bytes, hlow, hhigh, if_true, pixelByte, hhalf, hodd,
    Nat.mul_div_cancel_left i (by decide : 0 < 2), Nat.mul_mod_right, if_false, BitVec.toNat_ofNat]
  omega

/-- A row, up to its first `n` pixels. -/
theorem Painted.row {stride y : Nat} {color : BitVec 16} (h : Painted image m (y * stride) m')
    (hcolor : ∀ x < stride, image (y * stride + x) = color) (hroom : 2 * (y * stride + stride) ≤ m.size)
    (hsmall : m.size < 2147483648) :
    ∃ m'', stripeRow stride y color m' = some m'' ∧ Painted image m (y * stride + stride) m'' := by
  unfold stripeRow
  rw [Int.toNat_natCast]
  refine counting_loop (P := fun x => Painted image m (y * stride + x)) h fun x hx m' hpainted => ?_
  obtain ⟨m'', hput, hafter⟩ := hpainted.put (by omega)
  have hindex : int ((y : Int) * stride + x) = some ((y * stride + x : Nat) : Int) := by
    rw [← Int.natCast_mul, ← Int.natCast_add]
    exact if_pos (by omega)
  refine ⟨m'', ?_, hafter⟩
  rw [hindex, ← hcolor x hx]
  exact hput

end

theorem stripeColor_eq {h y : Nat} (hsmall : 2 * h < 2147483648) : stripeColor h y = some (stripe h y) := by
  have hthird : (h : Int).tdiv 3 = ((h / 3 : Nat) : Int) := rfl
  have htwice : int (2 * (h : Int)) = some ((2 * h : Nat) : Int) := if_pos (by omega)
  have htwo : ((2 * h : Nat) : Int).tdiv 3 = ((2 * h / 3 : Nat) : Int) := rfl
  unfold stripeColor stripe
  rw [hthird, htwice, Option.bind_eq_bind, Option.bind_some, htwo]
  simp only [Int.ofNat_lt]
  split
  · rfl
  · split <;> rfl

/-- The pixel `i` of lines of `stride` pixels. -/
def stripeImage (stride h i : Nat) : BitVec 16 := stripe h (i / stride)

theorem stripeImage_eq {stride x : Nat} (h y : Nat) (hx : x < stride) :
    stripeImage stride h (y * stride + x) = stripe h y := by
  have hpos : 0 < stride := Nat.lt_of_le_of_lt (Nat.zero_le x) hx
  rw [stripeImage, Nat.add_comm, Nat.add_mul_div_right _ _ hpos, Nat.div_eq_of_lt hx, Nat.zero_add]

/-- All rows are painted one behind the other. -/
theorem stripes_painted (stride h : Nat) {m : Mapping} (hroom : 2 * (h * stride) ≤ m.size)
    (hheight : 2 * h < 2147483648) (hsmall : m.size < 2147483648) :
    ∃ m', stripes stride h m = some m' ∧ Painted (stripeImage stride h) m (h * stride) m' := by
  refine counting_loop (P := fun n => Painted (stripeImage stride h) m (n * stride)) ?_ fun n hn m' hpainted => ?_
  · rw [Nat.zero_mul]
    exact painted_zero _ m
  · have hlast : n * stride + stride ≤ h * stride := by
      rw [← Nat.succ_mul]
      exact Nat.mul_le_mul_right stride hn
    obtain ⟨m'', hrow, hafter⟩ := hpainted.row (fun x hx => stripeImage_eq h n hx) (by omega) hsmall
    refine ⟨m'', ?_, Nat.succ_mul n stride ▸ hafter⟩
    rw [stripeColor_eq hheight]
    exact hrow

/-! ## The screen -/

/-- What the driver promises: a line holds its pixels, and the mapping, below 2 GiB, the visible frame. -/
structure Geometry (fi : FixScreeninfo) (vi : VarScreeninfo) : Prop where
  width : 0 < vi.xres.toNat
  line : 2 * vi.xres.toNat ≤ fi.line_length.toNat
  frame : vi.yres.toNat * fi.line_length.toNat ≤ fi.smem_len.toNat
  small : fi.smem_len.toNat < 2147483648

section
variable {fi : FixScreeninfo} {vi : VarScreeninfo}

/-- The second frame is in the mapping as well. -/
def TwoFrames (fi : FixScreeninfo) (vi : VarScreeninfo) : Prop :=
  2 * (vi.yres.toNat * fi.line_length.toNat) ≤ fi.smem_len.toNat

instance : Decidable (TwoFrames fi vi) := Nat.decLe _ _

/-- The height, as 2 bytes at least make a line. -/
theorem Geometry.height (h : Geometry fi vi) : 2 * vi.yres.toNat < 2147483648 := by
  have hline : 2 ≤ fi.line_length.toNat := by
    have hwidth := h.width
    have hline := h.line
    omega
  calc 2 * vi.yres.toNat = vi.yres.toNat * 2 := Nat.mul_comm _ _
    _ ≤ vi.yres.toNat * fi.line_length.toNat := Nat.mul_le_mul_left _ hline
    _ ≤ fi.smem_len.toNat := h.frame
    _ < 2147483648 := h.small

/-- The pixels of a frame take no more than its lines. -/
theorem Geometry.pixels (h : Geometry fi vi) :
    vi.yres.toNat * vi.xres.toNat * 2 ≤ vi.yres.toNat * fi.line_length.toNat := by
  rw [Nat.mul_assoc, Nat.mul_comm _ 2]
  exact Nat.mul_le_mul_left _ h.line

/-- No product wraps around. -/
theorem Geometry.products (h : Geometry fi vi) :
    (vi.yres * vi.xres * 2).toNat = vi.yres.toNat * vi.xres.toNat * 2 ∧
    (vi.yres * fi.line_length).toNat = vi.yres.toNat * fi.line_length.toNat ∧
    (2 * vi.yres * fi.line_length ≤ fi.smem_len ↔ TwoFrames fi vi) := by
  have hpixels := h.pixels
  have hframe := h.frame
  have hsmall := h.small
  have hheight := h.height
  have htwice : (2 * vi.yres : BitVec 32).toNat = 2 * vi.yres.toNat := by
    rw [BitVec.toNat_mul]
    exact Nat.mod_eq_of_lt (by simp; omega)
  unfold TwoFrames
  rw [BitVec.le_def, BitVec.toNat_mul, BitVec.toNat_mul, BitVec.toNat_mul, BitVec.toNat_mul, htwice, Nat.mul_assoc 2]
  generalize vi.yres.toNat * vi.xres.toNat = pixels at hpixels ⊢
  generalize vi.yres.toNat * fi.line_length.toNat = frame at hpixels hframe ⊢
  have htwo : (2 : BitVec 32).toNat = 2 := rfl
  rw [htwo]
  omega

/-- The lengths as `int`. -/
theorem Geometry.ints (h : Geometry fi vi) :
    (fi.line_length / 2).toInt = ((fi.line_length.toNat / 2 : Nat) : Int) ∧ vi.yres.toInt = (vi.yres.toNat : Int) := by
  have hheight := h.height
  have hline := fi.line_length.isLt
  rw [BitVec.toInt_eq_toNat_cond, BitVec.toInt_eq_toNat_cond, BitVec.toNat_udiv]
  have htwo : (2 : BitVec 32).toNat = 2 := rfl
  rw [htwo, if_pos (by omega), if_pos (by omega)]
  exact ⟨rfl, rfl⟩

theorem clear_inside {offset length : BitVec 32} {m : Mapping} (h : offset.toNat + length.toNat ≤ m.size) :
    clear offset length m = some { m with bytes := fun i =>
      if offset.toNat ≤ i ∧ i < offset.toNat + length.toNat then 0 else m.bytes i } := if_pos (.inr h)

/-- What is cleared behind the visible lines. -/
theorem clearFrames_bytes (h : Geometry fi vi) {m : Mapping} (hm : m.size = fi.smem_len.toNat) :
    ∃ m', clearFrames fi vi m = some m' ∧ m'.size = m.size ∧
      ∀ i, vi.yres.toNat * vi.xres.toNat * 2 ≤ i → m'.bytes i =
        if TwoFrames fi vi ∧ vi.yres.toNat * fi.line_length.toNat ≤ i ∧
          i < vi.yres.toNat * fi.line_length.toNat + vi.yres.toNat * vi.xres.toNat * 2 then 0 else m.bytes i := by
  obtain ⟨hpixels, hframe, hguard⟩ := h.products
  have hle := h.pixels
  have hroom := h.frame
  have hzero : (0 : BitVec 32).toNat = 0 := rfl
  unfold clearFrames
  rw [clear_inside (by rw [hpixels, hm, hzero]; omega), Option.bind_eq_bind, Option.bind_some, hpixels, hzero]
  by_cases htwo : TwoFrames fi vi
  · have hinside := htwo
    unfold TwoFrames at hinside
    rw [if_pos (hguard.mpr htwo), clear_inside (by rw [hpixels, hframe, hm]; omega), hpixels, hframe]
    refine ⟨_, rfl, rfl, fun i hi => ?_⟩
    have hfront : ¬ (0 ≤ i ∧ i < 0 + vi.yres.toNat * vi.xres.toNat * 2) := by omega
    simp only [htwo, true_and, hfront, if_false]
  · rw [if_neg fun hg => htwo (hguard.mp hg)]
    refine ⟨_, rfl, rfl, fun i hi => ?_⟩
    have hfront : ¬ (0 ≤ i ∧ i < 0 + vi.yres.toNat * vi.xres.toNat * 2) := by omega
    simp only [htwo, false_and, hfront, if_false]

/-- Nothing is stored beside the mapping, and the lines are painted from end to end. -/
theorem drawScreen_painted (h : Geometry fi vi) {m : Mapping} (hm : m.size = fi.smem_len.toNat) (data : Ptr) :
    ∃ m', drawScreen fi vi ⟨vi.xres, vi.yres, fi.line_length / 2, data⟩ m = some m' ∧
      (∀ y < vi.yres.toNat, ∀ x < fi.line_length.toNat / 2,
        pixel m' (y * (fi.line_length.toNat / 2) + x) = (stripe vi.yres.toNat y).toNat) ∧
      ∀ i, vi.yres.toNat * fi.line_length.toNat ≤ i → m'.bytes i =
        if TwoFrames fi vi ∧ i < vi.yres.toNat * fi.line_length.toNat + vi.yres.toNat * vi.xres.toNat * 2 then 0
        else m.bytes i := by
  obtain ⟨hstride, hheight⟩ := h.ints
  obtain ⟨cleared, hclear, hsize, hbytes⟩ := clearFrames_bytes h hm
  have hpixels := h.pixels
  have hlines : 2 * (vi.yres.toNat * (fi.line_length.toNat / 2)) ≤ vi.yres.toNat * fi.line_length.toNat := by
    rw [Nat.mul_left_comm]
    exact Nat.mul_le_mul_left _ (Nat.mul_div_le _ 2)
  have hroom := h.frame
  have hsmall := h.small
  obtain ⟨m', hstripes, hpainted⟩ := stripes_painted (m := cleared) (fi.line_length.toNat / 2) vi.yres.toNat
    (by omega) h.height (by omega)
  refine ⟨m', ?_, fun y hy x hx => ?_, fun i hi => ?_⟩
  · unfold drawScreen
    rw [hclear, Option.bind_eq_bind, Option.bind_some, hstride, hheight]
    exact hstripes
  · have hin : y * (fi.line_length.toNat / 2) + x < vi.yres.toNat * (fi.line_length.toNat / 2) := by
      calc y * (fi.line_length.toNat / 2) + x < y * (fi.line_length.toNat / 2) + fi.line_length.toNat / 2 := by omega
        _ = (y + 1) * (fi.line_length.toNat / 2) := (Nat.succ_mul _ _).symm
        _ ≤ vi.yres.toNat * (fi.line_length.toNat / 2) := Nat.mul_le_mul_right _ hy
    rw [hpainted.pixel hin, stripeImage_eq _ _ hx]
  · rw [hpainted.bytes, if_neg (by omega), hbytes i (by omega)]
    simp only [hi, true_and]

end

/-! ## The surface -/

section
variable {a : InitAnswers} {fi : FixScreeninfo} {vi : VarScreeninfo}

theorem set_active_framebuffer_mem (put : Bool) (n : Nat) (s : State) :
    (set_active_framebuffer put n s).gr_mem_surface = s.gr_mem_surface := by
  unfold set_active_framebuffer
  dsimp only
  split
  · rfl
  · split
    · rfl
    · split <;> rfl

/-- With a single buffer the surface has the lines of the frame buffer. -/
theorem startDrawing_surface (a : InitAnswers) {s : State} (hs : s.gr_single_buffer = true) :
    (startDrawing a s).gr_mem_surface = ⟨s.vi.xres, s.vi.yres, s.gr_framebuffer.1.stride, s.gr_framebuffer.1.data⟩ := by
  have hsingle : (get_memory_surface a.malloc s).gr_single_buffer = true := hs
  unfold startDrawing
  dsimp only
  rw [set_active_framebuffer_mem, if_pos hsingle]
  rfl

/-- Behind any calls, a `gr_init` that does not give up draws on the frame that it has just mapped. -/
theorem gr_init_surface (ops : List Op) (ha : a.failing = false) (hfi : a.fb.fscreeninfo = some fi)
    (hvi : a.fb.vscreeninfo = some vi) : (gr_init a (Run.exec step start ops)).1.gr_mem_surface =
      ⟨vi.xres, vi.yres, fi.line_length / 2, .mapped (Run.exec step start ops).maps 0⟩ := by
  have hstart : Graphics.Inv start := ⟨rfl, fun _ _ => rfl, nofun⟩
  have hstep : ∀ s op, Graphics.Inv s → Graphics.Inv (step s op) := fun _ op h => inv_step h op
  have hruns : Run.AllStates step Graphics.Inv start ops := Run.allStates_of_invariant hstep hstart ops
  have hsingle := hruns.last.single
  generalize Run.exec step start ops = s at hsingle ⊢
  obtain ⟨hvt, hmapped⟩ : ¬ (a.vtOpened.isSome = true ∧ a.kdGraphics = false) ∧ a.fb.mapped = true := by
    unfold InitAnswers.failing at ha
    cases hm : a.fb.mapped <;> simp_all
  have hneg := openFb_negative a.fb { s with gr_vt_fd := (a.vtOpened.map Int.ofNat).getD (-1) }
  have hopen := openFb_surface a.fb { s with gr_vt_fd := (a.vtOpened.map Int.ofNat).getD (-1) }
  unfold gr_init
  dsimp only
  rw [if_neg hvt, if_neg (by rw [hneg, hmapped]; decide),
    startDrawing_surface a (hopen.gr_single_buffer.trans hsingle)]
  simp only [FbAnswers.mapped, Bool.and_eq_true, Option.isSome_iff_exists] at hmapped
  obtain ⟨⟨⟨⟨fd, hfd⟩, -⟩, -⟩, hm⟩ := hmapped
  simp [openFb, get_framebuffer, hfd, hfi, hvi, hm]

/-- Behind any calls, a `gr_init` on such a frame buffer draws where it was mapped and stores nothing beside
it; each line shows its stripe from end to end, and what is behind the lines is as it was, or cleared where it
is the second frame. -/
theorem drawScreen_stripes (ops : List Op) (ha : a.failing = false) (hfi : a.fb.fscreeninfo = some fi)
    (hvi : a.fb.vscreeninfo = some vi) (h : Geometry fi vi) {m : Mapping} (hm : m.size = fi.smem_len.toNat) :
    (gr_init a (Run.exec step start ops)).1.gr_mem_surface.data = .mapped (Run.exec step start ops).maps 0 ∧
      ∃ m', drawScreen fi vi (gr_init a (Run.exec step start ops)).1.gr_mem_surface m = some m' ∧
      (∀ y < vi.yres.toNat, ∀ x < fi.line_length.toNat / 2,
        pixel m' (y * (fi.line_length.toNat / 2) + x) = (stripe vi.yres.toNat y).toNat) ∧
      ∀ i, vi.yres.toNat * fi.line_length.toNat ≤ i → m'.bytes i =
        if TwoFrames fi vi ∧ i < vi.yres.toNat * fi.line_length.toNat + vi.yres.toNat * vi.xres.toNat * 2 then 0
        else m.bytes i := by
  rw [gr_init_surface ops ha hfi hvi]
  exact ⟨rfl, drawScreen_painted h hm _⟩

end

/-- A screen of 320x480 in lines of 1280 bytes, mapped twice. -/
def longLines : InitAnswers := ⟨none, true, ⟨some 3, some ⟨1228800, 1280⟩, some ⟨320, 480, 960, 0, 32⟩, true⟩, true, true⟩

theorem drawScreen_stripes_lines :
    (gr_init longLines (Run.exec step start [.gr_exit])).1.gr_mem_surface.data = .mapped 0 0 ∧
      ∃ m', drawScreen ⟨1228800, 1280⟩ ⟨320, 480, 960, 0, 32⟩
        (gr_init longLines (Run.exec step start [.gr_exit])).1.gr_mem_surface ⟨1228800, fun _ => 0xff⟩ = some m' ∧
      (∀ y < 480, ∀ x < 640, pixel m' (y * 640 + x) = (stripe 480 y).toNat) ∧
      ∀ i, 614400 ≤ i → m'.bytes i =
        if TwoFrames ⟨1228800, 1280⟩ ⟨320, 480, 960, 0, 32⟩ ∧ i < 614400 + 307200 then 0 else 0xff :=
  drawScreen_stripes [.gr_exit] rfl rfl rfl ⟨by decide, by decide, by decide, by decide⟩ rfl

end GraphicsPixels
