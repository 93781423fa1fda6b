import Mathlib.Data.BitVec
import Y210.RunLength

/-!
# The recovery's text

`gr_init_font` unpacks the run-length coded glyphs of the built-in font into a texture, one row of
96 glyphs; `gr_text` draws each character as a rectangle of the screen with the texture shifted
under it. What the drawing library is called with is logged in order; what it draws then depends on
the modes and coordinates that it was left with as well.
-/
namespace RecoveryFont

open RunLength

/-- The fields of `font` that are used. -/
structure Font where
  width : BitVec 32
  height : BitVec 32
  cwidth : BitVec 32
  cheight : BitVec 32
  rundata : List (BitVec 8)

/-- A surface of one byte for each pixel. -/
structure Texture where
  width : BitVec 32
  height : BitVec 32
  stride : BitVec 32
  data : Sheet (BitVec 8)

structure GRFont where
  texture : Texture
  cwidth : BitVec 32
  cheight : BitVec 32
  ascent : BitVec 32

/-! ## `gr_init_font` -/

/-- What `malloc` is asked for. -/
def Font.block (font : Font) : Nat := (font.width * font.height).toNat

/-- The loop over `rundata`; `none` where it runs past the array. -/
def unpackRuns : List (BitVec 8) → Sheet (BitVec 8) → Option (Sheet (BitVec 8))
  | [], _ => none
  | data :: input, bits =>
    if data = 0 then some bits
    else unpackRuns input (bits.fill (if data &&& 0x80 ≠ 0 then 255 else 0) (data &&& 0x7f).toNat)

def gr_init_font (font : Font) : Option GRFont := do
  let bits ← unpackRuns font.rundata Sheet.blank
  some {
    texture := { width := font.width, height := font.height, stride := font.width, data := bits }
    cwidth := font.cwidth
    cheight := font.cheight
    ascent := font.cheight - 2 }

/-! ## `gr_text` -/

/-- `GGL_TEXTURE_ENV_MODE`. -/
inductive EnvMode where
  | modulate | decal | blend | replace
  deriving DecidableEq, Repr

/-- `GGL_TEXTURE_GEN_MODE`, which each coordinate has of its own. -/
inductive GenMode where
  | automatic | oneToOne
  deriving DecidableEq, Repr

/-- `GGL_S` and `GGL_T`. -/
inductive Coord where
  | s | t
  deriving DecidableEq, Repr

/-- A call of the drawing library; `enable` is that of `GGL_TEXTURE_2D`. -/
inductive GlCall where
  | bindTexture (texture : Texture)
  | texEnvi (mode : EnvMode)
  | texGeni (coord : Coord) (mode : GenMode)
  | enable
  | texCoord2i (s t : BitVec 32)
  | recti (l t r b : BitVec 32)

/-- A `char` as an `unsigned`; whether it has a sign is up to the machine. -/
def ofChar (signed : Bool) (c : BitVec 8) : BitVec 32 := if signed then c.signExtend 32 else c.setWidth 32

section
variable (signed : Bool) (font : GRFont)

/-- The loop of `gr_text`, up to the end of the string: the calls, and `x`. -/
def textLoop (y : BitVec 32) : BitVec 32 → List (BitVec 8) → List GlCall × BitVec 32
  | x, [] => ([], x)
  | x, c :: s =>
    let off := ofChar signed c - 32
    let glyph := if off < 96 then
        [.texCoord2i (off * font.cwidth - x) (0 - y), .recti x y (x + font.cwidth) (y + font.cheight)]
      else []
    let (calls, x) := textLoop y (x + font.cwidth) s
    (glyph ++ calls, x)

def gr_measure (s : List (BitVec 8)) : BitVec 32 := font.cwidth * BitVec.ofNat 32 s.length

/-- `s` is the string before its end. -/
def gr_text (x y : BitVec 32) (s : List (BitVec 8)) : List GlCall × BitVec 32 :=
  let y := y - font.ascent
  let (calls, x) := textLoop signed font y x s
  ([.bindTexture font.texture, .texEnvi .replace, .texGeni .s .oneToOne, .texGeni .t .oneToOne, .enable] ++ calls, x)

end

/-! ## The font's code -/

def texel (white : Bool) : BitVec 8 := if white then 255 else 0

def pack (white : Bool) (n : Nat) : BitVec 8 := BitVec.ofNat 8 ((if white then 128 else 0) + n)

theorem and_low (data : BitVec 8) : (data &&& 0x7f).toNat = data.toNat % 128 := by
  rw [BitVec.toNat_and]
  exact Nat.and_two_pow_sub_one_eq_mod data.toNat 7

theorem and_high (data : BitVec 8) : data &&& 0x80 ≠ 0 ↔ 128 ≤ data.toNat := by
  revert data
  decide

theorem pack_toNat {white : Bool} {n : Nat} (h : n ≤ 127) :
    (pack white n).toNat = (if white then 128 else 0) + n := by
  rw [pack, BitVec.toNat_ofNat]
  cases white <;> simp <;> omega

/-- The high bit is the colour, the others are the count, and a zero byte is the end. -/
def fontFormat : Format Bool (BitVec 8) where
  symbol data := 128 ≤ data.toNat
  count data := (data &&& 0x7f).toNat
  stop data := data = 0
  most := 127
  most_pos := by decide
  word := pack
  symbol_word white n h := by
    rw [pack_toNat h]
    cases white <;> simp
    omega
  count_word white n h := by
    rw [and_low, pack_toNat h]
    cases white <;> simp <;> omega
  stop_word white n hpos h := by
    have hne : pack white n ≠ 0 := by
      intro h0
      have := congrArg BitVec.toNat h0
      rw [pack_toNat h] at this
      simp at this
      omega
    simpa using hne
  endWord := 0
  stop_endWord := rfl

/-- The pixels a font stands for. -/
def Font.pixels (font : Font) : Option (List Bool) := decode fontFormat.toCode font.rundata

theorem unpackRuns_eq (input : List (BitVec 8)) (bits : Sheet (BitVec 8)) :
    unpackRuns input bits = unpack (fontFormat.map texel) input bits := by
  induction input generalizing bits with
  | nil => rfl
  | cons data input ih =>
    have hsymbol : (if data &&& 0x80 ≠ 0 then 255 else 0 : BitVec 8) = (fontFormat.map texel).symbol data := by
      by_cases h : 128 ≤ data.toNat
      · rw [if_pos ((and_high data).mpr h)]
        simp [Code.map, fontFormat, texel, h]
      · rw [if_neg (mt (and_high data).mp h)]
        simp [Code.map, fontFormat, texel, h]
    by_cases hend : data = 0
    · simp [unpackRuns, unpack, Code.map, fontFormat, hend]
    · have hstop : (fontFormat.map texel).stop data = false := by simpa [Code.map, fontFormat] using hend
      rw [unpackRuns, if_neg hend, unpack, hstop, ih, hsymbol]
      rfl

/-- The texture holds the font's pixels and nothing else. -/
theorem gr_init_font_of_pixels {font : Font} {px : List Bool} (h : font.pixels = some px) :
    ∃ g, gr_init_font font = some g ∧ g.texture.width = font.width ∧ g.texture.height = font.height ∧
      g.texture.stride = font.width ∧ g.cwidth = font.cwidth ∧ g.cheight = font.cheight ∧
      g.texture.data.Holds (px.map texel) := by
  have hd : decode (fontFormat.map texel) font.rundata = some (px.map texel) := by
    rw [decode_map]
    exact congrArg (Option.map (List.map texel)) h
  obtain ⟨bits, hbits, hholds⟩ := unpack_of_decode _ hd Sheet.holds_blank
  rw [List.nil_append] at hholds
  refine ⟨⟨⟨font.width, font.height, font.width, bits⟩, font.cwidth, font.cheight, font.cheight - 2⟩, ?_,
    rfl, rfl, rfl, rfl, rfl, hholds⟩
  simp [gr_init_font, unpackRuns_eq, hbits]

theorem pixels_of_gr_init_font {font : Font} {g : GRFont} (h : gr_init_font font = some g) :
    ∃ px, font.pixels = some px := by
  cases hp : font.pixels with
  | some px => exact ⟨px, rfl⟩
  | none =>
    have hd : decode (fontFormat.map texel) font.rundata = none := by
      rw [decode_map]
      exact congrArg (Option.map (List.map texel)) hp
    have hnone := (unpack_eq_none_iff (fontFormat.map texel) (s := Sheet.blank)).mpr hd
    simp [gr_init_font, unpackRuns_eq, hnone] at h

/-- The unpacked texture is the font's pixels; it stays inside its block exactly when they fit there,
and covers it exactly when there are enough of them. -/
theorem gr_init_font_texture (font : Font) (g : GRFont) (h : gr_init_font font = some g) :
    ∃ px, font.pixels = some px ∧ (∀ i, g.texture.data.cells i = (px[i]?).map texel) ∧
      ((∀ i ∈ g.texture.data.writes, i < font.block) ↔ px.length ≤ font.block) ∧
      ((∀ i, i < font.block → (g.texture.data.cells i).isSome) ↔ font.block ≤ px.length) := by
  obtain ⟨px, hpx⟩ := pixels_of_gr_init_font h
  obtain ⟨g', hg', -, -, -, -, -, hholds⟩ := gr_init_font_of_pixels hpx
  obtain rfl : g' = g := Option.some.inj (hg'.symm.trans h)
  refine ⟨px, hpx, fun i => by rw [hholds.cells, List.getElem?_map], ?_, ?_⟩
  · simpa using hholds.writes_lt_iff font.block
  · simpa using hholds.covers_iff font.block

/-- Two white pixels and a black one. -/
def tiny : Font := ⟨3, 1, 1, 1, [0x82, 0x01, 0]⟩

theorem gr_init_font_tiny : ∃ (g : GRFont) (px : List Bool), tiny.pixels = some px ∧
    (∀ i, g.texture.data.cells i = (px[i]?).map texel) ∧
    ((∀ i ∈ g.texture.data.writes, i < tiny.block) ↔ px.length ≤ tiny.block) ∧
    ((∀ i, i < tiny.block → (g.texture.data.cells i).isSome) ↔ tiny.block ≤ px.length) :=
  ⟨_, gr_init_font_texture tiny _ rfl⟩

/-- Any picture has run data, and unpacking it gives the picture back, whatever follows its end. -/
theorem gr_init_font_encode (font : Font) (px : List Bool) (rest : List (BitVec 8))
    (hdata : font.rundata = encode fontFormat px ++ rest) :
    ∃ g, gr_init_font font = some g ∧ ∀ i, g.texture.data.cells i = (px[i]?).map texel := by
  have hpx : font.pixels = some px := by rw [Font.pixels, hdata, decode_encode]
  obtain ⟨g, hg, -, -, -, -, -, hholds⟩ := gr_init_font_of_pixels hpx
  exact ⟨g, hg, fun i => by rw [hholds.cells, List.getElem?_map]⟩

theorem gr_init_font_encode_tiny : ∃ g, gr_init_font tiny = some g ∧
    ∀ i, g.texture.data.cells i = ([true, true, false][i]?).map texel :=
  gr_init_font_encode tiny [true, true, false] [] (by decide)

/-! ## What is drawn -/

/-- What the library keeps between calls. -/
structure Gl where
  texture : Option Texture
  env : EnvMode
  genS : GenMode
  genT : GenMode
  enabled : Bool
  s : BitVec 32
  t : BitVec 32

/-- The texture that a rectangle is a copy of, where it is one. -/
def Gl.source (gl : Gl) : Option Texture :=
  if gl.enabled = true ∧ gl.env = .replace ∧ gl.genS = .oneToOne ∧ gl.genT = .oneToOne then gl.texture else none

/-- A rectangle of the screen, the place of the texture that lies under its corner, and the texture. -/
structure Glyph where
  x : BitVec 32
  y : BitVec 32
  width : BitVec 32
  height : BitVec 32
  cellX : BitVec 32
  cellY : BitVec 32
  source : Option Texture

def Gl.step (gl : Gl) : GlCall → Gl
  | .bindTexture texture => { gl with texture := some texture }
  | .texEnvi mode => { gl with env := mode }
  | .texGeni .s mode => { gl with genS := mode }
  | .texGeni .t mode => { gl with genT := mode }
  | .enable => { gl with enabled := true }
  | .texCoord2i s t => { gl with s := s, t := t }
  | .recti _ _ _ _ => gl

/-- Every rectangle is drawn; its texture coordinates are the screen's, shifted by those that were set. -/
def glyphs : Gl → List GlCall → List Glyph
  | _, [] => []
  | gl, .recti l top r b :: calls => ⟨l, top, r - l, b - top, gl.s + l, gl.t + top, gl.source⟩ :: glyphs gl calls
  | gl, c :: calls => glyphs (gl.step c) calls

def printable (c : BitVec 8) : Bool := 32 ≤ c.toNat && c.toNat < 128

theorem sub_lt_of_printable {c : BitVec 8} (h : printable c = true) : c.toNat - 32 < 96 := by
  have hlt := (Bool.and_eq_true_iff.mp h).2
  simp at hlt
  omega

/-- Where the character at a place of the string goes, and its cell of the texture. -/
def glyphAt (font : GRFont) (x y : BitVec 32) (i : Nat) (c : BitVec 8) : Glyph :=
  ⟨x + BitVec.ofNat 32 i * font.cwidth, y, font.cwidth, font.cheight,
    BitVec.ofNat 32 (c.toNat - 32) * font.cwidth, 0, some font.texture⟩

theorem ofChar_lt_iff (signed : Bool) (c : BitVec 8) : ofChar signed c - 32 < 96 ↔ printable c = true := by
  revert signed c
  decide

theorem ofChar_eq (signed : Bool) {c : BitVec 8} (h : printable c = true) :
    ofChar signed c - 32 = BitVec.ofNat 32 (c.toNat - 32) := by
  revert signed c
  decide

section
variable (signed : Bool) (font : GRFont)

/-- The coordinates do not change what is copied. -/
theorem glyphs_glyph_append (gl : Gl) (s t l top r b : BitVec 32) (calls : List GlCall) :
    glyphs gl ([.texCoord2i s t, .recti l top r b] ++ calls) =
      ⟨l, top, r - l, b - top, s + l, t + top, gl.source⟩ :: glyphs { gl with s := s, t := t } calls := rfl

theorem ofNat_succ_mul (n : Nat) (w : BitVec 32) :
    BitVec.ofNat 32 (n + 1) * w = BitVec.ofNat 32 n * w + w := by
  rw [BitVec.ofNat_add, BitVec.add_mul, BitVec.one_mul]

/-- The rectangle of a character and what is under it, wherever the coordinates wrap. -/
theorem glyph_eq (x y : BitVec 32) (n : Nat) {c : BitVec 8} (hc : printable c = true) :
    (⟨x + BitVec.ofNat 32 n * font.cwidth, y,
      x + BitVec.ofNat 32 n * font.cwidth + font.cwidth - (x + BitVec.ofNat 32 n * font.cwidth),
      y + font.cheight - y,
      (ofChar signed c - 32) * font.cwidth - (x + BitVec.ofNat 32 n * font.cwidth) +
        (x + BitVec.ofNat 32 n * font.cwidth), 0 - y + y, some font.texture⟩ : Glyph) = glyphAt font x y n c := by
  have hsub : ∀ a w : BitVec 32, a + w - a = w := fun a w => by rw [BitVec.add_comm, BitVec.add_sub_cancel]
  simp only [glyphAt, ofChar_eq signed hc, hsub, BitVec.sub_add_cancel]

/-- Of a library that copies the font's texture. -/
theorem textLoop_spec (x y : BitVec 32) (s : List (BitVec 8)) (n : Nat) (gl : Gl)
    (hgl : gl.source = some font.texture) :
    (glyphs gl (textLoop signed font y (x + BitVec.ofNat 32 n * font.cwidth) s).1 =
      ((s.zipIdx n).filter fun p => printable p.1).map fun p => glyphAt font x y p.2 p.1) ∧
    (textLoop signed font y (x + BitVec.ofNat 32 n * font.cwidth) s).2 =
      x + BitVec.ofNat 32 (n + s.length) * font.cwidth := by
  induction s generalizing n gl with
  | nil => exact ⟨rfl, rfl⟩
  | cons c s ih =>
    have hnext : x + BitVec.ofNat 32 n * font.cwidth + font.cwidth = x + BitVec.ofNat 32 (n + 1) * font.cwidth := by
      rw [ofNat_succ_mul, BitVec.add_assoc]
    have hrest := fun s t => (ih (n + 1) { gl with s := s, t := t } hgl).1
    have hx := (ih (n + 1) gl hgl).2
    simp only [textLoop, List.zipIdx_cons, List.length_cons]
    constructor
    · by_cases hc : printable c = true
      · rw [if_pos ((ofChar_lt_iff signed c).mpr hc), glyphs_glyph_append, hgl,
          List.filter_cons_of_pos (p := fun q : BitVec 8 × Nat => printable q.1) hc, List.map_cons,
          glyph_eq signed font x y n hc, hnext, hrest]
      · rw [if_neg (mt (ofChar_lt_iff signed c).mp hc),
          List.filter_cons_of_neg (p := fun q : BitVec 8 × Nat => printable q.1) hc, List.nil_append, hnext,
          (ih (n + 1) gl hgl).1]
    · rw [hnext, hx, Nat.add_right_comm, Nat.add_assoc]

/-- What is drawn, whatever the library was left with. -/
theorem gr_text_draws (x y : BitVec 32) (s : List (BitVec 8)) (gl : Gl) :
    glyphs gl (gr_text signed font x y s).1 =
      (s.zipIdx.filter fun p => printable p.1).map fun p => glyphAt font x (y - font.ascent) p.2 p.1 := by
  have hspec := (textLoop_spec signed font x (y - font.ascent) s 0
    ⟨some font.texture, .replace, .oneToOne, .oneToOne, true, gl.s, gl.t⟩ rfl).1
  have h0 : x + BitVec.ofNat 32 0 * font.cwidth = x := by simp
  rw [h0] at hspec
  exact hspec

/-- Whatever the library was left with, each printable character is drawn at its own place as a copy of
its own cell, in order, and nothing else is; the place after the last one is returned. -/
theorem gr_text_glyphs (x y : BitVec 32) (s : List (BitVec 8)) :
    (∀ gl, glyphs gl (gr_text signed font x y s).1 =
      (s.zipIdx.filter fun p => printable p.1).map (fun p => glyphAt font x (y - font.ascent) p.2 p.1)) ∧
    (gr_text signed font x y s).2 = x + gr_measure font s := by
  refine ⟨gr_text_draws signed font x y s, ?_⟩
  have hx := (textLoop_spec signed font x (y - font.ascent) s 0
    ⟨some font.texture, .replace, .oneToOne, .oneToOne, true, 0, 0⟩ rfl).2
  have h0 : x + BitVec.ofNat 32 0 * font.cwidth = x := by simp
  rw [h0] at hx
  simp only [gr_text, gr_measure, hx, Nat.zero_add]
  rw [BitVec.mul_comm]

end

/-- The texture is wide and high enough for its 96 cells, and covered by the pixels of the font. -/
structure Sound (font : Font) (px : List Bool) : Prop where
  pixels : font.pixels = some px
  wide : 96 * font.cwidth.toNat ≤ font.width.toNat
  high : font.cheight.toNat ≤ font.height.toNat
  block : font.width.toNat * font.height.toNat < 2 ^ 32
  covered : font.block ≤ px.length

theorem Sound.block_eq {font : Font} {px : List Bool} (h : Sound font px) :
    font.block = font.width.toNat * font.height.toNat := by
  rw [Font.block, BitVec.toNat_mul, Nat.mod_eq_of_lt h.block]

theorem Sound.cell {font : Font} {px : List Bool} (h : Sound font px) {c : BitVec 8} (hc : printable c = true) :
    (BitVec.ofNat 32 (c.toNat - 32) * font.cwidth).toNat = (c.toNat - 32) * font.cwidth.toNat := by
  have hlt := sub_lt_of_printable hc
  have hle : (c.toNat - 32) * font.cwidth.toNat ≤ 96 * font.cwidth.toNat := Nat.mul_le_mul_right _ hlt.le
  have hwide := h.wide
  have hw := font.width.isLt
  rw [BitVec.toNat_mul, BitVec.toNat_ofNat, Nat.mod_eq_of_lt (show c.toNat - 32 < 2 ^ 32 by omega),
    Nat.mod_eq_of_lt (by omega)]

/-- Whatever is drawn with a sound font is a copy of its texture, and every pixel of it comes from inside
the block, from a place that the unpacking has written. -/
theorem gr_text_reads {font : Font} {px : List Bool} (hsound : Sound font px) {g : GRFont}
    (hg : gr_init_font font = some g) (signed : Bool) (x y : BitVec 32) (s : List (BitVec 8)) (gl : Gl) :
    ∀ glyph ∈ glyphs gl (gr_text signed g x y s).1, glyph.source = some g.texture ∧
      ∀ k, k < glyph.width.toNat → ∀ row, row < glyph.height.toNat →
        (glyph.cellY.toNat + row) * g.texture.stride.toNat + (glyph.cellX.toNat + k) < font.block ∧
        (g.texture.data.cells
          ((glyph.cellY.toNat + row) * g.texture.stride.toNat + (glyph.cellX.toNat + k))).isSome := by
  obtain ⟨g', hg', hw, -, hstride, hcw, hch, hholds⟩ := gr_init_font_of_pixels hsound.pixels
  obtain rfl : g' = g := Option.some.inj (hg'.symm.trans hg)
  intro glyph hglyph
  rw [gr_text_draws signed g' x y s gl] at hglyph
  obtain ⟨⟨c, i⟩, hmem, rfl⟩ := List.mem_map.mp hglyph
  refine ⟨rfl, fun k hk row hrow => ?_⟩
  have hc : printable c = true := by simpa using (List.mem_filter.mp hmem).2
  simp only [glyphAt, hcw, hch] at hk hrow
  simp only [glyphAt, hcw, hstride, hsound.cell hc, show (0 : BitVec 32).toNat = 0 from rfl, Nat.zero_add]
  have hcell : (c.toNat - 32) * font.cwidth.toNat + k < font.width.toNat := by
    calc (c.toNat - 32) * font.cwidth.toNat + k < (c.toNat - 32) * font.cwidth.toNat + font.cwidth.toNat := by omega
      _ = (c.toNat - 32 + 1) * font.cwidth.toNat := by rw [Nat.succ_mul]
      _ ≤ 96 * font.cwidth.toNat := Nat.mul_le_mul_right _ (sub_lt_of_printable hc)
      _ ≤ font.width.toNat := hsound.wide
  have hplace : row * font.width.toNat + ((c.toNat - 32) * font.cwidth.toNat + k) < font.block := by
    rw [hsound.block_eq]
    calc row * font.width.toNat + ((c.toNat - 32) * font.cwidth.toNat + k)
        < row * font.width.toNat + font.width.toNat := by omega
      _ = (row + 1) * font.width.toNat := by rw [Nat.succ_mul]
      _ ≤ font.height.toNat * font.width.toNat :=
        Nat.mul_le_mul_right _ (Nat.le_trans hrow hsound.high)
      _ = font.width.toNat * font.height.toNat := Nat.mul_comm _ _
  refine ⟨hplace, (hholds.covers_iff font.block).mpr ?_ _ hplace⟩
  rw [List.length_map]
  exact hsound.covered

/-- A font of one row of one-pixel glyphs, all black. -/
def dots : Font := ⟨96, 1, 1, 1, [96, 0]⟩

theorem sound_dots : Sound dots (List.replicate 96 false) :=
  ⟨by rfl, by decide, by decide, by decide, by decide⟩

def dotsFont : GRFont := (gr_init_font dots).get (by rfl)

/-- The `A`, after whatever was drawn before. -/
theorem gr_text_reads_dots : (0 + 0) * 96 + (33 + 0) < dots.block ∧
    (dotsFont.texture.data.cells ((0 + 0) * 96 + (33 + 0))).isSome := by
  have hmem : glyphAt dotsFont 5 (7 - dotsFont.ascent) 0 65 ∈ glyphs ⟨none, .modulate, .automatic, .automatic, false, 3, 4⟩
      (gr_text false dotsFont 5 7 [65, 200, 66]).1 := by
    rw [gr_text_draws]
    exact List.mem_map.mpr ⟨(65, 0), by decide, rfl⟩
  exact (gr_text_reads sound_dots (by rfl) false 5 7 [65, 200, 66] _ _ hmem).2 0 (by decide) 0 (by decide)

end RecoveryFont
