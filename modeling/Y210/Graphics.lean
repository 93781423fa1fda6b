import Mathlib.Data.List.Pairwise
import Y210.Ledger
import Y210.Run

/-!
# The recovery's frame buffer

`graphics.c` draws into a memory surface, whose pixels are either its own block or, with
a single buffer, the mapped frame buffer. The heap calls are logged, newest first.
-/
namespace Graphics

/-- Null, the block of the `malloc` behind so many heap calls, or a place in a mapping. -/
inductive Ptr where
  | null
  | heap (block : Nat)
  | mapped (map : Nat) (offset : BitVec 32)
  deriving DecidableEq, Repr

/-- A call of the allocator; `exited` marks the end of a `gr_exit`. -/
inductive HeapCall where
  | malloc (block : Option Nat)
  | free (p : Ptr)
  | exited
  deriving DecidableEq, Repr

structure GGLSurface where
  width : BitVec 32
  height : BitVec 32
  stride : BitVec 32
  data : Ptr
  deriving DecidableEq, Repr

/-- `fb_var_screeninfo`. -/
structure VarScreeninfo where
  xres : BitVec 32
  yres : BitVec 32
  yres_virtual : BitVec 32
  yoffset : BitVec 32
  bits_per_pixel : BitVec 32
  deriving DecidableEq, Repr

/-- `fb_fix_screeninfo`. -/
structure FixScreeninfo where
  smem_len : BitVec 32
  line_length : BitVec 32
  deriving DecidableEq, Repr

/-- The static variables, the number of mappings made and the heap calls. -/
structure State where
  gr_framebuffer : GGLSurface × GGLSurface
  gr_mem_surface : GGLSurface
  gr_active_fb : Nat
  gr_single_buffer : Bool
  gr_fb_fd : Int
  gr_vt_fd : Int
  vi : VarScreeninfo
  fi : FixScreeninfo
  maps : Nat
  heap : List HeapCall

/-- What `get_framebuffer` is answered. -/
structure FbAnswers where
  opened : Option Nat
  fscreeninfo : Option FixScreeninfo
  vscreeninfo : Option VarScreeninfo
  mmap : Bool

/-- What a `gr_init` is answered; `put` are the two `FBIOPUT_VSCREENINFO`. -/
structure InitAnswers where
  vtOpened : Option Nat
  kdGraphics : Bool
  fb : FbAnswers
  malloc : Bool
  put : Bool

/-! ## The functions -/

def get_framebuffer (a : FbAnswers) (s : State) : State × Int :=
  match a.opened with
  | none => (s, -1)
  | some fd =>
    match a.fscreeninfo with
    | none => (s, -1)
    | some fi =>
      let s := { s with fi := fi }
      match a.vscreeninfo with
      | none => (s, -1)
      | some vi =>
        let s := { s with vi := vi }
        if a.mmap = false then (s, -1)
        else
          let front : GGLSurface := ⟨vi.xres, vi.yres, fi.line_length / 2, .mapped s.maps 0⟩
          -- the second frame is used only where the mapping has room for it
          let back := if 2 * vi.yres * fi.line_length ≤ fi.smem_len then
              { front with data := .mapped s.maps (vi.yres * fi.line_length) }
            else front
          ({ s with gr_framebuffer := (front, back), maps := s.maps + 1 }, fd)

def get_memory_surface (malloc : Bool) (s : State) : State :=
  let block := if malloc then some s.heap.length else none
  { s with
    gr_mem_surface := ⟨s.vi.xres, s.vi.yres, s.fi.line_length / 2, (block.map Ptr.heap).getD .null⟩
    heap := .malloc block :: s.heap }

def set_active_framebuffer (put : Bool) (n : Nat) (s : State) : State :=
  if 1 < n then s
  else
    let vi := { s.vi with bits_per_pixel := 16 }
    let single := { vi with yres_virtual := vi.yres, yoffset := 0 }
    if s.gr_single_buffer then { s with vi := single }
    else if put then
      { s with vi := { vi with yres_virtual := vi.yres * 2, yoffset := BitVec.ofNat 32 n * vi.yres } }
    else { s with gr_single_buffer := true, vi := single }

/-- The copy of the pixels, made with two buffers only, is not part of the model. -/
def gr_flip (put : Bool) (s : State) : State :=
  let fb := if s.gr_single_buffer then 0 else (s.gr_active_fb + 1) &&& 1
  set_active_framebuffer put fb { s with gr_active_fb := fb }

def gr_exit (s : State) : State :=
  { s with gr_fb_fd := -1, gr_vt_fd := -1, heap := .exited :: .free s.gr_mem_surface.data :: s.heap }

/-- The block of `gr_init` behind the two devices. -/
def startDrawing (a : InitAnswers) (s : State) : State :=
  let s := get_memory_surface a.malloc s
  let s := if s.gr_single_buffer then
      { s with gr_mem_surface := { s.gr_mem_surface with
        data := s.gr_framebuffer.1.data, stride := s.gr_framebuffer.1.stride } }
    else s
  set_active_framebuffer a.put 0 { s with gr_active_fb := 0 }

/-- `gr_fb_fd` becomes what `get_framebuffer` returns. -/
def openFb (a : FbAnswers) (s : State) : State :=
  { (get_framebuffer a s).1 with gr_fb_fd := (get_framebuffer a s).2 }

def gr_init (a : InitAnswers) (s : State) : State × Int :=
  let s := { s with gr_vt_fd := (a.vtOpened.map Int.ofNat).getD (-1) }
  if a.vtOpened.isSome ∧ a.kdGraphics = false then (gr_exit s, -1)
  else
    let s := openFb a.fb s
    if s.gr_fb_fd < 0 then (gr_exit s, -1)
    else (startDrawing a s, 0)

inductive Op where
  | gr_init (a : InitAnswers)
  | gr_flip (put : Bool)
  | gr_exit

def step (s : State) : Op → State
  | .gr_init a => (gr_init a s).1
  | .gr_flip put => gr_flip put s
  | .gr_exit => gr_exit s

def noSurface : GGLSurface := ⟨0, 0, 0, .null⟩

/-- The static variables of a program that has just started. -/
def start : State :=
  ⟨(noSurface, noSurface), noSurface, 0, true, -1, -1, ⟨0, 0, 0, 0, 0⟩, ⟨0, 0⟩, 0, []⟩

/-! ## The heap -/

/-- `malloc` hands a block out, `free` takes one back that must be out; `free` of null is
nothing. -/
def blocks : Ledger.Events HeapCall Ptr where
  acquires
    | .malloc block => block.map Ptr.heap
    | _ => none
  releases
    | .free p => if p = .null then none else some p
    | _ => none
  uses
    | .free p => if p = .null then none else some p
    | _ => none

/-- Nothing is out at the end of each `gr_exit`. -/
def NoneLeft : List HeapCall → Prop
  | [] => True
  | .exited :: older => (∀ p, ¬ Ledger.Live blocks older p) ∧ NoneLeft older
  | _ :: older => NoneLeft older

/-- Each pointer that was freed is null or a block that was out, and each `gr_exit` left
nothing. -/
def Clean (s : State) : Prop := Ledger.UsesLive blocks s.heap ∧ NoneLeft s.heap

/-- The frame buffer could be opened, asked and mapped. -/
def FbAnswers.mapped (a : FbAnswers) : Bool :=
  a.opened.isSome && a.fscreeninfo.isSome && a.vscreeninfo.isSome && a.mmap

/-- The `gr_init` that is answered so gives up. -/
def InitAnswers.failing (a : InitAnswers) : Bool := a.vtOpened.isSome && !a.kdGraphics || !a.fb.mapped

/-- The call makes a surface. -/
def Op.surfaces : Op → Bool
  | .gr_init a => !a.failing
  | _ => false

/-- The call is a `gr_exit` or ends in one. -/
def Op.exits : Op → Bool
  | .gr_init a => a.failing
  | .gr_flip _ => false
  | .gr_exit => true

/-! ## What the calls do to the surface -/

/-- All but the surface may differ. -/
structure SameSurface (s s' : State) : Prop where
  gr_single_buffer : s'.gr_single_buffer = s.gr_single_buffer
  data : s'.gr_mem_surface.data = s.gr_mem_surface.data
  heap : s'.heap = s.heap

theorem SameSurface.refl (s : State) : SameSurface s s := ⟨rfl, rfl, rfl⟩

theorem openFb_surface (a : FbAnswers) (s : State) : SameSurface s (openFb a s) := by
  unfold openFb get_framebuffer
  repeat' split
  all_goals exact ⟨rfl, rfl, rfl⟩

theorem openFb_negative (a : FbAnswers) (s : State) : (openFb a s).gr_fb_fd < 0 ↔ a.mapped = false := by
  unfold openFb get_framebuffer FbAnswers.mapped
  cases a.opened <;> cases a.fscreeninfo <;> cases a.vscreeninfo <;> cases a.mmap <;> simp

/-- A mapped frame buffer is not on the heap. -/
theorem openFb_mapped {a : FbAnswers} (h : a.mapped = true) (s : State) :
    (openFb a s).gr_framebuffer.1.data = .mapped s.maps 0 := by
  simp only [FbAnswers.mapped, Bool.and_eq_true, Option.isSome_iff_exists] at h
  obtain ⟨⟨⟨⟨fd, hfd⟩, fi, hfi⟩, vi, hvi⟩, hm⟩ := h
  simp [openFb, get_framebuffer, hfd, hfi, hvi, hm]

theorem set_active_framebuffer_surface (put : Bool) (n : Nat) {s : State} (hs : s.gr_single_buffer = true) :
    SameSurface s (set_active_framebuffer put n s) := by
  unfold set_active_framebuffer
  dsimp only
  rw [if_pos hs]
  split <;> exact ⟨rfl, rfl, rfl⟩

theorem gr_flip_surface (put : Bool) {s : State} (hs : s.gr_single_buffer = true) :
    SameSurface s (gr_flip put s) := by
  have h := set_active_framebuffer_surface put 0 (s := { s with gr_active_fb := 0 }) hs
  unfold gr_flip
  rw [if_pos hs]
  exact ⟨h.1, h.2, h.3⟩

/-- With a single buffer the surface is the frame buffer, and the block of `malloc` is lost. -/
theorem startDrawing_single (a : InitAnswers) {s : State} (hs : s.gr_single_buffer = true) :
    (startDrawing a s).gr_single_buffer = true ∧
    (startDrawing a s).gr_mem_surface.data = s.gr_framebuffer.1.data ∧
    ∃ block, (startDrawing a s).heap = .malloc block :: s.heap := by
  have hsingle : (get_memory_surface a.malloc s).gr_single_buffer = true := hs
  unfold startDrawing
  dsimp only
  rw [if_pos hsingle]
  have h := set_active_framebuffer_surface a.put 0 (s := { get_memory_surface a.malloc s with
    gr_active_fb := 0, gr_mem_surface := { (get_memory_surface a.malloc s).gr_mem_surface with
      data := s.gr_framebuffer.1.data, stride := s.gr_framebuffer.1.stride } }) hs
  exact ⟨h.gr_single_buffer.trans hs, h.data, _, h.heap⟩

/-- A `gr_init` that gives up is a `gr_exit`. -/
theorem gr_init_failing {a : InitAnswers} (h : a.failing = true) (s : State) :
    ∃ s', SameSurface s s' ∧ (gr_init a s).1 = gr_exit s' := by
  unfold gr_init
  dsimp only
  by_cases hvt : a.vtOpened.isSome = true ∧ a.kdGraphics = false
  · rw [if_pos hvt]
    exact ⟨_, ⟨rfl, rfl, rfl⟩, rfl⟩
  · have hfb : a.fb.mapped = false := by
      unfold InitAnswers.failing at h
      cases hm : a.fb.mapped <;> simp_all
    rw [if_neg hvt, if_pos ((openFb_negative _ _).mpr hfb)]
    have hopen := openFb_surface a.fb { s with gr_vt_fd := (a.vtOpened.map Int.ofNat).getD (-1) }
    exact ⟨_, ⟨hopen.1, hopen.2, hopen.3⟩, rfl⟩

/-- One that does not give up leaves a surface that is mapped. -/
theorem gr_init_draws {a : InitAnswers} (h : a.failing = false) {s : State} (hs : s.gr_single_buffer = true) :
    (gr_init a s).1.gr_single_buffer = true ∧
    (gr_init a s).1.gr_mem_surface.data = .mapped s.maps 0 ∧
    ∃ block, (gr_init a s).1.heap = .malloc block :: s.heap := by
  have hparts : ¬ (a.vtOpened.isSome = true ∧ a.kdGraphics = false) ∧ a.fb.mapped = true := by
    unfold InitAnswers.failing at h
    cases hm : a.fb.mapped <;> simp_all
  have hopen := openFb_surface a.fb { s with gr_vt_fd := (a.vtOpened.map Int.ofNat).getD (-1) }
  have hmap := openFb_mapped hparts.2 { s with gr_vt_fd := (a.vtOpened.map Int.ofNat).getD (-1) }
  have hneg := openFb_negative a.fb { s with gr_vt_fd := (a.vtOpened.map Int.ofNat).getD (-1) }
  obtain ⟨hsingle, hdata, block, hheap⟩ := startDrawing_single a (hopen.gr_single_buffer.trans hs)
  unfold gr_init
  dsimp only
  rw [if_neg hparts.1, if_neg (by rw [hneg, hparts.2]; decide)]
  refine ⟨hsingle, hdata.trans hmap, block, ?_⟩
  rw [hheap, hopen.heap]

/-! ## What a call does to the heap -/

/-- There is one buffer, and the surface is on no block: it is null and nothing was handed
out yet, or it is mapped. -/
structure Inv (s : State) : Prop where
  single : s.gr_single_buffer = true
  unmade : s.gr_mem_surface.data = .null → ∀ p, Ledger.acquired blocks s.heap p = 0
  mapped : ∀ block, s.gr_mem_surface.data ≠ .heap block

theorem Inv.congr {s s' : State} (h : Inv s) (hs : SameSurface s s') : Inv s' := by
  constructor
  · exact hs.gr_single_buffer.trans h.single
  · rw [hs.data, hs.heap]
    exact h.unmade
  · rw [hs.data]
    exact h.mapped

theorem clean_congr {s s' : State} (hs : SameSurface s s') : Clean s' ↔ Clean s := by
  rw [Clean, Clean, hs.heap]

/-- Only blocks are handed out. -/
theorem acquired_mapped (map : Nat) (offset : BitVec 32) (log : List HeapCall) :
    Ledger.acquired blocks log (.mapped map offset) = 0 := by
  induction log with
  | nil => rfl
  | cons call log ih =>
    rw [Ledger.acquired_cons, ih]
    cases call with
    | malloc block => cases block <;> simp [blocks]
    | free | exited => simp [blocks]

theorem inv_gr_exit {s : State} (h : Inv s) : Inv (gr_exit s) := by
  constructor
  · exact h.single
  · intro hd p
    have hp := h.unmade hd p
    simpa [gr_exit, blocks] using hp
  · exact h.mapped

/-- A `gr_exit` is clean exactly when there is no surface yet. -/
theorem clean_gr_exit {s : State} (h : Inv s) (hc : Clean s) :
    Clean (gr_exit s) ↔ s.gr_mem_surface.data = .null := by
  cases hd : s.gr_mem_surface.data with
  | null =>
    refine iff_of_true ⟨?_, ?_⟩ rfl
    · simpa [gr_exit, hd, Ledger.UsesLive, blocks] using hc.1
    · refine ⟨fun p hl => ?_, hc.2⟩
      have ha := h.unmade hd p
      have hl1 := hl.1
      rw [hd, Ledger.acquired_cons, ha] at hl1
      simp [blocks] at hl1
  | heap block => exact absurd hd (h.mapped block)
  | mapped map offset =>
    refine iff_of_false (fun hn => ?_) nofun
    have hl := hn.1.2.1 (.mapped map offset) (by simp [blocks, hd])
    have ha := hl.1
    rw [acquired_mapped] at ha
    cases ha

theorem clean_malloc {s : State} {block : Option Nat} {s' : State}
    (hheap : s'.heap = .malloc block :: s.heap) : Clean s' ↔ Clean s := by
  rw [Clean, Clean, hheap]
  simp [Ledger.UsesLive, NoneLeft, blocks]

theorem inv_step {s : State} (h : Inv s) (op : Op) : Inv (step s op) := by
  cases op with
  | gr_flip put => exact h.congr (gr_flip_surface put h.single)
  | gr_exit => exact inv_gr_exit h
  | gr_init a =>
    cases hf : a.failing with
    | true =>
      obtain ⟨s', hs, he⟩ := gr_init_failing hf s
      rw [step, he]
      exact inv_gr_exit (h.congr hs)
    | false =>
      obtain ⟨hsingle, hdata, -⟩ := gr_init_draws hf h.single
      exact ⟨hsingle, fun hn => absurd (hdata.symm.trans hn) nofun,
        fun block hb => absurd (hdata.symm.trans hb) nofun⟩

/-- A call that exits does so before any surface was made. -/
def ExitsUnmade (s : State) (op : Op) : Prop := op.exits = true → s.gr_mem_surface.data = .null

/-- One call. -/
theorem clean_step {s : State} (h : Inv s) (hc : Clean s) (op : Op) :
    Clean (step s op) ↔ ExitsUnmade s op := by
  cases op with
  | gr_flip put => exact iff_of_true ((clean_congr (gr_flip_surface put h.single)).mpr hc) nofun
  | gr_exit =>
    rw [step, clean_gr_exit h hc]
    exact ⟨fun hd _ => hd, fun he => he rfl⟩
  | gr_init a =>
    cases hf : a.failing with
    | true =>
      obtain ⟨s', hs, he⟩ := gr_init_failing hf s
      rw [step, he, clean_gr_exit (h.congr hs) ((clean_congr hs).mpr hc), hs.data]
      exact ⟨fun hd _ => hd, fun hx => hx hf⟩
    | false =>
      obtain ⟨-, -, block, hheap⟩ := gr_init_draws hf h.single
      refine iff_of_true ((clean_malloc hheap).mpr hc) fun he => ?_
      rw [Op.exits, hf] at he
      cases he

/-! ## Runs -/

/-- Once there is a surface, there is always one. -/
theorem surface_step {s : State} (h : Inv s) (op : Op) :
    (step s op).gr_mem_surface.data = .null ↔ s.gr_mem_surface.data = .null ∧ op.surfaces = false := by
  cases op with
  | gr_flip put =>
    rw [step, (gr_flip_surface put h.single).data]
    exact ⟨fun hd => ⟨hd, rfl⟩, fun hd => hd.1⟩
  | gr_exit => exact ⟨fun hd => ⟨hd, rfl⟩, fun hd => hd.1⟩
  | gr_init a =>
    cases hf : a.failing with
    | true =>
      obtain ⟨s', hs, he⟩ := gr_init_failing hf s
      rw [step, he, ← hs.data, Op.surfaces, hf]
      exact ⟨fun hd => ⟨hd, rfl⟩, fun hd => hd.1⟩
    | false =>
      obtain ⟨-, hdata, -⟩ := gr_init_draws hf h.single
      rw [step, hdata, Op.surfaces, hf]
      exact ⟨nofun, fun hd => by cases hd.2⟩

/-- With a surface no call may exit; without one none may exit behind a call that makes one. -/
theorem allSteps_exitsUnmade {s : State} (h : Inv s) (ops : List Op) :
    Run.AllSteps step ExitsUnmade s ops ↔
      (s.gr_mem_surface.data ≠ .null → ∀ op ∈ ops, op.exits = false) ∧
      ops.Pairwise fun op later => ¬ (op.surfaces = true ∧ later.exits = true) := by
  induction ops generalizing s with
  | nil => simp
  | cons op ops ih =>
    rw [Run.allSteps_cons, ih (inv_step h op), List.pairwise_cons, List.forall_mem_cons, ← and_assoc, ← and_assoc]
    refine and_congr_left fun _ => ?_
    have hs := surface_step h op
    by_cases hd : s.gr_mem_surface.data = .null
    · have hlater : (step s op).gr_mem_surface.data ≠ .null ↔ op.surfaces = true := by simp [hs, hd]
      rw [hlater]
      simp only [ExitsUnmade, hd, implies_true, ne_eq, not_true_eq_false, false_imp_iff, true_and, not_and,
        Bool.not_eq_true]
      exact forall_comm.trans (forall_congr' fun _ => forall_comm)
    · have hlater : (step s op).gr_mem_surface.data ≠ .null := fun hn => hd (hs.mp hn).1
      simp only [ExitsUnmade, hd, hlater, ne_eq, not_false_eq_true, true_imp_iff, imp_false,
        Bool.not_eq_true]
      exact ⟨fun hx => ⟨hx, fun later hl hb => absurd (hx.2 later hl) (by simp [hb.2])⟩, fun hx => hx.1⟩

/-- In every run from the start, each freed pointer is a block that is out and no surface
is left behind exactly when no call exits after a `gr_init` that did not give up. -/
theorem clean_iff (ops : List Op) :
    Run.AllStates step Clean start ops ↔
      ops.Pairwise fun op later => ¬ (op.surfaces = true ∧ later.exits = true) := by
  have hstart : Inv start := ⟨rfl, fun _ _ => rfl, nofun⟩
  rw [Run.allStates_iff_allSteps Inv (fun _ op h => inv_step h op) (fun _ op h hc => clean_step h hc op)
    hstart ⟨trivial, trivial⟩, allSteps_exitsUnmade hstart]
  exact and_iff_right fun hn => absurd rfl hn

/-- No console, a frame buffer of 320x480 with room for two frames, and a block. -/
def allOpen : InitAnswers :=
  ⟨none, true, ⟨some 3, some ⟨614400, 640⟩, some ⟨320, 480, 960, 0, 16⟩, true⟩, true, true⟩

/-- One session. -/
theorem mapping_is_freed : ¬ Run.AllStates step Clean start [.gr_init allOpen, .gr_exit] := by
  intro h
  have hfree := h.last.1.2.1 (.mapped 0 0) (by decide)
  exact absurd hfree (by decide)

end Graphics
