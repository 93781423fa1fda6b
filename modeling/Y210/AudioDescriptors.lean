import Y210.AudioStreams
import Y210.Ledger

/-!
# The descriptors of the PCM nodes

The log of a node as a ledger of its descriptors: `open` hands one out, `close` takes it
back, and every other call uses one.
-/
namespace AudioDescriptors

open AudioDrivers AudioHardware AudioStreams

def pcmEvents : Ledger.Events PcmCall Int where
  acquires
    | .opened fd => some fd
    | _ => none
  releases
    | .closed fd => some fd
    | _ => none
  uses
    | .opened _ | .openFailed => none
    | .closed fd | .getConfig fd _ | .setConfig fd _ _ | .setVoicememo fd _ _ | .getVoicememo fd _
    | .started fd _ | .wrote fd _ | .read fd _ => some fd

/-- The log of a node whose clients hold the descriptors `held`. -/
structure NodeLog (held : Int → Prop) (log : List PcmCall) : Prop where
  inOrder : Ledger.InOrder pcmEvents held log
  fresh : ∀ fd, fd < 0 ∨ (log.length : Int) ≤ fd → Ledger.acquired pcmEvents log fd = 0

namespace NodeLog

variable {held : Int → Prop} {log : List PcmCall}

theorem nil : NodeLog (fun _ => False) [] := ⟨Ledger.inOrder_nil pcmEvents, fun _ _ => rfl⟩

theorem congr {held' : Int → Prop} (h : NodeLog held log) (he : ∀ fd, held' fd ↔ held fd) :
    NodeLog held' log := ⟨h.inOrder.congr he, h.fresh⟩

/-- A held descriptor is the position of an `open` in the log. -/
theorem held_bounds (h : NodeLog held log) {fd : Int} (hfd : held fd) : 0 ≤ fd ∧ fd < log.length := by
  by_contra hout
  have hnone := h.fresh fd (by omega)
  have hlive := (h.inOrder.live fd hfd).1
  omega

/-- A call on a held descriptor. -/
theorem use (h : NodeLog held log) {c : PcmCall} (ha : pcmEvents.acquires c = none)
    (hr : pcmEvents.releases c = none) (hu : ∀ fd ∈ pcmEvents.uses c, held fd) : NodeLog held (c :: log) := by
  constructor
  · exact h.inOrder.use ha hr hu
  · intro fd hfd
    have hnone := h.fresh fd (by rw [List.length_cons] at hfd; omega)
    rw [Ledger.acquired_cons, hnone, ha, if_neg (by rintro ⟨⟩)]

theorem openFailed (h : NodeLog held log) : NodeLog held (.openFailed :: log) :=
  h.use rfl rfl fun fd hfd => by cases hfd

/-- The next position of the log is a new descriptor. -/
theorem opened (h : NodeLog held log) :
    NodeLog (fun fd => fd = log.length ∨ held fd) (.opened log.length :: log) := by
  constructor
  · exact h.inOrder.acquire rfl rfl rfl (h.fresh _ (.inr le_rfl))
  · intro fd hfd
    rw [List.length_cons] at hfd
    have hnone := h.fresh fd (by omega)
    rw [Ledger.acquired_cons, hnone, if_neg]
    intro he
    have := Option.some.inj he
    omega

/-- A held descriptor is closed. -/
theorem closed (h : NodeLog held log) {fd : Int} (hfd : held fd) :
    NodeLog (fun fd' => held fd' ∧ fd' ≠ fd) (.closed fd :: log) := by
  constructor
  · exact h.inOrder.release rfl rfl (fun fd' hu => (Option.some.inj hu).symm) hfd
  · intro fd' hfd'
    have hnone := h.fresh fd' (by rw [List.length_cons] at hfd'; omega)
    rw [Ledger.acquired_cons, hnone, if_neg (by rintro ⟨⟩)]

/-- The calls that a client makes on its descriptor `fd` between `open` and `close`. -/
def Requests (fd : Int) (calls : List PcmCall) : Prop := ∀ c ∈ calls,
  pcmEvents.acquires c = none ∧ pcmEvents.releases c = none ∧ pcmEvents.uses c = some fd

theorem requests (h : NodeLog held log) {fd : Int} (hfd : held fd) {calls : List PcmCall}
    (hc : Requests fd calls) : NodeLog held (calls ++ log) := by
  induction calls with
  | nil => exact h
  | cons c calls ih =>
    obtain ⟨ha, hr, hu⟩ := hc c List.mem_cons_self
    refine (ih fun c' hc' => hc c' (List.mem_cons_of_mem _ hc')).use ha hr fun fd' hu' => ?_
    obtain rfl := Option.some.inj (hu.symm.trans hu')
    exact hfd

/-- A node that is opened and asked keeps its descriptor. -/
theorem kept (h : NodeLog held log) {calls : List PcmCall} (hc : Requests log.length calls) :
    NodeLog (fun fd => fd = log.length ∨ held fd) (calls ++ .opened log.length :: log) :=
  h.opened.requests (.inl rfl) hc

/-- The descriptor that a client got on top of `held` is closed again. -/
theorem reclosed (h : NodeLog held log) {calls : List PcmCall}
    (hc : NodeLog (fun fd => fd = log.length ∨ held fd) calls) : NodeLog held (.closed log.length :: calls) := by
  refine (hc.closed (.inl rfl)).congr fun fd => ?_
  constructor
  · intro hfd
    refine ⟨.inr hfd, ?_⟩
    rintro rfl
    exact absurd (h.held_bounds hfd).2 (lt_irrefl _)
  · rintro ⟨rfl | hfd, hne⟩
    · exact absurd rfl hne
    · exact hfd

/-- A node that is opened, asked and closed has none. -/
theorem discarded (h : NodeLog held log) {calls : List PcmCall} (hc : Requests log.length calls) :
    NodeLog held (.closed log.length :: (calls ++ .opened log.length :: log)) :=
  h.reclosed (h.kept hc)

end NodeLog

end AudioDescriptors
