import Mathlib.Logic.Basic

/-!
# Programs that share a machine

A program makes calls and goes on with their answers; where it waits for nothing it returns. Other
programs run between two of its calls, so a call's answer is not known to the program alone: a
contract says, by a view of the shared state, what a program may call and what it may be answered.
-/
namespace Programs

variable {Call : Type} {Answer : Call → Type} {ρ τ ν : Type}

inductive Prog (Call : Type) (Answer : Call → Type) (ρ : Type) where
  | ret (r : ρ)
  | call (c : Call) (k : Answer c → Prog Call Answer ρ)

namespace Prog

def bind : Prog Call Answer ρ → (ρ → Prog Call Answer τ) → Prog Call Answer τ
  | ret r, f => f r
  | call c k, f => call c fun a => (k a).bind f

instance : Monad (Prog Call Answer) where
  pure := ret
  bind := bind

/-- The call alone. -/
def lift (c : Call) : Prog Call Answer (Answer c) := call c ret

@[simp] theorem pure_eq (r : ρ) : (pure r : Prog Call Answer ρ) = ret r := rfl
@[simp] theorem ret_bind (r : ρ) (f : ρ → Prog Call Answer τ) : ret r >>= f = f r := rfl
@[simp] theorem call_bind (c : Call) (k : Answer c → Prog Call Answer ρ) (f : ρ → Prog Call Answer τ) :
    call c k >>= f = call c fun a => k a >>= f := rfl
@[simp] theorem lift_bind (c : Call) (f : Answer c → Prog Call Answer τ) : lift c >>= f = call c f := rfl

/-- The body up to `n` times, until it gives a result. -/
def attempts : Nat → Prog Call Answer (Option ρ) → Prog Call Answer (Option ρ)
  | 0, _ => ret none
  | n + 1, body => body >>= fun
    | some r => ret (some r)
    | none => attempts n body

/-! ## The number of calls -/

/-- No path makes more than `n` calls. -/
def Within : Prog Call Answer ρ → Nat → Prop
  | ret _, _ => True
  | call _ _, 0 => False
  | call _ k, n + 1 => ∀ a, (k a).Within n

theorem Within.mono {p : Prog Call Answer ρ} {m n : Nat} (h : p.Within m) (hmn : m ≤ n) : p.Within n := by
  induction p generalizing m n with
  | ret => trivial
  | call c k ih =>
    cases m with
    | zero => exact h.elim
    | succ m =>
      obtain ⟨n, rfl⟩ : ∃ n', n = n' + 1 := ⟨n - 1, by omega⟩
      exact fun a => ih a (h a) (by omega)

theorem Within.bind {p : Prog Call Answer ρ} {f : ρ → Prog Call Answer τ} {m n : Nat} (hp : p.Within m)
    (hf : ∀ r, (f r).Within n) : (p >>= f).Within (m + n) := by
  induction p generalizing m with
  | ret r => exact (hf r).mono (by omega)
  | call c k ih =>
    cases m with
    | zero => exact hp.elim
    | succ m =>
      rw [call_bind, show m + 1 + n = m + n + 1 from by omega]
      exact fun a => ih a (hp a)

theorem Within.attempts {body : Prog Call Answer (Option ρ)} {m : Nat} (h : body.Within m) (n : Nat) :
    (attempts n body).Within (n * m) := by
  induction n with
  | zero => trivial
  | succ n ih =>
    rw [show (n + 1) * m = m + n * m from by rw [Nat.succ_mul, Nat.add_comm]]
    refine h.bind fun r => ?_
    cases r with
    | some r => trivial
    | none => exact ih

end Prog

open Prog

/-! ## Contracts -/

structure Contract (Call : Type) (Answer : Call → Type) (ν : Type) where
  /-- what the program may call -/
  allowed : ν → Call → Prop
  /-- what the others may let it be answered -/
  possible : ν → (c : Call) → Answer c → Prop
  /-- the view after the call -/
  next : ν → (c : Call) → Answer c → ν

/-- Every path of possible answers makes allowed calls only, and returns what `Q` says. -/
def Keeps (K : Contract Call Answer ν) (Q : ρ → ν → Prop) : Prog Call Answer ρ → ν → Prop
  | ret r, v => Q r v
  | call c k, v => K.allowed v c ∧ ∀ a, K.possible v c a → Keeps K Q (k a) (K.next v c a)

section
variable {K : Contract Call Answer ν} {Q R : ρ → ν → Prop} {v : ν}

@[simp] theorem keeps_ret {r : ρ} : Keeps K Q (ret r) v ↔ Q r v := Iff.rfl
@[simp] theorem keeps_call {c : Call} {k : Answer c → Prog Call Answer ρ} :
    Keeps K Q (call c k) v ↔
      K.allowed v c ∧ ∀ a, K.possible v c a → Keeps K Q (k a) (K.next v c a) := Iff.rfl

theorem Keeps.mono {p : Prog Call Answer ρ} (hQR : ∀ r v, Q r v → R r v) (h : Keeps K Q p v) :
    Keeps K R p v := by
  induction p generalizing v with
  | ret r => exact hQR r v h
  | call c k ih => exact ⟨h.1, fun a ha => ih a (h.2 a ha)⟩

/-- What comes first hands its result and its view on. -/
theorem keeps_bind {p : Prog Call Answer ρ} {f : ρ → Prog Call Answer τ} {S : τ → ν → Prop} :
    Keeps K S (p >>= f) v ↔ Keeps K (fun r v => Keeps K S (f r) v) p v := by
  induction p generalizing v with
  | ret r => exact Iff.rfl
  | call c k ih => exact and_congr_right fun _ => forall₂_congr fun a _ => ih a

/-- The rule of the loop: what each attempt without a result keeps. -/
theorem keeps_attempts {body : Prog Call Answer (Option ρ)} {S : Option ρ → ν → Prop} (I : ν → Prop)
    (hbody : ∀ v, I v → Keeps K (fun r v => (r = none → I v) ∧ (r ≠ none → S r v)) body v)
    (hnone : ∀ v, I v → S none v) (n : Nat) (h : I v) : Keeps K S (attempts n body) v := by
  induction n generalizing v with
  | zero => exact hnone v h
  | succ n ih =>
    refine keeps_bind.mpr ((hbody v h).mono fun r u hu => ?_)
    cases r with
    | some r => exact hu.2 (by simp)
    | none => exact ih (hu.1 rfl)

end

end Programs
