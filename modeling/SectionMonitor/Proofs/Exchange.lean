import Mathlib.Data.Nat.Notation
import SectionMonitor.Exchange.Basic

/-!
# Exchanges under any answers

An exchange leaves open who answers its steps, and for what a process does to its own monitor the
answers do not matter: `Exchange.Always P` says that whatever is answered, the exchange ends in a
value with `P`. A concrete source of answers, a `Transport`, is one of the many that `Always`
speaks of.
-/

namespace SectionMonitor

/-- How the collective steps of one process are answered: by the number of the step and by what
the process hands over. Nothing is assumed about the answers. -/
structure Transport where
  rank : ℕ
  size : ℕ
  reals : ℕ → Float → List Float
  counts : ℕ → Count → List Count
  buffers : ℕ → Buffer → List Buffer
  broadcast : ℕ → Buffer → Buffer

/-- The answers that a process gets that is alone: its own values, and its own buffer. -/
def Transport.alone : Transport where
  rank := 0
  size := 1
  reals _ v := [v]
  counts _ v := [v]
  buffers _ b := [b]
  broadcast _ b := b

namespace Exchange

variable {α β : Type}

/-! ## Any answers -/

/-- The value in which an exchange ends with the answers of a transport; its first step has the
number `k`. -/
def answeredBy (t : Transport) : Exchange α → ℕ → α
  | done a, _ => a
  | gatherReal v next, k => (next (t.reals k v)).answeredBy t (k + 1)
  | gatherCount v next, k => (next (t.counts k v)).answeredBy t (k + 1)
  | gatherBuffer b next, k => (next (t.buffers k b)).answeredBy t (k + 1)
  | broadcast b next, k => (next (t.broadcast k b)).answeredBy t (k + 1)
  | barrier next, k => next.answeredBy t (k + 1)

/-- A value that is only put in another form takes no steps. -/
theorem answeredBy_bind_done (t : Transport) (x : Exchange α) (f : α → β) (k : ℕ) :
    (x.bind fun a ↦ done (f a)).answeredBy t k = f (x.answeredBy t k) := by
  induction x generalizing k with
  | done a => rfl
  | gatherReal v next ih => exact ih _ _
  | gatherCount v next ih => exact ih _ _
  | gatherBuffer b next ih => exact ih _ _
  | broadcast b next ih => exact ih _ _
  | barrier next ih => exact ih _

/-- Whatever the steps are answered, the value has the property. -/
def Always (P : α → Prop) : Exchange α → Prop
  | done a => P a
  | gatherReal _ next => ∀ vs, (next vs).Always P
  | gatherCount _ next => ∀ vs, (next vs).Always P
  | gatherBuffer _ next => ∀ bs, (next bs).Always P
  | broadcast _ next => ∀ b, (next b).Always P
  | barrier next => next.Always P

theorem Always.answeredBy {P : α → Prop} {x : Exchange α} (h : x.Always P) (t : Transport) (k : ℕ) :
    P (x.answeredBy t k) := by
  induction x generalizing k with
  | done a => exact h
  | gatherReal v next ih => exact ih _ (h _) _
  | gatherCount v next ih => exact ih _ (h _) _
  | gatherBuffer b next ih => exact ih _ (h _) _
  | broadcast b next ih => exact ih _ (h _) _
  | barrier next ih => exact ih h _

theorem always_of_forall {P : α → Prop} (h : ∀ a, P a) (x : Exchange α) : x.Always P := by
  induction x with
  | done a => exact h a
  | gatherReal v next ih => exact ih
  | gatherCount v next ih => exact ih
  | gatherBuffer b next ih => exact ih
  | broadcast b next ih => exact ih
  | barrier next ih => exact ih

theorem Always.bind {P : α → Prop} {Q : β → Prop} {x : Exchange α} {f : α → Exchange β}
    (h : x.Always P) (hf : ∀ a, P a → (f a).Always Q) : (x.bind f).Always Q := by
  induction x with
  | done a => exact hf a h
  | gatherReal v next ih => exact fun vs ↦ ih vs (h vs)
  | gatherCount v next ih => exact fun vs ↦ ih vs (h vs)
  | gatherBuffer b next ih => exact fun bs ↦ ih bs (h bs)
  | broadcast b next ih => exact fun b' ↦ ih b' (h b')
  | barrier next ih => exact ih h

theorem Always.mono {P Q : α → Prop} {x : Exchange α} (h : x.Always P) (hPQ : ∀ a, P a → Q a) :
    x.Always Q := by
  have hdone : ∀ a, P a → (done a).Always Q := hPQ
  simpa using h.bind hdone

end Exchange

end SectionMonitor
