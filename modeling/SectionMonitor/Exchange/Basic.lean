import SectionMonitor.Count
import SectionMonitor.LabelBuffer

/-!
# Exchanges between processes

The processes of a job are numbered from rank zero. They talk in collective steps, which all of
them take in the same order: a value of every process is gathered at rank zero, or a buffer of
rank zero is handed to everybody, or everybody waits for everybody.

An exchange is what one process does: its steps, each followed by what the process does with the
answer. How answers come about is left to whoever runs the exchange.
-/

namespace SectionMonitor

/-- The collective steps of one process, which end in a value. -/
inductive Exchange (α : Type) where
  | done (a : α)
  /-- Gathers a number of every process at rank zero. -/
  | gatherReal (value : Float) (next : List Float → Exchange α)
  /-- Gathers a count of every process at rank zero. -/
  | gatherCount (value : Count) (next : List Count → Exchange α)
  /-- Gathers a buffer of every process at rank zero. -/
  | gatherBuffer (buffer : Buffer) (next : List Buffer → Exchange α)
  /-- Hands the buffer of rank zero to every process. -/
  | broadcast (buffer : Buffer) (next : Buffer → Exchange α)
  /-- Waits for every process. -/
  | barrier (next : Exchange α)

namespace Exchange

/-- Continues an exchange with another one that depends on its value. -/
def bind {α β : Type} : Exchange α → (α → Exchange β) → Exchange β
  | done a, f => f a
  | gatherReal v next, f => gatherReal v fun vs ↦ (next vs).bind f
  | gatherCount v next, f => gatherCount v fun vs ↦ (next vs).bind f
  | gatherBuffer b next, f => gatherBuffer b fun bs ↦ (next bs).bind f
  | broadcast b next, f => broadcast b fun b' ↦ (next b').bind f
  | barrier next, f => barrier (next.bind f)

instance : Monad Exchange where
  pure := done
  bind := bind

@[simp] theorem pure_eq {α : Type} (a : α) : (pure a : Exchange α) = done a := rfl

@[simp] theorem bind_eq {α β : Type} (x : Exchange α) (f : α → Exchange β) :
    x >>= f = x.bind f := rfl

@[simp] theorem bind_done {α : Type} (x : Exchange α) : x.bind done = x := by
  induction x with
  | done a => rfl
  | gatherReal v next ih => simp [bind, ih]
  | gatherCount v next ih => simp [bind, ih]
  | gatherBuffer b next ih => simp [bind, ih]
  | broadcast b next ih => simp [bind, ih]
  | barrier next ih => simp [bind, ih]

theorem bind_assoc {α β γ : Type} (x : Exchange α) (f : α → Exchange β) (g : β → Exchange γ) :
    (x.bind f).bind g = x.bind fun a ↦ (f a).bind g := by
  induction x with
  | done a => rfl
  | gatherReal v next ih => simp [bind, ih]
  | gatherCount v next ih => simp [bind, ih]
  | gatherBuffer b next ih => simp [bind, ih]
  | broadcast b next ih => simp [bind, ih]
  | barrier next ih => simp [bind, ih]

/-! ## Single steps -/

/-- What a process asks of the others in one step. -/
inductive Request where
  | gatherReal (value : Float)
  | gatherCount (value : Count)
  | gatherBuffer (buffer : Buffer)
  | broadcast (buffer : Buffer)
  | barrier
  deriving DecidableEq, Repr

/-- What a process gets in return. -/
inductive Response where
  | reals (values : List Float)
  | counts (values : List Count)
  | buffers (buffers : List Buffer)
  | buffer (b : Buffer)
  | passed
  deriving DecidableEq, Repr

/-- The exchange that consists of one step. -/
def ask : Request → Exchange Response
  | .gatherReal v => gatherReal v fun vs ↦ done (.reals vs)
  | .gatherCount v => gatherCount v fun vs ↦ done (.counts vs)
  | .gatherBuffer b => gatherBuffer b fun bs ↦ done (.buffers bs)
  | .broadcast b => broadcast b fun b' ↦ done (.buffer b')
  | .barrier => barrier (done .passed)

/-! ## A job of one process -/

/-- Runs the exchange of a process that is alone: it gathers its own value and hears itself. -/
def alone {α : Type} : Exchange α → α
  | done a => a
  | gatherReal v next => (next [v]).alone
  | gatherCount v next => (next [v]).alone
  | gatherBuffer b next => (next [b]).alone
  | broadcast b next => (next b).alone
  | barrier next => next.alone

end Exchange

end SectionMonitor
