import SectionMonitor.Exchange.Basic

/-!
# Jobs of several processes

All processes of a job take their steps together. A gather answers rank zero with the values of
all ranks in order and the others with nothing; a broadcast answers everybody with the buffer of
rank zero. Processes whose next steps differ in kind would wait for each other for ever, and the
job has no result.
-/

namespace SectionMonitor

namespace Exchange

/-! ## The next step of a process -/

/-- The value of a process that is done. -/
def result? {α : Type} : Exchange α → Option α
  | done a => some a
  | _ => none

/-- The number that a process hands over next. -/
def real? {α : Type} : Exchange α → Option (Float × (List Float → Exchange α))
  | gatherReal v next => some (v, next)
  | _ => none

/-- The count that a process hands over next. -/
def count? {α : Type} : Exchange α → Option (Count × (List Count → Exchange α))
  | gatherCount v next => some (v, next)
  | _ => none

/-- The buffer that a process hands over next. -/
def buffer? {α : Type} : Exchange α → Option (Buffer × (List Buffer → Exchange α))
  | gatherBuffer b next => some (b, next)
  | _ => none

/-- The buffer that a process would broadcast next. -/
def broadcast? {α : Type} : Exchange α → Option (Buffer × (Buffer → Exchange α))
  | broadcast b next => some (b, next)
  | _ => none

/-- What a process does after it has waited for the others. -/
def barrier? {α : Type} : Exchange α → Option (Exchange α)
  | barrier next => some next
  | _ => none

/-! ## Taking steps together -/

/-- The values of rank zero and of the other ranks, in order, if all exchanges run through. -/
def lockstep {α : Type} : Exchange α → List (Exchange α) → Option (List α)
  | done a, others => (others.mapM result?).map fun as ↦ a :: as
  | gatherReal v next, others =>
    (others.mapM real?).bind fun steps ↦
      lockstep (next (v :: steps.map Prod.fst)) (steps.map fun s ↦ s.2 [])
  | gatherCount v next, others =>
    (others.mapM count?).bind fun steps ↦
      lockstep (next (v :: steps.map Prod.fst)) (steps.map fun s ↦ s.2 [])
  | gatherBuffer b next, others =>
    (others.mapM buffer?).bind fun steps ↦
      lockstep (next (b :: steps.map Prod.fst)) (steps.map fun s ↦ s.2 [])
  | broadcast b next, others =>
    (others.mapM broadcast?).bind fun steps ↦ lockstep (next b) (steps.map fun s ↦ s.2 b)
  | barrier next, others => (others.mapM barrier?).bind fun nexts ↦ lockstep next nexts

/-- The values of all ranks, in order. -/
def together {α : Type} : List (Exchange α) → Option (List α)
  | [] => some []
  | first :: others => lockstep first others

end Exchange

end SectionMonitor
