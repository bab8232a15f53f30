import Mathlib.Data.List.Basic
import SectionMonitor.Exchange.Lockstep
import SectionMonitor.Gather

/-!
# Jobs in lockstep

What a job of several processes computes is followed step by step: each of the first lemmas takes
one collective step off the front of all exchanges at once and says what rank zero and the others
go on with. The requests that a process makes on the way are collected by `recordedFrom`, which
carries the earlier requests along and so never looks back. `map_fst_lockstep_recordedFrom` is the
licence for it: recording does not influence the run.

`Runs` puts steps together. It says at what values, and with what requests, the exchanges of all
processes arrive, whatever comes before and after them, and it is closed under what exchanges are
built with.
-/

namespace SectionMonitor

namespace Exchange

variable {α β ι : Type}

/-! ## Recording the requests -/

/-- The exchange with the list of its requests, which continues the requests of the past. -/
def recordedFrom : List Request → Exchange α → Exchange (α × List Request)
  | past, done a => done (a, past)
  | past, gatherReal v next =>
    gatherReal v fun vs ↦ (next vs).recordedFrom (past ++ [.gatherReal v])
  | past, gatherCount v next =>
    gatherCount v fun vs ↦ (next vs).recordedFrom (past ++ [.gatherCount v])
  | past, gatherBuffer b next =>
    gatherBuffer b fun bs ↦ (next bs).recordedFrom (past ++ [.gatherBuffer b])
  | past, broadcast b next =>
    broadcast b fun b' ↦ (next b').recordedFrom (past ++ [.broadcast b])
  | past, barrier next => barrier (next.recordedFrom (past ++ [.barrier]))

/-- The exchange with the list of all its requests, in order. -/
def recorded (x : Exchange α) : Exchange (α × List Request) := x.recordedFrom []

/-! ## All processes at once

The other processes are given as a list `ps` and their exchanges as functions of its members, so
that what they hand over, and what they go on with, can be written as functions as well. -/

section Collecting

variable {γ δ : Type} {ps : List ι} {f : γ → Option δ} {y : ι → γ}

private theorem mapM_map_of_some {s : ι → δ} (h : ∀ p ∈ ps, f (y p) = some (s p)) :
    (ps.map y).mapM f = some (ps.map s) := by
  induction ps with
  | nil => rfl
  | cons p ps ih =>
    rw [List.map_cons, List.mapM_cons, h p List.mem_cons_self,
      ih fun q hq ↦ h q (List.mem_cons_of_mem p hq)]
    rfl

private theorem mapM_map_of_none {p : ι} (hp : p ∈ ps) (h : f (y p) = none) :
    (ps.map y).mapM f = none := by
  induction ps with
  | nil => exact absurd hp List.not_mem_nil
  | cons q ps ih =>
    rw [List.map_cons, List.mapM_cons]
    rcases List.mem_cons.mp hp with rfl | hp
    · rw [h]
      rfl
    · rw [ih hp]
      cases f (y q) <;> rfl

end Collecting

section Lockstep

variable {ps : List ι}

theorem lockstep_done (a : α) (b : ι → α) :
    lockstep (done a) (ps.map fun p ↦ done (b p)) = some (a :: ps.map b) := by
  have hs : ∀ p ∈ ps, result? (done (b p)) = some (b p) := fun p _ ↦ rfl
  rw [lockstep, mapM_map_of_some hs, Option.map_some]

theorem lockstep_gatherReal (v : Float) (next : List Float → Exchange α) (w : ι → Float)
    (k : ι → List Float → Exchange α) :
    lockstep (gatherReal v next) (ps.map fun p ↦ gatherReal (w p) (k p))
      = lockstep (next (v :: ps.map w)) (ps.map fun p ↦ k p []) := by
  have hs : ∀ p ∈ ps, real? (gatherReal (w p) (k p)) = some (w p, k p) := fun p _ ↦ rfl
  rw [lockstep, mapM_map_of_some hs, Option.bind_some, List.map_map, List.map_map]
  rfl

theorem lockstep_gatherCount (v : Count) (next : List Count → Exchange α) (w : ι → Count)
    (k : ι → List Count → Exchange α) :
    lockstep (gatherCount v next) (ps.map fun p ↦ gatherCount (w p) (k p))
      = lockstep (next (v :: ps.map w)) (ps.map fun p ↦ k p []) := by
  have hs : ∀ p ∈ ps, count? (gatherCount (w p) (k p)) = some (w p, k p) := fun p _ ↦ rfl
  rw [lockstep, mapM_map_of_some hs, Option.bind_some, List.map_map, List.map_map]
  rfl

theorem lockstep_gatherBuffer (b : Buffer) (next : List Buffer → Exchange α) (c : ι → Buffer)
    (k : ι → List Buffer → Exchange α) :
    lockstep (gatherBuffer b next) (ps.map fun p ↦ gatherBuffer (c p) (k p))
      = lockstep (next (b :: ps.map c)) (ps.map fun p ↦ k p []) := by
  have hs : ∀ p ∈ ps, buffer? (gatherBuffer (c p) (k p)) = some (c p, k p) := fun p _ ↦ rfl
  rw [lockstep, mapM_map_of_some hs, Option.bind_some, List.map_map, List.map_map]
  rfl

theorem lockstep_broadcast (b : Buffer) (next : Buffer → Exchange α) (c : ι → Buffer)
    (k : ι → Buffer → Exchange α) :
    lockstep (broadcast b next) (ps.map fun p ↦ broadcast (c p) (k p))
      = lockstep (next b) (ps.map fun p ↦ k p b) := by
  have hs : ∀ p ∈ ps, broadcast? (broadcast (c p) (k p)) = some (c p, k p) := fun p _ ↦ rfl
  rw [lockstep, mapM_map_of_some hs, Option.bind_some, List.map_map]
  rfl

theorem lockstep_barrier (next : Exchange α) (k : ι → Exchange α) :
    lockstep (barrier next) (ps.map fun p ↦ barrier (k p)) = lockstep next (ps.map k) := by
  have hs : ∀ p ∈ ps, barrier? (barrier (k p)) = some (k p) := fun p _ ↦ rfl
  rw [lockstep, mapM_map_of_some hs, Option.bind_some]

/-! ## Recording does not influence a job -/

/-- One step of the induction below, for every kind of step: `proj` looks at the next step of an
exchange, `proj'` at that of the recorded one, and `lift` says how the two differ. -/
private theorem erase_step {γ γ' : Type} {proj : Exchange α → Option γ}
    {proj' : Exchange (α × List Request) → Option γ'} (lift : List Request → γ → γ')
    (hproj : ∀ q x, proj' (recordedFrom q x) = (proj x).map (lift q))
    (run : List γ → Option (List α)) (run' : List γ' → Option (List (α × List Request)))
    (ps : List ι) (y : ι → Exchange α) (q : ι → List Request)
    (hrun : ∀ s : ι → γ,
      (run' (ps.map fun p ↦ lift (q p) (s p))).map (List.map Prod.fst) = run (ps.map s))
    (d : γ) :
    (((ps.map fun p ↦ (y p).recordedFrom (q p)).mapM proj').bind run').map (List.map Prod.fst)
      = ((ps.map y).mapM proj).bind run := by
  by_cases hall : ∀ p ∈ ps, (proj (y p)).isSome
  · have hs : ∀ p ∈ ps, proj (y p) = some ((proj (y p)).getD d) := by
      intro p hp
      obtain ⟨s, hs⟩ := Option.isSome_iff_exists.mp (hall p hp)
      rw [hs, Option.getD_some]
    have hs' : ∀ p ∈ ps, proj' ((y p).recordedFrom (q p))
        = some (lift (q p) ((proj (y p)).getD d)) := by
      intro p hp
      rw [hproj, hs p hp, Option.map_some, Option.getD_some]
    rw [mapM_map_of_some hs, mapM_map_of_some hs', Option.bind_some, Option.bind_some]
    exact hrun _
  · push Not at hall
    obtain ⟨p, hp, hnone⟩ := hall
    have hnone : proj (y p) = none := by simpa using hnone
    have hnone' : proj' ((y p).recordedFrom (q p)) = none := by
      rw [hproj, hnone, Option.map_none]
    rw [mapM_map_of_none hp hnone, mapM_map_of_none hp hnone']
    rfl

/-- **Recording does not influence a job.** Without the requests, a recorded run is the run. -/
theorem map_fst_lockstep_recordedFrom (x : Exchange α) (past : List Request)
    (y : ι → Exchange α) (q : ι → List Request) :
    (lockstep (x.recordedFrom past) (ps.map fun p ↦ (y p).recordedFrom (q p))).map
        (List.map Prod.fst)
      = lockstep x (ps.map y) := by
  induction x generalizing past y q with
  | done a =>
    have hproj : ∀ q x, result? (recordedFrom q x) = (result? x).map fun b : α ↦ (b, q) := by
      intro q x
      cases x <;> rfl
    have herase := erase_step (fun q b ↦ (b, q)) hproj (some ∘ fun as ↦ a :: as)
      (some ∘ fun as ↦ (a, past) :: as) ps y q (fun s ↦ by simp) a
    rwa [← Option.map_eq_bind, ← Option.map_eq_bind] at herase
  | gatherReal v next ih =>
    refine erase_step (fun q s ↦ (s.1, fun vs ↦ (s.2 vs).recordedFrom (q ++ [.gatherReal s.1])))
      (fun q x ↦ by cases x <;> rfl) _ _ ps y q (fun s ↦ ?_) (v, next)
    rw [List.map_map, List.map_map, List.map_map, List.map_map]
    exact ih _ _ (fun p ↦ (s p).2 []) _
  | gatherCount v next ih =>
    refine erase_step (fun q s ↦ (s.1, fun vs ↦ (s.2 vs).recordedFrom (q ++ [.gatherCount s.1])))
      (fun q x ↦ by cases x <;> rfl) _ _ ps y q (fun s ↦ ?_) (v, next)
    rw [List.map_map, List.map_map, List.map_map, List.map_map]
    exact ih _ _ (fun p ↦ (s p).2 []) _
  | gatherBuffer b next ih =>
    refine erase_step (fun q s ↦ (s.1, fun bs ↦ (s.2 bs).recordedFrom (q ++ [.gatherBuffer s.1])))
      (fun q x ↦ by cases x <;> rfl) _ _ ps y q (fun s ↦ ?_) (b, next)
    rw [List.map_map, List.map_map, List.map_map, List.map_map]
    exact ih _ _ (fun p ↦ (s p).2 []) _
  | broadcast b next ih =>
    refine erase_step (fun q s ↦ (s.1, fun c ↦ (s.2 c).recordedFrom (q ++ [.broadcast s.1])))
      (fun q x ↦ by cases x <;> rfl) _ _ ps y q (fun s ↦ ?_) (b, next)
    rw [List.map_map, List.map_map]
    exact ih _ _ (fun p ↦ (s p).2 b) _
  | barrier next ih =>
    refine erase_step (fun q x ↦ x.recordedFrom (q ++ [.barrier]))
      (fun q x ↦ by cases x <;> rfl) _ _ ps y q (fun s ↦ ?_) next
    exact ih _ s _

/-- Without the requests, a recorded job is the job. -/
theorem map_fst_together_recorded (xs : List (Exchange α)) :
    (together (xs.map recorded)).map (List.map Prod.fst) = together xs := by
  cases xs with
  | nil => rfl
  | cons x xs =>
    have herase : (lockstep x.recorded (xs.map recorded)).map (List.map Prod.fst)
        = lockstep x (xs.map id) := map_fst_lockstep_recordedFrom x [] id fun _ ↦ []
    rwa [List.map_id] at herase

end Lockstep

/-! ## Going through together -/

section Runs

variable {ps : List ι}

/-- The exchange of rank zero and those of the other processes run through together, whatever comes
before and after them. Each arrives at a value and has then made the requests beside it. -/
def Runs (ps : List ι) (x : Exchange α) (y : ι → Exchange α) (a : α × List Request)
    (b : ι → α × List Request) : Prop :=
  ∀ ⦃β : Type⦄ (f : α → Exchange β) (g : ι → α → Exchange β) (past : List Request)
    (q : ι → List Request),
    lockstep ((x.bind f).recordedFrom past) (ps.map fun p ↦ ((y p).bind (g p)).recordedFrom (q p))
      = lockstep ((f a.1).recordedFrom (past ++ a.2))
          (ps.map fun p ↦ (g p (b p).1).recordedFrom (q p ++ (b p).2))

theorem Runs.lockstep_recorded {x : Exchange α} {y : ι → Exchange α} {a : α × List Request}
    {b : ι → α × List Request} (h : Runs ps x y a b) :
    lockstep x.recorded (ps.map fun p ↦ (y p).recorded) = some (a :: ps.map b) := by
  have hrun := h done (fun _ ↦ done) [] fun _ ↦ []
  simp only [bind_done, List.nil_append] at hrun
  rw [recorded]
  exact hrun.trans (lockstep_done _ _)

theorem Runs.congr {x : Exchange α} {y : ι → Exchange α} {a a' : α × List Request}
    {b b' : ι → α × List Request} (h : Runs ps x y a b) (ha : a = a') (hb : ∀ p, b p = b' p) :
    Runs ps x y a' b' := by
  obtain rfl : b = b' := funext hb
  rwa [← ha]

theorem Runs.done (v : α) (w : ι → α) :
    Runs ps (.done v) (fun p ↦ .done (w p)) (v, []) fun p ↦ (w p, []) := by
  intro β f g past q
  simp only [Exchange.bind, List.append_nil]

theorem Runs.gatherReal (v : Float) (w : ι → Float) :
    Runs ps (.gatherReal v .done) (fun p ↦ .gatherReal (w p) .done)
      (v :: ps.map w, [.gatherReal v]) fun p ↦ ([], [.gatherReal (w p)]) := by
  intro β f g past q
  exact lockstep_gatherReal ..

theorem Runs.gatherCount (v : Count) (w : ι → Count) :
    Runs ps (.gatherCount v .done) (fun p ↦ .gatherCount (w p) .done)
      (v :: ps.map w, [.gatherCount v]) fun p ↦ ([], [.gatherCount (w p)]) := by
  intro β f g past q
  exact lockstep_gatherCount ..

theorem Runs.gatherBuffer (v : Buffer) (w : ι → Buffer) :
    Runs ps (.gatherBuffer v .done) (fun p ↦ .gatherBuffer (w p) .done)
      (v :: ps.map w, [.gatherBuffer v]) fun p ↦ ([], [.gatherBuffer (w p)]) := by
  intro β f g past q
  exact lockstep_gatherBuffer ..

theorem Runs.broadcast (v : Buffer) (w : ι → Buffer) :
    Runs ps (.broadcast v .done) (fun p ↦ .broadcast (w p) .done)
      (v, [.broadcast v]) fun p ↦ (v, [.broadcast (w p)]) := by
  intro β f g past q
  exact lockstep_broadcast ..

theorem Runs.barrier (v : α) (w : ι → α) :
    Runs ps (.barrier (.done v)) (fun p ↦ .barrier (.done (w p))) (v, [.barrier])
      fun p ↦ (w p, [.barrier]) := by
  intro β f g past q
  exact lockstep_barrier ..

theorem Runs.bind {x : Exchange α} {y : ι → Exchange α} {a : α × List Request}
    {b : ι → α × List Request} {f : α → Exchange β} {g : ι → α → Exchange β}
    {c : β × List Request} {d : ι → β × List Request} (h : Runs ps x y a b)
    (hnext : Runs ps (f a.1) (fun p ↦ g p (b p).1) c d) :
    Runs ps (x.bind f) (fun p ↦ (y p).bind (g p)) (c.1, a.2 ++ c.2)
      fun p ↦ ((d p).1, (b p).2 ++ (d p).2) := by
  intro γ f' g' past q
  simp only [bind_assoc]
  rw [h (fun v ↦ (f v).bind f') (fun p v ↦ (g p v).bind (g' p)), hnext]
  simp only [List.append_assoc]

/-- Exchanges that run through together do so one after the other. -/
theorem Runs.sequence {γ : Type} {f : γ → Exchange α} {g : ι → γ → Exchange α}
    {a : γ → α × List Request} {b : γ → ι → α × List Request}
    (h : ∀ c, Runs ps (f c) (fun p ↦ g p c) (a c) (b c)) (cs : List γ) :
    Runs ps (sequence f cs) (fun p ↦ sequence (g p) cs)
      (cs.map fun c ↦ (a c).1, cs.flatMap fun c ↦ (a c).2)
      fun p ↦ (cs.map fun c ↦ (b c p).1, cs.flatMap fun c ↦ (b c p).2) := by
  induction cs with
  | nil => exact Runs.done [] fun _ ↦ []
  | cons c cs ih =>
    have hrest := (h c).bind (f := fun v ↦ (Exchange.sequence f cs).bind fun vs ↦ .done (v :: vs))
      (g := fun p v ↦ (Exchange.sequence (g p) cs).bind fun vs ↦ .done (v :: vs))
      (ih.bind (Runs.done _ fun p ↦ (b c p).1 :: cs.map fun c ↦ (b c p).1))
    simpa [Exchange.sequence] using hrest

end Runs

end Exchange

end SectionMonitor
