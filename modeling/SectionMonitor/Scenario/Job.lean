import SectionMonitor.Report.Text
import SectionMonitor.Scenario.Session

/-!
# Whole programs

A measured program that reads its settings from the environment and ends at the first violation:
it says what was wrong on standard error and fails. Otherwise it succeeds.
-/

namespace SectionMonitor

/-- One step of a whole program. -/
inductive JobStep where
  /-- A step whose answer is written to standard output if the flag is set. -/
  | step (echoed : Bool) (step : Step)
  /-- Gathers statistics and prints the report, at another level than the settings ask for if one
  is given. -/
  | print (level : Option ReportLevel)

/-- A piece of what a program writes to standard output. -/
inductive JobOutput where
  | finding (f : Finding)
  | text (s : String)
  deriving DecidableEq, Repr

/-- How a program ends. -/
structure JobEnding where
  /-- Zero for success. -/
  status : Nat := 0
  output : List JobOutput := []
  /-- What is written to standard error. -/
  errors : String := ""
  deriving DecidableEq, Repr

namespace JobEnding

/-- The end of a program that violated the rules. -/
def violated (v : Violation) : JobEnding := ⟨1, [], v.lastWords⟩

/-- The end of a program that wrote something before. -/
def after (ending : JobEnding) (output : List JobOutput) : JobEnding :=
  { ending with output := output ++ ending.output }

end JobEnding

namespace Job

/-- What a printed report shows. -/
def printed (s : Summary) (level : Option ReportLevel) : String :=
  (View.mk level none).report s |>.printed

/-- Takes the steps of a program. -/
def run : Station → Bench → List JobStep → JobEnding
  | _, _, [] => {}
  | st, bench, .step echoed step :: rest =>
    let t := step.action st bench
    match t.answer with
    | .error _ => {}
    | .ok (.error v) => .violated v
    | .ok (.ok finding) =>
      (run t.station t.bench rest).after (if echoed then [.finding finding] else [])
  | st, bench, .print level :: rest =>
    let outcome := (st.monitor.gather (st.now bench) 0 1).alone
    match outcome.result with
    | .error v => .violated v
    | .ok none => run { st with monitor := outcome.monitor } bench rest
    | .ok (some summary) =>
      (run { st with monitor := outcome.monitor } bench rest).after [.text (printed summary level)]

/-- Runs a program whose settings come from an environment. -/
def start (environment : List (String × String)) (steps : List JobStep) : JobEnding :=
  let blueprint : Blueprint := { environment := some environment }
  let (st, bench, _) := blueprint.build {}
  run st bench steps

end Job

end SectionMonitor
