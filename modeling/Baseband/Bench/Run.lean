import Baseband.Bench.Execute
import Baseband.Settings.Reader

/-!
# Running steps

A step runs until it returns. While it waits, the ready jobs run in rounds, with those that become
ready meanwhile; between rounds the step goes on if it can. Time passes only when nothing else can
be done. After a step the ready jobs run as well, unless the step leaves them for later; no time
passes then. All loops are bounded.
-/

namespace Baseband.Bench

structure Report where
  value : Value
  entries : List Entry
  outstanding : Nat
  session : Option (Session Line)

namespace State

def work : Nat → State → State
  | 0, b => b
  | budget + 1, b =>
    match b.agenda with
    | [] => b
    | item :: agenda =>
      let (b, items) := { b with agenda }.step item
      work budget { b with agenda := items ++ b.agenda }

/-- Do items completely. -/
def workOff (budget : Nat) (b : State) (items : List Item) : State :=
  work budget { b with agenda := items ++ b.agenda }

def budget : Nat :=
  1000000

def turn (b : State) (job : Job) : State :=
  { b with acting := job.fiber, allowance := fullAllowance }.workOff budget [job.item]

/-- Run ready jobs until there are none, but no more than a limit. -/
def runReady : Nat → State → State
  | 0, b => b
  | limit + 1, b =>
    match b.ready with
    | [] => b
    | job :: ready => runReady limit ({ b with ready }.turn job)

def jobsPerRound : Nat :=
  61

/-- Run a round of jobs. Those that let others run can go on after it. -/
def runRound (b : State) : State :=
  (b.runReady jobsPerRound).wakeDeferred

/-- No job is ready, and none lets others run. -/
def isIdle (b : State) : Bool :=
  b.ready.isEmpty && b.deferred.isEmpty

/-- Let time pass until the first rest is over, if any call rests. -/
def passTime (b : State) : Option State :=
  match b.resting with
  | [] => none
  | id :: resting => some ({ b with resting }.wake id (.waited (.rested id)))

/-- Go on until a fiber has returned. -/
def await : Nat → State → Nat → State
  | 0, b, _ => b
  | budget + 1, b, fiber =>
    if (b.value? fiber).isSome then b
    else
      match b.woken with
      | some item => await budget ({ b with woken := none }.turn ⟨fiber, item⟩) fiber
      | none =>
        if !b.isIdle then await budget b.runRound fiber
        else
          match b.passTime with
          | some b => await budget b fiber
          | none => b

/-- Run rounds of jobs until there are none, but no more than a limit. -/
def runRounds : Nat → State → State
  | 0, b => b
  | limit + 1, b => if b.isIdle then b else runRounds limit b.runRound

def roundsPerStep : Nat :=
  100

/-- Run a step; with `settle` also the jobs that are ready after it, and then the next step has a
turn of its own. -/
def runStep (b : State) (step : Step) (settle : Bool) : State × Report :=
  let (b, fiber) := b.newFiber
  let b := { b with foreground := some fiber, acting := some fiber, log := [] }
  let b := (b.workOff budget [.start fiber step]).await budget fiber
  let b := { b with foreground := none }
  let b := if settle then { b.runRounds roundsPerStep with allowance := fullAllowance } else b
  (b, {
    value := (b.value? fiber).getD .nothing
    entries := b.log.reverse
    outstanding := b.client.outstanding.size
    session := b.client.session })

def runSteps (b : State) : List (Step × Bool) → List Report
  | [] => []
  | (step, settle) :: steps =>
    let (b, report) := b.runStep step settle
    report :: b.runSteps steps

end State

structure Setup where
  provider : Option (List (Version × List LookupOutcome))
  scripted : List (Scripted Party Party)

namespace Setup

/-- A bench with a client and the sink of its connections. -/
def place (s : Setup) (client : Client Reaction Line) (sink : Party)
    (sinks : List (String × Nat)) : State where
  client
  sink
  directory := .empty
  provider := s.provider
  scripted := s.scripted
  recorders := sinks.length
  observers := []
  sinks
  recipients := []
  held := []
  channels := []
  tags := []
  inboxes := []
  tasks := []
  fibers := []
  agenda := []
  ready := []
  foreground := none
  woken := none
  acting := none
  allowance := fullAllowance
  deferred := []
  resting := []
  log := []

/-- A bench with a client. Its settings are those written in JSON, if there are any, with changes
made to them. -/
def withClient (s : Setup) (json : Option String) (changes : List Draft.Change) :
    Except Error State := do
  let written ← match json with
    | some text => do
      let settings ← Settings.parse text
      pure [Draft.Change.settings settings]
    | none => pure []
  let settings ← (Draft.empty.changeAll (written ++ changes)).finish
  return s.place (.ofSettings settings) .client []

/-- A bench with the table of a client alone. Nothing is routed, so there is no sink. -/
def withTable (s : Setup) : State :=
  s.place (.ofSettings .standard) .client []

/-- A bench with the session and the table of a client alone. Responses go to the recorder
`main`, and the settings are not checked. -/
def withSession (s : Setup) (settings : Settings) : State :=
  s.place (.ofSettings settings) (.recorder 0) [("main", 0)]

end Setup

end Baseband.Bench
