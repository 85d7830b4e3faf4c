import Baseband.Bench.Basic

/-!
# Fibers

Every step that is run has a fiber, which holds what the step has returned or whom it waits for. The
fiber of the current step takes turns with the ready jobs. All others, which are those of tasks and
of the parts of concurrent steps, are run as jobs: a fiber is queued when it starts, and again each
time that it can go on.

A wait may end at once: the gate is open, a rest is empty, another fiber has returned already. So
that no fiber runs forever in this way, only a number of waits may end in one turn; at the next wait
the fiber lets the others run first.
-/

namespace Baseband.Bench

/-- How many waits may end in one turn of a fiber. -/
def fullAllowance : Nat :=
  128

namespace State

/-- Put a job after those that are ready. -/
def queue (b : State) (job : Job) : State :=
  { b with ready := b.ready ++ [job] }

def newFiber (b : State) : State × Nat :=
  ({ b with fibers := b.fibers ++ [.running] }, b.fibers.length)

/-- A step with a new fiber, which starts as a job. -/
def launch (b : State) (step : Step) : State × Nat :=
  let (b, number) := b.newFiber
  (b.queue ⟨number, .start number step⟩, number)

/-- Steps with new fibers, which start as jobs in order. -/
def launchAll (b : State) : List Step → State × List Nat
  | [] => (b, [])
  | step :: steps =>
    let (b, number) := b.launch step
    let (b, numbers) := b.launchAll steps
    (b, number :: numbers)

/-- Note where a fiber has come. -/
def setFiber (b : State) (number : Nat) (fiber : Fiber) : State :=
  { b with fibers := b.fibers.set number fiber }

def value? (b : State) (number : Nat) : Option Value :=
  match b.fibers[number]? with
  | some (.returned value) => some value
  | _ => none

/-- A fiber can go on with an item, when its turn comes. -/
def wake (b : State) (fiber : Nat) (item : Item) : State :=
  if b.foreground = some fiber then { b with woken := some item }
  else b.queue ⟨fiber, item⟩

/-- The fiber that waits for a fiber, and how it goes on. At most one does, since a task is joined
once and a concurrent step has its parts for itself. -/
def waiter? (b : State) (fiber : Nat) : Option (Nat × Item) :=
  b.fibers.zipIdx.findSome? fun (other, number) =>
    match other with
    | .waiting awaited next => if awaited = fiber then some (number, next) else none
    | _ => none

/-- A fiber returns. Whoever waits for it can go on. -/
def settle (b : State) (fiber : Nat) (value : Value) : State :=
  let b := b.setFiber fiber (.returned value)
  match b.waiter? fiber with
  | some (waiter, next) => b.wake waiter next
  | none => b

/-! ## Waits -/

/-- A fiber comes to a wait. With its allowance used up, it lets others run and then comes to the
wait again. -/
def comeToWait (b : State) (fiber : Nat) (again : Item) (wait : State → Effect) : Effect :=
  if b.allowance = 0 then ({ b with deferred := (fiber, again) :: b.deferred }, []) else wait b

def endWait (b : State) : State :=
  { b with allowance := b.allowance - 1 }

/-- The fibers that let others run go on, the latest first. -/
def wakeDeferred (b : State) : State :=
  b.deferred.foldl (fun b (fiber, item) => b.wake fiber item) { b with deferred := [] }

/-- Begin a call. One that needs the gate comes to a wait there, and if nobody is inside, the wait
ends at once. -/
def call (b : State) (fiber : Nat) (goal : Goal Reaction) : Effect :=
  if b.client.supported && b.client.session.isNone then
    b.comeToWait fiber (.call fiber goal) fun b =>
      (if b.client.gate.holder.isNone then b.endWait else b).handle (.call fiber goal)
  else b.handle (.call fiber goal)

/-- A call rests. No time passes in an empty rest. -/
def rest (b : State) (id : CallId) (delay : Duration) : Effect :=
  b.comeToWait id (.command (.rest id delay)) fun b =>
    if delay.nanos = 0 then (b.endWait, [.event (.rested id)])
    else ({ b with resting := b.resting ++ [id] }, [])

/-- Wait for a fiber to return and then go on with its value. -/
def awaitFiber (b : State) (fiber other : Nat) (again : Item) (next : Value → Item) : Effect :=
  b.comeToWait fiber again fun b =>
    match b.value? other with
    | some value => (b.endWait, [next value])
    | none => (b.setFiber fiber (.waiting other again), [])

/-- Wait for fibers to return, one after the other. -/
def gather (b : State) (fiber : Nat) (values : List Value) (others : List Nat) : Effect :=
  match others with
  | [] => (b, [.settle fiber (.all values)])
  | other :: rest =>
    b.awaitFiber fiber other (.gather fiber values others) fun value =>
      .gather fiber (values ++ [value]) rest

end State

end Baseband.Bench
