import Baseband.Error
import Baseband.Binary
import Baseband.Duration

/-!
# Discovery

A discovery pass looks the candidate versions up one by one, newest first. It takes a connection
that speaks the version asked for, goes on past every other answer, and ends early only when a
lookup is interrupted, so that it never settles for an older version by accident. A pass that is
interrupted may be repeated after a delay.
-/

namespace Baseband

/-! ## Answers to lookups -/

/-- The answer to a lookup: a connection with the version that it speaks. -/
abbrev Lookup (α : Type) := Except Error (α × Version)

/-- What the answer to a lookup means for the pass. -/
inductive Verdict (α : Type)
  | found (connection : α)
  | next
  | stop (why : Error)

namespace Probe

/-- Judge the answer to the lookup of a version. -/
def judge {α : Type} (version : Version) : Lookup α → Verdict α
  | .ok (connection, speaks) => if speaks = version then .found connection else .next
  | .error (.interrupted fault) => .stop (.interrupted fault)
  | .error _ => .next

end Probe

/-! ## Delays between passes

The delays grow by a factor from pass to pass up to a cap, and their number is bounded. The growth
of a delay is a function that may fail, since not every product is a duration; it is computed
together with the delay before it, so a failure costs that delay as well. -/

/-- How interrupted discovery passes are repeated. -/
structure RetryPolicy where
  /-- Passes after the first. -/
  maxAttempts : UInt32
  /-- The factor by which a delay grows. -/
  multiplier : Single
  /-- The delay before the second pass. -/
  initialDelay : Duration
  /-- The cap of every delay. -/
  maxDelay : Duration
deriving DecidableEq

/-- The growth of a delay. -/
abbrev Growth := Duration → Except Unrepresentable Duration

namespace RetryPolicy

/-- Three passes more, after a tenth of a second at first, doubling up to five seconds. -/
def standard : RetryPolicy where
  maxAttempts := 3
  multiplier := ⟨0x40000000⟩
  initialDelay := .millis 100
  maxDelay := .millis 5000

def growth (policy : RetryPolicy) : Growth := fun delay =>
  Duration.ofSeconds (delay.toSeconds * policy.multiplier.widen)

end RetryPolicy

structure Backoff where
  /-- The next delay before the cap. -/
  upcoming : Duration
  cap : Duration
  /-- How many delays are left. -/
  left : Nat
deriving DecidableEq

/-- What follows a discovery pass that found nothing. -/
inductive AfterPass
  | over
  | again (delay : Duration) (rest : Backoff)
  | failed (why : Unrepresentable)

namespace Backoff

def ofPolicy (policy : RetryPolicy) : Backoff :=
  ⟨policy.initialDelay, policy.maxDelay, policy.maxAttempts.toNat⟩

/-- The next delay and the delays after it, if any is left. -/
def next? (grow : Growth) (b : Backoff) : Option (Except Unrepresentable (Duration × Backoff)) :=
  match b.left with
  | 0 => none
  | left + 1 =>
    let delay := min b.upcoming b.cap
    some ((grow delay).map fun grown => (delay, ⟨min grown b.cap, b.cap, left⟩))

/-- How a reading of delays ends. -/
inductive End
  | done
  | more
  | failed (why : Unrepresentable)
deriving DecidableEq

/-- Read at most `limit` delays. -/
def delays (grow : Growth) : Nat → Backoff → List Duration × End
  | 0, _ => ([], .more)
  | limit + 1, b =>
    match b.next? grow with
    | none => ([], .done)
    | some (.error why) => ([], .failed why)
    | some (.ok (delay, b)) =>
      let (rest, ending) := delays grow limit b
      (delay :: rest, ending)

/-- Judge the error of a pass: only an interruption leads to another pass, and only while delays are
left. Without a policy there are none. -/
def afterPass (grow : Growth) (backoff : Option Backoff) : Error → AfterPass
  | .interrupted _ =>
    match backoff.bind fun b => b.next? grow with
    | none => .over
    | some (.error why) => .failed why
    | some (.ok (delay, rest)) => .again delay rest
  | _ => .over

end Backoff

end Baseband
