import Sponge.Spec.FileDescriptor

/-! The event loop of `libsponge/util/eventloop.cc`. Rules have names `κ`; their callbacks act on
a state `σ`, and what the kernel answers to a callback is an `ι`. -/

namespace Sponge

namespace EventLoop

inductive Direction where
  | In
  | Out
  deriving DecidableEq, Repr

inductive Result where
  | success
  | timeout
  | exit
  deriving DecidableEq, Repr

structure Rule (σ ι : Type) where
  fd : σ → FDWrapper
  direction : Direction
  callback : ι → σ → Except Raised σ
  interest : σ → Bool := fun _ => true
  cancel : σ → σ := id

/-- `revents` of one descriptor: POLLERR or POLLNVAL; POLLHUP; and the event that was asked
for, with the kernel's answers to the callback it leads to. -/
structure Revents (ι : Type) where
  error : Bool := false
  hup : Bool := false
  ready : Option ι := none

/-- The outcomes of `poll`. A failed call leaves `revents` as it was set up. -/
inductive Poll (ι : Type) where
  | timeout
  | interrupted
  | failed
  | polled (revents : ℕ → Revents ι)

variable {κ σ ι : Type}

def Rule.serviceCount (r : Rule σ ι) (s : σ) : UInt32 :=
  if r.direction = .In then (r.fd s).readCount else (r.fd s).writeCount

variable (rule : κ → Rule σ ι)

/-- The first loop of `wait_next_event`: the rules that are kept, each with whether it is
interested. -/
def setUp : List κ → σ → List (κ × Bool) × σ
  | [], s => ([], s)
  | k :: ks, s =>
    if (rule k).direction = .In ∧ ((rule k).fd s).eof then setUp ks ((rule k).cancel s)
    else if ((rule k).fd s).closed then setUp ks ((rule k).cancel s)
    else
      let (pollfds, s') := setUp ks s
      ((k, (rule k).interest s) :: pollfds, s')

def busyWait : Raised := .thrown (.runtimeError
  "EventLoop: busy wait detected: callback did not read/write fd and is still interested")

/-- The callback of a rule that is ready. -/
def service (k : κ) (answer : ι) (s : σ) : Except Raised σ := do
  let countBefore := (rule k).serviceCount s
  let s ← (rule k).callback answer s
  if countBefore = (rule k).serviceCount s ∧ (rule k).interest s then .error busyWait else .ok s

/-- The second loop, from the rule at `idx` on. -/
def dispatch (revents : ℕ → Revents ι) : List (κ × Bool) → ℕ → σ → Except Raised (List κ × σ)
  | [], _, s => .ok ([], s)
  | (k, events) :: pollfds, idx, s =>
    if (revents idx).error then
      .error (.thrown (.runtimeError "EventLoop: error on polled file descriptor"))
    else
      -- only an event that was asked for makes a rule ready
      match if events then (revents idx).ready else none with
      | some answer => do
        let s ← service rule k answer s
        let (ks, s) ← dispatch revents pollfds (idx + 1) s
        .ok (k :: ks, s)
      | none =>
        if (revents idx).hup ∧ events then
          dispatch revents pollfds (idx + 1) ((rule k).cancel s)
        else do
          let (ks, s) ← dispatch revents pollfds (idx + 1) s
          .ok (k :: ks, s)

def waitNextEvent (poll : Poll ι) (ks : List κ) (s : σ) : Except Raised (Result × List κ × σ) :=
  let (pollfds, s) := setUp rule ks s
  if pollfds.all fun p => !p.2 then .ok (.exit, pollfds.map Prod.fst, s)
  else
    match poll with
    | .timeout => .ok (.timeout, pollfds.map Prod.fst, s)
    | .interrupted => .ok (.exit, pollfds.map Prod.fst, s)
    | .failed => do
      let (ks, s) ← dispatch rule (fun _ => {}) pollfds 0 s
      .ok (.success, ks, s)
    | .polled revents => do
      let (ks, s) ← dispatch rule revents pollfds 0 s
      .ok (.success, ks, s)

end EventLoop

end Sponge
