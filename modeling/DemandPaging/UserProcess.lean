import DemandPaging.Lock.Alarm
import DemandPaging.Region

/-!
# The pager of a process

A process has one slot for the managed memory of an active pager. Starting a
pager fills the slot, and whatever fails after that empties it again; shutting
the pager down empties it, also when the host refuses to stop the timer or to
put the former handlers back. Using the pager and delivering timer signals to
it are steps on the process. What runs in a copy of the process leaves the
memory of the process itself as it was.
-/

namespace DemandPaging

/-- What the slot of an active pager holds. -/
structure Session where
  /-- The managed memory. -/
  memory : Memory
  /-- The regions that were handed out, in order. -/
  regions : Array Region := #[]

/-- What a program holds of a pager that it started. -/
structure Pager where
  /-- The addresses of the pages. -/
  range : Range
  /-- Pages that may be resident at once. -/
  budget : Nat
  /-- How victims are chosen. -/
  policy : PolicyKind
  /-- The interval of the timer, if it runs. -/
  timer : Option Interval

/-- A process that may use a pager. -/
structure UserProcess where
  /-- The slot of the active pager. -/
  active : Option Session := none
  /-- The pagers that were handed out and are neither shut down nor dropped; the latest stands first. -/
  pagers : List Pager := []
  /-- What the slot held when it was emptied by a shutdown for the first time. -/
  ended : Option Session := none
  /-- The timer signal. -/
  alarm : Alarm := {}
  /-- How often the timer signal is going to be raised before each of the next moves; it is not raised after the last of
  them. -/
  timing : List Nat := []

namespace UserProcess

/-- Run a step on the managed memory, which needs an active pager. -/
@[inline] def run {α : Type} (x : Step Memory α) : Step UserProcess α := fun t =>
  match t with
  | ⟨⟨some ⟨memory, regions⟩, pagers, ended, alarm, timing⟩, journal⟩ =>
    match x ⟨memory, journal⟩ with
    | .ok a ⟨memory, journal⟩ => .ok a ⟨⟨some ⟨memory, regions⟩, pagers, ended, alarm, timing⟩, journal⟩
    | .error stop ⟨memory, journal⟩ =>
      .error stop ⟨⟨some ⟨memory, regions⟩, pagers, ended, alarm, timing⟩, journal⟩
  | t => .error (.error .inactive) t

/-- Allocate a region and hand out its number. The regions of a pager are numbered from 0; nothing, if the range is
used up. -/
def allocate (size : Nat) : Step UserProcess (Option Nat) := do
  match ← run (Memory.allocateRegion size) with
  | none => return none
  | some region =>
    Step.apply fun p =>
      match p.active with
      | some session =>
        (some session.regions.size,
          { p with active := some { session with regions := session.regions.push region } })
      | none => (none, p)

/-- The region with number `n` of the active pager. -/
def region? (n : Nat) (p : UserProcess) : Option Region := do (← p.active).regions[n]?

/-- Empty the slot; hands out what it held. -/
def vacate : Step UserProcess (Option Session) :=
  Step.apply fun p => (p.active, { p with active := none })

/-- Run a step of the start of a pager. If it stops, the slot is emptied again. -/
def orVacate (x : Step UserProcess Unit) : Step UserProcess Unit := do
  match ← Step.attempt x with
  | .ok _ => return ()
  | .error stop =>
    let _ ← vacate
    throw stop

/-- Install the handlers of both signals. -/
def install {σ : Type} (host : Host) : Step σ Unit := do
  Step.refuse ((host.handler .segmentation).map (.signal .segmentation))
  Step.refuse ((host.handler .alarm).map (.signal .alarm))

/-- Start the timer, if there is an interval. -/
def startTimer {σ : Type} (host : Host) (timer : Option Interval) : Step σ Unit :=
  Step.refuse (if timer.isSome then host.timer.map .timer else none)

/-- Start a pager. -/
def init (host : Host) (config : Config) : Step UserProcess Unit := do
  Step.ofExcept config.validate
  Step.refuse (if host.pageSize = pageSize then none else some (.pageSize host.pageSize))
  Step.refuse (if ← Step.query (·.active.isSome) then some .alreadyInitialized else none)
  let memory ← Memory.new host config
  let pager : Pager := ⟨memory.mapping.range, config.budget, memory.policy.kind, config.timer⟩
  Step.update fun p => { p with active := some { memory } }
  orVacate (install host)
  orVacate (startTimer host config.timer)
  Step.update fun p => { p with pagers := pager :: p.pagers }
  Step.report (.started pager.range)
  Step.report (.configured pager.budget pager.policy pager.timer)

/-- Take the pager with number `n` out of the hands of the program. -/
def surrender (n : Nat) : Step UserProcess (Option Pager) :=
  Step.apply fun p => (p.pagers[n]?, { p with pagers := p.pagers.eraseIdx n })

/-- Stop the timer of a pager, put the former handlers back and empty the slot, whatever the host refuses; hands out the
last counts. A state that breaks a rule is reported. -/
def teardown (host : Host) (pager : Pager) : Step UserProcess Stats := do
  let stopped := if pager.timer.isSome then host.stopTimer.map .timer else none
  let restored := ((host.restore .alarm).map (.signal .alarm)).or
    ((host.restore .segmentation).map (.signal .segmentation))
  let session ← vacate
  if let some e := session.bind (·.memory.violation?) then
    Step.report (.leftInconsistent e)
  let stats := (session.map (·.memory.stats)).getD {}
  Step.update fun p => { p with ended := p.ended.or session }
  Step.report (.stopped stats)
  Step.refuse stopped
  Step.refuse restored
  return stats

/-- Shut the pager with number `n` down and hand out its last counts. -/
def shutdown (host : Host := .willing) (n : Nat := 0) : Step UserProcess Stats := do
  match ← surrender n with
  | none => Step.fail .inactive
  | some pager => teardown host pager

/-- Drop the pager with number `n`. A failure is reported. -/
def drop (host : Host) (n : Nat) : Step UserProcess Unit := do
  match ← surrender n with
  | none => return ()
  | some pager =>
    match ← Step.attempt (teardown host pager) with
    | .error (.error e) => Step.report (.teardownFailed e)
    | .error stop => throw stop
    | .ok _ => return ()

/-- What the process does when the timer signal is delivered: one tick, if there is a pager. The process does not
survive a failure. -/
def onAlarm (host : Host) : Step UserProcess Unit := do
  if ← Step.query (·.active.isSome) then
    match ← Step.attempt (run (Memory.tick host)) with
    | .ok _ => return ()
    | .error stop => Memory.survive (some stop)

/-- Raise the timer signal. -/
def raise (host : Host) : Step UserProcess Unit := do
  let delivered ← Step.apply fun p =>
    let r := p.alarm.raise
    (r.1, { p with alarm := r.2 })
  if delivered then
    onAlarm host

/-- Raise the timer signal `n` times. -/
def raiseTimes (host : Host) : Nat → Step UserProcess Unit
  | 0 => return ()
  | n + 1 => do
    raise host
    raiseTimes host n

/-- Raise the timer signal as often as it is due before the next move. -/
def pause (host : Host) : Step UserProcess Unit := do
  let n ← Step.apply fun p => (p.timing.headD 0, { p with timing := p.timing.tail })
  raiseTimes host n

/-- Run a step while the timer signal is blocked; a pending signal is delivered after it. -/
def masked {α : Type} (host : Host) (x : Step UserProcess α) : Step UserProcess α := do
  let previous ← Step.apply fun p =>
    let r := p.alarm.block
    (r.1, { p with alarm := r.2 })
  let result ← Step.attempt x
  let delivered ← Step.apply fun p =>
    let r := p.alarm.restore previous
    (r.1, { p with alarm := r.2 })
  if delivered then
    onAlarm host
  match result with
  | .ok a => return a
  | .error stop => throw stop

/-- Run steps one after the other. Only the end of the process keeps the next one from running. -/
def tolerate {α : Type} : List (Step UserProcess α) → Step UserProcess Unit
  | [] => return ()
  | x :: steps => do
    match ← Step.attempt x with
    | .error (.killed s) => throw (.killed s)
    | _ => tolerate steps

/-- How a copy of a process ended: on its own, or by a signal. -/
inductive Ending where
  | finished
  | killed (s : Signal)
  deriving DecidableEq, Repr

/-- The process after a copy of it ran. Memory is not shared with the copy, but the swap file of the pager that the copy
began with is. -/
def shareSwap (p copy : UserProcess) : UserProcess :=
  match p.active, copy.ended.or copy.active with
  | some session, some other =>
    { p with active := some { session with memory := { session.memory with swap := other.memory.swap } } }
  | _, _ => p

/-- Run a step in a copy of the process. What it reports remains, and what it wrote to the swap file. -/
def fork (x : Step UserProcess Unit) : Step UserProcess Ending := fun t =>
  match x { t with state := { t.state with ended := none } } with
  | .error (.killed s) copy => .ok (.killed s) ⟨t.state.shareSwap copy.state, copy.journal⟩
  | .error _ copy | .ok _ copy => .ok .finished ⟨t.state.shareSwap copy.state, copy.journal⟩

end UserProcess

end DemandPaging
