import DemandPaging.Demo.Options
import DemandPaging.UserProcess.Access

/-!
# The demo

Two random matrices are stored in managed memory and multiplied into a third
one. The same is done in ordinary memory, and all three pairs are compared. The
run is a step on a console: the process and what was printed so far.
-/

namespace DemandPaging.Demo

/-- A process and the text that it printed. -/
structure Console where
  /-- The process. -/
  process : UserProcess := {}
  /-- The printed text. -/
  output : String := ""

namespace Console

/-- Run a step of the process. -/
@[inline] def run {α : Type} (x : Step UserProcess α) : Step Console α := fun t =>
  match t with
  | ⟨⟨process, output⟩, journal⟩ =>
    match x ⟨process, journal⟩ with
    | .ok a ⟨process, journal⟩ => .ok a ⟨⟨process, output⟩, journal⟩
    | .error stop ⟨process, journal⟩ => .error stop ⟨⟨process, output⟩, journal⟩

/-- Run a step on the managed memory. -/
@[inline] def page {α : Type} (x : Step Memory α) : Step Console α := run (UserProcess.run x)

/-- Print text. -/
def print (text : String) : Step Console Unit :=
  Step.update fun c => { c with output := c.output ++ text }

/-- Print a line. -/
def printLine (text : String) : Step Console Unit := print (text ++ "\n")

/-- A matrix of the process, as the console sees it. -/
def lift (a : Matrix (Step UserProcess)) : Matrix (Step Console) where
  rows := a.rows
  columns := a.columns
  get r c := run (a.get r c)
  set r c x := run (a.set r c x)

/-- A matrix in managed memory, as the console sees it. -/
def view (host : Host) (a : PagedMatrix) : Matrix (Step Console) := lift (a.shared host)

end Console

open Console

/-- How a run that did not stop came out. -/
inductive Verdict where
  /-- The matrices were compared; tells whether all of them agree. -/
  | compared (agree : Bool)
  /-- The matrices do not fit into the managed range. -/
  | tooLarge
  deriving DecidableEq, Repr

/-- A matrix in managed memory and the same matrix in ordinary memory. -/
structure Twins where
  /-- The matrix in managed memory. -/
  paged : PagedMatrix
  /-- The matrix in ordinary memory. -/
  heap : HeapMatrix

/-- Bytes of a matrix of size `n`, if their number is a machine word. -/
def matrixBytes? (n : Nat) : Option Nat :=
  if wordLimit ≤ n * n ∨ wordLimit ≤ n * n * Region.wordSize then none
  else some (n * n * Region.wordSize)

/-- Make room for a matrix of size `n` in both memories; nothing, if the managed range is used up. -/
def newTwins (host : Host) (n bytes : Nat) : Step Console (Option Twins) := do
  let heap ← Step.ofChecked (HeapMatrix.zero n n)
  Console.run (UserProcess.pause host)
  match ← page (Memory.allocateRegion bytes) with
  | none => return none
  | some region =>
    let paged ← Step.ofChecked (PagedMatrix.ofRegion n n region)
    return some ⟨paged, heap⟩

/-- Draw the elements of a matrix and store it in both memories. -/
def fillTwins (host : Host) (t : Twins) (s : Random.Stream) : Step Console (Twins × Random.Stream) := do
  let (s, heap) := t.heap.generate s
  let target := view host t.paged
  Step.ofChecked (Matrix.copyable (heap.rows, heap.columns) target.shape)
  heap.view.copy target
  return ({ t with heap }, s)

/-- Compare a matrix in both memories and print the outcome. -/
def checkTwins (host : Host) (name : String) (t : Twins) : Step Console Bool := do
  let same ← Matrix.equal (view host t.paged) t.heap.view
  printLine (if same then " * " ++ name ++ " is correct"
    else " * ERROR:  " ++ name ++ " doesn't contain correct values!")
  return same

/-- Print the settings. -/
def printOptions (o : Options) : Step Console Unit := do
  printLine "Options:"
  printLine (" * Random seed = " ++ toString o.seed)
  printLine (" * Max resident pages = " ++ toString o.budget)
  printLine (" * Eviction policy = " ++ o.policy.text)
  printLine (" * Using " ++ toString o.size ++ " x " ++ toString o.size ++ " matrices\n")

/-- The configuration of the pager in a run. -/
def Options.config (o : Options) : Config :=
  { budget := o.budget, policy := o.policy, seed := some (UInt64.ofNat o.seed) }

/-- Multiply both matrices into `result`, in both memories. A dot is printed for each row in managed memory. -/
def multiplyTwins (host : Host) (a b result : Twins) : Step Console Twins := do
  let left := view host a.paged
  let right := view host b.paged
  Step.ofChecked (Matrix.conforming left.shape right.shape)
  Matrix.multiply left right (view host result.paged) fun _ => print "."
  printLine ""
  let heap ← Step.ofChecked (a.heap.multiply b.heap result.heap)
  return { result with heap }

/-- Print the counts of a pager that was shut down. -/
def printStats (stats : Stats) : Step Console Unit := do
  printLine "\nDone!\n"
  printLine ("Total page loads:  " ++ toString stats.loads)
  printLine ("Faults: " ++ toString stats.faults ++ ", evictions: " ++ toString stats.evictions ++
    ", flushes: " ++ toString stats.flushes ++ ", ticks: " ++ toString stats.ticks)

/-- Run the demo with the given settings. -/
def run (host : Host) (o : Options) : Step Console Verdict := do
  printOptions o
  Console.run (UserProcess.init host o.config)
  let n := o.size
  let some bytes := matrixBytes? n | return .tooLarge
  printLine "Generating two matrices\n"
  let some a ← newTwins host n bytes | return .tooLarge
  let (a, s) ← fillTwins host a (.ofSeed (UInt64.ofNat o.seed))
  let some b ← newTwins host n bytes | return .tooLarge
  let (b, _) ← fillTwins host b s
  let some result ← newTwins host n bytes | return .tooLarge
  printLine "Multiplying the matrices together"
  printLine " * Printing one dot per row in result matrix.\n"
  let result ← multiplyTwins host a b result
  printLine "Verifying source and result matrix contents"
  let first ← checkTwins host "Matrix m1" a
  let second ← checkTwins host "Matrix m2" b
  let third ← checkTwins host "Result matrix" result
  Console.run (UserProcess.pause host)
  printStats (← Console.run (UserProcess.shutdown host))
  return .compared (first && second && third)

/-- Run the demo; a pager that is still active when the run ends is dropped. -/
def runToEnd (host : Host) (o : Options) : Step Console (Except Stop Verdict) := do
  let outcome ← Step.attempt (run host o)
  match outcome with
  | .error (.killed _) => return outcome
  | _ =>
    Console.run (UserProcess.drop host 0)
    return outcome

/-- What a run of the program leaves behind. -/
structure Outcome where
  /-- The exit status, unless a signal ended the process. -/
  exit : Option Nat
  /-- The signal that ended the process. -/
  signal : Option Signal
  /-- The printed text. -/
  output : String
  /-- The log and the error messages. -/
  errors : String
  deriving DecidableEq, Repr

/-- The text of some lines. -/
def linesText (lines : List String) : String := String.join (lines.map (· ++ "\n"))

/-- Run the program: the host, the time, the environment variable that sets the log threshold, the arguments. -/
def execute (host : Host) (now : Nat) (logVariable : Option String) (arguments : List String) : Outcome :=
  let threshold := Log.Threshold.ofEnvironment logVariable (.upTo .info)
  match Options.ofArguments now arguments with
  | .error e => ⟨some 1, none, "", e.text⟩
  | .ok o =>
    match (runToEnd host o).run ⟨{}, #[]⟩ with
    | .error _ t => ⟨some 1, none, t.state.output, linesText (Event.logLines threshold t.journal)⟩
    | .ok outcome t =>
      let log := linesText (Event.logLines threshold t.journal)
      let output := t.state.output
      match outcome with
      | .ok (.compared agree) => ⟨some (if agree then 0 else 1), none, output, log⟩
      | .ok .tooLarge =>
        ⟨some 1, none, output, log ++ "matrix-demo: " ++ toString o.size ++ "x" ++ toString o.size ++
          " matrices do not fit into the managed range\n"⟩
      | .error (.error e) => ⟨some 1, none, output, log ++ "matrix-demo: " ++ e.message ++ "\n"⟩
      | .error (.panic p) => ⟨some 101, none, output, log ++ p.message ++ "\n"⟩
      | .error (.killed s) => ⟨none, some s, output, log⟩

end DemandPaging.Demo
