import DemandPaging.FileTree
import DemandPaging.Page
import DemandPaging.Permission
import DemandPaging.Address
import DemandPaging.Random.Cipher
import DemandPaging.Signal

/-!
# The host

The pager depends on the operating system for memory, protection, a file and
timers. A `Host` says which of these calls are refused at the moment, so a
failure is an input like any other.
-/

namespace DemandPaging

/-- A write that was cut short. -/
structure TornWrite where
  /-- Bytes that were stored before the refusal. -/
  stored : Nat
  /-- The refusal. -/
  cause : HostError
  deriving DecidableEq, Repr

/-- The conditions under which the pager runs. -/
structure Host where
  /-- Bytes in a page of the host. -/
  pageSize : Nat := DemandPaging.pageSize
  /-- Randomness for a policy without a seed. -/
  entropy : Random.Key := .replicate 8 0
  /-- Where the host places a range that it reserves. -/
  placement : Address := Address.ofNat preferredBase
  /-- Refusal to create a file in the given directory. -/
  createFile : Option String → Option HostError := fun _ => none
  /-- Refusal to give the swap file its size. -/
  extendFile : Option HostError := none
  /-- Refusal to reserve the range. -/
  reserve : Option HostError := none
  /-- Refusal to give a page memory. -/
  bind : Page → Option HostError := fun _ => none
  /-- Refusal to take the memory of a page back. -/
  unbind : Page → Option HostError := fun _ => none
  /-- Refusal to change the rights of a page. -/
  protect : Page → Permission → Option HostError := fun _ _ => none
  /-- Refusal to read the slot of a page. -/
  readSlot : Page → Option HostError := fun _ => none
  /-- A write to the slot of a page that is cut short. -/
  writeSlot : Page → Option TornWrite := fun _ => none
  /-- Refusal to install the handler of a signal. -/
  handler : Signal → Option HostError := fun _ => none
  /-- Refusal to put the former handler of a signal back. -/
  restore : Signal → Option HostError := fun _ => none
  /-- Refusal to start the timer. -/
  timer : Option HostError := none
  /-- Refusal to stop the timer. -/
  stopTimer : Option HostError := none

namespace Host

/-- A host that refuses nothing. -/
def willing : Host := {}

/-- The position of the slot of a page in the swap file. -/
def slotOffset (p : Page) : Nat := p.val * DemandPaging.pageSize

/-- Positions in a file are below this bound. -/
abbrev positionLimit : Nat := 9223372036854775808

/-- The position at which writes end when files are limited to `limit` bytes. A limit that is no position ends them at
the start of the file. -/
def writeEnd (limit : Nat) : Nat := if limit < positionLimit then limit else 0

/-- The host with files limited to `limit` bytes: a write that reaches beyond its end stores what fits. The largest word
stands for no limit. -/
def withFileLimit (h : Host) (limit : Nat) : Host :=
  if limit + 1 = wordLimit then h
  else { h with
    extendFile := if limit < swapSize then some .fileTooLarge else h.extendFile
    writeSlot := fun p =>
      if writeEnd limit < slotOffset p + DemandPaging.pageSize then
        some ⟨writeEnd limit - slotOffset p, .fileTooLarge⟩
      else h.writeSlot p }

/-- The host after `count` ranges were reserved, which are placed one behind the other. -/
def withReservations (h : Host) (count : Nat) : Host :=
  { h with placement := Address.ofNat (preferredBase + count * memorySize) }

/-- The host in which files can be created where the given directories take them. -/
def withFileTree (h : Host) (t : FileTree) : Host :=
  { h with createFile := fun directory => (directory.bind t.refusal).or (h.createFile directory) }

end Host

end DemandPaging
