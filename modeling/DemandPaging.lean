import DemandPaging.Address
import DemandPaging.Address.Range
import DemandPaging.Config
import DemandPaging.Counters
import DemandPaging.Demo.Options
import DemandPaging.Demo.Run
import DemandPaging.Entry
import DemandPaging.Error
import DemandPaging.Event
import DemandPaging.Fault
import DemandPaging.FileTree
import DemandPaging.Host
import DemandPaging.HostError
import DemandPaging.HostError.Description
import DemandPaging.Interval
import DemandPaging.Layout
import DemandPaging.Lock.Alarm
import DemandPaging.Lock.Section
import DemandPaging.Lock.SpinLock
import DemandPaging.Log.Descriptor
import DemandPaging.Log.Level
import DemandPaging.Log.LineBuffer
import DemandPaging.Log.Logger
import DemandPaging.Log.Record
import DemandPaging.Main
import DemandPaging.Mapping
import DemandPaging.Matrix
import DemandPaging.Memory
import DemandPaging.Memory.Access
import DemandPaging.Overwrite
import DemandPaging.Page
import DemandPaging.Page.Image
import DemandPaging.Page.Map
import DemandPaging.PageTable
import DemandPaging.Panic
import DemandPaging.Permission
import DemandPaging.Policy
import DemandPaging.Policy.Kind
import DemandPaging.Policy.Observed
import DemandPaging.Policy.Replay
import DemandPaging.Random.Cipher
import DemandPaging.Random.Stream
import DemandPaging.Region
import DemandPaging.Signal
import DemandPaging.Step
import DemandPaging.Swap
import DemandPaging.Text.Align
import DemandPaging.Text.Blank
import DemandPaging.Text.Hexadecimal
import DemandPaging.Text.Unsigned
import DemandPaging.UserProcess
import DemandPaging.UserProcess.Access
import DemandPaging.Proofs.Memory.Allocation
import DemandPaging.Proofs.Memory.Cell
import DemandPaging.Proofs.Memory.Effect
import DemandPaging.Proofs.Memory.Sound
import DemandPaging.Proofs.Memory.Fault
import DemandPaging.Proofs.Memory.Tick
import DemandPaging.Proofs.Memory.Consistency
import DemandPaging.Proofs.Memory.FlatMemory
import DemandPaging.Proofs.Memory.Footprint
import DemandPaging.Proofs.Policy.Replay
import DemandPaging.Proofs.Memory.Mirror
import DemandPaging.Proofs.Memory.Replayed
import DemandPaging.Proofs.Lock.Contention
import DemandPaging.Proofs.Ensures
import DemandPaging.Proofs.Memory.Retry
import DemandPaging.Proofs.Memory.Robust
import DemandPaging.Proofs.Memory.Refusal
import DemandPaging.Proofs.Memory.History
import DemandPaging.Proofs.Memory.Protection
import DemandPaging.Proofs.Memory.Sharing
import DemandPaging.Proofs.Policy.Recency
import DemandPaging.Proofs.Policy.Seniority
import DemandPaging.Proofs.Memory.Lifecycle
import DemandPaging.Proofs.Memory.Rejection
import DemandPaging.Proofs.Memory.Chronicle
import DemandPaging.Proofs.Policy.Conservation
import DemandPaging.Proofs.Memory.Accounting
import DemandPaging.Proofs.Memory.LoadOrder
import DemandPaging.Proofs.Lock.Interruption
import DemandPaging.Proofs.Swap.Transfer
import DemandPaging.Proofs.Process.Sessions
import DemandPaging.Proofs.Process.View
import DemandPaging.Proofs.Process.Isolation
import DemandPaging.Proofs.Memory.Word
import DemandPaging.Proofs.Memory.Shows
import DemandPaging.Proofs.Refines
import DemandPaging.Proofs.Matrix.Account
import DemandPaging.Proofs.Matrix.Elements
import DemandPaging.Proofs.Matrix.Layout
import DemandPaging.Proofs.Matrix.Storage
import DemandPaging.Proofs.Address.Translation
import DemandPaging.Proofs.Demo.Verification
import DemandPaging.Proofs.Table.Representation
import DemandPaging.Proofs.Policy.Partition
import DemandPaging.Proofs.Policy.Reuse
import DemandPaging.Proofs.Memory.Diagnosis
import DemandPaging.Proofs.Log.StackBuffer
import DemandPaging.Proofs.Log.Delivery
import DemandPaging.Proofs.Process.Survival
import DemandPaging.Proofs.Demo.Twins
import DemandPaging.Proofs.Demo.Stages
import DemandPaging.Proofs.Demo.Oversize
import DemandPaging.Proofs.Matrix.Exact
import DemandPaging.Proofs.Text.Literal
import DemandPaging.Proofs.Demo.CommandLine
import DemandPaging.Proofs.Demo.Exactness
