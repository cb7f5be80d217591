import RegisterAssignment.Command
import RegisterAssignment.Register.Walk
import RegisterAssignment.Snapshot
import RegisterAssignment.Target.File
import RegisterAssignment.Target.Scripted
import RegisterAssignment.Target.Virtual
import RegisterAssignment.Proofs.Action
import RegisterAssignment.Proofs.Table
import RegisterAssignment.Proofs.Aliases.Chain
import RegisterAssignment.Proofs.Supply.Release
import RegisterAssignment.Proofs.Allocator.Operations
import RegisterAssignment.Proofs.Allocator.Step
import RegisterAssignment.Proofs.Allocator.Tables
import RegisterAssignment.Proofs.Allocator.Persistence
import RegisterAssignment.Proofs.File.InUse
import RegisterAssignment.Proofs.File.Ownership
import RegisterAssignment.Proofs.File.NoLeak
import RegisterAssignment.Proofs.Supply.Calls
import RegisterAssignment.Proofs.Allocator.Access
import RegisterAssignment.Proofs.Allocator.Counters
import RegisterAssignment.Proofs.Allocator.Sharing
import RegisterAssignment.Proofs.Register.Map
import RegisterAssignment.Proofs.Independence.Outline
import RegisterAssignment.Proofs.Independence.Supply
import RegisterAssignment.Proofs.Independence.Runs
import RegisterAssignment.Proofs.Allocator.Transparency
import RegisterAssignment.Proofs.Supply.Failure
import RegisterAssignment.Proofs.Allocator.Failure
import RegisterAssignment.Proofs.File.Outstanding
import RegisterAssignment.Proofs.Lockstep.Renumber
import RegisterAssignment.Proofs.Lockstep.Supply
import RegisterAssignment.Proofs.Lockstep.Commands
import RegisterAssignment.Proofs.File.Reset
import RegisterAssignment.Proofs.Supply.Stable
import RegisterAssignment.Proofs.Supply.Layout
import RegisterAssignment.Proofs.Allocator.Typing
import RegisterAssignment.Proofs.Allocator.Interchange
import RegisterAssignment.Proofs.Lockstep.Options
import RegisterAssignment.Proofs.Virtual.Numbering
import RegisterAssignment.Proofs.Supply.Offers
import RegisterAssignment.Proofs.Allocator.Freeing
import RegisterAssignment.Proofs.Supply.Scan
import RegisterAssignment.Proofs.Allocator.Rollback
import RegisterAssignment.Proofs.Allocator.Fidelity
import RegisterAssignment.Proofs.File.Admission
import RegisterAssignment.Proofs.Allocator.Rerooting
import RegisterAssignment.Proofs.Allocator.ResetOrder
import RegisterAssignment.Proofs.File.SharedReset
import RegisterAssignment.Proofs.Allocator.SingleRegister
import RegisterAssignment.Proofs.Text.Token
import RegisterAssignment.Proofs.Type.Text
import RegisterAssignment.Proofs.Register.Text
import RegisterAssignment.Proofs.Allocator.Snapshot
