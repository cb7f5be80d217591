import RegisterAssignment.Text.Document

/-!
Counters over the life of an allocator.
-/

namespace RegisterAssignment

/-- What an allocator has done so far. Only requests that succeed are counted. -/
structure Stats where
  /-- Target registers taken. -/
  hardwareAllocated : Nat
  /-- Target registers given back. -/
  hardwareFreed : Nat
  /-- Constants bound. -/
  constantsBound : Nat
  /-- Compounds built for structures. -/
  compoundsBuilt : Nat
  /-- Aliases stored. -/
  aliases : Nat
  /-- Registers bound by the client. -/
  binds : Nat
deriving DecidableEq

namespace Stats

def zero : Stats := ⟨0, 0, 0, 0, 0, 0⟩

/-- Target registers taken and not yet given back. It is zero if more came back than were
taken, which can happen with registers that were taken by other means. -/
def hardwareLive (s : Stats) : Nat := s.hardwareAllocated - s.hardwareFreed

def document (s : Stats) : Document :=
  .record [
    ("hardware_allocated", .number s.hardwareAllocated),
    ("hardware_freed", .number s.hardwareFreed),
    ("constants_bound", .number s.constantsBound),
    ("compounds_built", .number s.compoundsBuilt),
    ("aliases", .number s.aliases),
    ("binds", .number s.binds)]

end Stats

end RegisterAssignment
