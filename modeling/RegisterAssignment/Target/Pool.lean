/-!
A pool of numbered registers. The lowest free number is handed out first, and a number that comes
back is free again.
-/

namespace RegisterAssignment

/-- Puts a number into an ascending list, keeping it ascending. -/
def insertAscending (i : Nat) : List Nat → List Nat
  | [] => [i]
  | j :: rest => if i < j then i :: j :: rest else j :: insertAscending i rest

@[simp] theorem mem_insertAscending {i k : Nat} {l : List Nat} :
    k ∈ insertAscending i l ↔ k = i ∨ k ∈ l := by
  induction l with
  | nil => simp [insertAscending]
  | cons j rest ih =>
    rw [insertAscending]
    split
    · simp
    · simp only [List.mem_cons, ih]
      exact or_left_comm

/-- A number that was out comes back to its place among the free ones. -/
theorem pairwise_insertAscending {i : Nat} {l : List Nat} (sorted : l.Pairwise (· < ·))
    (absent : i ∉ l) : (insertAscending i l).Pairwise (· < ·) := by
  induction l with
  | nil => simp [insertAscending]
  | cons j rest ih =>
    rw [List.pairwise_cons] at sorted
    simp only [List.mem_cons, not_or] at absent
    rw [insertAscending]
    split
    next lt =>
      refine List.pairwise_cons.mpr ⟨fun k hk => ?_, List.pairwise_cons.mpr sorted⟩
      rcases List.mem_cons.mp hk with rfl | hk
      · exact lt
      · exact Nat.lt_trans lt (sorted.1 k hk)
    next ge =>
      refine List.pairwise_cons.mpr ⟨fun k hk => ?_, ih sorted.2 absent.2⟩
      rcases mem_insertAscending.mp hk with rfl | hk
      · exact Nat.lt_of_le_of_ne (Nat.le_of_not_lt ge) (Ne.symm absent.1)
      · exact sorted.1 k hk

/-- A pool of registers with the numbers below `capacity`. It keeps those that are free, in
ascending order, and the largest number of registers that were ever in use at once. -/
structure Pool where
  capacity : Nat
  free : List Nat
  peak : Nat
  ascending : free.Pairwise (· < ·)
  bounded : ∀ i ∈ free, i < capacity
deriving DecidableEq

namespace Pool

def full (capacity : Nat) : Pool where
  capacity := capacity
  free := List.range capacity
  peak := 0
  ascending := List.pairwise_lt_range
  bounded _ h := List.mem_range.mp h

def inUse (p : Pool) : Nat := p.capacity - p.free.length

/-- Takes the lowest free register, if there is one. -/
def take? : Pool → Option (Nat × Pool)
  | ⟨_, [], _, _, _⟩ => none
  | ⟨capacity, i :: rest, peak, ascending, bounded⟩ =>
    some (i, {
      capacity := capacity
      free := rest
      peak := max peak (capacity - rest.length)
      ascending := (List.pairwise_cons.mp ascending).2
      bounded := fun k hk => bounded k (List.mem_cons_of_mem i hk) })

/-- Puts a register back. It is refused if the pool has no such register, or if that register is
free already. -/
def giveBack? (p : Pool) (i : Nat) : Option Pool :=
  if h : i < p.capacity ∧ i ∉ p.free then
    some {
      capacity := p.capacity
      free := insertAscending i p.free
      peak := p.peak
      ascending := pairwise_insertAscending p.ascending h.2
      bounded := fun k hk =>
        (mem_insertAscending.mp hk).elim (fun e => e ▸ h.1) (p.bounded k) }
  else none

end Pool

end RegisterAssignment
