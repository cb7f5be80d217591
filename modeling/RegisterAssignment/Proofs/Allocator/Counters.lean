import Mathlib.Algebra.BigOperators.Group.List.Basic
import Mathlib.Algebra.Ring.Nat
import RegisterAssignment.Proofs.Allocator.Step
import RegisterAssignment.Proofs.File.InUse
import RegisterAssignment.Proofs.Supply.Calls
import RegisterAssignment.Target.Virtual

/-! The counters of an allocator against the state of its target. The allocator counts what it
takes and gives back; a register file knows what is in use, and the virtual target keeps counts of
its own. As long as nobody goes past the allocator these agree in every state, with releases that
are refused and with structures that cannot be completed. -/

namespace RegisterAssignment

variable {σ κ : Type}

def Command.direct : Command κ → Bool
  | .describe _ | .take _ | .giveBack _ => true
  | .request _ | .bindTo .. | .freeRegister _ => false

namespace Allocator

variable [DecidableEq κ] [RegisterKind κ] [Target σ κ]

/-- All calls into the target that a sequence of commands makes, in order. -/
def history (a : Allocator σ κ) : List (Command κ) → List (Call κ)
  | [] => []
  | c :: rest => (perform c a).calls ++ history (perform c a).state rest

omit [DecidableEq κ] in
/-- Every way of making a register keeps the books. -/
theorem Making.books {a : Allocator σ κ} {r : Request} {v : Value}
    {make : Action (Supply σ) κ (Register κ)} (h : Making a r v make) : Supply.Books make := by
  cases h with
  | allocate v => exact Supply.books_place _
  | allocateHardware v => exact Supply.books_placeWhole _
  | allocateConstant v literal => exact Supply.books_placeConstant _ _

/-- Whatever a command does to the target and to the counters is in its calls. -/
theorem Step.booked {a : Allocator σ κ} {c : Command κ}
    {o : Outcome (Allocator σ κ) κ (Answer κ)} (h : Step a c o) (hDirect : c.direct = false) :
    Supply.Booked a.supply o.calls o.state.supply := by
  cases h with
  | answered _ => exact Supply.booked_refl _
  | made hMaking _ =>
      simp only [Outcome.map, settle]
      split
      · exact hMaking.books _
      · exact hMaking.books _
  | placed ty => exact Supply.books_place ty _
  | aliased _ =>
      have hCounted : Supply.Booked a.supply ([] : List (Call κ))
          (a.supply.tally fun stats => { stats with aliases := stats.aliases + 1 }) := by
        apply Supply.booked_tally <;> exact fun _ => rfl
      exact hCounted.trans (Supply.books_giveUpAll _ _)
  | freed _ => exact Supply.books_giveUpAll _ a.supply
  | cleared => exact Supply.books_giveUpAll _ a.supply
  | bound _ =>
      have hCounted : Supply.Booked a.supply ([] : List (Call κ))
          (a.supply.tally fun stats => { stats with binds := stats.binds + 1 }) := by
        apply Supply.booked_tally <;> exact fun _ => rfl
      exact hCounted
  | released register => exact Supply.books_giveUpAll _ a.supply
  | described _ | taken _ | givenBack _ => cases hDirect

/-- Along a run that leaves the target to the allocator, the calls account for the counters. -/
theorem run_booked (a : Allocator σ κ) {commands : List (Command κ)}
    (hDirect : ∀ c ∈ commands, c.direct = false) :
    Supply.Booked a.supply (a.history commands) (a.run commands).supply := by
  induction commands generalizing a with
  | nil => exact Supply.booked_refl _
  | cons c rest ih =>
      have hFirst : Supply.Booked a.supply (perform c a).calls (perform c a).state.supply :=
        (perform_step c a).booked (hDirect c (List.mem_cons_self ..))
      have hRest := ih (perform c a).state fun d hd => hDirect d (List.mem_cons_of_mem c hd)
      exact hFirst.trans hRest

/-- The target is where the calls of a command have brought it, also if the client has made them
past the allocator. -/
theorem Step.exchange {a : Allocator σ κ} {c : Command κ}
    {o : Outcome (Allocator σ κ) κ (Answer κ)} (h : Step a c o) :
    Exchange a.target o.calls o.state.target := by
  cases hDirect : c.direct with
  | false => exact (h.booked hDirect).exchange
  | true =>
      cases h with
      | answered _ => exact .none _
      | described ty => exact .describe ty (.none _)
      | taken wanted => exact .take wanted (.none _)
      | givenBack held => exact .giveBack held (.none _)
      | made | placed | aliased | freed | cleared | bound | released => cases hDirect

/-- Whatever a run does to the target, it does through calls, those past the allocator included. -/
theorem run_exchange (a : Allocator σ κ) (commands : List (Command κ)) :
    Exchange a.target (a.history commands) (a.run commands).target := by
  induction commands generalizing a with
  | nil => exact .none _
  | cons c rest ih =>
      have hFirst : Exchange a.target (perform c a).calls (perform c a).state.target :=
        (perform_step c a).exchange
      exact hFirst.trans (ih (perform c a).state)

end Allocator

namespace Pool

variable {p q : Pool} {i : Nat}

theorem length_free_le (p : Pool) : p.free.length ≤ p.capacity := by
  have hNodup : p.free.Nodup := p.ascending.imp fun hLt => Nat.ne_of_lt hLt
  have hBounded : p.free ⊆ List.range p.capacity := fun i hi => List.mem_range.mpr (p.bounded i hi)
  simpa using (hNodup.subperm hBounded).length_le

theorem length_insertAscending (i : Nat) (l : List Nat) :
    (insertAscending i l).length = l.length + 1 := by
  induction l with
  | nil => rfl
  | cons j rest ih =>
      rw [insertAscending]
      split <;> simp [ih]

/-- A pool that hands out a register has one more in use. -/
theorem inUse_take? (h : p.take? = some (i, q)) : q.inUse = p.inUse + 1 := by
  have hFree := p.length_free_le
  obtain ⟨capacity, free, peak, ascending, bounded⟩ := p
  cases free with
  | nil => cases h
  | cons lowest rest =>
      cases h
      simp only [inUse, List.length_cons] at hFree ⊢
      omega

/-- A pool that takes a register back has one less in use. -/
theorem inUse_giveBack? (h : p.giveBack? i = some q) : q.inUse + 1 = p.inUse := by
  have hFree := q.length_free_le
  rw [giveBack?] at h
  split at h
  next hUsed =>
    cases h
    simp only [inUse, length_insertAscending] at hFree ⊢
    omega
  next => cases h

end Pool

namespace File

variable {t t' : File} {wanted : Descriptor FileKind} {held : Hardware FileKind}

/-- How many registers of a register file are in use, of both kinds together. -/
def used (t : File) : Nat := (t.pool .general).inUse + (t.pool .float).inUse

/-- What is in use changes by what changes in the pool that is replaced. -/
theorem used_setPool (t : File) (kind : FileKind) (p : Pool) :
    (t.setPool kind p).used + (t.pool kind).inUse = t.used + p.inUse := by
  cases kind <;> simp [used] <;> omega

theorem used_take_of_ok (h : (take wanted t).result = .ok held) :
    (take wanted t).state.used = t.used + 1 := by
  rw [take] at h ⊢
  split at h
  next i rest hTake =>
    have hPool := Pool.inUse_take? hTake
    have hUsed := t.used_setPool wanted.kind rest
    simp only
    omega
  next => cases h

theorem used_giveBack_of_ok (h : (giveBack held t).result = .ok ()) :
    (giveBack held t).state.used + 1 = t.used := by
  rw [giveBack] at h ⊢
  split at h
  next p hBack =>
    have hPool := Pool.inUse_giveBack? hBack
    have hUsed := t.used_setPool held.kind p
    simp only
    omega
  next => cases h

/-- A register file that refuses a register stays as it is. -/
theorem giveBack_of_error {e : Error} (h : (giveBack held t).result = .error e) :
    (giveBack held t).state = t := by
  rw [giveBack] at h ⊢
  split at h
  next => cases h
  next => rfl

/-- What is in use grows by what is handed out and shrinks by what is taken back. -/
theorem used_of_exchange {calls : List (Call FileKind)} (h : Exchange t calls t') :
    t'.used + (returnedIn calls).length = t.used + (takenIn calls).length := by
  induction h with
  | none => rfl
  | describe ty _ ih => exact ih
  | @take t t' rest wanted _ ih =>
      cases hTake : (take wanted t).result with
      | ok held =>
          have hUsed : (Target.take wanted t).state.used = t.used + 1 := used_take_of_ok hTake
          change _ + (returnedIn rest).length = t.used + ((takenIn rest).length + 1)
          omega
      | error e =>
          have hState : (Target.take wanted t).state = t := (take_of_error hTake).1
          rw [hState] at ih
          exact ih
  | @giveBack t t' rest held _ ih =>
      cases hBack : (giveBack held t).result with
      | ok _ =>
          have hUsed : (Target.giveBack held t).state.used + 1 = t.used := used_giveBack_of_ok hBack
          change _ + ((returnedIn rest).length + 1) = t.used + (takenIn rest).length
          omega
      | error e =>
          have hState : (Target.giveBack held t).state = t := giveBack_of_error hBack
          rw [hState] at ih
          exact ih

theorem used_new (config : FileConfig) : (new config).used = 0 := by
  simp [used, new, pool, Pool.full, Pool.inUse]

end File

namespace Virtual

variable {t t' : Virtual} {calls : List (Call VirtualKind)}

/-- The numbers of the virtual target count what it has handed out, as machine words do. -/
theorem counters_of_exchange (h : Exchange t calls t') (kind : VirtualKind) :
    t'.counters.get kind =
      t.counters.get kind + UInt32.ofNat ((takenIn calls).countP (·.kind = kind)) := by
  induction h with
  | none => simp [takenIn]
  | describe ty _ ih => exact ih
  | @take t t' rest wanted _ ih =>
      have hTaken : takenIn (.take wanted (Target.take wanted t).result :: rest) =
          ⟨wanted, t.allocated wanted.kind⟩ :: takenIn rest := rfl
      have hBumped : (Target.take wanted t).state.counters = t.counters.bump wanted.kind := rfl
      rw [ih, hTaken, hBumped, VirtualCounters.get_bump, List.countP_cons]
      by_cases hKind : kind = wanted.kind
      · subst hKind
        simp [Hardware.kind, UInt32.ofNat_add, UInt32.add_assoc,
          UInt32.add_comm 1 (UInt32.ofNat _)]
      · simp [Hardware.kind, hKind, Ne.symm hKind]
  | giveBack held _ ih => exact ih

/-- The virtual target counts what comes back, and refuses nothing. -/
theorem freed_of_exchange (h : Exchange t calls t') :
    t'.freed = t.freed + (returnedIn calls).length := by
  induction h with
  | none => rfl
  | describe ty _ ih => exact ih
  | take wanted _ ih => exact ih
  | @giveBack t t' rest held _ ih =>
      have hReturned : returnedIn (.giveBack held (Target.giveBack held t).result :: rest) =
          held :: returnedIn rest := rfl
      have hCounted : (Target.giveBack held t).state.freed = t.freed + 1 := rfl
      rw [ih, hReturned, hCounted, List.length_cons]
      omega

/-- Every register is of one kind. -/
theorem sum_countP_kind (leaves : List (Hardware VirtualKind)) :
    (VirtualKind.all.map fun kind => leaves.countP (·.kind = kind)).sum = leaves.length := by
  induction leaves with
  | nil => rfl
  | cons leaf rest ih =>
      simp only [VirtualKind.all, List.map_cons, List.map_nil, List.sum_cons, List.sum_nil,
        List.countP_cons, List.length_cons] at ih ⊢
      cases leaf.kind <;> simp <;> omega

/-- As long as no count has started over, the counts add up to all that was handed out. -/
theorem sum_allocated_of_exchange {width : PointerWidth} (h : Exchange (new width) calls t')
    (hLimit : ∀ kind, (takenIn calls).countP (·.kind = kind) < 2 ^ 32) :
    (VirtualKind.all.map t'.allocated).sum = (takenIn calls).length := by
  have hAllocated : t'.allocated = fun kind => (takenIn calls).countP (·.kind = kind) := by
    funext kind
    have hCounted := counters_of_exchange h kind
    rw [show (new width).counters.get kind = 0 from VirtualCounters.get_zero kind] at hCounted
    rw [allocated, hCounted, UInt32.zero_add]
    exact Nat.mod_eq_of_lt (hLimit kind)
  rw [hAllocated, sum_countP_kind]

end Virtual

namespace Allocator

/-- The counters mirror the target. They are kept from a new target on, and nobody goes past the
allocator; registers of the client's own making, registers that are shared or were released
before, structures that cannot be completed and releases that are refused are all included. On a
register file no more is counted as given back than as taken, and the difference is what is in use.
On the virtual target both counters are those of the target, provided that it has not handed out
more registers of a kind than its numbers can count. -/
theorem counters_mirror_target (rebind : RebindPolicy) :
    (∀ (config : FileConfig) (commands : List (Command FileKind)),
      (∀ c ∈ commands, c.direct = false) →
      let a : Allocator File FileKind := (new (File.new config) ⟨rebind, true⟩).run commands
      a.stats.hardwareFreed ≤ a.stats.hardwareAllocated ∧
      a.stats.hardwareLive = (a.target.pool .general).inUse + (a.target.pool .float).inUse) ∧
    (∀ (width : PointerWidth) (commands : List (Command VirtualKind)),
      (∀ c ∈ commands, c.direct = false) →
      let start : Allocator Virtual VirtualKind := new (Virtual.new width) ⟨rebind, true⟩
      (∀ kind, (takenIn (start.history commands)).countP (·.kind = kind) < 2 ^ 32) →
      let a := start.run commands
      a.stats.hardwareAllocated = (VirtualKind.all.map a.target.allocated).sum ∧
      a.stats.hardwareFreed = a.target.freed) := by
  constructor
  · intro config commands hDirect a
    have hBooked := run_booked (new (File.new config) ⟨rebind, true⟩) hDirect
    have hAllocated := hBooked.allocated rfl
    have hFreed := hBooked.freed rfl
    have hUsed := File.used_of_exchange hBooked.exchange
    rw [show (new (File.new config) ⟨rebind, true⟩ : Allocator File FileKind).supply.target.used = 0
      from File.used_new config] at hUsed
    change a.stats.hardwareAllocated = 0 + _ at hAllocated
    change a.stats.hardwareFreed = 0 + _ at hFreed
    change a.target.used + _ = _ at hUsed
    constructor
    · omega
    · change a.stats.hardwareAllocated - a.stats.hardwareFreed = a.target.used
      omega
  · intro width commands hDirect start hLimit a
    have hBooked := run_booked start hDirect
    have hAllocated := hBooked.allocated rfl
    have hFreed := hBooked.freed rfl
    have hSum := Virtual.sum_allocated_of_exchange hBooked.exchange hLimit
    have hReturned := Virtual.freed_of_exchange hBooked.exchange
    change a.stats.hardwareAllocated = 0 + _ at hAllocated
    change a.stats.hardwareFreed = 0 + _ at hFreed
    change a.target.freed = 0 + _ at hReturned
    change (VirtualKind.all.map a.target.allocated).sum = _ at hSum
    constructor
    · omega
    · omega

/-- A register is bound twice and released twice, one that does not exist is bound and freed, and a
structure cannot be completed. On the register file two of the releases are refused; the virtual
target takes everything back, and more than it has handed out. -/
theorem counters_mirror_target_when_refused :
    let single : Value := ⟨0, .scalar .i32⟩
    let other : Value := ⟨1, .scalar .i32⟩
    let broken : Value := ⟨2, .struct [.scalar .f64, .void]⟩
    let onFile : List (Command FileKind) :=
      let shared : Register FileKind :=
        .hardware (.allocated 0) ⟨⟨.scalar .i32, some .i32, .general⟩, 0⟩
      let stray : Register FileKind :=
        .hardware (.supplied 0) ⟨⟨.scalar .i32, some .i32, .general⟩, 9⟩
      [.request (.allocate single), .bindTo other shared, .request (.free single),
        .freeRegister shared, .bindTo single stray, .request (.free single),
        .request (.allocate broken), .request (.allocate ⟨3, .scalar .f64⟩)]
    let onVirtual : List (Command VirtualKind) :=
      let shared : Register VirtualKind :=
        .hardware (.allocated 0) ⟨⟨.scalar .i32, some .i32, .int32⟩, 0⟩
      [.request (.allocate single), .bindTo other shared, .request (.free single),
        .freeRegister shared, .request (.free other), .request (.allocate broken)]
    let file : Allocator File FileKind := (new (File.new ⟨2, 1, .bits64⟩) ⟨.warn, true⟩).run onFile
    let start : Allocator Virtual VirtualKind := new (Virtual.new .bits64) ⟨.warn, true⟩
    let virtual := start.run onVirtual
    (∀ c ∈ onFile, c.direct = false) ∧ (∀ c ∈ onVirtual, c.direct = false) ∧
      (∀ kind, (takenIn (start.history onVirtual)).countP (·.kind = kind) < 2 ^ 32) ∧
      file.stats.hardwareAllocated = 3 ∧ file.stats.hardwareFreed = 2 ∧
      file.stats.hardwareLive =
        (file.target.pool .general).inUse + (file.target.pool .float).inUse ∧
      virtual.stats.hardwareFreed = 4 ∧ virtual.stats.hardwareFreed = virtual.target.freed ∧
      virtual.stats.hardwareAllocated = (VirtualKind.all.map virtual.target.allocated).sum := by
  intro single other broken onFile onVirtual file start virtual
  have hFile : ∀ c ∈ onFile, c.direct = false := by decide +kernel
  have hVirtual : ∀ c ∈ onVirtual, c.direct = false := by decide +kernel
  have hLimit : ∀ kind, (takenIn (start.history onVirtual)).countP (·.kind = kind) < 2 ^ 32 := by
    intro kind
    cases kind <;> decide +kernel
  obtain ⟨_, hLive⟩ := (counters_mirror_target .warn).1 ⟨2, 1, .bits64⟩ onFile hFile
  obtain ⟨hAllocated, hFreed⟩ := (counters_mirror_target .warn).2 .bits64 onVirtual hVirtual hLimit
  have hTaken : file.stats.hardwareAllocated = 3 := by decide +kernel
  have hReturned : file.stats.hardwareFreed = 2 := by decide +kernel
  have hAll : virtual.stats.hardwareFreed = 4 := by decide +kernel
  exact ⟨hFile, hVirtual, hLimit, hTaken, hReturned, hLive, hAll, hFreed, hAllocated⟩

end Allocator

end RegisterAssignment
