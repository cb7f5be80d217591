import RegisterAssignment.Proofs.File.Outstanding
import RegisterAssignment.Proofs.Lockstep.Commands

/-! Reusing an allocator over a register file. The answers of a register file depend on its
dimensions and on which registers are free, and a reset frees all that were ever handed out. So an
allocator that was reset cannot be told apart from a new one, except by its counters and marks. -/

namespace RegisterAssignment

namespace Pool

variable {p p' : Pool} {i : Nat}

/-- Pools of the same size with the same numbers free. The marks may differ. -/
structure SameFree (p p' : Pool) : Prop where
  capacity : p'.capacity = p.capacity
  free : p'.free = p.free

/-- What is free follows from what is in use. -/
theorem sameFree_of_inUse (hCapacity : p'.capacity = p.capacity)
    (hInUse : ∀ i, p'.InUse i ↔ p.InUse i) : SameFree p p' := by
  refine ⟨hCapacity, ?_⟩
  have hFree (i : Nat) : i ∈ p'.free ↔ i ∈ p.free := by
    have hUsed := hInUse i
    have hBounded := p.bounded i
    have hBounded' := p'.bounded i
    rw [InUse, InUse, hCapacity] at hUsed
    rw [hCapacity] at hBounded'
    tauto
  have hPerm : p'.free.Perm p.free :=
    (List.perm_ext_iff_of_nodup (p'.ascending.imp Nat.ne_of_lt)
      (p.ascending.imp Nat.ne_of_lt)).mpr hFree
  exact hPerm.eq_of_pairwise (fun _ _ _ _ h h' => absurd h (Nat.lt_asymm h')) p'.ascending
    p.ascending

/-- Pools with the same numbers free hand out the same one, or both have none. -/
theorem SameFree.take? (h : SameFree p p') :
    (p.take? = none ∧ p'.take? = none) ∨
      ∃ i q q', p.take? = some (i, q) ∧ p'.take? = some (i, q') ∧ SameFree q q' := by
  cases hTake : p.take? with
  | none =>
      have hNone : p'.take? = none := by
        rw [take?_eq_none_iff, h.free]
        exact take?_eq_none_iff.mp hTake
      exact .inl ⟨rfl, hNone⟩
  | some taken =>
      obtain ⟨i, q⟩ := taken
      obtain ⟨hFree, hCapacity, _⟩ := take?_eq_some hTake
      cases hTake' : p'.take? with
      | none =>
          have hNone := take?_eq_none_iff.mp hTake'
          rw [h.free, hFree] at hNone
          cases hNone
      | some taken' =>
          obtain ⟨j, q'⟩ := taken'
          obtain ⟨hFree', hCapacity', _⟩ := take?_eq_some hTake'
          rw [h.free, hFree] at hFree'
          obtain ⟨rfl, hRest⟩ := List.cons.inj hFree'
          refine .inr ⟨i, q, q', rfl, rfl, ?_, hRest.symm⟩
          rw [hCapacity', hCapacity, h.capacity]

/-- Pools with the same numbers free take back the same ones. -/
theorem SameFree.giveBack? (h : SameFree p p') (i : Nat) :
    (p.giveBack? i = none ∧ p'.giveBack? i = none) ∨
      ∃ q q', p.giveBack? i = some q ∧ p'.giveBack? i = some q' ∧ SameFree q q' := by
  cases hBack : p.giveBack? i with
  | none =>
      have hUnused := giveBack?_eq_none hBack
      refine .inl ⟨rfl, dif_neg ?_⟩
      rwa [h.capacity, h.free]
  | some q =>
      obtain ⟨hFree, hCapacity, _⟩ := giveBack?_eq_some hBack
      cases hBack' : p'.giveBack? i with
      | none =>
          have hUnused := giveBack?_eq_none hBack'
          rw [InUse, h.capacity, h.free] at hUnused
          exact absurd (inUse_of_giveBack? hBack).1 hUnused
      | some q' =>
          obtain ⟨hFree', hCapacity', _⟩ := giveBack?_eq_some hBack'
          refine .inr ⟨q, q', rfl, rfl, ?_, ?_⟩
          · rw [hCapacity', hCapacity, h.capacity]
          · rw [hFree', hFree, h.free]

end Pool

namespace File

variable {t t' : File}

/-- Register files that agree in everything but their marks. -/
structure SameUse (t t' : File) : Prop where
  width : t'.pointerWidth = t.pointerWidth
  pools : ∀ kind, Pool.SameFree (t.pool kind) (t'.pool kind)

theorem SameUse.setPool (h : SameUse t t') {p p' : Pool} (hPool : Pool.SameFree p p')
    (kind : FileKind) : SameUse (t.setPool kind p) (t'.setPool kind p') where
  width := by simp [h.width]
  pools other := by
    rw [pool_setPool, pool_setPool]
    split
    · exact hPool
    · exact h.pools other

/-- No answer of a register file depends on its marks. -/
theorem interchangeable_sameUse : Interchangeable SameUse where
  describe h ty := by
    change describe _ ty = describe _ ty
    rw [describe, describe, h.width]
  take {t t'} h wanted := by
    change (take wanted t').result = (take wanted t).result ∧
      SameUse (take wanted t).state (take wanted t').state
    rw [take, take]
    rcases (h.pools wanted.kind).take? with ⟨hNone, hNone'⟩ | ⟨i, q, q', hTake, hTake', hRest⟩
    · rw [hNone, hNone', (h.pools wanted.kind).capacity]
      exact ⟨rfl, h⟩
    · rw [hTake, hTake']
      exact ⟨rfl, h.setPool hRest wanted.kind⟩
  giveBack {t t'} h held := by
    change (giveBack held t').result = (giveBack held t).result ∧
      SameUse (giveBack held t).state (giveBack held t').state
    rw [giveBack, giveBack]
    rcases (h.pools held.kind).giveBack? held.index with ⟨hNone, hNone'⟩ | ⟨q, q', hBack, hBack',
      hRest⟩
    · rw [hNone, hNone']
      exact ⟨rfl, h⟩
    · rw [hBack, hBack']
      exact ⟨rfl, h.setPool hRest held.kind⟩

theorem take_capacity (wanted : Descriptor FileKind) (t : File) (kind : FileKind) :
    ((take wanted t).state.pool kind).capacity = (t.pool kind).capacity := by
  rw [take]
  split
  next i q hTake =>
    rw [pool_setPool]
    split
    next hKind => rw [(Pool.take?_eq_some hTake).2.1, hKind]
    next => rfl
  next => rfl

theorem giveBack_capacity (held : Hardware FileKind) (t : File) (kind : FileKind) :
    ((giveBack held t).state.pool kind).capacity = (t.pool kind).capacity := by
  rw [giveBack]
  split
  next q hBack =>
    rw [pool_setPool]
    split
    next hKind => rw [(Pool.giveBack?_eq_some hBack).2.1, hKind]
    next => rfl
  next => rfl

/-- The dimensions of a register file never change. -/
theorem dimensions_of_exchange {calls : List (Call FileKind)} (h : Exchange t calls t') :
    t'.pointerWidth = t.pointerWidth ∧
      ∀ kind, (t'.pool kind).capacity = (t.pool kind).capacity := by
  induction h with
  | none => exact ⟨rfl, fun _ => rfl⟩
  | describe ty _ ih => exact ih
  | take wanted _ ih =>
      refine ⟨ih.1.trans (take_pointerWidth wanted _), ?_⟩
      intro kind
      exact (ih.2 kind).trans (take_capacity wanted _ kind)
  | giveBack held _ ih =>
      refine ⟨ih.1.trans (giveBack_pointerWidth held _), ?_⟩
      intro kind
      exact (ih.2 kind).trans (giveBack_capacity held _ kind)

/-- A register file of which nothing is in use is as good as new. -/
theorem sameUse_new {config : FileConfig} {calls : List (Call FileKind)}
    (h : Exchange (new config) calls t) (hUnused : ∀ slot, ¬ t.InUse slot) :
    SameUse (new config) t := by
  obtain ⟨hWidth, hCapacity⟩ := dimensions_of_exchange h
  refine ⟨hWidth, ?_⟩
  intro kind
  apply Pool.sameFree_of_inUse (hCapacity kind)
  intro i
  exact iff_of_false (hUnused (kind, i)) (not_inUse_new config (kind, i))

end File

namespace Allocator

section Rebind

variable {σ κ : Type} [DecidableEq κ] [RegisterKind κ] [Target σ κ]

/-- No command changes the policy. -/
theorem Step.rebind_eq {a : Allocator σ κ} {c : Command κ}
    {o : Outcome (Allocator σ κ) κ (Answer κ)} (h : Step a c o) : o.state.rebind = a.rebind := by
  cases h with
  | made _ _ =>
      simp only [Outcome.map, settle]
      split <;> rfl
  | answered _ | placed _ | aliased _ | freed _ | cleared | bound _ | released _ | described _
  | taken _ | givenBack _ => rfl

theorem run_rebind (a : Allocator σ κ) (commands : List (Command κ)) :
    (a.run commands).rebind = a.rebind := by
  induction commands generalizing a with
  | nil => rfl
  | cons c rest ih =>
      rw [run_cons, ih]
      exact (perform_step c a).rebind_eq

end Rebind

/-- An allocator that was reset after managed requests is in step with a new one: its bindings owned
all that was in use, and none are left. -/
theorem inStep_reset (config : FileConfig) (options : Options) {requests : List Request}
    (hManaged : ∀ r ∈ requests, r.managed = true) :
    let start : Allocator File FileKind := new (File.new config) options
    let again := (reset (start.run (requests.map Command.request))).state
    InStep File.SameUse again.supply.made start again := by
  intro start again
  -- The reset is one more managed request of the run.
  let all : List Request := requests ++ [.reset]
  have hRun : again = start.run (all.map Command.request) := by
    rw [List.map_append, run_append]
    change _ = (perform (.request .reset) _).state
    rw [perform, serve, Action.map_apply]
    rfl
  have hAll : ∀ r ∈ all, r.managed = true := by
    intro r hMem
    rcases List.mem_append.mp hMem with hEarlier | hLast
    · exact hManaged r hEarlier
    · rw [List.mem_singleton.mp hLast]
      rfl
  have hEmpty : again.bindings = .empty ∧ again.aliases = .empty := by
    rw [show again = _ from Outcome.state_eq (silent_reset _)]
    exact ⟨rfl, rfl⟩
  have hOwns : again.Owns := by
    rw [hRun]
    exact run_owns config options hAll
  have hUnused (slot : FileKind × Nat) : ¬ again.target.InUse slot := by
    rw [← hOwns.inUse, hEmpty.1]
    exact List.not_mem_nil
  have hDirect : ∀ c ∈ all.map Command.request, (c : Command FileKind).direct = false := by
    intro c hMem
    obtain ⟨r, _, rfl⟩ := List.mem_map.mp hMem
    rfl
  have hExchange := (run_booked start hDirect).exchange
  rw [← hRun] at hExchange
  refine ⟨⟨File.sameUse_new hExchange hUnused, (Nat.zero_add _).symm⟩, hEmpty.1, hEmpty.2, ?_⟩
  rw [hRun, run_rebind]

/-- Reset gives back a fresh allocator. After any managed requests and a reset, whatever is
requested next ends, request by request, as it does with a new allocator of the same configuration
and options: with the same error or the same answer, with the same calls into the target and their
answers, and with the same tables and the same registers free, all registers being the same but for
the numbers of their origins, which go on from where they were. -/
theorem reset_gives_fresh_allocator (config : FileConfig) (options : Options)
    (before later : List Request) (hManaged : ∀ r ∈ before, r.managed = true) :
    let fresh : Allocator File FileKind := new (File.new config) options
    let again := (reset (fresh.run (before.map Command.request))).state
    let n := again.supply.made
    List.Forall₂ (Mirrors (InStep File.SameUse n) (Answer.shift n)) (fresh.served later)
      (again.served later) := by
  intro fresh again n
  exact (inStep_reset config options hManaged).served File.interchangeable_sameUse later

/-- Before the reset a structure is freed through an alias and a second one fails midway. Afterwards
a value gets the lowest register again and a structure fails for want of a second one, as with a new
allocator; only the origin, the counters and the marks tell the two apart. -/
theorem reset_gives_fresh_allocator_after_failure :
    let pair : Value := ⟨0, .struct [.scalar .i32, .scalar .f64]⟩
    let single : Value := ⟨1, .scalar .i64⟩
    let before : List Request := [.allocate pair, .allocate { pair with id := 2 },
      .aliasTo ⟨3, .string⟩ pair, .free ⟨3, .string⟩, .allocateConstant ⟨4, .scalar .i32⟩ (.i32 7),
      .allocate { pair with id := 5 }, .allocateHardware single]
    let later : List Request := [.allocate single, .aliasTo ⟨3, .string⟩ single,
      .allocate ⟨2, .struct [.scalar .i32, .scalar .i32]⟩]
    let fresh : Allocator File FileKind := new (File.new ⟨2, 1, .bits64⟩) default
    let again := (reset (fresh.run (before.map Command.request))).state
    let n := again.supply.made
    (∀ r ∈ before, r.managed = true) ∧ n = 9 ∧
      List.Forall₂ (Mirrors (InStep File.SameUse n) (Answer.shift n)) (fresh.served later)
        (again.served later) ∧
      (again.served later).map (fun o => o.result.isOk) = [true, true, false] ∧
      (again.run (later.map Command.request)).load ⟨3, .string⟩ =
        .ok (.hardware (.allocated 9) ⟨⟨.scalar .i64, some .i64, .general⟩, 0⟩) ∧
      (fresh.run (later.map Command.request)).load ⟨3, .string⟩ =
        .ok (.hardware (.allocated 0) ⟨⟨.scalar .i64, some .i64, .general⟩, 0⟩) ∧
      (again.target.pool .general).peak = 2 ∧ again.stats.hardwareFreed = 6 := by
  intro pair single before later fresh again n
  have hManaged : ∀ r ∈ before, r.managed = true := by decide +kernel
  have hMade : n = 9 := by decide +kernel
  have hSame : List.Forall₂ (Mirrors (InStep File.SameUse n) (Answer.shift n))
      (fresh.served later) (again.served later) := by
    unfold n again fresh
    exact reset_gives_fresh_allocator ⟨2, 1, .bits64⟩ default before later hManaged
  have hResults : (again.served later).map (fun o => o.result.isOk) = [true, true, false] := by
    decide +kernel
  have hAgain : (again.run (later.map Command.request)).load ⟨3, .string⟩ =
      .ok (.hardware (.allocated 9) ⟨⟨.scalar .i64, some .i64, .general⟩, 0⟩) := by decide +kernel
  have hFresh : (fresh.run (later.map Command.request)).load ⟨3, .string⟩ =
      .ok (.hardware (.allocated 0) ⟨⟨.scalar .i64, some .i64, .general⟩, 0⟩) := by decide +kernel
  have hPeak : (again.target.pool .general).peak = 2 := by decide +kernel
  have hFreed : again.stats.hardwareFreed = 6 := by decide +kernel
  exact ⟨hManaged, hMade, hSame, hResults, hAgain, hFresh, hPeak, hFreed⟩

end Allocator

end RegisterAssignment
