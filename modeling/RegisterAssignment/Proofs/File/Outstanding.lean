import Mathlib.Data.Finset.Card
import Mathlib.Data.Finset.Range
import Mathlib.Order.Bounds.Basic
import RegisterAssignment.Proofs.Allocator.Counters

/-! A register file against the set of registers that are out. The file keeps the registers that are
free and a mark; its clients see the answers. What was handed out and not taken back since can be
read off the answers, and it decides every later answer, whatever was asked for and whatever was
offered, registers included that do not exist or are not out. -/

namespace RegisterAssignment

/-- The numbers of a kind that are out after a call. -/
def Call.outstanding {κ : Type} [DecidableEq κ] (kind : κ) (out : Finset Nat) :
    Call κ → Finset Nat
  | .take _ (.ok held) => if held.kind = kind then insert held.index out else out
  | .giveBack held (.ok _) => if held.kind = kind then out.erase held.index else out
  | _ => out

/-- The numbers of a kind that were handed out in these calls and not taken back since. -/
def outstanding {κ : Type} [DecidableEq κ] (kind : κ) (calls : List (Call κ)) : Finset Nat :=
  calls.foldl (Call.outstanding kind) ∅

/-- How many registers of a kind were out, at any point during these calls. -/
def loads {κ : Type} [DecidableEq κ] (kind : κ) (calls : List (Call κ)) : Set Nat :=
  {n | ∃ earlier, earlier <+: calls ∧ (outstanding kind earlier).card = n}

section History

variable {κ : Type} [DecidableEq κ] {kind : κ} {calls : List (Call κ)} {call : Call κ} {peak : Nat}

theorem outstanding_concat (kind : κ) (calls : List (Call κ)) (call : Call κ) :
    outstanding kind (calls ++ [call]) = call.outstanding kind (outstanding kind calls) := by
  simp [outstanding]

/-- Each call adds one point at which registers may be counted. -/
theorem loads_concat (kind : κ) (calls : List (Call κ)) (call : Call κ) :
    loads kind (calls ++ [call]) =
      insert (outstanding kind (calls ++ [call])).card (loads kind calls) := by
  ext n
  simp only [loads, List.prefix_concat_iff, Set.mem_insert_iff, Set.mem_ofPred_eq, or_and_right,
    exists_or, exists_eq_left, eq_comm]

theorem isGreatest_loads_nil (kind : κ) : IsGreatest (loads kind []) 0 := by
  refine ⟨⟨[], List.prefix_rfl, rfl⟩, ?_⟩
  rintro n ⟨earlier, hEarlier, rfl⟩
  rw [List.prefix_nil.mp hEarlier]
  rfl

/-- The greatest count so far is kept, or exceeded by the last one. -/
theorem isGreatest_loads_concat (h : IsGreatest (loads kind calls) peak) (call : Call κ) :
    IsGreatest (loads kind (calls ++ [call]))
      (max peak (call.outstanding kind (outstanding kind calls)).card) := by
  rw [loads_concat, max_comm, outstanding_concat]
  exact h.insert _

/-- A call after which no more registers are out leaves the largest number as it is. -/
theorem isGreatest_loads_of_card_le (h : IsGreatest (loads kind calls) peak)
    (hCard : (call.outstanding kind (outstanding kind calls)).card ≤
      (outstanding kind calls).card) : IsGreatest (loads kind (calls ++ [call])) peak := by
  have hNow : (outstanding kind calls).card ≤ peak := h.2 ⟨calls, List.prefix_rfl, rfl⟩
  have hNext := isGreatest_loads_concat h call
  rwa [max_eq_left (hCard.trans hNow)] at hNext

end History

namespace Pool

variable {p q : Pool} {out : Finset Nat} {i : Nat}

theorem take?_eq_none_iff : p.take? = none ↔ p.free = [] := by
  obtain ⟨capacity, free, peak, ascending, bounded⟩ := p
  cases free <;> simp [take?]

/-- The lowest free number goes out, and the mark is raised to what is in use then. -/
theorem take?_eq_some (h : p.take? = some (i, q)) :
    p.free = i :: q.free ∧ q.capacity = p.capacity ∧ q.peak = max p.peak q.inUse := by
  obtain ⟨capacity, free, peak, ascending, bounded⟩ := p
  cases free with
  | nil => cases h
  | cons lowest rest =>
      cases h
      exact ⟨rfl, rfl, rfl⟩

/-- A number that comes back is free again, and the mark stays. -/
theorem giveBack?_eq_some (h : p.giveBack? i = some q) :
    q.free = insertAscending i p.free ∧ q.capacity = p.capacity ∧ q.peak = p.peak := by
  rw [giveBack?] at h
  split at h
  · cases h
    exact ⟨rfl, rfl, rfl⟩
  · cases h

/-- The numbers of a pool that are in use are these. -/
def Tracks (p : Pool) (out : Finset Nat) : Prop := ∀ i, i ∈ out ↔ p.InUse i

namespace Tracks

/-- The count of a pool is the number of registers that are out. -/
theorem inUse_eq_card (h : p.Tracks out) : p.inUse = out.card := by
  rw [← Finset.length_toList]
  apply inUse_eq_length out.nodup_toList
  intro i
  rw [Finset.mem_toList, h]

/-- There are never more out than the pool has. -/
theorem card_le (h : p.Tracks out) : out.card ≤ p.capacity := by
  rw [← h.inUse_eq_card]
  exact Nat.sub_le _ _

/-- A number of the pool is free exactly if it is not out. -/
theorem mem_free_iff (h : p.Tracks out) : i ∈ p.free ↔ i < p.capacity ∧ i ∉ out := by
  rw [h, InUse]
  have hBounded := p.bounded i
  tauto

/-- Nothing can be taken exactly if everything is out. -/
theorem take?_eq_none_iff (h : p.Tracks out) :
    p.take? = none ↔ out = Finset.range p.capacity := by
  rw [Pool.take?_eq_none_iff, List.eq_nil_iff_forall_not_mem, Finset.ext_iff]
  apply forall_congr'
  intro i
  have hBelow : i ∈ out → i < p.capacity := fun hOut => ((h i).mp hOut).1
  rw [h.mem_free_iff, Finset.mem_range]
  tauto

/-- What is taken is the least number that is not out. -/
theorem isLeast (h : p.Tracks out) (hTake : p.take? = some (i, q)) :
    IsLeast {j | j < p.capacity ∧ j ∉ out} i := by
  have hFree := (take?_eq_some hTake).1
  refine ⟨h.mem_free_iff.mp (by simp [hFree]), ?_⟩
  intro j hj
  have hAscending := p.ascending
  have hMem : j ∈ p.free := h.mem_free_iff.mpr hj
  rw [hFree] at hAscending hMem
  rcases List.mem_cons.mp hMem with rfl | hLater
  · exact Nat.le_refl j
  · exact Nat.le_of_lt ((List.pairwise_cons.mp hAscending).1 j hLater)

theorem take (h : p.Tracks out) (hTake : p.take? = some (i, q)) : q.Tracks (insert i out) := by
  intro j
  rw [Finset.mem_insert, h, (inUse_of_take? hTake).2]

theorem giveBack (h : p.Tracks out) (hBack : p.giveBack? i = some q) : q.Tracks (out.erase i) := by
  intro j
  rw [Finset.mem_erase, h, (inUse_of_giveBack? hBack).2, and_comm]

theorem mem_of_giveBack? (h : p.Tracks out) (hBack : p.giveBack? i = some q) : i ∈ out :=
  (h i).mpr (inUse_of_giveBack? hBack).1

theorem not_mem_of_giveBack? (h : p.Tracks out) (hBack : p.giveBack? i = none) : i ∉ out :=
  mt (h i).mp (giveBack?_eq_none hBack)

end Tracks

/-- A pool of one kind is as these calls have left it. -/
structure Follows (p : Pool) (capacity : Nat) (kind : FileKind) (calls : List (Call FileKind)) :
    Prop where
  size : p.capacity = capacity
  tracks : p.Tracks (outstanding kind calls)
  peak : IsGreatest (loads kind calls) p.peak

namespace Follows

variable {capacity : Nat} {kind : FileKind} {calls : List (Call FileKind)} {call : Call FileKind}

theorem full (capacity : Nat) (kind : FileKind) : (full capacity).Follows capacity kind [] where
  size := rfl
  tracks i := iff_of_false (Finset.notMem_empty i) (not_inUse_full capacity i)
  peak := isGreatest_loads_nil kind

/-- A call that hands nothing of the kind out and takes nothing of it back. -/
theorem idle (h : p.Follows capacity kind calls)
    (hSame : call.outstanding kind (outstanding kind calls) = outstanding kind calls) :
    p.Follows capacity kind (calls ++ [call]) where
  size := h.size
  tracks := by
    rw [outstanding_concat, hSame]
    exact h.tracks
  peak := isGreatest_loads_of_card_le h.peak (by rw [hSame])

theorem take (h : p.Follows capacity kind calls) (hTake : p.take? = some (i, q))
    (hOut : call.outstanding kind (outstanding kind calls) = insert i (outstanding kind calls)) :
    q.Follows capacity kind (calls ++ [call]) := by
  obtain ⟨_, hCapacity, hPeak⟩ := take?_eq_some hTake
  have hTracks := h.tracks.take hTake
  refine ⟨hCapacity.trans h.size, ?_, ?_⟩
  · rwa [outstanding_concat, hOut]
  · rw [hPeak, hTracks.inUse_eq_card, ← hOut]
    exact isGreatest_loads_concat h.peak call

theorem giveBack (h : p.Follows capacity kind calls) (hBack : p.giveBack? i = some q)
    (hOut : call.outstanding kind (outstanding kind calls) = (outstanding kind calls).erase i) :
    q.Follows capacity kind (calls ++ [call]) := by
  obtain ⟨_, hCapacity, hPeak⟩ := giveBack?_eq_some hBack
  refine ⟨hCapacity.trans h.size, ?_, ?_⟩
  · rw [outstanding_concat, hOut]
    exact h.tracks.giveBack hBack
  · rw [hPeak]
    apply isGreatest_loads_of_card_le h.peak
    rw [hOut]
    exact Finset.card_erase_le

end Follows

end Pool

def FileConfig.capacity (config : FileConfig) : FileKind → Nat
  | .general => config.general
  | .float => config.float

namespace File

/-- What can be asked of a register file: any register for any descriptor, or to take any register
back. -/
inductive Ask where
  | take (wanted : Descriptor FileKind)
  | giveBack (held : Hardware FileKind)

namespace Ask

def kind : Ask → FileKind
  | take wanted => wanted.kind
  | giveBack held => held.kind

def call (t : File) : Ask → Call FileKind
  | take wanted => .take wanted (File.take wanted t).result
  | giveBack held => .giveBack held (File.giveBack held t).result

def next (t : File) : Ask → File
  | take wanted => (File.take wanted t).state
  | giveBack held => (File.giveBack held t).state

/-- The pool of the other kind is not touched. -/
theorem pool_next_of_ne {ask : Ask} {t : File} {kind : FileKind} (h : ask.kind ≠ kind) :
    (ask.next t).pool kind = t.pool kind := by
  cases ask with
  | take wanted =>
      rw [next, File.take]
      split
      · exact (pool_setPool ..).trans (if_neg (Ne.symm h))
      · rfl
  | giveBack held =>
      rw [next, File.giveBack]
      split
      · exact (pool_setPool ..).trans (if_neg (Ne.symm h))
      · rfl

end Ask

/-- The register file after a sequence of requests. A refused one does not end the sequence. -/
def after (t : File) (asks : List Ask) : File := asks.foldl Ask.next t

def answers (t : File) : List Ask → List (Call FileKind)
  | [] => []
  | ask :: rest => ask.call t :: answers (ask.next t) rest

variable {t : File} {kind : FileKind} {capacity : Nat} {calls : List (Call FileKind)}

/-- One request keeps each pool in accordance with the calls. -/
theorem follows_ask (h : (t.pool kind).Follows capacity kind calls) (ask : Ask) :
    ((ask.next t).pool kind).Follows capacity kind (calls ++ [ask.call t]) := by
  cases ask with
  | take wanted =>
      rw [Ask.next, Ask.call, take]
      cases hTake : (t.pool wanted.kind).take? with
      | none => exact h.idle rfl
      | some taken =>
          obtain ⟨i, q⟩ := taken
          by_cases hKind : wanted.kind = kind
          · subst hKind
            simp only [pool_setPool, if_true]
            exact h.take hTake (if_pos rfl)
          · simp only [pool_setPool, if_neg (Ne.symm hKind)]
            exact h.idle (if_neg hKind)
  | giveBack held =>
      rw [Ask.next, Ask.call, giveBack]
      cases hBack : (t.pool held.kind).giveBack? held.index with
      | none => exact h.idle rfl
      | some q =>
          by_cases hKind : held.kind = kind
          · subst hKind
            simp only [pool_setPool, if_true]
            exact h.giveBack hBack (if_pos rfl)
          · simp only [pool_setPool, if_neg (Ne.symm hKind)]
            exact h.idle (if_neg hKind)

/-- A pool follows the calls of every sequence of requests. -/
theorem follows_after (h : (t.pool kind).Follows capacity kind calls) (asks : List Ask) :
    ((t.after asks).pool kind).Follows capacity kind (calls ++ t.answers asks) := by
  induction asks generalizing t calls with
  | nil =>
      rw [answers, List.append_nil]
      exact h
  | cons ask rest ih =>
      have hRest := ih (follows_ask h ask)
      rwa [List.append_assoc, List.singleton_append] at hRest

/-- A new register file is as if no call had been made. -/
theorem follows_new (config : FileConfig) (kind : FileKind) :
    ((new config).pool kind).Follows (config.capacity kind) kind [] := by
  cases kind <;> exact Pool.Follows.full _ _

section Answers

variable {wanted : Descriptor FileKind} {held : Hardware FileKind} {e : Error} {out : Finset Nat}

/-- A register is handed out exactly if it has the lowest number that is not out. -/
theorem take_eq_ok_iff (h : (t.pool wanted.kind).Tracks out) :
    (take wanted t).result = .ok held ↔ held.descriptor = wanted ∧
      IsLeast {i | i < (t.pool wanted.kind).capacity ∧ i ∉ out} held.index := by
  rw [take]
  cases hTake : (t.pool wanted.kind).take? with
  | none =>
      -- Everything is out, so there is no least number that is not.
      have hAll := h.take?_eq_none_iff.mp hTake
      refine iff_of_false (fun hResult => by cases hResult) ?_
      rintro ⟨_, ⟨hBound, hOut⟩, _⟩
      rw [hAll, Finset.mem_range] at hOut
      exact hOut hBound
  | some taken =>
      obtain ⟨i, q⟩ := taken
      have hLeast := h.isLeast hTake
      constructor
      · intro hResult
        cases hResult
        exact ⟨rfl, hLeast⟩
      · rintro ⟨rfl, hHeld⟩
        rw [← hHeld.unique hLeast]

/-- A request fails exactly if all registers of its kind are out. -/
theorem take_eq_error_iff (h : (t.pool wanted.kind).Tracks out) :
    (take wanted t).result = .error e ↔
      e = .exhausted wanted.kind.word (t.pool wanted.kind).capacity ∧
        out = Finset.range (t.pool wanted.kind).capacity := by
  rw [← h.take?_eq_none_iff, take]
  cases hTake : (t.pool wanted.kind).take? with
  | none => simp [eq_comm]
  | some taken => simp

/-- A register is taken back exactly if it is out. -/
theorem giveBack_eq_ok_iff (h : (t.pool held.kind).Tracks out) :
    (giveBack held t).result = .ok () ↔ held.index ∈ out := by
  rw [giveBack]
  cases hBack : (t.pool held.kind).giveBack? held.index with
  | none =>
      exact iff_of_false (fun hResult => by cases hResult) (h.not_mem_of_giveBack? hBack)
  | some q => exact iff_of_true rfl (h.mem_of_giveBack? hBack)

/-- A register that is not out is refused by its text, and the file stays as it is. -/
theorem giveBack_of_not_mem (h : (t.pool held.kind).Tracks out) (hOut : held.index ∉ out) :
    (giveBack held t).result = .error (.invalidFree held.text) ∧ (giveBack held t).state = t := by
  rw [giveBack]
  cases hBack : (t.pool held.kind).giveBack? held.index with
  | none => exact ⟨rfl, rfl⟩
  | some q => exact absurd (h.mem_of_giveBack? hBack) hOut

end Answers

/-- What a register file with these registers of a kind out answers, and what it counts. -/
structure Serves (t : File) (kind : FileKind) (capacity : Nat) (out : Finset Nat) : Prop where
  size : (t.pool kind).capacity = capacity
  inUse : (t.pool kind).inUse = out.card
  bounded : out.card ≤ capacity
  /-- The difference that gives the number in use does not run below zero. -/
  length_free : (t.pool kind).free.length ≤ (t.pool kind).capacity
  take_ok : ∀ wanted held, wanted.kind = kind → ((take wanted t).result = .ok held ↔
    held.descriptor = wanted ∧ IsLeast {i | i < capacity ∧ i ∉ out} held.index)
  take_error : ∀ wanted e, wanted.kind = kind → ((take wanted t).result = .error e ↔
    e = .exhausted kind.word capacity ∧ out = Finset.range capacity)
  giveBack_ok : ∀ held, held.kind = kind →
    ((giveBack held t).result = .ok () ↔ held.index ∈ out)
  giveBack_error : ∀ held, held.kind = kind → held.index ∉ out →
    (giveBack held t).result = .error (.invalidFree held.text) ∧ (giveBack held t).state = t
  apart : ∀ ask : Ask, ask.kind ≠ kind → (ask.next t).pool kind = t.pool kind

/-- A pool that follows the calls answers as these calls demand. -/
theorem serves_of_follows (h : (t.pool kind).Follows capacity kind calls) :
    t.Serves kind capacity (outstanding kind calls) := by
  obtain ⟨rfl, hTracks, _⟩ := h
  refine ⟨rfl, hTracks.inUse_eq_card, hTracks.card_le, Pool.length_free_le _, ?_, ?_, ?_, ?_,
    fun _ => Ask.pool_next_of_ne⟩
  · rintro wanted held rfl
    exact take_eq_ok_iff hTracks
  · rintro wanted e rfl
    exact take_eq_error_iff hTracks
  · rintro held rfl
    exact giveBack_eq_ok_iff hTracks
  · rintro held rfl hOut
    exact giveBack_of_not_mem hTracks hOut

/-- A register file refines the set of registers that are out. After any requests, refused ones and
offers of any registers included, the number in use of each kind is the number of registers out, and
at most the capacity; the register handed out next is the least one that is not out, and there is
none exactly if all are out; exactly those that are out are taken back, and another offer changes
nothing; requests of one kind do not touch the other; and the mark is the largest number of
registers that were out at any point so far. -/
theorem refines_outstanding (config : FileConfig) (asks : List Ask) (kind : FileKind) :
    let t := (new config).after asks
    let calls := (new config).answers asks
    t.Serves kind (config.capacity kind) (outstanding kind calls) ∧
      IsGreatest {n | ∃ earlier, earlier <+: calls ∧ (outstanding kind earlier).card = n}
        (t.pool kind).peak := by
  intro t calls
  have hFollows : (t.pool kind).Follows (config.capacity kind) kind calls :=
    follows_after (follows_new config kind) asks
  exact ⟨serves_of_follows hFollows, hFollows.peak⟩

end File

end RegisterAssignment
