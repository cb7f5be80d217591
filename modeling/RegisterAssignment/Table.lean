import RegisterAssignment.Value

/-!
Tables from value identities to entries. The rows of a table are kept in ascending order of
identity, so a table is determined by what it holds: neither the order in which rows were
inserted nor rows that were removed leave a trace.
-/

namespace RegisterAssignment

/-- A finite map from value identities, as rows in ascending order. -/
structure Table (α : Type) where
  rows : List (ValueId × α)
  ascending : rows.Pairwise fun a b => a.1 < b.1

namespace Table

variable {α : Type}

def empty : Table α := ⟨[], .nil⟩

def findRow (id : ValueId) : List (ValueId × α) → Option α
  | [] => none
  | row :: rest => if row.1 = id then some row.2 else findRow id rest

def get? (t : Table α) (id : ValueId) : Option α := findRow id t.rows

def size (t : Table α) : Nat := t.rows.length

/-- Puts a row at its place among ascending rows, instead of the one with the same identity if
there is one. -/
def insertRow (id : ValueId) (a : α) : List (ValueId × α) → List (ValueId × α)
  | [] => [(id, a)]
  | row :: rest =>
    if id < row.1 then (id, a) :: row :: rest
    else if id = row.1 then (id, a) :: rest
    else row :: insertRow id a rest

/-- Inserting a row brings in no row but that one. -/
theorem mem_of_mem_insertRow {id : ValueId} {a : α} {rows : List (ValueId × α)}
    {row : ValueId × α} (h : row ∈ insertRow id a rows) : row = (id, a) ∨ row ∈ rows := by
  induction rows with
  | nil => simpa [insertRow] using h
  | cons first rest ih =>
    rw [insertRow] at h
    split at h
    · simpa using h
    · split at h
      · rcases List.mem_cons.mp h with rfl | h
        · exact .inl rfl
        · exact .inr (List.mem_cons_of_mem _ h)
      · rcases List.mem_cons.mp h with rfl | h
        · exact .inr List.mem_cons_self
        · exact (ih h).imp_right (List.mem_cons_of_mem _)

/-- A row is inserted at its place, so the rows stay in ascending order. -/
theorem pairwise_insertRow {id : ValueId} {a : α} {rows : List (ValueId × α)}
    (sorted : rows.Pairwise fun a b => a.1 < b.1) :
    (insertRow id a rows).Pairwise fun a b => a.1 < b.1 := by
  induction rows with
  | nil => simp [insertRow]
  | cons first rest ih =>
    obtain ⟨below, sortedRest⟩ := List.pairwise_cons.mp sorted
    rw [insertRow]
    split
    next lt =>
      refine List.pairwise_cons.mpr ⟨fun row h => ?_, sorted⟩
      rcases List.mem_cons.mp h with rfl | h
      · exact lt
      · exact Nat.lt_trans lt (below row h)
    next ge =>
      split
      next eq =>
        exact List.pairwise_cons.mpr ⟨fun row h => eq ▸ below row h, sortedRest⟩
      next ne =>
        refine List.pairwise_cons.mpr ⟨fun row h => ?_, ih sortedRest⟩
        rcases mem_of_mem_insertRow h with rfl | h
        · exact Nat.lt_of_le_of_ne (Nat.le_of_not_lt ge) (Ne.symm ne)
        · exact below row h

/-- The table with an entry for an identity, which replaces an earlier one. -/
def insert (t : Table α) (id : ValueId) (a : α) : Table α :=
  ⟨insertRow id a t.rows, pairwise_insertRow t.ascending⟩

def erase (t : Table α) (id : ValueId) : Table α :=
  ⟨t.rows.filter fun row => row.1 != id, t.ascending.filter _⟩

@[simp] theorem get?_empty (id : ValueId) : (empty : Table α).get? id = none := rfl

/-- Only the row that was inserted is found under its identity. -/
theorem findRow_insertRow (id k : ValueId) (a : α) (rows : List (ValueId × α)) :
    findRow k (insertRow id a rows) = if k = id then some a else findRow k rows := by
  induction rows with
  | nil => simp [insertRow, findRow, eq_comm]
  | cons row rest ih =>
    rw [insertRow]
    split
    · simp [findRow, eq_comm]
    · split
      next same => simp only [findRow, ← same, eq_comm]; split <;> rfl
      next other =>
        simp only [findRow, ih]
        split
        next hit =>
          have apart : k ≠ id := fun h => other (h.symm.trans hit.symm)
          rw [if_neg apart]
        next => rfl

/-- Inserting an entry changes the entry of its identity and no other. -/
@[simp] theorem get?_insert (t : Table α) (id k : ValueId) (a : α) :
    (t.insert id a).get? k = if k = id then some a else t.get? k :=
  findRow_insertRow id k a t.rows

/-- Once the rows of an identity are gone, none is found under it, and all others are. -/
theorem findRow_filter (id k : ValueId) (rows : List (ValueId × α)) :
    findRow k (rows.filter fun row => row.1 != id) = if k = id then none else findRow k rows := by
  induction rows with
  | nil => simp [findRow]
  | cons row rest ih =>
    by_cases gone : row.1 = id
    · rw [List.filter_cons_of_neg (by simp [gone]), ih, findRow]
      split
      next => rfl
      next other => rw [if_neg fun h => other (h.symm.trans gone)]
    · rw [List.filter_cons_of_pos (by simp [gone]), findRow, findRow, ih]
      split
      next hit => rw [if_neg fun h => gone (hit.trans h)]
      next => rfl

/-- Erasing an entry removes the entry of its identity and no other. -/
@[simp] theorem get?_erase (t : Table α) (id k : ValueId) :
    (t.erase id).get? k = if k = id then none else t.get? k :=
  findRow_filter id k t.rows

/-- In ascending rows no identity occurs twice, so the first row with one is the only one. -/
theorem findRow_eq_some_iff {id : ValueId} {a : α} {rows : List (ValueId × α)}
    (sorted : rows.Pairwise fun a b => a.1 < b.1) :
    findRow id rows = some a ↔ (id, a) ∈ rows := by
  induction rows with
  | nil => simp [findRow]
  | cons row rest ih =>
    obtain ⟨below, sortedRest⟩ := List.pairwise_cons.mp sorted
    rw [findRow]
    split
    next hit =>
      constructor
      · intro h
        exact List.mem_cons.mpr (.inl (Prod.ext hit.symm (Option.some.inj h).symm))
      · intro h
        rcases List.mem_cons.mp h with rfl | h
        · rfl
        · exact absurd hit (Nat.ne_of_lt (below _ h))
    next miss =>
      rw [ih sortedRest, List.mem_cons]
      exact ⟨.inr, fun h => h.resolve_left fun e => miss (e ▸ rfl)⟩

theorem findRow_eq_none_of_lt {id : ValueId} {rows : List (ValueId × α)}
    (below : ∀ row ∈ rows, id < row.1) : findRow id rows = none := by
  induction rows with
  | nil => rfl
  | cons row rest ih =>
    have apart : row.1 ≠ id := Nat.ne_of_gt (below row List.mem_cons_self)
    rw [findRow, if_neg apart]
    exact ih fun other h => below other (List.mem_cons_of_mem _ h)

/-- Ascending rows that answer alike are the same list: the first row of either is the one with the
lowest identity that is found. -/
theorem rows_eq_of_findRow_eq {rows others : List (ValueId × α)}
    (sorted : rows.Pairwise fun a b => a.1 < b.1) (sorted' : others.Pairwise fun a b => a.1 < b.1)
    (same : ∀ id, findRow id rows = findRow id others) : rows = others := by
  induction rows generalizing others with
  | nil =>
    cases others with
    | nil => rfl
    | cons other rest' => simpa [findRow] using same other.1
  | cons row rest ih =>
    cases others with
    | nil => simpa [findRow] using same row.1
    | cons other rest' =>
      obtain ⟨below, sortedRest⟩ := List.pairwise_cons.mp sorted
      obtain ⟨below', sortedRest'⟩ := List.pairwise_cons.mp sorted'
      have noSmaller : ∀ {id : ValueId} {r : ValueId × α} {l : List (ValueId × α)},
          (∀ x ∈ l, r.1 < x.1) → id < r.1 → findRow id (r :: l) = none := by
        intro id r l later lt
        apply findRow_eq_none_of_lt
        intro x hx
        rcases List.mem_cons.mp hx with rfl | hx
        · exact lt
        · exact Nat.lt_trans lt (later x hx)
      have sameId : row.1 = other.1 := by
        rcases Nat.lt_trichotomy row.1 other.1 with lt | eq | gt
        · have := same row.1
          rw [noSmaller below' lt] at this
          simp [findRow] at this
        · exact eq
        · have := same other.1
          rw [noSmaller below gt] at this
          simp [findRow] at this
      have sameRow : row = other := by
        have := same row.1
        simp only [findRow, sameId, if_true, Option.some.injEq] at this
        exact Prod.ext sameId this
      subst sameRow
      congr 1
      apply ih sortedRest sortedRest'
      intro id
      by_cases hit : row.1 = id
      · subst hit
        rw [findRow_eq_none_of_lt below, findRow_eq_none_of_lt below']
      · simpa only [findRow, if_neg hit] using same id

/-- A table is determined by its entries. -/
theorem ext_get? {t u : Table α} (same : ∀ id, t.get? id = u.get? id) : t = u := by
  have rows : t.rows = u.rows := rows_eq_of_findRow_eq t.ascending u.ascending same
  cases t
  cases u
  simp only at rows
  subst rows
  rfl

/-- An entry is found exactly if there is a row for it. -/
theorem get?_eq_some_iff {t : Table α} {id : ValueId} {a : α} :
    t.get? id = some a ↔ (id, a) ∈ t.rows :=
  findRow_eq_some_iff t.ascending

end Table

end RegisterAssignment
