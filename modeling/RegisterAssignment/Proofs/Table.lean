import Mathlib.Data.List.Flatten
import Mathlib.Data.List.Nodup
import RegisterAssignment.Table

/-! Tables as collections of entries. A table keeps its rows sorted, but every statement about all
of its entries can be made of any list of them: sorting such a list by identity gives the rows back.
What is made of the rows one by one is therefore determined by the entries alone. -/

namespace RegisterAssignment.Table

variable {α β ρ : Type} {t : Table α} {u : Table β} {id : ValueId} {a : α}

section Rows

variable {rows rest : List (ValueId × α)}

/-- Inserting an entry where there is none moves no other row. -/
theorem insertRow_perm (h : findRow id rows = none) :
    (insertRow id a rows).Perm ((id, a) :: rows) := by
  induction rows with
  | nil => exact .refl _
  | cons row rest ih =>
      rw [findRow] at h
      split at h
      next => cases h
      next hOther =>
        rw [insertRow]
        split
        · exact .refl _
        · rw [if_neg (Ne.symm hOther)]
          exact ((ih h).cons row).trans (.swap ..)

/-- A new entry stands beside the old ones. -/
theorem rows_insert_perm (h : t.get? id = none) (a : α) :
    (t.insert id a).rows.Perm ((id, a) :: t.rows) :=
  insertRow_perm h

/-- Nothing is erased from rows that all come after an identity. -/
theorem filter_of_below (hBelow : ∀ row ∈ rest, id < row.1) :
    rest.filter (fun row => row.1 != id) = rest := by
  apply List.filter_eq_self.mpr
  intro row hRow
  simpa using Nat.ne_of_gt (hBelow row hRow)

/-- An entry stands beside the rows of all other identities. -/
theorem perm_cons_filter (sorted : rows.Pairwise fun a b => a.1 < b.1) (h : (id, a) ∈ rows) :
    rows.Perm ((id, a) :: rows.filter fun row => row.1 != id) := by
  induction rows with
  | nil => cases h
  | cons row rest ih =>
      obtain ⟨hBelow, hRest⟩ := List.pairwise_cons.mp sorted
      rcases List.mem_cons.mp h with rfl | hMem
      · rw [List.filter_cons_of_neg (by simp), filter_of_below hBelow]
      · have hLt : row.1 < id := hBelow _ hMem
        rw [List.filter_cons_of_pos (by simpa using Nat.ne_of_lt hLt)]
        exact ((ih hRest hMem).cons row).trans (.swap ..)

/-- An entry stands beside the rows that are left without it. -/
theorem rows_perm_erase (h : t.get? id = some a) : t.rows.Perm ((id, a) :: (t.erase id).rows) :=
  perm_cons_filter t.ascending (get?_eq_some_iff.mp h)

/-- Erasing what is not there changes nothing. -/
theorem erase_of_absent (h : t.get? id = none) : t.erase id = t := by
  apply ext_get?
  intro k
  rw [get?_erase]
  split
  next hSame => rw [hSame, h]
  next => rfl

/-- Erasing the first entry leaves the rows behind it. -/
theorem rows_erase_first (hRows : t.rows = (id, a) :: rest) : (t.erase id).rows = rest := by
  have hSorted := t.ascending
  rw [hRows] at hSorted
  obtain ⟨hBelow, _⟩ := List.pairwise_cons.mp hSorted
  change t.rows.filter (fun row => row.1 != id) = rest
  rw [hRows, List.filter_cons_of_neg (by simp), filter_of_below hBelow]

/-- The rows are numbered by the identities that have an entry. -/
theorem isSome_get?_iff : (t.get? id).isSome = true ↔ id ∈ t.rows.map Prod.fst := by
  rw [Option.isSome_iff_exists, List.mem_map]
  constructor
  · rintro ⟨x, hGet⟩
    exact ⟨(id, x), get?_eq_some_iff.mp hGet, rfl⟩
  · rintro ⟨⟨_, x⟩, hRow, rfl⟩
    exact ⟨x, get?_eq_some_iff.mpr hRow⟩

/-- There is one way to list the identities with an entry in ascending order: the order of the
rows. -/
theorem eq_map_fst_rows {ids : List ValueId} (hAscending : ids.Pairwise (· < ·))
    (hListed : ∀ id, id ∈ ids ↔ (t.get? id).isSome = true) : ids = t.rows.map Prod.fst := by
  have hRows : (t.rows.map Prod.fst).Pairwise (· < ·) := List.pairwise_map.mpr t.ascending
  have hSame : ids.Perm (t.rows.map Prod.fst) := by
    apply (List.perm_ext_iff_of_nodup (hAscending.imp Nat.ne_of_lt) (hRows.imp Nat.ne_of_lt)).mpr
    intro id
    rw [hListed, isSome_get?_iff]
  refine hSame.eq_of_pairwise ?_ hAscending hRows
  intro id id' _ _ hLt hGt
  exact absurd hGt (Nat.lt_asymm hLt)

end Rows

section Map

def map (f : α → β) (t : Table α) : Table β :=
  ⟨t.rows.map fun row => (row.1, f row.2), List.pairwise_map.mpr t.ascending⟩

theorem findRow_map (f : α → β) (id : ValueId) (rows : List (ValueId × α)) :
    findRow id (rows.map fun row => (row.1, f row.2)) = (findRow id rows).map f := by
  induction rows with
  | nil => rfl
  | cons row rest ih =>
      simp only [List.map_cons, findRow, ih]
      split <;> rfl

@[simp] theorem get?_map (f : α → β) (t : Table α) (id : ValueId) :
    (t.map f).get? id = (t.get? id).map f :=
  findRow_map f id t.rows

/-- It makes no difference whether an entry is changed before or after it is inserted. -/
theorem map_insert (f : α → β) (t : Table α) (id : ValueId) (a : α) :
    (t.insert id a).map f = (t.map f).insert id (f a) := by
  apply ext_get?
  intro k
  simp only [get?_map, get?_insert]
  split <;> rfl

theorem map_erase (f : α → β) (t : Table α) (id : ValueId) :
    (t.erase id).map f = (t.map f).erase id := by
  apply ext_get?
  intro k
  simp only [get?_map, get?_erase]
  split <;> rfl

end Map

section Listing

variable {listing : List (ValueId × α)}

def byId (entry entry' : ValueId × α) : Bool := decide (entry.1 ≤ entry'.1)

/-- A list of the entries of a table, each once and with its identity, in any order. -/
structure Enumerates (t : Table α) (listing : List (ValueId × α)) : Prop where
  nodup : (listing.map Prod.fst).Nodup
  mem_iff : ∀ id x, (id, x) ∈ listing ↔ t.get? id = some x

/-- To enumerate a table is to list its rows in some order. -/
theorem enumerates_iff_perm : t.Enumerates listing ↔ listing.Perm t.rows := by
  have hIds : (t.rows.map Prod.fst).Nodup :=
    (List.pairwise_map.mpr t.ascending).imp Nat.ne_of_lt
  constructor
  · intro h
    apply (List.perm_ext_iff_of_nodup h.nodup.of_map hIds.of_map).mpr
    rintro ⟨id, x⟩
    rw [h.mem_iff, get?_eq_some_iff]
  · intro hPerm
    refine ⟨(hPerm.map Prod.fst).nodup_iff.mpr hIds, fun id x => ?_⟩
    rw [hPerm.mem_iff, get?_eq_some_iff]

/-- Sorting the entries by identity gives the rows, whatever order they come in. -/
theorem Enumerates.mergeSort_eq (h : t.Enumerates listing) : listing.mergeSort byId = t.rows := by
  have hPerm : (listing.mergeSort byId).Perm t.rows :=
    (List.mergeSort_perm listing byId).trans (enumerates_iff_perm.mp h)
  have hSorted : (listing.mergeSort byId).Pairwise fun x y => byId x y = true := by
    apply List.pairwise_mergeSort
    · intro x y z hxy hyz
      exact decide_eq_true (Nat.le_trans (of_decide_eq_true hxy) (of_decide_eq_true hyz))
    · intro x y
      simpa [byId] using Nat.le_total x.1 y.1
  have hRows : t.rows.Pairwise fun x y => byId x y = true :=
    t.ascending.imp fun hLt => decide_eq_true (Nat.le_of_lt hLt)
  refine List.Perm.eq_of_pairwise ?_ hSorted hRows hPerm
  rintro ⟨id, x⟩ ⟨id', y⟩ hx hy hLe hGe
  -- Entries with one identity are one entry, because the table has one for it.
  have hId : id = id' := Nat.le_antisymm (of_decide_eq_true hLe) (of_decide_eq_true hGe)
  subst hId
  have hFirst : t.get? id = some x := get?_eq_some_iff.mpr (hPerm.subset hx)
  have hSecond : t.get? id = some y := get?_eq_some_iff.mpr hy
  rw [Option.some.inj (hFirst.symm.trans hSecond)]

/-- Rows that list a table: they stand in ascending order of the identities, one for each identity
with an entry, and each is made of its identity and of the entry that is stored there. Any way of
enumerating the entries leads to the same rows. -/
structure Listed (t : Table α) (row : ValueId × α → ρ) (list : List ρ) (ids : List ValueId) :
    Prop where
  ascending : ids.Pairwise (· < ·)
  mem_iff : ∀ id, id ∈ ids ↔ (t.get? id).isSome = true
  rows : list.map some = ids.map fun id => (t.get? id).map fun x => row (id, x)
  sorted : ∀ listing, t.Enumerates listing → (listing.mergeSort byId).map row = list

/-- What is made of the rows in their order lists the table. -/
theorem listed_rows (t : Table α) (row : ValueId × α → ρ) :
    t.Listed row (t.rows.map row) (t.rows.map Prod.fst) where
  ascending := List.pairwise_map.mpr t.ascending
  mem_iff _ := isSome_get?_iff.symm
  rows := by
    rw [List.map_map, List.map_map]
    apply List.map_congr_left
    rintro ⟨id, x⟩ hRow
    have hGet : t.get? id = some x := get?_eq_some_iff.mpr hRow
    simp only [Function.comp_apply, hGet, Option.map_some]
  sorted listing h := by rw [h.mergeSort_eq]

/-- Two tables are listed by the same rows if the same row is made for each identity. -/
theorem Listed.congr {row : ValueId × α → ρ} {row' : ValueId × β → ρ} {list list' : List ρ}
    {ids ids' : List ValueId} (h : t.Listed row list ids) (h' : u.Listed row' list' ids')
    (hSame : ∀ id, (t.get? id).map (fun x => row (id, x)) =
      (u.get? id).map fun y => row' (id, y)) : list = list' := by
  have hIsSome (id : ValueId) : (t.get? id).isSome = (u.get? id).isSome := by
    have hBoth := congrArg Option.isSome (hSame id)
    rwa [Option.isSome_map, Option.isSome_map] at hBoth
  have hIds : ids = ids' := by
    have hListed (id : ValueId) : id ∈ ids ↔ (u.get? id).isSome = true := by
      rw [h.mem_iff, hIsSome]
    exact (eq_map_fst_rows h.ascending hListed).trans
      (eq_map_fst_rows h'.ascending h'.mem_iff).symm
  have hRows : list.map some = list'.map some := by
    rw [h.rows, h'.rows, hIds]
    exact List.map_congr_left fun id _ => hSame id
  exact (List.map_inj_right fun _ _ => Option.some.inj).mp hRows

end Listing

end RegisterAssignment.Table
