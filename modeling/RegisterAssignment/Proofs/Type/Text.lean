import Mathlib.Data.List.Nodup
import RegisterAssignment.Proofs.Text.Token
import RegisterAssignment.Value

/-! The texts of types and of values. The word that a text begins with shows the form of the type,
and the marks behind it where its parts end; so a text belongs to one type, also where the same
comma stands between fields and before an address space. -/

namespace RegisterAssignment

theorem Scalar.all_isWordChar_chars (s : Scalar) : s.chars.all isWordChar = true := by
  cases s <;> rfl

theorem Scalar.mem_all (s : Scalar) : s ∈ all := by
  cases s <;> decide

theorem Scalar.nodup_chars : (all.map chars).Nodup := by decide

theorem Scalar.chars_injective {s t : Scalar} (h : s.chars = t.chars) : s = t :=
  List.inj_on_of_nodup_map nodup_chars s.mem_all t.mem_all h

/-- The name of a scalar can be read whatever follows, as long as that does not continue it. -/
theorem Scalar.legible (s t : Scalar) : Legible chars s t := by
  intro rest rest' hRest hRest' h
  obtain ⟨hName, hSame⟩ :=
    token_inj s.all_isWordChar_chars t.all_isWordChar_chars hRest hRest' h
  exact ⟨chars_injective hName, hSame⟩

theorem AddressSpace.legible (space space' : AddressSpace) : Legible chars space space' := by
  intro rest rest' hRest hRest' h
  have hWord (space : AddressSpace) : space.chars.all isWordChar = true := by
    cases space <;> rfl
  obtain ⟨hName, hSame⟩ := token_inj (hWord space) (hWord space') hRest hRest' h
  refine ⟨?_, hSame⟩
  revert hName
  cases space <;> cases space' <;> decide

namespace Ty

/-- The outermost construct of a type. -/
inductive Form where
  | void
  | scalar (s : Scalar)
  | pointer
  | string
  | struct
  | padding
  | view
deriving DecidableEq

namespace Form

def all : List Form := [void, pointer, string, struct, padding, view] ++ Scalar.all.map scalar

/-- The word that the text of a type of this form begins with. A structure begins with a mark. -/
def word : Form → List Char
  | void => ['v', 'o', 'i', 'd']
  | scalar s => s.chars
  | pointer => ['p', 't', 'r']
  | string => ['s', 't', 'r', 'i', 'n', 'g']
  | struct => []
  | padding => ['p', 'a', 'd']
  | view => ['v', 'i', 'e', 'w']

theorem mem_all (f : Form) : f ∈ all := by
  cases f with
  | scalar s => exact List.mem_append_right _ (List.mem_map_of_mem s.mem_all)
  | _ => decide

theorem all_isWordChar_word (f : Form) : f.word.all isWordChar = true := by
  cases f with
  | scalar s => exact s.all_isWordChar_chars
  | _ => rfl

/-- No two forms begin with the same word, though some words begin with another one. -/
theorem nodup_words : (all.map word).Nodup := by decide

/-- Forms begin with different words. -/
theorem word_injective {f g : Form} (h : f.word = g.word) : f = g :=
  List.inj_on_of_nodup_map nodup_words f.mem_all g.mem_all h

end Form

def form : Ty → Form
  | .void => .void
  | .scalar s => .scalar s
  | .pointer .. => .pointer
  | .string => .string
  | .struct _ => .struct
  | .padding _ => .padding
  | .view .. => .view

def bracketed (element : Ty) (space : AddressSpace) : List Char :=
  '<' :: element.chars ++ ',' :: ' ' :: space.chars ++ ['>']

/-- What stands behind the first word of the text of a type. -/
def remainder : Ty → List Char
  | .void | .scalar _ | .string => []
  | .pointer element space | .view element space => bracketed element space
  | .struct fields => '\x7b' :: separated chars fields ++ ['\x7d']
  | .padding s => '<' :: s.chars ++ ['>']

theorem moreFields_eq_moreItems (fields : List Ty) :
    moreFields fields = moreItems chars fields := by
  induction fields with
  | nil => rfl
  | cons field rest ih => rw [moreFields, ih, moreItems_cons]

/-- A text is the word of its form and what stands behind it. -/
theorem chars_eq (ty : Ty) : ty.chars = ty.form.word ++ ty.remainder := by
  cases ty with
  | void | string | scalar _ => simp [chars, form, Form.word, remainder]
  | pointer _ _ | view _ _ | padding _ => simp [chars, form, Form.word, remainder, bracketed]
  | struct fields =>
      cases fields with
      | nil => simp [chars, form, Form.word, remainder, separated]
      | cons field rest =>
          simp [chars, form, Form.word, remainder, separated, moreFields_eq_moreItems]

/-- What stands behind the word does not continue it. -/
theorem stops_remainder (ty : Ty) {rest : List Char} (hRest : Stops isWordChar rest) :
    Stops isWordChar (ty.remainder ++ rest) := by
  cases ty with
  | void | scalar _ | string => exact hRest
  | pointer _ _ | view _ _ | struct _ | padding _ => exact .cons rfl

/-- A type does not begin like the end of a structure. -/
theorem begin_chars (ty : Ty) : ∃ c text, ty.chars = c :: text ∧ c ≠ '\x7d' := by
  rw [chars_eq]
  cases ty with
  | scalar s => cases s <;> exact ⟨_, _, rfl, by decide⟩
  | _ => exact ⟨_, _, rfl, by decide⟩

/-- Of two types that begin a text, it is enough to compare what stands behind the first word if
they are of one form. -/
theorem legible_of_form {a b : Ty}
    (h : a.form = b.form → ∀ ⦃rest rest' : List Char⦄, Stops isWordChar rest →
      Stops isWordChar rest' → a.remainder ++ rest = b.remainder ++ rest' →
      a = b ∧ rest = rest') : Legible chars a b := by
  intro rest rest' hRest hRest' hText
  rw [chars_eq, chars_eq, List.append_assoc, List.append_assoc] at hText
  obtain ⟨hWord, hRemainder⟩ := token_inj a.form.all_isWordChar_word b.form.all_isWordChar_word
    (a.stops_remainder hRest) (b.stops_remainder hRest') hText
  exact h (Form.word_injective hWord) hRest hRest' hRemainder

/-- The comma behind the element is found by reading the element, however many commas that has. -/
theorem bracketed_inj {a b : Ty} {space space' : AddressSpace} {rest rest' : List Char}
    (hElement : Legible chars a b)
    (h : bracketed a space ++ rest = bracketed b space' ++ rest') :
    a = b ∧ space = space' ∧ rest = rest' := by
  simp only [bracketed, List.cons_append, List.append_assoc, List.cons.injEq, true_and] at h
  -- The element ends at this comma: one inside the element stands inside its brackets or braces.
  obtain ⟨rfl, hBehind⟩ := hElement (.cons rfl) (.cons rfl) h
  simp only [List.cons.injEq, true_and] at hBehind
  obtain ⟨rfl, hClosed⟩ := AddressSpace.legible _ _ (.cons rfl) (.cons rfl) hBehind
  exact ⟨rfl, rfl, (List.cons.inj hClosed).2⟩

mutual

/-- Every type can be told from every other one. The induction is on one of the two types: the
other one turns out to be of the same form. -/
theorem legible_chars : ∀ a b : Ty, Legible chars a b
  | .void, b | .scalar _, b | .string, b => legible_of_form fun hForm _ _ _ _ hBehind => by
      cases b <;> cases hForm
      exact ⟨rfl, hBehind⟩
  | .padding s, b => legible_of_form fun hForm _ _ _ _ hBehind => by
      cases b with
      | padding t =>
          simp only [remainder, List.cons_append, List.append_assoc, List.cons.injEq,
            true_and] at hBehind
          obtain ⟨rfl, hClosed⟩ := Scalar.legible s t (.cons rfl) (.cons rfl) hBehind
          exact ⟨rfl, (List.cons.inj hClosed).2⟩
      | _ => cases hForm
  | .pointer element _, b => legible_of_form fun hForm _ _ _ _ hBehind => by
      cases b with
      | pointer element' _ =>
          obtain ⟨rfl, rfl, hRest⟩ := bracketed_inj (legible_chars element element') hBehind
          exact ⟨rfl, hRest⟩
      | _ => cases hForm
  | .view element _, b => legible_of_form fun hForm _ _ _ _ hBehind => by
      cases b with
      | view element' _ =>
          obtain ⟨rfl, rfl, hRest⟩ := bracketed_inj (legible_chars element element') hBehind
          exact ⟨rfl, hRest⟩
      | _ => cases hForm
  | .struct fields, b => legible_of_form fun hForm _ _ _ _ hBehind => by
      cases b with
      | struct fields' =>
          simp only [remainder, List.cons_append, List.append_assoc, List.cons.injEq,
            true_and] at hBehind
          obtain ⟨rfl, hRest⟩ := separated_inj (by decide) rfl begin_chars
            (fun field hField field' _ => legible_of_mem field hField field') hBehind
          exact ⟨rfl, hRest⟩
      | _ => cases hForm

/-- The same for each field of a structure. -/
theorem legible_of_mem : ∀ {fields : List Ty}, ∀ a ∈ fields, ∀ b : Ty, Legible chars a b
  | field :: _, _, .head _, b => legible_chars field b
  | _ :: _, a, .tail _ ha, b => legible_of_mem a ha b

end

/-- A type can be read off its text. -/
theorem chars_injective {a b : Ty} (h : a.chars = b.chars) : a = b :=
  (legible_chars a b).eq_of_write h

end Ty

namespace Value

/-- The texts of types and values are unambiguous. Two types with one text are the same, however
they are nested, and two values with one text have the same identity and the same type. -/
theorem texts_unambiguous :
    (∀ a b : Ty, a.text = b.text ↔ a = b) ∧
    ∀ v w : Value, v.text = w.text ↔ v.id = w.id ∧ v.ty = w.ty := by
  refine ⟨fun a b => ⟨fun h => ?_, fun h => by rw [h]⟩, fun v w => ⟨fun h => ?_, ?_⟩⟩
  · exact Ty.chars_injective (String.ofList_injective h)
  · have hChars : v.chars = w.chars := String.ofList_injective h
    simp only [chars, ValueId.chars, List.cons_append, List.cons.injEq, true_and] at hChars
    -- The number ends at the colon, which is no digit.
    obtain ⟨hId, hBehind⟩ := Numeral.decimal_inj (.cons rfl) (.cons rfl) hChars
    simp only [List.cons.injEq, true_and] at hBehind
    exact ⟨hId, Ty.chars_injective hBehind⟩
  · rintro ⟨hId, hTy⟩
    rw [text, text, chars, chars, hId, hTy]

end Value

end RegisterAssignment
