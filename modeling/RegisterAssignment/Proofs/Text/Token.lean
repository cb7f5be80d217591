import Mathlib.Data.List.Basic
import RegisterAssignment.Text.Numeral

/-! Reading back what was written. The texts of types and registers are made of words, numbers and
marks, without quotes or escapes. A word or a number ends before the first character of another
class, so it can be told from what follows, and so can a list of items between marks, if each item
can. -/

namespace RegisterAssignment

/-- A character of a word or of a number, which may have a sign. -/
def isWordChar (c : Char) : Bool := c.isAlphanum || c == '-'

theorem isWordChar_of_isDigit (c : Char) (h : c.isDigit = true) : isWordChar c = true := by
  rw [isWordChar, Char.isAlphanum, h, Bool.or_true, Bool.true_or]

/-- A text that does not go on with a character of a class. -/
def Stops (p : Char → Bool) (rest : List Char) : Prop := ∀ c ∈ rest.head?, p c = false

namespace Stops

variable {p q : Char → Bool} {c : Char} {rest : List Char}

theorem nil : Stops p [] := fun _ h => by cases h

theorem cons (h : p c = false) : Stops p (c :: rest) := by
  intro d hd
  cases hd
  exact h

/-- What ends a token of a wide class ends one of a narrow class. -/
theorem anti (hSubset : ∀ c, p c = true → q c = true) (h : Stops q rest) : Stops p rest := by
  intro c hc
  apply Bool.eq_false_iff.mpr
  intro hp
  exact absurd (hSubset c hp) (Bool.eq_false_iff.mp (h c hc))

theorem takeWhile_eq (h : Stops p rest) : rest.takeWhile p = [] := by
  cases rest with
  | nil => rfl
  | cons c rest => exact List.takeWhile_cons_of_neg (by simp [h c rfl])

end Stops

/-- Two tokens of one class that are not followed by another character of the class are the same if
the texts are. -/
theorem token_inj {p : Char → Bool} {token token' rest rest' : List Char}
    (hToken : token.all p = true) (hToken' : token'.all p = true) (hRest : Stops p rest)
    (hRest' : Stops p rest') (h : token ++ rest = token' ++ rest') :
    token = token' ∧ rest = rest' := by
  have hSame : token = token' := by
    have hTaken := congrArg (List.takeWhile p) h
    rwa [List.takeWhile_append_of_pos (List.all_eq_true.mp hToken), hRest.takeWhile_eq,
      List.takeWhile_append_of_pos (List.all_eq_true.mp hToken'), hRest'.takeWhile_eq,
      List.append_nil, List.append_nil] at hTaken
  subst hSame
  exact ⟨rfl, List.append_cancel_left h⟩

section Items

variable {α : Type} {write : α → List Char} {a b : α} {as bs : List α} {close : Char}
  {rest rest' : List Char}

/-- Where a text begins with one of two items, and the item does not run into what follows, the
text shows which of the two it is and what follows. -/
def Legible (write : α → List Char) (a b : α) : Prop :=
  ∀ ⦃rest rest' : List Char⦄, Stops isWordChar rest → Stops isWordChar rest' →
    write a ++ rest = write b ++ rest' → a = b ∧ rest = rest'

/-- What can be read with something behind it can be read alone. -/
theorem Legible.eq_of_write (h : Legible write a b) (hText : write a = write b) : a = b := by
  refine (h .nil .nil ?_).1
  rw [List.append_nil, List.append_nil, hText]

/-- The items after the first of a list, each behind a comma and a blank. -/
def moreItems (write : α → List Char) (items : List α) : List Char :=
  items.flatMap fun item => ',' :: ' ' :: write item

theorem moreItems_cons :
    moreItems write (a :: as) = ',' :: ' ' :: write a ++ moreItems write as :=
  List.flatMap_cons

def separated (write : α → List Char) : List α → List Char
  | [] => []
  | first :: more => write first ++ moreItems write more

/-- Behind an item comes a comma or the closing mark, and neither continues a word. -/
theorem stops_moreItems (hClose : isWordChar close = false) :
    Stops isWordChar (moreItems write as ++ close :: rest) := by
  cases as with
  | nil => exact .cons hClose
  | cons a as =>
      rw [moreItems_cons]
      exact .cons rfl

/-- Items can be read one by one up to the closing mark, if each of them can be read. -/
theorem moreItems_inj (hMark : close ≠ ',') (hClose : isWordChar close = false)
    (hItems : ∀ a ∈ as, ∀ b ∈ bs, Legible write a b)
    (h : moreItems write as ++ close :: rest = moreItems write bs ++ close :: rest') :
    as = bs ∧ rest = rest' := by
  induction as generalizing bs with
  | nil =>
      cases bs with
      | nil => exact ⟨rfl, (List.cons.inj h).2⟩
      | cons b bs => exact absurd (List.cons.inj h).1 hMark
  | cons a as ih =>
      cases bs with
      | nil => exact absurd (List.cons.inj h).1.symm hMark
      | cons b bs =>
          simp only [moreItems_cons, List.cons_append, List.append_assoc, List.cons.injEq,
            true_and] at h
          obtain ⟨rfl, hMore⟩ := hItems a List.mem_cons_self b List.mem_cons_self
            (stops_moreItems hClose) (stops_moreItems hClose) h
          obtain ⟨rfl, hRest⟩ := ih (fun a ha b hb =>
            hItems a (List.mem_cons_of_mem _ ha) b (List.mem_cons_of_mem _ hb)) hMore
          exact ⟨rfl, hRest⟩

/-- A list of items up to the mark that closes it can be read back. No item may begin with that
mark, or one could not tell whether the list is empty. -/
theorem separated_inj (hMark : close ≠ ',') (hClose : isWordChar close = false)
    (hBegin : ∀ a : α, ∃ c text, write a = c :: text ∧ c ≠ close)
    (hItems : ∀ a ∈ as, ∀ b ∈ bs, Legible write a b)
    (h : separated write as ++ close :: rest = separated write bs ++ close :: rest') :
    as = bs ∧ rest = rest' := by
  cases as with
  | nil =>
      cases bs with
      | nil => exact ⟨rfl, (List.cons.inj h).2⟩
      | cons b bs =>
          obtain ⟨c, text, hText, hOther⟩ := hBegin b
          rw [separated, separated, hText] at h
          exact absurd (List.cons.inj h).1.symm hOther
  | cons a as =>
      cases bs with
      | nil =>
          obtain ⟨c, text, hText, hOther⟩ := hBegin a
          rw [separated, separated, hText] at h
          exact absurd (List.cons.inj h).1 hOther
      | cons b bs =>
          rw [separated, separated, List.append_assoc, List.append_assoc] at h
          obtain ⟨rfl, hMore⟩ := hItems a List.mem_cons_self b List.mem_cons_self
            (stops_moreItems hClose) (stops_moreItems hClose) h
          obtain ⟨rfl, hRest⟩ := moreItems_inj hMark hClose (fun a ha b hb =>
            hItems a (List.mem_cons_of_mem _ ha) b (List.mem_cons_of_mem _ hb)) hMore
          exact ⟨rfl, hRest⟩

end Items

namespace Numeral

theorem all_isDigit_decimal (n : Nat) : (decimal n).all Char.isDigit = true := by
  rw [List.all_eq_true]
  intro c hc
  exact Nat.isDigit_of_mem_toDigits (by decide) (by decide) hc

/-- A decimal number that is not followed by another digit can be read back. -/
theorem decimal_inj {m n : Nat} {rest rest' : List Char} (hRest : Stops Char.isDigit rest)
    (hRest' : Stops Char.isDigit rest') (h : decimal m ++ rest = decimal n ++ rest') :
    m = n ∧ rest = rest' := by
  obtain ⟨hDigits, hSame⟩ :=
    token_inj (all_isDigit_decimal m) (all_isDigit_decimal n) hRest hRest' h
  exact ⟨decimal_injective hDigits, hSame⟩

def isSignedChar (c : Char) : Bool := c.isDigit || c == '-'

theorem isWordChar_of_isSignedChar {c : Char} (h : isSignedChar c = true) :
    isWordChar c = true := by
  rw [isSignedChar, Bool.or_eq_true] at h
  rw [isWordChar, Char.isAlphanum, Bool.or_eq_true, Bool.or_eq_true]
  exact h.imp_left .inr

theorem all_isSignedChar_signed (i : Int) : (signed i).all isSignedChar = true := by
  have hDecimal (n : Nat) : (decimal n).all isSignedChar = true := by
    rw [List.all_eq_true]
    intro c hc
    rw [isSignedChar, List.all_eq_true.mp (all_isDigit_decimal n) c hc, Bool.true_or]
  cases i with
  | ofNat n => exact hDecimal n
  | negSucc n =>
      rw [signed, List.all_cons, hDecimal]
      rfl

theorem all_isWordChar_signed (i : Int) : (signed i).all isWordChar = true := by
  rw [List.all_eq_true]
  intro c hc
  exact isWordChar_of_isSignedChar (List.all_eq_true.mp (all_isSignedChar_signed i) c hc)

/-- A number without a sign is not one with a sign. -/
theorem decimal_ne_minus (m n : Nat) : decimal m ≠ '-' :: decimal n := by
  intro h
  have hMinus : '-' ∈ decimal m := h ▸ List.mem_cons_self
  exact absurd (List.all_eq_true.mp (all_isDigit_decimal m) '-' hMinus) (by decide)

/-- A number can be read off its decimal digits and its sign. -/
theorem signed_injective {i j : Int} (h : signed i = signed j) : i = j := by
  cases i with
  | ofNat m =>
      cases j with
      | ofNat n => rw [decimal_injective h]
      | negSucc n => exact absurd h (decimal_ne_minus _ _)
  | negSucc m =>
      cases j with
      | ofNat n => exact absurd h.symm (decimal_ne_minus _ _)
      | negSucc n =>
          have hDigits : m + 1 = n + 1 := decimal_injective (List.cons.inj h).2
          rw [Nat.succ.inj hDigits]

theorem digitChar_injective :
    ∀ a b : Fin 16, Nat.digitChar a = Nat.digitChar b → a = b := by decide

theorem isWordChar_digitChar : ∀ a : Fin 16, isWordChar (Nat.digitChar a) = true := by decide

theorem all_isWordChar_hex (width n : Nat) : (hex width n).all isWordChar = true := by
  induction width generalizing n with
  | zero => rfl
  | succ width ih =>
      have hLast : isWordChar (Nat.digitChar (n % 16)) = true :=
        isWordChar_digitChar ⟨n % 16, Nat.mod_lt n (by decide)⟩
      rw [hex, List.all_append, ih, List.all_cons, hLast]
      rfl

/-- Hexadecimal digits determine a number for which the width is large enough. -/
theorem hex_injective {width m n : Nat} (hm : m < Nat.pow 16 width) (hn : n < Nat.pow 16 width)
    (h : hex width m = hex width n) : m = n := by
  induction width generalizing m n with
  | zero =>
      have hZero : Nat.pow 16 0 = 1 := rfl
      omega
  | succ width ih =>
      have hPower : Nat.pow 16 (width + 1) = Nat.pow 16 width * 16 := rfl
      obtain ⟨hHigh, hLow⟩ := List.append_singleton_inj.mp h
      have hQuotient : m / 16 = n / 16 := ih (by omega) (by omega) hHigh
      have hDigit := digitChar_injective ⟨m % 16, Nat.mod_lt m (by decide)⟩
        ⟨n % 16, Nat.mod_lt n (by decide)⟩ hLow
      have hRemainder : m % 16 = n % 16 := congrArg Fin.val hDigit
      omega

end Numeral

end RegisterAssignment
