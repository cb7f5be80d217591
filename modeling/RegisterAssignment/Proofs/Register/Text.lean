import RegisterAssignment.Proofs.Type.Text
import RegisterAssignment.Register.Basic
import RegisterAssignment.Target.File
import RegisterAssignment.Target.Virtual

/-! The texts of literals and registers. The text of a register shows what is held: the tree, the
kind and number of each target register, and the literal of each constant, but neither origins nor
descriptors. What is held can be read back, if no constant is a floating-point number that is
written as a decimal. -/

namespace RegisterAssignment

namespace Literal

/-- Whether the text of a literal shows its pattern. The wider floating-point numbers are written as
decimals, and there all patterns that are no numbers look alike. -/
def showsPattern : Literal → Bool
  | f32 _ | f64 _ => false
  | _ => true

/-- The decimal number that a text begins with, if it begins with one. -/
def leadingDigits : Literal → List Char
  | i8 v => Numeral.signed v.toInt
  | i16 v => Numeral.signed v.toInt
  | i32 v => Numeral.signed v.toInt
  | i64 v => Numeral.signed v.toInt
  | f16 _ => ['0']
  | i1 _ | f32 _ | f64 _ => []

def suffix : Literal → List Char
  | i1 true => ['t', 'r', 'u', 'e']
  | i1 false => ['f', 'a', 'l', 's', 'e']
  | i8 _ => Scalar.i8.chars
  | i16 _ => Scalar.i16.chars
  | i32 _ => Scalar.i32.chars
  | i64 _ => Scalar.i64.chars
  | f16 b => 'x' :: Numeral.hex 4 b.toNat ++ Scalar.f16.chars
  | f32 _ | f64 _ => []

/-- A literal that shows its pattern is written as a number and a suffix. -/
theorem chars_eq {l : Literal} (h : l.showsPattern = true) :
    l.chars = l.leadingDigits ++ l.suffix := by
  cases l with
  | i1 b => cases b <;> rfl
  | f32 _ | f64 _ => cases h
  | _ => rfl

/-- The suffix does not continue the number, so the number can be told from it. -/
theorem stops_suffix (l : Literal) : Stops Numeral.isSignedChar l.suffix := by
  cases l with
  | i1 b => cases b <;> exact .cons rfl
  | f32 _ | f64 _ => exact .nil
  | _ => exact .cons rfl

theorem all_isSignedChar_leadingDigits (l : Literal) :
    l.leadingDigits.all Numeral.isSignedChar = true := by
  cases l with
  | i1 _ | f16 _ | f32 _ | f64 _ => rfl
  | _ => exact Numeral.all_isSignedChar_signed _

theorem all_isWordChar_chars {l : Literal} (h : l.showsPattern = true) :
    l.chars.all isWordChar = true := by
  cases l with
  | i1 b => cases b <;> rfl
  | f16 b =>
      simp only [chars, List.cons_append, List.all_cons, List.all_append,
        Numeral.all_isWordChar_hex, Scalar.all_isWordChar_chars]
      rfl
  | f32 _ | f64 _ => cases h
  | _ =>
      simp only [chars, List.all_append, Numeral.all_isWordChar_signed,
        Scalar.all_isWordChar_chars, Bool.and_self]

/-- What follows the digits tells the types of literals apart. -/
theorem scalar_eq_of_suffix {l l' : Literal} (h : l.showsPattern = true)
    (h' : l'.showsPattern = true) (hSuffix : l.suffix = l'.suffix) : l.scalar = l'.scalar := by
  cases l with
  | i1 b =>
      cases l' with
      | i1 _ => rfl
      | _ => cases b <;> simp [suffix, Scalar.chars] at hSuffix
  | f32 _ | f64 _ => cases h
  | _ =>
      cases l' with
      | i1 b' => cases b' <;> simp [suffix, Scalar.chars] at hSuffix
      | f32 _ | f64 _ => cases h'
      | _ => simp [suffix, Scalar.chars, scalar] at hSuffix ⊢

/-- A literal whose text shows its pattern is determined by its text. -/
theorem chars_injective {l l' : Literal} (h : l.showsPattern = true) (h' : l'.showsPattern = true)
    (hText : l.chars = l'.chars) : l = l' := by
  rw [chars_eq h, chars_eq h'] at hText
  -- The type comes last, so the text is first cut where its digits end, which is at a letter.
  obtain ⟨hDigits, hSuffix⟩ := token_inj l.all_isSignedChar_leadingDigits
    l'.all_isSignedChar_leadingDigits l.stops_suffix l'.stops_suffix hText
  have hScalar : l.scalar = l'.scalar := scalar_eq_of_suffix h h' hSuffix
  cases l <;> cases l' <;> cases hScalar
  case i1.i1 b b' => cases b <;> cases b' <;> simp [suffix] at hSuffix ⊢
  case i8.i8 => rw [Int8.toInt_inj.mp (Numeral.signed_injective hDigits)]
  case i16.i16 => rw [Int16.toInt_inj.mp (Numeral.signed_injective hDigits)]
  case i32.i32 => rw [Int32.toInt_inj.mp (Numeral.signed_injective hDigits)]
  case i64.i64 => rw [Int64.toInt_inj.mp (Numeral.signed_injective hDigits)]
  case f16.f16 b b' =>
    have hHex : Numeral.hex 4 b.toNat = Numeral.hex 4 b'.toNat :=
      List.append_cancel_right (List.cons.inj hSuffix).2
    rw [UInt16.toNat_inj.mp (Numeral.hex_injective b.toNat_lt b'.toNat_lt hHex)]
  case f32.f32 => cases h
  case f64.f64 => cases h

/-- Two such literals can be told apart whatever follows them. -/
theorem legible_chars {l l' : Literal} (h : l.showsPattern = true) (h' : l'.showsPattern = true) :
    Legible chars l l' := by
  intro rest rest' hRest hRest' hText
  obtain ⟨hWord, hSame⟩ :=
    token_inj (all_isWordChar_chars h) (all_isWordChar_chars h') hRest hRest' hText
  exact ⟨chars_injective h h' hWord, hSame⟩

end Literal

/-- Kinds whose names are words, different from each other and from the word for constants. -/
structure RegisterKind.Named (κ : Type) [RegisterKind κ] : Prop where
  word : ∀ kind : κ, (nameChars kind).all isWordChar = true
  ne_nil : ∀ kind : κ, nameChars kind ≠ []
  ne_const : ∀ kind : κ, nameChars kind ≠ ['c', 'o', 'n', 's', 't']
  injective : ∀ kind kind' : κ, nameChars kind = nameChars kind' → kind = kind'

/-- The kinds of virtual registers have names of this form. -/
theorem named_virtualKind : RegisterKind.Named VirtualKind where
  word kind := by cases kind <;> rfl
  ne_nil kind := by cases kind <;> decide
  ne_const kind := by cases kind <;> decide
  injective kind kind' := by cases kind <;> cases kind' <;> decide

/-- The two kinds of a register file have names of this form. -/
theorem named_fileKind : RegisterKind.Named FileKind where
  word kind := by cases kind <;> rfl
  ne_nil kind := by cases kind <;> decide
  ne_const kind := by cases kind <;> decide
  injective kind kind' := by cases kind <;> cases kind' <;> decide

/-- What is held by a register: the literal of a constant, the kind and number of a target register,
and what is held by each child of a compound, in order. -/
inductive Holding (κ : Type) where
  | constant (literal : Literal)
  | hardware (kind : κ) (index : Nat)
  | compound (children : List (Holding κ))

namespace Holding

variable {κ : Type}

mutual

def literals : Holding κ → List Literal
  | .constant literal => [literal]
  | .hardware .. => []
  | .compound children => literalsList children

def literalsList : List (Holding κ) → List Literal
  | [] => []
  | child :: rest => literals child ++ literalsList rest

end

theorem mem_literalsList {children : List (Holding κ)} {child : Holding κ} {l : Literal}
    (hChild : child ∈ children) (h : l ∈ child.literals) : l ∈ literalsList children := by
  induction children with
  | nil => cases hChild
  | cons first rest ih =>
      rw [literalsList, List.mem_append]
      rcases List.mem_cons.mp hChild with rfl | hChild
      · exact .inl h
      · exact .inr (ih hChild)

/-- Every literal is one whose text shows its pattern. -/
def ShowsPatterns (h : Holding κ) : Prop := ∀ l ∈ h.literals, l.showsPattern = true

instance (h : Holding κ) : Decidable h.ShowsPatterns :=
  inferInstanceAs (Decidable (∀ l ∈ h.literals, l.showsPattern = true))

/-- What holds of all literals of a compound holds of those of each child. -/
theorem ShowsPatterns.of_mem {children : List (Holding κ)} {child : Holding κ}
    (h : (compound children).ShowsPatterns) (hChild : child ∈ children) : child.ShowsPatterns :=
  fun l hl => h l (mem_literalsList hChild hl)

variable [RegisterKind κ]

mutual

def chars : Holding κ → List Char
  | .constant literal => ['c', 'o', 'n', 's', 't', ' '] ++ literal.chars
  | .hardware kind index => RegisterKind.nameChars kind ++ '#' :: Numeral.decimal index
  | .compound [] => ['(', ')']
  | .compound (child :: rest) => '(' :: chars child ++ moreChildren rest ++ [')']

def moreChildren : List (Holding κ) → List Char
  | [] => []
  | child :: rest => ',' :: ' ' :: chars child ++ moreChildren rest

end

/-- The word that the text begins with. A compound begins with a mark. -/
def word : Holding κ → List Char
  | .constant _ => ['c', 'o', 'n', 's', 't']
  | .hardware kind _ => RegisterKind.nameChars kind
  | .compound _ => []

def remainder : Holding κ → List Char
  | .constant literal => ' ' :: literal.chars
  | .hardware _ index => '#' :: Numeral.decimal index
  | .compound children => '(' :: separated chars children ++ [')']

theorem moreChildren_eq_moreItems (children : List (Holding κ)) :
    moreChildren children = moreItems chars children := by
  induction children with
  | nil => rfl
  | cons child rest ih => rw [moreChildren, ih, moreItems_cons]

/-- A text is a word and what stands behind it. -/
theorem chars_eq (h : Holding κ) : h.chars = h.word ++ h.remainder := by
  cases h with
  | constant _ | hardware _ _ => simp [chars, word, remainder]
  | compound children =>
      cases children with
      | nil => simp [chars, word, remainder, separated]
      | cons child rest =>
          simp [chars, word, remainder, separated, moreChildren_eq_moreItems]

/-- What stands behind the word does not continue it. -/
theorem stops_remainder (h : Holding κ) (rest : List Char) :
    Stops isWordChar (h.remainder ++ rest) := by
  cases h <;> exact .cons rfl

section Named

variable (hNamed : RegisterKind.Named κ)

include hNamed

theorem all_isWordChar_word (h : Holding κ) : h.word.all isWordChar = true := by
  cases h with
  | constant _ | compound _ => rfl
  | hardware kind _ => exact hNamed.word kind

/-- What is held does not begin like the end of a compound. -/
theorem begin_chars (h : Holding κ) : ∃ c text, h.chars = c :: text ∧ c ≠ ')' := by
  rw [chars_eq]
  cases h with
  | constant _ | compound _ => exact ⟨_, _, rfl, by decide⟩
  | hardware kind index =>
      obtain ⟨c, text, hName⟩ := List.exists_cons_of_ne_nil (hNamed.ne_nil kind)
      refine ⟨c, text ++ remainder (.hardware kind index), ?_, ?_⟩
      · rw [word, hName, List.cons_append]
      · have hWord := hNamed.word kind
        rw [hName, List.all_cons, Bool.and_eq_true] at hWord
        rintro rfl
        exact absurd hWord.1 (by decide)

/-- If two texts are the same with what follows them, so are their first words. -/
theorem word_inj {a b : Holding κ} {rest rest' : List Char}
    (h : a.chars ++ rest = b.chars ++ rest') :
    a.word = b.word ∧ a.remainder ++ rest = b.remainder ++ rest' := by
  rw [chars_eq, chars_eq, List.append_assoc, List.append_assoc] at h
  exact token_inj (all_isWordChar_word hNamed a) (all_isWordChar_word hNamed b)
    (a.stops_remainder rest) (b.stops_remainder rest') h

end Named

mutual

/-- What is held can be read back. The induction is on one of the two trees; the first word says
that the other one is of the same variant. -/
theorem legible_chars (hNamed : RegisterKind.Named κ) : ∀ a b : Holding κ,
    a.ShowsPatterns → b.ShowsPatterns → Legible chars a b
  | .constant l, b, ha, hb => by
      intro rest rest' hRest hRest' h
      obtain ⟨hWord, hBehind⟩ := word_inj hNamed h
      cases b with
      | constant l' =>
          have hLiterals := Literal.legible_chars (ha l List.mem_cons_self)
            (hb l' List.mem_cons_self)
          obtain ⟨rfl, hSame⟩ := hLiterals hRest hRest' (List.cons.inj hBehind).2
          exact ⟨rfl, hSame⟩
      | hardware kind _ => exact absurd hWord.symm (hNamed.ne_const kind)
      | compound _ => cases hWord
  | .hardware kind index, b, _, _ => by
      intro rest rest' hRest hRest' h
      obtain ⟨hWord, hBehind⟩ := word_inj hNamed h
      cases b with
      | constant _ => exact absurd hWord (hNamed.ne_const kind)
      | hardware kind' index' =>
          obtain ⟨rfl, hSame⟩ := Numeral.decimal_inj (hRest.anti isWordChar_of_isDigit)
            (hRest'.anti isWordChar_of_isDigit) (List.cons.inj hBehind).2
          rw [hNamed.injective kind kind' hWord]
          exact ⟨rfl, hSame⟩
      | compound _ => exact absurd hWord (hNamed.ne_nil kind)
  | .compound children, b, ha, hb => by
      intro rest rest' _ _ h
      obtain ⟨hWord, hBehind⟩ := word_inj hNamed h
      cases b with
      | constant _ => cases hWord
      | hardware kind _ => exact absurd hWord.symm (hNamed.ne_nil kind)
      | compound children' =>
          simp only [remainder, List.cons_append, List.append_assoc, List.cons.injEq,
            true_and] at hBehind
          obtain ⟨rfl, hSame⟩ := separated_inj (by decide) rfl (begin_chars hNamed)
            (fun child hChild child' hChild' => legible_of_mem hNamed child hChild child'
              (ha.of_mem hChild) (hb.of_mem hChild')) hBehind
          exact ⟨rfl, hSame⟩

/-- The same for each child of a compound. -/
theorem legible_of_mem (hNamed : RegisterKind.Named κ) : ∀ {children : List (Holding κ)},
    ∀ a ∈ children, ∀ b : Holding κ, a.ShowsPatterns → b.ShowsPatterns → Legible chars a b
  | child :: _, _, .head _, b, ha, hb => legible_chars hNamed child b ha hb
  | _ :: _, a, .tail _ hMem, b, ha, hb => legible_of_mem hNamed a hMem b ha hb

end

end Holding

namespace Register

variable {κ : Type}

mutual

def holding : Register κ → Holding κ
  | .constant _ _ literal => .constant literal
  | .hardware _ held => .hardware held.kind held.index
  | .compound _ _ children => .compound (holdingList children)

def holdingList : List (Register κ) → List (Holding κ)
  | [] => []
  | r :: rs => holding r :: holdingList rs

end

variable [RegisterKind κ]

mutual

/-- The text of a register is that of what it holds. -/
theorem chars_holding : ∀ r : Register κ, r.holding.chars = r.chars
  | .constant .. => by simp [holding, Holding.chars, chars]
  | .hardware .. => by simp [holding, Holding.chars, chars, Hardware.chars]
  | .compound _ _ [] => by simp [holding, holdingList, Holding.chars, chars]
  | .compound _ _ (child :: rest) => by
      simp [holding, holdingList, Holding.chars, chars, chars_holding child,
        moreChildren_holdingList rest]

theorem moreChildren_holdingList : ∀ rs : List (Register κ),
    Holding.moreChildren (holdingList rs) = moreChildren rs
  | [] => rfl
  | r :: rs => by
      simp [holdingList, Holding.moreChildren, moreChildren, chars_holding r,
        moreChildren_holdingList rs]

end

/-- A text shows nothing but what is held. -/
theorem text_eq_of_holding {r s : Register κ} (h : r.holding = s.holding) : r.text = s.text := by
  rw [text, text, ← chars_holding, ← chars_holding, h]

/-- On any target whose kinds are named so, the text shows all of what is held. -/
theorem text_eq_iff (hNamed : RegisterKind.Named κ) {r s : Register κ}
    (hr : r.holding.ShowsPatterns) (hs : s.holding.ShowsPatterns) :
    r.text = s.text ↔ r.holding = s.holding := by
  constructor
  · intro h
    have hChars : r.chars = s.chars := String.ofList_injective h
    rw [← chars_holding, ← chars_holding] at hChars
    exact (Holding.legible_chars hNamed _ _ hr hs).eq_of_write hChars
  · exact text_eq_of_holding

/-- The text of a register identifies what it holds. On virtual registers and on a register file,
let all constants in two registers be integers, truth values or half-width floating-point numbers.
Then the registers have one text if and only if they have the same tree, with the same kind and
number at each target register and the same literal at each constant. -/
theorem texts_identify_holdings :
    (∀ r s : Register VirtualKind, r.holding.ShowsPatterns → s.holding.ShowsPatterns →
      (r.text = s.text ↔ r.holding = s.holding)) ∧
    ∀ r s : Register FileKind, r.holding.ShowsPatterns → s.holding.ShowsPatterns →
      (r.text = s.text ↔ r.holding = s.holding) :=
  ⟨fun _ _ => text_eq_iff named_virtualKind, fun _ _ => text_eq_iff named_fileKind⟩

/-- Two registers with one text that differ in all their origins and types. On a file, a register
inside two compounds is told from the same register inside one. -/
theorem texts_identify_holdings_nested :
    let address (o : Origin) (ty : Ty) : Register VirtualKind :=
      .hardware o ⟨⟨ty, some .i64, .int64⟩, 12⟩
    let number (o : Origin) (ty : Ty) (l : Literal) : Register VirtualKind :=
      .constant o ⟨ty, some l.scalar, .int16⟩ l
    let nested (o : Nat → Origin) (ty : Ty) : Register VirtualKind :=
      .compound (o 0) [ty, .struct [], .struct [ty, ty]]
        [address (o 1) ty, .compound (o 2) [] [], .compound (o 3) [ty, ty]
          [number (o 4) ty (.i8 (-7)), number (o 5) ty (.f16 15)]]
    let r := nested .allocated .string
    let s := nested .supplied (.pointer .void .shared)
    let general : Register FileKind := .hardware (.allocated 0) ⟨⟨.string, some .i64, .general⟩, 1⟩
    let once : Register FileKind := .compound (.allocated 1) [.string] [general]
    let twice : Register FileKind := .compound (.allocated 2) [.struct [.string]] [once]
    r.holding.ShowsPatterns ∧ s.holding.ShowsPatterns ∧ r ≠ s ∧
      r.text = "(Int64#12, (), (const -7i8, const 0x000ff16))" ∧ r.holding = s.holding ∧
      once.holding.ShowsPatterns ∧ twice.holding.ShowsPatterns ∧ once.holding ≠ twice.holding := by
  intro address number nested r s general once twice
  have hr : r.holding.ShowsPatterns := by decide +kernel
  have hs : s.holding.ShowsPatterns := by decide +kernel
  have hOnce : once.holding.ShowsPatterns := by decide +kernel
  have hTwice : twice.holding.ShowsPatterns := by decide +kernel
  have hSame : r.text = s.text := by decide +kernel
  have hDifferent : once.text ≠ twice.text := by decide +kernel
  obtain ⟨onVirtual, onFile⟩ := texts_identify_holdings
  exact ⟨hr, hs, by decide +kernel, by decide +kernel, (onVirtual r s hr hs).mp hSame, hOnce,
    hTwice, fun h => hDifferent ((onFile once twice hOnce hTwice).mpr h)⟩

/-- Decimals are another matter: patterns that are no numbers have one text. -/
example :
    let constant (bits : UInt32) : Register FileKind :=
      .constant (.allocated 0) (.ofScalar .f32 .float) (.f32 bits)
    (constant 0x7fc00000).text = (constant 0x7fc00001).text := by
  decide +kernel

end Register

end RegisterAssignment
