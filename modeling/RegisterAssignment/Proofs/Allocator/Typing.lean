import RegisterAssignment.Proofs.Allocator.Step
import RegisterAssignment.Proofs.Supply.Layout
import RegisterAssignment.Target.File
import RegisterAssignment.Target.Virtual

/-! Runs in which each identity has one type. Then the value at the end of an alias chain has the
type of its own identity, whatever the types of the values that lead there, and what is bound to an
identity is a register for its type: a constant, or registers in the shape of the type, each as the
target describes what it holds. -/

namespace RegisterAssignment

variable {σ κ : Type} {T : ValueId → Ty}

def Query.value : Query → Value
  | .isBound v | .load v | .loadAs v _ | .loadPrimitive v | .loadHardware v | .aliasTarget v
  | .resolve v => v

def Request.values : Request → List Value
  | .allocate v | .allocateHardware v | .allocateConstant v _ | .free v => [v]
  | .aliasTo v target => [v, target]
  | .query q => [q.value]
  | .allocateType _ | .reset => []

def Command.values : Command κ → List Value
  | .request r => r.values
  | .bindTo v _ => [v]
  | .freeRegister _ | .describe _ | .take _ | .giveBack _ => []

/-- Every value that a command mentions has the type that `T` gives to its identity. -/
def Command.Typed (T : ValueId → Ty) (c : Command κ) : Prop := ∀ v ∈ c.values, v.ty = T v.id

instance (T : ValueId → Ty) (c : Command κ) : Decidable (c.Typed T) :=
  inferInstanceAs (Decidable (∀ v ∈ c.values, v.ty = T v.id))

namespace Aliases

variable {t : Aliases} {v w target : Value}

/-- Every stored target has the type of its identity. -/
def Typed (T : ValueId → Ty) (t : Aliases) : Prop :=
  ∀ id stored, t.get? id = some stored → stored.ty = T stored.id

/-- All values on a chain have the types of their identities if the first one has. -/
theorem Typed.of_mem_chainWithin (h : t.Typed T) {hops : Nat} (hv : v.ty = T v.id)
    (hw : w ∈ t.chainWithin hops v) : w.ty = T w.id := by
  induction hops generalizing v with
  | zero =>
      rw [chainWithin, List.mem_singleton] at hw
      exact hw ▸ hv
  | succ hops ih =>
      rw [chainWithin] at hw
      split at hw
      next => exact List.mem_singleton.mp hw ▸ hv
      next next hNext =>
        rcases List.mem_cons.mp hw with rfl | hw
        · exact hv
        · exact ih (h _ _ hNext) hw

/-- A chain may pass through any types, but its end has the type of its own identity. -/
theorem Typed.resolve (h : t.Typed T) (hv : v.ty = T v.id) :
    (t.resolve v).ty = T (t.resolve v).id :=
  h.of_mem_chainWithin hv (resolve_mem_chain t v)

/-- What is stored in place of a target is of its own type, too. -/
theorem Typed.flatten (h : t.Typed T) (hTarget : target.ty = T target.id) :
    (t.flatten target).ty = T (t.flatten target).id := by
  rw [Aliases.flatten]
  cases hStored : t.get? target.id with
  | none => exact hTarget
  | some stored => exact h _ _ hStored

theorem Typed.insert (h : t.Typed T) {id : ValueId} (hv : v.ty = T v.id) :
    Typed T (Table.insert t id v) := by
  intro k stored hStored
  rw [Table.get?_insert] at hStored
  split at hStored
  · cases hStored
    exact hv
  · exact h k stored hStored

theorem typed_empty : Typed T Table.empty := fun _ _ hStored => by cases hStored

end Aliases

/-- A target that describes a type under its own name, holds padding like the scalar that it is
made of, holds no structure in one register, hands out what is wanted, and goes on describing types
in the same way. -/
structure Faithful (σ : Type) {κ : Type} [Target σ κ] : Prop where
  ty : ∀ {t : σ} {ty : Ty} {d : Descriptor κ}, Target.describe t ty = .ok d → d.ty = ty
  padding : ∀ {t : σ} {x : Scalar} {d : Descriptor κ}, Target.describe t (.scalar x) = .ok d →
    Target.describe t (.padding x) = .ok ⟨.padding x, d.basic, d.kind⟩
  struct : ∀ (t : σ) (fields : List Ty) (d : Descriptor κ),
    Target.describe t (.struct fields) ≠ .ok d
  wanted : ∀ {wanted : Descriptor κ} {t : σ} {held : Hardware κ},
    (Target.take wanted t).result = .ok held → held.descriptor = wanted
  take : ∀ (wanted : Descriptor κ) (t : σ),
    Target.describe (Target.take wanted t).state = Target.describe t
  giveBack : ∀ (held : Hardware κ) (t : σ),
    Target.describe (Target.giveBack held t).state = Target.describe t

theorem faithful_virtual : Faithful Virtual where
  ty {t ty d} h := by
    change Virtual.describe t ty = _ at h
    rw [Virtual.describe] at h
    split at h <;> cases h
    rfl
  padding h := by
    cases h
    rfl
  struct t fields d h := by cases h
  wanted h := by
    cases h
    rfl
  take wanted t := rfl
  giveBack held t := rfl

theorem faithful_file : Faithful File where
  ty {t ty d} h := by
    change File.describe t ty = _ at h
    rw [File.describe] at h
    split at h <;> cases h
    rfl
  padding h := by
    cases h
    rfl
  struct t fields d h := by cases h
  wanted {wanted t held} h := by
    change (File.take wanted t).result = _ at h
    rw [File.take] at h
    split at h <;> cases h
    rfl
  take wanted t := by
    change File.describe (File.take wanted t).state = File.describe t
    rw [File.take]
    split
    · cases wanted.kind <;> rfl
    · rfl
  giveBack held t := by
    change File.describe (File.giveBack held t).state = File.describe t
    rw [File.giveBack]
    split
    · cases held.kind <;> rfl
    · rfl

/-- A target register for a type: declared to hold the type, and otherwise as the target describes
it. -/
def Described (describe : Ty → Except Error (Descriptor κ)) (ty : Ty) (held : Hardware κ) : Prop :=
  held.descriptor.ty = ty ∧ describe ty = .ok held.descriptor

/-- A register that a value of a type may be bound to: a constant that the target would represent by
the type of its literal, or registers in the shape of the type. -/
inductive Suits (describe : Ty → Except Error (Descriptor κ)) (ty : Ty) : Register κ → Prop where
  | constant {origin : Origin} {d : Descriptor κ} {literal : Literal}
      (hDescribed : describe ty = .ok d) (hBasic : d.basic = some literal.scalar) :
      Suits describe ty (.constant origin d literal)
  | placed {register : Register κ} (hRealized : ty.RealizedBy (Described describe) register) :
      Suits describe ty register

section Faithful

variable [Target σ κ] (hFaithful : Faithful σ) {describe : Ty → Except Error (Descriptor κ)}

include hFaithful

/-- What suits a type is declared with that type. -/
theorem Suits.ty_eq {t : σ} {ty : Ty} {register : Register κ}
    (h : Suits (Target.describe t) ty register) : register.ty = ty := by
  cases h with
  | constant hDescribed _ => exact hFaithful.ty hDescribed
  | placed hRealized =>
      cases hRealized with
      | single _ hLeaf => exact hLeaf.1
      | struct _ => rfl

namespace Supply

/-- Neither taking registers nor giving them back changes how the target describes types. -/
theorem stable_describe : Stable fun s : Supply σ => Target.describe s.target = describe where
  take wanted h := (hFaithful.take wanted _).trans h
  giveBack held h := (hFaithful.giveBack held _).trans h
  tally f h := by
    rw [tally_target]
    exact h
  number h := h

/-- Every leaf of a structure is held as the target describes its type. -/
theorem fills_described :
    Fills (fun s : Supply σ => Target.describe s.target = describe) (Described describe) where
  stable := stable_describe hFaithful
  whole h hDescribe hTake := by
    subst h
    have hWanted := hFaithful.wanted hTake
    exact ⟨hWanted ▸ hFaithful.ty hDescribe, hWanted ▸ hDescribe⟩
  padding h hDescribe hTake := by
    subst h
    have hWanted := hFaithful.wanted hTake
    exact ⟨congrArg Descriptor.ty hWanted, hWanted ▸ hFaithful.padding hDescribe⟩

/-- One target register that is taken for a type suits the type. -/
theorem suits_placeWhole {ty : Ty} {s : Supply σ} {r : Register κ}
    (h : (placeWhole ty s).result = .ok r) : Suits (Target.describe s.target) ty r := by
  refine .placed ((fills_described hFaithful).placeWhole ?_ rfl h).1
  cases ty with
  | struct fields =>
      obtain ⟨d, _, hDescribe, _⟩ := ok_of_describe_hardware id h
      exact absurd hDescribe (hFaithful.struct _ _ _)
  | _ => rfl

omit hFaithful in
/-- A constant suits the type that it was accepted for. -/
theorem suits_placeConstant {root : Value} {literal : Literal} {s : Supply σ} {r : Register κ}
    (h : (placeConstant root literal s).result = .ok r) :
    Suits (Target.describe s.target) root.ty r := by
  obtain ⟨d, hDescribe, hConstant, _⟩ := Action.ok_of_bind h
  split at hConstant
  next hBasic =>
    rw [constant_apply] at hConstant
    cases hConstant
    exact .constant hDescribe hBasic
  next => cases hConstant

end Supply

/-- Whatever a request makes for a value suits the type of the value that its chain ends in. -/
theorem Allocator.Making.suits [RegisterKind κ] {a : Allocator σ κ} {r : Request} {v : Value}
    {make : Action (Supply σ) κ (Register κ)} {register : Register κ} (h : Making a r v make)
    (hResult : (make a.supply).result = .ok register) :
    Suits (Target.describe a.target) (a.resolve v).ty register := by
  cases h with
  | allocate v =>
      exact .placed ((Supply.fills_described hFaithful).place (a.resolve v).ty rfl hResult).1
  | allocateHardware v => exact Supply.suits_placeWhole hFaithful hResult
  | allocateConstant v literal => exact Supply.suits_placeConstant hResult

end Faithful

namespace Allocator

variable [Target σ κ]

/-- Stored targets and bound registers agree with the types of their identities. -/
structure WellTyped (T : ValueId → Ty) (a : Allocator σ κ) : Prop where
  aliases : a.aliases.Typed T
  bindings : ∀ id held, a.bindings.get? id = some held →
    Suits (Target.describe a.target) (T id) held.register

theorem wellTyped_new (target : σ) (options : Options) :
    (new target options : Allocator σ κ).WellTyped T :=
  ⟨Aliases.typed_empty, fun _ _ hHeld => by cases hHeld⟩

/-- Removing bindings does no harm, as long as the target describes types as before. -/
theorem WellTyped.of_subset {a b : Allocator σ κ} (h : a.WellTyped T)
    (hAliases : b.aliases.Typed T) (hTarget : Target.describe b.target = Target.describe a.target)
    (hSubset : ∀ id held, b.bindings.get? id = some held → a.bindings.get? id = some held) :
    b.WellTyped T := by
  refine ⟨hAliases, ?_⟩
  intro id held hHeld
  rw [hTarget]
  exact h.bindings id held (hSubset id held hHeld)

variable [DecidableEq κ] [RegisterKind κ] {a : Allocator σ κ} {c : Command κ}
  {o : Outcome (Allocator σ κ) κ (Answer κ)}

/-- Only an alias stores a value, and it stores the target or what is stored for that. -/
theorem Step.aliases_typed (hStep : Step a c o) (hTyped : c.Typed T) (h : a.aliases.Typed T) :
    o.state.aliases.Typed T := by
  cases hStep with
  | made _ _ =>
      simp only [Outcome.map, settle]
      split <;> exact h
  | @aliased v target _ =>
      have hTarget : target.ty = T target.id :=
        hTyped target (by simp [Command.values, Request.values])
      exact h.insert (h.flatten hTarget)
  | cleared => exact Aliases.typed_empty
  | answered _ | placed _ | freed _ | bound _ | released _ | described _ | taken _ | givenBack _ =>
      exact h

/-- If every value is used with one type, so is every stored target. -/
theorem run_aliases_typed (target : σ) (options : Options) {commands : List (Command κ)}
    (hTyped : ∀ c ∈ commands, c.Typed T) :
    ((new target options : Allocator σ κ).run commands).aliases.Typed T :=
  run_keeps (fun c hc _ _ hStep => hStep.aliases_typed (hTyped c hc)) Aliases.typed_empty

omit [DecidableEq κ] in
/-- The value that a register is made for is one that the request mentions. -/
theorem Making.mem_values {r : Request} {v : Value} {make : Action (Supply σ) κ (Register κ)}
    (h : Making a r v make) : v ∈ r.values := by
  cases h <;> exact List.mem_singleton_self _

/-- A typed request binds only what suits the type of the identity that it is bound to. -/
theorem Step.wellTyped (hFaithful : Faithful σ) {r : Request} (hStep : Step a (.request r) o)
    (hTyped : (Command.request r : Command κ).Typed T) (h : a.WellTyped T) :
    o.state.WellTyped T := by
  have hAliases : o.state.aliases.Typed T := hStep.aliases_typed hTyped h.aliases
  have hTarget : Target.describe o.state.target = Target.describe a.target :=
    hStep.keeps_supply (Supply.stable_describe hFaithful) rfl
  cases hStep with
  | @made _ v make hMaking _ =>
      refine ⟨hAliases, ?_⟩
      intro id held hHeld
      rw [hTarget]
      cases hMade : (make a.supply).result with
      | error e =>
          simp only [Outcome.map, settle, hMade] at hHeld
          exact h.bindings id held hHeld
      | ok register =>
          simp only [Outcome.map, settle, hMade, Table.get?_insert] at hHeld
          split at hHeld
          next hRoot =>
            -- The register was made for the type at the end of the chain, which is that of `id`.
            cases hHeld
            have hType : (a.resolve v).ty = T id :=
              hRoot ▸ h.aliases.resolve (hTyped v hMaking.mem_values)
            exact hType ▸ hMaking.suits hFaithful hMade
          next => exact h.bindings id held hHeld
  | aliased _ | freed _ =>
      refine h.of_subset hAliases hTarget ?_
      intro id held hHeld
      replace hHeld := (Table.get?_erase _ _ _).symm.trans hHeld
      split at hHeld
      · cases hHeld
      · exact hHeld
  | cleared => exact h.of_subset hAliases hTarget fun _ _ hHeld => by cases hHeld
  | answered _ | placed _ => exact h.of_subset hAliases hTarget fun _ _ hHeld => hHeld

/-- All states that typed requests reach are well typed. -/
theorem run_wellTyped (hFaithful : Faithful σ) (target : σ) (options : Options)
    {requests : List Request} (hTyped : ∀ r ∈ requests, ∀ v ∈ r.values, v.ty = T v.id) :
    ((new target options : Allocator σ κ).run (requests.map Command.request)).WellTyped T := by
  refine run_keeps ?_ (wellTyped_new target options)
  intro c hMem b o hStep h
  obtain ⟨r, hRequest, rfl⟩ := List.mem_map.mp hMem
  exact hStep.wellTyped hFaithful (hTyped r hRequest) h

/-- Bindings are well typed. Let each identity be given one type, and let every value that is
mentioned have the type of its identity; values may be aliased across types all the same. After any
such requests to an allocator over virtual registers or over a register file, failed ones included,
what an identity is bound to suits its type as the target describes it, and is declared to hold that
type. -/
theorem bindings_well_typed (T : ValueId → Ty) (options : Options) (requests : List Request)
    (hTyped : ∀ r ∈ requests, ∀ v ∈ r.values, v.ty = T v.id) :
    (∀ width : PointerWidth,
      let a : Allocator Virtual VirtualKind :=
        (new (Virtual.new width) options).run (requests.map Command.request)
      ∀ id held, a.bindings.get? id = some held →
        Suits a.target.describe (T id) held.register ∧ held.register.ty = T id) ∧
    ∀ config : FileConfig,
      let a : Allocator File FileKind :=
        (new (File.new config) options).run (requests.map Command.request)
      ∀ id held, a.bindings.get? id = some held →
        Suits a.target.describe (T id) held.register ∧ held.register.ty = T id := by
  constructor
  · intro width a id held hHeld
    have hSuits := (run_wellTyped faithful_virtual (Virtual.new width) options hTyped).bindings id
      held hHeld
    exact ⟨hSuits, hSuits.ty_eq faithful_virtual⟩
  · intro config a id held hHeld
    have hSuits := (run_wellTyped faithful_file (File.new config) options hTyped).bindings id held
      hHeld
    exact ⟨hSuits, hSuits.ty_eq faithful_file⟩

/-- A string is aliased to a structure, and the structure is placed by asking for the string; a
pointer is bound to a constant, padding is taken whole, and a second structure fails at its last
field. The structure and the constant are what their identities are declared to be. -/
theorem bindings_well_typed_across_alias :
    let pair : Ty := .struct [.padding .f64, .struct [.scalar .i8, .string]]
    let pointer : Ty := .pointer .void .global
    let T : ValueId → Ty := fun id => if id = 0 then pair else if id = 1 then .string else
      if id = 2 then pointer else if id = 3 then .padding .i16 else .struct [.string, .void]
    let requests : List Request := [.aliasTo ⟨1, .string⟩ ⟨0, pair⟩, .allocate ⟨1, .string⟩,
      .allocateConstant ⟨2, pointer⟩ (.i32 64), .allocateHardware ⟨3, .padding .i16⟩,
      .allocate ⟨4, .struct [.string, .void]⟩]
    let a : Allocator Virtual VirtualKind :=
      (new (Virtual.new .bits32) default).run (requests.map Command.request)
    let b : Allocator File FileKind :=
      (new (File.new ⟨3, 1, .bits32⟩) default).run (requests.map Command.request)
    (∀ r ∈ requests, ∀ v ∈ r.values, v.ty = T v.id) ∧
      (∃ held, a.bindings.get? 0 = some held ∧
        held.register.text = "(Float64#0, (Int16#0, Int32#0))" ∧ held.producer = ⟨1, .string⟩ ∧
        Suits a.target.describe pair held.register ∧ held.register.ty = pair) ∧
      ∃ held, b.bindings.get? 2 = some held ∧ held.register.text = "const 64i32" ∧
        Suits b.target.describe pointer held.register ∧ held.register.ty = pointer := by
  intro pair pointer T requests a b
  have hTyped : ∀ r ∈ requests, ∀ v ∈ r.values, v.ty = T v.id := by decide +kernel
  obtain ⟨hVirtual, hFile⟩ := bindings_well_typed T default requests hTyped
  have hPair : (a.bindings.get? 0).map (fun held => (held.register.text, held.producer)) =
      some ("(Float64#0, (Int16#0, Int32#0))", ⟨1, .string⟩) := by decide +kernel
  have hPointer : (b.bindings.get? 2).map (fun held => held.register.text) =
      some "const 64i32" := by decide +kernel
  obtain ⟨held, hHeld, hSeen⟩ := Option.map_eq_some_iff.mp hPair
  obtain ⟨hText, hProducer⟩ := Prod.mk.inj hSeen
  obtain ⟨held', hHeld', hText'⟩ := Option.map_eq_some_iff.mp hPointer
  exact ⟨hTyped, ⟨held, hHeld, hText, hProducer, hVirtual .bits32 0 held hHeld⟩,
    held', hHeld', hText', hFile ⟨3, 1, .bits32⟩ 2 held' hHeld'⟩

end Allocator

end RegisterAssignment
