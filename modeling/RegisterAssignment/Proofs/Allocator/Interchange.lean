import RegisterAssignment.Proofs.Allocator.Typing

/-! Values that resolve to one value are interchangeable. The register that is used, made or
released, and the texts of errors, depend on the value at the end of the chain only. Which value a
client asked through is remembered as the producer of a new entry, and shows nowhere else but in the
refusal to free what is unbound. -/

namespace RegisterAssignment

variable {σ κ α β : Type}

/-- What a client can do with the register of a value, whichever value it asks through. -/
inductive Access (κ : Type) where
  | allocate
  | allocateHardware
  | allocateConstant (literal : Literal)
  | bindTo (register : Register κ)
  | free
  | load
  | loadAs (variant : Variant)
  | loadPrimitive
  | loadHardware
  | isBound

/-- The command that a client gives to do so through a value. -/
def Access.through : Access κ → Value → Command κ
  | .allocate, v => .request (.allocate v)
  | .allocateHardware, v => .request (.allocateHardware v)
  | .allocateConstant literal, v => .request (.allocateConstant v literal)
  | .bindTo register, v => .bindTo v register
  | .free, v => .request (.free v)
  | .load, v => .request (.query (.load v))
  | .loadAs variant, v => .request (.query (.loadAs v variant))
  | .loadPrimitive, v => .request (.query (.loadPrimitive v))
  | .loadHardware, v => .request (.query (.loadHardware v))
  | .isBound, v => .request (.query (.isBound v))

/-- The register that a client is answered with, if it gets one. -/
def Answer.register? : Answer κ → Option (Register κ)
  | .register r => some r
  | _ => none

namespace Allocator

variable {a : Allocator σ κ} {x y : Value}

/-- The register that an access enters for the value at the end of the chain, to judge by its
result: the one that it makes if there was none, or the one that the client binds. An access that
fails enters nothing, and neither does one that finds a register, asks about it or releases it. -/
def entered? (a : Allocator σ κ) (v : Value) (access : Access κ)
    (result : Except Error (Answer κ)) : Option (Register κ) :=
  match access with
  | .allocate | .allocateHardware | .allocateConstant _ =>
    if a.isBound v then none else result.toOption.bind Answer.register?
  | .bindTo register => result.toOption.map fun _ => register
  | .free | .load | .loadAs _ | .loadPrimitive | .loadHardware | .isBound => none

section Entered

variable {s : Type}

theorem toOption_map (f : α → β) (o : Outcome s κ α) :
    (o.map f).result.toOption = o.result.toOption.map f := by
  rw [Outcome.map]
  cases o.result <;> rfl

/-- A request for a register is answered with the register that it gets. -/
theorem register?_of_answer (o : Outcome s κ (Register κ)) :
    (o.map Answer.register).result.toOption.bind Answer.register? = o.result.toOption := by
  rw [toOption_map, Option.bind_map]
  exact Option.bind_fun_some _

end Entered

/-- The states that an access leaves through `x` and through `y`. They are the same if it entered no
register. If it did, its register is now the one of the value that `x` and `y` resolve to, once with
`x` and once with `y` as the producer, and that is the only difference. -/
inductive SameButProducer (a : Allocator σ κ) (x y : Value) :
    Option (Register κ) → Allocator σ κ → Allocator σ κ → Prop where
  | same (b : Allocator σ κ) : SameButProducer a x y none b b
  | recorded (supply : Supply σ) (register : Register κ) :
      SameButProducer a x y (some register)
        { a with supply, bindings := a.bindings.insert (a.resolve x).id ⟨x, register⟩ }
        { a with supply, bindings := a.bindings.insert (a.resolve x).id ⟨y, register⟩ }

/-- Two outcomes, of an access through `x` and of one through `y`, that nothing tells apart but the
producer of a register that was entered. -/
structure AlikeThrough (a : Allocator σ κ) (x y : Value) (entered : Option (Register κ))
    (o o' : Outcome (Allocator σ κ) κ α) : Prop where
  result : o'.result = o.result
  calls : o'.calls = o.calls
  state : SameButProducer a x y entered o.state o'.state

/-- The same outcome on both sides, with nothing entered. -/
theorem AlikeThrough.refl (o : Outcome (Allocator σ κ) κ α) : AlikeThrough a x y none o o :=
  ⟨rfl, rfl, .same _⟩

section Outcomes

variable {entered : Option (Register κ)} {o o' : Outcome (Allocator σ κ) κ α}

/-- What is logged makes no difference. -/
theorem AlikeThrough.of_silent (h : AlikeThrough a x y entered o.silent o'.silent) :
    AlikeThrough a x y entered o o' :=
  ⟨h.result, h.calls, h.state⟩

/-- How a client is answered makes no difference. -/
theorem AlikeThrough.map (h : AlikeThrough a x y entered o o') (f : α → β) :
    AlikeThrough a x y entered (o.map f) (o'.map f) :=
  ⟨congrArg (Except.map f) h.result, h.calls, h.state⟩

end Outcomes

/-- A register that was made is entered, and nothing is if none could be made. -/
theorem alikeThrough_settle (made : Outcome (Supply σ) κ (Register κ)) :
    AlikeThrough a x y made.result.toOption (a.settle (a.resolve x).id x made)
      (a.settle (a.resolve x).id y made) := by
  cases hResult : made.result with
  | error e =>
      simp only [settle, hResult]
      exact .refl _
  | ok register =>
      simp only [settle, hResult]
      exact ⟨rfl, rfl, .recorded made.state register⟩

section Root

variable (hRoot : a.resolve y = a.resolve x)

include hRoot

/-- Both values use one binding. -/
theorem binding?_congr : a.binding? y = a.binding? x := by
  rw [binding?, binding?, hRoot]

/-- Questions about the register of a value are answered for the end of its chain. -/
theorem load_congr : a.load y = a.load x := by
  rw [load, load, binding?_congr hRoot, hRoot]

/-- A refusal names the end of the chain and not the value that was asked through. -/
theorem unexpected_congr : a.unexpected y = a.unexpected x := by
  funext expected found
  rw [unexpected, unexpected, hRoot]

/-- A request that makes a register for an unbound value, and answers for a bound one from its
binding. -/
theorem alikeThrough_making {ask : Value → Action (Allocator σ κ) κ (Register κ)}
    (make : Value → Action (Supply σ) κ (Register κ))
    (reuse : Value → Register κ → Except Error (Register κ))
    (hUnbound : ∀ v, a.binding? v = none →
      (ask v a).silent = a.settle (a.resolve v).id v (make (a.resolve v) a.supply))
    (hBound : ∀ v held, a.binding? v = some held →
      ask v a = ⟨reuse (a.resolve v) held.register, a, [], []⟩) :
    AlikeThrough a x y (if a.isBound x then none else (ask x a).result.toOption)
      (ask x a) (ask y a) := by
  have hSame : a.binding? y = a.binding? x := binding?_congr hRoot
  rw [isBound]
  cases hHeld : a.binding? x with
  | none =>
      rw [hHeld] at hSame
      have hSettled := hUnbound x hHeld
      have hMade : (ask x a).result = (make (a.resolve x) a.supply).result := by
        rw [Outcome.result_eq hSettled, settle]
        cases (make (a.resolve x) a.supply).result <;> rfl
      apply AlikeThrough.of_silent
      rw [hSettled, hUnbound y hSame, hRoot, hMade]
      exact alikeThrough_settle _
  | some held =>
      rw [hHeld] at hSame
      rw [hBound x held hHeld, hBound y held hSame, hRoot]
      exact .refl _

variable [RegisterKind κ]

/-- Binding a register enters it, unless the policy forbids to replace the one that is there. -/
theorem alikeThrough_bindTo [DecidableEq κ] (register : Register κ) :
    AlikeThrough a x y ((bindTo x register a).result.toOption.map fun _ => register)
      (bindTo x register a) (bindTo y register a) := by
  have hSame : a.binding? y = a.binding? x := binding?_congr hRoot
  by_cases hRefused : a.RefusesBind x register
  · obtain ⟨hDeny, held, hHeld, hOther⟩ := hRefused
    rw [bindTo_of_denied hDeny hHeld hOther, bindTo_of_denied hDeny (hSame.trans hHeld) hOther,
      hRoot]
    exact .refl _
  · have hAccepted : ¬ a.RefusesBind y register := by
      rwa [RefusesBind, hSame]
    have hBound := silent_bindTo_of_accepted hRefused
    apply AlikeThrough.of_silent
    rw [Outcome.result_eq hBound, hBound, silent_bindTo_of_accepted hAccepted, hRoot]
    exact ⟨rfl, rfl, .recorded _ register⟩

variable [Target σ κ]

/-- A register that is there is released and its binding removed, whoever asks for it. -/
theorem alikeThrough_free {held : Binding κ} (hHeld : a.binding? x = some held) :
    AlikeThrough a x y none (free x a) (free y a) := by
  have hSame : a.binding? y = some held := (binding?_congr hRoot).trans hHeld
  apply AlikeThrough.of_silent
  rw [silent_free_of_bound hHeld, silent_free_of_bound hSame, hRoot]
  exact .refl _

omit hRoot in
/-- Questions with one answer are interchangeable: they do nothing but answer. -/
theorem alikeThrough_query [DecidableEq κ] {q q' : Query} (h : a.answer q' = a.answer q) :
    AlikeThrough a x y none (perform (.request (.query q)) a) (perform (.request (.query q')) a) :=
  ⟨h, rfl, .same a⟩

/-- Any access through either of two values with one end, but for freeing what is unbound. -/
theorem alikeThrough_perform [DecidableEq κ] {access : Access κ}
    (hFree : access = .free → ∃ held, a.binding? x = some held) :
    AlikeThrough a x y (a.entered? x access (perform (access.through x) a).result)
      (perform (access.through x) a) (perform (access.through y) a) := by
  have hLoad := load_congr hRoot
  have hUnexpected := unexpected_congr hRoot
  cases access with
  | allocate =>
      simp only [Access.through, perform, serve, Action.map_apply, entered?,
        register?_of_answer]
      exact (alikeThrough_making hRoot (fun root => Supply.place root.ty) (fun _ => .ok)
        (fun _ => silent_allocate_of_unbound) fun _ _ => allocate_of_bound).map _
  | allocateHardware =>
      simp only [Access.through, perform, serve, Action.map_apply, entered?,
        register?_of_answer]
      exact (alikeThrough_making hRoot (fun root => Supply.placeWhole root.ty)
        (fun root register => if register.variant = .hardware then .ok register else
          .error (.wrongVariant root.text Variant.hardware.text register.variant.text))
        (fun _ => silent_allocateHardware_of_unbound) fun _ _ => allocateHardware_of_bound).map _
  | allocateConstant literal =>
      simp only [Access.through, perform, serve, Action.map_apply, entered?,
        register?_of_answer]
      exact (alikeThrough_making hRoot (fun root => Supply.placeConstant root literal)
        (fun _ => .ok) (fun _ => silent_allocateConstant_of_unbound)
        fun _ _ => allocateConstant_of_bound).map _
  | bindTo register =>
      simp only [Access.through, perform, Action.map_apply, entered?, toOption_map,
        Option.map_map, Function.comp_def]
      exact (alikeThrough_bindTo hRoot register).map _
  | free =>
      obtain ⟨held, hHeld⟩ := hFree rfl
      simp only [Access.through, perform, serve, Action.map_apply]
      exact (alikeThrough_free hRoot hHeld).map _
  | load => exact alikeThrough_query (by rw [answer, answer, hLoad])
  | loadAs variant =>
      exact alikeThrough_query (by rw [answer, answer, loadAs, loadAs, hLoad, hUnexpected])
  | loadPrimitive =>
      exact alikeThrough_query (by rw [answer, answer, loadPrimitive, loadPrimitive, hLoad,
        hUnexpected])
  | loadHardware =>
      exact alikeThrough_query (by rw [answer, answer, loadHardware, loadHardware, hLoad,
        hUnexpected])
  | isBound =>
      exact alikeThrough_query (by rw [answer, answer, isBound, isBound, binding?_congr hRoot])

end Root

variable [DecidableEq κ] [RegisterKind κ] [Target σ κ]

/-- Of all refusals only this one names the value that a client passed in. -/
theorem perform_free_of_unbound {v : Value} (hNone : a.binding? v = none) :
    perform (Access.free.through v) a = ⟨.error (.unbound v.text), a, [], []⟩ := by
  rw [Access.through, perform, serve, Action.map_apply, free_of_unbound hNone]
  rfl

/-- Aliases of one root are interchangeable. In any state that is reached by commands in which each
identity has one type, let `x` and `y` have the types of their identities and resolve to one
identity. Then whatever is done to their register through `x` or through `y` makes the same calls
with the same answers, gives the same result, errors and origins included, and leaves the same
state. There are two exceptions. A register that was made or bound is entered with the value that
was asked through, `x` or `y`, as its producer; and to free what is unbound is refused with the text
of the value that was passed in. -/
theorem aliases_interchangeable (target : σ) (options : Options) (T : ValueId → Ty)
    (commands : List (Command κ)) (hTyped : ∀ c ∈ commands, c.Typed T) (x y : Value)
    (hx : x.ty = T x.id) (hy : y.ty = T y.id) :
    let a : Allocator σ κ := (new target options).run commands
    (a.resolve x).id = (a.resolve y).id → ∀ access : Access κ,
      let o := perform (access.through x) a
      let o' := perform (access.through y) a
      o'.calls = o.calls ∧
      SameButProducer a x y (a.entered? x access o.result) o.state o'.state ∧
      (¬ (access = .free ∧ a.binding? x = none) → o'.result = o.result) ∧
      (access = .free → a.binding? x = none →
        o.result = .error (.unbound x.text) ∧ o'.result = .error (.unbound y.text)) := by
  intro a hId access o o'
  have hAliases : a.aliases.Typed T := run_aliases_typed target options hTyped
  have hTy : (a.resolve y).ty = (a.resolve x).ty := by
    calc (a.resolve y).ty = T (a.resolve y).id := hAliases.resolve hy
      _ = T (a.resolve x).id := by rw [hId]
      _ = (a.resolve x).ty := (hAliases.resolve hx).symm
  have hRoot : a.resolve y = a.resolve x := by
    calc a.resolve y = ⟨(a.resolve y).id, (a.resolve y).ty⟩ := rfl
      _ = ⟨(a.resolve x).id, (a.resolve x).ty⟩ := by rw [hId, hTy]
  by_cases hUnbound : access = .free ∧ a.binding? x = none
  · obtain ⟨rfl, hNone⟩ := hUnbound
    have hThroughX : o = ⟨.error (.unbound x.text), a, [], []⟩ := perform_free_of_unbound hNone
    have hThroughY : o' = ⟨.error (.unbound y.text), a, [], []⟩ :=
      perform_free_of_unbound ((binding?_congr hRoot).trans hNone)
    rw [hThroughX, hThroughY]
    exact ⟨rfl, .same a, fun hNot => absurd ⟨rfl, hNone⟩ hNot, fun _ _ => ⟨rfl, rfl⟩⟩
  · have hAlike : AlikeThrough a x y (a.entered? x access o.result) o o' := by
      apply alikeThrough_perform hRoot
      intro hFree
      exact Option.ne_none_iff_exists'.mp fun hNone => hUnbound ⟨hFree, hNone⟩
    exact ⟨hAlike.calls, hAlike.state, fun _ => hAlike.result,
      fun hFree hNone => absurd ⟨hFree, hNone⟩ hUnbound⟩

/-- Two values of other types lead to an unbound integer, one of them through the other. Through
either the same register is made, and then replaced by the same one of the client; only the producer
differs, and it is the value that was asked through. Before that neither can be freed, and each
refusal names the value that was passed in. -/
theorem aliases_interchangeable_along_chain :
    let root : Value := ⟨0, .scalar .i32⟩
    let near : Value := ⟨1, .string⟩
    let far : Value := ⟨2, .scalar .f64⟩
    let T : ValueId → Ty := fun id =>
      if id = 0 then .scalar .i32 else if id = 1 then .string else .scalar .f64
    let unbound : List (Command VirtualKind) :=
      [.request (.aliasTo far near), .request (.aliasTo near root)]
    let bound := unbound ++ [.request (.allocate root)]
    let start : Allocator Virtual VirtualKind := new (Virtual.new .bits64) default
    let a := start.run unbound
    let b := start.run bound
    let integer : Descriptor VirtualKind := ⟨.scalar .i32, some .i32, .int32⟩
    let made : Register VirtualKind := .hardware (.allocated 0) ⟨integer, 0⟩
    let chosen : Register VirtualKind := .hardware (.supplied 0) ⟨integer, 7⟩
    let madeThrough (v : Value) := perform (.request (.allocate v)) a
    let chosenThrough (v : Value) := perform (.bindTo v chosen) b
    (∀ c ∈ bound, c.Typed T) ∧ far.ty = T far.id ∧ near.ty = T near.id ∧
      (a.resolve far).id = (a.resolve near).id ∧ (b.resolve far).id = (b.resolve near).id ∧
      (madeThrough far).result = .ok (.register made) ∧
      (madeThrough near).result = (madeThrough far).result ∧
      (madeThrough near).calls = (madeThrough far).calls ∧
      SameButProducer a far near (some made) (madeThrough far).state (madeThrough near).state ∧
      (chosenThrough far).result = .ok .done ∧
      SameButProducer b far near (some chosen) (chosenThrough far).state
        (chosenThrough near).state ∧
      (perform (.request (.free far)) a).result = .error (.unbound "%2: f64") ∧
      (perform (.request (.free near)) a).result = .error (.unbound "%1: string") := by
  intro root near far T unbound bound start a b integer made chosen madeThrough chosenThrough
  have hBoundTyped : ∀ c ∈ bound, c.Typed T := by decide +kernel
  have hTyped : ∀ c ∈ unbound, c.Typed T := fun c hc =>
    hBoundTyped c (List.mem_append_left _ hc)
  have hUnboundRoot : (a.resolve far).id = (a.resolve near).id := by decide +kernel
  have hBoundRoot : (b.resolve far).id = (b.resolve near).id := by decide +kernel
  have hAlike := aliases_interchangeable (Virtual.new .bits64) default T unbound hTyped far near
    rfl rfl hUnboundRoot
  obtain ⟨hCalls, hState, hSame, _⟩ := hAlike .allocate
  obtain ⟨_, _, _, hRefused⟩ := hAlike .free
  obtain ⟨_, hReplaced, _⟩ := aliases_interchangeable (Virtual.new .bits64) default T bound
    hBoundTyped far near rfl rfl hBoundRoot (.bindTo chosen)
  have hResult : (madeThrough near).result = (madeThrough far).result :=
    hSame fun hFree => by cases hFree.1
  have hMade : (madeThrough far).result = .ok (.register made) := by decide +kernel
  have hEntered : a.entered? far .allocate (madeThrough far).result = some made := by
    decide +kernel
  have hChosen : (chosenThrough far).result = .ok .done := by decide +kernel
  have hEnteredChosen :
      b.entered? far (.bindTo chosen) (chosenThrough far).result = some chosen := by
    decide +kernel
  have hFar : far.text = "%2: f64" := by decide +kernel
  have hNear : near.text = "%1: string" := by decide +kernel
  obtain ⟨hFreeFar, hFreeNear⟩ := hRefused rfl (by decide +kernel)
  rw [hFar] at hFreeFar
  rw [hNear] at hFreeNear
  exact ⟨hBoundTyped, rfl, rfl, hUnboundRoot, hBoundRoot, hMade, hResult, hCalls,
    hEntered ▸ hState, hChosen, hEnteredChosen ▸ hReplaced, hFreeFar, hFreeNear⟩

end Allocator

end RegisterAssignment
