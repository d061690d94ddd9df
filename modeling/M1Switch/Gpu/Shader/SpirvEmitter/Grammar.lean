import M1Switch.Gpu.Shader.SpirvEmitter.Decoded
import M1Switch.Library.Prefixes

/-
  Ids and types of SPIR-V instructions.

  The operands of an instruction are its result, ids it uses,
  labels and literals, by its opcode.  The type of an id is the
  one its defining instruction gives.

  Key definitions include:
    * `results`
    * `uses`

  Main results:
    * `typeOf_append`
    * `append`
-/

------
-- Operands
------

namespace M1Switch

inductive OperandKind where
  | result
  | use
  | label
  | literal
deriving DecidableEq, Repr

/- Kinds of the first operands and of those behind them. -/
def operandKinds (opcode : Nat) :
    List OperandKind × OperandKind :=
  if opcode ∈ [SpirvOp.Capability, SpirvOp.MemoryModel,
      SpirvOp.FunctionEnd, SpirvOp.Return, SpirvOp.Kill] then
    ([], .literal)
  else if opcode ∈ [SpirvOp.TypeVoid, SpirvOp.TypeBool,
      SpirvOp.TypeInt, SpirvOp.TypeFloat,
      SpirvOp.ExtInstImport] then
    ([.result], .literal)
  else if opcode = SpirvOp.Label then ([.result], .literal)
  else if opcode ∈ [SpirvOp.TypeVector, SpirvOp.TypeImage] then
    ([.result, .use], .literal)
  else if opcode ∈ [SpirvOp.TypeSampledImage,
      SpirvOp.TypeRuntimeArray, SpirvOp.TypeStruct,
      SpirvOp.TypeFunction] then
    ([.result], .use)
  else if opcode = SpirvOp.TypePointer then
    ([.result, .literal, .use], .literal)
  else if opcode ∈ [SpirvOp.EntryPoint] then
    ([.literal], .use)
  else if opcode ∈ [SpirvOp.ExecutionMode,
      SpirvOp.Decorate] then
    ([.use], .literal)
  else if opcode ∈ [SpirvOp.Constant, SpirvOp.ConstantTrue,
      SpirvOp.ConstantFalse, SpirvOp.Variable] then
    ([.use, .result], .literal)
  else if opcode = SpirvOp.Function then
    ([.use, .result, .literal, .use], .literal)
  else if opcode = SpirvOp.ExtInst then
    ([.use, .result, .use, .literal], .use)
  else if opcode = SpirvOp.Store then ([.use, .use], .literal)
  else if opcode = SpirvOp.Branch then ([.label], .literal)
  else if opcode = SpirvOp.BranchConditional then
    ([.use, .label, .label], .literal)
  else if opcode = SpirvOp.SelectionMerge then
    ([.label], .literal)
  else if opcode = SpirvOp.LoopMerge then
    ([.label, .label], .literal)
  -- The others give a typed result.
  else ([.use, .result], .use)

/- Operands of one kind. -/
def pickOperands (k : OperandKind) :
    List OperandKind → OperandKind → List Nat → List Nat
| [], rest, xs => if rest = k then xs else []
| _ :: _, _, [] => []
| kind :: kinds, rest, x :: xs =>
    if kind = k then x :: pickOperands k kinds rest xs
    else pickOperands k kinds rest xs

/- A name ends with the word whose last byte is 0. -/
def skipString : List Nat → List Nat
| [] => []
| w :: ws => if w < 2 ^ 24 then ws else skipString ws

namespace SpirvInst

/- Operands without the name of an entry point. -/
def plainOperands (i : SpirvInst) : List Nat :=
  if i.opcode = SpirvOp.EntryPoint then
    i.operands.take 2 ++ skipString (i.operands.drop 2)
  else i.operands

def ofKind (k : OperandKind) (i : SpirvInst) : List Nat :=
  pickOperands k (operandKinds i.opcode).1
    (operandKinds i.opcode).2 i.plainOperands

/- The id an instruction defines. -/
def results (i : SpirvInst) : List Nat :=
  i.ofKind .result

/- Types, constants, variables and values it uses. -/
def uses (i : SpirvInst) : List Nat :=
  i.ofKind .use

/- All ids of an instruction. -/
def ids (i : SpirvInst) : List Nat :=
  i.results ++ i.uses ++ i.ofKind .label

/- The type an instruction gives its result. -/
def resultType (i : SpirvInst) : Option Nat :=
  if (operandKinds i.opcode).1.take 2 = [.use, .result] then
    i.operands.head?
  else none

end SpirvInst

/- Ids defined by a list of instructions. -/
def resultsOf (insts : List SpirvInst) : List Nat :=
  insts.flatMap SpirvInst.results

------
-- Types Of Ids
------

/- The instruction that defines an id. -/
def definitionOf
    (insts : List SpirvInst)
    (x : Nat) : Option SpirvInst :=
  insts.find? (x ∈ ·.results)

def typeOf (insts : List SpirvInst) (x : Nat) : Option Nat :=
  (definitionOf insts x).bind SpirvInst.resultType

/- What a pointer type points to. -/
def pointeeType
    (insts : List SpirvInst)
    (t : Nat) : Option Nat :=
  (definitionOf insts t).bind fun i =>
    if i.opcode = SpirvOp.TypePointer then i.operands[2]?
    else none

/- The type a pointer's value points to. -/
def pointeeOf
    (insts : List SpirvInst)
    (x : Nat) : Option Nat :=
  (typeOf insts x).bind (pointeeType insts)

def isInteger (insts : List SpirvInst) (x : Nat) : Bool :=
  ((typeOf insts x).bind (definitionOf insts)).any
    (·.opcode = SpirvOp.TypeInt)

def isConstant (insts : List SpirvInst) (x : Nat) : Bool :=
  (definitionOf insts x).any (·.opcode = SpirvOp.Constant)

def isStruct
    (insts : List SpirvInst)
    (t : Option Nat) : Bool :=
  (t.bind (definitionOf insts)).any
    (·.opcode = SpirvOp.TypeStruct)

/- The type an index selects from a composite type. -/
def elementType
    (insts : List SpirvInst)
    (t : Option Nat)
    (x : Nat) : Option Nat :=
  (t.bind (definitionOf insts)).bind fun i =>
    if i.opcode = SpirvOp.TypeStruct then do
      let c ← definitionOf insts x
      let k ← c.operands[2]?
      i.operands[k + 1]?
    else i.operands[1]?

/- Indices are integers, and constants into a struct. -/
def ChainTyped (insts : List SpirvInst) :
    Option Nat → List Nat → Prop
| _, [] => True
| t, x :: xs =>
    isInteger insts x ∧
      (isStruct insts t → isConstant insts x) ∧
        ChainTyped insts (elementType insts t x) xs

/- A load has the type its pointer points to. -/
def LoadTyped (insts : List SpirvInst) : List Nat → Prop
| [t, _, ptr] => pointeeOf insts ptr = some t
| _ => False

/- A store's value has the type its pointer points to. -/
def StoreTyped (insts : List SpirvInst) : List Nat → Prop
| [ptr, v] =>
    (pointeeOf insts ptr).isSome ∧
      pointeeOf insts ptr = typeOf insts v
| _ => False

def AccessTyped (insts : List SpirvInst) : List Nat → Prop
| _ :: _ :: base :: indices =>
    ChainTyped insts (pointeeOf insts base) indices
| _ => False

/- Loads, stores and access chains fit their pointers. -/
def Typed (insts : List SpirvInst) (i : SpirvInst) : Prop :=
  (i.opcode = SpirvOp.Load → LoadTyped insts i.operands) ∧
    (i.opcode = SpirvOp.Store → StoreTyped insts i.operands) ∧
      (i.opcode = SpirvOp.AccessChain →
        AccessTyped insts i.operands)

/- The words split into well-typed instructions. -/
def TypeSafe (words : List Nat) : Prop :=
  ∃ insts, instructionsOf words = some insts ∧
    ∀ i ∈ insts, Typed insts i

theorem typeSafe_iff
    {words : List Nat}
    {insts : List SpirvInst}
    (hInsts : instructionsOf words = some insts) :
    TypeSafe words ↔ ∀ i ∈ insts, Typed insts i := by
  unfold TypeSafe
  rw [hInsts]
  simp

------
-- Definitions In Longer Lists
------

variable {a b : List SpirvInst} {x t : Nat} {i : SpirvInst}

theorem resultsOf_append :
    resultsOf (a ++ b) = resultsOf a ++ resultsOf b :=
  List.flatMap_append

/- A definition stays the first one. -/
theorem definitionOf_append
    (hDef : definitionOf a x = some i) :
    definitionOf (a ++ b) x = some i := by
  unfold definitionOf at hDef ⊢
  rw [List.find?_append, hDef]
  rfl

/- An id without a definition is defined behind. -/
theorem definitionOf_new
    (hNew : x ∉ resultsOf a) :
    definitionOf (a ++ b) x = definitionOf b x := by
  unfold definitionOf
  rw [List.find?_append]
  have hNone :
      List.find? (fun i => decide (x ∈ i.results)) a =
        none := by
    rw [List.find?_eq_none]
    intro j hJ hX
    exact hNew (List.mem_flatMap.mpr
      ⟨j, hJ, of_decide_eq_true hX⟩)
  rw [hNone]
  rfl

theorem typeOf_append
    (hType : typeOf a x = some t) :
    typeOf (a ++ b) x = some t := by
  unfold typeOf at hType ⊢
  rcases Option.bind_eq_some_iff.mp hType with ⟨i, hDef, hI⟩
  rw [definitionOf_append hDef]
  exact hI

theorem pointeeType_append
    (hType : pointeeType a x = some t) :
    pointeeType (a ++ b) x = some t := by
  unfold pointeeType at hType ⊢
  rcases Option.bind_eq_some_iff.mp hType with ⟨i, hDef, hI⟩
  rw [definitionOf_append hDef]
  exact hI

theorem pointeeOf_append
    (hType : pointeeOf a x = some t) :
    pointeeOf (a ++ b) x = some t := by
  unfold pointeeOf at hType ⊢
  rcases Option.bind_eq_some_iff.mp hType with
    ⟨pt, hPt, hPointee⟩
  rw [typeOf_append hPt]
  exact pointeeType_append hPointee

theorem mem_resultsOf_of_definitionOf
    (hDef : definitionOf a x = some i) :
    x ∈ resultsOf a := by
  have hMem := List.mem_of_find?_eq_some hDef
  have hX := List.find?_some hDef
  exact List.mem_flatMap.mpr ⟨i, hMem, of_decide_eq_true hX⟩

/- A typed id is defined. -/
theorem mem_resultsOf_of_typeOf
    (hType : typeOf a x = some t) :
    x ∈ resultsOf a := by
  unfold typeOf at hType
  rcases Option.bind_eq_some_iff.mp hType with ⟨i, hDef, _⟩
  exact mem_resultsOf_of_definitionOf hDef

theorem mem_resultsOf_of_pointeeType
    (hType : pointeeType a x = some t) :
    x ∈ resultsOf a := by
  unfold pointeeType at hType
  rcases Option.bind_eq_some_iff.mp hType with ⟨i, hDef, _⟩
  exact mem_resultsOf_of_definitionOf hDef

theorem mem_resultsOf_of_pointeeOf
    (hType : pointeeOf a x = some t) :
    x ∈ resultsOf a := by
  unfold pointeeOf at hType
  rcases Option.bind_eq_some_iff.mp hType with ⟨pt, hPt, _⟩
  exact mem_resultsOf_of_typeOf hPt

/- Typed whatever follows; access chains are left out. -/
structure Settled
    (insts : List SpirvInst)
    (i : SpirvInst) : Prop where
  typed : Typed insts i
  chain : i.opcode ≠ SpirvOp.AccessChain

theorem Settled.append
    (hSettled : Settled a i) :
    Settled (a ++ b) i := by
  rcases i with ⟨opcode, operands⟩
  rcases hSettled with ⟨hTyped, hChain⟩
  refine ⟨⟨?_, ?_, fun hOp => absurd hOp hChain⟩, hChain⟩
  · intro hOp
    have hLoad : LoadTyped a operands := hTyped.1 hOp
    show LoadTyped (a ++ b) operands
    unfold LoadTyped at hLoad ⊢
    split at hLoad
    · exact pointeeOf_append hLoad
    · exact hLoad.elim
  · intro hOp
    have hStore : StoreTyped a operands := hTyped.2.1 hOp
    show StoreTyped (a ++ b) operands
    unfold StoreTyped at hStore ⊢
    split at hStore
    · rename_i ptr v
      rcases hStore with ⟨hSome, hEq⟩
      rcases Option.isSome_iff_exists.mp hSome with ⟨t, hT⟩
      rw [hT] at hEq
      rw [pointeeOf_append hT, typeOf_append hEq.symm]
      exact ⟨rfl, rfl⟩
    · exact hStore.elim

theorem settled_load
    {ptr : Nat}
    (hPtr : pointeeOf a ptr = some t)
    (id : Nat) :
    Settled a ⟨SpirvOp.Load, [t, id, ptr]⟩ := by
  have hStore : SpirvOp.Load ≠ SpirvOp.Store := by decide
  have hChain : SpirvOp.Load ≠ SpirvOp.AccessChain := by
    decide
  exact ⟨⟨fun _ => hPtr, fun hOp => absurd hOp hStore,
    fun hOp => absurd hOp hChain⟩, hChain⟩

theorem settled_store
    {ptr v : Nat}
    (hPtr : pointeeOf a ptr = some t)
    (hValue : typeOf a v = some t) :
    Settled a ⟨SpirvOp.Store, [ptr, v]⟩ := by
  have hLoad : SpirvOp.Store ≠ SpirvOp.Load := by decide
  have hChain : SpirvOp.Store ≠ SpirvOp.AccessChain := by
    decide
  refine ⟨⟨fun hOp => absurd hOp hLoad, fun _ => ?_,
    fun hOp => absurd hOp hChain⟩, hChain⟩
  show _ ∧ _
  rw [hPtr, hValue]
  exact ⟨rfl, rfl⟩

end M1Switch
