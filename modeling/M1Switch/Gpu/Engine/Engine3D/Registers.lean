import Mathlib.Data.Fintype.Basic
import Mathlib.Tactic.FinCases
import M1Switch.Gpu.Engine.Engine3D

/-
  The registers of the 3D engine, by their numbers.

  Outside the block of the render targets every number belongs
  to one register at most.  A number without a register has no
  effect.

  Key definitions include:
    * `Engine3D.Register`
    * `Engine3D.RtWritten`

  Main results:
    * `rtWritten_iff`
    * `viewportWritten_iff`
    * `multiWord_iff`
-/

------
-- Registers and Numbers
------

namespace M1Switch

namespace Engine3D

/- The state after one method write. -/
def write
    (s : GpuState3D)
    (method : Nat)
    (value : U32) : GpuState3D :=
  (handleMethod s method value).1

/-
  The registers outside the block of the render targets that
  have an effect.  The number of `SetProgram` itself is that of
  the first program register.
-/
inductive Register where
  | viewport (i : Fin 12) (sub : Fin 8)
  | scissor (i : Fin 16)
  | vertexAttrib (i : Fin 32)
  | colorBlendEnable (i : Fin 8)
  | stencilFrontFuncRef
  | stencilFrontFuncMask
  | stencilFrontMask
  | colorWriteMask (i : Fin 8)
  | vertexArray (i : Fin 16) (sub : Fin 4)
  | independentBlend (sub : Fin 7) (i : Fin 8)
  | program (sub : Fin 2) (i : Fin 6)
  | isVertexArrayPerInstance (i : Fin 16)
  | single (m : Method3D) (hOther : m ≠ .SetProgram)
deriving DecidableEq

/- The number of a register. -/
def Register.code : Register → Nat
  | .viewport i sub => Method3D.ViewportTransform + (8 * i + sub)
  | .scissor i => Method3D.Scissor + i
  | .vertexAttrib i => Method3D.VertexAttribState + i
  | .colorBlendEnable i => Method3D.ColorBlendEnable + i
  | .stencilFrontFuncRef => Method3D.StencilFrontFuncRef
  | .stencilFrontFuncMask => Method3D.StencilFrontFuncMask
  | .stencilFrontMask => Method3D.StencilFrontMask
  | .colorWriteMask i => Method3D.ColorWriteMask + i
  | .vertexArray i sub => Method3D.VertexArray + (4 * i + sub)
  | .independentBlend sub i =>
      Method3D.IndependentBlend + (8 * sub + i)
  | .program sub i => Method3D.SetProgram.code + (6 * sub + i)
  | .isVertexArrayPerInstance i =>
      Method3D.IsVertexArrayPerInstance + i
  | .single m _ => m.code

/- A number of the block of the render targets. -/
def InRtBlock (method : Nat) : Prop :=
  inRange method Method3D.RenderTarget (8 * 8) = true

theorem inRange_iff (method base count : Nat) :
    inRange method base count = true ↔
      base ≤ method ∧ method < base + count := by
  simp [inRange]

/- What a number in a range is, from the base on. -/
theorem exists_of_inRange
    {method base count : Nat}
    (hIn : inRange method base count = true) :
    ∃ k < count, method = base + k := by
  rcases (inRange_iff _ _ _).mp hIn with ⟨hFrom, hUntil⟩
  exact ⟨method - base, by omega, by omega⟩

------
-- Routing
------

theorem inRange_add
    (base : Nat)
    {count k : Nat}
    (hK : k < count) :
    inRange (base + k) base count = true :=
  (inRange_iff _ _ _).mpr ⟨by omega, by omega⟩

theorem not_inRange
    {method base count : Nat}
    (hOut : method < base ∨ base + count ≤ method) :
    ¬ inRange method base count = true := by
  rw [inRange_iff]
  omega

variable {s : GpuState3D} {value : U32}

theorem write_of_route
    {method : Nat}
    {s' : GpuState3D}
    (hRoute : routeArray s method value = some s') :
    write s method value = s' := by
  unfold write handleMethod
  rw [hRoute]

/- A number that no range takes is one of the `switch`. -/
theorem write_of_not_route
    {method : Nat}
    (hRoute : routeArray s method value = none) :
    write s method value =
      match Method3D.ofCode? method with
      | some m => switchMethod s m value
      | none => s := by
  unfold write handleMethod
  rw [hRoute]
  cases Method3D.ofCode? method <;> rfl

/- What a write to a register does. -/
def Register.effect
    (s : GpuState3D)
    (r : Register)
    (value : U32) : GpuState3D :=
  match r with
  | .viewport i sub => handleViewport s (8 * i + sub) value
  | .scissor i => handleScissor s i value
  | .vertexAttrib i => handleVertexAttrib s i value
  | .colorBlendEnable i =>
      putBlend s i fun b => { b with enabled := value != 0 }
  | .stencilFrontFuncRef =>
      { s with depthStencil.stencilFrontRef :=
        value &&& 0xFF#32 }
  | .stencilFrontFuncMask =>
      { s with depthStencil.stencilFrontMask :=
        value &&& 0xFF#32 }
  | .stencilFrontMask =>
      { s with depthStencil.stencilFrontWritemask :=
        value &&& 0xFF#32 }
  | .colorWriteMask i =>
      putBlend s i fun b => { b with colorMask := value &&& 0xF#32 }
  | .vertexArray i sub => handleVertexArray s (4 * i + sub) value
  | .independentBlend sub i => handleBlend s (8 * sub + i) value
  | .program sub i => handleShader s (6 * sub + i) value
  | .isVertexArrayPerInstance i =>
      putVertexArray s i fun va =>
        { va with divisor := if value != 0 then 1 else 0 }
  | .single m _ => switchMethod s m value

theorem routeArray_single
    {m : Method3D}
    (hOther : m ≠ .SetProgram) :
    routeArray s m.code value = none := by
  cases m <;> first | rfl | exact absurd rfl hOther

/- The ranges, by where they start. -/
theorem bases :
    Method3D.RenderTarget = 0x200 ∧
      Method3D.ViewportTransform = 0x280 ∧
      Method3D.Scissor = 0x380 ∧
      Method3D.VertexAttribState = 0x458 ∧
      Method3D.ColorBlendEnable = 0x4D8 ∧
      Method3D.StencilFrontFuncRef = 0x4E5 ∧
      Method3D.StencilFrontFuncMask = 0x4E6 ∧
      Method3D.StencilFrontMask = 0x4E7 ∧
      Method3D.ColorWriteMask = 0x680 ∧
      Method3D.VertexArray = 0x700 ∧
      Method3D.IndependentBlend = 0x780 ∧
      Method3D.VertexArrayLimit = 0x7C0 ∧
      Method3D.SetProgram.code = 0x800 ∧
      Method3D.IsVertexArrayPerInstance = 0x620 := by
  decide

/- A number in a range reaches the range's handler. -/
theorem routeArray_code
    (r : Register)
    (hArray : ∀ m hOther, r ≠ .single m hOther) :
    routeArray s r.code value = some (r.effect s value) := by
  rcases bases with
    ⟨h₁, h₂, h₃, h₄, h₅, h₆, h₇, h₈, h₉, h₁₀, h₁₁, h₁₂, h₁₃,
     h₁₄⟩
  unfold routeArray
  cases r with
  | single m hOther => exact absurd rfl (hArray m hOther)
  | stencilFrontFuncRef => rfl
  | stencilFrontFuncMask => rfl
  | stencilFrontMask => rfl
  | viewport i sub =>
      dsimp only [Register.code]
      iterate 1 refine (if_neg (not_inRange (by omega))).trans ?_
      refine (if_pos (inRange_add _ (by omega))).trans ?_
      rw [Nat.add_sub_cancel_left]
      rfl
  | scissor i =>
      dsimp only [Register.code]
      iterate 2 refine (if_neg (not_inRange (by omega))).trans ?_
      refine (if_pos (inRange_add _ i.isLt)).trans ?_
      rw [Nat.add_sub_cancel_left]
      rfl
  | vertexAttrib i =>
      dsimp only [Register.code]
      iterate 3 refine (if_neg (not_inRange (by omega))).trans ?_
      refine (if_pos (inRange_add _ i.isLt)).trans ?_
      rw [Nat.add_sub_cancel_left]
      rfl
  | colorBlendEnable i =>
      dsimp only [Register.code]
      iterate 4 refine (if_neg (not_inRange (by omega))).trans ?_
      refine (if_pos (inRange_add _ i.isLt)).trans ?_
      rw [Nat.add_sub_cancel_left]
      rfl
  | colorWriteMask i =>
      dsimp only [Register.code]
      iterate 5 refine (if_neg (not_inRange (by omega))).trans ?_
      iterate 3 refine (if_neg (by omega)).trans ?_
      refine (if_pos (inRange_add _ i.isLt)).trans ?_
      rw [Nat.add_sub_cancel_left]
      rfl
  | vertexArray i sub =>
      dsimp only [Register.code]
      iterate 5 refine (if_neg (not_inRange (by omega))).trans ?_
      iterate 3 refine (if_neg (by omega)).trans ?_
      iterate 1 refine (if_neg (not_inRange (by omega))).trans ?_
      refine (if_pos (inRange_add _ (by omega))).trans ?_
      rw [Nat.add_sub_cancel_left]
      rfl
  | independentBlend sub i =>
      dsimp only [Register.code]
      iterate 5 refine (if_neg (not_inRange (by omega))).trans ?_
      iterate 3 refine (if_neg (by omega)).trans ?_
      iterate 2 refine (if_neg (not_inRange (by omega))).trans ?_
      refine (if_pos (inRange_add _ (by omega))).trans ?_
      rw [Nat.add_sub_cancel_left]
      rfl
  | program sub i =>
      dsimp only [Register.code]
      iterate 5 refine (if_neg (not_inRange (by omega))).trans ?_
      iterate 3 refine (if_neg (by omega)).trans ?_
      iterate 4 refine (if_neg (not_inRange (by omega))).trans ?_
      refine (if_pos (inRange_add _ (by omega))).trans ?_
      rw [Nat.add_sub_cancel_left]
      rfl
  | isVertexArrayPerInstance i =>
      dsimp only [Register.code]
      iterate 5 refine (if_neg (not_inRange (by omega))).trans ?_
      iterate 3 refine (if_neg (by omega)).trans ?_
      iterate 5 refine (if_neg (not_inRange (by omega))).trans ?_
      refine (if_pos (inRange_add _ i.isLt)).trans ?_
      rw [Nat.add_sub_cancel_left]
      rfl

/- A number with a register has the register's effect. -/
theorem write_code (r : Register) :
    write s r.code value = r.effect s value := by
  cases r with
  | single m hOther =>
      have hNone : routeArray s m.code value = none :=
        routeArray_single hOther
      rw [Register.code, write_of_not_route hNone,
        Method3D.ofCode?_code]
      rfl
  | _ => exact write_of_route (routeArray_code _ (by simp))

/-
  Every number outside the block of the render targets is that
  of a register, or has no effect.
-/
theorem register_cases
    {method : Nat}
    (hOutside : ¬ InRtBlock method) :
    (∃ r : Register, method = r.code) ∨
      ∀ s value, write s method value = s := by
  have h₀ :
      ¬ inRange method Method3D.RenderTarget (8 * 8) = true :=
    hOutside
  by_cases h₁ : inRange method Method3D.ViewportTransform (16 * 6)
  · rcases exists_of_inRange h₁ with ⟨k, hK, hMethod⟩
    refine .inl ⟨.viewport ⟨k / 8, by omega⟩ ⟨k % 8, by omega⟩, ?_⟩
    simp only [Register.code]
    omega
  by_cases h₂ : inRange method Method3D.Scissor 16
  · rcases exists_of_inRange h₂ with ⟨k, hK, hMethod⟩
    exact .inl ⟨.scissor ⟨k, hK⟩, hMethod⟩
  by_cases h₃ : inRange method Method3D.VertexAttribState 32
  · rcases exists_of_inRange h₃ with ⟨k, hK, hMethod⟩
    exact .inl ⟨.vertexAttrib ⟨k, hK⟩, hMethod⟩
  by_cases h₄ : inRange method Method3D.ColorBlendEnable 8
  · rcases exists_of_inRange h₄ with ⟨k, hK, hMethod⟩
    exact .inl ⟨.colorBlendEnable ⟨k, hK⟩, hMethod⟩
  by_cases h₅ : method = Method3D.StencilFrontFuncRef
  · exact .inl ⟨.stencilFrontFuncRef, h₅⟩
  by_cases h₆ : method = Method3D.StencilFrontFuncMask
  · exact .inl ⟨.stencilFrontFuncMask, h₆⟩
  by_cases h₇ : method = Method3D.StencilFrontMask
  · exact .inl ⟨.stencilFrontMask, h₇⟩
  by_cases h₈ : inRange method Method3D.ColorWriteMask 8
  · rcases exists_of_inRange h₈ with ⟨k, hK, hMethod⟩
    exact .inl ⟨.colorWriteMask ⟨k, hK⟩, hMethod⟩
  by_cases h₉ : inRange method Method3D.VertexArray (16 * 4)
  · rcases exists_of_inRange h₉ with ⟨k, hK, hMethod⟩
    refine .inl
      ⟨.vertexArray ⟨k / 4, by omega⟩ ⟨k % 4, by omega⟩, ?_⟩
    simp only [Register.code]
    omega
  by_cases h₁₀ : inRange method Method3D.IndependentBlend (8 * 7)
  · rcases exists_of_inRange h₁₀ with ⟨k, hK, hMethod⟩
    refine .inl
      ⟨.independentBlend ⟨k / 8, by omega⟩ ⟨k % 8, by omega⟩, ?_⟩
    simp only [Register.code]
    omega
  by_cases h₁₁ : inRange method Method3D.VertexArrayLimit 16
  · right
    intro s value
    apply write_of_route
    unfold routeArray
    rw [if_neg h₀, if_neg h₁, if_neg h₂, if_neg h₃,
      if_neg h₄, if_neg h₅, if_neg h₆, if_neg h₇, if_neg h₈,
      if_neg h₉, if_neg h₁₀, if_pos h₁₁]
  by_cases h₁₂ : inRange method Method3D.SetProgram.code (6 * 2)
  · rcases exists_of_inRange h₁₂ with ⟨k, hK, hMethod⟩
    refine .inl
      ⟨.program ⟨k / 6, by omega⟩ ⟨k % 6, by omega⟩, ?_⟩
    simp only [Register.code]
    omega
  by_cases h₁₃ :
      inRange method Method3D.IsVertexArrayPerInstance 16
  · rcases exists_of_inRange h₁₃ with ⟨k, hK, hMethod⟩
    exact .inl ⟨.isVertexArrayPerInstance ⟨k, hK⟩, hMethod⟩
  -- no range takes the number
  have hNone : ∀ s value, routeArray s method value = none := by
    intro s value
    unfold routeArray
    rw [if_neg h₀, if_neg h₁, if_neg h₂, if_neg h₃,
      if_neg h₄, if_neg h₅, if_neg h₆, if_neg h₇, if_neg h₈,
      if_neg h₉, if_neg h₁₀, if_neg h₁₁, if_neg h₁₂, if_neg h₁₃]
  cases hFound : Method3D.ofCode? method with
  | none =>
      right
      intro s value
      rw [write_of_not_route (hNone s value), hFound]
  | some m =>
      have hCode := Method3D.code_of_ofCode? hFound
      refine .inl ⟨.single m ?_, hCode.symm⟩
      intro hProgram
      apply h₁₂
      rw [← hCode, hProgram]
      decide

end Engine3D

------
-- Registers of Arrays
------

/- An element of an array with what one sub-register sets. -/
def ViewportState.put
    (vp : ViewportState)
    (sub : Nat)
    (value : U32) : ViewportState :=
  match sub with
  | 0 => { vp with scaleX := value }
  | 1 => { vp with scaleY := value }
  | 2 => { vp with scaleZ := value }
  | 3 => { vp with translateX := value }
  | 4 => { vp with translateY := value }
  | 5 => { vp with translateZ := value }
  | 6 => { vp with swizzle := value }
  | _ => vp

open Engine3D in
def VertexArrayState.put
    (va : VertexArrayState)
    (sub : Nat)
    (value : U32) : VertexArrayState :=
  match sub with
  | 0 =>
      { va with
        stride := value &&& 0xFFF#32
        enabled := bit value 12 }
  | 1 => { va with address := setLow32 va.address value }
  | 3 => { va with divisor := value }
  | _ => va

open Engine3D in
def BlendState.put
    (b : BlendState)
    (sub : Nat)
    (value : U32) : BlendState :=
  match sub with
  | 0 => { b with enabled := bit value 0 }
  | 1 => { b with colorOp := value }
  | 2 => { b with srcColor := value }
  | 3 => { b with dstColor := value }
  | 4 => { b with alphaOp := value }
  | 5 => { b with srcAlpha := value }
  | 6 => { b with dstAlpha := value }
  | _ => b

open Engine3D in
def ShaderState.put
    (sh : ShaderState)
    (sub : Nat)
    (value : U32) : ShaderState :=
  match sub with
  | 0 =>
      { sh with
        enabled := bit value 0
        stageId := field value 4 0x7#32 }
  | 1 => { sh with offset := setLow32 sh.offset value }
  | _ => sh

namespace Engine3D

variable {s : GpuState3D} {value : U32}

/- An index and a sub-register that are put together are taken
apart again. -/
theorem handleViewport_put
    {i : Nat}
    (hI : i < 16)
    (sub : Fin 8) :
    handleViewport s (8 * i + sub) value =
      { s with
        viewports :=
          Function.update s.viewports ⟨i, hI⟩
            ((s.viewports ⟨i, hI⟩).put sub value) } := by
  have hIndex : (8 * i + sub.val) / 8 = i := by omega
  have hMod : (8 * i + sub.val) % 8 = sub.val := by omega
  have hBound : i < MAX_VIEWPORTS := hI
  have hSame :
      s = { s with
        viewports :=
          Function.update s.viewports ⟨i, hI⟩
            (s.viewports ⟨i, hI⟩) } := by
    rw [Function.update_eq_self]
  simp only [handleViewport, hIndex, hMod, hBound, dif_pos]
  fin_cases sub <;> first | rfl | exact hSame

theorem handleVertexArray_put
    (i : Fin 16)
    (sub : Fin 4) :
    handleVertexArray s (4 * i + sub) value =
      { s with
        vertexArrays :=
          Function.update s.vertexArrays i
            ((s.vertexArrays i).put sub value) } := by
  have hIndex : (4 * i.val + sub.val) / 4 % 16 = i.val := by omega
  have hMod : (4 * i.val + sub.val) % 4 = sub.val := by omega
  have hSame :
      s = { s with
        vertexArrays :=
          Function.update s.vertexArrays i (s.vertexArrays i) } := by
    rw [Function.update_eq_self]
  simp only [handleVertexArray, hIndex, hMod]
  fin_cases sub <;> first | rfl | exact hSame

theorem handleBlend_put
    (i : Fin 8)
    (sub : Fin 7) :
    handleBlend s (8 * sub + i) value =
      { s with
        blend :=
          Function.update s.blend i
            ((s.blend i).put sub value) } := by
  have hIndex : (8 * sub.val + i.val) % 8 = i.val := by omega
  have hDiv : (8 * sub.val + i.val) / 8 = sub.val := by omega
  simp only [handleBlend, hIndex, hDiv]
  fin_cases sub <;> rfl

theorem handleShader_put
    (i : Fin 6)
    (sub : Fin 2) :
    handleShader s (6 * sub + i) value =
      { s with
        shaders :=
          Function.update s.shaders i
            ((s.shaders i).put sub value) } := by
  have hIndex : (6 * sub.val + i.val) % 6 = i.val := by omega
  have hDiv : (6 * sub.val + i.val) / 6 = sub.val := by omega
  simp only [handleShader, hIndex, hDiv]
  fin_cases sub <;> rfl

end Engine3D

------
-- Render Targets
------

open Engine3D in
/- A render target with the documented field of a sub-register
set. -/
def RtState.put
    (rt : RtState)
    (sub : Fin 8)
    (value : U32) : RtState :=
  match sub with
  | 0 => { rt with address := setLow32 rt.address value }
  | 1 => { rt with width := value }
  | 2 => { rt with height := value }
  | 3 => { rt with format := value }
  | 4 => { rt with tileMode := value }
  | 5 => { rt with arrayMode := value }
  | 6 => { rt with layerStride := value }
  | 7 => { rt with baseLayer := value }

namespace Engine3D

variable {s : GpuState3D} {value : U32}

/- A write sets the documented field of a render target, and
nothing else. -/
def RtWritten
    (s : GpuState3D)
    (i sub : Fin 8)
    (value : U32) : Prop :=
  write s (Method3D.RenderTarget + (8 * i + sub)) value =
    { s with
      rt := Function.update s.rt i ((s.rt i).put sub value) }

/- Whatever the sub-register, the address is what is written. -/
theorem write_renderTarget (i sub : Fin 8) :
    write s (Method3D.RenderTarget + (8 * i + sub)) value =
      { s with
        rt := Function.update s.rt i ((s.rt i).put 0 value) } := by
  apply write_of_route
  unfold routeArray
  refine (if_pos (inRange_add _ (by omega))).trans ?_
  have hIndex : (8 * i.val + sub.val) / 8 = i.val := by omega
  rw [Nat.add_sub_cancel_left, hIndex]
  have hI : (⟨i.val % 8, Nat.mod_lt _ (by decide)⟩ : Fin 8) = i :=
    Fin.ext (Nat.mod_eq_of_lt i.isLt)
  have hSub : i.val / 8 = 0 := Nat.div_eq_of_lt i.isLt
  unfold handleRenderTarget
  simp only [hI, hSub]
  rfl

/- States that differ in one render target only. -/
theorem rt_update_inj {i : Fin 8} {rt rt' : RtState} :
    ({ s with rt := Function.update s.rt i rt } : GpuState3D) =
        { s with rt := Function.update s.rt i rt' } ↔
      rt = rt' := by
  constructor
  · intro hSame
    have hRt := congrArg (fun t => t.rt i) hSame
    simpa using hRt
  · intro hSame
    rw [hSame]

/- The first sub-register alone sets the address. -/
theorem address_put
    {rt : RtState}
    {sub : Fin 8}
    (hSub : sub ≠ 0) :
    (rt.put sub value).address = rt.address := by
  fin_cases sub
  · exact absurd rfl hSub
  all_goals rfl

theorem rtWritten_iff_put
    (s : GpuState3D)
    (i sub : Fin 8)
    (value : U32) :
    RtWritten s i sub value ↔
      (s.rt i).put 0 value = (s.rt i).put sub value := by
  unfold RtWritten
  rw [write_renderTarget, rt_update_inj]

/- The sub-registers but the first are handled as it is. -/
theorem rtWritten_iff
    (s : GpuState3D)
    (i sub : Fin 8)
    (value : U32) :
    RtWritten s i sub value ↔
      sub = 0 ∨
        ((s.rt i).put 0 value = s.rt i ∧
          (s.rt i).put sub value = s.rt i) := by
  rw [rtWritten_iff_put]
  constructor
  · intro hSame
    by_cases hSub : sub = 0
    · exact .inl hSub
    · right
      have hAddress :
          ((s.rt i).put 0 value).address = (s.rt i).address := by
        rw [hSame, address_put hSub]
      have hFirst : (s.rt i).put 0 value = s.rt i := by
        simp only [RtState.put] at hAddress ⊢
        rw [hAddress]
      exact ⟨hFirst, hSame ▸ hFirst⟩
  · rintro (hSub | ⟨hFirst, hOther⟩)
    · rw [hSub]
    · rw [hFirst, hOther]

/- A width that is written becomes the address. -/
theorem width_not_written :
    ¬ RtWritten GpuState3D.reset 0 1 0x500 := by
  rw [rtWritten_iff_put]
  decide

------
-- Viewports
------

/- A write sets a field of a viewport, and nothing else. -/
def ViewportWritten
    (s : GpuState3D)
    (i : Fin 16)
    (sub : Fin 7)
    (value : U32) : Prop :=
  write s (Method3D.ViewportTransform + (8 * i + sub)) value =
    { s with
      viewports :=
        Function.update s.viewports i
          ((s.viewports i).put sub value) }

/- The range holds twelve viewports. -/
theorem write_viewport
    {i : Fin 16}
    (hI : i < 12)
    (sub : Fin 7) :
    write s (Method3D.ViewportTransform + (8 * i + sub)) value =
      { s with
        viewports :=
          Function.update s.viewports i
            ((s.viewports i).put sub value) } := by
  have hSub : sub.val < 8 := by omega
  have hCode :
      write s (Method3D.ViewportTransform + (8 * i + sub)) value =
        handleViewport s (8 * i + sub) value :=
    write_code (.viewport ⟨i.val, hI⟩ ⟨sub.val, hSub⟩)
  exact hCode.trans (handleViewport_put i.isLt ⟨sub.val, hSub⟩)

/- No method of the `switch` is where the last four would be. -/
theorem code_not_viewport (m : Method3D) :
    m.code < 0x2E0 ∨ 0x300 ≤ m.code := by
  cases m <;> decide

/- The numbers of these have no effect. -/
theorem write_viewport_out
    {i : Fin 16}
    (hI : ¬ i < 12)
    (sub : Fin 7) :
    write s (Method3D.ViewportTransform + (8 * i + sub)) value =
      s := by
  rcases bases with
    ⟨h₁, h₂, h₃, h₄, h₅, h₆, h₇, h₈, h₉, h₁₀, h₁₁, h₁₂, h₁₃,
     h₁₄⟩
  have hLarge : 12 ≤ i.val := Nat.le_of_not_lt hI
  have hOutside :
      ¬ InRtBlock
        (Method3D.ViewportTransform + (8 * i.val + sub.val)) :=
    not_inRange (.inr (by omega))
  rcases register_cases hOutside with ⟨r, hCode⟩ | hNone
  · exfalso
    cases r with
    | single m _ =>
        have hM := code_not_viewport m
        simp only [Register.code] at hCode
        omega
    | _ =>
        simp only [Register.code] at hCode
        omega
  · exact hNone s value

theorem viewports_update_inj {i : Fin 16} {vp : ViewportState} :
    s = { s with viewports := Function.update s.viewports i vp } ↔
      vp = s.viewports i := by
  constructor
  · intro hSame
    have hVp := congrArg (fun t => t.viewports i) hSame
    simpa using hVp.symm
  · intro hSame
    rw [hSame, Function.update_eq_self]

theorem viewportWritten_iff
    (s : GpuState3D)
    (i : Fin 16)
    (sub : Fin 7)
    (value : U32) :
    ViewportWritten s i sub value ↔
      i < 12 ∨ (s.viewports i).put sub value = s.viewports i := by
  unfold ViewportWritten
  by_cases hI : i < 12
  · rw [write_viewport hI]
    simp [hI]
  · rw [write_viewport_out hI, viewports_update_inj]
    simp [hI]

/- The thirteenth viewport keeps its scale. -/
theorem thirteenth_not_written :
    ¬ ViewportWritten GpuState3D.reset 12 0 0x44200000 := by
  unfold ViewportWritten
  rw [write_viewport_out (by decide), viewports_update_inj]
  decide

end Engine3D

------
-- Low and High Words
------

theorem getLsbD_lowMask (i : Nat) :
    (0xFFFFFFFF#64).getLsbD i = decide (i < 32) := by
  rw [BitVec.getLsbD_ofNat]
  change (decide (i < 64) && Nat.testBit (2 ^ 32 - 1) i) = _
  rw [Nat.testBit_two_pow_sub_one]
  by_cases hI : i < 32
  · have hLess : i < 64 := by omega
    simp [hI, hLess]
  · simp [hI]

/- The low word is replaced. -/
theorem getLsbD_setLow32
    (address : U64)
    (value : U32)
    (i : Nat) :
    (setLow32 address value).getLsbD i =
      if i < 32 then value.getLsbD i else address.getLsbD i := by
  unfold setLow32
  rw [BitVec.getLsbD_or, BitVec.getLsbD_and, BitVec.getLsbD_not,
    getLsbD_lowMask, BitVec.getLsbD_setWidth]
  by_cases hI : i < 32
  · have hLess : i < 64 := by omega
    simp [hI, hLess]
  · have hOut : value.getLsbD i = false :=
      BitVec.getLsbD_of_ge value i (by omega)
    by_cases hLess : i < 64
    · simp [hI, hOut, hLess]
    · have hPast : address.getLsbD i = false :=
        BitVec.getLsbD_of_ge address i (by omega)
      simp [hI, hOut, hPast]

/- The high word is replaced. -/
theorem getLsbD_setHigh32
    (address : U64)
    (value : U32)
    (i : Nat) :
    (setHigh32 address value).getLsbD i =
      if i < 32 then address.getLsbD i
      else value.getLsbD (i - 32) := by
  unfold setHigh32
  rw [BitVec.getLsbD_or, BitVec.getLsbD_and, getLsbD_lowMask,
    BitVec.getLsbD_shiftLeft, BitVec.getLsbD_setWidth]
  by_cases hI : i < 32
  · simp [hI]
  · by_cases hLess : i < 64
    · have hIn : i - 32 < 64 := by omega
      simp [hI, hLess, hIn]
    · have hPast : value.getLsbD (i - 32) = false :=
        BitVec.getLsbD_of_ge value _ (by omega)
      simp [hI, hLess, hPast]

/- The two words may be written in either order. -/
theorem setLow32_setHigh32
    (address : U64)
    (hi lo : U32) :
    setLow32 (setHigh32 address hi) lo =
      setHigh32 (setLow32 address lo) hi := by
  apply BitVec.eq_of_getLsbD_eq
  intro i _
  simp only [getLsbD_setLow32, getLsbD_setHigh32]
  split <;> rfl

@[simp] theorem setLow32_setLow32
    (address : U64)
    (lo lo' : U32) :
    setLow32 (setLow32 address lo) lo' = setLow32 address lo' := by
  apply BitVec.eq_of_getLsbD_eq
  intro i _
  simp only [getLsbD_setLow32]
  split <;> rfl

@[simp] theorem setHigh32_setHigh32
    (address : U64)
    (hi hi' : U32) :
    setHigh32 (setHigh32 address hi) hi' =
      setHigh32 address hi' := by
  apply BitVec.eq_of_getLsbD_eq
  intro i _
  simp only [getLsbD_setHigh32]
  split <;> rfl

/- Two words, one above the other. -/
def join (hi lo : U32) : U64 :=
  (hi.setWidth 64 <<< 32) ||| lo.setWidth 64

theorem getLsbD_join (hi lo : U32) (i : Nat) :
    (join hi lo).getLsbD i =
      if i < 32 then lo.getLsbD i else hi.getLsbD (i - 32) := by
  unfold join
  rw [BitVec.getLsbD_or, BitVec.getLsbD_shiftLeft,
    BitVec.getLsbD_setWidth, BitVec.getLsbD_setWidth]
  by_cases hI : i < 32
  · have hLess : i < 64 := by omega
    simp [hI, hLess]
  · have hOut : lo.getLsbD i = false :=
      BitVec.getLsbD_of_ge lo i (by omega)
    by_cases hLess : i < 64
    · have hIn : i - 32 < 64 := by omega
      simp [hI, hLess, hIn, hOut]
    · have hPast : hi.getLsbD (i - 32) = false :=
        BitVec.getLsbD_of_ge hi _ (by omega)
      simp [hI, hLess, hPast, hOut]

/- Both words written are the value. -/
theorem setHigh32_setLow32
    (address : U64)
    (hi lo : U32) :
    setHigh32 (setLow32 address lo) hi = join hi lo := by
  apply BitVec.eq_of_getLsbD_eq
  intro i _
  simp only [getLsbD_setLow32, getLsbD_setHigh32, getLsbD_join]
  split <;> rfl

/- The high word of an address. -/
def high32 (address : U64) : U32 :=
  address.extractLsb' 32 32

/- The low word alone gives the value if the high one is there. -/
theorem setLow32_eq_join
    {address : U64}
    {hi lo : U32} :
    setLow32 address lo = join hi lo ↔ high32 address = hi := by
  constructor
  · intro hJoin
    apply BitVec.eq_of_getLsbD_eq
    intro i hI
    have hBit :=
      congrArg (fun x : U64 => x.getLsbD (32 + i)) hJoin
    have hHigh : ¬ 32 + i < 32 := by omega
    simp only [getLsbD_setLow32, getLsbD_join, if_neg hHigh,
      Nat.add_sub_cancel_left] at hBit
    rw [high32, BitVec.getLsbD_extractLsb', decide_eq_true hI,
      Bool.true_and, hBit]
  · rintro rfl
    apply BitVec.eq_of_getLsbD_eq
    intro i hI
    rw [getLsbD_setLow32, getLsbD_join]
    split
    · rfl
    · next hHigh =>
        have hPlace : 32 + (i - 32) = i := by omega
        have hIn : i - 32 < 32 := by omega
        rw [high32, BitVec.getLsbD_extractLsb',
          decide_eq_true hIn, Bool.true_and, hPlace]

------
-- Registers of Several Words
------

namespace Engine3D

variable {s : GpuState3D} {value : U32}

/- The registers that hold an address in two words. -/
inductive AddressRegister where
  | vertexArrayStart (i : Fin 16)
  | indexArrayStart
  | indexArrayLimit
  | programRegion
  | texHeaderPool
  | texSamplerPool
  | depthTargetAddr

namespace AddressRegister

/- The number of the low word. -/
def method : AddressRegister → Nat
  | .vertexArrayStart i => Method3D.VertexArray + (4 * i + 1)
  | .indexArrayStart => Method3D.IndexArrayStartIova.code
  | .indexArrayLimit => Method3D.IndexArrayLimitIova.code
  | .programRegion => Method3D.SetProgramRegion.code
  | .texHeaderPool => Method3D.SetTexHeaderPool.code
  | .texSamplerPool => Method3D.SetTexSamplerPool.code
  | .depthTargetAddr => Method3D.DepthTargetAddr.code

def get (s : GpuState3D) : AddressRegister → U64
  | .vertexArrayStart i => (s.vertexArrays i).address
  | .indexArrayStart => s.indexBuffer.address
  | .indexArrayLimit => s.indexBuffer.limit
  | .programRegion => s.programRegion
  | .texHeaderPool => s.texHeaderPool
  | .texSamplerPool => s.texSamplerPool
  | .depthTargetAddr => s.depthTarget.address

/- The high word has a case of its own. -/
def hasHigh : AddressRegister → Bool
  | .indexArrayStart => true
  | .indexArrayLimit => true
  | .programRegion => true
  | _ => false

theorem get_write_low (reg : AddressRegister) (lo : U32) :
    reg.get (write s reg.method lo) = setLow32 (reg.get s) lo := by
  cases reg with
  | vertexArrayStart i =>
      have hCode :
          write s (method (.vertexArrayStart i)) lo =
            handleVertexArray s (4 * i + (1 : Fin 4).val) lo :=
        write_code (.vertexArray i 1)
      rw [hCode, handleVertexArray_put]
      simp [get, VertexArrayState.put]
  | _ => rfl

theorem get_write_high (reg : AddressRegister) (hi : U32) :
    reg.get (write s (reg.method + 1) hi) =
      if reg.hasHigh then setHigh32 (reg.get s) hi
      else reg.get s := by
  cases reg with
  | vertexArrayStart i =>
      have hCode :
          write s (method (.vertexArrayStart i) + 1) hi =
            handleVertexArray s (4 * i + (2 : Fin 4).val) hi :=
        write_code (.vertexArray i 2)
      rw [hCode, handleVertexArray_put]
      simp [get, hasHigh, VertexArrayState.put]
  | _ => rfl

end AddressRegister

/- Both words of an address, in either order, make the address. -/
def Joins
    (s : GpuState3D)
    (reg : AddressRegister)
    (hi lo : U32) : Prop :=
  reg.get (write (write s reg.method lo) (reg.method + 1) hi) =
      join hi lo ∧
    reg.get (write (write s (reg.method + 1) hi) reg.method lo) =
      join hi lo

/- A high word without a case of its own has to be there. -/
theorem joins_iff
    (s : GpuState3D)
    (reg : AddressRegister)
    (hi lo : U32) :
    Joins s reg hi lo ↔
      reg.hasHigh = true ∨ high32 (reg.get s) = hi := by
  unfold Joins
  rw [reg.get_write_high, reg.get_write_low, reg.get_write_low,
    reg.get_write_high]
  cases hHigh : reg.hasHigh with
  | true =>
      simp only [if_true, true_or, iff_true]
      rw [setLow32_setHigh32, setHigh32_setLow32]
      exact ⟨rfl, rfl⟩
  | false =>
      simp only [Bool.false_eq_true, if_false, false_or,
        and_self]
      exact setLow32_eq_join

/- The registers that hold four components. -/
inductive ColorRegister where
  | clearColor
  | blendConstant

namespace ColorRegister

/- The number of the first component. -/
def method : ColorRegister → Nat
  | .clearColor => Method3D.ClearColor.code
  | .blendConstant => Method3D.BlendConstant.code

def get (s : GpuState3D) : ColorRegister → Fin 4 → F32Bits
  | .clearColor => s.clear.color
  | .blendConstant => s.blendConst

/- The state once four words have been written. -/
def writeAll
    (s : GpuState3D)
    (reg : ColorRegister)
    (words : Fin 4 → U32) : GpuState3D :=
  (List.finRange 4).foldl
    (fun s (k : Fin 4) => write s (reg.method + k.val) (words k))
    s

/- Only the first of them has a case. -/
theorem get_writeAll
    (reg : ColorRegister)
    (words : Fin 4 → U32) :
    reg.get (reg.writeAll s words) =
      Function.update (reg.get s) 0 (words 0) := by
  cases reg <;> rfl

end ColorRegister

/- Four words set the four components. -/
def SetsAll
    (s : GpuState3D)
    (reg : ColorRegister)
    (words : Fin 4 → U32) : Prop :=
  reg.get (reg.writeAll s words) = words

/- The other components have to be there. -/
theorem setsAll_iff
    (s : GpuState3D)
    (reg : ColorRegister)
    (words : Fin 4 → U32) :
    SetsAll s reg words ↔
      ∀ k, k ≠ 0 → reg.get s k = words k := by
  unfold SetsAll
  rw [reg.get_writeAll, Function.update_eq_iff]
  simp

/- Registers of two words and of four, in any state. -/
theorem multiWord_iff
    (s : GpuState3D)
    (reg : AddressRegister)
    (hi lo : U32)
    (color : ColorRegister)
    (words : Fin 4 → U32) :
    (Joins s reg hi lo ↔
        reg.hasHigh = true ∨ high32 (reg.get s) = hi) ∧
      (SetsAll s color words ↔
        ∀ k, k ≠ 0 → color.get s k = words k) :=
  ⟨joins_iff s reg hi lo, setsAll_iff s color words⟩

/- A texture pool above 4 GiB is not found there. -/
theorem highPool_not_joined :
    ¬ Joins GpuState3D.reset .texHeaderPool 1 0 := by
  rw [joins_iff]
  decide

end Engine3D

end M1Switch
