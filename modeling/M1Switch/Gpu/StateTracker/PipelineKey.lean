import M1Switch.Gpu.StateTracker
import Mathlib.Tactic.IntervalCases

/-
  What the pipeline key does not separate.

  The key should determine every register the pipeline object
  is built from.  It leaves out the vertex layout, and the
  fields it does take in overlap: bit `k` of the vertex shader
  offset meets bit `k + 12` of the program region.

  Key definitions include:
    * `StateTracker.PipelineFields`
    * `pipelineFields`

  Main results:
    * `not_separated`
-/

------
-- Fields Of The Pipeline Object
------

namespace M1Switch

namespace StateTracker

/- The registers a pipeline object depends on. -/
structure PipelineFields where
  programRegion : U64
  vertexOffsets : U64 × U64
  fragmentOffset : U64
  rtFormats : Fin 8 → Option EnumCode
  depthFormat : Option EnumCode
  blend0 : BlendState
  vertexAttribs : Fin 32 → VertexAttribState
  strides : Fin 16 → U32

/- Formats count for active targets only. -/
def pipelineFields (s : GpuState3D) : PipelineFields :=
  { programRegion := s.programRegion
    vertexOffsets :=
      ((s.shaders 0).offset, (s.shaders 1).offset)
    fragmentOffset := (s.shaders 5).offset
    rtFormats := fun i =>
      if rtActive (s.rt i) then some (s.rt i).format
      else none
    depthFormat :=
      if s.depthTarget.enabled then
        some s.depthTarget.format
      else none
    blend0 := s.blend 0
    vertexAttribs := s.vertexAttribs
    strides := fun i => (s.vertexArrays i).stride }

/-
  No register state reachable by method writes shares the key
  of the given one unless it shares every pipeline field.
-/
def Separated (s : GpuState3D) : Prop :=
  ∀ writes : List (Nat × U32),
    computePipelineKey (Engine3D.runWrites writes) =
        computePipelineKey s →
      pipelineFields (Engine3D.runWrites writes) =
        pipelineFields s

------
-- Registers Outside The Key
------

/- One more write at the end of a sequence. -/
theorem runWrites_append_singleton
    (writes : List (Nat × U32))
    (method : Nat)
    (value : U32) :
    Engine3D.runWrites (writes ++ [(method, value)]) =
      (Engine3D.handleMethod (Engine3D.runWrites writes)
        method value).1 := by
  simp [Engine3D.runWrites]

------
-- Overlapping Fields
------

/- Writing a flipped low word flips the register. -/
theorem setLow32_xor
    (x : U64)
    (c : U32) :
    setLow32 x (x.setWidth 32 ^^^ c) =
      x ^^^ c.setWidth 64 := by
  unfold setLow32
  ext i hi
  by_cases hLow : i < 32
  · simp [hLow]
    interval_cases i <;> simp
  · simp [hLow]
    interval_cases i <;> simp_all

/- A write of the low word of the program region. -/
theorem handleMethod_programRegion
    (s : GpuState3D)
    (value : U32) :
    (Engine3D.handleMethod s Method3D.SetProgramRegion.code
        value).1 =
      { s with
        programRegion := setLow32 s.programRegion value } :=
  rfl

/- A write of the offset of shader stage 0. -/
theorem handleMethod_shaderOffset0
    (s : GpuState3D)
    (value : U32) :
    (Engine3D.handleMethod s (Method3D.SetProgram.code + 6)
        value).1 =
      Engine3D.handleShader s 6 value :=
  rfl

/- The two writes that flip region bit 12 and offset bit 0. -/
def flipWrites (s : GpuState3D) : List (Nat × U32) :=
  [ (Method3D.SetProgramRegion.code,
      s.programRegion.setWidth 32 ^^^ 0x1000#32),
    (Method3D.SetProgram.code + 6,
      (s.shaders 0).offset.setWidth 32 ^^^ 1#32) ]

/- The register state behind the two writes. -/
theorem runWrites_flipWrites (writes : List (Nat × U32)) :
    Engine3D.runWrites
        (writes ++ flipWrites (Engine3D.runWrites writes)) =
      let s := Engine3D.runWrites writes
      { s with
        programRegion := s.programRegion ^^^ 0x1000#64
        shaders :=
          Function.update s.shaders 0
            { s.shaders 0 with
              offset := (s.shaders 0).offset ^^^ 1#64 } } := by
  set s := Engine3D.runWrites writes with hS
  have hSplit :
      writes ++ flipWrites s =
        (writes ++ [(flipWrites s).head (by simp [flipWrites])])
          ++ [(flipWrites s).getLast
            (by simp [flipWrites])] := by
    simp [flipWrites]
  rw [hSplit]
  unfold flipWrites
  simp only [List.head_cons, List.getLast_cons_cons,
    List.getLast_singleton]
  rw [runWrites_append_singleton, runWrites_append_singleton,
    ← hS, handleMethod_programRegion,
    handleMethod_shaderOffset0, setLow32_xor]
  simp [Engine3D.handleShader, setLow32_xor]

/- Both flips land on the same bit of the key. -/
theorem computePipelineKey_flip (s : GpuState3D) :
    computePipelineKey
        { s with
          programRegion := s.programRegion ^^^ 0x1000#64
          shaders :=
            Function.update s.shaders 0
              { s.shaders 0 with
                offset := (s.shaders 0).offset ^^^ 1#64 } } =
      computePipelineKey s := by
  have hShift :
      ((s.shaders 0).offset ^^^ 1#64) <<< 12 =
        ((s.shaders 0).offset <<< 12) ^^^ 0x1000#64 := by
    rw [BitVec.shiftLeft_xor_distrib]
    simp
  unfold computePipelineKey
  simp only [Function.update_self]
  rw [Function.update_of_ne (by decide), hShift]
  have hCancel :
      s.programRegion ^^^ 0x1000#64 ^^^
          ((s.shaders 0).offset <<< 12 ^^^ 0x1000#64) =
        s.programRegion ^^^ (s.shaders 0).offset <<< 12 := by
    rw [BitVec.xor_comm ((s.shaders 0).offset <<< 12),
      BitVec.xor_assoc, ← BitVec.xor_assoc 0x1000#64]
    simp
  rw [hCancel]

/- Flipping bits changes the register. -/
theorem xor_ne_self
    (x c : U64)
    (hC : c ≠ 0) :
    x ^^^ c ≠ x := by
  intro hEq
  apply hC
  calc
    c = x ^^^ (x ^^^ c) := by
      rw [← BitVec.xor_assoc]
      simp
    _ = 0 := by
      rw [hEq]
      simp

------
-- No State Is Separated
------

/-
  Every reachable state shares its key with a reachable state
  of another program region and another vertex shader offset,
  both of which the key takes in.
-/
theorem exists_program_collision
    (writes : List (Nat × U32)) :
    ∃ more,
      let s := Engine3D.runWrites writes
      let t := Engine3D.runWrites (writes ++ more)
      computePipelineKey t = computePipelineKey s ∧
        t.programRegion ≠ s.programRegion ∧
        (t.shaders 0).offset ≠ (s.shaders 0).offset := by
  refine ⟨flipWrites (Engine3D.runWrites writes), ?_⟩
  simp only [runWrites_flipWrites, Function.update_self]
  refine ⟨computePipelineKey_flip _, ?_, ?_⟩
  · exact xor_ne_self _ _ (by decide)
  · exact xor_ne_self _ _ (by decide)

/- The key separates no reachable state from the others. -/
theorem not_separated (writes : List (Nat × U32)) :
    ¬ Separated (Engine3D.runWrites writes) := by
  intro hSeparated
  rcases exists_program_collision writes with
    ⟨more, hKey, hRegion, _⟩
  have hFields := hSeparated (writes ++ more) hKey
  apply hRegion
  exact congrArg PipelineFields.programRegion hFields

/-
  Program region 0x1000 with vertex shader offset 1 has the key
  of the registers after a reset.
-/
theorem reset_collides :
    let a : List (Nat × U32) := []
    let b : List (Nat × U32) :=
      [(0x582, 0x1000#32), (0x806, 1#32)]
    computePipelineKey (Engine3D.runWrites b) =
        computePipelineKey (Engine3D.runWrites a) ∧
      pipelineFields (Engine3D.runWrites b) ≠
        pipelineFields (Engine3D.runWrites a) := by
  refine ⟨by decide, ?_⟩
  intro hFields
  have hRegion :=
    congrArg PipelineFields.programRegion hFields
  revert hRegion
  decide

end StateTracker

end M1Switch
