import M1Switch.Gpu.StateTracker

/-
  The draw queue along whole runs.

  A run alternates pushbuffers with consumption of the queue.
  Its trace lists every callback with the registers it found.
  The queue, together with what was consumed, is the image of
  the draw callbacks of the trace.

  Key definitions include:
    * `StateTracker.Op`
    * `StateTracker.Run`

  Main results:
    * `queuedDraws_eq_drawCallbacks`
    * `drawQueue_onMethods`
    * `offsetsBounded_steps`
-/

------
-- Runs And Their Traces
------

namespace M1Switch

namespace StateTracker

/- A call made on the tracker. -/
inductive Op where
  | pushBuffer (words : List U32)
  | consumeDraws

/- The tracker and everything consumed so far. -/
structure Run where
  tracker : StateTracker
  consumed : List PendingDraw

/- One call. -/
def Run.step (r : Run) : Op → Run
| .pushBuffer words =>
    { r with tracker := (r.tracker.pushBuffer words).1 }
| .consumeDraws =>
    { tracker := r.tracker.consumeDraws.2
      consumed := r.consumed ++ r.tracker.consumeDraws.1 }

/- A sequence of calls. -/
def Run.steps (r : Run) (ops : List Op) : Run :=
  ops.foldl Run.step r

/- The run of a fresh tracker. -/
def Run.start (engines : Fin 8 → EngineType) : Run :=
  { tracker := StateTracker.new engines, consumed := [] }

/- A callback, with the registers it found. -/
structure Callback where
  registers : GpuState3D
  write : GPFifo.MethodWrite

/- The callbacks of a list of writes. -/
def callbacksOf :
    StateTracker → List GPFifo.MethodWrite → List Callback
| _, [] => []
| t, w :: ws =>
    ⟨t.state, w⟩ :: callbacksOf (t.onMethod w) ws

/- The callbacks of a run, in order. -/
def callbacks : Run → List Op → List Callback
| _, [] => []
| r, .pushBuffer words :: ops =>
    callbacksOf r.tracker (GPFifo.process words).writes ++
      callbacks (r.step (.pushBuffer words)) ops
| r, .consumeDraws :: ops =>
    callbacks (r.step .consumeDraws) ops

/- The callback reaches the 3D engine with a draw method. -/
def isDrawCallback
    (engines : Fin 8 → EngineType)
    (c : Callback) : Bool :=
  getEngine engines c.write.subch = .Engine3D ∧
    (c.write.method = Method3D.DrawArraysCount.code ∨
      c.write.method = Method3D.DrawElementsCount.code)

/-
  The draw a callback asks for: the registers it found and
  the count it wrote.
-/
def drawOf (c : Callback) : PendingDraw :=
  let arrays :=
    c.write.method = Method3D.DrawArraysCount.code
  { primitiveType := c.registers.primitiveType
    arraysFirst := c.registers.drawArraysFirst
    arraysCount := if arrays then c.write.value else 0
    elementsFirst := c.registers.drawElementsFirst
    elementsCount := if arrays then 0 else c.write.value
    indexAddr := c.registers.indexBuffer.address
    indexFormat := c.registers.indexBuffer.format
    indexCount := if arrays then 0 else c.write.value
    pipelineKey := computePipelineKey c.registers }

------
-- One Callback
------

/- Both live counts are zero. -/
def CountsZero (s : GpuState3D) : Prop :=
  Engine3D.counts s = (0, 0)

/- No callback changes the subchannel mapping. -/
@[simp] theorem subchEngines_onMethod
    (t : StateTracker)
    (w : GPFifo.MethodWrite) :
    (t.onMethod w).subchEngines = t.subchEngines := by
  unfold onMethod
  split
  · dsimp only
    split <;> rfl
  all_goals rfl

/- A draw callback queues its draw and resets the counts. -/
theorem onMethod_of_draw
    (t : StateTracker)
    (w : GPFifo.MethodWrite)
    (hZero : CountsZero t.state)
    (hDraw : isDrawCallback t.subchEngines ⟨t.state, w⟩) :
    (t.onMethod w).drawQueue =
        t.drawQueue ++ [drawOf ⟨t.state, w⟩] ∧
      CountsZero (t.onMethod w).state := by
  simp only [isDrawCallback, decide_eq_true_eq] at hDraw
  rcases hDraw with ⟨hEngine, hMethod⟩
  have hCounts := Prod.mk.inj hZero
  rcases hMethod with hMethod | hMethod
  · have hStep :
        Engine3D.handleMethod t.state w.method w.value =
          ({ t.state with drawArraysCount := w.value },
            true) := by
      rw [hMethod]
      rfl
    simp only [onMethod, hEngine, hStep, if_true]
    refine ⟨?_, rfl⟩
    simp only [snapshot, drawOf, hMethod, if_true,
      hCounts.2]
    rfl
  · have hStep :
        Engine3D.handleMethod t.state w.method w.value =
          ({ t.state with drawElementsCount := w.value },
            true) := by
      rw [hMethod]
      rfl
    have hOther :
        ¬ Method3D.DrawElementsCount.code =
          Method3D.DrawArraysCount.code := by
      decide
    simp only [onMethod, hEngine, hStep, if_true]
    refine ⟨?_, rfl⟩
    simp only [snapshot, drawOf, hMethod, hOther, if_false,
      hCounts.1]
    rfl

/- Any other callback leaves queue and counts alone. -/
theorem onMethod_of_not_draw
    (t : StateTracker)
    (w : GPFifo.MethodWrite)
    (hDraw :
      isDrawCallback t.subchEngines ⟨t.state, w⟩ = false) :
    (t.onMethod w).drawQueue = t.drawQueue ∧
      Engine3D.counts (t.onMethod w).state =
        Engine3D.counts t.state := by
  simp only [isDrawCallback, decide_eq_false_iff_not,
    not_and] at hDraw
  unfold onMethod
  split
  · rename_i hEngine
    have hNot :
        (Engine3D.handleMethod t.state w.method
          w.value).2 = false := by
      rw [Bool.eq_false_iff]
      intro hTrue
      exact hDraw hEngine
        ((Engine3D.handleMethod_isDraw_iff _ _ _).mp hTrue)
    rw [if_neg (by simp [hNot])]
    exact ⟨rfl, Engine3D.counts_handleMethod _ _ _ hNot⟩
  all_goals exact ⟨rfl, rfl⟩

------
-- Whole Runs
------

/- The draws a trace asks for. -/
def drawsOf
    (engines : Fin 8 → EngineType)
    (cs : List Callback) : List PendingDraw :=
  (cs.filter (isDrawCallback engines)).map drawOf

/- The callbacks of one pushbuffer queue their draws. -/
theorem onMethods_spec
    (t : StateTracker)
    (ws : List GPFifo.MethodWrite)
    (hZero : CountsZero t.state) :
    (t.onMethods ws).drawQueue =
        t.drawQueue ++
          drawsOf t.subchEngines (callbacksOf t ws) ∧
      CountsZero (t.onMethods ws).state ∧
      (∀ c ∈ callbacksOf t ws, CountsZero c.registers) ∧
      (t.onMethods ws).subchEngines = t.subchEngines := by
  induction ws generalizing t with
  | nil =>
      simp [onMethods, callbacksOf, drawsOf, hZero]
  | cons w ws ih =>
      by_cases hDraw :
          isDrawCallback t.subchEngines ⟨t.state, w⟩ = true
      · rcases onMethod_of_draw t w hZero hDraw with
          ⟨hQueue, hNext⟩
        rcases ih (t.onMethod w) hNext with
          ⟨hLater, hEnd, hTrace, hEngines⟩
        rw [subchEngines_onMethod] at hLater hEngines
        refine ⟨?_, hEnd, ?_, hEngines⟩
        · change ((t.onMethod w).onMethods ws).drawQueue = _
          rw [hLater, hQueue]
          simp [callbacksOf, drawsOf, hDraw]
        · intro c hc
          rcases List.mem_cons.mp hc with rfl | hc
          · exact hZero
          · exact hTrace c hc
      · have hNot :
            isDrawCallback t.subchEngines ⟨t.state, w⟩ =
              false := by
          simpa using hDraw
        rcases onMethod_of_not_draw t w hNot with
          ⟨hQueue, hCounts⟩
        have hNext : CountsZero (t.onMethod w).state :=
          hCounts.trans hZero
        rcases ih (t.onMethod w) hNext with
          ⟨hLater, hEnd, hTrace, hEngines⟩
        rw [subchEngines_onMethod] at hLater hEngines
        refine ⟨?_, hEnd, ?_, hEngines⟩
        · change ((t.onMethod w).onMethods ws).drawQueue = _
          rw [hLater, hQueue]
          simp [callbacksOf, drawsOf, hNot]
        · intro c hc
          rcases List.mem_cons.mp hc with rfl | hc
          · exact hZero
          · exact hTrace c hc

/- A run extends what was consumed or is queued. -/
theorem steps_spec
    (r : Run)
    (ops : List Op)
    (hZero : CountsZero r.tracker.state) :
    (r.steps ops).consumed ++
          (r.steps ops).tracker.drawQueue =
        (r.consumed ++ r.tracker.drawQueue) ++
          drawsOf r.tracker.subchEngines
            (callbacks r ops) ∧
      CountsZero (r.steps ops).tracker.state ∧
      ∀ c ∈ callbacks r ops, CountsZero c.registers := by
  induction ops generalizing r with
  | nil => simp [Run.steps, callbacks, drawsOf, hZero]
  | cons op ops ih =>
      cases op with
      | pushBuffer words =>
          rcases onMethods_spec r.tracker
              (GPFifo.process words).writes hZero with
            ⟨hQueue, hNext, hTrace, hEngines⟩
          rcases ih (r.step (.pushBuffer words)) hNext with
            ⟨hLater, hEnd, hTrace'⟩
          refine ⟨?_, hEnd, ?_⟩
          · refine hLater.trans ?_
            simp only [Run.step, pushBuffer, hQueue,
              hEngines, callbacks, drawsOf,
              List.filter_append, List.map_append,
              List.append_assoc]
          · intro c hc
            rcases List.mem_append.mp hc with hc | hc
            · exact hTrace c hc
            · exact hTrace' c hc
      | consumeDraws =>
          rcases ih (r.step .consumeDraws) hZero with
            ⟨hLater, hEnd, hTrace⟩
          refine ⟨?_, hEnd, hTrace⟩
          refine hLater.trans ?_
          simp [Run.step, consumeDraws, callbacks]

/-
  What was consumed and what is queued is one draw for each
  draw callback, in order.  Each draw holds the registers the
  callback found and the count it wrote, at most one count is
  nonzero, and between callbacks both live counts are zero.
-/
theorem queuedDraws_eq_drawCallbacks
    (engines : Fin 8 → EngineType)
    (ops : List Op) :
    ((Run.start engines).steps ops).consumed ++
          ((Run.start engines).steps ops).tracker.drawQueue =
        ((callbacks (Run.start engines) ops).filter
          (isDrawCallback engines)).map drawOf ∧
      (∀ c : Callback,
        ((drawOf c).arraysCount = c.write.value ∧
            (drawOf c).elementsCount = 0) ∨
          ((drawOf c).arraysCount = 0 ∧
            (drawOf c).elementsCount = c.write.value)) ∧
      (∀ c ∈ callbacks (Run.start engines) ops,
        CountsZero c.registers) ∧
      CountsZero
        ((Run.start engines).steps ops).tracker.state := by
  rcases steps_spec (Run.start engines) ops rfl with
    ⟨hDraws, hEnd, hTrace⟩
  refine ⟨hDraws, ?_, hTrace, hEnd⟩
  intro c
  by_cases hArrays :
      c.write.method = Method3D.DrawArraysCount.code
  · exact Or.inl (by simp [drawOf, hArrays])
  · exact Or.inr (by simp [drawOf, hArrays])

------
-- Trigger Registers
------

/- The registers a draw is triggered with, if one is. -/
def triggerOf
    (t : StateTracker)
    (w : GPFifo.MethodWrite) : Option GpuState3D :=
  if getEngine t.subchEngines w.subch = .Engine3D then
    let r := Engine3D.handleMethod t.state w.method w.value
    if r.2 then some r.1 else none
  else none

/- The registers at each draw of a list of writes. -/
def triggers :
    StateTracker → List GPFifo.MethodWrite → List GpuState3D
| _, [] => []
| t, w :: ws =>
    (triggerOf t w).toList ++ triggers (t.onMethod w) ws

theorem drawQueue_onMethod
    (t : StateTracker)
    (w : GPFifo.MethodWrite) :
    (t.onMethod w).drawQueue =
      t.drawQueue ++ (triggerOf t w).toList.map snapshot := by
  unfold onMethod triggerOf
  cases getEngine t.subchEngines w.subch with
  | Engine3D =>
      dsimp only
      rw [if_pos rfl]
      split_ifs
      · rfl
      · exact (List.append_nil _).symm
  | Engine2D => exact (List.append_nil _).symm
  | EngineDma => exact (List.append_nil _).symm
  | EngineInline => exact (List.append_nil _).symm
  | EngineCompute => exact (List.append_nil _).symm

/- The queue grows by a snapshot of each trigger. -/
theorem drawQueue_onMethods
    (t : StateTracker)
    (ws : List GPFifo.MethodWrite) :
    (t.onMethods ws).drawQueue =
      t.drawQueue ++ (triggers t ws).map snapshot := by
  induction ws generalizing t with
  | nil => exact (List.append_nil _).symm
  | cons w ws ih =>
      change ((t.onMethod w).onMethods ws).drawQueue = _
      rw [ih, drawQueue_onMethod, triggers, List.map_append,
        List.append_assoc]

/- No callback leads past the 32-bit shader offsets. -/
theorem offsetsBounded_onMethod
    {t : StateTracker}
    (w : GPFifo.MethodWrite)
    (hBound : Engine3D.OffsetsBounded t.state) :
    Engine3D.OffsetsBounded (t.onMethod w).state := by
  have hStep :=
    Engine3D.offsetsBounded_handleMethod w.method w.value hBound
  unfold onMethod
  cases getEngine t.subchEngines w.subch with
  | Engine3D =>
      dsimp only
      split_ifs
      · exact hStep
      · exact hStep
  | Engine2D => exact hBound
  | EngineDma => exact hBound
  | EngineInline => exact hBound
  | EngineCompute => exact hBound

theorem offsetsBounded_onMethods
    {t : StateTracker}
    (ws : List GPFifo.MethodWrite)
    (hBound : Engine3D.OffsetsBounded t.state) :
    Engine3D.OffsetsBounded (t.onMethods ws).state := by
  induction ws generalizing t with
  | nil => exact hBound
  | cons w ws ih =>
      exact ih (offsetsBounded_onMethod w hBound)

theorem offsetsBounded_reset :
    Engine3D.OffsetsBounded GpuState3D.reset := by
  intro i
  exact Nat.two_pow_pos 32

/- Every state a run reaches has 32-bit shader offsets. -/
theorem offsetsBounded_steps
    {r : Run}
    (ops : List Op)
    (hBound : Engine3D.OffsetsBounded r.tracker.state) :
    Engine3D.OffsetsBounded
      (r.steps ops).tracker.state := by
  induction ops generalizing r with
  | nil => exact hBound
  | cons op ops ih =>
      cases op with
      | pushBuffer words =>
          exact ih (offsetsBounded_onMethods _ hBound)
      | consumeDraws => exact ih hBound

end StateTracker

end M1Switch
