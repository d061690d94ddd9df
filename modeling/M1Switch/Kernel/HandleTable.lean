import Mathlib.Data.List.Nodup
import M1Switch.Kernel.Kernel
import M1Switch.Library.EventRun

/-
  What handles stand for, over all uses of a handle table.

  A handle answers with the object it was made for until it is
  closed, alone or with all others.  This rests on the counter
  behind the handles: it is below its limit as long as fewer
  objects are made than there are handles from the base on.

  Key definitions include:
    * `TableOp`
    * `after`

  Main results:
    * `counted`
    * `get_after_iff`
    * `handles_correct`
-/

------
-- Uses of a Table
------

namespace M1Switch

inductive TableOp (Obj : Type) where
  | create (obj : Obj)
  | close (handle : U32)
  | closeAll
deriving DecidableEq

namespace KHandleTable

variable {Obj : Type} {ops : List (TableOp Obj)}

def step
    (table : KHandleTable Obj) : TableOp Obj → KHandleTable Obj
  | .create obj => (table.create obj).2
  | .close handle => (table.close handle).2
  | .closeAll => table.closeAll.2

/- The table behind a list of uses. -/
def after (ops : List (TableOp Obj)) : KHandleTable Obj :=
  EventRun.stateAfter step {} ops

/- The handles returned, in order. -/
def handedFrom :
    KHandleTable Obj → List (TableOp Obj) → List U32
  | _, [] => []
  | table, .create obj :: ops =>
      (table.create obj).1 ::
        handedFrom (table.create obj).2 ops
  | table, op :: ops => handedFrom (table.step op) ops

def handed (ops : List (TableOp Obj)) : List U32 :=
  handedFrom {} ops

/- How many objects were entered. -/
def creates (ops : List (TableOp Obj)) : Nat :=
  ops.countP fun op =>
    match op with
    | .create _ => true
    | _ => false

/-
  The handle was returned for the object, and neither it nor
  all handles were closed from there on.
-/
def Answers
    (ops : List (TableOp Obj))
    (handle : U32)
    (obj : Obj) : Prop :=
  ∃ before later,
    ops = before ++ .create obj :: later ∧
      ((after before).create obj).1 = handle ∧
        .close handle ∉ later ∧ .closeAll ∉ later

------
-- The Counter
------

theorem after_concat
    (ops : List (TableOp Obj))
    (op : TableOp Obj) :
    after (ops ++ [op]) = (after ops).step op :=
  EventRun.stateAfter_concat op

theorem handedFrom_append
    (table : KHandleTable Obj)
    (ops later : List (TableOp Obj)) :
    handedFrom table (ops ++ later) =
      handedFrom table ops ++
        handedFrom (EventRun.stateAfter step table ops)
          later := by
  induction ops generalizing table with
  | nil => rfl
  | cons op ops ih =>
      cases op with
      | create obj =>
          simp only [List.cons_append, handedFrom, ih]
          rfl
      | close handle =>
          simp only [List.cons_append, handedFrom, ih]
          rfl
      | closeAll =>
          simp only [List.cons_append, handedFrom, ih]
          rfl

theorem handed_create
    (ops : List (TableOp Obj))
    (obj : Obj) :
    handed (ops ++ [.create obj]) =
      handed ops ++ [(after ops).nextHandle] :=
  handedFrom_append {} ops [.create obj]

theorem handed_close
    (ops : List (TableOp Obj))
    (handle : U32) :
    handed (ops ++ [.close handle]) = handed ops := by
  have hAppend := handedFrom_append {} ops [.close handle]
  simpa [handed, handedFrom] using hAppend

theorem handed_closeAll
    (ops : List (TableOp Obj)) :
    handed (ops ++ [.closeAll]) = handed ops := by
  have hAppend := handedFrom_append {} ops [.closeAll]
  simpa [handed, handedFrom] using hAppend

/- What is returned early is returned. -/
theorem handed_append_subset
    (ops later : List (TableOp Obj)) :
    handed ops ⊆ handed (ops ++ later) := by
  unfold handed
  rw [handedFrom_append]
  exact List.subset_append_left _ _

theorem creates_append
    (ops later : List (TableOp Obj)) :
    creates (ops ++ later) = creates ops + creates later := by
  unfold creates
  exact List.countP_append

/-
  The counter is one ahead of the objects entered, and the
  handles returned are those it went through.
-/
structure Counted (ops : List (TableOp Obj)) : Prop where
  next : (after ops).nextIndex.toNat = creates ops + 1
  range :
    handed ops =
      (List.range (creates ops)).map fun i =>
        HANDLE_BASE + BitVec.ofNat 32 (i + 1)

/- The most objects for which the counter does not wrap. -/
def limit : Nat := 2 ^ 32 - 0xD001

theorem counted_step
    (hCounted : Counted ops)
    (op : TableOp Obj)
    (hLimit : creates (ops ++ [op]) < limit) :
    Counted (ops ++ [op]) := by
  cases op with
  | create obj =>
      have hCreates :
          creates (ops ++ [.create obj]) =
            creates ops + 1 := by
        rw [creates_append]
        rfl
      rw [hCreates] at hLimit
      unfold limit at hLimit
      have hNext := hCounted.next
      constructor
      · rw [after_concat, hCreates]
        show ((after ops).nextIndex + 1#32).toNat = _
        rw [BitVec.toNat_add, hNext]
        exact Nat.mod_eq_of_lt (by simp; omega)
      · have hIndex :
            (after ops).nextIndex =
              BitVec.ofNat 32 (creates ops + 1) := by
          apply BitVec.eq_of_toNat_eq
          rw [hNext, BitVec.toNat_ofNat]
          exact (Nat.mod_eq_of_lt (by omega)).symm
        rw [handed_create, hCreates, List.range_succ,
          List.map_append, hCounted.range]
        unfold nextHandle
        rw [hIndex]
        rfl
  | close handle =>
      have hCreates :
          creates (ops ++ [.close handle]) = creates ops := by
        rw [creates_append]
        rfl
      constructor
      · rw [after_concat, hCreates]
        exact hCounted.next
      · rw [handed_close, hCreates]
        exact hCounted.range
  | closeAll =>
      have hCreates :
          creates (ops ++ [.closeAll]) = creates ops := by
        rw [creates_append]
        rfl
      constructor
      · rw [after_concat, hCreates]
        exact hCounted.next
      · rw [handed_closeAll, hCreates]
        exact hCounted.range

theorem counted
    (ops : List (TableOp Obj))
    (hLimit : creates ops < limit) :
    Counted ops := by
  induction ops using List.reverseRecOn with
  | nil => exact ⟨rfl, rfl⟩
  | append_singleton ops op ih =>
      have hFewer : creates ops < limit := by
        rw [creates_append] at hLimit
        omega
      exact counted_step (ih hFewer) op hLimit

/- A handle is its index above the base. -/
theorem toNat_handle
    {i : Nat}
    (hI : i < limit) :
    (HANDLE_BASE + BitVec.ofNat 32 i).toNat = 0xD000 + i := by
  unfold limit at hI
  rw [BitVec.toNat_add, BitVec.toNat_ofNat]
  show (0xD000 + i % 2 ^ 32) % 2 ^ 32 = _
  omega

theorem Counted.nodup
    (hCounted : Counted ops)
    (hLimit : creates ops < limit) :
    (handed ops).Nodup := by
  rw [hCounted.range]
  apply List.Nodup.map_on _ List.nodup_range
  intro i hI j hJ hSame
  have hI' := List.mem_range.mp hI
  have hJ' := List.mem_range.mp hJ
  have hNat := congrArg BitVec.toNat hSame
  rw [toNat_handle (by omega), toNat_handle (by omega)] at hNat
  omega

theorem Counted.base_le
    (hCounted : Counted ops)
    (hLimit : creates ops < limit)
    {h : U32}
    (hMem : h ∈ handed ops) :
    HANDLE_BASE ≤ h := by
  rw [hCounted.range] at hMem
  rcases List.mem_map.mp hMem with ⟨i, hI, rfl⟩
  have hI' := List.mem_range.mp hI
  rw [BitVec.le_def, toNat_handle (by omega)]
  show 0xD000 ≤ _
  omega

------
-- What a Handle Answers
------

variable {h : U32} {obj : Obj}

/- Only a handle that was returned answers. -/
theorem Answers.handed
    (hAnswers : Answers ops h obj) :
    h ∈ handed ops := by
  rcases hAnswers with ⟨before, later, rfl, hReturned, -, -⟩
  have hSplit :
      before ++ .create obj :: later =
        (before ++ [.create obj]) ++ later := by
    simp
  rw [hSplit]
  apply handed_append_subset
  rw [handed_create, ← hReturned]
  exact List.mem_append_right _ List.mem_cons_self

/- The last use of a run decides which answers stay. -/
theorem answers_concat_iff
    {op : TableOp Obj} :
    Answers (ops ++ [op]) h obj ↔
      (op = .create obj ∧ (after ops).nextHandle = h) ∨
        (Answers ops h obj ∧ op ≠ .close h ∧
          op ≠ .closeAll) := by
  constructor
  · rintro ⟨before, later, hSplit, hReturned, hClose, hAll⟩
    rcases List.eq_nil_or_concat later with
      rfl | ⟨later', last, rfl⟩
    · rcases List.append_inj' hSplit rfl with ⟨rfl, hOp⟩
      exact Or.inl ⟨(List.cons.inj hOp).1, hReturned⟩
    · rw [List.concat_eq_append] at hSplit hClose hAll
      rw [← List.cons_append, ← List.append_assoc] at hSplit
      rcases List.append_inj' hSplit rfl with ⟨rfl, hOp⟩
      rcases (List.cons.inj hOp).1 with rfl
      simp only [List.mem_append, List.mem_singleton,
        not_or] at hClose hAll
      exact
        Or.inr
          ⟨⟨before, later', rfl, hReturned, hClose.1, hAll.1⟩,
            fun hEq => hClose.2 hEq.symm,
            fun hEq => hAll.2 hEq.symm⟩
  · rintro (⟨rfl, hReturned⟩ |
      ⟨⟨before, later, rfl, hReturned, hClose, hAll⟩,
        hNotClose, hNotAll⟩)
    · exact
        ⟨ops, [], rfl, hReturned, List.not_mem_nil,
          List.not_mem_nil⟩
    · refine ⟨before, later ++ [op], by simp, hReturned, ?_, ?_⟩
      · simp only [List.mem_append, List.mem_singleton,
          not_or]
        exact ⟨hClose, fun hEq => hNotClose hEq.symm⟩
      · simp only [List.mem_append, List.mem_singleton,
          not_or]
        exact ⟨hAll, fun hEq => hNotAll hEq.symm⟩

/- The next handle was not returned yet. -/
theorem nextHandle_not_handed
    (hLimit : creates (ops ++ [.create obj]) < limit) :
    (after ops).nextHandle ∉ handed ops := by
  have hNodup := (counted _ hLimit).nodup hLimit
  rw [handed_create] at hNodup
  intro hMem
  exact
    (List.nodup_append.mp hNodup).2.2 _ hMem _
      List.mem_cons_self rfl

/- The table answers as its history says. -/
theorem get_after_iff
    (ops : List (TableOp Obj))
    (hLimit : creates ops < limit)
    (h : U32)
    (obj : Obj) :
    (after ops).get h = some obj ↔ Answers ops h obj := by
  induction ops using List.reverseRecOn with
  | nil =>
      constructor
      · intro hSome
        cases hSome
      · rintro ⟨before, later, hSplit, -⟩
        simp at hSplit
  | append_singleton ops op ih =>
      have hFewer : creates ops < limit := by
        rw [creates_append] at hLimit
        omega
      have hBefore := ih hFewer
      rw [after_concat, answers_concat_iff, ← hBefore]
      cases op with
      | create new =>
          show ((after ops).create new).2.get h = _ ↔ _
          rw [get_create]
          by_cases hNew : h = (after ops).nextHandle
          · have hFresh : ¬ (after ops).get h = some obj := by
              intro hOld
              apply nextHandle_not_handed hLimit
              rw [← hNew]
              exact (hBefore.mp hOld).handed
            rw [if_pos hNew]
            simp [hFresh, hNew.symm]
          · have hOther : (after ops).nextHandle ≠ h :=
              fun hEq => hNew hEq.symm
            simp [hNew, hOther]
      | close handle =>
          show ((after ops).close handle).2.get h = _ ↔ _
          rw [get_close]
          by_cases hSame : h = handle
          · simp [hSame]
          · have hOther : handle ≠ h := fun hEq =>
              hSame hEq.symm
            simp [hSame, hOther]
      | closeAll =>
          show (after ops).closeAll.2.get h = _ ↔ _
          simp

/- No handle is returned a second time. -/
theorem get_step_of_handed
    {op : TableOp Obj}
    (hLimit : creates (ops ++ [op]) < limit)
    (hHanded : h ∈ handed ops)
    (hNone : (after ops).get h = none) :
    (after (ops ++ [op])).get h = none := by
  rw [after_concat]
  cases op with
  | create new =>
      have hNe : h ≠ (after ops).nextHandle := by
        rintro rfl
        exact nextHandle_not_handed hLimit hHanded
      show ((after ops).create new).2.get h = none
      rw [get_create, if_neg hNe, hNone]
  | close handle =>
      show ((after ops).close handle).2.get h = none
      rw [get_close, hNone, ite_self]
  | closeAll => rfl

/- A handle that was closed stays closed. -/
theorem get_of_closed
    {before : List (TableOp Obj)}
    {op : TableOp Obj}
    (hHanded : h ∈ handed before)
    (hCloses : op = .close h ∨ op = .closeAll)
    (later : List (TableOp Obj))
    (hLimit : creates (before ++ [op] ++ later) < limit) :
    (after (before ++ [op] ++ later)).get h = none := by
  induction later using List.reverseRecOn with
  | nil =>
      rw [List.append_nil, after_concat]
      rcases hCloses with rfl | rfl
      · show ((after before).close h).2.get h = none
        rw [get_close, if_pos rfl]
      · rfl
  | append_singleton later last ih =>
      rw [← List.append_assoc] at hLimit ⊢
      apply get_step_of_handed hLimit
      · apply handed_append_subset
        exact handed_append_subset before [op] hHanded
      · apply ih
        rw [creates_append] at hLimit
        omega

/-
  Below the limit handles are distinct, answer for what they
  were returned for, and stay closed.
-/
theorem handles_correct
    (ops : List (TableOp Obj))
    (hLimit : creates ops < 2 ^ 32 - 0xD001) :
    (handed ops).Nodup ∧
      (∀ h ∈ handed ops, HANDLE_BASE ≤ h) ∧
      (∀ h obj,
        (after ops).get h = some obj ↔ Answers ops h obj) ∧
      (∀ h h', h' ≠ h →
        ((after ops).close h).2.get h' = (after ops).get h') ∧
      (∀ before op later h,
        ops = before ++ op :: later → h ∈ handed before →
          op = .close h ∨ op = .closeAll →
            (after ops).isValid h = false) := by
  have hCounted := counted ops hLimit
  refine
    ⟨hCounted.nodup hLimit,
      fun h hMem => hCounted.base_le hLimit hMem,
      get_after_iff ops hLimit, ?_, ?_⟩
  · intro h h' hNe
    rw [get_close, if_neg hNe]
  · rintro before op later h rfl hHanded hCloses
    rw [List.append_cons] at hLimit ⊢
    rw [isValid_eq,
      get_of_closed hHanded hCloses later hLimit]
    rfl

/- Three objects; the first handle is closed. -/
def sampleOps : List (TableOp Nat) :=
  [.create 10, .create 20, .close 0xD001, .create 30]

theorem sampleOps_correct :
    handed sampleOps = [0xD001, 0xD002, 0xD003] ∧
      (handed sampleOps).Nodup ∧
      Answers sampleOps 0xD002 20 ∧
      (after sampleOps).isValid 0xD001 = false := by
  rcases handles_correct sampleOps (by decide) with
    ⟨hNodup, -, hAnswers, -, hClosed⟩
  refine ⟨by decide, hNodup, ?_, ?_⟩
  · exact (hAnswers 0xD002 20).mp (by decide)
  · exact
      hClosed [.create 10, .create 20] (.close 0xD001)
        [.create 30] 0xD001 rfl (by decide) (Or.inl rfl)

end KHandleTable

end M1Switch
