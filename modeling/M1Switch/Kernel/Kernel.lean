import Mathlib.Data.List.Basic
import M1Switch.Common.Types

/-
  Kernel objects and the table that gives handles for them.

  The table holds pointers.  It hands out handles from a
  counter that is never set back, and closing a handle deletes
  the object behind it.

  Key definitions include:
    * `KObjectType`
    * `KHandleTable`
-/

------
-- Kernel Objects
------

namespace M1Switch

inductive KObjectType where
  | Invalid
  | Thread
  | Event
  | TransferMemory
  | SharedMemory
  | Session
  | Port
  | InterruptEvent
  | DeviceAddressSpace
  | ResourceLimit
  | CodeMemory
deriving DecidableEq

------
-- The Handle Table
------

/- Handles and their objects; a handle is listed once. -/
structure KHandleTable (Obj : Type) where
  objects : List (U32 × Obj) := []
  nextIndex : U32 := 1
deriving DecidableEq

namespace KHandleTable

variable {Obj : Type}

def HANDLE_BASE : U32 := 0xD000

/- The handle the next object gets. -/
def nextHandle (table : KHandleTable Obj) : U32 :=
  HANDLE_BASE + table.nextIndex

/- The entries of other handles. -/
def without
    (table : KHandleTable Obj)
    (handle : U32) : List (U32 × Obj) :=
  table.objects.filter fun entry => entry.1 ≠ handle

/- An object is entered in place of one with its handle. -/
def create
    (table : KHandleTable Obj)
    (obj : Obj) : U32 × KHandleTable Obj :=
  (table.nextHandle,
    { objects :=
        (table.nextHandle, obj) ::
          table.without table.nextHandle
      nextIndex := table.nextIndex + 1 })

def get
    (table : KHandleTable Obj)
    (handle : U32) : Option Obj :=
  (table.objects.find? fun entry => entry.1 = handle).map
    Prod.snd

/- The object, if it is of the type asked for. -/
def getAs
    {T : Type}
    (table : KHandleTable Obj)
    (cast : Obj → Option T)
    (handle : U32) : Option T :=
  (table.get handle).bind cast

/- The table, and the object that is deleted. -/
def close
    (table : KHandleTable Obj)
    (handle : U32) : Option Obj × KHandleTable Obj :=
  (table.get handle,
    { table with objects := table.without handle })

/- The table, and the objects that are deleted. -/
def closeAll
    (table : KHandleTable Obj) :
    List Obj × KHandleTable Obj :=
  (table.objects.map Prod.snd, { table with objects := [] })

def isValid
    (table : KHandleTable Obj)
    (handle : U32) : Bool :=
  table.objects.any fun entry => entry.1 = handle

@[simp] theorem find_without_self
    (table : KHandleTable Obj)
    (handle : U32) :
    (table.without handle).find?
        (fun entry => entry.1 = handle) = none := by
  apply List.find?_eq_none.mpr
  intro entry hEntry
  simpa using (List.mem_filter.mp hEntry).2

theorem find_without_of_ne
    (table : KHandleTable Obj)
    {handle h : U32}
    (hNe : h ≠ handle) :
    (table.without handle).find? (fun entry => entry.1 = h) =
      table.objects.find? fun entry => entry.1 = h := by
  unfold without
  rw [List.find?_filter]
  congr 1
  funext entry
  by_cases hEntry : entry.1 = h
  · simp [hEntry, hNe]
  · simp [hEntry]

theorem get_create
    (table : KHandleTable Obj)
    (obj : Obj)
    (h : U32) :
    (table.create obj).2.get h =
      if h = table.nextHandle then some obj
      else table.get h := by
  unfold get create
  by_cases hNew : h = table.nextHandle
  · simp [hNew]
  · have hOther : table.nextHandle ≠ h := fun hEq =>
      hNew hEq.symm
    rw [if_neg hNew, List.find?_cons_of_neg (by simpa)]
    rw [find_without_of_ne table hNew]

theorem get_close
    (table : KHandleTable Obj)
    (handle h : U32) :
    (table.close handle).2.get h =
      if h = handle then none else table.get h := by
  unfold get close
  by_cases hSame : h = handle
  · rw [if_pos hSame, hSame, find_without_self]
    rfl
  · rw [if_neg hSame, find_without_of_ne table hSame]

@[simp] theorem get_closeAll
    (table : KHandleTable Obj)
    (h : U32) :
    table.closeAll.2.get h = none :=
  rfl

@[simp] theorem get_empty (h : U32) :
    ({} : KHandleTable Obj).get h = none :=
  rfl

/- A handle is valid when there is an object behind it. -/
theorem isValid_eq
    (table : KHandleTable Obj)
    (h : U32) :
    table.isValid h = (table.get h).isSome := by
  unfold isValid get
  rw [Option.isSome_map, List.isSome_find?]

end KHandleTable

end M1Switch
