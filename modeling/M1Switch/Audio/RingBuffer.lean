import Mathlib.Data.BitVec
import Mathlib.Data.Nat.Bitwise
import M1Switch.Common.Types
import M1Switch.Library.EventRun

/-
  The ring between the guest's audio output and the player.

  Positions are reduced with a mask that is one less than the
  capacity.  The capacity is not a power of two, so the mask
  has holes, the lowest of them at bit 9: up to position 511
  masking changes nothing, and position 512 is masked to 0.

  Key definitions include:
    * `RingBuffer.write`
    * `RingBuffer.read`

  Main results:
    * `RingBuffer.load_load`
    * `AudioSession.Inv.step`
    * `AudioSession.fifo_of_admits`
-/

------
-- The Ring
------

namespace M1Switch

/- About four seconds of stereo. -/
abbrev RING_BUF_CAPACITY : U32 := 48000 * 4
abbrev RING_BUF_MASK : U32 := RING_BUF_CAPACITY - 1

structure RingBuffer (T : Type) where
  buf : Fin RING_BUF_CAPACITY.toNat → T
  readPos : U32 := 0
  writePos : U32 := 0

namespace RingBuffer

variable {T : Type}

/- The element of the buffer that a position stands for. -/
def slot (pos : U32) : Fin RING_BUF_CAPACITY.toNat :=
  ⟨(pos &&& RING_BUF_MASK).toNat, by
    rw [BitVec.toNat_and]
    exact Nat.lt_of_le_of_lt Nat.and_le_right (by decide)⟩

def available (r : RingBuffer T) : U32 :=
  (r.writePos - r.readPos) &&& RING_BUF_MASK

/- Copy `n` samples to the elements from position `wp` on. -/
def store
    (buf : Fin RING_BUF_CAPACITY.toNat → T)
    (wp : U32)
    (data : Nat → T) :
    Nat → Fin RING_BUF_CAPACITY.toNat → T
| 0 => buf
| n + 1 =>
    Function.update (store buf wp data n)
      (slot (wp + BitVec.ofNat 32 n)) (data n)

/- The elements from position `rp` on. -/
def load
    (buf : Fin RING_BUF_CAPACITY.toNat → T)
    (rp : U32)
    (n : Nat) : List T :=
  (List.range n).map fun i => buf (slot (rp + BitVec.ofNat 32 i))

/- How many of `count` samples there is room for. -/
def toWrite (r : RingBuffer T) (count : U32) : U32 :=
  let used := (r.writePos - r.readPos) &&& RING_BUF_MASK
  let space := RING_BUF_CAPACITY - used - 1
  if space < count then space else count

def write
    (r : RingBuffer T)
    (data : Nat → T)
    (count : U32) : RingBuffer T × U32 :=
  let n := r.toWrite count
  ({ r with
      buf := store r.buf r.writePos data n.toNat
      writePos := (r.writePos + n) &&& RING_BUF_MASK }, n)

theorem write_eq
    {r : RingBuffer T}
    {data : Nat → T}
    {count : U32}
    (hAll : r.toWrite count = count) :
    r.write data count =
      ({ r with
          buf := store r.buf r.writePos data count.toNat
          writePos :=
            (r.writePos + count) &&& RING_BUF_MASK },
        count) := by
  unfold write
  rw [hAll]

/- How many of `count` samples there are. -/
def toRead (r : RingBuffer T) (count : U32) : U32 :=
  let used := (r.writePos - r.readPos) &&& RING_BUF_MASK
  if used < count then used else count

/- The samples are what the caller's buffer is given. -/
def read
    (r : RingBuffer T)
    (count : U32) : RingBuffer T × List T :=
  let n := r.toRead count
  ({ r with
      readPos := (r.readPos + n) &&& RING_BUF_MASK },
    load r.buf r.readPos n.toNat)

end RingBuffer

------
-- A Producer and a Consumer
------

inductive RingCall (T : Type) where
| write (data : Nat → T) (count : U32)
| read (count : U32)

/- A ring with all that was put in and taken out of it. -/
structure AudioSession (T : Type) where
  ring : RingBuffer T
  accepted : List T := []
  returned : List T := []

namespace AudioSession

variable {T : Type}

def start (silence : T) : AudioSession T :=
  { ring := { buf := fun _ => silence } }

def step (s : AudioSession T) : RingCall T → AudioSession T
| .write data count =>
    { s with
      ring := (s.ring.write data count).1
      accepted :=
        s.accepted ++
          (List.range (s.ring.write data count).2.toNat).map
            data }
| .read count =>
    { s with
      ring := (s.ring.read count).1
      returned := s.returned ++ (s.ring.read count).2 }

theorem step_write
    (s : AudioSession T)
    (data : Nat → T)
    (count : U32) :
    s.step (.write data count) =
      { s with
        ring := (s.ring.write data count).1
        accepted :=
          s.accepted ++
            (List.range (s.ring.write data count).2.toNat).map
              data } :=
  rfl

/-
  What came out is the beginning of what was put in, and the
  rest of it is available.
-/
def Fifo (s : AudioSession T) : Prop :=
  s.returned <+: s.accepted ∧
    s.ring.available.toNat + s.returned.length =
      s.accepted.length

/- A write has to end below the first hole of the mask. -/
def Admits (s : AudioSession T) : RingCall T → Prop
| .write _ count => s.ring.writePos.toNat + count.toNat < 512
| .read _ => True

instance
    (s : AudioSession T)
    (call : RingCall T) :
    Decidable (s.Admits call) :=
  match call with
  | .write _ _ => inferInstanceAs (Decidable (_ < _))
  | .read _ => inferInstanceAs (Decidable True)

end AudioSession

------
-- Positions Below the Hole
------

namespace RingBuffer

variable {T : Type} {buf : Fin RING_BUF_CAPACITY.toNat → T}
variable {data : Nat → T}

/- The nine lowest bits of the mask are set. -/
theorem mask_bit
    {i : Nat}
    (hI : i < 9) :
    RING_BUF_MASK.toNat.testBit i = true := by
  have hAll :
      ∀ i : Fin 9, RING_BUF_MASK.toNat.testBit i = true := by
    decide
  exact hAll ⟨i, hI⟩

theorem and_mask
    {pos : U32}
    (hPos : pos.toNat < 512) :
    pos &&& RING_BUF_MASK = pos := by
  apply BitVec.eq_of_toNat_eq
  rw [BitVec.toNat_and]
  apply Nat.eq_of_testBit_eq
  intro i
  rw [Nat.testBit_and]
  by_cases hI : i < 9
  · rw [mask_bit hI, Bool.and_true]
  · have hLt : pos.toNat < 2 ^ i :=
      Nat.lt_of_lt_of_le hPos
        (Nat.pow_le_pow_right (Nat.succ_pos 1)
          (Nat.le_of_not_lt hI))
    rw [Nat.testBit_lt_two_pow hLt, Bool.false_and]

theorem slot_val
    {pos : U32}
    (hPos : pos.toNat < 512) :
    (slot pos).val = pos.toNat := by
  show (pos &&& RING_BUF_MASK).toNat = pos.toNat
  rw [and_mask hPos]

theorem toNat_add_small
    {pos : U32}
    {i : Nat}
    (hSum : pos.toNat + i < 512) :
    (pos + BitVec.ofNat 32 i).toNat = pos.toNat + i := by
  rw [BitVec.toNat_add, BitVec.toNat_ofNat]
  omega

/- A slot that is written last holds what was written. -/
theorem store_at
    {wp : U32}
    {n i : Nat}
    (hSum : wp.toNat + n < 512)
    (hI : i < n)
    (hSlot : wp.toNat + i < RING_BUF_CAPACITY.toNat) :
    store buf wp data n ⟨wp.toNat + i, hSlot⟩ = data i := by
  induction n with
  | zero => omega
  | succ n ih =>
      have hLast :
          (slot (wp + BitVec.ofNat 32 n)).val =
            wp.toNat + n := by
        have hAdd :
            (wp + BitVec.ofNat 32 n).toNat = wp.toNat + n :=
          toNat_add_small (by omega)
        rw [slot_val (by omega), hAdd]
      unfold store
      by_cases hEq : i = n
      · subst hEq
        have hSame :
            (⟨wp.toNat + i, hSlot⟩ :
                Fin RING_BUF_CAPACITY.toNat) =
              slot (wp + BitVec.ofNat 32 i) :=
          Fin.ext hLast.symm
        rw [hSame, Function.update_self]
      · have hOther :
            (⟨wp.toNat + i, hSlot⟩ :
                Fin RING_BUF_CAPACITY.toNat) ≠
              slot (wp + BitVec.ofNat 32 n) := by
          intro hSame
          have hVal := congrArg Fin.val hSame
          rw [hLast] at hVal
          simp only at hVal
          omega
        rw [Function.update_of_ne hOther]
        exact ih (by omega) (by omega)

/- Slots below the position are left as they were. -/
theorem store_below
    {wp : U32}
    {n : Nat}
    {k : Fin RING_BUF_CAPACITY.toNat}
    (hSum : wp.toNat + n < 512)
    (hK : k.val < wp.toNat) :
    store buf wp data n k = buf k := by
  induction n with
  | zero => rfl
  | succ n ih =>
      have hOther : k ≠ slot (wp + BitVec.ofNat 32 n) := by
        intro hSame
        have hVal := congrArg Fin.val hSame
        have hAdd :
            (wp + BitVec.ofNat 32 n).toNat = wp.toNat + n :=
          toNat_add_small (by omega)
        rw [slot_val (by omega), hAdd] at hVal
        omega
      unfold store
      rw [Function.update_of_ne hOther]
      exact ih (by omega)

/- What is in the ring once samples were put behind others. -/
theorem load_store
    {wp : U32}
    {n : Nat}
    (hSum : wp.toNat + n < 512) :
    load (store buf wp data n) 0 (wp.toNat + n) =
      load buf 0 wp.toNat ++ (List.range n).map data := by
  have hCap : RING_BUF_CAPACITY.toNat = 192000 := by decide
  unfold load
  apply List.ext_getElem
  · simp
  · intro i hI _
    have hLt : i < wp.toNat + n := by simpa using hI
    have hAdd :
        ((0 : U32) + BitVec.ofNat 32 i).toNat = i := by
      have hZero : (0 : U32).toNat = 0 := rfl
      rw [toNat_add_small (by omega), hZero, Nat.zero_add]
    have hSlot :
        slot ((0 : U32) + BitVec.ofNat 32 i) =
          ⟨i, by omega⟩ := by
      apply Fin.ext
      rw [slot_val (by omega), hAdd]
    rw [List.getElem_map, List.getElem_range, hSlot]
    by_cases hOld : i < wp.toNat
    · rw [List.getElem_append_left (by simpa using hOld),
        List.getElem_map, List.getElem_range, hSlot]
      exact store_below hSum hOld
    · rcases Nat.exists_eq_add_of_le
          (Nat.le_of_not_lt hOld) with
        ⟨j, rfl⟩
      rw [List.getElem_append_right (by simp),
        List.getElem_map, List.getElem_range]
      simp only [List.length_map, List.length_range,
        Nat.add_sub_cancel_left]
      exact store_at hSum (by omega) (by omega)

/- Some of the elements are a part of all of them. -/
theorem load_load
    {rp : U32}
    {n len : Nat}
    (hSum : rp.toNat + n ≤ len) :
    load buf rp n =
      ((load buf 0 len).drop rp.toNat).take n := by
  unfold load
  apply List.ext_getElem
  · simp
    omega
  · intro i hI _
    have hPos :
        rp + BitVec.ofNat 32 i =
          0 + BitVec.ofNat 32 (rp.toNat + i) := by
      apply BitVec.eq_of_toNat_eq
      simp
    rw [List.getElem_map, List.getElem_range,
      List.getElem_take, List.getElem_drop,
      List.getElem_map, List.getElem_range, hPos]

end RingBuffer

------
-- The Queue the Ring Stands For
------

namespace AudioSession

open RingBuffer

variable {T : Type}

/-
  Nothing was reduced so far: the positions count the samples,
  and the samples lie in the order they were put in.
-/
structure Inv (s : AudioSession T) : Prop where
  writePos : s.ring.writePos.toNat = s.accepted.length
  readPos : s.ring.readPos.toNat = s.returned.length
  small : s.accepted.length < 512
  taken : s.returned <+: s.accepted
  held :
    load s.ring.buf 0 s.accepted.length = s.accepted

namespace Inv

variable {s : AudioSession T}

theorem start (silence : T) :
    Inv (AudioSession.start silence) where
  writePos := rfl
  readPos := rfl
  small := Nat.succ_pos _
  taken := List.prefix_refl _
  held := rfl

theorem used (hInv : Inv s) :
    ((s.ring.writePos - s.ring.readPos) &&&
        RING_BUF_MASK).toNat =
      s.accepted.length - s.returned.length := by
  have hLen := hInv.taken.length_le
  have hSmall := hInv.small
  have hSub :
      (s.ring.writePos - s.ring.readPos).toNat =
        s.accepted.length - s.returned.length := by
    rw [BitVec.toNat_sub, hInv.writePos, hInv.readPos]
    omega
  rw [and_mask (by omega), hSub]

theorem fifo (hInv : Inv s) :
    Fifo s := by
  have hLen := hInv.taken.length_le
  refine ⟨hInv.taken, ?_⟩
  have hUsed : s.ring.available.toNat = _ := hInv.used
  rw [hUsed]
  omega

/- An admitted write finds room for all its samples. -/
theorem toWrite_eq
    {count : U32}
    (hInv : Inv s)
    (hAdmits : s.ring.writePos.toNat + count.toNat < 512) :
    s.ring.toWrite count = count := by
  have hUsed := hInv.used
  have hSmall := hInv.small
  unfold toWrite
  apply if_neg
  rw [BitVec.lt_def, BitVec.toNat_sub, BitVec.toNat_sub,
    hUsed]
  have hCap : RING_BUF_CAPACITY.toNat = 192000 := by decide
  have hOne : (1 : U32).toNat = 1 := by decide
  omega

theorem toRead_le
    (hInv : Inv s)
    (count : U32) :
    s.returned.length + (s.ring.toRead count).toNat ≤
      s.accepted.length := by
  have hLen := hInv.taken.length_le
  have hUsed := hInv.used
  unfold toRead
  simp only
  split
  · omega
  · next hNot =>
      rw [BitVec.lt_def] at hNot
      omega

theorem write
    {data : Nat → T}
    {count : U32}
    (hInv : Inv s)
    (hAdmits : s.ring.writePos.toNat + count.toNat < 512) :
    Inv (s.step (.write data count)) := by
  have hWrite :
      s.ring.write data count = _ :=
    write_eq (hInv.toWrite_eq hAdmits)
  have hSum :
      s.accepted.length + count.toNat < 512 := by
    rw [← hInv.writePos]
    exact hAdmits
  have hAccepted :
      (s.step (.write data count)).accepted =
        s.accepted ++ (List.range count.toNat).map data := by
    rw [step_write, hWrite]
  have hReturned :
      (s.step (.write data count)).returned = s.returned := by
    rw [step_write]
  have hLength :
      (s.step (.write data count)).accepted.length =
        s.accepted.length + count.toNat := by
    rw [hAccepted]
    simp
  have hRing :
      (s.step (.write data count)).ring =
        { s.ring with
          buf :=
            store s.ring.buf s.ring.writePos data count.toNat
          writePos :=
            (s.ring.writePos + count) &&& RING_BUF_MASK } := by
    rw [step_write, hWrite]
  have hPos :
      (s.ring.writePos + count).toNat =
        s.accepted.length + count.toNat := by
    rw [BitVec.toNat_add, hInv.writePos]
    omega
  have hMask :
      ((s.ring.writePos + count) &&& RING_BUF_MASK).toNat =
        s.accepted.length + count.toNat := by
    rw [and_mask (by omega), hPos]
  constructor
  · rw [hRing, hLength]
    exact hMask
  · rw [hRing, hReturned]
    exact hInv.readPos
  · rw [hLength]
    exact hSum
  · rw [hAccepted, hReturned]
    exact hInv.taken.trans (List.prefix_append _ _)
  · have hStored :
        load
            (store s.ring.buf s.ring.writePos data count.toNat)
            0 (s.ring.writePos.toNat + count.toNat) = _ :=
      load_store hAdmits
    rw [hInv.writePos, hInv.held] at hStored
    rw [hRing, hLength, hAccepted]
    exact hStored

theorem read
    (hInv : Inv s)
    (count : U32) :
    Inv (s.step (.read count)) := by
  have hLe := hInv.toRead_le count
  have hSmall := hInv.small
  have hLoad :
      (s.ring.read count).2 =
        (s.accepted.drop s.returned.length).take
          (s.ring.toRead count).toNat := by
    have hPart :
        (s.ring.read count).2 =
          ((load s.ring.buf 0 s.accepted.length).drop
            s.ring.readPos.toNat).take
              (s.ring.toRead count).toNat := by
      apply load_load
      rw [hInv.readPos]
      exact hLe
    rw [hInv.held, hInv.readPos] at hPart
    exact hPart
  have hReturned :
      (s.step (.read count)).returned =
        s.accepted.take
          (s.returned.length + (s.ring.toRead count).toNat) := by
    show s.returned ++ (s.ring.read count).2 = _
    rw [hLoad, List.take_add,
      List.prefix_iff_eq_take.mp hInv.taken]
    simp
  have hLength :
      (s.step (.read count)).returned.length =
        s.returned.length + (s.ring.toRead count).toNat := by
    rw [hReturned, List.length_take]
    omega
  have hPos :
      (s.ring.readPos + s.ring.toRead count).toNat =
        s.returned.length + (s.ring.toRead count).toNat := by
    rw [BitVec.toNat_add, hInv.readPos]
    omega
  constructor
  · exact hInv.writePos
  · rw [hLength, ← hPos]
    exact congrArg BitVec.toNat (and_mask (by omega))
  · exact hSmall
  · rw [hReturned]
    exact List.take_prefix _ _
  · exact hInv.held

/- What one call keeps. -/
theorem step
    {call : RingCall T}
    (hInv : Inv s)
    (hAdmits : Admits s call) :
    Inv (s.step call) := by
  cases call with
  | write data count => exact hInv.write hAdmits
  | read count => exact hInv.read count

end Inv

/-
  As long as fewer than 512 samples have ever been put in, the
  ring is a queue.
-/
theorem fifo_of_admits
    (silence : T)
    (calls : List (RingCall T))
    (hAdmits :
      EventRun.Guarded AudioSession.step Admits
        (AudioSession.start silence) calls) :
    Fifo
      (EventRun.stateAfter AudioSession.step
        (AudioSession.start silence) calls) := by
  apply Inv.fifo
  exact hAdmits.invariant (I := fun _ => Inv)
    (Inv.start silence)
    (fun _ _ hInv hCall => hInv.step hCall)

/- Three samples in, two of them out. -/
theorem fifo_three :
    Fifo
      (EventRun.stateAfter AudioSession.step
        (AudioSession.start (0 : BitVec 16))
        [.write (BitVec.ofNat 16) 3, .read 2]) :=
  fifo_of_admits 0 [.write (BitVec.ofNat 16) 3, .read 2]
    (by decide)

/- 512 samples are accepted, and none of them is available. -/
theorem fifo_fails_at_hole :
    ¬ ∀ calls : List (RingCall (BitVec 16)),
        Fifo
          (EventRun.stateAfter AudioSession.step
            (AudioSession.start 0) calls) := by
  intro hAll
  have hCount := (hAll [.write (BitVec.ofNat 16) 512]).2
  revert hCount
  decide +kernel

end AudioSession

end M1Switch
