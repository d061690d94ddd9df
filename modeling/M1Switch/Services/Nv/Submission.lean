import M1Switch.Gpu.Engine.GPFifo.Correctness
import M1Switch.Services.Nv

/-
  The words a submission feeds to the tracker.

  A submission names an address and a number of words, of
  which at most 65536 are read.  As far as they can be read,
  they are the words of guest memory from that address on.

  Key definitions include:
    * `guestWords`
    * `submittedWords`

  Main results:
    * `take_readWords`
    * `handleSubmitGpfifo_feeds`
    * `handleSubmitGpfifo_zeros`
-/

------
-- Words of a Submission
------

namespace M1Switch

namespace ServiceCall

/- Where a submission has its words. -/
def pbAddr (call : ServiceCall) : U64 :=
  call.readU32 4 ++ call.readU32 0

def numWords (call : ServiceCall) : Nat :=
  (call.readU32 8).toNat

end ServiceCall

namespace Syncpts

/- The words of guest memory from an address on. -/
def guestWords
    (mem : Memory)
    (address : U64)
    (n : Nat) : List U32 :=
  (List.range n).map fun i =>
    Bytes.word mem.bytes (address.toNat + 4 * i)

/- A word behind an address can be read. -/
def Readable
    (mem : Memory)
    (address : U64)
    (i : Nat) : Prop :=
  (readWord mem (address + BitVec.ofNat 64 (4 * i))).isSome

instance (mem : Memory) (address : U64) (i : Nat) :
    Decidable (Readable mem address i) :=
  inferInstanceAs (Decidable (_ = true))

/- What the tracker is given by a submission. -/
def submittedWords
    (mem : Memory)
    (call : ServiceCall) : List U32 :=
  readWords mem call.pbAddr (min call.numWords 65536)

/-
  A submission feeds the words it names, or those before the
  first one that cannot be read.
-/
def FeedsExactly
    (mem : Memory)
    (call : ServiceCall) : Prop :=
  ((∀ i, i < call.numWords → Readable mem call.pbAddr i) →
      submittedWords mem call =
        guestWords mem call.pbAddr call.numWords) ∧
    ∀ k, k < call.numWords →
      (∀ i, i < k → Readable mem call.pbAddr i) →
        ¬ Readable mem call.pbAddr k →
          submittedWords mem call =
            guestWords mem call.pbAddr k

variable {mem : Memory} {address : U64}

/- A word that can be read is the one in memory. -/
theorem readWord_some
    {w : U32}
    (hRead : readWord mem address = some w) :
    address.toNat + 4 ≤ Memory.ADDR_SPACE_SIZE ∧
      w = Bytes.word mem.bytes address.toNat := by
  unfold readWord at hRead
  split at hRead
  · cases hRead
  · next hIn =>
      rcases not_or.mp hIn with ⟨hValid, hEnd⟩
      exact ⟨Nat.not_lt.mp hEnd, (Option.some.inj hRead).symm⟩

theorem guestWords_succ
    (hEnd : address.toNat + 4 ≤ Memory.ADDR_SPACE_SIZE)
    (n : Nat) :
    guestWords mem address (n + 1) =
      Bytes.word mem.bytes address.toNat ::
        guestWords mem (address + 4) n := by
  have hNext : (address + 4).toNat = address.toNat + 4 := by
    have hSpace : Memory.ADDR_SPACE_SIZE = 2 ^ 32 := rfl
    rw [BitVec.toNat_add]
    show (address.toNat + 4) % 2 ^ 64 = _
    omega
  unfold guestWords
  rw [List.range_succ_eq_map, List.map_cons, List.map_map,
    hNext]
  congr 1
  apply List.map_congr_left
  intro i hIn
  show Bytes.word mem.bytes (address.toNat + 4 * (i + 1)) = _
  congr 1
  omega

theorem readable_succ (i : Nat) :
    Readable mem address (i + 1) ↔
      Readable mem (address + 4) i := by
  have hAddress :
      address + BitVec.ofNat 64 (4 * (i + 1)) =
        address + 4 + BitVec.ofNat 64 (4 * i) := by
    rw [BitVec.add_assoc, BitVec.add_comm 4]
    congr 1
    rw [Nat.mul_succ, BitVec.ofNat_add]
    rfl
  unfold Readable
  rw [hAddress]

/-
  As long as the words can be read, they are those of guest
  memory; by induction on the number of words asked for.
-/
theorem take_readWords
    (n k : Nat)
    (hLe : k ≤ n)
    (hReadable : ∀ i, i < k → Readable mem address i) :
    (readWords mem address n).take k =
      guestWords mem address k := by
  induction n generalizing address k with
  | zero =>
      rw [Nat.le_zero.mp hLe]
      rfl
  | succ n ih =>
      cases k with
      | zero => rfl
      | succ k =>
          have hFirst := hReadable 0 (Nat.succ_pos k)
          rcases Option.isSome_iff_exists.mp hFirst with
            ⟨w, hRead⟩
          have hZero : address + BitVec.ofNat 64 (4 * 0) =
              address :=
            BitVec.add_zero address
          rw [hZero] at hRead
          rcases readWord_some hRead with ⟨hEnd, hWord⟩
          have hRest :=
            ih k (Nat.le_of_succ_le_succ hLe) fun i hIn =>
              (readable_succ i).mp
                (hReadable (i + 1) (Nat.succ_lt_succ hIn))
          rw [readWords, hRead]
          show w :: (readWords mem (address + 4) n).take k = _
          rw [hRest, hWord, guestWords_succ hEnd]

theorem length_readWords (n : Nat) :
    (readWords mem address n).length = n := by
  induction n generalizing address with
  | zero => rfl
  | succ n ih =>
      rw [readWords]
      split
      · rw [List.length_cons, ih]
      · exact List.length_replicate

/- Words that can all be read. -/
theorem readWords_of_readable
    (n : Nat)
    (hReadable : ∀ i, i < n → Readable mem address i) :
    readWords mem address n = guestWords mem address n := by
  rw [← take_readWords n n (Nat.le_refl n) hReadable]
  exact
    (List.take_of_length_le
      (Nat.le_of_eq (length_readWords n))).symm

/- From the first word on that cannot be read there are zeros. -/
theorem drop_readWords
    (n k : Nat)
    (hLe : k ≤ n)
    (hReadable : ∀ i, i < k → Readable mem address i)
    (hEnd : ¬ Readable mem address k) :
    (readWords mem address n).drop k =
      List.replicate (n - k) 0 := by
  have hZero : address + BitVec.ofNat 64 (4 * 0) = address :=
    BitVec.add_zero address
  induction n generalizing address k with
  | zero => simp [readWords]
  | succ n ih =>
      cases k with
      | zero =>
          unfold Readable at hEnd
          rw [hZero, Option.not_isSome_iff_eq_none] at hEnd
          rw [readWords, hEnd]
          rfl
      | succ k =>
          have hFirst := hReadable 0 (Nat.succ_pos k)
          unfold Readable at hFirst
          rw [hZero] at hFirst
          rcases Option.isSome_iff_exists.mp hFirst with
            ⟨w, hRead⟩
          rw [readWords, hRead, Nat.add_sub_add_right]
          exact
            ih k (Nat.le_of_succ_le_succ hLe)
              (fun i hIn =>
                (readable_succ i).mp
                  (hReadable (i + 1) (Nat.succ_lt_succ hIn)))
              (fun hNext => hEnd ((readable_succ k).mpr hNext))
              (BitVec.add_zero _)

/- The tracker is behind the submitted words. -/
theorem handleSubmitGpfifo_tracker
    (sp : Syncpts)
    (tracker : StateTracker)
    (call : ServiceCall)
    (hWhole : 16 ≤ call.rawIn.length) :
    (sp.handleSubmitGpfifo (some mem) (some tracker)
        call).2.1 =
      some
        (tracker.pushBuffer (submittedWords mem call)).1 := by
  have hShort : ¬ call.rawIn.length < 16 :=
    Nat.not_lt.mpr hWhole
  unfold handleSubmitGpfifo pushWords
  simp only [hShort, false_or]
  by_cases hNone : call.numWords = 0
  · have hEmpty : submittedWords mem call = [] := by
      unfold submittedWords
      rw [hNone]
      rfl
    rw [hEmpty]
    change (call.readU32 8).toNat = 0 at hNone
    simp only [hNone, if_true]
    rfl
  · change ¬ (call.readU32 8).toNat = 0 at hNone
    simp only [hNone, if_false]
    split <;> rfl

/-
  The first 65536 words are fed as they are in guest memory if
  they can be read, and as many of them as can be read if not.
-/
theorem handleSubmitGpfifo_feeds
    (sp : Syncpts)
    (mem : Memory)
    (tracker : StateTracker)
    (call : ServiceCall)
    (hWhole : 16 ≤ call.rawIn.length) :
    (sp.handleSubmitGpfifo (some mem) (some tracker)
          call).2.1 =
        some
          (tracker.pushBuffer (submittedWords mem call)).1 ∧
      ((∀ i, i < min call.numWords 65536 →
          Readable mem call.pbAddr i) →
        submittedWords mem call =
          guestWords mem call.pbAddr
            (min call.numWords 65536)) ∧
      ∀ k, k ≤ min call.numWords 65536 →
        (∀ i, i < k → Readable mem call.pbAddr i) →
          (submittedWords mem call).take k =
            guestWords mem call.pbAddr k :=
  ⟨handleSubmitGpfifo_tracker sp tracker call hWhole,
    readWords_of_readable _, take_readWords _⟩

/-
  Behind the first word that cannot be read the tracker is fed
  zeros.  They are the rest of the payload of a packet that is
  cut off there, and make no callback behind it.
-/
theorem handleSubmitGpfifo_zeros
    (sp : Syncpts)
    (mem : Memory)
    (tracker : StateTracker)
    (call : ServiceCall)
    (hWhole : 16 ≤ call.rawIn.length)
    (ps : List {p : GPFifo.Packet // p.isHost = false})
    (cut : {p : GPFifo.Packet // p.isHost = false})
    (given : List U32)
    (zeros k : Nat)
    (hPayload :
      cut.1.payload = given ++ List.replicate zeros 0)
    (hRoom : k + zeros ≤ min call.numWords 65536)
    (hReadable : ∀ i, i < k → Readable mem call.pbAddr i)
    (hEnd : ¬ Readable mem call.pbAddr k)
    (hWords :
      guestWords mem call.pbAddr k =
        GPFifo.encodePackets (ps.map Subtype.val) ++
          cut.1.header :: given) :
    (sp.handleSubmitGpfifo (some mem) (some tracker)
        call).2.1 =
      some
        (tracker.onMethods
          ((ps ++ [cut]).flatMap fun p => p.1.writes)) := by
  have hLe : k ≤ min call.numWords 65536 :=
    Nat.le_trans (Nat.le_add_right k zeros) hRoom
  have hSplit :
      min call.numWords 65536 - k =
        zeros + (min call.numWords 65536 - k - zeros) := by
    omega
  -- The packet that is cut off is whole with the zeros.
  have hSubmitted :
      submittedWords mem call =
        GPFifo.encodePackets ((ps ++ [cut]).map Subtype.val) ++
          List.replicate
            (min call.numWords 65536 - k - zeros) 0 := by
    unfold submittedWords
    rw [← List.take_append_drop k (readWords _ _ _),
      take_readWords _ _ hLe hReadable,
      drop_readWords _ _ hLe hReadable hEnd, hWords, hSplit,
      ← List.replicate_append_replicate]
    simp [GPFifo.encodePackets, GPFifo.Packet.encode, hPayload]
  rw [handleSubmitGpfifo_tracker sp tracker call hWhole,
    hSubmitted]
  exact
    congrArg (fun writes => some (tracker.onMethods writes))
      (GPFifo.process_enginePackets_zeros _ _)

/- A submission of so many words at the start of memory. -/
def submission (numWords : U32) : ServiceCall where
  service := 0
  cmdId := 0xC0480012
  rawIn := Bytes.ofWords [0, 0, numWords, 0]
  outMax := 8

/- Two words are fed as they are in memory. -/
theorem twoWords_fed :
    (({} : Syncpts).handleSubmitGpfifo
        (some { bytes := fun i => BitVec.ofNat 8 i })
        (some (StateTracker.new StateTracker.defaultEngines))
        (submission 2)).2.1 =
      some
        ((StateTracker.new
            StateTracker.defaultEngines).pushBuffer
          [0x03020100, 0x07060504]).1 := by
  have hFed :=
    handleSubmitGpfifo_feeds {}
      { bytes := fun i => BitVec.ofNat 8 i }
      (StateTracker.new StateTracker.defaultEngines)
      (submission 2) (by decide)
  have hWords := hFed.2.1 (by decide)
  rw [hFed.1, hWords]
  rfl

/- One word too many: the last one is not fed. -/
theorem overlong_not_fed :
    ¬ ∀ mem call, 16 ≤ call.rawIn.length →
        FeedsExactly mem call := by
  intro hAll
  have hFeeds :=
    hAll { bytes := fun _ => 0 } (submission 65537) (by decide)
  have hNum : (submission 65537).numWords = 65537 := by decide
  have hReadable :
      ∀ i, i < (submission 65537).numWords →
        Readable { bytes := fun _ => 0 }
          (submission 65537).pbAddr i := by
    intro i hIn
    rw [hNum] at hIn
    have hAddress : (submission 65537).pbAddr = 0 := by decide
    have hOffset :
        (0 + BitVec.ofNat 64 (4 * i) : U64).toNat = 4 * i := by
      show (0#64 + BitVec.ofNat 64 (4 * i)).toNat = 4 * i
      rw [BitVec.zero_add, BitVec.toNat_ofNat]
      omega
    unfold Readable readWord Memory.isValid
    rw [hAddress, hOffset, if_neg]
    · rfl
    · have hSpace : Memory.ADDR_SPACE_SIZE = 2 ^ 32 := rfl
      rw [hSpace]
      simp only [Bool.not_eq_true', decide_eq_false_iff_not]
      omega
  have hLength := congrArg List.length (hFeeds.1 hReadable)
  unfold submittedWords guestWords at hLength
  rw [length_readWords, List.length_map, List.length_range,
    hNum] at hLength
  cases hLength

end Syncpts

end M1Switch
