import M1Switch.Gpu.Shader.MaxwellDecoder.Branches

/-
  The errors of a decoder.

  A decoder is used for many shaders.  What it cannot decode
  it logs in its own list; when a program is finished, the list
  of the context takes its place, and nothing is ever logged in
  that one.

  Key definitions include:
    * `Decoder`
    * `decodeOneIn`

  Main results:
    * `decodeLoopIn_eq`
    * `decodeIn_eq`
    * `reports_iff`
-/

------
-- Logging
------

namespace M1Switch

/- The decoder object: its only member. -/
structure Decoder where
  errors : List String := []
deriving DecidableEq, Repr

/- What the loop keeps of a shader. -/
structure DecoderContext where
  offset : Nat := 0
  errors : List String := []
deriving DecidableEq, Repr

namespace Decoder

def hasErrors (dec : Decoder) : Bool :=
  !dec.errors.isEmpty

def logError (dec : Decoder) (text : String) : Decoder :=
  { dec with errors := dec.errors ++ [text] }

def logAll (dec : Decoder) (texts : List String) : Decoder :=
  { dec with errors := dec.errors ++ texts }

end Decoder

namespace MaxwellDecoder

/- The format `%x`. -/
def hex (n : Nat) : String :=
  String.ofList (Nat.toDigits 16 n)

/- The format `%016llx`. -/
def hex16 (n : Nat) : String :=
  String.ofList ((Nat.toDigits 16 n).leftpad 16 '0')

def truncatedText (pc : Nat) : String :=
  "Truncated instruction at offset 0x" ++ hex pc

def unknownText (pc : Nat) (raw0 : U64) : String :=
  "Unknown instruction at 0x" ++ hex pc ++ ": raw=0x" ++
    hex16 raw0.toNat

/- Decode one instruction, and log what fails. -/
def decodeOneIn
    (dec : Decoder)
    (data : List U8)
    (pc : Nat) : Option (DecodedInst × Decoder) :=
  if data.length < (pc + 8) % 2 ^ 32 then
    some ({ pc := pc }, dec.logError (truncatedText pc))
  else do
    let raw0 ← readWord data pc
    let fmt := detectFormat (opcodeIdOf raw0)
    let raw1 ← secondWord data pc fmt
    return (decodeFormat raw0 raw1 pc fmt,
      if fmt = .Unknown then
        dec.logError (unknownText pc raw0)
      else dec)

/- The decoding loop, with its context. -/
def decodeLoopIn (data : List U8) :
    Nat → DecoderContext → Decoder →
      Option
        (List ShaderInstruction × DecoderContext × Decoder)
| 0, _, _ => none
| fuel + 1, ctx, dec =>
    if ctx.offset < data.length then do
      let (di, dec) ← decodeOneIn dec data ctx.offset
      if di.fmt = .Unknown then
        decodeLoopIn data fuel
          { ctx with offset := (ctx.offset + 8) % 2 ^ 32 } dec
      else
        let ctx :=
          { ctx with
            offset := (ctx.offset + di.size) % 2 ^ 32 }
        if di.opcode = .EXIT then
          return ([di.toIr], ctx, dec)
        else do
          let (rest, ctx, dec) ← decodeLoopIn data fuel ctx dec
          return (di.toIr :: rest, ctx, dec)
    else return ([], ctx, dec)

/- Decode a program; the context's errors become one's own. -/
def decodeIn
    (dec : Decoder)
    (data : List U8)
    (stage : ShaderStage) :
    Option (ShaderProgram × Decoder) := do
  let bytes := sizedData data
  let (insts, ctx, dec) ←
    decodeLoopIn bytes (bytes.length + 1) {} dec
  let program : ShaderProgram :=
    { stage := stage
      instructions := insts
      programSize := bytes.length
      hash := ShaderProgram.calculateHash bytes
      usesTextures := insts.any fun i => marksTextures i.opcode
      usesVaryings :=
        insts.any fun i => marksVaryings i.opcode }
  return (program, { dec with errors := ctx.errors })

------
-- What Is Logged
------

variable {data : List U8}

/- The text of a slot without an instruction. -/
def eventText
    (data : List U8)
    (d : DecodedInst) : Option String :=
  if d.fmt = .Unknown then
    match readWord data d.pc with
    | none => some (truncatedText d.pc)
    | some raw0 => some (unknownText d.pc raw0)
  else none

/- The texts of a call, in order. -/
def events (data : List U8) (s : Sweep) : List String :=
  s.slots.filterMap (eventText data)

theorem decodeOneIn_eq
    (dec : Decoder)
    (data : List U8)
    (pc : Nat) :
    decodeOneIn dec data pc =
      (decodeOne data pc).map fun d =>
        (d, dec.logAll (eventText data d).toList) := by
  unfold decodeOneIn decodeOne
  by_cases hShort : data.length < (pc + 8) % 2 ^ 32
  · have hNone : readWord data pc = none := by
      unfold readWord
      rw [if_neg (by omega)]
    rw [if_pos hShort, if_pos hShort]
    simp [eventText, hNone, Decoder.logAll, Decoder.logError]
  · rw [if_neg hShort, if_neg hShort]
    cases hWord : readWord data pc with
    | none => rfl
    | some w =>
        simp only [bind, Option.bind_some]
        cases secondWord data pc (detectFormat (opcodeIdOf w))
          with
        | none => rfl
        | some raw1 =>
            simp only [Option.bind_some, pure,
              Option.map_some, Option.some.injEq,
              Prod.mk.injEq, true_and]
            unfold eventText
            rw [fmt_decodeFormat, pc_decodeFormat, hWord]
            split_ifs <;>
              simp [Decoder.logAll, Decoder.logError]

theorem logAll_append
    (dec : Decoder)
    (xs ys : List String) :
    (dec.logAll xs).logAll ys = dec.logAll (xs ++ ys) := by
  unfold Decoder.logAll
  simp [List.append_assoc]

theorem events_behind (d : DecodedInst) (s : Sweep) :
    events data (s.behind d) =
      (eventText data d).toList ++ events data s := by
  unfold events
  rw [slots_behind, List.filterMap_cons]
  cases eventText data d <;> rfl

/-
  The loop logs each event in the decoder, and none in its
  context.
-/
theorem decodeLoopIn_eq :
    ∀ (fuel : Nat) (ctx : DecoderContext) (dec : Decoder),
      decodeLoopIn data fuel ctx dec =
        (sweep data fuel ctx.offset).map fun s =>
          (s.instructions, { ctx with offset := s.stop },
            dec.logAll (events data s)) := by
  intro fuel
  induction fuel with
  | zero =>
      intro ctx dec
      rfl
  | succ fuel ih =>
      intro ctx dec
      unfold decodeLoopIn sweep
      by_cases hPc : ctx.offset < data.length
      · rw [if_pos hPc, if_pos hPc, decodeOneIn_eq]
        cases decodeOne data ctx.offset with
        | none => rfl
        | some d =>
            simp only [bind, Option.bind_some, Option.map_some,
              ih, pure]
            split_ifs with hUnknown hExit
            · cases
                sweep data fuel ((ctx.offset + 8) % 2 ^ 32)
                with
              | none => rfl
              | some rest =>
                  simp [instructions_behind, listed, hUnknown,
                    events_behind, logAll_append]
            · simp [Sweep.instructions, listed, hUnknown,
                events, eventText, Decoder.logAll]
            · cases
                sweep data fuel
                  ((ctx.offset + d.size) % 2 ^ 32) with
              | none => rfl
              | some rest =>
                  simp [instructions_behind, listed, hUnknown,
                    events_behind, logAll_append]
      · rw [if_neg hPc, if_neg hPc]
        simp [Sweep.instructions, events, Decoder.logAll]

/- The program is the one decoded, and no error is left. -/
theorem decodeIn_eq
    (dec : Decoder)
    (data : List U8)
    (stage : ShaderStage) :
    decodeIn dec data stage =
      (decode data stage).map fun p => (p, {}) := by
  unfold decodeIn decode
  simp only [decodeLoopIn_eq, decodeLoop_eq_sweep]
  cases sweep (sizedData data) ((sizedData data).length + 1) 0
    <;> rfl

------
-- What Is Reported
------

open WordStream

/- The decoder tells of this call's events, and these only. -/
structure Reports
    (data : List U8)
    (s : Sweep)
    (dec : Decoder) : Prop where
  flagged : dec.hasErrors ↔ ∃ d ∈ s.slots, d.fmt = .Unknown
  messages : dec.errors = events data s

/- No slot is unknown if every word reached is known. -/
theorem unknown_slot_iff
    {s : Sweep}
    (hLength : data.length < 2 ^ 32)
    (hSwept : Swept data 0 s) :
    (∃ d ∈ s.slots, d.fmt = .Unknown) ↔
      ∃ k, 8 * k < data.length ∧ Listed data k ∧
        ¬ Decodable data (8 * k) := by
  have hKnown :
      ∀ {k : Nat} {d : DecodedInst},
        8 * k < data.length →
          decodeOne data (8 * k) = some d →
            (d.fmt = .Unknown ↔ ¬ Decodable data (8 * k)) := by
    intro k d hIn hOne
    unfold Decodable
    rcases decodeOne_cases hLength hIn hOne with
      ⟨hNone, hD⟩ | ⟨w, raw1, hWord, hD⟩
    · rw [hNone, hD]
      simp
    · rw [hWord, hD, fmt_decodeFormat]
      simp
  constructor
  · rintro ⟨d, hD, hUnknown⟩
    rcases (mem_slots_iff hSwept d).mp hD with
      ⟨k, hReached, hIn, hOne⟩
    exact
      ⟨k, hIn, reached_zero_iff.mp hReached,
        (hKnown hIn hOne).mp hUnknown⟩
  · rintro ⟨k, hIn, hListed, hNot⟩
    have hReached := reached_zero_iff.mpr hListed
    rcases decodeOne_of_reached hSwept hReached hIn with
      ⟨d, hOne⟩
    refine ⟨d, ?_, (hKnown hIn hOne).mpr hNot⟩
    exact (mem_slots_iff hSwept d).mpr ⟨k, hReached, hIn, hOne⟩

theorem events_eq_nil
    {s : Sweep}
    (hNone : ¬ ∃ d ∈ s.slots, d.fmt = .Unknown) :
    events data s = [] := by
  apply List.filterMap_eq_nil_iff.mpr
  intro d hD
  unfold eventText
  rw [if_neg]
  exact fun hUnknown => hNone ⟨d, hD, hUnknown⟩

/-
  Whatever was decoded before, the decoder reports the events
  of a call exactly if there are none: if each word the loop
  comes to is whole and known.
-/
theorem reports_iff
    {dec after : Decoder}
    {bytes : List U8}
    {stage : ShaderStage}
    {p : ShaderProgram}
    (hDecode : decodeIn dec bytes stage = some (p, after)) :
    (∃ s,
      sweep (sizedData bytes)
          ((sizedData bytes).length + 1) 0 = some s ∧
        Reports (sizedData bytes) s after) ↔
      ∀ k,
        8 * k < (sizedData bytes).length →
          Listed (sizedData bytes) k →
            Decodable (sizedData bytes) (8 * k) := by
  rw [decodeIn_eq, Option.map_eq_some_iff] at hDecode
  rcases hDecode with ⟨p', hProgram, hPair⟩
  have hAfter : after = {} := (Prod.mk.inj hPair).2.symm
  have hLength := length_sizedData bytes
  rcases decode_sweep hProgram with ⟨s, hSweep, _⟩
  have hSwept := swept_of_sweep hLength _ 0 s hSweep
  have hUnknown := unknown_slot_iff hLength hSwept
  rw [hAfter]
  constructor
  · rintro ⟨s', hSweep', hReports⟩ k hIn hListed
    rw [hSweep, Option.some.injEq] at hSweep'
    rw [← hSweep'] at hReports
    by_contra hNot
    have hFlag :=
      hReports.flagged.mpr
        (hUnknown.mpr ⟨k, hIn, hListed, hNot⟩)
    exact Bool.false_ne_true hFlag
  · intro hAll
    have hNone : ¬ ∃ d ∈ s.slots, d.fmt = .Unknown := by
      rw [hUnknown]
      rintro ⟨k, hIn, hListed, hNot⟩
      exact hNot (hAll k hIn hListed)
    refine ⟨s, hSweep, ?_, (events_eq_nil hNone).symm⟩
    constructor
    · intro hFlag
      cases hFlag
    · exact fun hSome => absurd hSome hNone

/- A decoder that kept an error, and a program without one. -/
theorem loopBytes_reports :
    ∃ p after s,
      decodeIn { errors := [truncatedText 0] } loopBytes
          .VertexB = some (p, after) ∧
        sweep (sizedData loopBytes)
            ((sizedData loopBytes).length + 1) 0 = some s ∧
          Reports (sizedData loopBytes) s after := by
  rcases Option.isSome_iff_exists.mp
    (decode_isSome loopBytes .VertexB (by decide)) with
    ⟨p, hProgram⟩
  have hDecode :
      decodeIn { errors := [truncatedText 0] } loopBytes
        .VertexB = some (p, {}) := by
    rw [decodeIn_eq, hProgram, Option.map_some]
  have hReports := (reports_iff hDecode).mpr (by
    intro k hIn _
    have hK : k = 0 ∨ k = 1 ∨ k = 2 := by
      have : 8 * k < 24 := hIn
      omega
    rcases hK with hK | hK | hK <;> subst hK <;>
      decide)
  rcases hReports with ⟨s, hSweep, hReports⟩
  exact ⟨p, {}, s, hDecode, hSweep, hReports⟩

instance (data : List U8) (s : Sweep) (dec : Decoder) :
    Decidable (Reports data s dec) :=
  decidable_of_iff
    ((dec.hasErrors ↔ ∃ d ∈ s.slots, d.fmt = .Unknown) ∧
      dec.errors = events data s)
    ⟨fun h => ⟨h.1, h.2⟩, fun h => ⟨h.flagged, h.messages⟩⟩

/- Half a word: its error is lost. -/
theorem truncated_not_reported :
    ∃ q ∈ decodeIn {} [1, 0, 0, 0] .VertexB,
      ∃ s ∈ sweep [1, 0, 0, 0] 5 0,
        ¬ Reports [1, 0, 0, 0] s q.2 := by
  decide

end MaxwellDecoder

end M1Switch
