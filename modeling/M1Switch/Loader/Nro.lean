import M1Switch.Loader.Nro.Image

/-
  Loading an NRO from a buffer.

  The header and the dynamic section are read, the file is
  patched if the data has to move, the segments are mapped and
  copied, and what is patched in memory comes last.

  Key definitions include:
    * `NroLoadInfo`
    * `loadFromBuffer`

  Main results:
    * `stable_loadFromBuffer`
-/

------
-- Loading
------

namespace M1Switch

structure NroSegment where
  fileOffset : U64
  size : U64
  guestAddress : U64
  perm : Permission
deriving DecidableEq

structure NroLoadInfo where
  segments : List NroSegment := []
  entryPoint : U64 := 0
  bssAddress : U64 := 0
  bssSize : U64 := 0
  buildId : List Char := []
deriving DecidableEq

/- What the loader depends on: which ranges the host maps, none
of them empty, and which fixed addresses it has for thread-local
storage. -/
structure NroHost where
  maps : U64 → U64 → Bool
  mmap : U64 → Bool
  not_maps_empty : ∀ address, maps address 0 = false

namespace NroLoader

open NroGuest (pointer)

/- The segments, as they are recorded. -/
def segments (header : NroPackedHeader) : List NroSegment :=
  (if header.textSize > 0 then
    [{ fileOffset := header.textStart.setWidth 64
       size := header.textSize.setWidth 64
       guestAddress := NRO_TEXT_BASE
       perm := .RX }]
  else []) ++
  (if header.rodataSize > 0 then
    [{ fileOffset := header.rodataStart.setWidth 64
       size := header.rodataSize.setWidth 64
       guestAddress := header.rodataAddr
       perm := .R }]
  else []) ++
  (if header.dataSize > 0 then
    [{ fileOffset := header.dataStart.setWidth 64
       size := header.dataSize.setWidth 64
       guestAddress := header.dataAddr
       perm := .RW }]
  else [])

def loadInfo (header : NroPackedHeader) : NroLoadInfo :=
  { segments := segments header
    entryPoint := NRO_TEXT_BASE
    bssAddress := header.bssAddr
    bssSize := header.bssSize.setWidth 64
    buildId := Bytes.hex header.buildId }

/- What a load leaves: the file, the guest, the information. -/
structure NroLoaded where
  buf : NroBuffer
  guest : NroGuest
  info : NroLoadInfo

/- What is patched in any title once the segments are mapped. -/
def patchImage
    (fuel : Nat)
    (host : NroHost)
    (header : NroPackedHeader)
    (dyn : DynInfo)
    (buf : NroBuffer)
    (g : NroGuest) : LoadRun NroGuest := do
  let g ←
    g.patchCode host.mmap (pointer NRO_TEXT_BASE)
      (header.textSize.setWidth 64)
  let g ← relocate header dyn fuel buf g
  patchCrt0 header g

/- Load a file whose header has been read. -/
def loadImage
    (fuel : Nat)
    (host : NroHost)
    (header : NroPackedHeader)
    (buf : NroBuffer)
    (g : NroGuest) : LoadRun (Result × NroLoaded) := do
  let mod0Off ← findMod0 fuel buf header
  let dynOff ← readDynOff buf mod0Off
  let dyn ← parseDynamic fuel buf mod0Off dynOff
  let buf ← patchFile fuel buf header mod0Off dynOff dyn
  let mapped ← mapSegments host.maps header buf g
  if mapped.1 ≠ .Success then
    pure
      (mapped.1,
        { buf := buf
          guest := mapped.2
          info := { buildId := Bytes.hex header.buildId } })
  else do
    let g ← patchImage fuel host header dyn buf mapped.2
    let g ← patchTitle header g
    pure
      (.Success,
        { buf := buf
          guest := g
          info := loadInfo header })

def loadFromBuffer
    (fuel : Nat)
    (host : NroHost)
    (buf : NroBuffer)
    (mem : HostMemory)
    (exec : NativeExec) : LoadRun (Result × NroLoaded) := do
  let g : NroGuest := { mem := mem, exec := exec }
  let header ← parseHeader buf
  match header with
  | none =>
      pure
        (.InvalidArgument, { buf := buf, guest := g, info := {} })
  | some header => loadImage fuel host header buf g

------
-- The Stages of a Load
------

variable {host : NroHost} {header : NroPackedHeader}
variable {dyn : DynInfo} {buf : NroBuffer} {g : NroGuest}

theorem stable_relocate :
    Logged.Stable fun fuel => relocate header dyn fuel buf g := by
  unfold relocate
  exact
    Logged.stable_ite (Logged.stable_loop _ _)
      (Logged.stable_const _)

theorem stable_patchImage :
    Logged.Stable fun fuel =>
      patchImage fuel host header dyn buf g := by
  unfold patchImage
  apply Logged.stable_bind (Logged.stable_const _)
  intro g
  exact
    Logged.stable_bind stable_relocate
      fun _ => Logged.stable_const _

theorem stable_loadImage :
    Logged.Stable fun fuel =>
      loadImage fuel host header buf g := by
  unfold loadImage
  apply Logged.stable_bind stable_findMod0
  intro mod0Off
  apply Logged.stable_bind (Logged.stable_const _)
  intro dynOff
  apply Logged.stable_bind (stable_parseDynamic _ _)
  intro dyn
  apply Logged.stable_bind (stable_patchFile _ _ _)
  intro buf
  apply Logged.stable_bind (Logged.stable_const _)
  intro mapped
  apply Logged.stable_ite (Logged.stable_const _)
  apply Logged.stable_bind stable_patchImage
  intro g
  exact
    Logged.stable_bind (Logged.stable_const _)
      fun _ => Logged.stable_const _

/- A load that returns does so with any more allowance too. -/
theorem stable_loadFromBuffer
    (mem : HostMemory)
    (exec : NativeExec) :
    Logged.Stable fun fuel =>
      loadFromBuffer fuel host buf mem exec := by
  unfold loadFromBuffer
  apply Logged.stable_bind (Logged.stable_const _)
  intro header?
  cases header? with
  | none => exact Logged.stable_const _
  | some header => exact stable_loadImage

/- What is known of a file once its dynamic section is read. -/
structure Parsed
    (buf : NroBuffer)
    (header : NroPackedHeader)
    (mod0Off dynOff : U32)
    (dyn : DynInfo) : Prop where
  search :
    ∃ fuel, (findMod0 fuel buf header).value = some mod0Off
  offset : (readDynOff buf mod0Off).value = some dynOff
  section_ :
    ∃ fuel,
      (parseDynamic fuel buf mod0Off dynOff).value = some dyn

/- It is known once and for all. -/
theorem Parsed.unique
    {mod0Off mod0Off' dynOff dynOff' : U32}
    {dyn' : DynInfo}
    (hParsed : Parsed buf header mod0Off dynOff dyn)
    (hParsed' : Parsed buf header mod0Off' dynOff' dyn') :
    mod0Off = mod0Off' ∧ dynOff = dynOff' ∧ dyn = dyn' := by
  rcases hParsed with ⟨⟨f₁, h₁⟩, hOff, ⟨f₂, h₂⟩⟩
  rcases hParsed' with ⟨⟨f₁', h₁'⟩, hOff', ⟨f₂', h₂'⟩⟩
  have hMod0 := stable_findMod0.value_unique h₁ h₁'
  subst hMod0
  rw [hOff, Option.some.injEq] at hOff'
  subst hOff'
  exact
    ⟨rfl, rfl, (stable_parseDynamic _ _).value_unique h₂ h₂'⟩

/- The file as it is copied. -/
def Patched
    (buf : NroBuffer)
    (header : NroPackedHeader)
    (mod0Off dynOff : U32)
    (dyn : DynInfo)
    (buf' : NroBuffer) : Prop :=
  ∃ fuel,
    (patchFile fuel buf header mod0Off dynOff dyn).value =
      some buf'

end NroLoader

------
-- Small Files
------

/- A host that maps whatever it is asked for. -/
def NroHost.willing : NroHost :=
  { maps := fun _ size => size ≠ 0
    mmap := fun _ => true
    not_maps_empty := fun _ => rfl }

/- A file with a header, and zeros. -/
def NroBuffer.ofHeader
    (size : U64)
    (hSize : size.toNat < 2 ^ 63)
    (words : List U32) : NroBuffer :=
  { bytes :=
      Bytes.store (fun _ => 0) 0x10 (Bytes.ofWords words)
    size := size
    size_lt := hSize }

/- The words of a header. -/
def NroLoader.headerWords
    (textStart textSize rodataStart rodataSize dataStart dataSize
      bssSize : U32) : List U32 :=
  [NroLoader.NRO0_MAGIC, 0, 0, 0, textStart, textSize,
    rodataStart, rodataSize, dataStart, dataSize, bssSize, 0]

end M1Switch
