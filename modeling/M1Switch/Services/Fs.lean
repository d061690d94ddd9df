import M1Switch.Loader.RomFs
import M1Switch.Services.Ipc

/-
  The file system service of src/services/Fs.cpp.

  Open files and directories are entries of a table, each with
  the bytes it was opened with.  Files come from the RomFS of
  the loaded program.  A span handed to the service is taken
  to live as long as the tables parsed from it.

  What C++ leaves undefined ends a command with `Stop.outside`,
  as in the RomFS reader.

  Key definitions include:
    * `FileTable`
    * `normalizePath`
-/

------
-- Open Files
------

namespace M1Switch

/- What the service says a path is. -/
inductive FsEntryType where
  | directory
  | file
deriving DecidableEq

namespace FsEntryType

def toU32 : FsEntryType → U32
  | .directory => 0
  | .file => 1

end FsEntryType

namespace FileTable

/- A file with its bytes, or a directory with its names and
how many of them were read. -/
structure Entry where
  data : List U8 := []
  pos : U64 := 0
  dir : Bool := false
  dirEntries : List (List U8) := []
deriving DecidableEq

end FileTable

structure FileTable where
  entries : U32 → Option FileTable.Entry := fun _ => none
  nextFd : U32 := 0x1000

namespace FileTable

/- Enter an entry under the next number. -/
def enter
    (table : FileTable)
    (e : Entry) : U32 × FileTable :=
  (table.nextFd,
    { entries := fun fd =>
        if fd = table.nextFd then some e else table.entries fd
      nextFd := table.nextFd + 1 })

def open_
    (table : FileTable)
    (data : List U8) : U32 × FileTable :=
  table.enter { data := data }

def openDir
    (table : FileTable)
    (names : List (List U8)) : U32 × FileTable :=
  table.enter
    { dir := true
      dirEntries := names }

/- Change the position of an entry. -/
def setPos
    (table : FileTable)
    (fd : U32)
    (pos : U64) : FileTable :=
  { table with
    entries := fun k =>
      if k = fd then
        (table.entries k).map fun e => { e with pos := pos }
      else table.entries k }

def close
    (table : FileTable)
    (fd : U32) : FileTable :=
  { table with
    entries := fun k =>
      if k = fd then none else table.entries k }

end FileTable

/- The open files, and the RomFS with its raw bytes. -/
structure FsService where
  table : FileTable := {}
  romfs : RomFs := {}
  romfsLoaded : Bool := false
  romfsRawData : List U8 := []

------
-- Paths
------

namespace FsService

open RomFs (SLASH Stop)

/- "romfs:" -/
def MOUNT : List U8 := [0x72, 0x6F, 0x6D, 0x66, 0x73, 0x3A]

/- "data" and "contents" -/
def ROOT_NAMES : List (List U8) :=
  [[0x64, 0x61, 0x74, 0x61],
    [0x63, 0x6F, 0x6E, 0x74, 0x65, 0x6E, 0x74, 0x73]]

/- A path behind its length; empty where it does not fit. -/
def readPath
    (rawIn : List U8)
    (off : Nat) : List U8 :=
  if rawIn.length < off + 4 then []
  else
    let len :=
      (Bytes.word (fun i => rawIn.getD i 0) off).toNat
    if len = 0 ∨ rawIn.length < off + 4 + len then []
    else (rawIn.drop (off + 4)).take len

/- The path is behind eight bytes, or at the start. -/
def requestPath (rawIn : List U8) : List U8 :=
  let path := readPath rawIn 8
  if path = [] then readPath rawIn 0 else path

def dropSlashes (p : List U8) : List U8 :=
  p.dropWhile fun c => decide (c = SLASH)

def dropMount (p : List U8) : List U8 :=
  if MOUNT <+: p then p.drop 6 else p

/- Slashes in front go, the mount name, and slashes again. -/
def normalizePath (path : List U8) : List U8 :=
  dropSlashes (dropMount (dropSlashes path))

------
-- Opening
------

/- The number of an entry, in eight bytes. -/
def writeHandle
    (call : ServiceCall)
    (fd : U32) : ServiceReply :=
  call.replyBytes (Bytes.ofLong (fd.setWidth 64))

/- A file opened, with its number put out. -/
def openData
    (fs : FsService)
    (call : ServiceCall)
    (data : List U8) : FsService × ServiceReply :=
  let opened := fs.table.open_ data
  ({ fs with table := opened.2 }, writeHandle call opened.1)

/- Without a RomFS, one of a single byte takes its place. -/
def handleOpenRomFS
    (fs : FsService)
    (call : ServiceCall) : FsService × ServiceReply :=
  if fs.romfsLoaded then fs.openData call fs.romfsRawData
  else
    let fs :=
      { fs with
        romfsRawData := [0]
        romfsLoaded := true }
    fs.openData call fs.romfsRawData

/- The bytes of a file there is. -/
def findFile
    (resizes : Nat → Bool)
    (fs : FsService)
    (norm : List U8) : Except Stop (Option (List U8)) :=
  if !fs.romfsLoaded ∨ norm = [] then .ok none
  else do
    if ← fs.romfs.exists_ norm then
      fs.romfs.readFile resizes norm
    else return none

def handleOpenFile
    (resizes : Nat → Bool)
    (fs : FsService)
    (call : ServiceCall) :
    Except Stop (FsService × ServiceReply) := do
  let norm := normalizePath (requestPath call.rawIn)
  match ← findFile resizes fs norm with
  | none => return (fs, {})
  | some data => return fs.openData call data

/- Only the root has names, always the same. -/
def handleOpenDirectory
    (fs : FsService)
    (call : ServiceCall) : FsService × ServiceReply :=
  let norm := normalizePath (requestPath call.rawIn)
  let names :=
    if norm = [] ∨ norm = [SLASH] then ROOT_NAMES else []
  let opened := fs.table.openDir names
  ({ fs with table := opened.2 }, writeHandle call opened.1)

def handleOpenDataFile
    (fs : FsService)
    (call : ServiceCall) : FsService × ServiceReply :=
  if fs.romfsLoaded then fs.openData call fs.romfsRawData
  else fs.openData call []

/- A file that is not there is opened empty. -/
def handleOpenSaveDataFile
    (resizes : Nat → Bool)
    (fs : FsService)
    (call : ServiceCall) :
    Except Stop (FsService × ServiceReply) := do
  let norm := normalizePath (readPath call.rawIn 8)
  match ← findFile resizes fs norm with
  | none => return fs.openData call []
  | some data => return fs.openData call data

------
-- Asking and Reading
------

def entryType
    (fs : FsService)
    (norm : List U8) : Except Stop FsEntryType :=
  if norm = [] ∨ norm = [SLASH] then .ok .directory
  else if fs.romfsLoaded then do
    if ← fs.romfs.exists_ norm then return .file
    else return .directory
  else .ok .directory

def handleGetEntryType
    (fs : FsService)
    (call : ServiceCall) :
    Except Stop (FsService × ServiceReply) := do
  let norm := normalizePath (requestPath call.rawIn)
  let type ← fs.entryType norm
  return (fs, call.replyBytes (Bytes.ofWord type.toU32))

/- How many bytes there are, as the source counts them. -/
def size64 (data : List U8) : U64 :=
  BitVec.ofNat 64 data.length

def handleGetSize
    (fs : FsService)
    (call : ServiceCall) : ServiceReply :=
  match fs.table.entries call.firstU32 with
  | some e => call.replyBytes (Bytes.ofLong (size64 e.data))
  | none => call.replyBytes (Bytes.ofLong 0)

/- The next name of a directory; the name after it is next
even where there was no room for this one. -/
def readDir
    (fs : FsService)
    (call : ServiceCall)
    (fd : U32)
    (e : FileTable.Entry) : FsService × ServiceReply :=
  let cursor : U32 := e.pos.extractLsb' 0 32
  match e.dirEntries[cursor.toNat]? with
  | some name =>
      ({ fs with
          table :=
            fs.table.setPos fd ((cursor + 1).setWidth 64) },
        call.replyBytes (Bytes.ofLong (size64 name) ++ name))
  | none => (fs, {})

/- How many bytes a read asks for. -/
def readCount
    (data : List U8)
    (offset size : U64) : U64 :=
  if size64 data < offset + size then size64 data - offset
  else size

/- No byte is touched where none is asked for. -/
def copyOut
    (data : List U8)
    (offset actual : U64) : Except Stop (List U8) :=
  if 0 < actual then
    RomFs.copy data offset.toNat actual.toNat
  else .ok []

/- Bytes of a file behind their number, if there is room. -/
def readData
    (call : ServiceCall)
    (data : List U8)
    (offset size : U64) : Except Stop ServiceReply :=
  let actual := readCount data offset size
  if (8 + actual).toNat ≤ call.outMax then do
    let bytes ← copyOut data offset actual
    pure
      { written := Bytes.ofLong actual ++ bytes
        outSize := (8 + actual).toNat }
  else .ok { outSize := call.outMax }

def handleRead
    (fs : FsService)
    (call : ServiceCall) :
    Except Stop (FsService × ServiceReply) :=
  if call.rawIn.length < 20 then
    .ok (fs, { handled := false, outSize := call.outMax })
  else
    let fd := call.readU32 0
    let offset := call.readU32 12 ++ call.readU32 8
    let size := (call.readU32 16).setWidth 64
    match fs.table.entries fd with
    | none => .ok (fs, {})
    | some e =>
        if e.dir then .ok (fs.readDir call fd e)
        else do
          let reply ← readData call e.data offset size
          return (fs, reply)

def handleClose
    (fs : FsService)
    (call : ServiceCall) : FsService × ServiceReply :=
  ({ fs with table := fs.table.close call.firstU32 }, {})

------
-- Commands
------

inductive Cmd where
  | openRomFS
  | openFile
  | openDirectory
  | getEntryType
  | getSize
  | read
  | close
  | openDataFileByCurrent
  | openSaveDataFile
  | other
deriving DecidableEq

/- The other commands, known or not, do nothing. -/
def cmd (cmdId : U32) : Cmd :=
  if cmdId = 0x04020002 then .openRomFS
  else if cmdId = 0x08020000 then .openFile
  else if cmdId = 0x08030000 then .openDirectory
  else if cmdId = 0x04050000 then .getEntryType
  else if cmdId = 0x0404000A then .getSize
  else if cmdId = 0x04060002 then .read
  else if cmdId = 0x04080000 then .close
  else if cmdId = 0x08020001 then .openDataFileByCurrent
  else if cmdId = 0x08020002 then .openSaveDataFile
  else .other

def handleCommand
    (resizes : Nat → Bool)
    (fs : FsService)
    (call : ServiceCall) :
    Except Stop (FsService × ServiceReply) :=
  match cmd call.cmdId with
  | .openRomFS => .ok (fs.handleOpenRomFS call)
  | .openFile => handleOpenFile resizes fs call
  | .openDirectory => .ok (fs.handleOpenDirectory call)
  | .getEntryType => fs.handleGetEntryType call
  | .getSize => .ok (fs, fs.handleGetSize call)
  | .read => fs.handleRead call
  | .close => .ok (fs.handleClose call)
  | .openDataFileByCurrent => .ok (fs.handleOpenDataFile call)
  | .openSaveDataFile =>
      handleOpenSaveDataFile resizes fs call
  | .other => .ok (fs, {})

/- The replies to commands, one after the other. -/
def replies
    (resizes : Nat → Bool) :
    FsService → List ServiceCall →
      Except Stop (List ServiceReply)
  | _, [] => .ok []
  | fs, call :: calls => do
      let (fs, reply) ← handleCommand resizes fs call
      let rest ← replies resizes fs calls
      return reply :: rest

/-
  A RomFS from the loader.  The raw bytes are kept, and the
  tables are the parser's, whether it comes to an end or not.
-/
def setRomFS
    (fs : FsService)
    (data : List U8)
    (fuel : Nat) : Except Stop FsService := do
  let (parsed, romfs) ← fs.romfs.parse data fuel
  pure
    { fs with
      romfs := romfs
      romfsLoaded := parsed || fs.romfsLoaded
      romfsRawData := data }

end FsService

end M1Switch
