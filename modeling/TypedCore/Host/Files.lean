import TypedCore.Host.Call
import TypedCore.Host.FileData
import TypedCore.Host.FileError
import TypedCore.Text.Utf8

/-!
# A host in memory

A host that keeps its files in memory: directories, files with several
names, and the descriptors of one process. It knows no other process and no
terminal, and its clock stands still: a run on it can be repeated. The
process owns all files and has no other privilege, so the permissions of the
owner bind it.

Files and directories are numbered nodes, and a name in a directory leads
to a node; a file that lost its last name lives on in the descriptors that
are open on it.
-/

namespace TypedCore

abbrev FileName := List Byte

/-- What a node holds. -/
inductive FileContent where
  | file (data : FileData)
  /-- The names in a directory, and the directory that it lies in. -/
  | directory (entries : List (FileName × Nat)) (parent : Nat)

/-- What the owner of a file may be allowed to do. -/
inductive FileRight where
  | read
  | write
  /-- To look up names in a directory. -/
  | search
  deriving DecidableEq, Repr

/-- The bit of a right among the permissions. -/
def FileRight.bit : FileRight → Nat
  | read => 8
  | write => 7
  | search => 6

/-- A file or a directory with its permissions. -/
structure FileNode where
  content : FileContent
  mode : Nat

namespace FileNode

def isDirectory (n : FileNode) : Bool :=
  match n.content with
  | .directory .. => true
  | .file _ => false

/-- The contents of a file; a directory has none. -/
def data (n : FileNode) : FileData :=
  match n.content with
  | .file data => data
  | .directory .. => {}

def bytes (n : FileNode) : List Byte := Text.ofByteArray n.data.toByteArray

def setData (n : FileNode) (data : FileData) : FileNode :=
  match n.content with
  | .file _ => { n with content := .file data }
  | .directory .. => n

/-- The names in a directory; a file has none. -/
def entries (n : FileNode) : List (FileName × Nat) :=
  match n.content with
  | .directory entries _ => entries
  | .file _ => []

def setEntries (n : FileNode) (entries : List (FileName × Nat)) : FileNode :=
  match n.content with
  | .directory _ parent => { n with content := .directory entries parent }
  | .file _ => n

def allows (n : FileNode) (right : FileRight) : Bool := n.mode.testBit right.bit

/-- Refuses what the owner has no right to. -/
def demand (n : FileNode) (right : FileRight) : Except FileError Unit :=
  if n.allows right then .ok () else .error .accessDenied

/-- Refuses a change of the names in a directory without the right to it. -/
def demandChange (n : FileNode) : Except FileError Unit := do
  n.demand .write
  n.demand .search

/-- The names in a directory, in order. The directory has to allow reading for that, and
searching if there are any names to follow. -/
def sortedEntries (n : FileNode) : Except FileError (List (FileName × Nat)) := do
  n.demand .read
  unless n.entries.isEmpty do n.demand .search
  return n.entries.mergeSort fun a b =>
    compare (a.1.map BitVec.toNat) (b.1.map BitVec.toNat) != .gt

end FileNode

/-- What moving the offset of a descriptor does. -/
inductive Seeking where
  /-- The offset moves. -/
  | free
  /-- There is nothing to move in, and the offset stays 0. -/
  | pinned
  /-- There is no offset. -/
  | refused
  deriving DecidableEq, Repr

/-- An open file. -/
structure Descriptor where
  node : Nat
  offset : Nat := 0
  readable : Bool
  writable : Bool
  /-- Whether each write goes to the end of the file. -/
  append : Bool := false
  seeking : Seeking := .free
  deriving DecidableEq, Repr

/-- The files, the current directory and the descriptors. -/
structure FileHost where
  nodes : Array FileNode
  current : Nat
  descriptors : Array (Option Descriptor)

namespace FileHost

/-! ## Nodes and names -/

def root : Nat := 0

/-- The node with a number; a number that is none counts as an empty file. -/
def node (h : FileHost) (n : Nat) : FileNode := h.nodes[n]?.getD ⟨.file {}, 0⟩

def setNode (h : FileHost) (n : Nat) (node : FileNode) : FileHost :=
  { h with nodes := h.nodes.setIfInBounds n node }

/-- Adds a node without a name, and tells its number. -/
def addNode (h : FileHost) (node : FileNode) : Nat × FileHost :=
  (h.nodes.size, { h with nodes := h.nodes.push node })

def addName (h : FileHost) (dir : Nat) (name : FileName) (n : Nat) : FileHost :=
  let d := h.node dir
  h.setNode dir (d.setEntries ((name, n) :: d.entries))

def removeName (h : FileHost) (dir : Nat) (name : FileName) : FileHost :=
  let d := h.node dir
  h.setNode dir (d.setEntries (d.entries.filter fun e => e.1 != name))

/-- The name of a directory in itself. -/
def hereName : FileName := [0x2e]

/-- The name of the directory above. -/
def aboveName : FileName := [0x2e, 0x2e]

/-- The longest name, and the longest path with its end. -/
def maxName : Nat := 255

def maxPath : Nat := 4096

def lookup (h : FileHost) (dir : Nat) (name : FileName) : Except FileError Nat := do
  match (h.node dir).content with
  | .file _ => throw .notADirectory
  | .directory entries parent =>
    (h.node dir).demand .search
    if name = hereName then return dir
    if name = aboveName then return parent
    if maxName < name.length then throw .nameTooLong
    match entries.lookup name with
    | some n => return n
    | none => throw .notFound

/-! ## Paths -/

/-- A path, cut at the slashes. -/
structure FilePath where
  /-- Whether the path starts at the topmost directory. -/
  absolute : Bool
  /-- The names to follow before the last one. -/
  leading : List FileName
  /-- The last name; a path of slashes alone has none. -/
  last : Option FileName
  /-- Whether a slash follows the last name, which is then to be a directory. -/
  closed : Bool
  deriving DecidableEq, Repr

def slash : Byte := 0x2f

def cutPath (path : List Byte) : Except FileError FilePath :=
  if path = [] then .error .notFound
  else if maxPath ≤ path.length then .error .nameTooLong
  else
    let names := (path.splitOn slash).filter (· ≠ [])
    .ok ⟨path.head? == some slash, names.dropLast, names.getLast?, path.getLast? == some slash⟩

/-- The directory that the last name of a path is looked up in. If there is a last name,
the directory has to allow that before the name itself is looked at. -/
def lastDirectory (h : FileHost) (path : FilePath) : Except FileError Nat := do
  let start := if path.absolute then root else h.current
  let dir ← path.leading.foldlM h.lookup start
  unless (h.node dir).isDirectory do throw .notADirectory
  if path.last.isSome then (h.node dir).demand .search
  return dir

def resolve (h : FileHost) (path : List Byte) : Except FileError Nat := do
  let path ← cutPath path
  let dir ← h.lastDirectory path
  match path.last with
  | none => return dir
  | some name =>
    let n ← h.lookup dir name
    if path.closed && !(h.node n).isDirectory then throw .notADirectory
    return n

/-- Whether a last name is one that can be made or taken away. -/
def isProper (name : Option FileName) : Bool :=
  match name with
  | none => false
  | some name => name ≠ hereName && name ≠ aboveName

/-! ## Descriptors -/

def descriptor (h : FileHost) (fd : Int) : Except FileError Descriptor :=
  if fd < 0 then .error .badDescriptor
  else
    match h.descriptors[fd.toNat]? with
    | some (some d) => .ok d
    | _ => .error .badDescriptor

def setDescriptor (h : FileHost) (fd : Int) (d : Option Descriptor) : FileHost :=
  { h with descriptors := h.descriptors.setIfInBounds fd.toNat d }

/-- Opens the lowest free descriptor. -/
def addDescriptor (h : FileHost) (d : Descriptor) : Int × FileHost :=
  match h.descriptors.findIdx? Option.isNone with
  | some fd => (fd, h.setDescriptor fd (some d))
  | none => (h.descriptors.size, { h with descriptors := h.descriptors.push (some d) })

/-! ## Opening -/

/-- The flags of `open`, told apart. -/
structure OpenFlags where
  readable : Bool
  writable : Bool
  /-- Whether the access as such needs the right to read. -/
  asksToRead : Bool
  /-- Whether the access as such needs the right to write. -/
  asksToWrite : Bool
  create : Bool
  exclusive : Bool
  truncate : Bool
  append : Bool
  directory : Bool

/-- Tells the flags apart. Reading and writing together is an access of its own; both
bits at once need both rights and give neither. -/
def OpenFlags.ofBits (bits : Nat) : OpenFlags where
  readable := bits % 4 == 0 || bits % 4 == 2
  writable := bits % 4 == 1 || bits % 4 == 2
  asksToRead := bits % 4 != 1
  asksToWrite := bits % 4 != 0 || bits.testBit 9
  create := bits.testBit 6
  exclusive := bits.testBit 7
  truncate := bits.testBit 9
  append := bits.testBit 10
  directory := bits.testBit 16

/-- The permissions that new files do not get. -/
def umask : Nat := 0o022

/-- The bits that are permissions. -/
def permissionBits : Nat := 0o777

/-- The permissions of a new file. -/
def newMode (mode : Word) : Nat := mode.toNat &&& permissionBits &&& (permissionBits ^^^ umask)

/-- Opens a descriptor on a node. -/
def openNode (h : FileHost) (n : Nat) (flags : OpenFlags) : Int × FileHost :=
  h.addDescriptor
    { node := n, readable := flags.readable, writable := flags.writable, append := flags.append }

/-- Opens a node that exists. -/
def openExisting (h : FileHost) (n : Nat) (flags : OpenFlags) (closed : Bool) :
    Except FileError (Int × FileHost) := do
  if flags.create && flags.exclusive then throw .exists
  let node := h.node n
  if node.isDirectory then
    if flags.create || flags.asksToWrite then throw .isADirectory
  else
    if closed || flags.directory then throw .notADirectory
  if flags.asksToRead then node.demand .read
  if flags.asksToWrite then node.demand .write
  let h := if flags.truncate then h.setNode n (node.setData {}) else h
  return h.openNode n flags

/-- Opens a file, and makes it first if that is asked for. A directory cannot be asked
for and made at once. -/
def openFile (h : FileHost) (path : List Byte) (bits : Nat) (mode : Word) :
    Except FileError (Int × FileHost) := do
  let flags := OpenFlags.ofBits bits
  if flags.create && flags.directory then throw .invalid
  let path ← cutPath path
  let dir ← h.lastDirectory path
  match path.last with
  | none => h.openExisting dir flags path.closed
  | some name =>
    if flags.create && isProper path.last && path.closed then throw .isADirectory
    match h.lookup dir name with
    | .ok n => h.openExisting n flags path.closed
    | .error .notFound =>
      unless flags.create do throw .notFound
      (h.node dir).demandChange
      let (n, h) := h.addNode ⟨.file {}, newMode mode⟩
      return (h.addName dir name n).openNode n flags
    | .error e => throw e

/-! ## Reading and writing -/

def readFile (h : FileHost) (fd : Int) (len : Nat) : Except FileError (List Byte × FileHost) := do
  let d ← h.descriptor fd
  unless d.readable do throw .badDescriptor
  if (h.node d.node).isDirectory then throw .isADirectory
  let data := (h.node d.node).data.read d.offset len
  return (Text.ofByteArray data, h.setDescriptor fd (some { d with offset := d.offset + data.size }))

def writeFile (h : FileHost) (fd : Int) (new : List Byte) : Except FileError (Int × FileHost) := do
  let d ← h.descriptor fd
  unless d.writable do throw .badDescriptor
  if new = [] then return (0, h)
  let old := h.node d.node
  let offset := if d.append then old.data.size else d.offset
  let h := h.setNode d.node (old.setData (old.data.write offset (Text.toByteArray new)))
  return (new.length, h.setDescriptor fd (some { d with offset := offset + new.length }))

def maxOffset : Nat := 0x7fffffffffffffff

/-- The offsets that can be searched for in a file. -/
structure SeekPlaces where
  /-- The end of the file. -/
  last : Nat
  nextData? : Nat → Option Nat
  nextHole? : Nat → Option Nat

/-- The places in contents. -/
def SeekPlaces.ofData (data : FileData) : SeekPlaces :=
  ⟨data.size, data.nextData?, data.nextHole?⟩

/-- The places in a directory, which has no end that a program could reach. -/
def SeekPlaces.directory : SeekPlaces := ⟨maxOffset, some, fun _ => some maxOffset⟩

/-- Where an offset moves to: from the start, from where it is, or from the end, or to
the next data or the next hole. -/
def seekTarget (current : Nat) (places : SeekPlaces) (offset whence : Int) :
    Except FileError Nat := do
  let found (place : Option Nat) : Except FileError Int :=
    match place with
    | some target => .ok target
    | none => .error .noSuchOffset
  let target : Int ←
    match whence with
    | 0 => pure offset
    | 1 => pure (current + offset)
    | 2 => pure (places.last + offset)
    | 3 => found (if offset < 0 then none else places.nextData? offset.toNat)
    | 4 => found (if offset < 0 then none else places.nextHole? offset.toNat)
    | _ => throw .invalid
  if target < 0 ∨ maxOffset < target then throw .invalid
  return target.toNat

/-- The ways to say where an offset moves to. -/
def seekModes : List Int := [0, 1, 2, 3, 4]

/-- Moves the offset of a descriptor. -/
def seek (h : FileHost) (fd offset whence : Int) : Except FileError (Int × FileHost) := do
  let d ← h.descriptor fd
  unless seekModes.contains whence do throw .invalid
  match d.seeking with
  | .free =>
    let places :=
      match (h.node d.node).content with
      | .file data => .ofData data
      | .directory .. => .directory
    let target ← seekTarget d.offset places offset whence
    return (target, h.setDescriptor fd (some { d with offset := target }))
  | .pinned => return (0, h)
  | .refused => throw .noSeek

/-! ## Names and permissions -/

def unlink (h : FileHost) (path : List Byte) : Except FileError FileHost := do
  let path ← cutPath path
  let dir ← h.lastDirectory path
  match path.last with
  | none => throw .isADirectory
  | some name =>
    unless isProper path.last do throw .isADirectory
    let isDirectory := (h.node (← h.lookup dir name)).isDirectory
    if path.closed then throw (if isDirectory then .isADirectory else .notADirectory)
    (h.node dir).demandChange
    if isDirectory then throw .isADirectory
    return h.removeName dir name

/-- Gives a file a second name. -/
def link (h : FileHost) (old new : List Byte) : Except FileError FileHost := do
  let n ← h.resolve old
  let path ← cutPath new
  let dir ← h.lastDirectory path
  match path.last with
  | none => throw .exists
  | some name =>
    match h.lookup dir name with
    | .ok _ => throw .exists
    | .error .notFound =>
      if path.closed then throw .notFound
      (h.node dir).demandChange
      if (h.node n).isDirectory then throw .notPermitted
      return h.addName dir name n
    | .error e => throw e

def changeDir (h : FileHost) (path : List Byte) : Except FileError FileHost := do
  let n ← h.resolve path
  unless (h.node n).isDirectory do throw .notADirectory
  (h.node n).demand .search
  return { h with current := n }

/-- Changes the permissions of a file or a directory. -/
def changeMode (h : FileHost) (path : List Byte) (mode : Word) : Except FileError FileHost := do
  let n ← h.resolve path
  return h.setNode n { h.node n with mode := mode.toNat &&& permissionBits }

/-! ## The host -/

/-- The answer to a request that may change the files. -/
def finish {α : Type} (h : FileHost) : Except FileError (α × FileHost) → Except Int α × FileHost
  | .ok (a, h) => (.ok a, h)
  | .error e => (.error e.number, h)

/-- The answer to a request that has no result but that it succeeds. -/
def finishUnit (h : FileHost) : Except FileError FileHost → Except Int Int × FileHost
  | .ok h => (.ok 0, h)
  | .error e => (.error e.number, h)

/-- The number of the only process. -/
def processId : Int := 1000

/-- The moment at which the clock stands, in seconds. -/
def now : Int := 1700000000

def answer (call : HostCall) (h : FileHost) : Except Int call.Answer × FileHost :=
  match call with
  | .openFile path flags mode => h.finish (h.openFile path flags mode)
  | .close fd => h.finish do
      let _ ← h.descriptor fd
      return (0, h.setDescriptor fd none)
  | .read fd len => h.finish (h.readFile fd len)
  | .write fd data => h.finish (h.writeFile fd data)
  | .seek fd offset whence => h.finish (h.seek fd offset whence)
  | .unlink path => h.finishUnit (h.unlink path)
  | .processId => (.ok processId, h)
  | .kill _ _ => (.error FileError.noProcess.number, h)
  | .changeDir path => h.finishUnit (h.changeDir path)
  | .changeMode path mode => h.finishUnit (h.changeMode path mode)
  | .time => (.ok now, h)
  | .link old new => h.finishUnit (h.link old new)
  | .isTerminal fd => h.finish do
      let _ ← h.descriptor fd
      throw .notATerminal

def host : Host FileHost := ⟨answer⟩

/-! ## Setting up and looking -/

/-- The permissions of a file that is there from the start. -/
def initialMode : Nat := 0o644

/-- The permissions of a directory that is there from the start. -/
def initialDirectoryMode : Nat := 0o755

/-- A host with an empty directory, and with descriptors 0, 1 and 2 open on three
files without names, the first of which has some bytes to read. -/
def ofInput (input : List Byte) : FileHost where
  nodes := #[⟨.directory [] root, initialDirectoryMode⟩,
    ⟨.file (.ofByteArray (Text.toByteArray input)), initialMode⟩,
    ⟨.file {}, initialMode⟩, ⟨.file {}, initialMode⟩]
  current := root
  descriptors := #[
    some { node := 1, readable := true, writable := false },
    some { node := 2, readable := true, writable := true },
    some { node := 3, readable := true, writable := true }]

/-- A host with an empty directory, whose input is empty and whose outputs only take
bytes in order. -/
def ofStreams : FileHost :=
  { ofInput [] with
    descriptors := #[
      some { node := 1, readable := true, writable := false, seeking := .pinned },
      some { node := 2, readable := false, writable := true, seeking := .refused },
      some { node := 3, readable := false, writable := true, seeking := .refused }] }

/-- Puts a file into the topmost directory, in place of one of that name. -/
def withFile (h : FileHost) (name : FileName) (data : List Byte) : FileHost :=
  let (n, h) := (h.removeName root name).addNode
    ⟨.file (.ofByteArray (Text.toByteArray data)), initialMode⟩
  h.addName root name n

/-- Puts an empty directory into the topmost directory. -/
def withDirectory (h : FileHost) (name : FileName) : FileHost :=
  let (n, h) := h.addNode ⟨.directory [] root, initialDirectoryMode⟩
  h.addName root name n

def contents (h : FileHost) (path : List Byte) : Except FileError (List Byte) := do
  let node := h.node (← h.resolve path)
  node.demand .read
  if node.isDirectory then throw .isADirectory
  return node.bytes

def output (h : FileHost) : List Byte := (h.node 2).bytes

def errorOutput (h : FileHost) : List Byte := (h.node 3).bytes

/-- The files below a directory, each with its path, contents and permissions, to a
given depth. -/
def filesBelow (h : FileHost) : (depth : Nat) → (above : FileName) → (dir : Nat) →
    Except FileError (List (FileName × List Byte × Nat))
  | 0, _, _ => return []
  | depth + 1, above, dir => do
    let found ← (← (h.node dir).sortedEntries).mapM fun (name, n) => do
      let node := h.node n
      if node.isDirectory then h.filesBelow depth (above ++ name ++ [slash]) n
      else
        node.demand .read
        return [(above ++ name, node.bytes, node.mode)]
    return found.flatten

/-- Every file with a name, if all of them can be found and read. No directory can be
made, so none lies deeper than the number of nodes. -/
def files (h : FileHost) : Except FileError (List (FileName × List Byte × Nat)) :=
  h.filesBelow (h.nodes.size + 1) [] root

end FileHost

end TypedCore
