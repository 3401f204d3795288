import Mathlib.Algebra.Group.Nat.Defs
import Mathlib.Data.Int.Notation
import Mathlib.Data.List.Basic
import Xmq.Outcomes

/-!
# Logging to files

`xmq_to_file` writes the messages of a topic to a file, through a gzip writer where it compresses,
and finishes them once the file is on disk. The router takes one event after another; what a system
call answers, and what the clock shows, comes with the event.

* A file is its bytes, of which a prefix is on disk: `Sync` makes the prefix all of them. What is
  written to a gzip writer stays in its buffer until it is closed.
* The paths of the files are left out, since any call may answer anything whatever the path is. Of
  the names there is the one that `needsRotation` compares.
* The history is what the process has done. The program does not read it.
-/

namespace Xmq.ToFile

open Outcomes

/-! ### The system -/

inductive OsError where
  | exist
  | notExist
  | invalid
  | closed
  | other (text : String)
  deriving DecidableEq

/-- A file, of which the first `durable` bytes are on disk. -/
structure File where
  bytes : List UInt8
  durable : ℕ
  deriving DecidableEq

namespace File

def empty : File := ⟨[], 0⟩

def append (p : List UInt8) (f : File) : File := { f with bytes := f.bytes ++ p }

def sync (f : File) : File := { f with durable := f.bytes.length }

/-- What is on disk. -/
def onDisk (f : File) : List UInt8 := f.bytes.take f.durable

end File

/-- What `OpenFile` has opened, by the number of the file. -/
structure Handle where
  file : ℕ
  closed : Bool
  deriving DecidableEq

/-- An `*os.File`: the number of a handle, or `nil`. -/
abbrev OsFile := Option ℕ

/-- A time, and what its `Format` makes of a layout. -/
structure Time where
  ns : ℤ
  format : String → String

/-- A message, numbered in order of arrival. -/
structure Message where
  number : ℕ
  body : List UInt8
  deriving DecidableEq

inductive Call where
  | write (handle : ℕ)
  | sync (handle : ℕ)
  | stat (handle : ℕ)
  | close (handle : ℕ)
  /-- The message and its newline have been written, the handle being on this file. -/
  | logged (m : Message) (file : ℕ)
  /-- `Finish`, and the files as they are then. -/
  | finish (m : Message) (files : List File)
  deriving DecidableEq

/-! ### The state -/

structure Options where
  maxInFlight : ℕ
  outputDir : String
  workDir : String
  datetimeFormat : String
  gzipLevel : ℤ
  gzip : Bool
  skipEmptyFiles : Bool
  rotateSize : ℤ
  rotateInterval : ℤ

structure GzipWriter where
  out : OsFile
  buffer : List UInt8
  closed : Bool

/-- What `f.writer` holds: a file, or what `f.gzipWriter` is. -/
inductive Writer where
  | file (out : OsFile)
  | gzip

structure FileLogger where
  out : OsFile
  writer : Option Writer
  gzipWriter : Option GzipWriter
  filenameFormat : String
  filename : String
  openTime : Time
  filesize : ℤ
  rev : ℕ

structure State extends FileLogger where
  files : List File
  handles : List Handle
  history : List Call
  arrived : ℕ

/-- How the process ends before the router returns. -/
inductive Ending where
  /-- `Fatalf` and `os.Exit`. -/
  | exit
  /-- A loop that is not left. -/
  | hangs
  | indexOutOfRange
  | nilPointer
  deriving DecidableEq

abbrev Prog := EStateM Ending State

def State.record (c : Call) (s : State) : State := { s with history := s.history ++ [c] }

/-- The handle behind an `*os.File`. -/
def State.handle (s : State) (out : OsFile) : Option Handle := out.bind (s.handles[·]?)

def fileAt (files : List File) (i : ℕ) : File := files[i]?.getD .empty

/-- The file of a handle. -/
def State.fileOf (s : State) (out : OsFile) : ℕ := (s.handle out).elim 0 Handle.file

/-! ### System calls -/

/-- An operation on an open file: the error that the system answers with, or the effect. -/
def operate (call : ℕ → Call) (effect : ℕ → ℕ → State → State) (out : OsFile)
    (err : Option OsError) :
    Prog (Option OsError) := fun s =>
  match out with
  | none => .ok (some .invalid) s
  | some h =>
    match s.handles[h]? with
    | none => .ok (some .invalid) (s.record (call h))
    | some handle =>
      if handle.closed then .ok (some .closed) (s.record (call h))
      else
        match err with
        | some err => .ok (some err) (s.record (call h))
        | none => .ok none (effect h handle.file (s.record (call h)))

def osWrite (out : OsFile) (p : List UInt8) : Option OsError → Prog (Option OsError) :=
  operate .write (fun _ i s => { s with files := s.files.modify i (File.append p) }) out

def osSync : OsFile → Option OsError → Prog (Option OsError) :=
  operate .sync fun _ i s => { s with files := s.files.modify i File.sync }

def osStat : OsFile → Option OsError → Prog (Option OsError) := operate .stat fun _ _ s => s

def osClose : OsFile → Option OsError → Prog (Option OsError) :=
  operate .close fun h _ s => { s with handles := s.handles.modify h ({ · with closed := true }) }

/-- The handle that a successful `OpenFile` makes. -/
def State.opened (s : State) (i : ℕ) : State :=
  { s with out := some s.handles.length, handles := s.handles ++ [⟨i, false⟩] }

/-- `f.out, err = os.OpenFile`, with or without `O_EXCL`. The system names the file that is there; a
number without a file means that there is none. -/
def openFile (excl : Bool) (answer : Except OsError ℕ) : Prog (Option OsError) := fun s =>
  match answer with
  | .error err => .ok (some err) { s with out := none }
  | .ok i =>
    if i < s.files.length then
      if excl then .ok (some .exist) { s with out := none }
      else .ok none (s.opened i)
    else .ok none { s.opened s.files.length with files := s.files ++ [.empty] }

/-- `Fatalf` and `os.Exit`, if there is an error. -/
def fatal : Option OsError → Prog Unit
  | none => pure ()
  | some _ => throw .exit

/-! ### The gzip writer -/

def newWriterLevel (out : OsFile) (level : ℤ) : Option GzipWriter :=
  if -2 ≤ level ∧ level ≤ 9 then some ⟨out, [], false⟩ else none

/-- `Write`. Nothing is said of a writer that is closed: it answers anything and keeps nothing. -/
def gzipWrite (p : List UInt8) (err : Option OsError) : Prog (Option OsError) := fun s =>
  match s.gzipWriter with
  | none => .error .nilPointer s
  | some z =>
    let t := z.out.elim s fun h => s.record (.write h)
    if z.closed then .ok err t
    else
      match err with
      | some err => .ok (some err) t
      | none => .ok none { t with gzipWriter := some { z with buffer := z.buffer ++ p } }

/-- `Close`: the buffer goes into the file. -/
def gzipClose (err : Option OsError) : Prog (Option OsError) := do
  let s ← get
  match s.gzipWriter with
  | none => throw .nilPointer
  | some z =>
    if z.closed then pure none
    else do
      modify fun s => { s with gzipWriter := some { z with buffer := [], closed := true } }
      osWrite z.out z.buffer err

/-! ### File names -/

def conversion : Char → Option String
  | 'B' => some "January"
  | 'b' => some "Jan"
  | 'm' => some "01"
  | 'A' => some "Monday"
  | 'a' => some "Mon"
  | 'd' => some "02"
  | 'H' => some "15"
  | 'I' => some "03"
  | 'M' => some "04"
  | 'S' => some "05"
  | 'Y' => some "2006"
  | 'y' => some "06"
  | 'p' => some "PM"
  | 'Z' => some "MST"
  | 'z' => some "-0700"
  | '%' => some "%"
  | _ => none

/-- The layout that `strftime` makes of its format. -/
def layout : List Char → List Char
  | [] => []
  | [c] => [c]
  | c :: d :: rest =>
    match if c = '%' then conversion d else none with
    | some cmd => cmd.toList ++ layout rest
    | none => c :: layout (d :: rest)

def strftime (format : String) (t : Time) : String :=
  t.format (String.ofList (layout format.toList))

namespace FileLogger

def currentFilename (opts : Options) (now : Time) (f : FileLogger) : String :=
  f.filenameFormat.replace "<DATETIME>" (strftime opts.datetimeFormat now)

/-- `now` is read for the file name, `later` for the time since the file was opened. -/
def needsRotation (opts : Options) (now later : Time) (f : FileLogger) : Bool :=
  match f.out with
  | none => true
  | some _ =>
    decide (f.currentFilename opts now ≠ f.filename) ||
      decide (0 < opts.rotateInterval ∧ opts.rotateInterval < later.ns - f.openTime.ns) ||
      decide (0 < opts.rotateSize ∧ opts.rotateSize < f.filesize)

end FileLogger

/-! ### `Close`, `Write` and `Sync` -/

/-- What the two calls of an `exclusiveRename` answer. -/
structure RenameAnswers where
  link : Option OsError
  remove : Option OsError

def exclusiveRename (a : RenameAnswers) : Option OsError :=
  match a.link with
  | some err => some err
  | none => a.remove

/-- What the calls of a `Close` answer; the first rename is the optimistic one. -/
structure CloseAnswers where
  gzip : Option OsError
  sync : Option OsError
  close : Option OsError
  rename : ℕ → RenameAnswers

/-- One round of the loop over the revisions, `i` of them being tried. -/
def nextRename (a : CloseAnswers) (i : ℕ) : Prog (ℕ ⊕ Unit) :=
  match exclusiveRename (a.rename (i + 1)) with
  | none => pure (.inr ())
  | some .exist => pure (.inl (i + 1))
  | some _ => throw .exit

def finishGzip (err : Option OsError) : Prog Unit := do
  let s ← get
  if s.gzipWriter.isSome then fatal (← gzipClose err) else pure ()

/-- The end of `Close`: the file goes from the work dir to the output dir. -/
def moveFile (opts : Options) (limit : ℕ) (a : CloseAnswers) : Prog Unit :=
  if opts.workDir = opts.outputDir then modify fun s => { s with out := none }
  else
    match exclusiveRename (a.rename 0) with
    -- `return`, with `f.out` as it is
    | none => pure ()
    | some .exist => do
      iterate .hangs (nextRename a) limit 0
      modify fun s => { s with out := none }
    | some _ => throw .exit

/-- `Close`. `limit` bounds the rounds of its loop. -/
def close (opts : Options) (limit : ℕ) (a : CloseAnswers) : Prog Unit := do
  let s ← get
  if s.out = none then pure ()
  else do
    finishGzip a.gzip
    fatal (← osSync s.out a.sync)
    fatal (← osClose s.out a.close)
    moveFile opts limit a

/-- `f.writer.Write`. -/
def writerWrite (p : List UInt8) (err : Option OsError) : Prog (Option OsError) := do
  let s ← get
  match s.writer with
  | none => throw .nilPointer
  | some (.file out) => osWrite out p err
  | some .gzip => gzipWrite p err

/-- `Write`. -/
def write (p : List UInt8) (err : Option OsError) : Prog (Option OsError) := do
  let err ← writerWrite p err
  modify fun s => { s with filesize := s.filesize + if err = none then p.length else 0 }
  pure err

/-- What the calls of a `Sync` answer. -/
structure SyncAnswers where
  gzip : Option OsError
  sync : Option OsError

/-- `Sync`. -/
def sync (opts : Options) (a : SyncAnswers) : Prog (Option OsError) := do
  let s ← get
  if s.gzipWriter.isSome then do
    match ← gzipClose a.gzip with
    | some err => pure (some err)
    | none =>
      let err ← osSync s.out a.sync
      modify fun s => { s with
        gzipWriter := newWriterLevel s.out opts.gzipLevel
        writer := some .gzip }
      pure err
  else osSync s.out a.sync

/-! ### `updateFile` -/

/-- What the calls for one revision answer. -/
structure OpenAnswers where
  mkdirAll : Option OsError
  stat : Option OsError
  openFile : Except OsError ℕ
  fstat : Option OsError

/-- `continue`: the next revision. -/
def nextRev (k : ℕ) : Prog (ℕ ⊕ Unit) := do
  modify fun s => { s with rev := (s.rev + 1) % 2 ^ 64 }
  pure (.inl (k + 1))

/-- The working file of a revision. -/
def openRev (opts : Options) (a : OpenAnswers) (k : ℕ) : Prog (ℕ ⊕ Unit) := do
  match ← openFile (opts.gzip || decide (0 < opts.rotateInterval)) a.openFile with
  | some .exist => nextRev k
  | some _ => throw .exit
  | none =>
    let s ← get
    -- the source goes on behind this `Fatalf`, to the size of a file information that is nil
    fatal (← osStat s.out a.fstat)
    let size : ℤ := (fileAt s.files (s.fileOf s.out)).bytes.length
    modify fun s => { s with filesize := size }
    if 0 < opts.rotateSize ∧ opts.rotateSize < size then nextRev k else pure (.inr ())

/-- One round of the loop over the revisions, the `k`-th. -/
def tryRev (opts : Options) (tries : ℕ → OpenAnswers) (k : ℕ) : Prog (ℕ ⊕ Unit) :=
  if opts.workDir = opts.outputDir then openRev opts (tries k) k
  else do
    fatal (tries k).mkdirAll
    match (tries k).stat with
    | none => nextRev k
    | some .notExist => openRev opts (tries k) k
    | some _ => throw .exit

/-- What the clock and the calls of an `updateFile` answer, those of its `Close` apart. -/
structure UpdateAnswers where
  now : Time
  openTime : Time
  mkdirAll : Option OsError
  tries : ℕ → OpenAnswers

/-- `updateFile`. -/
def updateFile (opts : Options) (limit : ℕ) (c : CloseAnswers) (a : UpdateAnswers) : Prog Unit := do
  close opts limit c
  modify fun s =>
    let filename := s.currentFilename opts a.now
    { s with
      rev := if filename ≠ s.filename then 0 else (s.rev + 1) % 2 ^ 64
      filename := filename
      openTime := a.openTime }
  fatal a.mkdirAll
  iterate .hangs (tryRev opts a.tries) limit 0
  modify fun s =>
    if opts.gzip then
      { s with gzipWriter := newWriterLevel s.out opts.gzipLevel, writer := some .gzip }
    else { s with writer := some (.file s.out) }

/-! ### The router -/

/-- The variables of `router`. -/
structure Locals where
  pos : ℕ
  output : List (Option Message)
  sync : Bool
  closeFile : Bool
  exit : Bool

def Locals.new (opts : Options) : Locals :=
  ⟨0, List.replicate opts.maxInFlight none, false, false, false⟩

inductive Event where
  | stopChan
  | termChan
  | hupChan
  | ticker
  | logChan (body : List UInt8)

/-- An event, and what the clock, the consumer and the system answer in its round. A round has one
`Close` at most that finds a file. -/
structure Round where
  event : Event
  now : Time
  later : Time
  update : UpdateAnswers
  write : Option OsError
  newline : Option OsError
  starved : Bool
  sync : SyncAnswers
  close : CloseAnswers

/-- The message that comes through the channel. -/
def receive (body : List UInt8) : Prog Message := do
  let s ← get
  modify fun s => { s with arrived := s.arrived + 1 }
  pure ⟨s.arrived, body⟩

/-- The two writes of a message. -/
def writeMessage (r : Round) (m : Message) : Prog Unit := do
  fatal (← write m.body r.write)
  fatal (← write [10] r.newline)
  modify fun s => s.record (.logged m (s.fileOf s.out))

/-- `output[pos] = m`, and the full slice. -/
def Locals.store (l : Locals) (m : Message) : Prog Locals :=
  if l.pos < l.output.length then
    let pos := l.pos + 1
    pure { l with
      output := l.output.set l.pos (some m)
      pos := pos
      sync := l.sync || decide (pos = l.output.length) }
  else throw .indexOutOfRange

/-- The cases of `select`. -/
def select (opts : Options) (limit : ℕ) (r : Round) (l : Locals) : Prog Locals :=
  match r.event with
  | .stopChan => pure { l with sync := true, closeFile := true, exit := true }
  | .termChan => pure { l with sync := true }
  | .hupChan => pure { l with sync := true, closeFile := true }
  | .ticker => do
    let s ← get
    if s.needsRotation opts r.now r.later then
      if opts.skipEmptyFiles then pure { l with sync := true, closeFile := true }
      else do
        updateFile opts limit r.close r.update
        pure { l with sync := true }
    else pure { l with sync := true }
  | .logChan body => do
    let m ← receive body
    let s ← get
    if s.needsRotation opts r.now r.later then do
      updateFile opts limit r.close r.update
      writeMessage r m
      { l with sync := true }.store m
    else do
      writeMessage r m
      l.store m

/-- The loop that finishes what is in the slice, from the last to the first. -/
def finishAll : ℕ → List (Option Message) → Prog (List (Option Message))
  | 0, output => pure output
  | pos + 1, output =>
    match output[pos]? with
    | none => throw .indexOutOfRange
    | some none => throw .nilPointer
    | some (some m) => do
      modify fun s => s.record (.finish m s.files)
      finishAll pos (output.set pos none)

/-- `if sync || IsStarved()`. -/
def flush (opts : Options) (r : Round) (l : Locals) : Prog Locals :=
  if l.sync || r.starved then
    if 0 < l.pos then do
      fatal (← sync opts r.sync)
      let output ← finishAll l.pos l.output
      pure { l with output := output, pos := 0, sync := false }
    else pure { l with sync := false }
  else pure l

/-- `if closeFile`. -/
def closing (opts : Options) (limit : ℕ) (r : Round) (l : Locals) : Prog Locals :=
  if l.closeFile then do
    close opts limit r.close
    pure { l with closeFile := false }
  else pure l

/-- One round of the loop of `router`. -/
def round (opts : Options) (limit : ℕ) (r : Round) (l : Locals) : Prog Locals := do
  let l ← select opts limit r l
  let l ← flush opts r l
  closing opts limit r l

inductive Status where
  | running
  | returned
  | ended (e : Ending)
  deriving DecidableEq

structure Machine where
  state : State
  locals : Locals
  status : Status

/-- A process on a disk with these files. -/
def Machine.start (opts : Options) (filenameFormat : String) (zero : Time) (files : List File) :
    Machine where
  state := ⟨⟨none, none, none, filenameFormat, "", zero, 0, 0⟩, files, [], [], 0⟩
  locals := .new opts
  status := .running

/-- The router goes on until it returns or the process ends. -/
def step (opts : Options) (limit : ℕ) (m : Machine) (r : Round) : Option Machine :=
  match m.status with
  | .running =>
    match round opts limit r m.locals m.state with
    | .ok l s => some ⟨s, l, if l.exit then .returned else .running⟩
    | .error e s => some ⟨s, m.locals, .ended e⟩
  | _ => none

end Xmq.ToFile
