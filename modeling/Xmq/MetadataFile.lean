import Xmq.FileSystem
import Xmq.NodeMetadata
import Xmq.Runs

/-!
# Replacing the metadata file

`PersistMetadata` writes a new file under a name of its own, syncs it, and renames it onto the metadata
file. It is called with the lock of the node held, each call by itself; any of its system calls may fail,
and the process may be killed or the power may fail between any two of them. What the next start reads
is always whole: it is what some earlier call has written.

* The directory is not synced, so that a power failure may take back the last calls.
* What is written under the other names stays there, and may be written over.
-/

namespace Xmq.Cluster.MetadataFile

open FileSystem Runs

/-- `newMetadataFile`. -/
def newMetadataFile (dataPath : String) : String := dataPath ++ "/xmqd.dat"

/-- The name of the new file, with the number drawn for it. -/
def tmpFileName (fileName : String) (rand : ℕ) : String := s!"{fileName}.{rand}.tmp"

/-- The system calls of `PersistMetadata`, with the new file once it is open. -/
inductive PC where
  | idle
  | openFile (tmp : String) (m : Metadata)
  | writeFile (tmp : String) (m : Metadata) (i : ℕ)
  | syncFile (tmp : String) (m : Metadata) (i : ℕ)
  | renameFile (tmp : String) (m : Metadata) (i : ℕ)

/-- A file is described by the metadata that it has. `renamed` has those that replaced the file, and
`current` is the last of them, or the one that a power failure has brought back since. -/
structure State where
  fs : FS String Metadata
  pc : PC
  renamed : List Metadata
  current : Option Metadata

def init : State where
  fs := ⟨fun _ => ⟨.torn, .torn⟩, 0, fun _ => none, []⟩
  pc := .idle
  renamed := []
  current := none

inductive Act where
  /-- A call, with the number it draws and what `GetMetadata` returns. -/
  | persistMetadata (rand : ℕ) (m : Metadata)
  /-- The next system call, with its error. -/
  | next (err : GoError)
  | kill
  /-- The disk catches up with so many changes of the directory. -/
  | settle (k : ℕ)
  /-- The power fails when it has caught up with so many. -/
  | powerLoss (k : ℕ)

/-- The metadata of a whole file. -/
def wholeOf : Option (Content Metadata) → Option Metadata
  | some (.whole m) => some m
  | some .torn => none
  | none => none

def next (fileName : String) (s : State) (err : GoError) : Option State :=
  match s.pc, err with
  | .idle, _ => none
  | .openFile tmp m, none =>
    some { s with fs := (s.fs.openTrunc tmp).2, pc := .writeFile tmp m (s.fs.openTrunc tmp).1 }
  | .openFile _ _, some _ => some { s with pc := .idle }
  | .writeFile tmp m i, none => some { s with fs := s.fs.write i (.whole m), pc := .syncFile tmp m i }
  | .writeFile _ _ i, some _ => some { s with fs := s.fs.write i .torn, pc := .idle }
  | .syncFile tmp m i, none => some { s with fs := s.fs.sync i, pc := .renameFile tmp m i }
  | .syncFile _ _ _, some _ => some { s with pc := .idle }
  | .renameFile tmp m _, none =>
    some
      { fs := s.fs.rename tmp fileName
        pc := .idle
        renamed := s.renamed ++ [m]
        current := some m }
  | .renameFile _ _ _, some _ => some { s with pc := .idle }

def step (fileName : String) (s : State) : Act → Option State
  | .persistMetadata rand m =>
    match s.pc with
    | .idle => some { s with pc := .openFile (tmpFileName fileName rand) m }
    | _ => none
  | .next err => next fileName s err
  | .kill => some { s with pc := .idle }
  | .settle k => some { s with fs := s.fs.settle k }
  | .powerLoss k =>
    some
      { s with
        fs := s.fs.powerLoss k
        pc := .idle
        current := wholeOf (s.fs.readAfterLoss k fileName) }

/-! ### The invariant -/

/-- The file that a call is writing is its own, and has what it has written. -/
def Working (fileName : String) (fs : FS String Metadata) : PC → Prop
  | .idle => True
  | .openFile tmp _ => tmp ≠ fileName
  | .writeFile tmp _ i => tmp ≠ fileName ∧ fs.Private fileName tmp i
  | .syncFile tmp m i => tmp ≠ fileName ∧ fs.Private fileName tmp i ∧ (fs.inode i).cached = .whole m
  | .renameFile tmp m i =>
    tmp ≠ fileName ∧ fs.Private fileName tmp i ∧ fs.inode i = ⟨.whole m, .whole m⟩

structure Inv (fileName : String) (s : State) : Prop where
  guarded : s.fs.Guarded fileName (· ∈ s.renamed)
  working : Working fileName s.fs s.pc
  read : s.fs.read fileName = s.current.map .whole
  known : ∀ m ∈ s.current, m ∈ s.renamed

variable {fileName : String} {s s' : State}

/-- A new file never has the name of the metadata file. -/
theorem tmpFileName_ne (fileName : String) (rand : ℕ) : tmpFileName fileName rand ≠ fileName := by
  intro h
  have hlen := congrArg String.length h
  simp only [tmpFileName, String.length_append] at hlen
  have hname : (toString fileName).length = fileName.length := rfl
  have hdot : (toString ".").length = 1 := rfl
  omega

theorem init_inv (fileName : String) : Inv fileName init where
  guarded :=
    { fresh := fun k n i hi => by simp [FS.view, init] at hi
      inj := fun k n n' i hi => by simp [FS.view, init] at hi
      apart := fun k n i hn hi => by simp [FS.view, init] at hi
      whole := fun k i hi => by simp [FS.view, init] at hi }
  working := trivial
  read := rfl
  known m hm := by cases hm

/-- A call that is over, with an error. -/
theorem Inv.idle (h : Inv fileName s) : Inv fileName { s with pc := .idle } :=
  ⟨h.guarded, trivial, h.read, h.known⟩

/-- The system calls on the new file leave the old one alone. -/
theorem Inv.setInode (h : Inv fileName s) {tmp : String} {i : ℕ} (hi : s.fs.Private fileName tmp i)
    (x : Inode Metadata) {pc : PC} (hpc : Working fileName (s.fs.setInode i x) pc) :
    Inv fileName { s with fs := s.fs.setInode i x, pc := pc } where
  guarded := (h.guarded.setInode hi x).1
  working := hpc
  read := (hi.read_setInode x).trans h.read
  known := h.known

theorem setInode_inode (fs : FS String Metadata) (i : ℕ) (x : Inode Metadata) :
    (fs.setInode i x).inode i = x := Function.update_self _ _ _

theorem Inv.next (h : Inv fileName s) {err : GoError} (hs : next fileName s err = some s') :
    Inv fileName s' := by
  have hw := h.working
  unfold MetadataFile.next at hs
  split at hs
  · cases hs
  · rename_i tmp m hpc
    rw [hpc] at hw
    cases hs
    obtain ⟨hg, hp⟩ := h.guarded.openTrunc hw
    exact ⟨hg, ⟨hw, hp⟩, (h.guarded.read_openTrunc hw).trans h.read, h.known⟩
  · cases hs
    exact h.idle
  · rename_i tmp m i hpc
    rw [hpc] at hw
    cases hs
    refine h.setInode hw.2 _ ⟨hw.1, (h.guarded.setInode hw.2 _).2, ?_⟩
    rw [setInode_inode]
  · rename_i tmp m i err hpc
    rw [hpc] at hw
    cases hs
    exact h.setInode hw.2 _ trivial
  · rename_i tmp m i hpc
    rw [hpc] at hw
    cases hs
    refine h.setInode hw.2.1 _ ⟨hw.1, (h.guarded.setInode hw.2.1 _).2, ?_⟩
    rw [setInode_inode, hw.2.2]
  · cases hs
    exact h.idle
  · rename_i tmp m i hpc
    rw [hpc] at hw
    obtain ⟨hne, hp, hinode⟩ := hw
    cases hs
    have hm : m ∈ s.renamed ++ [m] := List.mem_append_right _ (List.mem_singleton_self m)
    refine ⟨(h.guarded.mono fun d hd => List.mem_append_left _ hd).rename hne hp hm hinode, trivial, ?_,
      fun d hd => ?_⟩
    · rw [hp.read_rename hne, hinode]
      rfl
    · cases hd
      exact hm
  · cases hs
    exact h.idle

theorem Working.settle {pc : PC} (h : Working fileName s.fs pc) (k : ℕ) :
    Working fileName (s.fs.settle k) pc := by
  cases pc with
  | idle => trivial
  | openFile tmp m => exact h
  | writeFile tmp m i => exact ⟨h.1, h.2.settle k⟩
  | syncFile tmp m i => exact ⟨h.1, h.2.1.settle k, h.2.2⟩
  | renameFile tmp m i => exact ⟨h.1, h.2.1.settle k, h.2.2⟩

/-- **The step.** -/
theorem step_inv {a : Act} (h : Inv fileName s) (hs : step fileName s a = some s') :
    Inv fileName s' := by
  cases a with
  | persistMetadata rand m =>
      simp only [step] at hs
      split at hs
      · cases hs
        exact ⟨h.guarded, tmpFileName_ne fileName rand, h.read, h.known⟩
      · cases hs
  | next err => exact h.next hs
  | kill =>
      cases hs
      exact h.idle
  | settle k =>
      cases hs
      exact ⟨h.guarded.settle k, h.working.settle k, (FS.read_settle k fileName).trans h.read, h.known⟩
  | powerLoss k =>
      cases hs
      have hread := h.guarded.readAfterLoss k
      refine ⟨h.guarded.powerLoss k, trivial, ?_, fun m hm => ?_⟩
      · rw [FS.read_powerLoss]
        rcases hread with hnone | ⟨m, -, hm⟩
        · rw [hnone]
          rfl
        · rw [hm]
          rfl
      · rcases hread with hnone | ⟨m', hm', heq⟩
        · rw [hnone] at hm
          cases hm
        · rw [heq] at hm
          cases hm
          exact hm'

/-! ### Loading it again -/

/-- The bytes of a file; those of a torn one could be any. -/
def bytes (json : MetadataJSON) (torn : json.Data) : Content Metadata → json.Data
  | .torn => torn
  | .whole m => json.marshal m

/-- What a start comes to, from the metadata in the file. -/
def loaded (libs : Libs) (raft : Raft) (n : Node) : Option Metadata → Except Abort (GoError × Node)
  | none => .ok (none, n)
  | some m => (m.topics.foldlM (loadTopic libs raft) n).map fun n => (none, n)

/-- One call succeeds, one fails at its sync, one is killed before its rename, one draws the number of the
second and succeeds, and the power fails before the last two changes of the directory are on the disk. -/
def fourCalls : List Act :=
  [.persistMetadata 7 ⟨[], "1"⟩, .next none, .next none, .next none, .next none,
    .persistMetadata 5 ⟨[], "2"⟩, .next none, .next none, .next (some "sync"),
    .persistMetadata 6 ⟨[], "3"⟩, .next none, .next none, .next none, .kill,
    .persistMetadata 5 ⟨[], "4"⟩, .next none, .next none, .next none, .next none, .powerLoss 3]

/-- A file that has the metadata itself. -/
def plainJSON : MetadataJSON := ⟨Metadata, id, .ok⟩

theorem fourCalls_run : (run (step "xmqd.dat") init fourCalls).isSome := by
  decide

end Xmq.Cluster.MetadataFile
