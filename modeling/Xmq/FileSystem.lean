import Mathlib.Logic.Function.Basic
import Mathlib.Data.List.Basic

/-!
# Files that are replaced

A file system as a power failure sees it. What is written to a file is in a cache until it is synced;
creating and renaming change the directory at once, but on the disk one after another and later. After a
power failure the directory is one of those it has been since, and a file that was not synced may have
anything in it.

A name is *guarded* when, in every directory that a power failure could bring back, its file is whole
and no program can write to it any more. A file that is written under another name, synced, and renamed
onto the guarded one keeps it guarded.
-/

namespace Xmq.FileSystem

variable {ν D : Type} [DecidableEq ν]

/-! ### The file system -/

/-- `torn`: any bytes at all. -/
inductive Content (D : Type) where
  | torn
  | whole (d : D)
  deriving DecidableEq

/-- What a program reads, and what is there after a power failure. -/
structure Inode (D : Type) where
  cached : Content D
  synced : Content D

abbrev Dir (ν : Type) := ν → Option ℕ

inductive DirOp (ν : Type) where
  | link (name : ν) (i : ℕ)
  | rename (src dst : ν)

def DirOp.apply (dir : Dir ν) : DirOp ν → Dir ν
  | link name i => Function.update dir name (some i)
  | rename src dst => Function.update (Function.update dir dst (dir src)) src none

/-- `journal` has the changes to the directory that are not on the disk, the oldest first. -/
structure FS (ν D : Type) where
  inode : ℕ → Inode D
  next : ℕ
  durable : Dir ν
  journal : List (DirOp ν)

namespace FS

/-- The directory after the first `k` changes. -/
def view (fs : FS ν D) (k : ℕ) : Dir ν := (fs.journal.take k).foldl DirOp.apply fs.durable

/-- The directory that programs see. -/
def live (fs : FS ν D) : Dir ν := fs.journal.foldl DirOp.apply fs.durable

def setInode (fs : FS ν D) (i : ℕ) (x : Inode D) : FS ν D :=
  { fs with inode := Function.update fs.inode i x }

def log (fs : FS ν D) (op : DirOp ν) : FS ν D := { fs with journal := fs.journal ++ [op] }

/-- Open for writing, with `O_CREATE` and `O_TRUNC`. -/
def openTrunc (fs : FS ν D) (name : ν) : ℕ × FS ν D :=
  match fs.live name with
  | some i => (i, fs.setInode i ⟨.torn, .torn⟩)
  | none => (fs.next, { (fs.setInode fs.next ⟨.torn, .torn⟩).log (.link name fs.next) with
      next := fs.next + 1 })

/-- Write the content, all of it or not. -/
def write (fs : FS ν D) (i : ℕ) (x : Content D) : FS ν D := fs.setInode i ⟨x, .torn⟩

def sync (fs : FS ν D) (i : ℕ) : FS ν D := fs.setInode i ⟨(fs.inode i).cached, (fs.inode i).cached⟩

def rename (fs : FS ν D) (src dst : ν) : FS ν D := fs.log (.rename src dst)

/-- The first `k` changes reach the disk. -/
def settle (fs : FS ν D) (k : ℕ) : FS ν D :=
  { fs with durable := fs.view k, journal := fs.journal.drop k }

/-- The power fails after `k` changes have reached the disk. -/
def powerLoss (fs : FS ν D) (k : ℕ) : FS ν D :=
  { fs with
    inode := fun i => ⟨(fs.inode i).synced, (fs.inode i).synced⟩
    durable := fs.view k
    journal := [] }

def read (fs : FS ν D) (name : ν) : Option (Content D) :=
  (fs.live name).map fun i => (fs.inode i).cached

/-- What is read after a power failure. -/
def readAfterLoss (fs : FS ν D) (k : ℕ) (name : ν) : Option (Content D) :=
  (fs.view k name).map fun i => (fs.inode i).synced

variable {fs : FS ν D} {k : ℕ} {name tmp : ν} {i : ℕ}

/-! ### Directories -/

theorem view_of_le (h : fs.journal.length ≤ k) : fs.view k = fs.live := by
  rw [view, live, List.take_of_length_le h]

theorem view_length : fs.view fs.journal.length = fs.live := view_of_le (Nat.le_refl _)

@[simp] theorem view_setInode (x : Inode D) : (fs.setInode i x).view k = fs.view k := rfl

@[simp] theorem live_setInode (x : Inode D) : (fs.setInode i x).live = fs.live := rfl

theorem live_log (fs : FS ν D) (op : DirOp ν) : (fs.log op).live = op.apply fs.live := by
  rw [live, live, log, List.foldl_append]
  rfl

/-- A directory of the journal with one change more is an old one, or the new one. -/
theorem view_log (fs : FS ν D) (op : DirOp ν) (k : ℕ) :
    (fs.log op).view k = fs.view k ∨ (fs.log op).view k = op.apply fs.live := by
  by_cases h : k ≤ fs.journal.length
  · left
    rw [view, view, log, List.take_append_of_le_length h]
  · right
    rw [view_of_le (by rw [log, List.length_append, List.length_singleton]; omega), live_log]

theorem view_settle (k j : ℕ) : (fs.settle k).view j = fs.view (k + j) := by
  rw [view, view, settle, view, ← List.foldl_append, List.take_add]

theorem live_settle (k : ℕ) : (fs.settle k).live = fs.live := by
  rw [live, live, settle, view, ← List.foldl_append, List.take_append_drop]

theorem view_powerLoss (k j : ℕ) : (fs.powerLoss k).view j = fs.view k := by
  rw [view, powerLoss, List.take_nil]
  rfl

theorem live_powerLoss (k : ℕ) : (fs.powerLoss k).live = fs.view k := rfl

theorem apply_link_eq {dir : Dir ν} {n : ν} {j : ℕ} :
    (DirOp.link name i).apply dir n = some j ↔ n = name ∧ j = i ∨ n ≠ name ∧ dir n = some j := by
  rw [DirOp.apply]
  by_cases h : n = name
  · rw [h, Function.update_self, Option.some.injEq]
    simp [eq_comm]
  · rw [Function.update_of_ne h]
    simp [h]

theorem apply_rename_eq {dir : Dir ν} {src dst n : ν} {j : ℕ} (hne : src ≠ dst) :
    (DirOp.rename src dst).apply dir n = some j ↔
      n = dst ∧ dir src = some j ∨ n ≠ dst ∧ n ≠ src ∧ dir n = some j := by
  rw [DirOp.apply]
  by_cases hs : n = src
  · rw [hs, Function.update_self]
    simp [hne]
  · rw [Function.update_of_ne hs]
    by_cases hd : n = dst
    · rw [hd, Function.update_self]
      simp
    · rw [Function.update_of_ne hd]
      simp [hd, hs]

/-! ### Guarded names -/

/-- The file of `name` is whole in every directory that a power failure can bring back, and no other
name leads to it now. -/
structure Guarded (fs : FS ν D) (name : ν) (P : D → Prop) : Prop where
  fresh : ∀ k n i, fs.view k n = some i → i < fs.next
  inj : ∀ k n n' i, fs.view k n = some i → fs.view k n' = some i → n = n'
  apart : ∀ k n i, n ≠ name → fs.view k name = some i → fs.live n ≠ some i
  whole : ∀ k i, fs.view k name = some i → ∃ d, P d ∧ fs.inode i = ⟨.whole d, .whole d⟩

/-- The file is one under `tmp`, and none that `name` can lead to. -/
structure Private (fs : FS ν D) (name tmp : ν) (i : ℕ) : Prop where
  live : fs.live tmp = some i
  other : ∀ k, fs.view k name ≠ some i

variable {P Q : D → Prop}

theorem Guarded.mono (h : Guarded fs name P) (hpq : ∀ d, P d → Q d) : Guarded fs name Q where
  fresh := h.fresh
  inj := h.inj
  apart := h.apart
  whole k i hi := by
    obtain ⟨d, hd, hinode⟩ := h.whole k i hi
    exact ⟨d, hpq d hd, hinode⟩

theorem Guarded.fresh_live (h : Guarded fs name P) {n : ν} (hi : fs.live n = some i) : i < fs.next :=
  h.fresh fs.journal.length n i (by rw [view_length]; exact hi)

theorem Guarded.inj_live (h : Guarded fs name P) {n n' : ν} (hi : fs.live n = some i)
    (hi' : fs.live n' = some i) : n = n' := by
  refine h.inj fs.journal.length n n' i ?_ ?_ <;> rwa [view_length]

/-- A file under another name can be changed. -/
theorem Guarded.setInode (h : Guarded fs name P) (hi : Private fs name tmp i) (x : Inode D) :
    Guarded (fs.setInode i x) name P ∧ Private (fs.setInode i x) name tmp i := by
  refine ⟨⟨h.fresh, h.inj, h.apart, fun k j hj => ?_⟩, hi.live, hi.other⟩
  obtain ⟨d, hd, hinode⟩ := h.whole k j hj
  have hne : j ≠ i := fun e => hi.other k (e ▸ hj)
  exact ⟨d, hd, (Function.update_of_ne hne _ _).trans hinode⟩

theorem Guarded.openTrunc (h : Guarded fs name P) (hne : tmp ≠ name) :
    Guarded (fs.openTrunc tmp).2 name P ∧
      Private (fs.openTrunc tmp).2 name tmp (fs.openTrunc tmp).1 := by
  unfold FS.openTrunc
  cases hl : fs.live tmp with
  | some i =>
      refine h.setInode ⟨hl, fun k hk => h.apart k tmp i hne hk hl⟩ _
  | none =>
      have hnot : ∀ k n, fs.view k n ≠ some fs.next := fun k n hi =>
        Nat.lt_irrefl _ (h.fresh k n _ hi)
      obtain ⟨fs', hfs'⟩ : ∃ fs' : FS ν D,
        fs' = { (fs.setInode fs.next ⟨.torn, .torn⟩).log (.link tmp fs.next) with
          next := fs.next + 1 } := ⟨_, rfl⟩
      have hview : ∀ k, fs'.view k = fs.view k ∨
          fs'.view k = (DirOp.link tmp fs.next).apply fs.live := fun k => by
        rw [hfs']
        exact view_log (fs.setInode fs.next ⟨.torn, .torn⟩) _ k
      have hlive : fs'.live = (DirOp.link tmp fs.next).apply fs.live := by
        rw [hfs']
        exact live_log (fs.setInode fs.next ⟨.torn, .torn⟩) _
      have hname : ∀ k j, fs'.view k name = some j → ∃ k', fs.view k' name = some j := by
        intro k j hj
        rcases hview k with hv | hv
        · exact ⟨k, by rw [← hv]; exact hj⟩
        · rw [hv, apply_link_eq] at hj
          rcases hj with ⟨rfl, -⟩ | ⟨-, hj⟩
          · exact absurd rfl hne
          · exact ⟨fs.journal.length, by rw [view_length]; exact hj⟩
      show Guarded _ name P ∧ Private _ name tmp fs.next
      rw [← hfs']
      refine ⟨⟨fun k n j hj => ?_, fun k n n' j hj hj' => ?_, fun k n j hn hj hlj => ?_,
        fun k j hj => ?_⟩, ?_, fun k hk => ?_⟩
      · have hnext : fs'.next = fs.next + 1 := by rw [hfs']
        rw [hnext]
        rcases hview k with hv | hv
        · rw [hv] at hj
          exact Nat.lt_succ_of_lt (h.fresh k n j hj)
        · rw [hv, apply_link_eq] at hj
          rcases hj with ⟨-, rfl⟩ | ⟨-, hj⟩
          · exact Nat.lt_succ_self _
          · exact Nat.lt_succ_of_lt (h.fresh_live hj)
      · rcases hview k with hv | hv
        · rw [hv] at hj hj'
          exact h.inj k n n' j hj hj'
        · rw [hv, apply_link_eq] at hj hj'
          rcases hj with ⟨rfl, rfl⟩ | ⟨-, hj⟩
          · rcases hj' with ⟨rfl, -⟩ | ⟨-, hj'⟩
            · rfl
            · exact absurd (h.fresh_live hj') (Nat.lt_irrefl _)
          · rcases hj' with ⟨-, rfl⟩ | ⟨-, hj'⟩
            · exact absurd (h.fresh_live hj) (Nat.lt_irrefl _)
            · exact h.inj_live hj hj'
      · obtain ⟨k', hk'⟩ := hname k j hj
        rw [hlive, apply_link_eq] at hlj
        rcases hlj with ⟨-, rfl⟩ | ⟨-, hlj⟩
        · exact hnot k' name hk'
        · exact h.apart k' n j hn hk' hlj
      · obtain ⟨k', hk'⟩ := hname k j hj
        obtain ⟨d, hd, hinode⟩ := h.whole k' j hk'
        have hj : j ≠ fs.next := fun e => hnot k' name (e ▸ hk')
        refine ⟨d, hd, ?_⟩
        rw [hfs']
        exact (Function.update_of_ne hj _ _).trans hinode
      · rw [hlive, apply_link_eq]
        exact .inl ⟨rfl, rfl⟩
      · obtain ⟨k', hk'⟩ := hname k _ hk
        exact hnot k' name hk'

/-- **Replacing.** A whole and synced file takes the place of the guarded one. -/
theorem Guarded.rename (h : Guarded fs name P) (hne : tmp ≠ name) (hi : Private fs name tmp i)
    {d : D} (hd : P d) (hinode : fs.inode i = ⟨.whole d, .whole d⟩) :
    Guarded (fs.rename tmp name) name P := by
  have hview : ∀ k, (fs.rename tmp name).view k = fs.view k ∨
      (fs.rename tmp name).view k = (DirOp.rename tmp name).apply fs.live := fun k => view_log _ _ k
  have hlive : (fs.rename tmp name).live = (DirOp.rename tmp name).apply fs.live := live_log _ _
  have hname : ∀ k j, (fs.rename tmp name).view k name = some j →
      j = i ∨ ∃ k', fs.view k' name = some j := by
    intro k j hj
    rcases hview k with hv | hv
    · exact .inr ⟨k, by rw [← hv]; exact hj⟩
    · rw [hv, apply_rename_eq hne, hi.live] at hj
      rcases hj with ⟨-, hj⟩ | ⟨hn, -⟩
      · exact .inl (Option.some.inj hj).symm
      · exact absurd rfl hn
  refine ⟨fun k n j hj => ?_, fun k n n' j hj hj' => ?_, fun k n j hn hj hlj => ?_, fun k j hj => ?_⟩
  · show j < fs.next
    rcases hview k with hv | hv
    · rw [hv] at hj
      exact h.fresh k n j hj
    · rw [hv, apply_rename_eq hne] at hj
      rcases hj with ⟨-, hj⟩ | ⟨-, -, hj⟩
      · exact h.fresh_live hj
      · exact h.fresh_live hj
  · rcases hview k with hv | hv
    · rw [hv] at hj hj'
      exact h.inj k n n' j hj hj'
    · rw [hv, apply_rename_eq hne] at hj hj'
      rcases hj with ⟨rfl, hj⟩ | ⟨-, hns, hj⟩
      · rcases hj' with ⟨rfl, -⟩ | ⟨-, hns', hj'⟩
        · rfl
        · exact absurd (h.inj_live hj' hj) hns'
      · rcases hj' with ⟨rfl, hj'⟩ | ⟨-, -, hj'⟩
        · exact absurd (h.inj_live hj hj') hns
        · exact h.inj_live hj hj'
  · rw [hlive, apply_rename_eq hne] at hlj
    rcases hlj with ⟨rfl, -⟩ | ⟨-, hns, hlj⟩
    · exact hn rfl
    · rcases hname k j hj with rfl | ⟨k', hk'⟩
      · exact hns (h.inj_live hlj hi.live)
      · exact h.apart k' n j hn hk' hlj
  · rcases hname k j hj with rfl | ⟨k', hk'⟩
    · exact ⟨d, hd, hinode⟩
    · exact h.whole k' j hk'

theorem Guarded.settle (h : Guarded fs name P) (k : ℕ) : Guarded (fs.settle k) name P where
  fresh j n i hi := h.fresh (k + j) n i (by rw [← view_settle]; exact hi)
  inj j n n' i hi hi' := h.inj (k + j) n n' i (by rw [← view_settle]; exact hi)
    (by rw [← view_settle]; exact hi')
  apart j n i hn hi := by
    rw [live_settle]
    exact h.apart (k + j) n i hn (by rw [← view_settle]; exact hi)
  whole j i hi := h.whole (k + j) i (by rw [← view_settle]; exact hi)

theorem Private.settle (h : Private fs name tmp i) (k : ℕ) : Private (fs.settle k) name tmp i where
  live := by
    rw [live_settle]
    exact h.live
  other j := by
    rw [view_settle]
    exact h.other (k + j)

theorem Guarded.powerLoss (h : Guarded fs name P) (k : ℕ) : Guarded (fs.powerLoss k) name P where
  fresh j n i hi := h.fresh k n i (by rw [← view_powerLoss k j]; exact hi)
  inj j n n' i hi hi' := h.inj k n n' i (by rw [← view_powerLoss k j]; exact hi)
    (by rw [← view_powerLoss k j]; exact hi')
  apart j n i hn hi hl := hn (h.inj k n name i hl (by rw [← view_powerLoss k j]; exact hi))
  whole j i hi := by
    obtain ⟨d, hd, hinode⟩ := h.whole k i (by rw [← view_powerLoss k j]; exact hi)
    refine ⟨d, hd, ?_⟩
    show (⟨(fs.inode i).synced, (fs.inode i).synced⟩ : Inode D) = _
    rw [hinode]

/-! ### Reading -/

/-- What a guarded name is read as after a power failure. -/
theorem Guarded.readAfterLoss (h : Guarded fs name P) (k : ℕ) :
    fs.readAfterLoss k name = none ∨ ∃ d, P d ∧ fs.readAfterLoss k name = some (.whole d) := by
  cases hi : fs.view k name with
  | none => exact .inl (by rw [FS.readAfterLoss, hi]; rfl)
  | some i =>
      obtain ⟨d, hd, hinode⟩ := h.whole k i hi
      exact .inr ⟨d, hd, by rw [FS.readAfterLoss, hi, Option.map_some, hinode]⟩

theorem read_powerLoss (k : ℕ) (name : ν) :
    (fs.powerLoss k).read name = fs.readAfterLoss k name := rfl

theorem read_settle (k : ℕ) (name : ν) : (fs.settle k).read name = fs.read name := by
  rw [read, read, live_settle]
  rfl

theorem Private.read_setInode (h : Private fs name tmp i) (x : Inode D) :
    (fs.setInode i x).read name = fs.read name := by
  rw [read, read, live_setInode]
  cases hj : fs.live name with
  | none => rfl
  | some j =>
      have hne : j ≠ i := fun e => h.other fs.journal.length (by rw [view_length, hj, e])
      exact congrArg some (congrArg Inode.cached (Function.update_of_ne hne _ _))

theorem Guarded.read_openTrunc (h : Guarded fs name P) (hne : tmp ≠ name) :
    (fs.openTrunc tmp).2.read name = fs.read name := by
  unfold FS.openTrunc
  cases hl : fs.live tmp with
  | some i => exact Private.read_setInode ⟨hl, fun k hk => h.apart k tmp i hne hk hl⟩ _
  | none =>
      have hlive : ({ (fs.setInode fs.next ⟨.torn, .torn⟩).log (.link tmp fs.next) with
          next := fs.next + 1 } : FS ν D).live name = fs.live name :=
        (congrFun (live_log (fs.setInode fs.next ⟨.torn, .torn⟩) _) name).trans
          (Function.update_of_ne (Ne.symm hne) _ _)
      rw [read, read, hlive]
      cases hj : fs.live name with
      | none => rfl
      | some j =>
          have hlt : j ≠ fs.next := Nat.ne_of_lt (h.fresh_live hj)
          exact congrArg some (congrArg Inode.cached (Function.update_of_ne hlt _ _))

theorem Private.read_rename (h : Private fs name tmp i) (hne : tmp ≠ name) :
    (fs.rename tmp name).read name = some (fs.inode i).cached := by
  have hlive : (fs.rename tmp name).live name = some i := by
    rw [FS.rename, live_log, apply_rename_eq hne]
    exact .inl ⟨rfl, h.live⟩
  rw [read, hlive]
  rfl

end FS

end Xmq.FileSystem
