import Mathlib.Algebra.Order.BigOperators.Group.List
import Mathlib.Algebra.Order.Group.Int
import Mathlib.Algebra.Ring.Int.Defs
import Xmq.Runs

/-!
# Programs that share a reader/writer lock

Any number of programs take and release one lock, and ask questions of the world around them; a
question may change the world. A lock is a number of readers and a flag for the writer; to release a
lock that is not held is a crash. That a waiting writer keeps new readers out is left to the order
of the acts.

* `WellLocked` follows one program along all answers: what it holds at each place, given that the
  answers are good, and that a bad answer leaves it where it goes wrong.
* `disciplined_iff` is about all programs together: in a run nobody releases what it does not hold,
  or returns with something held, exactly when all answers are good.
-/

namespace Xmq.RWLock

open Xmq.Runs

/-! ### The lock and the programs -/

structure RWMutex where
  readers : ℕ
  writer : Bool
  deriving DecidableEq

/-- A program: what it does to the lock, and what it does with the answers to its questions. -/
inductive Prog (Q : Type) (A : Q → Type) where
  | ret
  | rLock (k : Prog Q A)
  | rUnlock (k : Prog Q A)
  | lock (k : Prog Q A)
  | unlock (k : Prog Q A)
  | ask (q : Q) (k : A q → Prog Q A)

/-- The programs there are, and how the world `W` answers, given what comes from outside it. -/
structure Service (Q : Type) (A : Q → Type) (W I Op : Type) where
  program : Op → Prog Q A
  world : (q : Q) → I → W → Option (A q × W)

/-- A program under way, with the times it has taken each lock less the times it has released it. -/
structure Thread (Q : Type) (A : Q → Type) where
  reads : ℤ
  writes : ℤ
  todo : Prog Q A

structure State (Q : Type) (A : Q → Type) (W : Type) where
  mutex : RWMutex
  crashed : Bool
  threads : List (Thread Q A)
  world : W

/-- A free lock that nobody has used. -/
def init (Q : Type) (A : Q → Type) {W : Type} (w : W) : State Q A W := ⟨⟨0, false⟩, false, [], w⟩

/-- `go` is the next thing that a program does to the lock, and `answer` the next answer it gets. -/
inductive Act (I Op : Type) where
  | start (op : Op)
  | go (k : ℕ)
  | answer (k : ℕ) (i : I)

section Steps

variable {Q : Type} {A : Q → Type} {W I Op : Type}

def State.setThread (s : State Q A W) (k : ℕ) (t : Thread Q A) : State Q A W :=
  { s with threads := s.threads.set k t }

/-- What a program does to the lock; `none` while it has to wait. -/
def Thread.go (t : Thread Q A) (m : RWMutex) : Option (Thread Q A × RWMutex × Bool) :=
  match t.todo with
  | .rLock k =>
    if m.writer then none else some (⟨t.reads + 1, t.writes, k⟩, ⟨m.readers + 1, false⟩, false)
  | .rUnlock k =>
    some (⟨t.reads - 1, t.writes, k⟩, ⟨m.readers - 1, m.writer⟩, decide (m.readers = 0))
  | .lock k =>
    if m.writer = true ∨ m.readers ≠ 0 then none
    else some (⟨t.reads, t.writes + 1, k⟩, ⟨0, true⟩, false)
  | .unlock k => some (⟨t.reads, t.writes - 1, k⟩, ⟨m.readers, false⟩, !m.writer)
  | .ret | .ask _ _ => none

def Thread.answer (world : (q : Q) → I → W → Option (A q × W)) (t : Thread Q A) (i : I) (w : W) :
    Option (Thread Q A × W) :=
  match t.todo with
  | .ask q k => (world q i w).map fun r => ({ t with todo := k r.1 }, r.2)
  | .ret | .rLock _ | .rUnlock _ | .lock _ | .unlock _ => none

def step (service : Service Q A W I Op) (s : State Q A W) (a : Act I Op) : Option (State Q A W) :=
  if s.crashed then none
  else
    match a with
    | .start op => some { s with threads := s.threads ++ [⟨0, 0, service.program op⟩] }
    | .go k => do
      let t ← s.threads[k]?
      let (t', m, crashed) ← t.go s.mutex
      some { s.setThread k t' with mutex := m, crashed := crashed }
    | .answer k i => do
      let t ← s.threads[k]?
      let (t', w) ← t.answer service.world i s.world
      some { s.setThread k t' with world := w }

/-! ### Discipline -/

/-- The program releases only what it holds, and it has returned only without a lock. -/
structure Thread.Disciplined (t : Thread Q A) : Prop where
  rUnlock : ∀ k, t.todo = .rUnlock k → 0 < t.reads
  unlock : ∀ k, t.todo = .unlock k → 0 < t.writes
  ret : t.todo = .ret → t.reads = 0 ∧ t.writes = 0

/-- The lock is what the programs hold. -/
structure Accounted (s : State Q A W) : Prop where
  readers : (s.mutex.readers : ℤ) = (s.threads.map Thread.reads).sum
  writer : (if s.mutex.writer then 1 else 0 : ℤ) = (s.threads.map Thread.writes).sum

structure Disciplined (s : State Q A W) : Prop where
  running : s.crashed = false
  threads : ∀ t ∈ s.threads, t.Disciplined
  accounted : Accounted s

/-- Every state that the act can lead to is disciplined. -/
def LeavesDisciplined (service : Service Q A W I Op) (s : State Q A W) (a : Act I Op) : Prop :=
  ∀ t ∈ step service s a, Disciplined t

/-- The act is no bad answer. -/
def Careful (service : Service Q A W I Op) (ok : (q : Q) → A q → Prop) (s : State Q A W) :
    Act I Op → Prop
  | .answer k i => ∀ t ∈ s.threads[k]?, ∀ q f, t.todo = .ask q f →
      ∀ r ∈ service.world q i s.world, ok q r.1
  | .start _ => True
  | .go _ => True

/-! ### Following a program -/

/-- What a program holds. -/
inductive Held where
  | nothing
  | read
  | write
  deriving DecidableEq

def Held.reads : Held → ℤ
  | nothing => 0
  | read => 1
  | write => 0

def Held.writes : Held → ℤ
  | nothing => 0
  | read => 0
  | write => 1

/-- With this held, the program has gone wrong. -/
def Faulty (h : Held) : Prog Q A → Prop
  | .ret => h ≠ .nothing
  | .rUnlock _ => h ≠ .read
  | .unlock _ => h ≠ .write
  | .rLock _ => False
  | .lock _ => False
  | .ask _ _ => False

/-- With this held, the program goes right with good answers, and wrong at a bad one. -/
def WellLocked (ok : (q : Q) → A q → Prop) : Held → Prog Q A → Prop
  | h, .ret => h = .nothing
  | h, .rLock k => h = .nothing ∧ WellLocked ok .read k
  | h, .rUnlock k => h = .read ∧ WellLocked ok .nothing k
  | h, .lock k => h = .nothing ∧ WellLocked ok .write k
  | h, .unlock k => h = .write ∧ WellLocked ok .nothing k
  | h, .ask q k => ∀ a, (ok q a → WellLocked ok h (k a)) ∧ (¬ ok q a → Faulty h (k a))

/-- A program under way that goes right. -/
def Thread.Good (ok : (q : Q) → A q → Prop) (t : Thread Q A) : Prop :=
  ∃ h : Held, t.reads = h.reads ∧ t.writes = h.writes ∧ WellLocked ok h t.todo

/-- The invariant. -/
structure Inv (ok : (q : Q) → A q → Prop) (s : State Q A W) : Prop where
  running : s.crashed = false
  threads : ∀ t ∈ s.threads, t.Good ok
  accounted : Accounted s

variable {ok : (q : Q) → A q → Prop} {service : Service Q A W I Op} {s s' : State Q A W}
  {t t' : Thread Q A} {k : ℕ}

theorem init_inv (w : W) : Inv ok (init Q A w) where
  running := rfl
  threads := by simp [init]
  accounted := by constructor <;> simp [init]

theorem Thread.Good.disciplined (h : t.Good ok) : t.Disciplined := by
  obtain ⟨held, hreads, hwrites, hwell⟩ := h
  refine ⟨?_, ?_, ?_⟩
  · intro p hp
    rw [hp] at hwell
    simp [hreads, hwell.1, Held.reads]
  · intro p hp
    rw [hp] at hwell
    simp [hwrites, hwell.1, Held.writes]
  · intro hp
    rw [hp] at hwell
    have hnothing : held = .nothing := hwell
    simp [hreads, hwrites, hnothing, Held.reads, Held.writes]

theorem not_disciplined_of_faulty {held : Held} (hreads : t.reads = held.reads)
    (hwrites : t.writes = held.writes) (hf : Faulty held t.todo) : ¬ t.Disciplined := by
  intro hd
  cases ht : t.todo with
  | ret =>
      have hzero := hd.ret ht
      rw [ht] at hf
      cases held <;> simp_all [Faulty, Held.reads, Held.writes]
  | rUnlock p =>
      have hpos := hd.rUnlock p ht
      rw [ht] at hf
      cases held <;> simp_all [Faulty, Held.reads]
  | unlock p =>
      have hpos := hd.unlock p ht
      rw [ht] at hf
      cases held <;> simp_all [Faulty, Held.writes]
  | rLock p => simp [ht, Faulty] at hf
  | lock p => simp [ht, Faulty] at hf
  | ask q f => simp [ht, Faulty] at hf

theorem Inv.disciplined (h : Inv ok s) : Disciplined s :=
  ⟨h.running, fun t ht => (h.threads t ht).disciplined, h.accounted⟩

/-- A sum over the threads, when one of them changes. -/
theorem sum_set (f : Thread Q A → ℤ) {l : List (Thread Q A)} (hk : l[k]? = some t) :
    ((l.set k t').map f).sum = (l.map f).sum + (f t' - f t) := by
  induction l generalizing k with
  | nil => simp at hk
  | cons a l ih =>
      cases k with
      | zero =>
          simp only [List.getElem?_cons_zero, Option.some.injEq] at hk
          simp only [List.set_cons_zero, List.map_cons, List.sum_cons, hk]
          omega
      | succ k =>
          simp only [List.getElem?_cons_succ] at hk
          simp only [List.set_cons_succ, List.map_cons, List.sum_cons, ih hk]
          omega

theorem Thread.Good.nonneg (h : t.Good ok) : 0 ≤ t.reads ∧ 0 ≤ t.writes := by
  obtain ⟨held, hreads, hwrites, -⟩ := h
  rw [hreads, hwrites]
  cases held <;> simp [Held.reads, Held.writes]

/-- One program holds no more than all of them. -/
theorem Inv.le_sum (hi : Inv ok s) (f : Thread Q A → ℤ) (hf : ∀ t : Thread Q A, t.Good ok → 0 ≤ f t)
    (ht : t ∈ s.threads) : f t ≤ (s.threads.map f).sum := by
  apply List.single_le_sum
  · intro x hx
    obtain ⟨u, hu, rfl⟩ := List.mem_map.mp hx
    exact hf u (hi.threads u hu)
  · exact List.mem_map_of_mem ht

theorem Inv.setThread (hi : Inv ok s) (ht' : t'.Good ok) {m : RWMutex} {w : W}
    (hacc : Accounted { s.setThread k t' with mutex := m, world := w }) :
    Inv ok { s.setThread k t' with mutex := m, world := w } where
  running := hi.running
  threads := by
    intro u hu
    rcases List.mem_or_eq_of_mem_set hu with hu | rfl
    · exact hi.threads u hu
    · exact ht'
  accounted := hacc

/-- What the threads hold in sum, after one of them took or released something. -/
theorem accounted_setThread {m : RWMutex} {w : W} (hacc : Accounted s) (hk : s.threads[k]? = some t)
    (hr : (m.readers : ℤ) = s.mutex.readers + (t'.reads - t.reads))
    (hw : (if m.writer then 1 else 0 : ℤ) =
      (if s.mutex.writer then 1 else 0) + (t'.writes - t.writes)) :
    Accounted { s.setThread k t' with mutex := m, world := w } where
  readers := by
    simp only [State.setThread, sum_set Thread.reads hk, ← hacc.readers]
    exact hr
  writer := by
    simp only [State.setThread, sum_set Thread.writes hk, ← hacc.writer]
    exact hw

/-- **One step at the lock.** -/
theorem Inv.go {m : RWMutex} {c : Bool} (hi : Inv ok s) (hk : s.threads[k]? = some t)
    (h : t.go s.mutex = some (t', m, c)) :
    c = false ∧ Inv ok { s.setThread k t' with mutex := m, world := s.world } := by
  have hmem : t ∈ s.threads := List.mem_of_getElem? hk
  obtain ⟨held, hreads, hwrites, hwell⟩ := hi.threads t hmem
  have hle := hi.le_sum Thread.reads (fun _ hg => hg.nonneg.1) hmem
  have hle' := hi.le_sum Thread.writes (fun _ hg => hg.nonneg.2) hmem
  rw [← hi.accounted.readers] at hle
  rw [← hi.accounted.writer] at hle'
  unfold Thread.go at h
  cases ht : t.todo with
  | ret => simp [ht] at h
  | ask q f => simp [ht] at h
  | rLock p =>
      rw [ht] at hwell
      obtain ⟨rfl, hwell⟩ := hwell
      simp only [ht] at h
      split at h
      · cases h
      · rename_i hfree
        cases h
        have hgood : Thread.Good ok ⟨t.reads + 1, t.writes, p⟩ :=
          ⟨.read, by simp [hreads, Held.reads], hwrites, hwell⟩
        refine ⟨rfl, hi.setThread hgood (accounted_setThread hi.accounted hk ?_ ?_)⟩
        · simp
        · simp [hfree]
  | lock p =>
      rw [ht] at hwell
      obtain ⟨rfl, hwell⟩ := hwell
      simp only [ht] at h
      split at h
      · cases h
      · rename_i hfree
        simp only [not_or, not_not, Bool.not_eq_true] at hfree
        cases h
        have hgood : Thread.Good ok ⟨t.reads, t.writes + 1, p⟩ :=
          ⟨.write, hreads, by simp [hwrites, Held.writes], hwell⟩
        refine ⟨rfl, hi.setThread hgood (accounted_setThread hi.accounted hk ?_ ?_)⟩
        · simp [hfree.2]
        · simp [hfree.1]
  | rUnlock p =>
      rw [ht] at hwell
      obtain ⟨rfl, hwell⟩ := hwell
      simp only [ht] at h
      cases h
      simp only [hreads, Held.reads] at hle
      have hgood : Thread.Good ok ⟨t.reads - 1, t.writes, p⟩ :=
        ⟨.nothing, by simp [hreads, Held.reads], hwrites, hwell⟩
      refine ⟨by simp; omega, hi.setThread hgood (accounted_setThread hi.accounted hk ?_ ?_)⟩
      · simp
        omega
      · simp
  | unlock p =>
      rw [ht] at hwell
      obtain ⟨rfl, hwell⟩ := hwell
      simp only [ht] at h
      cases h
      have hwriter : s.mutex.writer = true := by
        by_contra hfree
        simp [hwrites, Held.writes, hfree] at hle'
      have hgood : Thread.Good ok ⟨t.reads, t.writes - 1, p⟩ :=
        ⟨.nothing, hreads, by simp [hwrites, Held.writes], hwell⟩
      refine ⟨by simp [hwriter], hi.setThread hgood (accounted_setThread hi.accounted hk ?_ ?_)⟩
      · simp
      · simp [hwriter]

/-- **One answer**, when it is a good one. -/
theorem Inv.answer {i : I} {w : W} (hi : Inv ok s) (hk : s.threads[k]? = some t)
    (hc : Careful service ok s (.answer k i : Act I Op))
    (h : t.answer service.world i s.world = some (t', w)) :
    Inv ok { s.setThread k t' with mutex := s.mutex, world := w } := by
  obtain ⟨held, hreads, hwrites, hwell⟩ := hi.threads t (List.mem_of_getElem? hk)
  unfold Thread.answer at h
  cases ht : t.todo with
  | ret => simp [ht] at h
  | rLock p => simp [ht] at h
  | rUnlock p => simp [ht] at h
  | lock p => simp [ht] at h
  | unlock p => simp [ht] at h
  | ask q f =>
      rw [ht] at hwell
      simp only [ht, Option.map_eq_some_iff] at h
      obtain ⟨r, hr, h⟩ := h
      have hok := hc t (by simp [hk]) q f ht r (by simp [hr])
      cases h
      have hgood : Thread.Good ok { t with todo := f r.1 } :=
        ⟨held, hreads, hwrites, (hwell r.1).1 hok⟩
      refine hi.setThread hgood (accounted_setThread hi.accounted hk ?_ ?_)
      · simp
      · simp

theorem step_inv (hprog : ∀ op, WellLocked ok .nothing (service.program op)) {a : Act I Op}
    (hi : Inv ok s) (hc : Careful service ok s a) (h : step service s a = some s') : Inv ok s' := by
  simp only [step, hi.running, Bool.false_eq_true, if_false] at h
  cases a with
  | start op =>
      cases h
      refine ⟨rfl, ?_, ?_⟩
      · intro t ht
        rcases List.mem_append.mp ht with ht | ht
        · exact hi.threads t ht
        · rw [List.mem_singleton.mp ht]
          exact ⟨.nothing, rfl, rfl, hprog op⟩
      · constructor
        · simpa using hi.accounted.readers
        · simpa using hi.accounted.writer
  | go k =>
      simp only [Option.bind_eq_bind, Option.bind_eq_some_iff] at h
      obtain ⟨t, hk, ⟨t', m, c⟩, hgo, h⟩ := h
      obtain ⟨rfl, hinv⟩ := hi.go hk hgo
      cases h
      have hrun : ({ s.setThread k t' with mutex := m, crashed := false } : State Q A W) =
          { s.setThread k t' with mutex := m, world := s.world } := by
        simp [State.setThread, hi.running]
      rw [hrun]
      exact hinv
  | answer k i =>
      simp only [Option.bind_eq_bind, Option.bind_eq_some_iff] at h
      obtain ⟨t, hk, ⟨t', w⟩, hans, h⟩ := h
      cases h
      exact hi.answer hk hc hans

/-- **A bad answer** leaves a program where it goes wrong. -/
theorem careful_of_leavesDisciplined {a : Act I Op} (hi : Inv ok s)
    (h : LeavesDisciplined service s a) : Careful service ok s a := by
  cases a with
  | start op => trivial
  | go k => trivial
  | answer k i =>
      intro t ht q f hask r hr
      by_contra hbad
      obtain ⟨held, hreads, hwrites, hwell⟩ := hi.threads t (List.mem_of_getElem? ht)
      rw [hask] at hwell
      have hfaulty := (hwell r.1).2 hbad
      have hstep : step service s (.answer k i) =
          some { s.setThread k { t with todo := f r.1 } with world := r.2 } := by
        simp only [Option.mem_def] at ht hr
        simp [step, hi.running, ht, Thread.answer, hask, hr]
      have hd := (h _ hstep).threads { t with todo := f r.1 } (by
        simp only [State.setThread]
        exact List.mem_set (by
          rw [Option.mem_def, List.getElem?_eq_some_iff] at ht
          exact ht.1) _)
      exact not_disciplined_of_faulty (t := { t with todo := f r.1 }) hreads hwrites hfaulty hd

/-- **Good answers are all that it takes.** -/
theorem disciplined_iff (hprog : ∀ op, WellLocked ok .nothing (service.program op)) (w : W)
    (acts : List (Act I Op)) :
    Along (step service) (LeavesDisciplined service) (init Q A w) acts ↔
      Along (step service) (Careful service ok) (init Q A w) acts := by
  constructor
  · apply along_imp (I := Inv ok) _ _ acts _ (init_inv w)
    · intro s a t hi hgood ht
      exact step_inv hprog hi (careful_of_leavesDisciplined hi hgood) ht
    · intro s a hi hgood
      exact careful_of_leavesDisciplined hi hgood
  · apply along_imp (I := Inv ok) _ _ acts _ (init_inv w)
    · intro s a t hi hgood ht
      exact step_inv hprog hi hgood ht
    · intro s a hi hgood t ht
      exact (step_inv hprog hi hgood ht).disciplined

end Steps

end Xmq.RWLock
