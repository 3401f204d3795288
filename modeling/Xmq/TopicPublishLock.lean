import Mathlib.Data.List.Basic
import Xmq.Runs

/-!
# Publishers, the topic lock and the log

A publisher holds the read lock of its topic while it waits for the entries it submits. The goroutine
that applies the entries takes the write lock for a new channel. When a publisher's entry comes to
lie behind the creation of a channel, each waits for the other.

* The lock is Go's `RWMutex`: a writer that waits keeps new readers out.
* A submission is appended and answered once it is applied, or refused at once.
-/

namespace Xmq.PublishLock

/-! ### Callers -/

/-- The entries of one topic: applying an update takes no lock, creating a channel does. -/
inductive Entry where
  | topicUpdate
  | newChannel
  deriving DecidableEq

inductive Instr where
  | rLock
  | rUnlock
  | submit (entry : Entry)
  deriving DecidableEq

/-- What `GetChannel` finds: the channel; no channel, and a creation that fails, that succeeds, or
that succeeds without the channel being there afterwards. -/
inductive Found where
  | present
  | failed
  | created
  | notSaved

inductive Call where
  | putMessage (exiting putFails : Bool)
  | putMessages (exiting : Bool)
  | getChannel (found : Found)

/-- The locks and submissions of a call, in order. `PutMessages` submits both counters also when a
`put` fails, and `getOrCreateChannel` keeps the lock when the channel was not saved. -/
def Call.program : Call → List Instr
  | putMessage exiting putFails =>
    if exiting ∨ putFails then [.rLock, .rUnlock]
    else [.rLock, .submit .topicUpdate, .submit .topicUpdate, .rUnlock]
  | putMessages exiting =>
    if exiting then [.rLock, .rUnlock]
    else [.rLock, .submit .topicUpdate, .submit .topicUpdate, .rUnlock]
  | getChannel .present => [.rLock, .rUnlock]
  | getChannel .failed => [.rLock, .rUnlock, .submit .newChannel]
  | getChannel .created => [.rLock, .rUnlock, .submit .newChannel, .rLock, .rUnlock]
  | getChannel .notSaved => [.rLock, .rUnlock, .submit .newChannel, .rLock]

/-- A caller holds the read lock or not, may wait for an entry, and has instructions to go. -/
structure Caller where
  holding : Bool
  waiting : Option ℕ
  todo : List Instr
  deriving DecidableEq

/-! ### The system -/

/-- What the applying goroutine does with the entry at `applied`. -/
inductive Applier where
  | idle
  | waitsForLock
  | holdsLock
  deriving DecidableEq

structure State where
  log : List Entry
  applied : ℕ
  applier : Applier
  callers : List Caller
  deriving DecidableEq

inductive Act where
  | call (c : Call)
  | instr (k : ℕ) (accepted : Bool)
  | apply
  | acquire
  | release

def init : State := ⟨[], 0, .idle, []⟩

def State.setCaller (s : State) (k : ℕ) (c : Caller) : State :=
  { s with callers := s.callers.set k c }

/-- The next instruction of the caller `k`; a wait is over when its entry is applied. -/
def instr (s : State) (k : ℕ) (accepted : Bool) : Option State :=
  match s.callers[k]? with
  | some ⟨holding, some e, todo⟩ =>
    if e < s.applied then some (s.setCaller k ⟨holding, none, todo⟩) else none
  | some ⟨_, none, .rLock :: todo⟩ =>
    if s.applier = .idle then some (s.setCaller k ⟨true, none, todo⟩) else none
  | some ⟨_, none, .rUnlock :: todo⟩ => some (s.setCaller k ⟨false, none, todo⟩)
  | some ⟨holding, none, .submit entry :: todo⟩ =>
    if accepted then
      some ({ s with log := s.log ++ [entry] }.setCaller k ⟨holding, some s.log.length, todo⟩)
    else some (s.setCaller k ⟨holding, none, todo⟩)
  | _ => none

def step (s : State) : Act → Option State
  | .call c => some { s with callers := s.callers ++ [⟨false, none, c.program⟩] }
  | .instr k accepted => instr s k accepted
  | .apply =>
    if s.applier = .idle then
      match s.log[s.applied]? with
      | some .topicUpdate => some { s with applied := s.applied + 1 }
      | some .newChannel => some { s with applier := .waitsForLock }
      | none => none
    else none
  | .acquire =>
    if s.applier = .waitsForLock ∧ ∀ c ∈ s.callers, c.holding = false then
      some { s with applier := .holdsLock }
    else none
  | .release =>
    if s.applier = .holdsLock then some { s with applier := .idle, applied := s.applied + 1 }
    else none

/-- **The deadlock.** The applying goroutine waits for the lock that a caller holds, and the caller
waits for an entry behind the one that is being applied. -/
def Deadlock (s : State) : Prop :=
  s.applier = .waitsForLock ∧
    ∃ c ∈ s.callers, c.holding = true ∧ ∃ e ∈ c.waiting, s.applied < e

instance (s : State) : Decidable (Deadlock s) :=
  inferInstanceAs (Decidable (_ ∧ _))

/-- The creation of a channel is queued or being applied. -/
def Creating (s : State) : Prop := Entry.newChannel ∈ s.log.drop s.applied

instance (s : State) : Decidable (Creating s) := inferInstanceAs (Decidable (_ ∈ _))

/-- The next thing that the caller does is to submit, and it holds the lock. -/
def Caller.submitsLocked : Caller → Bool
  | ⟨true, none, .submit _ :: _⟩ => true
  | _ => false

/-- The act is an accepted submission of a caller that holds the lock. -/
def SubmitsLocked (s : State) : Act → Prop
  | .instr k accepted => accepted = true ∧ ∃ c ∈ s.callers[k]?, c.submitsLocked = true
  | _ => False

instance (s : State) : ∀ a, Decidable (SubmitsLocked s a)
  | .instr _ _ => inferInstanceAs (Decidable (_ ∧ ∃ c ∈ _, _))
  | .call _ | .apply | .acquire | .release => isFalse id

/-- No caller submits while it holds the lock and the creation of a channel is under way. -/
def Clear (s : State) (a : Act) : Prop := SubmitsLocked s a → ¬ Creating s

instance (s : State) (a : Act) : Decidable (Clear s a) := inferInstanceAs (Decidable (_ → _))

/-! ### The invariant -/

/-- Whoever waits while holding the lock waits for an entry before the next creation; the goroutine
takes the lock only for a creation. -/
structure Inv (s : State) : Prop where
  ahead : ∀ c ∈ s.callers, c.holding = true → ∀ e ∈ c.waiting, ∀ m, s.applied ≤ m → m < e →
    s.log[m]? ≠ some .newChannel
  bounded : ∀ c ∈ s.callers, ∀ e ∈ c.waiting, e < s.log.length
  creation : s.applier ≠ .idle → s.log[s.applied]? = some .newChannel

theorem inv_init : Inv init where
  ahead := fun c h => by cases h
  bounded := fun c h => by cases h
  creation := fun h => absurd rfl h

theorem not_deadlock {s : State} (h : Inv s) : ¬ Deadlock s := by
  rintro ⟨hw, c, hc, hhold, e, he, hlt⟩
  exact h.ahead c hc hhold e he s.applied (Nat.le_refl _) hlt (h.creation (by rw [hw]; exact nofun))

/-- A caller that does not begin to wait changes. -/
theorem Inv.setCaller {s : State} (h : Inv s) {k : ℕ} {c c' : Caller} (hk : s.callers[k]? = some c)
    (hc : ∀ e ∈ c'.waiting, c'.holding = true → e ∈ c.waiting ∧ c.holding = true)
    (hb : ∀ e ∈ c'.waiting, e < s.log.length) : Inv (s.setCaller k c') where
  ahead := fun d hd hhold e he m hm hlt => by
    rcases List.mem_or_eq_of_mem_set hd with hd | rfl
    · exact h.ahead d hd hhold e he m hm hlt
    · obtain ⟨he', hhold'⟩ := hc e he hhold
      exact h.ahead c (List.mem_of_getElem? hk) hhold' e he' m hm hlt
  bounded := fun d hd e he => by
    rcases List.mem_or_eq_of_mem_set hd with hd | rfl
    · exact h.bounded d hd e he
    · exact hb e he
  creation := h.creation

theorem not_creating {s : State} (h : ¬ Creating s) {m : ℕ} (hm : s.applied ≤ m) :
    s.log[m]? ≠ some .newChannel := by
  intro hs
  apply h
  rw [Creating, List.mem_iff_getElem?]
  exact ⟨m - s.applied, by rw [List.getElem?_drop, Nat.add_sub_cancel' hm, hs]⟩

/-- An accepted submission, by a caller without the lock or with no creation under way. -/
theorem Inv.submit {s : State} (h : Inv s) (k : ℕ) {holding : Bool} (entry : Entry)
    (todo : List Instr) (hclear : holding = true → ¬ Creating s) :
    Inv ({ s with log := s.log ++ [entry] }.setCaller k ⟨holding, some s.log.length, todo⟩) where
  ahead := fun d hd hhold e he m hm hlt => by
    have hlog : ∀ m, m < s.log.length → (s.log ++ [entry])[m]? = s.log[m]? :=
      fun m hm => List.getElem?_append_left hm
    show (s.log ++ [entry])[m]? ≠ _
    rcases List.mem_or_eq_of_mem_set hd with hd | rfl
    · rw [hlog m (Nat.lt_trans hlt (h.bounded d hd e he))]
      exact h.ahead d hd hhold e he m hm hlt
    · cases he
      rw [hlog m hlt]
      exact not_creating (hclear hhold) hm
  bounded := fun d hd e he => by
    show e < (s.log ++ [entry]).length
    rw [List.length_append, List.length_singleton]
    rcases List.mem_or_eq_of_mem_set hd with hd | rfl
    · exact Nat.lt_succ_of_lt (h.bounded d hd e he)
    · cases he
      exact Nat.lt_succ_self _
  creation := fun happ => by
    have hc := h.creation happ
    show (s.log ++ [entry])[s.applied]? = _
    rw [List.getElem?_append_left (List.getElem?_eq_some_iff.mp hc).1, hc]

theorem inv_instr {s t : State} {k : ℕ} {accepted : Bool} (h : Inv s)
    (hclear : Clear s (.instr k accepted)) (hst : instr s k accepted = some t) : Inv t := by
  rw [instr] at hst
  split at hst
  · rename_i holding e todo hk
    split at hst
    · cases hst
      exact h.setCaller hk nofun nofun
    · cases hst
  · rename_i holding todo hk
    split at hst
    · cases hst
      exact h.setCaller hk nofun nofun
    · cases hst
  · rename_i holding todo hk
    cases hst
    exact h.setCaller hk nofun nofun
  · rename_i holding entry todo hk
    split at hst
    · rename_i hacc
      cases hst
      refine h.submit k entry todo fun hhold => hclear ⟨hacc, _, hk, ?_⟩
      rw [hhold]
      rfl
    · cases hst
      exact h.setCaller hk nofun nofun
  · cases hst

theorem inv_step {s t : State} {a : Act} (h : Inv s) (hclear : Clear s a)
    (hst : step s a = some t) : Inv t := by
  cases a with
  | call c =>
      cases hst
      refine ⟨fun d hd => ?_, fun d hd => ?_, h.creation⟩
      · rcases List.mem_append.mp hd with hd | hd
        · exact h.ahead d hd
        · rw [List.mem_singleton.mp hd]
          exact fun hhold => by cases hhold
      · rcases List.mem_append.mp hd with hd | hd
        · exact h.bounded d hd
        · rw [List.mem_singleton.mp hd]
          exact nofun
  | instr k accepted => exact inv_instr h hclear hst
  | apply =>
      rw [step] at hst
      split at hst
      · rename_i hidle
        split at hst
        · cases hst
          exact ⟨fun d hd hhold e he m hm hlt => h.ahead d hd hhold e he m (Nat.le_of_succ_le hm) hlt,
            h.bounded, fun happ => absurd hidle happ⟩
        · rename_i hlog
          cases hst
          exact ⟨h.ahead, h.bounded, fun _ => hlog⟩
        · cases hst
      · cases hst
  | acquire =>
      rw [step] at hst
      split at hst
      · rename_i hw
        cases hst
        exact ⟨h.ahead, h.bounded, fun _ => h.creation (by rw [hw.1]; exact nofun)⟩
      · cases hst
  | release =>
      rw [step] at hst
      split at hst
      · cases hst
        exact ⟨fun d hd hhold e he m hm hlt => h.ahead d hd hhold e he m (Nat.le_of_succ_le hm) hlt,
          h.bounded, fun happ => absurd rfl happ⟩
      · cases hst

/-! ### Where the deadlock comes from -/

/-- While the goroutine has the lock nobody else has, and it takes the lock only for a creation. -/
structure Exclusive (s : State) : Prop where
  alone : s.applier = .holdsLock → ∀ c ∈ s.callers, c.holding = false
  creation : s.applier ≠ .idle → s.log[s.applied]? = some .newChannel

theorem Exclusive.setCaller {s : State} (h : Exclusive s) {k : ℕ} {c' : Caller}
    (hc : c'.holding = true → s.applier ≠ .holdsLock) : Exclusive (s.setCaller k c') where
  alone := fun happ d hd => by
    rcases List.mem_or_eq_of_mem_set hd with hd | rfl
    · exact h.alone happ d hd
    · by_contra hh
      exact hc (Bool.not_eq_false _ ▸ hh) happ
  creation := h.creation

theorem exclusive_step {s t : State} {a : Act} (h : Exclusive s) (hst : step s a = some t) :
    Exclusive t := by
  have hold : ∀ {k : ℕ} {c : Caller}, s.callers[k]? = some c → c.holding = true →
      s.applier ≠ .holdsLock := by
    intro k c hk hh happ
    rw [h.alone happ c (List.mem_of_getElem? hk)] at hh
    cases hh
  cases a with
  | call c =>
      cases hst
      refine ⟨fun happ d hd => ?_, h.creation⟩
      rcases List.mem_append.mp hd with hd | hd
      · exact h.alone happ d hd
      · rw [List.mem_singleton.mp hd]
  | instr k accepted =>
      rw [step, instr] at hst
      split at hst
      · rename_i holding e todo hk
        split at hst
        · cases hst
          exact h.setCaller fun hh => hold hk hh
        · cases hst
      · rename_i hk
        split at hst
        · rename_i hidle
          cases hst
          exact h.setCaller fun _ => by rw [hidle]; exact nofun
        · cases hst
      · cases hst
        exact h.setCaller nofun
      · rename_i holding entry todo hk
        split at hst
        · cases hst
          have h' : Exclusive { s with log := s.log ++ [entry] } := ⟨h.alone, fun happ => by
            have hc := h.creation happ
            show (s.log ++ [entry])[s.applied]? = _
            rw [List.getElem?_append_left (List.getElem?_eq_some_iff.mp hc).1, hc]⟩
          exact h'.setCaller fun hh => hold hk hh
        · cases hst
          exact h.setCaller fun hh => hold hk hh
      · cases hst
  | apply =>
      rw [step] at hst
      split at hst
      · rename_i hidle
        split at hst
        · cases hst
          refine ⟨fun happ => ?_, fun happ => absurd hidle happ⟩
          rw [show s.applier = _ from happ] at hidle
          cases hidle
        · rename_i hlog
          cases hst
          exact ⟨nofun, fun _ => hlog⟩
        · cases hst
      · cases hst
  | acquire =>
      rw [step] at hst
      split at hst
      · rename_i hw
        cases hst
        exact ⟨fun _ => hw.2, fun _ => h.creation (by rw [hw.1]; exact nofun)⟩
      · cases hst
  | release =>
      rw [step] at hst
      split at hst
      · cases hst
        exact ⟨nofun, fun happ => absurd rfl happ⟩
      · cases hst

theorem deadlock_at {s : State} {c : Caller} {e : ℕ} (hx : Exclusive s) (hc : c ∈ s.callers)
    (hhold : c.holding = true) (hwait : c.waiting = some e) (hlt : s.applied < e)
    (hlog : s.log[s.applied]? = some .newChannel) :
    ∃ acts u, Runs.run step s acts = some u ∧ Deadlock u := by
  have hdead : ∀ t : State, t.applier = .waitsForLock → t.callers = s.callers →
      t.applied = s.applied → Deadlock t := fun t h₁ h₂ h₃ =>
    ⟨h₁, c, by rw [h₂]; exact hc, hhold, e, hwait, by rw [h₃]; exact hlt⟩
  cases happ : s.applier with
  | idle =>
      refine ⟨[.apply], { s with applier := .waitsForLock }, ?_, hdead _ rfl rfl rfl⟩
      rw [Runs.run, step, if_pos happ, hlog]
      rfl
  | waitsForLock => exact ⟨[], s, rfl, hdead s happ rfl rfl⟩
  | holdsLock =>
      rw [hx.alone happ c hc] at hhold
      cases hhold

/-- **Behind a creation.** A caller that holds the lock and waits for an entry behind a creation is
waited for by the goroutine once that has applied the entries before it. -/
theorem deadlock_behind (d : ℕ) : ∀ {s : State} {c : Caller} {e : ℕ}, Exclusive s →
    c ∈ s.callers → c.holding = true → c.waiting = some e → s.applied + d < e →
    s.log[s.applied + d]? = some .newChannel →
    ∃ acts u, Runs.run step s acts = some u ∧ Deadlock u := by
  induction d with
  | zero => exact fun hx hc hhold hwait hlt hlog => deadlock_at hx hc hhold hwait hlt hlog
  | succ d ih =>
      intro s c e hx hc hhold hwait hlt hlog
      have hlen : s.applied < s.log.length :=
        Nat.lt_of_le_of_lt (Nat.le_add_right _ _) (List.getElem?_eq_some_iff.mp hlog).1
      cases hnext : s.log[s.applied] with
      | newChannel =>
          exact deadlock_at hx hc hhold hwait (Nat.lt_of_le_of_lt (Nat.le_add_right _ _) hlt)
            (by rw [List.getElem?_eq_getElem hlen, hnext])
      | topicUpdate =>
          have hnext' : s.log[s.applied]? = some .topicUpdate := by
            rw [List.getElem?_eq_getElem hlen, hnext]
          have hidle : s.applier = .idle := by
            by_contra hne
            rw [hx.creation hne] at hnext'
            cases hnext'
          have hst : step s .apply = some { s with applied := s.applied + 1 } := by
            rw [step, if_pos hidle, hnext']
          have hsum : s.applied + 1 + d = s.applied + (d + 1) := by omega
          obtain ⟨acts, u, hrun, hdead⟩ := ih (exclusive_step hx hst) hc hhold hwait
            (show s.applied + 1 + d < e by rw [hsum]; exact hlt)
            (show s.log[s.applied + 1 + d]? = _ by rw [hsum]; exact hlog)
          exact ⟨.apply :: acts, u, (Runs.run_cons .apply acts u hst).mpr hrun, hdead⟩

/-- **The way into the deadlock.** Once a caller that holds the lock has submitted behind a creation,
the goroutine comes to wait for it. -/
theorem deadlock_of_not_clear {s t : State} {a : Act} (hx : Exclusive s) (hclear : ¬ Clear s a)
    (hst : step s a = some t) : ∃ acts u, Runs.run step t acts = some u ∧ Deadlock u := by
  have hx' := exclusive_step hx hst
  obtain ⟨hsub, hcreate⟩ := Classical.not_imp.mp hclear
  rw [not_not] at hcreate
  cases a with
  | instr k accepted =>
      obtain ⟨rfl, ⟨holding, waiting, todo⟩, hk, hlocked⟩ := hsub
      obtain ⟨rfl, rfl, entry, rest, rfl⟩ : holding = true ∧ waiting = none ∧
          ∃ entry rest, todo = .submit entry :: rest := by
        unfold Caller.submitsLocked at hlocked
        split at hlocked
        · rename_i heq
          cases heq
          exact ⟨rfl, rfl, _, _, rfl⟩
        · cases hlocked
      have hk' : s.callers[k]? = some ⟨true, none, .submit entry :: rest⟩ := hk
      rw [step, instr, hk'] at hst
      cases hst
      obtain ⟨j, hj⟩ := List.mem_iff_getElem?.mp hcreate
      rw [List.getElem?_drop] at hj
      have hlt := (List.getElem?_eq_some_iff.mp hj).1
      have hmem : (⟨true, some s.log.length, rest⟩ : Caller) ∈
          s.callers.set k ⟨true, some s.log.length, rest⟩ :=
        List.mem_set (List.getElem?_eq_some_iff.mp hk').1 _
      refine deadlock_behind j hx' hmem rfl rfl hlt ?_
      show (s.log ++ [entry])[s.applied + j]? = _
      rw [List.getElem?_append_left hlt, hj]
  | call c => exact hsub.elim
  | apply => exact hsub.elim
  | acquire => exact hsub.elim
  | release => exact hsub.elim

/-- **When publishing does not deadlock.** In every run in which no caller submits while it holds the
lock and the creation of a channel is under way, no state is a deadlock; and from every run in which
one does, a deadlock can be reached. -/
theorem publish_no_deadlock (acts : List Act) :
    (Runs.Along step Clear init acts → ∀ before after s, acts = before ++ after →
      Runs.run step init before = some s → ¬ Deadlock s) ∧
    (∀ before a after s t, acts = before ++ a :: after → Runs.run step init before = some s →
      step s a = some t → ¬ Clear s a →
      ∃ more u, Runs.run step init (before ++ a :: more) = some u ∧ Deadlock u) := by
  constructor
  · rintro hclear before after s rfl hrun
    exact not_deadlock (Runs.invariant_along (fun _ _ _ h hc hst => inv_step h hc hst) before init s
      inv_init hclear.left hrun)
  · rintro before a after s t rfl hrun hst hno
    have hx : Exclusive s := Runs.invariant_run (fun _ _ _ h hst => exclusive_step h hst) before init s
      ⟨nofun, fun h => absurd rfl h⟩ hrun
    obtain ⟨more, u, hmore, hdead⟩ := deadlock_of_not_clear hx hno hst
    refine ⟨more, u, ?_, hdead⟩
    rw [Runs.run_append, hrun, Option.bind_some, Runs.run_cons a more u hst, hmore]

/-- A channel is created, and then a message is published. -/
def createThenPublish : List Act :=
  [.call (.getChannel .created), .call (.putMessage false false),
    .instr 0 true, .instr 0 true, .instr 0 true, .apply, .acquire, .release,
    .instr 1 true, .instr 1 true, .apply, .instr 1 true]

theorem publish_no_deadlock_in_turn :
    ∃ s, Runs.run step init createThenPublish = some s ∧ s.applied = 2 ∧ ¬ Deadlock s := by
  obtain ⟨s, hs, happ⟩ := Runs.exists_of_run step init createThenPublish (fun s => s.applied = 2)
    (by decide)
  exact ⟨s, hs, happ, (publish_no_deadlock createThenPublish).1 (by decide)
    createThenPublish [] s (List.append_nil _).symm hs⟩

/-- A message is published while another client creates a channel. -/
def raceActs : List Act :=
  [.call (.getChannel .created), .call (.putMessage false false),
    .instr 0 true, .instr 0 true, .instr 0 true, .instr 1 true, .instr 1 true, .apply]

/-- The publisher waits behind the creation, and the goroutine waits for the publisher. -/
theorem publish_deadlocks :
    ¬ ∀ acts s, Runs.run step init acts = some s → ¬ Deadlock s := by
  intro h
  obtain ⟨s, hs, hdead⟩ := Runs.exists_of_run step init raceActs Deadlock (by decide)
  exact h raceActs s hs hdead

end Xmq.PublishLock
