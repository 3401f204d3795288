import Mathlib.Data.Finset.Card
import Xmq.Message
import Xmq.Runs

/-!
# The limit of consumers

`AddClient` reads the map of clients and its size, releases the lock, decides, and inserts under the
lock taken again. The exit mutex, which it holds all the while, is held for reading only, so any
number of calls may be between their two steps. This module runs any number of calls of `AddClient`
and `RemoveClient` against one channel.

* A call is a row of `calls`; its first step is the read or the check, its second one the insertion
  or the deletion.
* `Channel.exit` needs the exit mutex for itself, so it waits for the calls that are between their
  steps.
-/

namespace Xmq.Consumers

open Runs

/-- What `AddClient` reads of the channel and of the options. -/
structure Config where
  topicName : String
  name : String
  maxChannelConsumers : ℕ

/-- Where a call is: about to insert, about to delete, or over with what it returned. -/
inductive PC where
  | inserting
  | deleting
  | returned (err : GoError)
  deriving DecidableEq

structure Call where
  clientID : String
  pc : PC
  deriving DecidableEq

structure State where
  clients : Finset String
  exitFlag : Bool
  calls : List Call

/-- A channel without clients. -/
def init : State := ⟨∅, false, []⟩

inductive Act where
  | addClient (clientID : String)
  | insert (k : ℕ)
  | removeClient (clientID : String)
  | delete (k : ℕ)
  | exit
  deriving DecidableEq

def limitError (c : Config) : String :=
  "consumers for " ++ c.topicName ++ ":" ++ c.name ++ " exceeds limit of " ++
    toString c.maxChannelConsumers

/-- The limit refuses the client. -/
def refuses (c : Config) (s : State) : Bool :=
  c.maxChannelConsumers != 0 && decide (s.clients.card ≥ c.maxChannelConsumers)

/-- `AddClient` up to the insertion. -/
def addClient (c : Config) (s : State) (clientID : String) : PC :=
  if s.exitFlag then .returned (some "exiting")
  else if clientID ∈ s.clients then .returned none
  else if refuses c s then .returned (some (limitError c))
  else .inserting

/-- `RemoveClient` up to the deletion. It returns nothing. -/
def removeClient (s : State) (clientID : String) : PC :=
  if s.exitFlag ∨ clientID ∉ s.clients then .returned none else .deleting

/-- The call is between its two steps, with the exit mutex held for reading. -/
def Call.inside (call : Call) : Bool := call.pc = .inserting ∨ call.pc = .deleting

def step (c : Config) (s : State) : Act → Option State
  | .addClient clientID =>
    some { s with calls := s.calls ++ [⟨clientID, addClient c s clientID⟩] }
  | .insert k =>
    match s.calls[k]? with
    | some ⟨clientID, .inserting⟩ =>
      some
        { s with
          clients := insert clientID s.clients
          calls := s.calls.set k ⟨clientID, .returned none⟩ }
    | _ => none
  | .removeClient clientID =>
    some { s with calls := s.calls ++ [⟨clientID, removeClient s clientID⟩] }
  | .delete k =>
    match s.calls[k]? with
    | some ⟨clientID, .deleting⟩ =>
      some
        { s with
          clients := s.clients.erase clientID
          calls := s.calls.set k ⟨clientID, .returned none⟩ }
    | _ => none
  | .exit => if s.calls.any Call.inside then none else some { s with exitFlag := true }

/-! ### What a step does to the map -/

/-- The act is the insertion of the client. -/
def Inserts (s : State) (a : Act) (clientID : String) : Prop :=
  ∃ k, a = .insert k ∧ s.calls[k]? = some ⟨clientID, .inserting⟩

/-- The act is the deletion of the client. -/
def Deletes (s : State) (a : Act) (clientID : String) : Prop :=
  ∃ k, a = .delete k ∧ s.calls[k]? = some ⟨clientID, .deleting⟩

/-- The act makes an `AddClient` of the client return nil. -/
def Adds (s : State) (a : Act) (clientID : String) : Prop :=
  Inserts s a clientID ∨
    a = .addClient clientID ∧ s.exitFlag = false ∧ clientID ∈ s.clients

/-- An insertion comes when the check that came before it would still let the client in. -/
def StillAdmitted (c : Config) (s : State) : Act → Prop
  | .insert k =>
    match s.calls[k]? with
    | some ⟨clientID, .inserting⟩ => clientID ∈ s.clients ∨ refuses c s = false
    | _ => True
  | _ => True

instance (c : Config) (s : State) (a : Act) : Decidable (StillAdmitted c s a) := by
  unfold StillAdmitted
  split
  · split <;> infer_instance
  · infer_instance

variable {c : Config} {s t : State} {a : Act}

theorem stillAdmitted_iff : StillAdmitted c s a ↔
    ∀ clientID, Inserts s a clientID → clientID ∈ s.clients ∨ refuses c s = false := by
  unfold StillAdmitted
  split
  · rename_i k
    split
    · rename_i clientID hk
      refine ⟨?_, fun h => h clientID ⟨k, rfl, hk⟩⟩
      rintro h id ⟨k', hk', hcall⟩
      cases hk'
      rw [hk] at hcall
      cases hcall
      exact h
    · rename_i hno
      refine ⟨?_, fun _ => trivial⟩
      rintro - id ⟨k', hk', hcall⟩
      cases hk'
      exact absurd hcall (hno id)
  · rename_i hno
    refine ⟨?_, fun _ => trivial⟩
    rintro - id ⟨k, hk, -⟩
    exact absurd hk (hno k)

theorem refuses_iff (hc : 0 < c.maxChannelConsumers) :
    refuses c s = false ↔ s.clients.card < c.maxChannelConsumers := by
  simp only [refuses, Bool.and_eq_false_iff, bne_eq_false_iff_eq, decide_eq_false_iff_not]
  omega

/-- One client more, one client less, or the same clients. -/
theorem step_cases (h : step c s a = some t) :
    (∃ clientID, Inserts s a clientID ∧ t.clients = insert clientID s.clients) ∨
      (∃ clientID, Deletes s a clientID ∧ t.clients = s.clients.erase clientID) ∨
      (∀ clientID, ¬ Inserts s a clientID) ∧ t.clients = s.clients := by
  cases a with
  | addClient clientID =>
      cases h
      refine .inr (.inr ⟨?_, rfl⟩)
      rintro id ⟨k, hk, -⟩
      cases hk
  | insert k =>
      simp only [step] at h
      split at h
      · rename_i clientID hk
        cases h
        exact .inl ⟨clientID, ⟨k, rfl, hk⟩, rfl⟩
      · cases h
  | removeClient clientID =>
      cases h
      refine .inr (.inr ⟨?_, rfl⟩)
      rintro id ⟨k, hk, -⟩
      cases hk
  | delete k =>
      simp only [step] at h
      split at h
      · rename_i clientID hk
        cases h
        exact .inr (.inl ⟨clientID, ⟨k, rfl, hk⟩, rfl⟩)
      · cases h
  | exit =>
      simp only [step] at h
      split at h
      · cases h
      · cases h
        refine .inr (.inr ⟨?_, rfl⟩)
        rintro id ⟨k, hk, -⟩
        cases hk

/-- A step within the limit ends within the limit exactly when its insertion is still admitted. -/
theorem step_limit_iff (hc : 0 < c.maxChannelConsumers)
    (hs : s.clients.card ≤ c.maxChannelConsumers) (h : step c s a = some t) :
    t.clients.card ≤ c.maxChannelConsumers ↔ StillAdmitted c s a := by
  rw [stillAdmitted_iff]
  rcases step_cases h with ⟨id, hins, ht⟩ | ⟨id, hdel, ht⟩ | ⟨hno, ht⟩
  · have honly : (∀ id', Inserts s a id' → id' ∈ s.clients ∨ refuses c s = false) ↔
        id ∈ s.clients ∨ refuses c s = false := by
      refine ⟨fun hadm => hadm id hins, fun hadm id' hins' => ?_⟩
      obtain ⟨k, hk, hcall⟩ := hins
      obtain ⟨k', hk', hcall'⟩ := hins'
      rw [hk] at hk'
      cases hk'
      rw [hcall] at hcall'
      cases hcall'
      exact hadm
    rw [honly, ht, refuses_iff hc]
    by_cases hmem : id ∈ s.clients
    · simp [hmem, hs]
    · rw [Finset.card_insert_of_notMem hmem, or_iff_right hmem]
      omega
  · refine ⟨fun _ id' ⟨k, hk, _⟩ => ?_, fun _ => ?_⟩
    · obtain ⟨k', hk', -⟩ := hdel
      rw [hk] at hk'
      cases hk'
    · rw [ht]
      exact Finset.card_erase_le.trans hs
  · refine ⟨fun _ id' hins => absurd hins (hno id'), fun _ => ?_⟩
    rw [ht]
    exact hs

/-- The client stays in the map as long as no deletion of it comes. -/
theorem step_kept {id : String} (hid : id ∈ s.clients) (hdel : ¬ Deletes s a id)
    (h : step c s a = some t) : id ∈ t.clients := by
  rcases step_cases h with ⟨other, -, ht⟩ | ⟨other, hother, ht⟩ | ⟨-, ht⟩
  · rw [ht]
    exact Finset.mem_insert_of_mem hid
  · rw [ht]
    refine Finset.mem_erase.mpr ⟨fun e => hdel (e ▸ hother), hid⟩
  · rw [ht]
    exact hid

theorem mem_of_adds {id : String} (hadd : Adds s a id) (h : step c s a = some t) :
    id ∈ t.clients := by
  rcases hadd with ⟨k, rfl, hk⟩ | ⟨rfl, -, hid⟩
  · simp only [step, hk] at h
    cases h
    exact Finset.mem_insert_self id s.clients
  · cases h
    exact hid

/-! ### Runs -/

/-- The map never holds more clients than the limit in this run. -/
def WithinLimit (c : Config) (as : List Act) : Prop :=
  ∀ bs, bs <+: as → ∀ t, run (step c) init bs = some t → t.clients.card ≤ c.maxChannelConsumers

/-- A client whose `AddClient` returned nil in this run, and that was not deleted since, is in the
map. -/
def KeepsAdded (c : Config) (as : List Act) : Prop :=
  ∀ before a after s t u id, before ++ a :: after = as → run (step c) init before = some s →
    step c s a = some t → Adds s a id → Along (step c) (fun s a => ¬ Deletes s a id) t after →
    run (step c) t after = some u → id ∈ u.clients

theorem step_of_inserts {id : String} (hins : Inserts s a id) : ∃ t, step c s a = some t := by
  obtain ⟨k, rfl, hk⟩ := hins
  exact ⟨_, by simp only [step, hk]; rfl⟩

theorem prefixes_limit_iff (hc : 0 < c.maxChannelConsumers) (as : List Act) :
    ∀ s : State, s.clients.card ≤ c.maxChannelConsumers →
      ((∀ bs, bs <+: as → ∀ t, run (step c) s bs = some t →
          t.clients.card ≤ c.maxChannelConsumers) ↔
        Along (step c) (StillAdmitted c) s as) := by
  induction as with
  | nil =>
      intro s hs
      refine ⟨fun _ => trivial, fun _ bs hbs t ht => ?_⟩
      rw [List.prefix_nil.mp hbs] at ht
      cases ht
      exact hs
  | cons a as ih =>
      intro s hs
      cases hstep : step c s a with
      | none =>
          simp only [Along, hstep, and_true]
          rw [stillAdmitted_iff]
          refine ⟨fun _ id hins => ?_, fun _ bs hbs t ht => ?_⟩
          · obtain ⟨t, ht⟩ := step_of_inserts (c := c) hins
            rw [hstep] at ht
            cases ht
          · cases bs with
            | nil =>
                cases ht
                exact hs
            | cons b bs =>
                obtain ⟨u, hu, -⟩ := run_cons_elim ht
                rw [(List.cons_prefix_cons.mp hbs).1, hstep] at hu
                cases hu
      | some u =>
          simp only [Along, hstep]
          rw [← step_limit_iff hc hs hstep]
          constructor
          · intro h
            have hu : u.clients.card ≤ c.maxChannelConsumers :=
              h [a] (List.cons_prefix_cons.mpr ⟨rfl, List.nil_prefix⟩) u
                ((run_cons a [] u hstep).mpr rfl)
            refine ⟨hu, (ih u hu).mp fun bs hbs t ht => ?_⟩
            exact h (a :: bs) (List.cons_prefix_cons.mpr ⟨rfl, hbs⟩) t
              ((run_cons a bs t hstep).mpr ht)
          · rintro ⟨hu, halong⟩ bs hbs t ht
            cases bs with
            | nil =>
                cases ht
                exact hs
            | cons b bs =>
                obtain ⟨rfl, hrest⟩ := List.cons_prefix_cons.mp hbs
                exact (ih u hu).mpr halong bs hrest t ((run_cons b bs t hstep).mp ht)

theorem keepsAdded (c : Config) (as : List Act) : KeepsAdded c as := by
  intro before a after s t u id _ _ hstep hadd hkeep hrun
  exact invariant_along (I := fun s => id ∈ s.clients)
    (fun s a t hid hdel h => step_kept hid hdel h) after t u (mem_of_adds hadd hstep) hkeep hrun

/-- **The consumer limit** holds in exactly the runs in which no client is inserted that the check
would refuse by now; who was added is there in every run. -/
theorem consumer_limit_iff (hc : 0 < c.maxChannelConsumers) (as : List Act) :
    WithinLimit c as ∧ KeepsAdded c as ↔ Along (step c) (StillAdmitted c) init as := by
  rw [← prefixes_limit_iff hc as init (Nat.zero_le _)]
  exact ⟨fun h => h.1, fun h => ⟨h, keepsAdded c as⟩⟩

/-! ### Two clients at once -/

/-- Room for one client. -/
def one : Config := ⟨"t", "ch", 1⟩

/-- Both clients read the empty map, and then both insert. -/
def twoAtOnce : List Act := [.addClient "a", .addClient "b", .insert 0, .insert 1]

theorem limit_exceeded : ¬ (WithinLimit one twoAtOnce ∧ KeepsAdded one twoAtOnce) := by
  rintro ⟨h, -⟩
  have hrun : ∃ t, run (step one) init twoAtOnce = some t ∧ t.clients.card = 2 :=
    ⟨_, rfl, by decide⟩
  obtain ⟨t, ht, hcard⟩ := hrun
  have hle : t.clients.card ≤ 1 := h twoAtOnce List.prefix_rfl t ht
  omega

/-- One after the other, the second client is refused. -/
theorem consumer_limit_iff_one :
    WithinLimit one [.addClient "a", .insert 0, .addClient "b"] ∧
      KeepsAdded one [.addClient "a", .insert 0, .addClient "b"] :=
  (consumer_limit_iff (by decide) [.addClient "a", .insert 0, .addClient "b"]).mpr
    (by decide)

end Xmq.Consumers
