import Mathlib.Algebra.BigOperators.Group.List.Basic
import Mathlib.Algebra.Group.Int.Defs
import Mathlib.Logic.Function.Basic
import Xmq.ClusterModel
import Xmq.Runs

/-!
# The counters of a topic on the leader

A publisher adds to a counter of the topic and submits the value that it reads next; the goroutine
that applies the entries stores that value in the same counter. A store is older than its entry, so
what other publishers have added since is taken away again.

* Adding, reading, submitting and storing are steps of their own. On the leader every submission
  gets into the log.
* The lengths of bodies and lists are Go integers, below `2 ^ 63`.
-/

namespace Xmq.Counters

open Cluster (Libs)

/-! ### Publishers -/

inductive Counter where
  | messageCount
  | messageBytes
  deriving DecidableEq

inductive Instr where
  | put (bodyLen : ℕ)
  | add (f : Counter) (k : ℕ)
  | submit (f : Counter)
  deriving DecidableEq

/-- `PutMessage` whose `put` succeeds or not, and `PutMessages` of which the first `puts` messages
get through. -/
inductive Call where
  | putMessage (bodyLen : ℕ) (put : Bool)
  | putMessages (bodyLens : List ℕ) (puts : ℕ)

/-- What the call does, in order. -/
def Call.program : Call → List Instr
  | putMessage bodyLen put =>
    if put then
      [.put bodyLen, .add .messageCount 1, .submit .messageCount, .add .messageBytes bodyLen,
        .submit .messageBytes]
    else []
  | putMessages bodyLens puts =>
    if puts < bodyLens.length then
      (bodyLens.take puts).map .put ++
        [.add .messageCount puts, .submit .messageCount,
          .add .messageBytes (bodyLens.take puts).sum, .submit .messageBytes]
    else
      bodyLens.map .put ++
        [.add .messageBytes bodyLens.sum, .submit .messageBytes,
          .add .messageCount bodyLens.length, .submit .messageCount]

/-- Everything that the call counts is a Go integer. -/
def Call.Fits : Call → Prop
  | putMessage bodyLen _ => bodyLen < 2 ^ 63
  | putMessages bodyLens _ => bodyLens.length < 2 ^ 63 ∧ bodyLens.sum < 2 ^ 63

instance : ∀ c, Decidable (Call.Fits c)
  | .putMessage bodyLen _ => inferInstanceAs (Decidable (bodyLen < 2 ^ 63))
  | .putMessages bodyLens _ =>
    inferInstanceAs (Decidable (bodyLens.length < 2 ^ 63 ∧ bodyLens.sum < 2 ^ 63))

/-- A submission under way: the value has been read, or the entry is waited for. -/
inductive Pending where
  | none
  | read (f : Counter) (v : UInt64)
  | waiting (e : ℕ)
  deriving DecidableEq

structure Publisher where
  pending : Pending
  todo : List Instr
  deriving DecidableEq

/-- The field that the submissions name. -/
def Counter.field : Counter → String
  | messageCount => "MessageCount"
  | messageBytes => "MessageBytes"

/-- The counter of a topic of the node. -/
def Counter.get (t : Cluster.TopicObj) : Counter → UInt64
  | messageCount => t.messageCount
  | messageBytes => t.messageBytes

/-! ### The system -/

/-- `accepted` is what the counters are meant to count. -/
structure State where
  value : Counter → UInt64
  accepted : Counter → ℕ
  log : List (Counter × String)
  applied : ℕ
  publishers : List Publisher

inductive Act where
  | call (c : Call)
  | instr (k : ℕ)
  | apply

def init : State := ⟨fun _ => 0, fun _ => 0, [], 0, []⟩

def State.setPublisher (s : State) (k : ℕ) (p : Publisher) : State :=
  { s with publishers := s.publishers.set k p }

/-- What a message adds to a counter. -/
def Counter.ofMessage : Counter → ℕ → ℕ
  | messageCount, _ => 1
  | messageBytes, bodyLen => bodyLen

def instr (libs : Libs) (s : State) (k : ℕ) : Option State :=
  match s.publishers[k]? with
  | some ⟨.read f v, todo⟩ =>
    some ({ s with log := s.log ++ [(f, libs.uint64ToString v)] }.setPublisher k
      ⟨.waiting s.log.length, todo⟩)
  | some ⟨.waiting e, todo⟩ =>
    if e < s.applied then some (s.setPublisher k ⟨.none, todo⟩) else none
  | some ⟨.none, .put bodyLen :: todo⟩ =>
    some ({ s with accepted := fun f => s.accepted f + f.ofMessage bodyLen }.setPublisher k
      ⟨.none, todo⟩)
  | some ⟨.none, .add f n :: todo⟩ =>
    some ({ s with value := Function.update s.value f (s.value f + UInt64.ofNat n) }.setPublisher k
      ⟨.none, todo⟩)
  | some ⟨.none, .submit f :: todo⟩ => some (s.setPublisher k ⟨.read f (s.value f), todo⟩)
  | some ⟨.none, []⟩ => none
  | none => none

def step (libs : Libs) (s : State) : Act → Option State
  | .call c =>
    if c.Fits then some { s with publishers := s.publishers ++ [⟨.none, c.program⟩] } else none
  | .instr k => instr libs s k
  | .apply =>
    match s.log[s.applied]? with
    | some (f, text) =>
      some { s with
        value := Function.update s.value f (libs.toUint64 text)
        applied := s.applied + 1 }
    | none => none

/-- All calls have returned and all entries are applied. -/
def Quiet (s : State) : Prop :=
  s.applied = s.log.length ∧ ∀ p ∈ s.publishers, p = ⟨.none, []⟩

instance (s : State) : Decidable (Quiet s) := inferInstanceAs (Decidable (_ ∧ _))

/-- The act does not make a counter smaller. -/
def Grows (libs : Libs) (s : State) (a : Act) : Prop :=
  ∀ t ∈ step libs s a, ∀ f, s.value f ≤ t.value f

/-- The addition that the publisher makes next does not wrap. -/
def Publisher.AddFits (value : Counter → UInt64) : Publisher → Prop
  | ⟨.none, .add f n :: _⟩ => (value f).toNat + n < 2 ^ 64
  | _ => True

instance (value : Counter → UInt64) : ∀ p, Decidable (Publisher.AddFits value p)
  | ⟨.none, .add f n :: _⟩ => inferInstanceAs (Decidable ((value f).toNat + n < 2 ^ 64))
  | ⟨.none, []⟩ | ⟨.none, .put _ :: _⟩ | ⟨.none, .submit _ :: _⟩ => isTrue trivial
  | ⟨.read _ _, _⟩ | ⟨.waiting _, _⟩ => isTrue trivial

/-- A store writes what the counter holds, and an addition does not wrap. -/
def Exact (libs : Libs) (s : State) : Act → Prop
  | .call _ => True
  | .instr k => ∀ p ∈ s.publishers[k]?, p.AddFits s.value
  | .apply => ∀ x ∈ s.log[s.applied]?, libs.toUint64 x.2 = s.value x.1

instance (libs : Libs) (s : State) : ∀ a, Decidable (Exact libs s a)
  | .call _ => isTrue trivial
  | .instr k => inferInstanceAs (Decidable (∀ p ∈ s.publishers[k]?, p.AddFits s.value))
  | .apply => inferInstanceAs (Decidable (∀ x ∈ s.log[s.applied]?, _ = _))

/-- **No lost update.** No counter ever decreases, and when all is done it counts what was accepted. -/
def CountsAll (libs : Libs) (acts : List Act) : Prop :=
  Runs.Along (step libs) (Grows libs) init acts ∧
  ∀ before after s, acts = before ++ after → Runs.run (step libs) init before = some s → Quiet s →
    ∀ f, (s.value f).toNat = s.accepted f

/-! ### The stores of the node -/

/-- Applying an entry does to the counters of the topic on the node what `step` does here. -/
theorem apply_topicUpdateEntry (libs : Libs) (role : Cluster.Role) (n : Cluster.Node) {name : String}
    (hname : name ≠ "") {p : Cluster.TopicPtr} (hp : n.topics.lookup name = some p) (f : Counter)
    (text : String) :
    ∃ n', Cluster.apply libs role n (Cluster.topicUpdateEntry name f.field text) = .done none n' ∧
      (fun g => Counter.get (n'.topicObj p) g) =
        Function.update (fun g => Counter.get (n.topicObj p) g) f (libs.toUint64 text) := by
  have hfield : f.field ≠ "" := by cases f <;> decide
  have happly : Cluster.apply libs role n (Cluster.topicUpdateEntry name f.field text) =
      Cluster.clusterTopicUpdate libs n (Cluster.topicUpdateEntry name f.field text) := rfl
  rw [happly]
  simp only [Cluster.clusterTopicUpdate, Cluster.topicUpdateEntry, hname, hfield, or_self, if_false,
    hp]
  cases f
  · refine ⟨_, rfl, ?_⟩
    rw [Cluster.Node.setTopic_self]
    funext g
    cases g <;> rfl
  · refine ⟨_, rfl, ?_⟩
    rw [Cluster.Node.setTopic_self]
    funext g
    cases g <;> rfl

/-! ### What the publishers still owe -/

/-- What the instruction still adds to the counter, less what it still accepts. -/
def Instr.owes (f : Counter) : Instr → ℤ
  | .put bodyLen => -(f.ofMessage bodyLen : ℤ)
  | .add g n => if g = f then (n : ℤ) else 0
  | .submit _ => 0

def Publisher.owes (f : Counter) (p : Publisher) : ℤ := (p.todo.map (Instr.owes f)).sum

def State.owes (s : State) (f : Counter) : ℤ := (s.publishers.map (Publisher.owes f)).sum

theorem puts_owe (f : Counter) (bodyLens : List ℕ) :
    ((bodyLens.map Instr.put).map (Instr.owes f)).sum = -((bodyLens.map f.ofMessage).sum : ℤ) := by
  induction bodyLens with
  | nil => rfl
  | cons k ks ih =>
      simp only [List.map_cons, List.sum_cons, ih, Instr.owes]
      push_cast
      omega

theorem messageCount_sum (bodyLens : List ℕ) :
    (bodyLens.map Counter.messageCount.ofMessage).sum = bodyLens.length := by
  induction bodyLens with
  | nil => rfl
  | cons k ks ih =>
      rw [List.map_cons, List.sum_cons, ih, List.length_cons, Counter.ofMessage, Nat.add_comm]

theorem messageBytes_sum (bodyLens : List ℕ) :
    (bodyLens.map Counter.messageBytes.ofMessage).sum = bodyLens.sum :=
  congrArg List.sum (List.map_id _)

/-- Every call adds in the end exactly what it accepted, also after a `put` that failed. -/
theorem program_owes (c : Call) (f : Counter) : (c.program.map (Instr.owes f)).sum = 0 := by
  cases c with
  | putMessage bodyLen put =>
      cases put with
      | false => rfl
      | true => cases f <;> simp [Call.program, Instr.owes, Counter.ofMessage]
  | putMessages bodyLens puts =>
      rw [Call.program]
      split
      · rename_i h
        rw [List.map_append, List.sum_append, puts_owe]
        cases f
        · rw [messageCount_sum, List.length_take, Nat.min_eq_left (Nat.le_of_lt h)]
          simp [Instr.owes]
        · rw [messageBytes_sum]
          simp [Instr.owes]
      · rw [List.map_append, List.sum_append, puts_owe]
        cases f
        · rw [messageCount_sum]
          simp [Instr.owes]
        · rw [messageBytes_sum]
          simp [Instr.owes]

/-- Everything that a call adds fits a counter. -/
theorem program_small {c : Call} (h : c.Fits) {f : Counter} {n : ℕ}
    (hi : Instr.add f n ∈ c.program) : n < 2 ^ 64 := by
  cases c with
  | putMessage bodyLen put =>
      rw [Call.Fits] at h
      cases put with
      | false => cases hi
      | true =>
          simp only [Call.program, if_true, List.mem_cons, Instr.add.injEq, reduceCtorEq,
            List.not_mem_nil, or_false, false_or] at hi
          omega
  | putMessages bodyLens puts =>
      obtain ⟨hlen, hsum⟩ := h
      have htake := bodyLens.sum_take_add_sum_drop puts
      have hput : ∀ ks : List ℕ, Instr.add f n ∉ ks.map Instr.put := by
        intro ks hk
        obtain ⟨_, _, h⟩ := List.mem_map.mp hk
        cases h
      rw [Call.program] at hi
      split at hi
      · simp only [List.mem_append, hput, List.mem_cons, Instr.add.injEq, reduceCtorEq,
          List.not_mem_nil, or_false, false_or] at hi
        omega
      · simp only [List.mem_append, hput, List.mem_cons, Instr.add.injEq, reduceCtorEq,
          List.not_mem_nil, or_false, false_or] at hi
        omega

/-- One publisher goes on. -/
theorem owes_setPublisher {s : State} {k : ℕ} {p : Publisher} (hk : s.publishers[k]? = some p)
    (q : Publisher) (f : Counter) :
    ((s.publishers.set k q).map (Publisher.owes f)).sum = s.owes f - p.owes f + q.owes f := by
  obtain ⟨hlt, rfl⟩ := List.getElem?_eq_some_iff.mp hk
  rw [List.map_set, List.sum_set', dif_pos (by rwa [List.length_map]), List.getElem_map, State.owes]
  omega

/-! ### The invariant -/

/-- The text is that of a value that the counter has reached. -/
def Reached (libs : Libs) (s : State) (f : Counter) (text : String) : Prop :=
  ∃ v, text = libs.uint64ToString v ∧ v ≤ s.value f

/-- Values read and entries to be applied are not ahead of their counter, and the counters hold
what was accepted but for what the publishers owe. -/
structure Inv (libs : Libs) (s : State) : Prop where
  reads : ∀ p ∈ s.publishers, ∀ f v, p.pending = .read f v → v ≤ s.value f
  entries : ∀ x ∈ s.log.drop s.applied, Reached libs s x.1 x.2
  small : ∀ p ∈ s.publishers, ∀ f n, Instr.add f n ∈ p.todo → n < 2 ^ 64
  total : ∀ f, (s.accepted f : ℤ) = (s.value f).toNat + s.owes f

theorem inv_init (libs : Libs) : Inv libs init where
  reads := fun p h => by cases h
  entries := fun x h => by cases h
  small := fun p h => by cases h
  total := fun _ => rfl

/-- Publisher `k` goes on to `q`, with the counters, what was accepted and the log as given. -/
theorem Inv.goOn {libs : Libs} {s : State} (h : Inv libs s) {k : ℕ} {p q : Publisher}
    (hk : s.publishers[k]? = some p) {value : Counter → UInt64} {accepted : Counter → ℕ}
    {log : List (Counter × String)} (hvalue : ∀ f, s.value f ≤ value f)
    (hread : ∀ f v, q.pending = .read f v → v ≤ value f)
    (hlog : ∀ x ∈ log.drop s.applied, x ∈ s.log.drop s.applied ∨
      ∃ v, x.2 = libs.uint64ToString v ∧ v ≤ value x.1)
    (htodo : ∀ i ∈ q.todo, i ∈ p.todo)
    (htotal : ∀ f, (accepted f : ℤ) - s.accepted f =
      (value f).toNat - (s.value f).toNat + (q.owes f - p.owes f)) :
    Inv libs ⟨value, accepted, log, s.applied, s.publishers.set k q⟩ where
  reads := fun r hr f v hv => by
    rcases List.mem_or_eq_of_mem_set hr with hr | rfl
    · exact UInt64.le_trans (h.reads r hr f v hv) (hvalue f)
    · exact hread f v hv
  entries := fun x hx => by
    rcases hlog x hx with hx | hx
    · obtain ⟨v, hv, hle⟩ := h.entries x hx
      exact ⟨v, hv, UInt64.le_trans hle (hvalue x.1)⟩
    · exact hx
  small := fun r hr f n hi => by
    rcases List.mem_or_eq_of_mem_set hr with hr | rfl
    · exact h.small r hr f n hi
    · exact h.small p (List.mem_of_getElem? hk) f n (htodo _ hi)
  total := fun f => by
    have htot := h.total f
    have hacc := htotal f
    show (accepted f : ℤ) = (value f).toNat + ((s.publishers.set k q).map (Publisher.owes f)).sum
    rw [owes_setPublisher hk]
    omega

theorem Inv.call {libs : Libs} {s : State} (h : Inv libs s) {c : Call} (hc : c.Fits) :
    Inv libs { s with publishers := s.publishers ++ [⟨.none, c.program⟩] } where
  reads := fun p hp f v hv => by
    rcases List.mem_append.mp hp with hp | hp
    · exact h.reads p hp f v hv
    · rw [List.mem_singleton.mp hp] at hv
      cases hv
  entries := h.entries
  small := fun p hp f n hi => by
    rcases List.mem_append.mp hp with hp | hp
    · exact h.small p hp f n hi
    · rw [List.mem_singleton.mp hp] at hi
      exact program_small hc hi
  total := fun f => by
    have howes : (Publisher.mk .none c.program).owes f = 0 := program_owes c f
    have htot := h.total f
    rw [State.owes, List.map_append, List.sum_append, List.map_singleton, List.sum_singleton, howes,
      add_zero]
    exact htot

/-- An addition that does not wrap. -/
theorem toNat_add_ofNat {v : UInt64} {n : ℕ} (h : v.toNat + n < 2 ^ 64) :
    (v + UInt64.ofNat n).toNat = v.toNat + n := by
  rw [UInt64.toNat_add, UInt64.toNat_ofNat', Nat.add_mod_mod, Nat.mod_eq_of_lt h]

theorem le_update {value : Counter → UInt64} {f : Counter} {v : UInt64} (h : value f ≤ v)
    (g : Counter) : value g ≤ Function.update value f v g := by
  rcases eq_or_ne g f with rfl | hne
  · rwa [Function.update_self]
  · rw [Function.update_of_ne hne]
    exact UInt64.le_refl _

/-- An instruction keeps the invariant and makes no counter smaller, unless an addition wraps. -/
theorem Inv.instr {libs : Libs} {s t : State} (h : Inv libs s) {k : ℕ}
    (hexact : Exact libs s (.instr k)) (ht : instr libs s k = some t) :
    Inv libs t ∧ ∀ f, s.value f ≤ t.value f := by
  have hsame : ∀ f, s.value f ≤ s.value f := fun _ => UInt64.le_refl _
  cases hk : s.publishers[k]? with
  | none =>
      rw [Counters.instr, hk] at ht
      cases ht
  | some p =>
      rw [Counters.instr, hk] at ht
      obtain ⟨_ | ⟨f, v⟩ | e, todo⟩ := p
      · cases todo with
        | nil => cases ht
        | cons i todo =>
            have htodo : ∀ j ∈ todo, j ∈ i :: todo := fun j hj => List.mem_cons_of_mem i hj
            cases i with
            | put bodyLen =>
                cases ht
                refine ⟨h.goOn hk hsame nofun (fun x hx => Or.inl hx) htodo ?_, hsame⟩
                intro f
                simp only [Publisher.owes, List.map_cons, List.sum_cons, Instr.owes]
                push_cast
                omega
            | add f n =>
                cases ht
                have hadd := toNat_add_ofNat (hexact _ hk)
                have hle : ∀ g, s.value g ≤
                    Function.update s.value f (s.value f + UInt64.ofNat n) g :=
                  le_update (UInt64.le_iff_toNat_le.mpr (hadd ▸ Nat.le_add_right _ _))
                refine ⟨h.goOn hk hle nofun (fun x hx => Or.inl hx) htodo ?_, hle⟩
                intro g
                simp only [Publisher.owes, List.map_cons, List.sum_cons, Instr.owes]
                rcases eq_or_ne f g with rfl | hne
                · rw [Function.update_self, hadd, if_pos rfl]
                  push_cast
                  omega
                · rw [Function.update_of_ne hne.symm, if_neg hne]
                  omega
            | submit f =>
                cases ht
                refine ⟨h.goOn hk hsame ?_ (fun x hx => Or.inl hx) htodo ?_, hsame⟩
                · rintro g v ⟨⟩
                  exact UInt64.le_refl _
                · intro g
                  simp only [Publisher.owes, List.map_cons, List.sum_cons, Instr.owes]
                  omega
      · cases ht
        refine ⟨h.goOn hk hsame nofun ?_ (fun _ hi => hi) ?_, hsame⟩
        · intro x hx
          rw [List.drop_append] at hx
          rcases List.mem_append.mp hx with hx | hx
          · exact Or.inl hx
          · rw [List.mem_singleton.mp (List.mem_of_mem_drop hx)]
            exact Or.inr ⟨v, rfl, h.reads _ (List.mem_of_getElem? hk) f v rfl⟩
        · intro g
          simp only [Publisher.owes]
          omega
      · simp only [Option.ite_none_right_eq_some, Option.some.injEq] at ht
        obtain ⟨_, rfl⟩ := ht
        refine ⟨h.goOn hk hsame nofun (fun x hx => Or.inl hx) (fun _ hi => hi) ?_, hsame⟩
        intro g
        simp only [Publisher.owes]
        omega

/-- A store of what the counter holds changes no counter. -/
theorem Inv.apply {libs : Libs} {s t : State} (h : Inv libs s) (hexact : Exact libs s .apply)
    (ht : step libs s .apply = some t) : Inv libs t ∧ ∀ f, s.value f ≤ t.value f := by
  cases hx : s.log[s.applied]? with
  | none =>
      rw [step, hx] at ht
      cases ht
  | some x =>
      obtain ⟨f, text⟩ := x
      rw [step, hx] at ht
      have hstored : libs.toUint64 text = s.value f := hexact _ hx
      simp only [hstored, Function.update_eq_self, Option.some.injEq] at ht
      subst ht
      refine ⟨⟨h.reads, ?_, h.small, h.total⟩, fun _ => UInt64.le_refl _⟩
      intro x hx
      exact h.entries x (List.drop_subset_drop_left _ (Nat.le_succ _) hx)

/-- **The step lemma.** An exact step keeps the invariant and makes no counter smaller. -/
theorem inv_step {libs : Libs} {s t : State} {a : Act} (h : Inv libs s) (hexact : Exact libs s a)
    (ht : step libs s a = some t) : Inv libs t ∧ ∀ f, s.value f ≤ t.value f := by
  cases a with
  | call c =>
      simp only [step, Option.ite_none_right_eq_some, Option.some.injEq] at ht
      obtain ⟨hc, rfl⟩ := ht
      exact ⟨h.call hc, fun _ => UInt64.le_refl _⟩
  | instr k => exact h.instr hexact ht
  | apply => exact h.apply hexact ht

theorem grows_of_exact {libs : Libs} {s : State} {a : Act} (h : Inv libs s)
    (hexact : Exact libs s a) : Grows libs s a :=
  fun _ ht => (inv_step h hexact ht).2

theorem step_add (libs : Libs) {s : State} {k : ℕ} {f : Counter} {n : ℕ} {todo : List Instr}
    (hk : s.publishers[k]? = some ⟨.none, .add f n :: todo⟩) :
    step libs s (.instr k) = some
      ({ s with value := Function.update s.value f (s.value f + UInt64.ofNat n) }.setPublisher k
        ⟨.none, todo⟩) := by
  rw [step, instr, hk]

theorem step_apply (libs : Libs) {s : State} {x : Counter × String}
    (hx : s.log[s.applied]? = some x) :
    step libs s .apply = some { s with
      value := Function.update s.value x.1 (libs.toUint64 x.2)
      applied := s.applied + 1 } := by
  rw [step, hx]

/-- An addition that wraps, and a store of anything but the value, make the counter smaller. -/
theorem exact_of_grows {libs : Libs} (hcast : ∀ v, libs.toUint64 (libs.uint64ToString v) = v)
    {s : State} {a : Act} (h : Inv libs s) (hgrows : Grows libs s a) : Exact libs s a := by
  cases a with
  | call c => trivial
  | instr k =>
      intro p hk
      unfold Publisher.AddFits
      split
      · rename_i f n todo
        by_contra hwrap
        have hk' : s.publishers[k]? = some ⟨.none, .add f n :: todo⟩ := hk
        have hle := hgrows _ (step_add libs hk') f
        have hn := h.small _ (List.mem_of_getElem? hk') f n List.mem_cons_self
        have hv := (s.value f).toNat_lt
        simp only [State.setPublisher, Function.update_self, UInt64.le_iff_toNat_le,
          UInt64.toNat_add, UInt64.toNat_ofNat'] at hle
        omega
      · trivial
  | apply =>
      intro x hx
      have hx' : s.log[s.applied]? = some x := hx
      obtain ⟨v, hv, hle⟩ := h.entries x (List.mem_of_getElem? (i := 0) (by
        rw [List.getElem?_drop, Nat.add_zero]
        exact hx'))
      have hge := hgrows _ (step_apply libs hx') x.1
      simp only [Function.update_self] at hge
      rw [hv, hcast] at hge ⊢
      exact UInt64.le_antisymm hle hge

/-- At rest nothing is owed. -/
theorem Inv.quiet {libs : Libs} {s : State} (h : Inv libs s) (hq : Quiet s) (f : Counter) :
    (s.value f).toNat = s.accepted f := by
  have howes : s.owes f = 0 := by
    refine List.sum_eq_zero fun x hx => ?_
    obtain ⟨p, hp, rfl⟩ := List.mem_map.mp hx
    rw [hq.2 p hp]
    rfl
  have htotal := h.total f
  omega

theorem toUint64_ofNew (v : UInt64) : Libs.ofNew.toUint64 (Libs.ofNew.uint64ToString v) = v := by
  show UInt64.ofNat (Cluster.ofDigits (toString v.toNat)) = v
  rw [Cluster.ofDigits_toString, UInt64.ofNat_toNat]

/-- **When no update is lost.** The counters never decrease, and end at what was accepted, in
exactly the runs in which every store writes what its counter holds and no addition wraps. -/
theorem countsAll_iff (libs : Libs) (hcast : ∀ v, libs.toUint64 (libs.uint64ToString v) = v)
    (acts : List Act) : CountsAll libs acts ↔ Runs.Along (step libs) (Exact libs) init acts := by
  have hkeep : ∀ s a t, Inv libs s → Exact libs s a → step libs s a = some t → Inv libs t :=
    fun s a t h hexact ht => (inv_step h hexact ht).1
  constructor
  · rintro ⟨hgrows, _⟩
    exact Runs.along_imp (fun s a t h hg => hkeep s a t h (exact_of_grows hcast h hg))
      (fun s a h => exact_of_grows hcast h) acts init (inv_init libs) hgrows
  · intro hexact
    refine ⟨Runs.along_imp hkeep (fun s a h => grows_of_exact h) acts init (inv_init libs) hexact,
      ?_⟩
    rintro before after s rfl hrun hquiet f
    exact (Runs.invariant_along hkeep before init s (inv_init libs) hexact.left hrun).quiet hquiet f

/-- A message, and then two of which the second one fails, each published when all entries before
are applied. -/
def inTurn : List Act :=
  [.call (.putMessage 3 true), .instr 0, .instr 0, .instr 0, .instr 0, .apply, .instr 0,
    .instr 0, .instr 0, .instr 0, .apply, .instr 0,
    .call (.putMessages [5, 0] 1), .instr 1, .instr 1, .instr 1, .instr 1, .apply, .instr 1,
    .instr 1, .instr 1, .instr 1, .apply, .instr 1]

theorem countsAll_iff_in_turn :
    (Runs.run (step Libs.ofNew) init inTurn).isSome = true ∧ CountsAll Libs.ofNew inTurn :=
  ⟨by decide, (countsAll_iff Libs.ofNew toUint64_ofNew inTurn).mpr (by decide)⟩

/-- Two publishers of messages of three and five bytes. The second one adds between the first one's
reading of the count and the storing of what it read, and then submits what that store left. -/
def twoPublishers : List Act :=
  [.call (.putMessage 3 true), .call (.putMessage 5 true),
    .instr 0, .instr 0, .instr 0, .instr 0, .instr 1, .instr 1, .apply,
    .instr 1, .instr 1, .apply, .instr 0, .instr 1,
    .instr 0, .instr 0, .instr 0, .apply, .instr 0,
    .instr 1, .instr 1, .instr 1, .apply, .instr 1]

/-- **A lost update.** Both messages were accepted, and the topic has counted one. -/
theorem counts_one_of_two : ¬ CountsAll Libs.ofNew twoPublishers := by
  rintro ⟨_, hend⟩
  obtain ⟨t, ht, hquiet, hacc, hval⟩ := Runs.exists_of_run (step Libs.ofNew) init twoPublishers
    (fun t => Quiet t ∧ t.accepted .messageCount = 2 ∧ t.value .messageCount = 1)
    (by decide)
  have hcount := hend twoPublishers [] t (List.append_nil _).symm ht hquiet .messageCount
  rw [hacc, hval] at hcount
  exact absurd hcount (by decide)

end Xmq.Counters
