import Xmq.XmqToXmq

/-!
# What becomes of a relayed message

A message is finished at its source only when a destination has accepted it, or the filters have
dropped it; it is answered once, by the consumer or by a responder, and delivered at most once for
each time it was consumed. The argument is one of custody: the message is in one place at a time, and
whoever has it is the one to answer.
-/

namespace Xmq.XmqToXmq

open Custody

variable {F V : Type} {libs : Libs F V} {f : Flags} {s s' : State F} {a : Act} {acts : List Act}

/-! ### What a step does -/

/-- The steps, one constructor for each outcome. -/
inductive Effect (libs : Libs F V) (f : Flags) (s : State F) : Act → State F → Prop where
  | receive {i : ℕ} {topic : String} (body : List UInt8)
      (hi : s.handlers[i]? = some ⟨topic, .idle⟩) :
      Effect libs f s (.receive i body)
        (State.setHandler { s with received := s.received ++ [⟨topic, body⟩] } i topic
          (.received s.received.length))
  | check {i m : ℕ} {topic : String} {c : Consumed}
      (hi : s.handlers[i]? = some ⟨topic, .received m⟩) (hm : s.received[m]? = some c) :
      Effect libs f s (.check i)
        ({ s with cache := (filter libs f s.cache c.body).2 }.setHandler i topic
          (.ofFilter m (filter libs f s.cache c.body).1))
  | chooseAddr {i m : ℕ} {topic addr : String} {body : List UInt8} (host : String)
      (hi : s.handlers[i]? = some ⟨topic, .passed m body⟩) (hmode : f.selectedMode = .roundRobin)
      (ha : addr ∈ f.destXmqdTCPAddrs) :
      Effect libs f s (.choose i host)
        ({ s with counter := s.counter + 1 }.setHandler i topic (.publishing m body (.addr addr)))
  | chooseNone (i : ℕ) (host : String) (ha : f.destXmqdTCPAddrs = []) :
      Effect libs f s (.choose i host) s.crash
  | chooseHost {i m : ℕ} {topic host : String} {body : List UInt8}
      (hi : s.handlers[i]? = some ⟨topic, .passed m body⟩) (hmode : f.selectedMode = .hostPool)
      (ha : host ∈ f.destXmqdTCPAddrs) :
      Effect libs f s (.choose i host)
        ({ s with picks := s.picks ++ [host] }.setHandler i topic
          (.publishing m body (.response s.picks.length)))
  | publish {i m : ℕ} {topic : String} {body : List UInt8} {arg : Arg}
      (hi : s.handlers[i]? = some ⟨topic, .publishing m body arg⟩) :
      Effect libs f s (.publish i none)
        (State.setHandler
          { s with pending := s.pending ++ [⟨m, f.publishTopic topic, body, arg, false, none⟩] }
          i topic (.accepted m))
  | refuse {i m : ℕ} {topic : String} {body : List UInt8} {arg : Arg} (err : String)
      (hi : s.handlers[i]? = some ⟨topic, .publishing m body arg⟩) :
      Effect libs f s (.publish i (some err))
        (({ s with reports := s.reports ++ [(m, some err)] }.mark arg (some err)).setHandler i topic
          (.returned m (some err) true))
  | publishNil {i m : ℕ} {topic : String} {body : List UInt8} {arg : Arg} (err : GoError)
      (hi : s.handlers[i]? = some ⟨topic, .publishing m body arg⟩)
      (ha : ∀ addr ∈ s.host arg, addr ∉ f.destXmqdTCPAddrs) :
      Effect libs f s (.publish i err) s.crash
  | disable {i m : ℕ} {topic : String} (hi : s.handlers[i]? = some ⟨topic, .accepted m⟩) :
      Effect libs f s (.disable i) (s.setHandler i topic (.returned m none false))
  | answer {i m : ℕ} {topic : String} {err : GoError}
      (hi : s.handlers[i]? = some ⟨topic, .returned m err true⟩) :
      Effect libs f s (.finish i)
        ({ s with responses := s.responses ++ [(m, err.isNone)] }.setHandler i topic .idle)
  | leave {i m : ℕ} {topic : String} {err : GoError}
      (hi : s.handlers[i]? = some ⟨topic, .returned m err false⟩) :
      Effect libs f s (.finish i) (s.setHandler i topic .idle)
  | accept {k : ℕ} {t : Transaction} {addr : String} (hk : s.pending[k]? = some t)
      (ht : t.accepted = false) (ha : s.host t.arg = some addr) :
      Effect libs f s (.accept k) (accept s k t addr)
  | complete {k : ℕ} {t : Transaction} {err : GoError} (hk : s.pending[k]? = some t)
      (hacc : err = none → t.accepted = true)
      (hroom : s.respChan.length < f.destXmqdTCPAddrs.length) :
      Effect libs f s (.complete k err) (complete s k t err)
  | take {j : ℕ} {t : Transaction} {rest : List Transaction} {is : List Instr}
      (hj : s.responders[j]? = some []) (hs : s.respChan = t :: rest)
      (hp : program f s t = some is) :
      Effect libs f s (.take j)
        { s with respChan := rest, responders := s.responders.set j is }
  | takeNone {j : ℕ} {t : Transaction} {rest : List Transaction} (hs : s.respChan = t :: rest)
      (hp : program f s t = none) : Effect libs f s (.take j) s.crash
  | mark {j r : ℕ} {err : GoError} {rest : List Instr}
      (hj : s.responders[j]? = some (.mark r err :: rest)) :
      Effect libs f s (.instr j)
        { s with marks := s.marks ++ [(r, err)], responders := s.responders.set j rest }
  | respond {j m : ℕ} {success : Bool} {rest : List Instr}
      (hj : s.responders[j]? = some (.respond m success :: rest)) :
      Effect libs f s (.instr j)
        { s with responses := s.responses ++ [(m, success)], responders := s.responders.set j rest }
  | status {j : ℕ} {addr : String} {rest : List Instr}
      (hj : s.responders[j]? = some (.status addr :: rest)) :
      Effect libs f s (.instr j) { s with responders := s.responders.set j rest }
  | statusNil {j : ℕ} {addr : String} {rest : List Instr}
      (hj : s.responders[j]? = some (.status addr :: rest)) (ha : addr ∉ f.destXmqdTCPAddrs) :
      Effect libs f s (.instr j) s.crash

theorem choose_effect {i m : ℕ} {topic host : String} {body : List UInt8}
    (hi : s.handlers[i]? = some ⟨topic, .passed m body⟩)
    (h : choose f s i topic m body host = some s') : Effect libs f s (.choose i host) s' := by
  rw [choose] at h
  split at h
  · rename_i hmode
    simp only at h
    split at h
    · rename_i hnone
      cases h
      refine .chooseNone i host (List.eq_nil_iff_length_eq_zero.mpr ?_)
      by_contra hlen
      have hlt := Nat.mod_lt (s.counter + 1).toNat (Nat.pos_of_ne_zero hlen)
      have hle := List.getElem?_eq_none_iff.mp hnone
      omega
    · rename_i addr ha
      cases h
      exact .chooseAddr host hi hmode (List.mem_of_getElem? ha)
  · rename_i hmode
    split at h
    · rename_i ha
      cases h
      exact .chooseHost hi hmode ha
    · cases h

theorem publish_effect {i m : ℕ} {topic : String} {body : List UInt8} {arg : Arg} (err : GoError)
    (hi : s.handlers[i]? = some ⟨topic, .publishing m body arg⟩) :
    Effect libs f s (.publish i err) (publish f s i topic m body arg err) := by
  unfold publish
  split
  · cases err with
    | none => exact .publish hi
    | some err => exact .refuse err hi
  · rename_i hany
    refine .publishNil err hi fun addr ha hmem => hany ?_
    rw [Option.mem_def.mp ha]
    simpa using hmem

theorem exec_effect {j : ℕ} {i : Instr} {rest : List Instr}
    (hj : s.responders[j]? = some (i :: rest)) : Effect libs f s (.instr j) (exec f s j rest i) := by
  cases i with
  | mark r err => exact .mark hj
  | respond m success => exact .respond hj
  | status addr =>
      rw [exec]
      split
      · exact .status hj
      · rename_i ha
        exact .statusNil hj ha

theorem step_effect (h : step libs f s a = some s') : Effect libs f s a s' := by
  unfold step at h
  split at h
  · cases h
  cases a with
  | receive i body =>
      simp only at h
      split at h
      · rename_i topic hi
        cases h
        exact .receive body hi
      · cases h
  | check i =>
      simp only at h
      split at h
      · rename_i topic m hi
        obtain ⟨c, hm, rfl⟩ := Option.map_eq_some_iff.mp h
        exact .check hi hm
      · cases h
  | choose i host =>
      simp only at h
      split at h
      · rename_i topic m body hi
        exact choose_effect hi h
      · cases h
  | publish i err =>
      simp only at h
      split at h
      · rename_i topic m body arg hi
        cases h
        exact publish_effect err hi
      · cases h
  | disable i =>
      simp only at h
      split at h
      · rename_i topic m hi
        cases h
        exact .disable hi
      · cases h
  | finish i =>
      simp only at h
      split at h
      · rename_i topic m err autoResponse hi
        cases h
        cases autoResponse with
        | true => exact .answer hi
        | false => exact .leave hi
      · cases h
  | accept k =>
      simp only at h
      split at h
      · rename_i t hk
        split at h
        · cases h
        · rename_i ht
          obtain ⟨addr, ha, rfl⟩ := Option.map_eq_some_iff.mp h
          exact .accept hk (Bool.eq_false_iff.mpr ht) ha
      · cases h
  | complete k err =>
      simp only at h
      split at h
      · rename_i t hk
        split at h
        · rename_i hcond
          cases h
          exact .complete hk hcond.1 hcond.2
        · cases h
      · cases h
  | take j =>
      simp only at h
      split at h
      · rename_i t rest hj hs
        split at h
        · rename_i hp
          cases h
          exact .takeNone hs hp
        · rename_i is hp
          cases h
          exact .take hj hs hp
      · cases h
  | instr j =>
      simp only at h
      split at h
      · rename_i i rest hj
        cases h
        exact exec_effect hj
      · cases h


/-! ### Accounts -/

section Weights

variable {M : Type*} [AddCancelCommMonoid M]

/-- What each place counts for. -/
structure Weights (M : Type*) where
  handler : Handler → M
  pending : Transaction → M
  completed : Transaction → M
  instr : Instr → M

namespace Weights

variable (w : Weights M)

/-- What is under way. -/
def total (s : State F) : M :=
  held (fun x : Worker => w.handler x.handler) s.handlers + held w.pending s.pending +
    held w.completed s.respChan + held (held w.instr) s.responders

variable {w}

theorem total_setHandler {i : ℕ} {topic topic' : String} {h h' : Handler}
    (hi : s.handlers[i]? = some ⟨topic, h⟩) :
    w.total (s.setHandler i topic' h') + w.handler h = w.total s + w.handler h' := by
  have hset := held_set (f := fun x : Worker => w.handler x.handler) hi ⟨topic', h'⟩
  simp only [total, State.setHandler] at hset ⊢
  calc _ = (held (fun x : Worker => w.handler x.handler) (s.handlers.set i ⟨topic', h'⟩) +
        w.handler h) + held w.pending s.pending + held w.completed s.respChan +
        held (held w.instr) s.responders := by abel
    _ = _ := by rw [hset]; abel

theorem total_publish {i : ℕ} {topic topic' : String} {h h' : Handler} {t : Transaction}
    (hi : s.handlers[i]? = some ⟨topic, h⟩) :
    w.total (State.setHandler { s with pending := s.pending ++ [t] } i topic' h') + w.handler h =
      w.total s + w.handler h' + w.pending t := by
  have hset : w.total (State.setHandler { s with pending := s.pending ++ [t] } i topic' h') +
      w.handler h = w.total { s with pending := s.pending ++ [t] } + w.handler h' :=
    total_setHandler hi
  rw [hset]
  simp only [total, held_append, held_cons, held_nil, add_zero]
  abel

theorem total_accept {k : ℕ} {t : Transaction} {addr : String} (hk : s.pending[k]? = some t) :
    w.total (accept s k t addr) + w.pending t = w.total s + w.pending { t with accepted := true } := by
  have hset := held_set (f := w.pending) hk { t with accepted := true }
  simp only [total, accept] at hset ⊢
  calc _ = held (fun x : Worker => w.handler x.handler) s.handlers +
        (held w.pending (s.pending.set k { t with accepted := true }) + w.pending t) +
        held w.completed s.respChan + held (held w.instr) s.responders := by abel
    _ = _ := by rw [hset]; abel

theorem total_complete {k : ℕ} {t : Transaction} {err : GoError} (hk : s.pending[k]? = some t) :
    w.total (complete s k t err) + w.pending t = w.total s + w.completed { t with error := err } := by
  simp only [total, complete, held_append, held_cons, held_nil, add_zero, held_eraseIdx hk]
  abel

theorem total_take {j : ℕ} {t : Transaction} {rest : List Transaction} {is : List Instr}
    (hj : s.responders[j]? = some []) (hs : s.respChan = t :: rest) :
    w.total { s with respChan := rest, responders := s.responders.set j is } + w.completed t =
      w.total s + held w.instr is := by
  have hset := held_set (f := held w.instr) hj is
  rw [held_nil, add_zero] at hset
  simp only [total, hset, hs, held_cons]
  abel

theorem total_instr {j : ℕ} {i : Instr} {rest : List Instr}
    (hj : s.responders[j]? = some (i :: rest)) :
    w.total { s with responders := s.responders.set j rest } + w.instr i = w.total s := by
  have hset := held_set (f := held w.instr) hj rest
  rw [held_cons, ← add_assoc, add_right_cancel_iff] at hset
  simp only [total, ← hset]
  abel

end Weights

end Weights


open Weights

/-- The messages that a handler is to answer. -/
def Handler.holds : Handler → Multiset ℕ
  | .idle => 0
  | .received m => {m}
  | .passed m _ => {m}
  | .publishing m _ _ => {m}
  | .accepted _ => 0
  | .returned m _ autoResponse => if autoResponse then {m} else 0

/-- The messages that may still be delivered. -/
def Handler.unpublished : Handler → Multiset ℕ
  | .received m => {m}
  | .passed m _ => {m}
  | .publishing m _ _ => {m}
  | .idle => 0
  | .accepted _ => 0
  | .returned _ _ _ => 0

def Arg.picks : Arg → Multiset ℕ
  | .addr _ => 0
  | .response r => {r}

/-- The responses of the host pool that a handler is to mark. -/
def Handler.picks : Handler → Multiset ℕ
  | .publishing _ _ arg => arg.picks
  | .idle => 0
  | .received _ => 0
  | .passed _ _ => 0
  | .accepted _ => 0
  | .returned _ _ _ => 0

def Instr.holds : Instr → Multiset ℕ
  | .respond m _ => {m}
  | .mark _ _ => 0
  | .status _ => 0

def Instr.picks : Instr → Multiset ℕ
  | .mark r _ => {r}
  | .respond _ _ => 0
  | .status _ => 0

def toAnswer : Weights (Multiset ℕ) :=
  ⟨Handler.holds, fun t => {t.msg}, fun t => {t.msg}, Instr.holds⟩

def toMark : Weights (Multiset ℕ) :=
  ⟨Handler.picks, fun t => t.arg.picks, fun t => t.arg.picks, Instr.picks⟩

def toDeliver : Weights (Multiset ℕ) :=
  ⟨Handler.unpublished, fun t => if t.accepted then 0 else {t.msg}, fun _ => 0, fun _ => 0⟩

/-- Every message is answered or somebody has it, and so for the responses of the host pool; a message
that may still be delivered was not delivered. -/
structure Accounts (s : State F) : Prop where
  messages : toAnswer.total s + (s.responses.map Prod.fst : Multiset ℕ) =
    Multiset.range s.received.length
  picks : toMark.total s + (s.marks.map Prod.fst : Multiset ℕ) = Multiset.range s.picks.length
  fresh : toDeliver.total s + (s.delivered.map Delivery.msg : Multiset ℕ) ≤
    Multiset.range s.received.length

theorem coe_map_concat {α : Type} (g : α → ℕ) (l : List α) (x : α) :
    ((l ++ [x]).map g : Multiset ℕ) = (l.map g : Multiset ℕ) + {g x} := by
  rw [List.map_append, ← Multiset.coe_add]
  rfl

/-- What a step hands over, and what it logs. -/
theorem Accounts.handOver (h : Accounts s) (hreceived : s'.received = s.received)
    (hpicks : s'.picks = s.picks)
    (hm : toAnswer.total s' + (s'.responses.map Prod.fst : Multiset ℕ) =
      toAnswer.total s + (s.responses.map Prod.fst : Multiset ℕ))
    (hp : toMark.total s' + (s'.marks.map Prod.fst : Multiset ℕ) =
      toMark.total s + (s.marks.map Prod.fst : Multiset ℕ))
    (hf : toDeliver.total s' + (s'.delivered.map Delivery.msg : Multiset ℕ) ≤
      toDeliver.total s + (s.delivered.map Delivery.msg : Multiset ℕ)) : Accounts s' where
  messages := by rw [hm, hreceived, h.messages]
  picks := by rw [hp, hpicks, h.picks]
  fresh := hf.trans (by rw [hreceived]; exact h.fresh)

theorem holds_ofFilter (m : ℕ) (r : Except GoError (List UInt8)) :
    (Handler.ofFilter m r).holds = {m} := by
  cases r <;> rfl

theorem picks_ofFilter (m : ℕ) (r : Except GoError (List UInt8)) :
    (Handler.ofFilter m r).picks = 0 := by
  cases r <;> rfl

theorem unpublished_ofFilter (m : ℕ) (r : Except GoError (List UInt8)) :
    (Handler.ofFilter m r).unpublished ≤ {m} := by
  cases r with
  | error err => exact Multiset.zero_le _
  | ok body => exact le_refl _

theorem holds_program {t : Transaction} {is : List Instr} (h : program f s t = some is) :
    held Instr.holds is = {t.msg} := by
  unfold program at h
  split at h
  · cases h
    simp [Instr.holds]
  · obtain ⟨addr, -, rfl⟩ := Option.map_eq_some_iff.mp h
    simp [Instr.holds]
  · cases h
  · cases h

theorem picks_program {t : Transaction} {is : List Instr} (h : program f s t = some is) :
    held Instr.picks is = t.arg.picks := by
  unfold program at h
  split at h
  · rename_i ha
    cases h
    simp [Instr.picks, ha, Arg.picks]
  · rename_i ha
    obtain ⟨addr, -, rfl⟩ := Option.map_eq_some_iff.mp h
    simp [Instr.picks, ha, Arg.picks]
  · cases h
  · cases h

/-- A handler that goes on with what it has. -/
theorem Accounts.setHandler (h : Accounts s) {i : ℕ} {topic topic' : String} {x x' : Handler}
    (hi : s.handlers[i]? = some ⟨topic, x⟩) (hholds : x'.holds = x.holds)
    (hpicks : x'.picks = x.picks) (hfresh : x'.unpublished ≤ x.unpublished) :
    Accounts (s.setHandler i topic' x') := by
  have hm : toAnswer.total (s.setHandler i topic' x') + x.holds = toAnswer.total s + x'.holds :=
    total_setHandler hi
  have hp : toMark.total (s.setHandler i topic' x') + x.picks = toMark.total s + x'.picks :=
    total_setHandler hi
  have hf : toDeliver.total (s.setHandler i topic' x') + x.unpublished =
      toDeliver.total s + x'.unpublished := total_setHandler hi
  rw [hholds, add_right_cancel_iff] at hm
  rw [hpicks, add_right_cancel_iff] at hp
  have hle : toDeliver.total (s.setHandler i topic' x') ≤ toDeliver.total s := by
    refine le_of_add_le_add_right (a := x.unpublished) ?_
    rw [hf]
    exact add_le_add_right hfresh _
  exact h.handOver rfl rfl (by rw [hm]; rfl) (by rw [hp]; rfl) (add_le_add hle (le_refl _))

theorem Accounts.receive (h : Accounts s) {i : ℕ} {topic : String} (c : Consumed)
    (hi : s.handlers[i]? = some ⟨topic, .idle⟩) :
    Accounts (State.setHandler { s with received := s.received ++ [c] } i topic
      (.received s.received.length)) := by
  have hi' : ({ s with received := s.received ++ [c] } : State F).handlers[i]? =
    some ⟨topic, .idle⟩ := hi
  have hm : toAnswer.total (State.setHandler { s with received := s.received ++ [c] } i topic
      (.received s.received.length)) + 0 = toAnswer.total s + {s.received.length} :=
    total_setHandler hi'
  have hp : toMark.total (State.setHandler { s with received := s.received ++ [c] } i topic
      (.received s.received.length)) + 0 = toMark.total s + 0 := total_setHandler hi'
  have hf : toDeliver.total (State.setHandler { s with received := s.received ++ [c] } i topic
      (.received s.received.length)) + 0 = toDeliver.total s + {s.received.length} :=
    total_setHandler hi'
  rw [add_zero] at hm hp hf
  constructor
  · have hlen := range_succ_of_eq h.messages
    rw [hm]
    simpa [State.setHandler, ← Multiset.singleton_add, add_comm, add_left_comm, add_assoc] using hlen
  · rw [hp, add_zero]
    exact h.picks
  · have hlen := range_succ_of_le h.fresh
    rw [hf]
    simpa [State.setHandler, ← Multiset.singleton_add, add_comm, add_left_comm, add_assoc] using hlen

theorem Accounts.chooseHost (h : Accounts s) {i m : ℕ} {topic host : String} {body : List UInt8}
    (hi : s.handlers[i]? = some ⟨topic, .passed m body⟩) :
    Accounts ({ s with picks := s.picks ++ [host] }.setHandler i topic
      (.publishing m body (.response s.picks.length))) := by
  have hi' : ({ s with picks := s.picks ++ [host] } : State F).handlers[i]? =
    some ⟨topic, .passed m body⟩ := hi
  have hm : toAnswer.total ({ s with picks := s.picks ++ [host] }.setHandler i topic
      (.publishing m body (.response s.picks.length))) + {m} = toAnswer.total s + {m} :=
    total_setHandler hi'
  have hp : toMark.total ({ s with picks := s.picks ++ [host] }.setHandler i topic
      (.publishing m body (.response s.picks.length))) + 0 = toMark.total s + {s.picks.length} :=
    total_setHandler hi'
  have hf : toDeliver.total ({ s with picks := s.picks ++ [host] }.setHandler i topic
      (.publishing m body (.response s.picks.length))) + {m} = toDeliver.total s + {m} :=
    total_setHandler hi'
  rw [add_right_cancel_iff] at hm hf
  rw [add_zero] at hp
  constructor
  · rw [hm]
    exact h.messages
  · have hlen := range_succ_of_eq h.picks
    rw [hp]
    simpa [State.setHandler, ← Multiset.singleton_add, add_comm, add_left_comm, add_assoc] using hlen
  · rw [hf]
    exact h.fresh

theorem Accounts.publish (h : Accounts s) {i m : ℕ} {topic topic' : String} {body body' : List UInt8}
    {arg : Arg} (hi : s.handlers[i]? = some ⟨topic, .publishing m body arg⟩) :
    Accounts (State.setHandler
      { s with pending := s.pending ++ [⟨m, topic', body', arg, false, none⟩] } i topic
      (.accepted m)) := by
  have hm : toAnswer.total (State.setHandler
      { s with pending := s.pending ++ [⟨m, topic', body', arg, false, none⟩] } i topic
      (.accepted m)) + {m} = toAnswer.total s + 0 + {m} := total_publish hi
  have hp : toMark.total (State.setHandler
      { s with pending := s.pending ++ [⟨m, topic', body', arg, false, none⟩] } i topic
      (.accepted m)) + arg.picks = toMark.total s + 0 + arg.picks := total_publish hi
  have hf : toDeliver.total (State.setHandler
      { s with pending := s.pending ++ [⟨m, topic', body', arg, false, none⟩] } i topic
      (.accepted m)) + {m} = toDeliver.total s + 0 + {m} := total_publish hi
  rw [add_right_cancel_iff, add_zero] at hm hp hf
  exact h.handOver rfl rfl (by rw [hm]; rfl) (by rw [hp]; rfl) (le_of_eq (by rw [hf]; rfl))

/-- What is left where a handler marks its response. -/
structure Marked (s s' : State F) (arg : Arg) : Prop where
  handlers : s'.handlers = s.handlers
  total : ∀ w : Weights (Multiset ℕ), w.total s' = w.total s
  steps : ∀ w : Weights ℕ, w.total s' = w.total s
  marks : (s'.marks.map Prod.fst : Multiset ℕ) = (s.marks.map Prod.fst : Multiset ℕ) + arg.picks
  received : s'.received = s.received
  picks : s'.picks = s.picks
  responses : s'.responses = s.responses
  delivered : s'.delivered = s.delivered

theorem marked_mark (s : State F) (reports : List (ℕ × GoError)) (arg : Arg) (err : GoError) :
    Marked s (State.mark { s with reports := reports } arg err) arg := by
  cases arg with
  | addr a => exact ⟨rfl, fun _ => rfl, fun _ => rfl, (add_zero _).symm, rfl, rfl, rfl, rfl⟩
  | response r =>
      exact ⟨rfl, fun _ => rfl, fun _ => rfl, coe_map_concat Prod.fst s.marks (r, err), rfl, rfl, rfl,
        rfl⟩

theorem Accounts.refuse (h : Accounts s) {i m : ℕ} {topic : String} {body : List UInt8} {arg : Arg}
    {err : GoError} (hi : s.handlers[i]? = some ⟨topic, .publishing m body arg⟩)
    (hu : Marked s s' arg) : Accounts (s'.setHandler i topic (.returned m err true)) := by
  rw [← hu.handlers] at hi
  have hm : toAnswer.total (s'.setHandler i topic (.returned m err true)) + {m} =
      toAnswer.total s' + {m} := total_setHandler hi
  have hp : toMark.total (s'.setHandler i topic (.returned m err true)) + arg.picks =
      toMark.total s' + 0 := total_setHandler hi
  have hf : toDeliver.total (s'.setHandler i topic (.returned m err true)) + {m} =
      toDeliver.total s' + 0 := total_setHandler hi
  rw [add_right_cancel_iff, hu.total] at hm
  rw [hu.total, add_zero] at hp hf
  have hle : toDeliver.total (s'.setHandler i topic (.returned m err true)) ≤ toDeliver.total s := by
    rw [← hf]
    exact Multiset.le_add_right _ _
  refine h.handOver hu.received hu.picks ?_ ?_ ?_
  · rw [hm, ← hu.responses]
    rfl
  · rw [← hp, add_assoc, add_comm arg.picks, ← hu.marks]
    rfl
  · rw [← hu.delivered]
    exact add_le_add hle (le_refl _)


/-- What the consumer or a responder hands over to the log of answers, or of marks. -/
theorem Accounts.answer (h : Accounts s) {i m : ℕ} {topic : String} {err : GoError}
    (hi : s.handlers[i]? = some ⟨topic, .returned m err true⟩) :
    Accounts ({ s with responses := s.responses ++ [(m, err.isNone)] }.setHandler i topic .idle) := by
  have hm : toAnswer.total (s.setHandler i topic .idle) + {m} = toAnswer.total s + 0 :=
    total_setHandler hi
  have hp : toMark.total (s.setHandler i topic .idle) + 0 = toMark.total s + 0 := total_setHandler hi
  have hf : toDeliver.total (s.setHandler i topic .idle) + 0 = toDeliver.total s + 0 :=
    total_setHandler hi
  rw [add_zero] at hm
  rw [add_right_cancel_iff] at hp hf
  refine h.handOver rfl rfl ?_ ?_ ?_
  · show toAnswer.total (s.setHandler i topic .idle) +
      (((s.responses ++ [(m, err.isNone)]).map Prod.fst : List ℕ) : Multiset ℕ) = _
    rw [coe_map_concat, ← hm]
    abel
  · exact congrArg (· + ((s.marks.map Prod.fst : List ℕ) : Multiset ℕ)) hp
  · exact le_of_eq (congrArg (· + ((s.delivered.map Delivery.msg : List ℕ) : Multiset ℕ)) hf)

theorem Accounts.accept (h : Accounts s) {k : ℕ} {t : Transaction} {addr : String}
    (hk : s.pending[k]? = some t) (ht : t.accepted = false) : Accounts (accept s k t addr) := by
  have hm : toAnswer.total (XmqToXmq.accept s k t addr) + {t.msg} = toAnswer.total s + {t.msg} :=
    total_accept hk
  have hp : toMark.total (XmqToXmq.accept s k t addr) + t.arg.picks =
      toMark.total s + t.arg.picks := total_accept hk
  have hf : toDeliver.total (XmqToXmq.accept s k t addr) + toDeliver.pending t =
      toDeliver.total s + toDeliver.pending { t with accepted := true } := total_accept hk
  have hbefore : toDeliver.pending t = {t.msg} := if_neg (Bool.eq_false_iff.mp ht)
  have hafter : toDeliver.pending { t with accepted := true } = 0 := rfl
  rw [add_right_cancel_iff] at hm hp
  rw [hbefore, hafter, add_zero] at hf
  refine h.handOver rfl rfl (by rw [hm]; rfl) (by rw [hp]; rfl) (le_of_eq ?_)
  show toDeliver.total (XmqToXmq.accept s k t addr) +
    (((s.delivered ++ [(⟨t.msg, addr, t.topic, t.body⟩ : Delivery)]).map Delivery.msg : List ℕ) :
      Multiset ℕ) = _
  rw [coe_map_concat, ← hf]
  abel

theorem Accounts.complete (h : Accounts s) {k : ℕ} {t : Transaction} {err : GoError}
    (hk : s.pending[k]? = some t) : Accounts (complete s k t err) := by
  have hm : toAnswer.total (XmqToXmq.complete s k t err) + {t.msg} = toAnswer.total s + {t.msg} :=
    total_complete hk
  have hp : toMark.total (XmqToXmq.complete s k t err) + t.arg.picks =
      toMark.total s + t.arg.picks := total_complete hk
  have hf : toDeliver.total (XmqToXmq.complete s k t err) + toDeliver.pending t =
      toDeliver.total s + 0 := total_complete hk
  rw [add_right_cancel_iff] at hm hp
  have hle : toDeliver.total (XmqToXmq.complete s k t err) ≤ toDeliver.total s := by
    rw [← add_zero (toDeliver.total s), ← hf]
    exact Multiset.le_add_right _ _
  exact h.handOver rfl rfl (by rw [hm]; rfl) (by rw [hp]; rfl) (add_le_add hle (le_refl _))

theorem Accounts.take (h : Accounts s) {j : ℕ} {t : Transaction} {rest : List Transaction}
    {is : List Instr} (hj : s.responders[j]? = some []) (hs : s.respChan = t :: rest)
    (hp : program f s t = some is) :
    Accounts { s with respChan := rest, responders := s.responders.set j is } := by
  have hm : toAnswer.total { s with respChan := rest, responders := s.responders.set j is } +
      {t.msg} = toAnswer.total s + held Instr.holds is := total_take hj hs
  have hq : toMark.total { s with respChan := rest, responders := s.responders.set j is } +
      t.arg.picks = toMark.total s + held Instr.picks is := total_take hj hs
  have hf : toDeliver.total { s with respChan := rest, responders := s.responders.set j is } + 0 =
      toDeliver.total s + held (fun _ => (0 : Multiset ℕ)) is := total_take hj hs
  rw [holds_program hp, add_right_cancel_iff] at hm
  rw [picks_program hp, add_right_cancel_iff] at hq
  rw [held_eq_zero fun _ _ => rfl, add_right_cancel_iff] at hf
  exact h.handOver rfl rfl (by rw [hm]) (by rw [hq]) (by rw [hf])

theorem Accounts.mark (h : Accounts s) {j r : ℕ} {err : GoError} {rest : List Instr}
    (hj : s.responders[j]? = some (.mark r err :: rest)) :
    Accounts { s with marks := s.marks ++ [(r, err)], responders := s.responders.set j rest } := by
  have hm : toAnswer.total { s with responders := s.responders.set j rest } + 0 =
      toAnswer.total s := total_instr hj
  have hp : toMark.total { s with responders := s.responders.set j rest } + {r} =
      toMark.total s := total_instr hj
  have hf : toDeliver.total { s with responders := s.responders.set j rest } + 0 =
      toDeliver.total s := total_instr hj
  rw [add_zero] at hm hf
  refine h.handOver rfl rfl ?_ ?_ ?_
  · exact congrArg (· + ((s.responses.map Prod.fst : List ℕ) : Multiset ℕ)) hm
  · show toMark.total { s with responders := s.responders.set j rest } +
      (((s.marks ++ [(r, err)]).map Prod.fst : List ℕ) : Multiset ℕ) = _
    rw [coe_map_concat, ← hp]
    abel
  · exact le_of_eq (congrArg (· + ((s.delivered.map Delivery.msg : List ℕ) : Multiset ℕ)) hf)

theorem Accounts.respond (h : Accounts s) {j m : ℕ} {success : Bool} {rest : List Instr}
    (hj : s.responders[j]? = some (.respond m success :: rest)) :
    Accounts
      { s with responses := s.responses ++ [(m, success)], responders := s.responders.set j rest } := by
  have hm : toAnswer.total { s with responders := s.responders.set j rest } + {m} =
      toAnswer.total s := total_instr hj
  have hp : toMark.total { s with responders := s.responders.set j rest } + 0 =
      toMark.total s := total_instr hj
  have hf : toDeliver.total { s with responders := s.responders.set j rest } + 0 =
      toDeliver.total s := total_instr hj
  rw [add_zero] at hp hf
  refine h.handOver rfl rfl ?_ ?_ ?_
  · show toAnswer.total { s with responders := s.responders.set j rest } +
      (((s.responses ++ [(m, success)]).map Prod.fst : List ℕ) : Multiset ℕ) = _
    rw [coe_map_concat, ← hm]
    abel
  · exact congrArg (· + ((s.marks.map Prod.fst : List ℕ) : Multiset ℕ)) hp
  · exact le_of_eq (congrArg (· + ((s.delivered.map Delivery.msg : List ℕ) : Multiset ℕ)) hf)

theorem Accounts.status (h : Accounts s) {j : ℕ} {addr : String} {rest : List Instr}
    (hj : s.responders[j]? = some (.status addr :: rest)) :
    Accounts { s with responders := s.responders.set j rest } := by
  have hm : toAnswer.total { s with responders := s.responders.set j rest } + 0 =
      toAnswer.total s := total_instr hj
  have hp : toMark.total { s with responders := s.responders.set j rest } + 0 =
      toMark.total s := total_instr hj
  have hf : toDeliver.total { s with responders := s.responders.set j rest } + 0 =
      toDeliver.total s := total_instr hj
  rw [add_zero] at hm hp hf
  exact h.handOver rfl rfl (by rw [hm]) (by rw [hp]) (by rw [hf])

theorem Accounts.step (h : Accounts s) (he : Effect libs f s a s') : Accounts s' := by
  cases he with
  | receive body hi => exact h.receive _ hi
  | @check i m topic c hi hm =>
      exact Accounts.setHandler (s := { s with cache := (filter libs f s.cache c.body).2 })
        ⟨h.messages, h.picks, h.fresh⟩ hi (holds_ofFilter _ _) (picks_ofFilter _ _)
        (unpublished_ofFilter _ _)
  | chooseAddr host hi hmode ha =>
      exact Accounts.setHandler (s := { s with counter := s.counter + 1 })
        ⟨h.messages, h.picks, h.fresh⟩ hi rfl rfl (le_refl _)
  | chooseHost hi hmode ha => exact h.chooseHost hi
  | publish hi => exact h.publish hi
  | refuse err hi => exact h.refuse hi (marked_mark s _ _ _)
  | disable hi => exact h.setHandler hi rfl rfl (le_refl _)
  | answer hi => exact h.answer hi
  | leave hi => exact h.setHandler hi rfl rfl (le_refl _)
  | accept hk ht ha => exact h.accept hk ht
  | complete hk hacc hroom => exact h.complete hk
  | take hj hs hp => exact h.take hj hs hp
  | mark hj => exact h.mark hj
  | respond hj => exact h.respond hj
  | status hj => exact h.status hj
  | chooseNone => exact ⟨h.messages, h.picks, h.fresh⟩
  | publishNil => exact ⟨h.messages, h.picks, h.fresh⟩
  | takeNone => exact ⟨h.messages, h.picks, h.fresh⟩
  | statusNil => exact ⟨h.messages, h.picks, h.fresh⟩

/-! ### The work that is left -/

/-- The steps that are left for the handler, and for what it hands over. -/
def Handler.work : Handler → ℕ
  | .idle => 0
  | .received _ => 13
  | .passed _ _ => 12
  | .publishing _ _ _ => 11
  | .accepted _ => 2
  | .returned _ _ _ => 1

def steps : Weights ℕ :=
  ⟨Handler.work, fun t => if t.accepted then 6 else 7, fun _ => 5, fun _ => 1⟩

theorem work_ofFilter (m : ℕ) (r : Except GoError (List UInt8)) : (Handler.ofFilter m r).work ≤ 12 := by
  cases r <;> simp [Handler.ofFilter, Handler.work]

theorem length_program {t : Transaction} {is : List Instr} (h : program f s t = some is) :
    held (fun _ => 1) is ≤ 3 := by
  unfold program at h
  split at h
  · cases h
    simp
  · obtain ⟨addr, -, rfl⟩ := Option.map_eq_some_iff.mp h
    simp
  · cases h
  · cases h

/-- Every step but the arrival of a message leaves less to do. -/
theorem steps_lt (he : Effect libs f s a s') (ha : a.isReceive = false) (hrun : s'.crashed = false) :
    steps.total s' < steps.total s := by
  have setHandler {u : State F} {i : ℕ} {topic : String} {x x' : Handler}
      (hi : u.handlers[i]? = some ⟨topic, x⟩) (hx : x'.work < x.work) :
      steps.total (u.setHandler i topic x') < steps.total u := by
    have ht : steps.total (u.setHandler i topic x') + x.work = steps.total u + x'.work :=
      total_setHandler hi
    omega
  have instr {j : ℕ} {i : Instr} {rest : List Instr} (hj : s.responders[j]? = some (i :: rest)) :
      steps.total { s with responders := s.responders.set j rest } < steps.total s := by
    have ht : steps.total { s with responders := s.responders.set j rest } + 1 = steps.total s :=
      total_instr hj
    omega
  cases he with
  | receive body hi => cases ha
  | @check i m topic c hi hm =>
      exact setHandler (u := { s with cache := (filter libs f s.cache c.body).2 }) hi
        (Nat.lt_succ_of_le (work_ofFilter m _))
  | chooseAddr host hi hmode ha =>
      exact setHandler (u := { s with counter := s.counter + 1 }) hi (by simp [Handler.work])
  | @chooseHost i m topic host body hi hmode ha =>
      exact setHandler (u := { s with picks := s.picks ++ [host] }) hi (by simp [Handler.work])
  | @publish i m topic body arg hi =>
      have ht : steps.total (State.setHandler
          { s with pending := s.pending ++ [⟨m, f.publishTopic topic, body, arg, false, none⟩] }
          i topic (.accepted m)) + 11 = steps.total s + 2 + 7 := total_publish hi
      omega
  | @refuse i m topic body arg err hi =>
      have hu := marked_mark s (s.reports ++ [(m, some err)]) arg (some err)
      rw [← hu.handlers] at hi
      rw [← hu.steps]
      exact setHandler hi (by simp [Handler.work])
  | disable hi => exact setHandler hi (by simp [Handler.work])
  | @answer i m topic err hi =>
      exact setHandler (u := { s with responses := s.responses ++ [(m, err.isNone)] }) hi
        (by simp [Handler.work])
  | leave hi => exact setHandler hi (by simp [Handler.work])
  | @accept k t addr hk ht ha =>
      have htotal : steps.total (XmqToXmq.accept s k t addr) + steps.pending t =
        steps.total s + steps.pending { t with accepted := true } := total_accept hk
      have hbefore : steps.pending t = 7 := if_neg (Bool.eq_false_iff.mp ht)
      have hafter : steps.pending { t with accepted := true } = 6 := rfl
      omega
  | @complete k t err hk hacc hroom =>
      have htotal : steps.total (XmqToXmq.complete s k t err) + steps.pending t =
        steps.total s + 5 := total_complete hk
      have hbefore : 6 ≤ steps.pending t := by
        simp only [steps]
        split <;> omega
      omega
  | @take j t rest is hj hs hp =>
      have htotal : steps.total { s with respChan := rest, responders := s.responders.set j is } + 5 =
        steps.total s + held (fun _ => 1) is := total_take hj hs
      have hle := length_program hp
      omega
  | mark hj => exact instr hj
  | respond hj => exact instr hj
  | status hj => exact instr hj
  | chooseNone => cases hrun
  | publishNil => cases hrun
  | takeNone => cases hrun
  | statusNil => cases hrun


/-! ### The filters -/

/-- What the filters make of a message, the flag not parsed before. -/
def verdict (libs : Libs F V) (f : Flags) (body : List UInt8) : Except GoError (List UInt8) :=
  (filter libs f (newCache libs) body).1

/-- The cache is empty, or has what the flag is parsed to. -/
def Coherent (libs : Libs F V) (f : Flags) (c : Cache F) : Prop :=
  c.parse libs f = (newCache libs).parse libs f

theorem parse_parse (c : Cache F) : (c.parse libs f).parse libs f = c.parse libs f := by
  by_cases h : f.requireJSONValue ≠ "" ∧ c.requireJSONValueParsed = false
  · simp [Cache.parse, h]
  · simp only [Cache.parse, if_neg h]

theorem shouldPassMessage_congr {c c' : Cache F} (h : c.parse libs f = c'.parse libs f)
    (js : GoMap String (Value F V)) :
    (shouldPassMessage libs f c js).1 = (shouldPassMessage libs f c' js).1 := by
  unfold shouldPassMessage
  split
  · rfl
  · simp only [h]

theorem coherent_shouldPassMessage {c : Cache F} (h : Coherent libs f c)
    (js : GoMap String (Value F V)) : Coherent libs f (shouldPassMessage libs f c js).2 := by
  have hparse : Coherent libs f (c.parse libs f) := (parse_parse c).trans h
  unfold shouldPassMessage
  split
  · exact h
  · simp only
    split
    · exact hparse
    · split <;> exact hparse

/-- The cache does not show. -/
theorem filter_eq_verdict {c : Cache F} (h : Coherent libs f c) (body : List UInt8) :
    (filter libs f c body).1 = verdict libs f body := by
  unfold verdict filter
  split
  · split
    · rfl
    · rename_i js hjs
      simp only [shouldPassMessage_congr h js]
  · rfl

theorem coherent_filter {c : Cache F} (h : Coherent libs f c) (body : List UInt8) :
    Coherent libs f (filter libs f c body).2 := by
  unfold filter
  split
  · split
    · exact h
    · rename_i js hjs
      exact coherent_shouldPassMessage h js
  · exact h

theorem keys_whitelisted (js : GoMap String (Value F V)) :
    ∀ key ∈ (whitelisted libs f js).keys, key ∈ f.whitelistJSONFields := by
  have hfold : ∀ (keys : List String) (m : GoMap String (Value F V)),
      (∀ key ∈ m.keys, key ∈ f.whitelistJSONFields) → (∀ key ∈ keys, key ∈ f.whitelistJSONFields) →
      ∀ key ∈ (keys.foldl (fun m key => (js.lookup key).elim m fun v => m.insert key (v.plain libs))
        m).keys, key ∈ f.whitelistJSONFields := by
    intro keys
    induction keys with
    | nil => exact fun m hm _ => hm
    | cons key keys ih =>
        intro m hm hkeys
        obtain ⟨hkey, hkeys⟩ := List.forall_mem_cons.mp hkeys
        refine ih _ ?_ hkeys
        intro k hk
        cases hlook : js.lookup key with
        | none =>
            simp only [hlook, Option.elim_none] at hk
            exact hm k hk
        | some v =>
            simp only [hlook, Option.elim_some] at hk
            rcases (AList.mem_insert _).mp (AList.mem_keys.mpr hk) with rfl | hk
            · exact hkey
            · exact hm k (AList.mem_keys.mp hk)
  exact hfold f.whitelistJSONFields ∅ (fun key hkey => by cases hkey) fun key hkey => hkey

/-- A body that the filters let through is what was consumed, or has only fields of the whitelist. -/
def Filtered (libs : Libs F V) (f : Flags) (body passed : List UInt8) : Prop :=
  (f.whitelistJSONFields = [] → passed = body) ∧
    (f.whitelistJSONFields ≠ [] → ∃ js : GoMap String (Value F V), libs.marshal js = some passed ∧
      ∀ key ∈ js.keys, key ∈ f.whitelistJSONFields)

theorem filterMessage_filtered {js : GoMap String (Value F V)} {body passed : List UInt8}
    (h : filterMessage libs f js body = .ok passed) : Filtered libs f body passed := by
  unfold filterMessage at h
  split at h
  · rename_i hnil
    cases h
    exact ⟨fun _ => rfl, fun hne => absurd hnil hne⟩
  · rename_i hne
    split at h
    · cases h
    · rename_i newRawMsg hmarshal
      cases h
      exact ⟨fun hnil => absurd hnil hne, fun _ => ⟨_, hmarshal, keys_whitelisted js⟩⟩

theorem verdict_filtered {body passed : List UInt8} (h : verdict libs f body = .ok passed) :
    Filtered libs f body passed := by
  unfold verdict filter at h
  split at h
  · split at h
    · cases h
    · simp only at h
      unfold afterCheck at h
      split at h
      · split at h
        · cases h
        · rename_i msgBody hfilter
          cases h
          exact filterMessage_filtered hfilter
      · cases h
      · cases h
  · rename_i hcond
    cases h
    obtain ⟨-, hnil⟩ := not_or.mp hcond
    exact ⟨fun _ => rfl, fun hne => absurd hne hnil⟩

/-! ### Where the messages are -/

/-- The message came from the topic, and passed the filters as `body`. -/
def Passed (libs : Libs F V) (f : Flags) (s : State F) (m : ℕ) (topic : String)
    (body : List UInt8) : Prop :=
  ∃ consumed, s.received[m]? = some ⟨topic, consumed⟩ ∧ verdict libs f consumed = .ok body

/-- A message that passed is finished when it was delivered, one that did not when the filters drop
it without an error. -/
def Right (libs : Libs F V) (f : Flags) (s : State F) (m : ℕ) (success : Bool) : Prop :=
  (∃ c err, s.received[m]? = some c ∧ verdict libs f c.body = .error err ∧ success = err.isNone) ∨
    ∃ topic body err, Passed libs f s m topic body ∧ (m, err) ∈ s.reports ∧ success = err.isNone ∧
      (err = none → ∃ addr ∈ f.destXmqdTCPAddrs,
        ⟨m, addr, f.publishTopic topic, body⟩ ∈ s.delivered)

/-- The argument is one of the mode, and names a destination. -/
def Arg.Fits (f : Flags) (s : State F) : Arg → Prop
  | .addr a => f.selectedMode = .roundRobin ∧ a ∈ f.destXmqdTCPAddrs
  | .response r => f.selectedMode = .hostPool ∧ ∃ a ∈ f.destXmqdTCPAddrs, s.picks[r]? = some a

structure Transaction.Good (libs : Libs F V) (f : Flags) (s : State F) (t : Transaction) : Prop where
  arg : t.arg.Fits f s
  message : ∃ topic, t.topic = f.publishTopic topic ∧ Passed libs f s t.msg topic t.body
  accepted : t.accepted = true → ∃ addr ∈ f.destXmqdTCPAddrs,
    ⟨t.msg, addr, t.topic, t.body⟩ ∈ s.delivered

structure Transaction.Completed (libs : Libs F V) (f : Flags) (s : State F) (t : Transaction) : Prop
    extends Transaction.Good libs f s t where
  reported : (t.msg, t.error) ∈ s.reports
  success : t.error = none → t.accepted = true

def Handler.Good (libs : Libs F V) (f : Flags) (s : State F) (topic : String) : Handler → Prop
  | .idle => True
  | .received m => ∃ body, s.received[m]? = some ⟨topic, body⟩
  | .passed m body => Passed libs f s m topic body
  | .publishing m body arg => Passed libs f s m topic body ∧ arg.Fits f s
  | .accepted _ => True
  | .returned m err autoResponse => autoResponse = true → Right libs f s m err.isNone

def Instr.Good (libs : Libs F V) (f : Flags) (s : State F) : Instr → Prop
  | .mark _ _ => True
  | .respond m success => Right libs f s m success
  | .status a => a ∈ f.destXmqdTCPAddrs

/-- A delivery is of a message that passed, to a destination. -/
structure Delivery.Good (libs : Libs F V) (f : Flags) (s : State F) (d : Delivery) : Prop where
  addr : d.addr ∈ f.destXmqdTCPAddrs
  message : ∃ topic, d.topic = f.publishTopic topic ∧ Passed libs f s d.msg topic d.body

/-- Everything is in order where it is. -/
structure Places (libs : Libs F V) (f : Flags) (s : State F) : Prop where
  running : s.crashed = false
  cache : Coherent libs f s.cache
  handlers : ∀ w ∈ s.handlers, w.handler.Good libs f s w.topic
  pending : ∀ t ∈ s.pending, t.Good libs f s
  respChan : ∀ t ∈ s.respChan, t.Completed libs f s
  responders : ∀ is ∈ s.responders, ∀ i ∈ is, i.Good libs f s
  responses : ∀ r ∈ s.responses, Right libs f s r.1 r.2
  delivered : ∀ d ∈ s.delivered, d.Good libs f s

/-- What is only ever added to. -/
structure Grows (s s' : State F) : Prop where
  received : s.received <+: s'.received
  picks : s.picks <+: s'.picks
  reports : s.reports ⊆ s'.reports
  delivered : s.delivered ⊆ s'.delivered

theorem getElem?_of_prefix {α : Type} {l l' : List α} {k : ℕ} {x : α} (h : l <+: l')
    (hk : l[k]? = some x) : l'[k]? = some x := by
  obtain ⟨rest, rfl⟩ := h
  rw [List.getElem?_append_left (List.getElem?_eq_some_iff.mp hk).1]
  exact hk

theorem Passed.mono (hg : Grows s s') {m : ℕ} {topic : String} {body : List UInt8}
    (h : Passed libs f s m topic body) : Passed libs f s' m topic body := by
  obtain ⟨consumed, hm, hv⟩ := h
  exact ⟨consumed, getElem?_of_prefix hg.received hm, hv⟩

theorem Right.mono (hg : Grows s s') {m : ℕ} {success : Bool} (h : Right libs f s m success) :
    Right libs f s' m success := by
  rcases h with ⟨c, err, hm, h⟩ | ⟨topic, body, err, hp, hr, hsuccess, hd⟩
  · exact .inl ⟨c, err, getElem?_of_prefix hg.received hm, h⟩
  · refine .inr ⟨topic, body, err, hp.mono hg, hg.reports hr, hsuccess, fun herr => ?_⟩
    obtain ⟨addr, ha, hd⟩ := hd herr
    exact ⟨addr, ha, hg.delivered hd⟩

theorem Arg.Fits.mono (hg : Grows s s') {arg : Arg} (h : arg.Fits f s) : arg.Fits f s' := by
  cases arg with
  | addr a => exact h
  | response r =>
      obtain ⟨hmode, a, ha, hr⟩ := h
      exact ⟨hmode, a, ha, getElem?_of_prefix hg.picks hr⟩

theorem Transaction.Good.mono (hg : Grows s s') {t : Transaction} (h : t.Good libs f s) :
    t.Good libs f s' where
  arg := h.arg.mono hg
  message := by
    obtain ⟨topic, htopic, hp⟩ := h.message
    exact ⟨topic, htopic, hp.mono hg⟩
  accepted ht := by
    obtain ⟨addr, ha, hd⟩ := h.accepted ht
    exact ⟨addr, ha, hg.delivered hd⟩

theorem Handler.Good.mono (hg : Grows s s') {topic : String} {x : Handler}
    (h : x.Good libs f s topic) : x.Good libs f s' topic := by
  cases x with
  | idle => trivial
  | received m =>
      obtain ⟨body, hm⟩ := h
      exact ⟨body, getElem?_of_prefix hg.received hm⟩
  | passed m body => exact Passed.mono hg h
  | publishing m body arg => exact ⟨h.1.mono hg, h.2.mono hg⟩
  | accepted m => trivial
  | returned m err autoResponse => exact fun hauto => (h hauto).mono hg

theorem Instr.Good.mono (hg : Grows s s') {i : Instr} (h : i.Good libs f s) : i.Good libs f s' := by
  cases i with
  | mark r err => trivial
  | respond m success => exact Right.mono hg h
  | status a => exact h

theorem Grows.of_eq (hreceived : s'.received = s.received) (hpicks : s'.picks = s.picks)
    (hreports : s'.reports = s.reports) (hdelivered : s'.delivered = s.delivered) : Grows s s' :=
  ⟨hreceived ▸ List.prefix_rfl, hpicks ▸ List.prefix_rfl, hreports ▸ List.Subset.refl _,
    hdelivered ▸ List.Subset.refl _⟩

/-- What was in order stays so; a step answers for what is new. -/
theorem Places.move (h : Places libs f s) (hg : Grows s s') (hrun : s'.crashed = s.crashed)
    (hcache : Coherent libs f s'.cache)
    (hh : ∀ w ∈ s'.handlers, w ∈ s.handlers ∨ w.handler.Good libs f s' w.topic)
    (hp : ∀ t ∈ s'.pending, t ∈ s.pending ∨ t.Good libs f s')
    (hc : ∀ t ∈ s'.respChan, t ∈ s.respChan ∨ t.Completed libs f s')
    (hr : ∀ is ∈ s'.responders, is ∈ s.responders ∨ ∀ i ∈ is, i.Good libs f s')
    (hl : ∀ r ∈ s'.responses, r ∈ s.responses ∨ Right libs f s' r.1 r.2)
    (hd : ∀ d ∈ s'.delivered, d ∈ s.delivered ∨ d.Good libs f s') : Places libs f s' where
  running := hrun.trans h.running
  cache := hcache
  handlers w hw := (hh w hw).elim (fun hw => (h.handlers w hw).mono hg) id
  pending t ht := (hp t ht).elim (fun ht => (h.pending t ht).mono hg) id
  respChan t ht := by
    rcases hc t ht with ht | ht
    · have hgood := h.respChan t ht
      exact ⟨hgood.toGood.mono hg, hg.reports hgood.reported, hgood.success⟩
    · exact ht
  responders is his :=
    (hr is his).elim (fun his i hi => (h.responders is his i hi).mono hg) id
  responses r hrs := (hl r hrs).elim (fun hrs => (h.responses r hrs).mono hg) id
  delivered d hds := by
    rcases hd d hds with hds | hds
    · obtain ⟨topic, htopic, hp⟩ := (h.delivered d hds).message
      exact ⟨(h.delivered d hds).addr, topic, htopic, hp.mono hg⟩
    · exact hds

/-- A handler moves on, with what the rest of the step adds. -/
theorem Places.moveHandler (h : Places libs f s) (hg : Grows s s') (hrun : s'.crashed = s.crashed)
    (hcache : s'.cache = s.cache) {i : ℕ} {topic : String} {x : Handler}
    (hh : s'.handlers = s.handlers.set i ⟨topic, x⟩) (hx : x.Good libs f s' topic)
    (hp : ∀ t ∈ s'.pending, t ∈ s.pending ∨ t.Good libs f s') (hc : s'.respChan = s.respChan)
    (hr : s'.responders = s.responders)
    (hl : ∀ r ∈ s'.responses, r ∈ s.responses ∨ Right libs f s' r.1 r.2)
    (hd : s'.delivered = s.delivered) : Places libs f s' :=
  h.move hg hrun (hcache ▸ h.cache) (hh ▸ or_mem_set hx) hp (hc ▸ or_mem_self) (hr ▸ or_mem_self) hl
    (hd ▸ or_mem_self)

theorem Places.handler (h : Places libs f s) {i : ℕ} {topic : String} {x : Handler}
    (hi : s.handlers[i]? = some ⟨topic, x⟩) : x.Good libs f s topic :=
  h.handlers _ (List.mem_of_getElem? hi)

theorem Places.instrs (h : Places libs f s) {j : ℕ} {i : Instr} {rest : List Instr}
    (hj : s.responders[j]? = some (i :: rest)) :
    i.Good libs f s ∧ ∀ i ∈ rest, i.Good libs f s :=
  List.forall_mem_cons.mp (h.responders _ (List.mem_of_getElem? hj))

theorem good_ofFilter {m : ℕ} {topic : String} {body : List UInt8}
    (hm : s.received[m]? = some ⟨topic, body⟩) :
    (Handler.ofFilter m (verdict libs f body)).Good libs f s topic := by
  cases hv : verdict libs f body with
  | error err => exact fun _ => .inl ⟨_, err, hm, hv, rfl⟩
  | ok passed => exact ⟨body, hm, hv⟩

theorem Arg.Fits.host {arg : Arg} (h : arg.Fits f s) : ∃ a ∈ f.destXmqdTCPAddrs, s.host arg = some a := by
  cases arg with
  | addr a => exact ⟨a, h.2, rfl⟩
  | response r => exact h.2

theorem Places.accept (h : Places libs f s) {k : ℕ} {t : Transaction} {addr : String}
    (hk : s.pending[k]? = some t) (ha : s.host t.arg = some addr) :
    Places libs f (accept s k t addr) := by
  have ht := h.pending t (List.mem_of_getElem? hk)
  obtain ⟨addr', hmem, hhost⟩ := ht.arg.host
  rw [ha] at hhost
  cases hhost
  have hg : Grows s (XmqToXmq.accept s k t addr) :=
    ⟨List.prefix_rfl, List.prefix_rfl, List.Subset.refl _, List.subset_append_left _ _⟩
  have hgood := ht.mono hg
  refine h.move hg rfl h.cache or_mem_self (or_mem_set ⟨hgood.arg, hgood.message, fun _ => ?_⟩)
    or_mem_self or_mem_self or_mem_self (or_mem_concat ⟨hmem, hgood.message⟩)
  exact ⟨addr, hmem, List.mem_append_right _ List.mem_cons_self⟩

theorem Places.complete (h : Places libs f s) {k : ℕ} {t : Transaction} {err : GoError}
    (hk : s.pending[k]? = some t) (hacc : err = none → t.accepted = true) :
    Places libs f (complete s k t err) := by
  have hg : Grows s (XmqToXmq.complete s k t err) :=
    ⟨List.prefix_rfl, List.prefix_rfl, List.subset_append_left _ _, List.Subset.refl _⟩
  have hgood := (h.pending t (List.mem_of_getElem? hk)).mono hg
  have hreported : (t.msg, err) ∈ (XmqToXmq.complete s k t err).reports :=
    List.mem_append_right _ List.mem_cons_self
  exact h.move hg rfl h.cache or_mem_self (fun u hu => .inl (List.mem_of_mem_eraseIdx hu))
    (or_mem_concat ⟨⟨hgood.arg, hgood.message, hgood.accepted⟩, hreported, hacc⟩) or_mem_self
    or_mem_self or_mem_self

/-- What is known of a completed transaction is the right answer. -/
theorem Transaction.Completed.right {t : Transaction} (h : t.Completed libs f s) :
    Right libs f s t.msg t.error.isNone := by
  obtain ⟨topic, htopic, hp⟩ := h.message
  refine .inr ⟨topic, t.body, t.error, hp, h.reported, rfl, fun herr => ?_⟩
  rw [← htopic]
  exact h.accepted (h.success herr)

/-- The type assertion of a responder holds, and its instructions are right. -/
theorem program_good {t : Transaction} (h : t.Completed libs f s) :
    ∃ is, program f s t = some is ∧ ∀ i ∈ is, i.Good libs f s := by
  have harg := h.arg
  unfold program
  cases hargs : t.arg with
  | addr a =>
      rw [hargs] at harg
      obtain ⟨hmode, ha⟩ := harg
      rw [hmode]
      refine ⟨_, rfl, ?_⟩
      simp only [List.forall_mem_cons]
      exact ⟨h.right, ha, List.forall_mem_nil _⟩
  | response r =>
      rw [hargs] at harg
      obtain ⟨hmode, a, ha, hr⟩ := harg
      simp only [hmode, hr]
      refine ⟨_, rfl, ?_⟩
      simp only [List.forall_mem_cons]
      exact ⟨trivial, h.right, ha, List.forall_mem_nil _⟩

theorem Places.step (h : Places libs f s) (hf : f.destXmqdTCPAddrs ≠ [])
    (he : Effect libs f s a s') : Places libs f s' := by
  cases he with
  | receive body hi =>
      refine h.moveHandler ⟨List.prefix_append _ _, List.prefix_rfl, List.Subset.refl _,
        List.Subset.refl _⟩ rfl rfl rfl ⟨body, ?_⟩ or_mem_self rfl rfl or_mem_self rfl
      simp [State.setHandler]
  | @check i m topic c hi hm =>
      obtain ⟨body, hbody⟩ := h.handler hi
      rw [hm] at hbody
      cases hbody
      rw [filter_eq_verdict h.cache]
      exact h.move (.of_eq rfl rfl rfl rfl) rfl (coherent_filter h.cache _) (or_mem_set (good_ofFilter hm))
        or_mem_self or_mem_self or_mem_self or_mem_self or_mem_self
  | chooseAddr host hi hmode ha =>
      have hpassed := h.handler hi
      exact h.moveHandler (.of_eq rfl rfl rfl rfl) rfl rfl rfl ⟨hpassed, hmode, ha⟩ or_mem_self rfl rfl
        or_mem_self rfl
  | @chooseHost i m topic host body hi hmode ha =>
      have hpassed : Passed libs f s m topic body := h.handler hi
      have hg : Grows s ({ s with picks := s.picks ++ [host] }.setHandler i topic
          (.publishing m body (.response s.picks.length))) :=
        ⟨List.prefix_rfl, List.prefix_append _ _, List.Subset.refl _, List.Subset.refl _⟩
      refine h.moveHandler hg rfl rfl rfl ⟨hpassed.mono hg, hmode, host, ha, ?_⟩ or_mem_self rfl rfl
        or_mem_self rfl
      simp [State.setHandler]
  | @publish i m topic body arg hi =>
      obtain ⟨hpassed, harg⟩ : Passed libs f s m topic body ∧ arg.Fits f s := h.handler hi
      exact h.moveHandler (.of_eq rfl rfl rfl rfl) rfl rfl rfl trivial
        (or_mem_concat ⟨harg, ⟨topic, rfl, hpassed⟩, fun hacc => by cases hacc⟩) rfl rfl or_mem_self rfl
  | @refuse i m topic body arg err hi =>
      have hpassed : Passed libs f s m topic body := (h.handler hi).1
      cases arg with
      | addr b =>
          refine h.moveHandler ⟨List.prefix_rfl, List.prefix_rfl, List.subset_append_left _ _,
            List.Subset.refl _⟩ rfl rfl rfl (fun _ => .inr ⟨topic, body, some err, hpassed,
            List.mem_append_right _ List.mem_cons_self, rfl, fun herr => by cases herr⟩) or_mem_self
            rfl rfl or_mem_self rfl
      | response r =>
          refine h.moveHandler ⟨List.prefix_rfl, List.prefix_rfl, List.subset_append_left _ _,
            List.Subset.refl _⟩ rfl rfl rfl (fun _ => .inr ⟨topic, body, some err, hpassed,
            List.mem_append_right _ List.mem_cons_self, rfl, fun herr => by cases herr⟩) or_mem_self
            rfl rfl or_mem_self rfl
  | disable hi =>
      exact h.moveHandler (.of_eq rfl rfl rfl rfl) rfl rfl rfl (fun hauto => by cases hauto) or_mem_self rfl rfl
        or_mem_self rfl
  | answer hi =>
      have hright := h.handler hi rfl
      exact h.moveHandler (.of_eq rfl rfl rfl rfl) rfl rfl rfl trivial or_mem_self rfl rfl
        (or_mem_concat hright) rfl
  | leave hi =>
      exact h.moveHandler (.of_eq rfl rfl rfl rfl) rfl rfl rfl trivial or_mem_self rfl rfl or_mem_self rfl
  | accept hk ht ha => exact h.accept hk ha
  | complete hk hacc hroom => exact h.complete hk hacc
  | @take j t rest is hj hs hp =>
      have ht := h.respChan t (by rw [hs]; exact List.mem_cons_self)
      obtain ⟨is', hp', hgood⟩ := program_good ht
      rw [hp] at hp'
      cases hp'
      refine h.move (.of_eq rfl rfl rfl rfl) rfl h.cache or_mem_self or_mem_self (fun u hu => .inl ?_)
        (or_mem_set hgood) or_mem_self or_mem_self
      rw [hs]
      exact List.mem_cons_of_mem t hu
  | mark hj =>
      exact h.move (.of_eq rfl rfl rfl rfl) rfl h.cache or_mem_self or_mem_self or_mem_self
        (or_mem_set (h.instrs hj).2) or_mem_self or_mem_self
  | respond hj =>
      obtain ⟨hright, hrest⟩ := h.instrs hj
      exact h.move (.of_eq rfl rfl rfl rfl) rfl h.cache or_mem_self or_mem_self or_mem_self
        (or_mem_set hrest) (or_mem_concat hright) or_mem_self
  | status hj =>
      exact h.move (.of_eq rfl rfl rfl rfl) rfl h.cache or_mem_self or_mem_self or_mem_self
        (or_mem_set (h.instrs hj).2) or_mem_self or_mem_self
  | chooseNone i host ha => exact absurd ha hf
  | publishNil err hi ha =>
      obtain ⟨addr, hmem, hhost⟩ := (h.handler hi).2.host
      exact absurd hmem (ha addr hhost)
  | takeNone hs hp =>
      have ht := h.respChan _ (by rw [hs]; exact List.mem_cons_self)
      obtain ⟨is, hp', -⟩ := program_good ht
      rw [hp] at hp'
      cases hp'
  | statusNil hj ha => exact absurd (h.instrs hj).1 ha

/-! ### Runs -/

structure Inv (libs : Libs F V) (f : Flags) (s : State F) : Prop where
  accounts : Accounts s
  places : Places libs f s
  responders : s.responders.length = f.destXmqdTCPAddrs.length

theorem length_responders (he : Effect libs f s a s') : s'.responders.length = s.responders.length := by
  cases he with
  | @refuse i m topic body arg err hi => cases arg <;> rfl
  | take hj hs hp => exact List.length_set
  | mark hj => exact List.length_set
  | respond hj => exact List.length_set
  | status hj => exact List.length_set
  | _ => rfl

theorem Inv.next (h : Inv libs f s) (hf : f.destXmqdTCPAddrs ≠ []) (hs : step libs f s a = some s') :
    Inv libs f s' :=
  ⟨h.accounts.step (step_effect hs), h.places.step hf (step_effect hs),
    (length_responders (step_effect hs)).trans h.responders⟩

theorem total_init {M : Type*} [AddCancelCommMonoid M] (w : Weights M) (hw : w.handler .idle = 0) :
    w.total (init libs f) = 0 := by
  have hhandlers : held (fun x : Worker => w.handler x.handler) (init libs f).handlers = 0 := by
    refine held_eq_zero fun x hx => ?_
    obtain ⟨topic, -, hx⟩ := List.mem_flatMap.mp hx
    rw [List.eq_of_mem_replicate hx]
    exact hw
  have hresponders : held (held w.instr) (init libs f).responders = 0 := by
    refine held_eq_zero fun is his => ?_
    rw [List.eq_of_mem_replicate his]
    rfl
  rw [total, hhandlers, hresponders]
  show 0 + 0 + 0 + 0 = (0 : M)
  simp only [add_zero]

theorem inv_init (libs : Libs F V) (f : Flags) : Inv libs f (init libs f) where
  accounts :=
    ⟨by rw [total_init toAnswer rfl]; rfl, by rw [total_init toMark rfl]; rfl,
      by rw [total_init toDeliver rfl]; exact le_refl _⟩
  places := by
    refine ⟨rfl, rfl, fun w hw => ?_, ?_, ?_, fun is his => ?_, ?_, ?_⟩
    · obtain ⟨topic, -, hw⟩ := List.mem_flatMap.mp hw
      rw [List.eq_of_mem_replicate hw]
      trivial
    · exact List.forall_mem_nil _
    · exact List.forall_mem_nil _
    · rw [List.eq_of_mem_replicate his]
      exact List.forall_mem_nil _
    · exact List.forall_mem_nil _
    · exact List.forall_mem_nil _
  responders := List.length_replicate

/-- A quiet state has nothing under way. -/
theorem total_quiet {M : Type*} [AddCancelCommMonoid M] (w : Weights M) (hw : w.handler .idle = 0)
    (h : Quiet s) : w.total s = 0 := by
  obtain ⟨hhandlers, hpending, hchan, hresponders⟩ := h
  have hh : held (fun x : Worker => w.handler x.handler) s.handlers = 0 :=
    held_eq_zero fun x hx => by rw [hhandlers x hx, hw]
  have hr : held (held w.instr) s.responders = 0 :=
    held_eq_zero fun is his => by rw [hresponders is his, held_nil]
  rw [total, hh, hr, hpending, hchan]
  simp

theorem Inv.answered (h : Inv libs f s) (hq : Quiet s) {m : ℕ} (hm : m < s.received.length) :
    m ∈ s.responses.map Prod.fst := by
  have hall := h.accounts.messages
  rw [total_quiet toAnswer rfl hq, zero_add] at hall
  exact Multiset.mem_coe.mp (hall ▸ Multiset.mem_range.mpr hm)

theorem Inv.marked (h : Inv libs f s) (hq : Quiet s) {r : ℕ} (hr : r < s.picks.length) :
    r ∈ s.marks.map Prod.fst := by
  have hall := h.accounts.picks
  rw [total_quiet toMark rfl hq, zero_add] at hall
  exact Multiset.mem_coe.mp (hall ▸ Multiset.mem_range.mpr hr)

/-- The next step of a handler that has a message. -/
theorem Inv.handler_moves (h : Inv libs f s) (hf : f.destXmqdTCPAddrs ≠ []) {w : Worker}
    (hw : w ∈ s.handlers) (hbusy : w.handler ≠ .idle) :
    ∃ a, a.isReceive = false ∧ (step libs f s a).isSome = true := by
  obtain ⟨i, hi⟩ := List.getElem?_of_mem hw
  obtain ⟨topic, x⟩ := w
  have hgood := h.places.handler hi
  cases x with
  | idle => exact absurd rfl hbusy
  | received m =>
      obtain ⟨body, hm⟩ := hgood
      exact ⟨.check i, rfl, by simp [step, h.places.running, hi, hm]⟩
  | passed m body =>
      obtain ⟨host, rest, hhost⟩ := List.exists_cons_of_ne_nil hf
      refine ⟨.choose i host, rfl, ?_⟩
      simp only [step, h.places.running, hi, choose, Bool.false_eq_true, if_false]
      cases f.selectedMode with
      | roundRobin =>
          simp only
          split <;> rfl
      | hostPool => simp [hhost]
  | publishing m body arg => exact ⟨.publish i none, rfl, by simp [step, h.places.running, hi]⟩
  | accepted m => exact ⟨.disable i, rfl, by simp [step, h.places.running, hi]⟩
  | returned m err autoResponse => exact ⟨.finish i, rfl, by simp [step, h.places.running, hi]⟩

/-- **No deadlock.** As long as something is under way there is a step that needs no new message. -/
theorem Inv.progress (h : Inv libs f s) (hf : f.destXmqdTCPAddrs ≠ []) (hq : ¬ Quiet s) :
    ∃ a, a.isReceive = false ∧ (step libs f s a).isSome = true := by
  have hpos : 0 < f.destXmqdTCPAddrs.length := List.length_pos_iff.mpr hf
  by_cases hresponders : ∀ is ∈ s.responders, is = []
  · cases hchan : s.respChan with
    | cons t rest =>
        have hj : s.responders[0]? = some [] := by
          rw [List.getElem?_eq_getElem (h.responders ▸ hpos), hresponders _ (List.getElem_mem _)]
        refine ⟨.take 0, rfl, ?_⟩
        simp only [step, h.places.running, hj, hchan, Bool.false_eq_true, if_false]
        split <;> rfl
    | nil =>
        cases hpending : s.pending with
        | cons t rest =>
            refine ⟨.complete 0 (some "not connected"), rfl, ?_⟩
            simp [step, h.places.running, hpending, hchan, hpos]
        | nil =>
            by_cases hhandlers : ∀ w ∈ s.handlers, w.handler = .idle
            · exact absurd ⟨hhandlers, hpending, hchan, hresponders⟩ hq
            · simp only [not_forall] at hhandlers
              obtain ⟨w, hw, hbusy⟩ := hhandlers
              exact h.handler_moves hf hw hbusy
  · simp only [not_forall] at hresponders
    obtain ⟨is, his, hne⟩ := hresponders
    obtain ⟨j, hj⟩ := List.getElem?_of_mem his
    obtain ⟨i, rest, rfl⟩ := List.exists_cons_of_ne_nil hne
    exact ⟨.instr j, rfl, by simp [step, h.places.running, hj]⟩

/-- The steps that are left; stopping with a panic is one. -/
def work (s : State F) : ℕ := steps.total s + if s.crashed then 0 else 1

theorem effect_crashed (he : Effect libs f s a s') : s'.crashed = s.crashed ∨ s' = s.crash := by
  cases he with
  | @refuse i m topic body arg err hi => cases arg <;> exact .inl rfl
  | chooseNone i host ha => exact .inr rfl
  | publishNil err hi ha => exact .inr rfl
  | takeNone hs hp => exact .inr rfl
  | statusNil hj ha => exact .inr rfl
  | _ => exact .inl rfl

theorem running_of_step (hs : step libs f s a = some s') : s.crashed = false := by
  unfold step at hs
  split at hs
  · cases hs
  · rename_i hcrashed
    exact Bool.eq_false_iff.mpr hcrashed

theorem work_lt (ha : a.isReceive = false) (hs : step libs f s a = some s') : work s' < work s := by
  have hrun := running_of_step hs
  rcases effect_crashed (step_effect hs) with hsame | rfl
  · have hlt := steps_lt (step_effect hs) ha (hsame.trans hrun)
    simp only [work, hsame]
    omega
  · have hwork : work s = steps.total s + 1 := by simp [work, hrun]
    rw [hwork]
    exact Nat.lt_succ_self _

/-- What holds after every run. -/
structure Relayed (libs : Libs F V) (f : Flags) (s : State F) : Prop where
  running : s.crashed = false
  right : ∀ r ∈ s.responses, Right libs f s r.1 r.2
  answeredOnce : (s.responses.map Prod.fst).Nodup
  delivered : ∀ d ∈ s.delivered, d.Good libs f s
  filtered : ∀ d ∈ s.delivered, ∃ c, s.received[d.msg]? = some c ∧ Filtered libs f c.body d.body
  deliveredOnce : (s.delivered.map Delivery.msg).Nodup
  markedOnce : (s.marks.map Prod.fst).Nodup
  allAnswered : Quiet s → ∀ m, m < s.received.length → m ∈ s.responses.map Prod.fst
  allMarked : Quiet s → ∀ r, r < s.picks.length → r ∈ s.marks.map Prod.fst
  progress : ¬ Quiet s → ∃ a, a.isReceive = false ∧ (step libs f s a).isSome = true

theorem Inv.relayed (h : Inv libs f s) (hf : f.destXmqdTCPAddrs ≠ []) : Relayed libs f s where
  running := h.places.running
  right := h.places.responses
  answeredOnce := Multiset.coe_nodup.mp (nodup_of_le_range
    (h.accounts.messages ▸ Multiset.le_add_left _ _))
  delivered := h.places.delivered
  filtered d hd := by
    obtain ⟨topic, -, consumed, hm, hv⟩ := (h.places.delivered d hd).message
    exact ⟨_, hm, verdict_filtered hv⟩
  deliveredOnce := Multiset.coe_nodup.mp (nodup_of_le_range
    ((Multiset.le_add_left _ _).trans h.accounts.fresh))
  markedOnce := Multiset.coe_nodup.mp (nodup_of_le_range
    (h.accounts.picks ▸ Multiset.le_add_left _ _))
  allAnswered hq m hm := h.answered hq hm
  allMarked hq r hr := h.marked hq hr
  progress := h.progress hf

theorem destinations_of_fatal (h : f.fatal = none) : f.destXmqdTCPAddrs ≠ [] := by
  intro hnil
  unfold Flags.fatal at h
  simp only [hnil, if_true] at h
  repeat' split at h
  all_goals cases h

/-- **Relaying.** With flags that `main` accepts, and in any order of the steps of handlers, producers,
destinations and responders: nothing panics; a message is answered at most once, and finished only if
it was dropped by the filters or delivered, as they left it, to a destination under the right topic; it
is delivered at most once for each time it was consumed. Without new messages all comes to rest, and
then every message has its answer and every response of the host pool its mark. -/
theorem messages_relayed (libs : Libs F V) (f : Flags) (hf : f.fatal = none) (acts : List Act)
    (s : State F) (hr : Runs.run (step libs f) (init libs f) acts = some s) :
    Relayed libs f s ∧ ∀ more t, (∀ a ∈ more, Act.isReceive a = false) →
      Runs.run (step libs f) s more = some t → more.length ≤ work s := by
  have hne := destinations_of_fatal hf
  have hinv := Runs.invariant_run (I := Inv libs f) (fun s a t hs ht => hs.next hne ht) acts _ _
    (inv_init libs f) hr
  refine ⟨hinv.relayed hne, fun more t hmore ht => ?_⟩
  exact Nat.le_of_add_right_le (Runs.length_le_of_decreases (m := work)
    (fun s a t ha hs => work_lt ha hs) more hmore ht)

def ascii (s : String) : List UInt8 := s.toList.map fun c => UInt8.ofNat c.toNat

/-- Only the field `a` is passed on, to one destination. -/
def oneField : Flags where
  channel := "xmq_to_xmq"
  destTopic := ""
  mode := "hostpool"
  xmqdTCPAddrs := ["source:4150"]
  lookupdHTTPAddrs := []
  destXmqdTCPAddrs := ["dest:4150"]
  whitelistJSONFields := ["a"]
  topics := ["t"]
  requireJSONField := ""
  requireJSONValue := ""

/-- JSON as far as the message needs it; the floats are integers. -/
def oneMessage : Libs ℤ Unit where
  unmarshal body :=
    if body = ascii "\x7b\"a\":1,\"b\":2\x7d" then
      some ((AList.insert "a" (.number 1) ∅ : GoMap String (Value ℤ Unit)).insert "b" (.number 2))
    else none
  marshal js :=
    if js.keys = ["a"] then some (ascii "\x7b\"a\":1\x7d") else none
  format _ := "map[]"
  parseFloat _ := (0, some "invalid syntax")
  floatEq x y := decide (x = y)
  toInt64 := Int64.ofInt
  ofInt64 := Int64.toInt
  zero := 0

/-- The responder answers before `PublishAsync` has returned to the handler. -/
def answeredEarly : List Act :=
  [.receive 0 (ascii "\x7b\"a\":1,\"b\":2\x7d"), .check 0, .choose 0 "dest:4150", .publish 0 none, .accept 0,
    .complete 0 none, .take 0, .instr 0, .instr 0, .instr 0, .disable 0, .finish 0]

theorem answeredEarly_run :
    ((Runs.run (step oneMessage oneField) (init oneMessage oneField) answeredEarly).any
      fun s => decide (s.responses = [(0, true)] ∧ Quiet s)) = true := by
  decide

theorem messages_relayed_answeredEarly : ∃ s,
    Runs.run (step oneMessage oneField) (init oneMessage oneField) answeredEarly = some s ∧
      s.responses = [(0, true)] ∧ Quiet s ∧ Relayed oneMessage oneField s ∧
      ∀ more t, (∀ a ∈ more, Act.isReceive a = false) →
        Runs.run (step oneMessage oneField) s more = some t → more.length ≤ work s := by
  obtain ⟨s, hr, hresponses, hquiet⟩ := Runs.exists_of_run _ _ _
    (fun s : State ℤ => s.responses = [(0, true)] ∧ Quiet s) answeredEarly_run
  exact ⟨s, hr, hresponses, hquiet,
    messages_relayed oneMessage oneField (by decide) answeredEarly s hr⟩

end Xmq.XmqToXmq
