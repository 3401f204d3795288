import Xmq.RegistrationKeys
import Xmq.Runs
import Mathlib.Logic.Relation

/-!
# Calls of the lookup daemon at the same time

The handlers of `xmqlookupd` run at the same time, each in a goroutine of its own. The lock of the
database is taken and released by each operation on it, so that a handler is a sequence of critical
sections with those of the other handlers in between. This module runs any number of handlers that
way.

* A call is what is left of its handler. Its next step is one operation on the database, or one
  access to the table of the peers. The handlers that change no key and no producer (`Ping`,
  `doTombstoneTopicProducer` and `getNodes`) take a single step.
* A call that runs alone does what the handler does in one step.
* A node that has registered stays registered while it does not unregister and nobody deletes, as
  long as every `RemoveRegistration` of an `Unregister` finds the registration still without
  producers. `RemoveProducer` counts the producers in an earlier critical section.
-/

namespace Xmq.Lookupd

open GoMap (RangeOrder)
open Lookup (PeerInfo PeerRequest RegisterRequest)
open XMQLookupd Runs

deriving instance DecidableEq for LookupAnswer

namespace Calls

/-! ### Calls -/

/-- What a call does next. -/
inductive Call where
  | identify (peerinfo : PeerInfo)
  | storePeer (peerinfo : PeerInfo)
  | addClient (peerinfo : PeerInfo)
  | ping (req : PeerRequest)
  | register (req : RegisterRequest)
  | addChannel (peerinfo : PeerInfo) (topic channel : String)
  | addTopic (peerinfo : PeerInfo) (topic : String)
  | unregister (req : RegisterRequest)
  | findChannels (id topic : String)
  | removeEach (id topic : String) (k : Registration) (ks : List Registration)
  | removeProducer (id : String) (k : Registration) (name : String)
  | removeRegistration (id : String) (k : Registration)
  | createTopic (topic : String)
  | createChannel (topic channel : String)
  | deleteTopic (topic : String)
  | deleteChannels (topic : String) (k : Registration) (ks : List Registration)
  | findTopic (topic : String)
  | deleteTopics (topic : String) (k : Registration) (ks : List Registration)
  | deleteChannel (topic channel : String)
  | deleteEach (topic channel : String) (k : Registration) (ks : List Registration)
  | tombstone (topic node : String)
  | getNodes
  | lookup (topic : String)
  | lookupChannels (topic : String)
  | lookupProducers (topic : String) (channels : List String)
  | answered (answer : LookupAnswer)
  | returned (err : String)
  | panicked
  deriving DecidableEq

/-- A request with arguments, or the error of one that is refused. -/
def orReturn : Except HTTPErr Call → Call
  | .ok call => call
  | .error err => .returned err.text

/-- A call as it arrives, its arguments read. -/
def start : Request → Call
  | .identify remote req =>
    match req.peer with
    | none => .panicked
    | some peer =>
      if MissingFields (identifyInfo remote peer) then
        .returned "E_BAD_BODY:IDENTIFY missing fields"
      else .identify (identifyInfo remote peer)
  | .register req => .register req
  | .unregister req => .unregister req
  | .ping req => .ping req
  | .createTopic req => orReturn do
    let params ← newReqParams req
    let topicName ← getParam params "topic" "MISSING_ARG_TOPIC"
    if isValidTopicName topicName = false then throw ⟨400, "INVALID_ARG_TOPIC"⟩
    return .createTopic topicName
  | .deleteTopic req => orReturn do
    let params ← newReqParams req
    let topicName ← getParam params "topic" "MISSING_ARG_TOPIC"
    return .deleteTopic topicName
  | .tombstoneTopicProducer req => orReturn do
    let params ← newReqParams req
    let topicName ← getParam params "topic" "MISSING_ARG_TOPIC"
    let node ← getParam params "node" "MISSING_ARG_NODE"
    return .tombstone topicName node
  | .createChannel req => orReturn do
    let params ← newReqParams req
    let (topicName, channelName) ← getTopicChannelArgs params
    return .createChannel topicName channelName
  | .deleteChannel req => orReturn do
    let params ← newReqParams req
    let (topicName, channelName) ← getTopicChannelArgs params
    return .deleteChannel topicName channelName
  | .getNodes => .getNodes

/-- `doLookup` as it arrives. -/
def startLookup (req : Option ReqParams) : Call := orReturn do
  let params ← newReqParams req
  let topicName ← getParam params "topic" "MISSING_ARG_TOPIC"
  return .lookup topicName

/-- The loop over the channels of an `Unregister`, and the topic after it. -/
def removeLoop (id topic : String) : List Registration → Call
  | [] => .removeProducer id (topicKey topic) topic
  | k :: ks => .removeEach id topic k ks

/-- The loop over the channels of a `doDeleteTopic`. -/
def deleteChannelsLoop (topic : String) : List Registration → Call
  | [] => .findTopic topic
  | k :: ks => .deleteChannels topic k ks

/-- The loop over the topics of a `doDeleteTopic`. -/
def deleteTopicsLoop (topic : String) : List Registration → Call
  | [] => .returned ""
  | k :: ks => .deleteTopics topic k ks

/-- The loop of a `doDeleteChannel`. -/
def deleteLoop (topic channel : String) : List Registration → Call
  | [] => .returned ""
  | k :: ks => .deleteEach topic channel k ks

/-! ### Steps -/

variable (opts : Options)

/-- The next step of a call; `none` when it is over. -/
def next (l : XMQLookupd) (now : ℤ) (r : RangeOrder) : Call → Option (Call × XMQLookupd)
  | .identify peerinfo =>
    if (l.peers.lookup peerinfo.id).isSome then
      some (.returned "E_INVALID:cannot IDENTIFY again", l)
    else some (.storePeer { peerinfo with lastUpdate := now }, l)
  | .storePeer peerinfo =>
    some (.addClient peerinfo, { l with peers := l.peers.insert peerinfo.id peerinfo })
  | .addClient peerinfo => some (.returned "", l.addProducer clientKey peerinfo)
  | .ping req => some (.returned "", (l.ping req).2)
  | .register req =>
    match l.checkRegister req with
    | .error err => some (.returned err, l)
    | .ok peerinfo =>
      if req.channelName ≠ "" then some (.addChannel peerinfo req.topicName req.channelName, l)
      else some (.addTopic peerinfo req.topicName, l)
  | .addChannel peerinfo topic channel =>
    some (.addTopic peerinfo topic, l.addProducer (channelKey topic channel) peerinfo)
  | .addTopic peerinfo topic => some (.returned "", l.addProducer (topicKey topic) peerinfo)
  | .unregister req =>
    match l.checkRegister req with
    | .error err => some (.returned err, l)
    | .ok peerinfo =>
      if req.channelName ≠ "" then
        some (.removeProducer peerinfo.id (channelKey req.topicName req.channelName)
          req.channelName, l)
      else some (.findChannels peerinfo.id req.topicName, l)
  | .findChannels id topic =>
    some (removeLoop id topic (l.db.findRegistrations r "channel" topic "*"), l)
  | .removeEach id topic k ks =>
    some (removeLoop id topic ks, { l with db := (l.db.removeProducer k id).2 })
  | .removeProducer id k name =>
    let removed := l.db.removeProducer k id
    if removed.1.2 = 0 ∧ name.endsWith "#ephemeral" then
      some (.removeRegistration id k, { l with db := removed.2 })
    else some (.returned "", { l with db := removed.2 })
  | .removeRegistration _ k => some (.returned "", { l with db := l.db.removeRegistration k })
  | .createTopic topic =>
    some (.returned "", { l with db := l.db.addRegistration (topicKey topic) })
  | .createChannel topic channel =>
    some (.createTopic topic, { l with db := l.db.addRegistration (channelKey topic channel) })
  | .deleteTopic topic =>
    some (deleteChannelsLoop topic (l.db.findRegistrations r "channel" topic "*"), l)
  | .deleteChannels topic k ks =>
    some (deleteChannelsLoop topic ks, { l with db := l.db.removeRegistration k })
  | .findTopic topic => some (deleteTopicsLoop topic (l.db.findRegistrations r "topic" topic ""), l)
  | .deleteTopics topic k ks =>
    some (deleteTopicsLoop topic ks, { l with db := l.db.removeRegistration k })
  | .deleteChannel topic channel =>
    let registrations := l.db.findRegistrations r "channel" topic channel
    if registrations.length = 0 then some (.returned "CHANNEL_NOT_FOUND", l)
    else some (deleteLoop topic channel registrations, l)
  | .deleteEach topic channel k ks =>
    some (deleteLoop topic channel ks, { l with db := l.db.removeRegistration k })
  | .tombstone topic node =>
    some (.returned "",
      { l with db := tombstoneAll now node l.db (l.db.findProducers r "topic" topic "") })
  | .getNodes => some (.returned "", (l.getNodes opts r now).2)
  | .lookup topic =>
    if (l.db.findRegistrations r "topic" topic "").length = 0 then
      some (.returned "TOPIC_NOT_FOUND", l)
    else some (.lookupChannels topic, l)
  | .lookupChannels topic =>
    some (.lookupProducers topic
      ((l.db.findRegistrations r "channel" topic "*").map Registration.subKey), l)
  | .lookupProducers topic channels =>
    let producers := l.db.filterByActive now opts.inactiveProducerTimeout opts.tombstoneLifetime
      (l.db.findProducers r "topic" topic "")
    some (.answered ⟨channels, l.db.peerInfos producers⟩, l)
  | .answered _ => none
  | .returned _ => none
  | .panicked => none

structure Daemon where
  lookupd : XMQLookupd
  calls : List Call

def Daemon.new : Daemon := ⟨.new, []⟩

inductive Act where
  | arrive (request : Request)
  | arriveLookup (req : Option ReqParams)
  | next (i : ℕ) (now : ℤ) (r : RangeOrder)

def step (s : Daemon) : Act → Option Daemon
  | .arrive request => some { s with calls := s.calls ++ [start request] }
  | .arriveLookup req => some { s with calls := s.calls ++ [startLookup req] }
  | .next i now r =>
    match s.calls[i]? with
    | none => none
    | some call =>
      match next opts s.lookupd now r call with
      | none => none
      | some (call', l) => some ⟨l, s.calls.set i call'⟩

/-! ### A call that runs alone -/

variable {opts} {l : XMQLookupd} {e : Event} {r : RangeOrder}

/-- One step of a call with no other in between. -/
def Alone (opts : Options) (now : ℤ) (r : RangeOrder) (x y : Call × XMQLookupd) : Prop :=
  next opts x.2 now r x.1 = some y

/-- The call, alone, comes to its end and leaves the daemon `l'`. -/
def Ends (opts : Options) (now : ℤ) (r : RangeOrder) (call : Call) (l l' : XMQLookupd) : Prop :=
  ∃ last, Relation.ReflTransGen (Alone opts now r) (call, l) (last, l') ∧
    ∀ l, next opts l now r last = none

variable {now : ℤ} {call call' : Call} {l' l'' : XMQLookupd}

theorem Ends.step (h : Ends opts now r call' l' l'')
    (hnext : next opts l now r call = some (call', l')) : Ends opts now r call l l'' := by
  obtain ⟨last, hrun, hlast⟩ := h
  exact ⟨last, .head hnext hrun, hlast⟩

theorem ends_returned (err : String) (l : XMQLookupd) : Ends opts now r (.returned err) l l :=
  ⟨.returned err, .refl, fun _ => rfl⟩

/-- A loop that does `f` for one registration after the other, and what comes after it. -/
theorem Ends.loop (loop : List Registration → Call)
    (f : RegistrationDB → Registration → RegistrationDB)
    (hpass : ∀ (l : XMQLookupd) k ks,
      next opts l now r (loop (k :: ks)) = some (loop ks, { l with db := f l.db k })) :
    ∀ (ks : List Registration) (l l' : XMQLookupd),
      Ends opts now r (loop []) { l with db := ks.foldl f l.db } l' →
        Ends opts now r (loop ks) l l' := by
  intro ks
  induction ks with
  | nil =>
      intro l l' h
      exact h
  | cons k ks ih =>
      intro l l' h
      exact (ih { l with db := f l.db k } l' h).step (hpass l k ks)

theorem ends_removeProducer (id : String) (k : Registration) (name : String) :
    Ends opts now r (.removeProducer id k name) l (l.removeProducer k id name) := by
  unfold XMQLookupd.removeProducer
  simp only
  split
  · rename_i hlast
    have hnext : next opts l now r (.removeProducer id k name) =
        some (.removeRegistration id k, { l with db := (l.db.removeProducer k id).2 }) := by
      unfold next
      simp only [hlast, and_self, if_true]
    exact ((ends_returned "" _).step rfl).step hnext
  · rename_i hmore
    have hnext : next opts l now r (.removeProducer id k name) =
        some (.returned "", { l with db := (l.db.removeProducer k id).2 }) := by
      unfold next
      simp only [hmore, if_false]
    exact (ends_returned "" _).step hnext

theorem ends_identify (remote : String) (req : PeerRequest) :
    Ends opts now r (start (.identify remote req)) l (l.identify opts remote now req).2 := by
  obtain ⟨_ | peer⟩ := req
  · exact ⟨.panicked, .refl, fun _ => rfl⟩
  · simp only [start, identify]
    split
    · exact ends_returned _ l
    · split
      · rename_i hknown
        refine (ends_returned "E_INVALID:cannot IDENTIFY again" l).step ?_
        unfold next
        simp only [hknown, if_true]
      · rename_i hnew
        have hstored : Ends opts now r
            (.storePeer { identifyInfo remote peer with lastUpdate := now }) l _ :=
          ((ends_returned "" _).step rfl).step rfl
        refine hstored.step ?_
        unfold next
        simp only [hnew]
        rfl

theorem ends_register (req : RegisterRequest) :
    Ends opts now r (.register req) l (l.register req).2 := by
  unfold XMQLookupd.register
  cases hcheck : l.checkRegister req with
  | error err =>
    refine (ends_returned err l).step ?_
    unfold next
    simp only [hcheck]
  | ok info =>
    by_cases hchannel : req.channelName = ""
    · simp only [hchannel, ne_eq, not_true_eq_false, if_false]
      have htopic : Ends opts now r (.addTopic info req.topicName) l _ :=
        (ends_returned "" _).step rfl
      refine htopic.step ?_
      unfold next
      simp only [hcheck, hchannel, ne_eq, not_true_eq_false, if_false]
    · simp only [ne_eq, hchannel, not_false_eq_true, if_true]
      have hboth : Ends opts now r (.addChannel info req.topicName req.channelName) l _ :=
        ((ends_returned "" _).step rfl).step rfl
      refine hboth.step ?_
      unfold next
      simp only [hcheck, ne_eq, hchannel, not_false_eq_true, if_true]

theorem ends_unregister (req : RegisterRequest) :
    Ends opts now r (.unregister req) l (l.unregister r req).2 := by
  unfold XMQLookupd.unregister
  cases hcheck : l.checkRegister req with
  | error err =>
    refine (ends_returned err l).step ?_
    unfold next
    simp only [hcheck]
  | ok info =>
    by_cases hchannel : req.channelName = ""
    · simp only [hchannel, ne_eq, not_true_eq_false, if_false]
      have hloop : Ends opts now r
          (removeLoop info.id req.topicName (l.db.findRegistrations r "channel" req.topicName "*"))
          l _ :=
        Ends.loop (removeLoop info.id req.topicName)
          (fun db k => (db.removeProducer k info.id).2) (fun _ _ _ => rfl) _ l _
          (ends_removeProducer _ _ _)
      have hfound : Ends opts now r (.findChannels info.id req.topicName) l _ := hloop.step rfl
      refine hfound.step ?_
      unfold next
      simp only [hcheck, hchannel, ne_eq, not_true_eq_false, if_false]
    · simp only [ne_eq, hchannel, not_false_eq_true, if_true]
      refine (ends_removeProducer _ _ _).step ?_
      unfold next
      simp only [hcheck, ne_eq, hchannel, not_false_eq_true, if_true]

theorem ends_deleteTopic (topic : String) :
    let db := (l.db.findRegistrations r "channel" topic "*").foldl .removeRegistration l.db
    Ends opts now r (.deleteTopic topic) l
      { l with db := (db.findRegistrations r "topic" topic "").foldl .removeRegistration db } := by
  have htopics : ∀ l : XMQLookupd, Ends opts now r (.findTopic topic) l
      { l with db := (l.db.findRegistrations r "topic" topic "").foldl .removeRegistration l.db } :=
    fun l => (Ends.loop (deleteTopicsLoop topic) .removeRegistration (fun _ _ _ => rfl) _ l _
      (ends_returned "" _)).step rfl
  exact (Ends.loop (deleteChannelsLoop topic) .removeRegistration (fun _ _ _ => rfl) _ l _
    (htopics _)).step rfl

theorem ends_deleteChannel (topic channel : String) :
    let registrations := l.db.findRegistrations r "channel" topic channel
    Ends opts now r (.deleteChannel topic channel) l
      (if registrations.length = 0 then l
       else { l with db := registrations.foldl .removeRegistration l.db }) := by
  intro registrations
  split
  · rename_i hnone
    refine (ends_returned "CHANNEL_NOT_FOUND" l).step ?_
    exact if_pos hnone
  · rename_i hsome
    have hloop : Ends opts now r (deleteLoop topic channel registrations) l _ :=
      Ends.loop (deleteLoop topic channel) .removeRegistration (fun _ _ _ => rfl) registrations l
        _ (ends_returned "" _)
    exact hloop.step (if_neg hsome)

/-- The arguments are read the same way. -/
theorem ends_bind {α : Type} (a : Except HTTPErr α) {f : α → Except HTTPErr Call}
    {g : α → Except HTTPErr XMQLookupd}
    (h : ∀ v, Ends opts now r (orReturn (f v)) l (l.orKeep (g v))) :
    Ends opts now r (orReturn (a >>= f)) l (l.orKeep (a >>= g)) := by
  cases a with
  | error err => exact ends_returned err.text l
  | ok v => exact h v

/-- **Alone.** A call that no other one interrupts does what the handler does in one step. -/
theorem ends_serve (opts : Options) (l : XMQLookupd) (e : Event) :
    Ends opts e.now e.range (start e.request) l (l.serve opts e) := by
  unfold serve
  cases e.request with
  | identify remote req => exact ends_identify remote req
  | register req => exact ends_register req
  | unregister req => exact ends_unregister req
  | ping req => exact (ends_returned "" _).step rfl
  | createTopic req =>
    refine ends_bind (newReqParams req) fun params => ends_bind _ fun topicName => ?_
    simp only
    split
    · exact ends_returned _ l
    · exact (ends_returned "" _).step rfl
  | deleteTopic req =>
    refine ends_bind (newReqParams req) fun params => ends_bind _ fun topicName => ?_
    exact ends_deleteTopic topicName
  | tombstoneTopicProducer req =>
    refine ends_bind (newReqParams req) fun params => ends_bind _ fun topicName =>
      ends_bind _ fun node => ?_
    exact (ends_returned "" _).step rfl
  | createChannel req =>
    refine ends_bind (newReqParams req) fun params => ends_bind _ fun names => ?_
    exact ((ends_returned "" _).step rfl).step rfl
  | deleteChannel req =>
    refine ends_bind (newReqParams req) fun params => ends_bind _ fun names => ?_
    have hends : Ends opts e.now e.range (.deleteChannel names.1 names.2) l _ :=
      ends_deleteChannel names.1 names.2
    simp only at hends ⊢
    split
    · rename_i hnone
      rw [if_pos hnone] at hends
      exact hends
    · rename_i hsome
      rw [if_neg hsome] at hends
      exact hends
  | getNodes => exact (ends_returned "" _).step rfl

/-! ### A node that stays registered -/

/-- The call is an `Unregister` of the node. -/
def Call.Unregisters (id : String) : Call → Prop
  | .unregister req => req.id = id
  | .findChannels id' _ => id' = id
  | .removeEach id' _ _ _ => id' = id
  | .removeProducer id' _ _ => id' = id
  | .removeRegistration id' _ => id' = id
  | _ => False

/-- The call is a delete request for the topic or for its channel. -/
def Call.Deletes (t c : String) : Call → Prop
  | .deleteTopic topic => topic = "*" ∨ t = topic
  | .deleteChannels topic _ _ => topic = "*" ∨ t = topic
  | .findTopic topic => topic = "*" ∨ t = topic
  | .deleteTopics topic _ _ => topic = "*" ∨ t = topic
  | .deleteChannel topic channel => (topic = "*" ∨ t = topic) ∧ (channel = "*" ∨ c = channel)
  | .deleteEach topic channel _ _ => (topic = "*" ∨ t = topic) ∧ (channel = "*" ∨ c = channel)
  | _ => False

instance (id : String) (call : Call) : Decidable (call.Unregisters id) := by
  unfold Call.Unregisters
  split <;> infer_instance

instance (t c : String) (call : Call) : Decidable (call.Deletes t c) := by
  unfold Call.Deletes
  split <;> infer_instance

/-- The call neither takes the node out nor deletes the topic or its channel. -/
def Call.Spares (id t c : String) (call : Call) : Prop := ¬ call.Unregisters id ∧ ¬ call.Deletes t c

instance (id t c : String) (call : Call) : Decidable (call.Spares id t c) :=
  inferInstanceAs (Decidable (_ ∧ _))

/-- A `Register` that is about to add its node to the channel: if it comes to its end, then the node
is in the channel and in the topic, as long as no `Unregister` of the node and no delete request is
there or arrives. -/
def StaysRegistered (opts : Options) (s : Daemon) (acts : List Act) : Prop :=
  ∀ (i : ℕ) (info : PeerInfo) (t c err : String) (u : Daemon),
    s.calls[i]? = some (Call.addChannel info t c) →
    (∀ call ∈ s.calls, call.Spares info.id t c) →
    (∀ request, .arrive request ∈ acts → (start request).Spares info.id t c) →
    run (step opts) s acts = some u → u.calls[i]? = some (.returned err) →
    info.id ∈ u.lookupd.db.producersOf (channelKey t c) ∧
      info.id ∈ u.lookupd.db.producersOf (topicKey t)

/-- A `RemoveRegistration` of an `Unregister` comes while the registration has no producers. -/
def StillEmpty (s : Daemon) : Act → Prop
  | .next i _ _ =>
    match s.calls[i]? with
    | some (.removeRegistration _ k) => (s.lookupd.db.producersOf k).keys = []
    | _ => True
  | _ => True

instance (s : Daemon) (a : Act) : Decidable (StillEmpty s a) := by
  unfold StillEmpty
  split
  · split <;> infer_instance
  · infer_instance

/-- What a loop is still to delete was found for its topic and channel. -/
def Call.Found : Call → Prop
  | .deleteChannels topic k ks => ∀ k' ∈ k :: ks, k'.isMatch "channel" topic "*" = true
  | .deleteTopics topic k ks => ∀ k' ∈ k :: ks, k'.isMatch "topic" topic "" = true
  | .deleteEach topic channel k ks => ∀ k' ∈ k :: ks, k'.isMatch "channel" topic channel = true
  | _ => True

/-- A peer is filed under its own ID. -/
def OwnPeers (l : XMQLookupd) : Prop := ∀ id info, l.peers.lookup id = some info → info.id = id

/-- The call adds the node to the channel and the topic, or has done so. -/
def Call.Adding (db : RegistrationDB) (id t c : String) : Call → Prop
  | .addChannel info topic channel => info.id = id ∧ topic = t ∧ channel = c
  | .addTopic info topic =>
    info.id = id ∧ topic = t ∧ id ∈ db.producersOf (channelKey t c)
  | .returned _ => id ∈ db.producersOf (channelKey t c) ∧ id ∈ db.producersOf (topicKey t)
  | _ => False

/-! ### What a step does to the database -/

/-- The call takes the node out of the registration now. -/
def Call.RemovesProducer (id : String) (k : Registration) : Call → Prop
  | .removeEach id' _ k' _ => id' = id ∧ k' = k
  | .removeProducer id' k' _ => id' = id ∧ k' = k
  | _ => False

/-- The call takes the registration away now. -/
def Call.RemovesRegistration (k : Registration) : Call → Prop
  | .removeRegistration _ k' => k' = k
  | .deleteChannels _ k' _ => k' = k
  | .deleteTopics _ k' _ => k' = k
  | .deleteEach _ _ k' _ => k' = k
  | _ => False

variable {id t c : String} {k : Registration}

theorem next_cases (h : next opts l now r call = some (call', l')) :
    l'.db.registrationMap = l.db.registrationMap ∨
      (∃ k info, l' = l.addProducer k info) ∨
      (∃ k, l'.db = l.db.addRegistration k) ∨
      (∃ id k, call.RemovesProducer id k ∧ l'.db = (l.db.removeProducer k id).2) ∨
      ∃ k, call.RemovesRegistration k ∧ l'.db = l.db.removeRegistration k := by
  cases call with
  | addClient info | addTopic info topic | addChannel info topic channel =>
    cases h
    exact .inr (.inl ⟨_, info, rfl⟩)
  | createTopic topic | createChannel topic channel =>
    cases h
    exact .inr (.inr (.inl ⟨_, rfl⟩))
  | removeEach id topic k ks =>
    cases h
    exact .inr (.inr (.inr (.inl ⟨id, k, ⟨rfl, rfl⟩, rfl⟩)))
  | removeProducer id k name =>
    refine .inr (.inr (.inr (.inl ⟨id, k, ⟨rfl, rfl⟩, ?_⟩)))
    unfold next at h
    dsimp only at h
    split at h <;> cases h <;> rfl
  | removeRegistration id k | deleteChannels topic k ks | deleteTopics topic k ks
  | deleteEach topic channel k ks =>
    cases h
    exact .inr (.inr (.inr (.inr ⟨k, rfl, rfl⟩)))
  | tombstone topic node =>
    cases h
    exact .inl (tombstoneAll_registrationMap now node _ l.db)
  | getNodes =>
    cases h
    exact .inl (nodesLoop_registrationMap opts r now _ l)
  | ping req =>
    cases h
    refine .inl ?_
    unfold XMQLookupd.ping
    repeat' split
    all_goals rfl
  | answered answer | returned err | panicked => cases h
  | storePeer info | findChannels id topic | deleteTopic topic | findTopic topic
  | lookupChannels topic | lookupProducers topic channels =>
    cases h
    exact .inl rfl
  | identify info | deleteChannel topic channel | lookup topic =>
    unfold next at h
    dsimp only at h
    split at h <;> cases h <;> exact .inl rfl
  | register req | unregister req =>
    unfold next at h
    dsimp only at h
    split at h
    · cases h
      exact .inl rfl
    · split at h <;> cases h <;> exact .inl rfl

/-! ### What a step leaves of a call -/

theorem isMatch_channelKey {topic channel : String} :
    (channelKey t c).isMatch "channel" topic channel = true ↔
      (topic = "*" ∨ t = topic) ∧ (channel = "*" ∨ c = channel) := by
  simp only [Registration.isMatch, Bool.and_eq_true, Bool.or_eq_true, decide_eq_true_eq]
  simp only [channelKey, true_and]

theorem isMatch_topicKey {topic : String} :
    (topicKey t).isMatch "topic" topic "" = true ↔ topic = "*" ∨ t = topic := by
  simp only [Registration.isMatch, Bool.and_eq_true, Bool.or_eq_true, decide_eq_true_eq]
  simp only [topicKey, true_and, or_true, and_true]

theorem isMatch_of_mem_findRegistrations {category key subKey : String}
    (h : k ∈ l.db.findRegistrations r category key subKey) :
    k.isMatch category key subKey = true :=
  ((RegistrationDB.mem_findRegistrations r).mp h).2

theorem removeLoop_found (id topic : String) (ks : List Registration) :
    (removeLoop id topic ks).Found := by
  cases ks <;> trivial

theorem deleteChannelsLoop_found {topic : String} {ks : List Registration}
    (hks : ∀ k ∈ ks, k.isMatch "channel" topic "*" = true) :
    (deleteChannelsLoop topic ks).Found := by
  cases ks with
  | nil => trivial
  | cons k ks => exact hks

theorem deleteTopicsLoop_found {topic : String} {ks : List Registration}
    (hks : ∀ k ∈ ks, k.isMatch "topic" topic "" = true) : (deleteTopicsLoop topic ks).Found := by
  cases ks with
  | nil => trivial
  | cons k ks => exact hks

theorem deleteLoop_found {topic channel : String} {ks : List Registration}
    (hks : ∀ k ∈ ks, k.isMatch "channel" topic channel = true) :
    (deleteLoop topic channel ks).Found := by
  cases ks with
  | nil => trivial
  | cons k ks => exact hks

/-- A loop is over, or it goes on with registrations that were found for it. -/
theorem next_found (h : next opts l now r call = some (call', l')) (hfound : call.Found) :
    call'.Found := by
  cases call with
  | findChannels id topic | removeEach id topic k ks =>
    cases h
    exact removeLoop_found id topic _
  | deleteTopic topic =>
    cases h
    exact deleteChannelsLoop_found fun k hk => isMatch_of_mem_findRegistrations hk
  | deleteChannels topic k ks =>
    cases h
    exact deleteChannelsLoop_found fun k' hk' => hfound k' (List.mem_cons_of_mem k hk')
  | findTopic topic =>
    cases h
    exact deleteTopicsLoop_found fun k hk => isMatch_of_mem_findRegistrations hk
  | deleteTopics topic k ks =>
    cases h
    exact deleteTopicsLoop_found fun k' hk' => hfound k' (List.mem_cons_of_mem k hk')
  | deleteEach topic channel k ks =>
    cases h
    exact deleteLoop_found fun k' hk' => hfound k' (List.mem_cons_of_mem k hk')
  | deleteChannel topic channel =>
    unfold next at h
    dsimp only at h
    split at h <;> cases h
    · trivial
    · exact deleteLoop_found fun k hk => isMatch_of_mem_findRegistrations hk
  | answered answer | returned err | panicked => cases h
  | storePeer info | addClient info | ping req | addChannel info topic channel
  | addTopic info topic | removeRegistration id k | createTopic topic
  | createChannel topic channel | tombstone topic node | getNodes | lookupChannels topic
  | lookupProducers topic channels =>
    cases h
    trivial
  | identify info | lookup topic | removeProducer id k name =>
    unfold next at h
    dsimp only at h
    split at h <;> cases h <;> trivial
  | register req | unregister req =>
    unfold next at h
    dsimp only at h
    split at h
    · cases h
      trivial
    · split at h <;> cases h <;> trivial

theorem removeLoop_spares {id' : String} (topic : String) (ks : List Registration)
    (hne : id' ≠ id) : (removeLoop id' topic ks).Spares id t c := by
  cases ks <;> exact ⟨hne, fun h => h⟩

theorem deleteChannelsLoop_spares {topic : String} (ks : List Registration)
    (hne : ¬ (topic = "*" ∨ t = topic)) : (deleteChannelsLoop topic ks).Spares id t c := by
  cases ks <;> exact ⟨fun h => h, hne⟩

theorem deleteTopicsLoop_spares {topic : String} (ks : List Registration)
    (hne : ¬ (topic = "*" ∨ t = topic)) : (deleteTopicsLoop topic ks).Spares id t c := by
  cases ks with
  | nil => exact ⟨fun h => h, fun h => h⟩
  | cons k ks => exact ⟨fun h => h, hne⟩

theorem deleteLoop_spares {topic channel : String} (ks : List Registration)
    (hne : ¬ ((topic = "*" ∨ t = topic) ∧ (channel = "*" ∨ c = channel))) :
    (deleteLoop topic channel ks).Spares id t c := by
  cases ks with
  | nil => exact ⟨fun h => h, fun h => h⟩
  | cons k ks => exact ⟨fun h => h, hne⟩

/-- A call that spares a node and its channel goes on to spare them. -/
theorem next_spares (h : next opts l now r call = some (call', l')) (hown : OwnPeers l)
    (hspares : call.Spares id t c) : call'.Spares id t c := by
  cases call with
  | unregister req =>
    unfold next at h
    dsimp only at h
    split at h
    · cases h
      exact ⟨fun h => h, fun h => h⟩
    · rename_i info hcheck
      have hid : info.id ≠ id := by
        rw [hown req.id info (checkRegister_ok hcheck).1]
        exact hspares.1
      split at h <;> cases h <;> exact ⟨hid, fun h => h⟩
  | findChannels id' topic | removeEach id' topic k ks =>
    cases h
    exact removeLoop_spares topic _ hspares.1
  | removeProducer id' k name =>
    unfold next at h
    dsimp only at h
    split at h <;> cases h
    · exact ⟨hspares.1, fun h => h⟩
    · exact ⟨fun h => h, fun h => h⟩
  | deleteTopic topic | deleteChannels topic k ks =>
    cases h
    exact deleteChannelsLoop_spares _ hspares.2
  | findTopic topic | deleteTopics topic k ks =>
    cases h
    exact deleteTopicsLoop_spares _ hspares.2
  | deleteEach topic channel k ks =>
    cases h
    exact deleteLoop_spares ks hspares.2
  | deleteChannel topic channel =>
    unfold next at h
    dsimp only at h
    split at h <;> cases h
    · exact ⟨fun h => h, fun h => h⟩
    · exact deleteLoop_spares _ hspares.2
  | answered answer | returned err | panicked => cases h
  | storePeer info | addClient info | ping req | addChannel info topic channel
  | addTopic info topic | removeRegistration id k | createTopic topic
  | createChannel topic channel | tombstone topic node | getNodes | lookupChannels topic
  | lookupProducers topic channels =>
    cases h
    exact ⟨fun h => h, fun h => h⟩
  | identify info | lookup topic =>
    unfold next at h
    dsimp only at h
    split at h <;> cases h <;> exact ⟨fun h => h, fun h => h⟩
  | register req =>
    unfold next at h
    dsimp only at h
    split at h
    · cases h
      exact ⟨fun h => h, fun h => h⟩
    · split at h <;> cases h <;> exact ⟨fun h => h, fun h => h⟩

/-! ### What a step leaves of a registration -/

theorem unregisters_of_removesProducer (h : call.RemovesProducer id k) : call.Unregisters id := by
  cases call with
  | removeEach id' topic k' ks => exact h.1
  | removeProducer id' k' name => exact h.1
  | _ => cases h

/-- A registration that a step takes away is one that was found without producers, or one that a
delete request is for. -/
theorem removesRegistration_cases (h : call.RemovesRegistration k) (hfound : call.Found)
    (hk : k = channelKey t c ∨ k = topicKey t) :
    (∃ id, call = .removeRegistration id k) ∨ call.Deletes t c := by
  cases call with
  | removeRegistration id k' =>
    cases h
    exact .inl ⟨id, rfl⟩
  | deleteChannels topic k' ks =>
    cases h
    have hmatch := hfound k List.mem_cons_self
    rcases hk with rfl | rfl
    · exact .inr (isMatch_channelKey.mp hmatch).1
    · exact absurd (RegistrationDB.category_of_isMatch hmatch).symm channel_ne_topic
  | deleteTopics topic k' ks =>
    cases h
    have hmatch := hfound k List.mem_cons_self
    rcases hk with rfl | rfl
    · exact absurd (RegistrationDB.category_of_isMatch hmatch) channel_ne_topic
    · exact .inr (isMatch_topicKey.mp hmatch)
  | deleteEach topic channel k' ks =>
    cases h
    have hmatch := hfound k List.mem_cons_self
    rcases hk with rfl | rfl
    · exact .inr (isMatch_channelKey.mp hmatch)
    · exact absurd (RegistrationDB.category_of_isMatch hmatch).symm channel_ne_topic
  | _ => cases h

/-- **One critical section.** A call that spares a node and its channel leaves the node where it is,
unless it takes away a registration that is not empty any more. -/
theorem next_keeps (h : next opts l now r call = some (call', l')) (hfound : call.Found)
    (hspares : call.Spares id t c)
    (hempty : ∀ id' k, call = .removeRegistration id' k → (l.db.producersOf k).keys = [])
    (hk : k = channelKey t c ∨ k = topicKey t) (hid : id ∈ l.db.producersOf k) :
    id ∈ l'.db.producersOf k := by
  rcases next_cases h with hmap | ⟨k', info, rfl⟩ | ⟨k', hdb⟩ | ⟨id', k', hremoves, hdb⟩ |
    ⟨k', hremoves, hdb⟩
  · simp only [RegistrationDB.producersOf, hmap] at hid ⊢
    exact hid
  · exact addProducer_mem.mpr (.inr hid)
  · rw [hdb, RegistrationDB.addRegistration_producersOf]
    exact hid
  · rw [hdb, RegistrationDB.removeProducer_mem]
    refine ⟨?_, hid⟩
    rintro ⟨-, rfl⟩
    exact hspares.1 (unregisters_of_removesProducer hremoves)
  · rw [hdb, RegistrationDB.removeRegistration_mem]
    refine ⟨?_, hid⟩
    rintro rfl
    rcases removesRegistration_cases hremoves hfound hk with ⟨id', hcall⟩ | hdeletes
    · have hkeys := hempty id' k hcall
      have hmem := AList.mem_keys.mp hid
      rw [hkeys] at hmem
      cases hmem
    · exact hspares.2 hdeletes

/-! ### The table of the peers -/

theorem nodesLoop_peers (ps : List ProducerPtr) : ∀ l : XMQLookupd,
    (nodesLoop opts r now ps l).2.peers = l.peers := by
  induction ps with
  | nil =>
      intro l
      rfl
  | cons p ps ih =>
      intro l
      simp only [nodesLoop]
      rw [ih]
      rcases refreshRaftState_cases l p with hkeep | ⟨state, hset⟩
      · rw [hkeep]
      · rw [hset]

theorem OwnPeers.insert (h : OwnPeers l) (info : PeerInfo) :
    OwnPeers { l with peers := l.peers.insert info.id info } := by
  intro id info' hinfo'
  rcases GoMap.lookup_insert_eq_some.mp hinfo' with ⟨rfl, rfl⟩ | ⟨-, hinfo'⟩
  · rfl
  · exact h id info' hinfo'

theorem OwnPeers.ping (h : OwnPeers l) (req : PeerRequest) : OwnPeers (l.ping req).2 := by
  unfold XMQLookupd.ping
  split
  · exact h
  · rename_i peer hpeer
    split
    · exact h
    · split
      · exact h
      · rename_i info hinfo
        have hid := h peer.id info hinfo
        have hput := h.insert { info with raftState := peer.raftState }
        rw [← hid]
        exact hput

theorem next_ownPeers (h : next opts l now r call = some (call', l')) (hown : OwnPeers l) :
    OwnPeers l' := by
  cases call with
  | storePeer info =>
    cases h
    exact hown.insert info
  | ping req =>
    cases h
    exact hown.ping req
  | getNodes =>
    cases h
    have hpeers : (l.getNodes opts r now).2.peers = l.peers := nodesLoop_peers _ l
    intro id info hinfo
    rw [hpeers] at hinfo
    exact hown id info hinfo
  | answered answer | returned err | panicked => cases h
  | addClient info | addChannel info topic channel | addTopic info topic | findChannels id topic
  | removeEach id topic k ks | removeRegistration id k | createTopic topic
  | createChannel topic channel | deleteTopic topic | deleteChannels topic k ks | findTopic topic
  | deleteTopics topic k ks | deleteEach topic channel k ks | tombstone topic node
  | lookupChannels topic | lookupProducers topic channels =>
    cases h
    exact hown
  | identify info | lookup topic | removeProducer id k name | deleteChannel topic channel =>
    unfold next at h
    dsimp only at h
    split at h <;> cases h <;> exact hown
  | register req | unregister req =>
    unfold next at h
    dsimp only at h
    split at h
    · cases h
      exact hown
    · split at h <;> cases h <;> exact hown

/-! ### The run -/

/-- What holds of every run. -/
structure Running (s : Daemon) : Prop where
  peers : OwnPeers s.lookupd
  found : ∀ call ∈ s.calls, call.Found

/-- What holds while a node registers and after it has registered. -/
structure Held (id t c : String) (i : ℕ) (s : Daemon) : Prop extends Running s where
  spares : ∀ call ∈ s.calls, call.Spares id t c
  adding : ∃ call, s.calls[i]? = some call ∧ call.Adding s.lookupd.db id t c

variable {s s' : Daemon} {a : Act} {i : ℕ}

/-- A step is an arrival or the next critical section of a call. -/
theorem step_cases (h : step opts s a = some s') :
    (∃ call, s' = { s with calls := s.calls ++ [call] } ∧
      ((∃ request, a = .arrive request ∧ call = start request) ∨
        ∃ req, a = .arriveLookup req ∧ call = startLookup req)) ∨
      ∃ j now r call call' l, a = .next j now r ∧ s.calls[j]? = some call ∧
        next opts s.lookupd now r call = some (call', l) ∧ s' = ⟨l, s.calls.set j call'⟩ := by
  cases a with
  | arrive request =>
    cases h
    exact .inl ⟨_, rfl, .inl ⟨request, rfl, rfl⟩⟩
  | arriveLookup req =>
    cases h
    exact .inl ⟨_, rfl, .inr ⟨req, rfl, rfl⟩⟩
  | next j now r =>
    simp only [step] at h
    split at h
    · cases h
    · rename_i call hcall
      split at h
      · cases h
      · rename_i call' l hnext
        cases h
        exact .inr ⟨j, now, r, call, call', l, rfl, hcall, hnext, rfl⟩

theorem forall_mem_set {P : Call → Prop} {calls : List Call} {j : ℕ} {call : Call}
    (h : ∀ call ∈ calls, P call) (hcall : P call) : ∀ call' ∈ calls.set j call, P call' := by
  intro call' hmem
  rcases List.mem_or_eq_of_mem_set hmem with hmem | rfl
  · exact h call' hmem
  · exact hcall

theorem forall_mem_snoc {P : Call → Prop} {calls : List Call} {call : Call}
    (h : ∀ call ∈ calls, P call) (hcall : P call) : ∀ call' ∈ calls ++ [call], P call' := by
  intro call' hmem
  rcases List.mem_append.mp hmem with hmem | hmem
  · exact h call' hmem
  · rw [List.mem_singleton.mp hmem]
    exact hcall

/-- An arrival holds no list of registrations yet. -/
theorem found_orReturn {x : Except HTTPErr Call} (h : ∀ call, x = .ok call → call.Found) :
    (orReturn x).Found := by
  cases x with
  | error err => trivial
  | ok call => exact h call rfl

theorem start_found (request : Request) : (start request).Found := by
  cases request with
  | identify remote req =>
    simp only [start]
    split
    · trivial
    · split <;> trivial
  | register req | unregister req | ping req | getNodes => trivial
  | createTopic req =>
    refine found_orReturn fun call hcall => ?_
    obtain ⟨params, -, hcall⟩ := ok_of_bind hcall
    obtain ⟨topicName, -, hcall⟩ := ok_of_bind hcall
    simp only at hcall
    split at hcall <;> cases hcall
    trivial
  | deleteTopic req =>
    refine found_orReturn fun call hcall => ?_
    obtain ⟨params, -, hcall⟩ := ok_of_bind hcall
    obtain ⟨topicName, -, hcall⟩ := ok_of_bind hcall
    cases hcall
    trivial
  | tombstoneTopicProducer req =>
    refine found_orReturn fun call hcall => ?_
    obtain ⟨params, -, hcall⟩ := ok_of_bind hcall
    obtain ⟨topicName, -, hcall⟩ := ok_of_bind hcall
    obtain ⟨node, -, hcall⟩ := ok_of_bind hcall
    cases hcall
    trivial
  | createChannel req | deleteChannel req =>
    refine found_orReturn fun call hcall => ?_
    obtain ⟨params, -, hcall⟩ := ok_of_bind hcall
    obtain ⟨names, -, hcall⟩ := ok_of_bind hcall
    cases hcall
    trivial

/-- A `doLookup` that arrives is refused or about to look for its topic. -/
theorem startLookup_cases (req : Option ReqParams) :
    (∃ err, startLookup req = .returned err) ∨ ∃ topic, startLookup req = .lookup topic := by
  unfold startLookup
  cases hargs : (do
      let params ← newReqParams req
      let topicName ← getParam params "topic" "MISSING_ARG_TOPIC"
      return Call.lookup topicName : Except HTTPErr Call) with
  | error err => exact .inl ⟨err.text, rfl⟩
  | ok call =>
    obtain ⟨params, -, hargs⟩ := ok_of_bind hargs
    obtain ⟨topicName, -, hargs⟩ := ok_of_bind hargs
    cases hargs
    exact .inr ⟨topicName, rfl⟩

theorem startLookup_found (req : Option ReqParams) : (startLookup req).Found := by
  rcases startLookup_cases req with ⟨err, h⟩ | ⟨topic, h⟩ <;> rw [h] <;> trivial

theorem startLookup_spares (req : Option ReqParams) : (startLookup req).Spares id t c := by
  rcases startLookup_cases req with ⟨err, h⟩ | ⟨topic, h⟩ <;> rw [h] <;>
    exact ⟨fun h => h, fun h => h⟩

/-- Every step keeps what holds of every run. -/
theorem Running.step (hs : Running s) (h : step opts s a = some s') : Running s' := by
  rcases step_cases h with ⟨call, rfl, hcall⟩ | ⟨j, now, r, call, call', l, -, hj, hnext, rfl⟩
  · have hfound : call.Found := by
      rcases hcall with ⟨request, -, rfl⟩ | ⟨req, -, rfl⟩
      · exact start_found request
      · exact startLookup_found req
    exact ⟨hs.peers, forall_mem_snoc hs.found hfound⟩
  · have hfound := next_found hnext (hs.found call (List.mem_of_getElem? hj))
    exact ⟨next_ownPeers hnext hs.peers, forall_mem_set hs.found hfound⟩

theorem running_new : Running .new where
  peers id info hinfo := by simp [Daemon.new, XMQLookupd.new] at hinfo
  found call hcall := by cases hcall

/-- The call that adds the node goes on to add it. -/
theorem next_adding (h : next opts l now r call = some (call', l'))
    (hadding : call.Adding l.db id t c) : call'.Adding l'.db id t c := by
  cases call with
  | addChannel info topic channel =>
    cases h
    obtain ⟨rfl, rfl, rfl⟩ := hadding
    exact ⟨rfl, rfl, addProducer_mem.mpr (.inl ⟨rfl, rfl⟩)⟩
  | addTopic info topic =>
    cases h
    obtain ⟨rfl, rfl, hchannel⟩ := hadding
    exact ⟨addProducer_mem.mpr (.inr hchannel), addProducer_mem.mpr (.inl ⟨rfl, rfl⟩)⟩
  | returned err => cases h
  | _ => exact hadding.elim

/-- What the call has added stays where the database keeps it. -/
theorem Call.Adding.mono {db db' : RegistrationDB} (h : call.Adding db id t c)
    (hkeep : ∀ k, k = channelKey t c ∨ k = topicKey t → id ∈ db.producersOf k →
      id ∈ db'.producersOf k) : call.Adding db' id t c := by
  cases call with
  | addChannel info topic channel => exact h
  | addTopic info topic => exact ⟨h.1, h.2.1, hkeep _ (.inl rfl) h.2.2⟩
  | returned err => exact ⟨hkeep _ (.inl rfl) h.1, hkeep _ (.inr rfl) h.2⟩
  | _ => exact h.elim

/-- **The step**: a node is held while calls that spare it come and go, and while no registration is
taken away that has producers. -/
theorem Held.step (hs : Held id t c i s) (h : step opts s a = some s')
    (harrive : ∀ request, a = .arrive request → (start request).Spares id t c)
    (hempty : StillEmpty s a) : Held id t c i s' := by
  have hrunning := hs.toRunning.step h
  obtain ⟨mine, hmine, hadding⟩ := hs.adding
  rcases step_cases h with ⟨call, rfl, hcall⟩ | ⟨j, now, r, call, call', l, rfl, hj, hnext, rfl⟩
  · have hspares : call.Spares id t c := by
      rcases hcall with ⟨request, ha, rfl⟩ | ⟨req, -, rfl⟩
      · exact harrive request ha
      · exact startLookup_spares req
    have hbefore : i < s.calls.length := (List.getElem?_eq_some_iff.mp hmine).1
    refine ⟨hrunning, forall_mem_snoc hs.spares hspares, mine, ?_, hadding⟩
    rw [List.getElem?_append_left hbefore]
    exact hmine
  · have hmem := List.mem_of_getElem? hj
    have hspares := next_spares hnext hs.peers (hs.spares call hmem)
    refine ⟨hrunning, forall_mem_set hs.spares hspares, ?_⟩
    by_cases hij : j = i
    · subst hij
      rw [hmine] at hj
      cases hj
      refine ⟨call', ?_, next_adding hnext hadding⟩
      rw [List.getElem?_set_self (List.getElem?_eq_some_iff.mp hmine).1]
    · refine ⟨mine, ?_, ?_⟩
      · rw [List.getElem?_set_ne hij]
        exact hmine
      · refine hadding.mono fun k hk hid => ?_
        refine next_keeps hnext (hs.found call hmem) (hs.spares call hmem) ?_ hk hid
        rintro id' k' rfl
        simp only [StillEmpty, hj] at hempty
        exact hempty

/-- **A node stays registered** in every run in which each registration that an `Unregister` takes
away is still without producers. -/
theorem staysRegistered (opts : Options) {before acts : List Act} {s : Daemon}
    (hbefore : run (step opts) .new before = some s)
    (hempty : Along (step opts) StillEmpty s acts) : StaysRegistered opts s acts := by
  intro i info t c err u hcall hspares harrive hrun hdone
  have hrunning : Running s :=
    invariant_run (fun _ _ _ hs h => hs.step h) before .new s running_new hbefore
  have hheld : Held info.id t c i s :=
    ⟨hrunning, hspares, .addChannel info t c, hcall, rfl, rfl, rfl⟩
  have hend : Held info.id t c i u := by
    clear hbefore hrunning hcall hspares
    induction acts generalizing s with
    | nil =>
        cases hrun
        exact hheld
    | cons a acts ih =>
        obtain ⟨v, hv, hrun⟩ := run_cons_elim hrun
        have hnext : Held info.id t c i v :=
          hheld.step hv (fun request ha => harrive request (ha ▸ List.mem_cons_self)) hempty.head
        exact ih (hempty.tail hv)
          (fun request ha => harrive request (List.mem_cons_of_mem a ha)) hrun hnext
  obtain ⟨call, hlast, hadding⟩ := hend.adding
  rw [hdone] at hlast
  cases hlast
  exact hadding

/-! ### Two nodes and an ephemeral channel -/

def otherNode : PeerInfo := { pingingNode with id := "n2", broadcastAddress := "10.0.0.2" }

/-- The next critical section of a call. -/
def go (i : ℕ) : Act := .next i 0 .id

/-- Both nodes identify, the first one registers a channel and is about to unregister it, and the
second one is about to register it. -/
def handingOver : List Act :=
  [.arrive (.identify "10.0.0.1:6000" ⟨some pingingNode⟩), go 0, go 0, go 0,
    .arrive (.identify "10.0.0.2:6000" ⟨some otherNode⟩), go 1, go 1, go 1,
    .arrive (.register ⟨"n1", "orders", "tail#ephemeral"⟩), go 2, go 2, go 2,
    .arrive (.unregister ⟨"n1", "orders", "tail#ephemeral"⟩), go 3,
    .arrive (.register ⟨"n2", "orders", "tail#ephemeral"⟩), go 4]

/-- The second node where it is about to register, and where the calls of the acts take it. -/
def Handover (acts : List Act) (s u : Daemon) : Prop :=
  s.calls[4]? = some (.addChannel { otherNode with remoteAddress := "10.0.0.2:6000" } "orders"
      "tail#ephemeral") ∧
    (∀ call ∈ s.calls, call.Spares "n2" "orders" "tail#ephemeral") ∧
    run (step keptOptions) s acts = some u ∧ u.calls[4]? = some (.returned "")

theorem exists_handover (acts : List Act) (P : Daemon → Daemon → Prop)
    [∀ s u, Decidable (P s u)]
    (h : ((run (step keptOptions) .new handingOver).any fun s =>
      decide (s.calls[4]? = some (.addChannel
          { otherNode with remoteAddress := "10.0.0.2:6000" } "orders" "tail#ephemeral") ∧
        ∀ call ∈ s.calls, call.Spares "n2" "orders" "tail#ephemeral") &&
      (run (step keptOptions) s acts).any fun u =>
        decide (u.calls[4]? = some (.returned "") ∧ P s u)) = true) :
    ∃ s u, run (step keptOptions) .new handingOver = some s ∧ Handover acts s u ∧ P s u := by
  cases hs : run (step keptOptions) .new handingOver with
  | none =>
      rw [hs] at h
      cases h
  | some s =>
      rw [hs] at h
      simp only [Option.any_some, Bool.and_eq_true, decide_eq_true_eq] at h
      cases hu : run (step keptOptions) s acts with
      | none =>
          rw [hu] at h
          cases h.2
      | some u =>
          rw [hu] at h
          simp only [Option.any_some, decide_eq_true_eq] at h
          exact ⟨s, u, rfl, ⟨h.1.1, h.1.2, hu, h.2.1⟩, h.2.2⟩

/-- The first node counts, the second one registers, and the first one takes the registration
away. -/
theorem registered_and_lost : ¬ ∀ before acts s,
    run (step keptOptions) .new before = some s → StaysRegistered keptOptions s acts := by
  intro h
  obtain ⟨s, u, hs, ⟨hcall, hspares, hrun, hdone⟩, hlost⟩ :=
    exists_handover [go 3, go 4, go 4, go 3]
      (fun _ u => "n2" ∉ u.lookupd.db.producersOf (channelKey "orders" "tail#ephemeral"))
      (by decide +kernel)
  have hkept := h _ _ s hs 4 _ "orders" "tail#ephemeral" "" u hcall hspares
    (fun request hrequest => by simp [go] at hrequest) hrun hdone
  exact hlost hkept.1

/-- When the first node is done with both steps before, the second one stays. -/
theorem staysRegistered_handover : ∃ s u, Handover [go 3, go 3, go 4, go 4] s u ∧
    "n2" ∈ u.lookupd.db.producersOf (channelKey "orders" "tail#ephemeral") ∧
    "n2" ∈ u.lookupd.db.producersOf (topicKey "orders") := by
  obtain ⟨s, u, hs, hover, hempty⟩ :=
    exists_handover [go 3, go 3, go 4, go 4]
      (fun s _ => Along (step keptOptions) StillEmpty s [go 3, go 3, go 4, go 4])
      (by decide +kernel)
  exact ⟨s, u, hover, staysRegistered keptOptions hs hempty 4 _ "orders" "tail#ephemeral" "" u
    hover.1 hover.2.1 (fun request hrequest => by simp [go] at hrequest) hover.2.2.1 hover.2.2.2⟩

end Calls

end Xmq.Lookupd
