import Xmq.ClusterQueries

/-!
# Changing a cluster

The commands of `ClusterInfo` that change topics and channels: they ask where a topic is, tell every
lookupd, and tell every node that was found, one after another. An error of one request does not keep the
others from being made; only a query of which nothing is left ends a command.

* A `Plan` says what a command tells whom. Every run of a command carries out its plan.
* `CreateTopicChannel` and `TombstoneNodeForTopic` have told the lookupds before they ask, so a failed query
  leaves them half done, and the errors they had until then are dropped.
-/

namespace Xmq.ClusterInfo

open Gather Runs
open Lookupd (ClusterProducer Semver)

/-! ### Telling -/

section Source

variable (semver : Semver)

def postV1 (endpoint : String) : Prog (Reply semver) (Option String) := .ask (.post endpoint) .done

/-- The loop of `xmqlookupdPOST` and of `producersPOST`. -/
def postLoop : List String → List String → Prog (Reply semver) (List String)
  | [], errs => pure errs
  | endpoint :: endpoints, errs => do
    let err ← postV1 semver endpoint
    postLoop endpoints (errs ++ err.toList)

/-- The error of a list of errors, nil if there is none. -/
def errOfList (errs : List String) : Option QueryErr :=
  if errs.length > 0 then some (.errList errs) else none

def postEndpoint (uri qs addr : String) : String := s!"http://{addr}/{uri}?{qs}"

def xmqlookupdPOST (addrs : List String) (uri qs : String) :
    Prog (Reply semver) (Option QueryErr) := do
  let errs ← postLoop semver (addrs.map (postEndpoint uri qs)) []
  pure (errOfList errs)

def producersPOST (pl : List (ClusterProducer semver.Version)) (uri qs : String) :
    Prog (Reply semver) (Option QueryErr) := do
  let errs ← postLoop semver (pl.map fun p => postEndpoint uri qs (httpAddress p)) []
  pure (errOfList errs)

/-- `err.(PartialErr)`: its errors are kept and the command goes on, any other error is returned. -/
def keepErrs {semver : Semver} (err : Option QueryErr) (errs : List String)
    (next : List String → Prog (Reply semver) (Option QueryErr)) : Prog (Reply semver) (Option QueryErr) :=
  match err with
  | none => next errs
  | some (.errList es) => next (errs ++ es)
  | some (.errorf text) => pure (some (.errorf text))

/-- A search for producers; its error is kept likewise. -/
def findAnd {semver : Semver}
    (find : Prog (Reply semver) (List (ClusterProducer semver.Version) × Option QueryErr))
    (errs : List String)
    (next : List (ClusterProducer semver.Version) → List String → Prog (Reply semver) (Option QueryErr)) :
    Prog (Reply semver) (Option QueryErr) := do
  let (producers, err) ← find
  keepErrs err errs (next producers)

/-! ### The commands -/

def topicQuery (topicName : String) : String := s!"topic={queryEscape topicName}"

def channelQuery (topicName channelName : String) : String :=
  s!"topic={queryEscape topicName}&channel={queryEscape channelName}"

def tombstoneNodeForTopic (topic node : String) (lookupdHTTPAddrs : List String) :
    Prog (Reply semver) (Option QueryErr) := do
  let qs := s!"topic={queryEscape topic}&node={queryEscape node}"
  let err ← xmqlookupdPOST semver lookupdHTTPAddrs "topic/tombstone" qs
  keepErrs err [] fun errs =>
    findAnd (getXMQDProducers semver [node]) errs fun producers errs => do
      let err ← producersPOST semver producers "topic/delete" (topicQuery topic)
      keepErrs err errs fun errs => pure (errOfList errs)

def createTopicChannel (topicName channelName : String) (lookupdHTTPAddrs : List String) :
    Prog (Reply semver) (Option QueryErr) := do
  let err ← xmqlookupdPOST semver lookupdHTTPAddrs "topic/create" (topicQuery topicName)
  keepErrs err [] fun errs =>
    if channelName.length > 0 then do
      let qs := channelQuery topicName channelName
      let err ← xmqlookupdPOST semver lookupdHTTPAddrs "channel/create" qs
      keepErrs err errs fun errs =>
        findAnd (getLookupdTopicProducers semver topicName lookupdHTTPAddrs) errs fun producers errs => do
          let err ← producersPOST semver producers "channel/create" qs
          keepErrs err errs fun errs => pure (errOfList errs)
    else pure (errOfList errs)

def deleteTopic (topicName : String) (lookupdHTTPAddrs xmqdHTTPAddrs : List String) :
    Prog (Reply semver) (Option QueryErr) :=
  findAnd (getTopicProducers semver topicName lookupdHTTPAddrs xmqdHTTPAddrs) [] fun producers errs => do
    let qs := topicQuery topicName
    let err ← xmqlookupdPOST semver lookupdHTTPAddrs "topic/delete" qs
    keepErrs err errs fun errs => do
      let err ← producersPOST semver producers "topic/delete" qs
      keepErrs err errs fun errs => pure (errOfList errs)

def deleteChannel (topicName channelName : String) (lookupdHTTPAddrs xmqdHTTPAddrs : List String) :
    Prog (Reply semver) (Option QueryErr) :=
  findAnd (getTopicProducers semver topicName lookupdHTTPAddrs xmqdHTTPAddrs) [] fun producers errs => do
    let qs := channelQuery topicName channelName
    let err ← xmqlookupdPOST semver lookupdHTTPAddrs "channel/delete" qs
    keepErrs err errs fun errs => do
      let err ← producersPOST semver producers "channel/delete" qs
      keepErrs err errs fun errs => pure (errOfList errs)

def actionHelper (topicName : String) (lookupdHTTPAddrs xmqdHTTPAddrs : List String) (uri qs : String) :
    Prog (Reply semver) (Option QueryErr) :=
  findAnd (getTopicProducers semver topicName lookupdHTTPAddrs xmqdHTTPAddrs) [] fun producers errs => do
    let err ← producersPOST semver producers uri qs
    keepErrs err errs fun errs => pure (errOfList errs)

def pauseTopic (topicName : String) (lookupdHTTPAddrs xmqdHTTPAddrs : List String) :
    Prog (Reply semver) (Option QueryErr) :=
  actionHelper semver topicName lookupdHTTPAddrs xmqdHTTPAddrs "topic/pause" (topicQuery topicName)

def unPauseTopic (topicName : String) (lookupdHTTPAddrs xmqdHTTPAddrs : List String) :
    Prog (Reply semver) (Option QueryErr) :=
  actionHelper semver topicName lookupdHTTPAddrs xmqdHTTPAddrs "topic/unpause" (topicQuery topicName)

def pauseChannel (topicName channelName : String) (lookupdHTTPAddrs xmqdHTTPAddrs : List String) :
    Prog (Reply semver) (Option QueryErr) :=
  actionHelper semver topicName lookupdHTTPAddrs xmqdHTTPAddrs "channel/pause"
    (channelQuery topicName channelName)

def unPauseChannel (topicName channelName : String) (lookupdHTTPAddrs xmqdHTTPAddrs : List String) :
    Prog (Reply semver) (Option QueryErr) :=
  actionHelper semver topicName lookupdHTTPAddrs xmqdHTTPAddrs "channel/unpause"
    (channelQuery topicName channelName)

def emptyTopic (topicName : String) (lookupdHTTPAddrs xmqdHTTPAddrs : List String) :
    Prog (Reply semver) (Option QueryErr) :=
  actionHelper semver topicName lookupdHTTPAddrs xmqdHTTPAddrs "topic/empty" (topicQuery topicName)

def emptyChannel (topicName channelName : String) (lookupdHTTPAddrs xmqdHTTPAddrs : List String) :
    Prog (Reply semver) (Option QueryErr) :=
  actionHelper semver topicName lookupdHTTPAddrs xmqdHTTPAddrs "channel/empty"
    (channelQuery topicName channelName)

end Source

/-- The commands, with what they are given beside the addresses. -/
inductive Command where
  | createTopicChannel (topicName channelName : String)
  | deleteTopic (topicName : String)
  | deleteChannel (topicName channelName : String)
  | tombstoneNodeForTopic (topic node : String)
  | pauseTopic (topicName : String)
  | unPauseTopic (topicName : String)
  | pauseChannel (topicName channelName : String)
  | unPauseChannel (topicName channelName : String)
  | emptyTopic (topicName : String)
  | emptyChannel (topicName channelName : String)

def Command.run (semver : Semver) (lookupds xmqds : List String) :
    Command → Prog (Reply semver) (Option QueryErr)
  | createTopicChannel t c => ClusterInfo.createTopicChannel semver t c lookupds
  | deleteTopic t => ClusterInfo.deleteTopic semver t lookupds xmqds
  | deleteChannel t c => ClusterInfo.deleteChannel semver t c lookupds xmqds
  | tombstoneNodeForTopic t node => ClusterInfo.tombstoneNodeForTopic semver t node lookupds
  | pauseTopic t => ClusterInfo.pauseTopic semver t lookupds xmqds
  | unPauseTopic t => ClusterInfo.unPauseTopic semver t lookupds xmqds
  | pauseChannel t c => ClusterInfo.pauseChannel semver t c lookupds xmqds
  | unPauseChannel t c => ClusterInfo.unPauseChannel semver t c lookupds xmqds
  | emptyTopic t => ClusterInfo.emptyTopic semver t lookupds xmqds
  | emptyChannel t c => ClusterInfo.emptyChannel semver t c lookupds xmqds

/-! ### Plans -/

/-- Whom a command asks for nodes, for those with a topic or for one. -/
inductive Search where
  | lookupds (topic : String) (addrs : List String)
  | nodes (topic : String) (addrs : List String)
  | node (addr : String)

/-- A request but for its address. -/
structure Notice where
  uri : String
  qs : String

/-- A search, and what the lookupds and the nodes that it finds are told then. -/
structure Hunt where
  search : Search
  lookupds : List Notice
  nodes : Notice

/-- `before` is what the lookupds are told before the search. -/
structure Plan where
  before : List Notice
  hunt : Option Hunt

/-- The nodes are asked when there are no lookupds. -/
def topicSearch (topic : String) (lookupds xmqds : List String) : Search :=
  if lookupds.length ≠ 0 then .lookupds topic lookupds else .nodes topic xmqds

/-- The plan of an action. -/
def actionPlan (topic : String) (lookupds xmqds : List String) (uri qs : String) : Plan :=
  ⟨[], some ⟨topicSearch topic lookupds xmqds, [], ⟨uri, qs⟩⟩⟩

/-- What a command is for. -/
def Command.plan (lookupds xmqds : List String) : Command → Plan
  | createTopicChannel t c =>
    if c.length > 0 then
      ⟨[⟨"topic/create", topicQuery t⟩, ⟨"channel/create", channelQuery t c⟩],
        some ⟨.lookupds t lookupds, [], ⟨"channel/create", channelQuery t c⟩⟩⟩
    else ⟨[⟨"topic/create", topicQuery t⟩], none⟩
  | deleteTopic t =>
    ⟨[], some ⟨topicSearch t lookupds xmqds, [⟨"topic/delete", topicQuery t⟩],
      ⟨"topic/delete", topicQuery t⟩⟩⟩
  | deleteChannel t c =>
    ⟨[], some ⟨topicSearch t lookupds xmqds, [⟨"channel/delete", channelQuery t c⟩],
      ⟨"channel/delete", channelQuery t c⟩⟩⟩
  | tombstoneNodeForTopic t node =>
    ⟨[⟨"topic/tombstone", s!"topic={queryEscape t}&node={queryEscape node}"⟩],
      some ⟨.node node, [], ⟨"topic/delete", topicQuery t⟩⟩⟩
  | pauseTopic t => actionPlan t lookupds xmqds "topic/pause" (topicQuery t)
  | unPauseTopic t => actionPlan t lookupds xmqds "topic/unpause" (topicQuery t)
  | pauseChannel t c => actionPlan t lookupds xmqds "channel/pause" (channelQuery t c)
  | unPauseChannel t c => actionPlan t lookupds xmqds "channel/unpause" (channelQuery t c)
  | emptyTopic t => actionPlan t lookupds xmqds "topic/empty" (topicQuery t)
  | emptyChannel t c => actionPlan t lookupds xmqds "channel/empty" (channelQuery t c)

/-! ### What a plan comes to -/

section Spec

variable {semver : Semver}

/-- Each address is told each of them, in order and once. -/
def Tells (notices : List Notice) (addrs : List String) (es : List (Event (Reply semver))) : Prop :=
  es.map Sigma.fst =
    notices.flatMap fun n => addrs.map fun addr => .post (postEndpoint n.uri n.qs addr)

namespace Search

def addrs : Search → List String
  | lookupds _ addrs => addrs
  | nodes _ addrs => addrs
  | node addr => [addr]

def daemon : Search → String
  | lookupds _ _ => "xmqlookupd"
  | nodes _ _ => "xmqd"
  | node _ => "xmqd"

/-- A request that was answered with the address of a node: a lookupd names it, or the node itself. -/
def NamedBy (e : Event (Reply semver)) (addr : String) : Search → Prop
  | lookupds _ _ =>
    ∃ endpoint ps, e = ⟨.getProducers endpoint, .ok ps⟩ ∧ ∃ p ∈ ps, httpAddress p = addr
  | nodes _ addrs =>
    ∃ a ∈ addrs, ∃ info, e = ⟨.getInfo (infoEndpoint a), .ok info⟩ ∧
      httpAddress (producerOf semver (orAddr a info) []) = addr
  | node a =>
    ∃ info, e = ⟨.getInfo (infoEndpoint a), .ok info⟩ ∧
      httpAddress (producerOf semver info []) = addr

end Search

/-- What a search comes to. The lookupds name a node once, whoever of them names it. -/
structure Found (search : Search) (asked : List (Event (Reply semver)))
    (result : List (ClusterProducer semver.Version) × Option QueryErr) : Prop where
  gets : ∀ e ∈ asked, ∀ endpoint, e.1 ≠ .post endpoint
  err : ∃ errs, errs.Perm (failures asked) ∧
    result.2 = report search.daemon search.addrs.length errs
  failed : (failures asked).length = search.addrs.length → result.1 = []
  named : (failures asked).length ≠ search.addrs.length →
    ∀ addr, addr ∈ result.1.map httpAddress ↔ ∃ e ∈ asked, search.NamedBy e addr
  once : ∀ topic addrs, search = .lookupds topic addrs → (result.1.map httpAddress).Nodup

/-- **What a plan comes to**, of all requests in their order. -/
inductive Carried (lookupds : List String) :
    Plan → List (Event (Reply semver)) → Option QueryErr → Prop
  | told {first before} (hbefore : Tells first lookupds before) :
      Carried lookupds ⟨first, none⟩ before (errOfList (failures before))
  | stopped {first search later last before asked text} (hbefore : Tells first lookupds before)
      (hasked : Found search asked ([], some (.errorf text))) :
      Carried lookupds ⟨first, some ⟨search, later, last⟩⟩ (before ++ asked) (some (.errorf text))
  | through {first search later last before asked after nodes ps errs}
      (hbefore : Tells first lookupds before) (hasked : Found search asked (ps, errOfList errs))
      (herrs : errs.Perm (failures asked)) (hafter : Tells later lookupds after)
      (hnodes : Tells [last] (ps.map httpAddress) nodes) :
      Carried lookupds ⟨first, some ⟨search, later, last⟩⟩ (before ++ asked ++ after ++ nodes)
        (errOfList (failures before ++ errs ++ failures after ++ failures nodes))

/-! ### The parts of a command -/

theorem postLoop_ends (endpoints errs : List String) :
    (postLoop semver endpoints errs).Ends fun es errs' =>
      es.map Sigma.fst = endpoints.map Op.post ∧ errs' = errs ++ failures es := by
  induction endpoints generalizing errs with
  | nil => exact ends_pure ⟨rfl, (List.append_nil _).symm⟩
  | cons endpoint endpoints ih =>
      intro r
      refine (ih (errs ++ r.toList)).mono fun es errs' h => ?_
      obtain ⟨hes, rfl⟩ := h
      refine ⟨by rw [List.map_cons, hes, List.map_cons], ?_⟩
      rw [List.append_assoc]
      cases r <;> rfl

theorem tells_of_posts {es : List (Event (Reply semver))} {uri qs : String} {addrs : List String}
    (h : es.map Sigma.fst = (addrs.map (postEndpoint uri qs)).map Op.post) :
    Tells [⟨uri, qs⟩] addrs es := by
  rw [Tells, h, List.flatMap_singleton, List.map_map]
  rfl

theorem xmqlookupdPOST_ends (addrs : List String) (uri qs : String) :
    (xmqlookupdPOST semver addrs uri qs).Ends fun es err =>
      Tells [⟨uri, qs⟩] addrs es ∧ err = errOfList (failures es) := by
  refine Prog.Ends.bind ((postLoop_ends _ []).mono fun es errs h => ?_)
  refine ends_pure ⟨?_, ?_⟩
  · rw [List.append_nil]
    exact tells_of_posts h.1
  · rw [List.append_nil, h.2, List.nil_append]

theorem producersPOST_ends (pl : List (ClusterProducer semver.Version)) (uri qs : String) :
    (producersPOST semver pl uri qs).Ends fun es err =>
      Tells [⟨uri, qs⟩] (pl.map httpAddress) es ∧ err = errOfList (failures es) := by
  refine Prog.Ends.bind ((postLoop_ends _ []).mono fun es errs h => ?_)
  refine ends_pure ⟨?_, ?_⟩
  · rw [List.append_nil]
    refine tells_of_posts (h.1.trans ?_)
    simp only [List.map_map]
    rfl
  · rw [List.append_nil, h.2, List.nil_append]

@[simp] theorem keepErrs_errOfList (es errs : List String)
    (next : List String → Prog (Reply semver) (Option QueryErr)) :
    keepErrs (errOfList es) errs next = next (errs ++ es) := by
  cases es with
  | nil => rw [List.append_nil]; rfl
  | cons e es => rfl

/-- What a query returns with an error that ends a command, and with one that does not. -/
theorem Found.cases {search : Search} {asked : List (Event (Reply semver))}
    {result : List (ClusterProducer semver.Version) × Option QueryErr} (h : Found search asked result) :
    (∃ text, result = ([], some (.errorf text))) ∨
      ∃ errs, errs.Perm (failures asked) ∧ result = (result.1, errOfList errs) := by
  obtain ⟨errs, herrs, herr⟩ := h.err
  by_cases hlen : errs.length = search.addrs.length
  · rw [report, if_pos hlen] at herr
    exact .inl ⟨_, Prod.ext (h.failed (herrs.length_eq ▸ hlen)) herr⟩
  · refine .inr ⟨errs, herrs, ?_⟩
    rw [report, if_neg hlen] at herr
    exact Prod.ext rfl herr

/-! ### The searches -/

/-- A query finds what its goroutines were answered. -/
theorem Queried.found (search : Search) {β : Type}
    {goroutine : String → Worker (Reply semver) (Except String β)}
    {append : List (ClusterProducer semver.Version) → β → List (ClusterProducer semver.Version)}
    {asked : List (Event (Reply semver))}
    {result : List (ClusterProducer semver.Version) × Option QueryErr}
    (h : Queried search.daemon search.addrs goroutine append id asked result)
    (hgets : ∀ addr es c, (goroutine addr).Path es c → ∀ e ∈ es, ∀ endpoint, e.1 ≠ .post endpoint)
    (hnamed : ∀ vs, Visits search.addrs goroutine asked vs →
      (failures asked).length ≠ search.addrs.length → ∀ addr,
      addr ∈ ((oks vs).foldl append []).map httpAddress ↔ ∃ e ∈ asked, search.NamedBy e addr)
    (honce : ∀ topic addrs, search = .lookupds topic addrs →
      ∀ bs : List β, ((bs.foldl append []).map httpAddress).Nodup) : Found search asked result := by
  obtain ⟨vs, errs, hvisits, herrs, rfl⟩ := h.visits
  have hget : ∀ e ∈ asked, ∀ endpoint, e.1 ≠ .post endpoint := by
    intro e he
    obtain ⟨v, hv, hve⟩ := List.mem_flatMap.mp (hvisits.log.mem_iff.mp he)
    exact hgets v.1 _ _ (hvisits.path v hv) e hve
  obtain ⟨hlen, heq⟩ | ⟨hlen, heq⟩ :=
    conclude_cases search.daemon search.addrs.length id ⟨(oks vs).foldl append [], errs⟩
  · rw [heq]
    exact ⟨hget, ⟨errs, herrs, rfl⟩, fun _ => rfl, fun hne => absurd (herrs.length_eq ▸ hlen) hne,
      fun _ _ _ => List.nodup_nil⟩
  · rw [heq]
    exact ⟨hget, ⟨errs, herrs, rfl⟩, fun h => absurd (herrs.length_eq.trans h) hlen,
      hnamed vs hvisits, fun topic addrs hs => honce topic addrs hs _⟩

theorem map_httpAddress_addProducerOnce (ps : List (ClusterProducer semver.Version))
    (p : ClusterProducer semver.Version) :
    (addProducerOnce ps p).map httpAddress = add (ps.map httpAddress) (httpAddress p) := by
  have hany : ps.any (fun pp => httpAddress p = httpAddress pp) = true ↔
      httpAddress p ∈ ps.map httpAddress := by
    simp only [List.any_eq_true, decide_eq_true_eq, List.mem_map]
    exact exists_congr fun _ => and_congr_right fun _ => eq_comm
  unfold addProducerOnce add
  by_cases hmem : httpAddress p ∈ ps.map httpAddress
  · rw [if_pos (hany.mpr hmem), if_pos hmem]
  · rw [if_neg (mt hany.mp hmem), if_neg hmem, List.map_append, List.map_singleton]

theorem map_httpAddress_foldl (qs ps : List (ClusterProducer semver.Version)) :
    (qs.foldl addProducerOnce ps).map httpAddress =
      (qs.map httpAddress).foldl add (ps.map httpAddress) := by
  induction qs generalizing ps with
  | nil => rfl
  | cons q qs ih =>
      rw [List.foldl_cons, ih, map_httpAddress_addProducerOnce]
      rfl

/-- The addresses of the producers are merged like names. -/
theorem map_httpAddress_foldl_foldl (pss : List (List (ClusterProducer semver.Version)))
    (ps : List (ClusterProducer semver.Version)) :
    (pss.foldl (List.foldl addProducerOnce) ps).map httpAddress =
      (pss.map (List.map httpAddress)).foldl (List.foldl add) (ps.map httpAddress) := by
  induction pss generalizing ps with
  | nil => rfl
  | cons qs pss ih =>
      rw [List.foldl_cons, ih, map_httpAddress_foldl]
      rfl

/-- The answers that have a property, as requests and as what the goroutines hand over. -/
theorem Visits.exists_iff {addrs : List String} {β : Type}
    {goroutine : String → Worker (Reply semver) (Except String β)} {asked : List (Event (Reply semver))}
    {vs : List (String × Outcome (Reply semver) (Except String β))}
    (h : Visits addrs goroutine asked vs) {P : Event (Reply semver) → Prop} {Q : β → Prop}
    (hpath : ∀ addr ∈ addrs, ∀ es c, (goroutine addr).Path es c →
      ((∃ e ∈ es, P e) ↔ ∃ b, c = .ok b ∧ Q b)) :
    (∃ e ∈ asked, P e) ↔ ∃ b ∈ oks vs, Q b := by
  have hone : ∀ v ∈ vs, ((∃ e ∈ v.2.events, P e) ↔ ∃ b, v.2.answer = .ok b ∧ Q b) := fun v hv =>
    hpath v.1 (h.addrs.mem_iff.mp (List.mem_map_of_mem hv)) _ _ (h.path v hv)
  constructor
  · rintro ⟨e, he, hP⟩
    obtain ⟨v, hv, hve⟩ := List.mem_flatMap.mp (h.log.mem_iff.mp he)
    obtain ⟨b, hans, hQ⟩ := (hone v hv).mp ⟨e, hve, hP⟩
    exact ⟨b, List.mem_filterMap.mpr ⟨v, hv, by rw [hans]; rfl⟩, hQ⟩
  · rintro ⟨b, hb, hQ⟩
    obtain ⟨v, hv, hans⟩ := List.mem_filterMap.mp hb
    have hok : v.2.answer = .ok b := by
      cases hc : v.2.answer with
      | error err =>
          rw [hc] at hans
          cases hans
      | ok b' =>
          rw [hc] at hans
          cases hans
          rfl
    obtain ⟨e, hve, hP⟩ := (hone v hv).mpr ⟨b, hok, hQ⟩
    exact ⟨e, h.log.mem_iff.mpr (List.mem_flatMap.mpr ⟨v, hv, hve⟩), hP⟩

/-- The one request of a goroutine of `GetLookupdTopicProducers`. -/
theorem path_getProducers {endpoint : String} {es : List (Event (Reply semver))}
    {c : Except String (List (ClusterProducer semver.Version))}
    (h : (@Worker.ask _ (Reply semver) _ (.getProducers endpoint) .done).Path es c) :
    es = [⟨.getProducers endpoint, c⟩] := by
  obtain ⟨r, es', rfl, rfl, rfl⟩ := h
  rfl

theorem getLookupdTopicProducers_ends (topic : String) (addrs : List String) :
    (getLookupdTopicProducers semver topic addrs).Ends (Found (.lookupds topic addrs)) := by
  refine (query_ends fun addr es c h => ?_).mono fun asked result h =>
    Queried.found (.lookupds topic addrs) h ?_ ?_ ?_
  · rw [path_getProducers h]
    cases c <;> rfl
  · rintro addr es c hpath e he endpoint
    rw [path_getProducers hpath, List.mem_singleton] at he
    subst he
    simp
  · intro vs hvisits _ addr
    have hnames : (∃ e ∈ asked, (Search.lookupds topic addrs).NamedBy e addr) ↔
        ∃ ps ∈ oks vs, ∃ p ∈ ps, httpAddress p = addr := by
      refine hvisits.exists_iff fun a _ es c hpath => ?_
      rw [path_getProducers hpath]
      constructor
      · rintro ⟨e, he, endpoint, ps, hok, hp⟩
        rw [List.mem_singleton] at he
        subst he
        cases hok
        exact ⟨ps, rfl, hp⟩
      · rintro ⟨ps, rfl, hp⟩
        exact ⟨_, List.mem_singleton_self _, _, ps, rfl, hp⟩
    rw [map_httpAddress_foldl_foldl, List.map_nil, mem_foldl_foldl_add, hnames]
    simp
  · intro _ _ _ pss
    rw [map_httpAddress_foldl_foldl]
    exact nodup_foldl_foldl_add List.nodup_nil _

/-- The requests of a goroutine of `GetXMQDTopicProducers`. -/
theorem path_xmqdTopicProducer {topic addr : String} {es : List (Event (Reply semver))}
    {c : Except String (Option (ClusterProducer semver.Version))}
    (h : (xmqdTopicProducer semver topic addr).Path es c) :
    (∃ err, es = [⟨.getStats (topicStatsEndpoint topic addr), .error err⟩] ∧ c = .error err) ∨
      ∃ topics, (es = [⟨.getStats (topicStatsEndpoint topic addr), .ok topics⟩] ∧ c = .ok none) ∨
        ∃ r, es = [⟨.getStats (topicStatsEndpoint topic addr), .ok topics⟩,
            ⟨.getInfo (infoEndpoint addr), r⟩] ∧
          c = r.map fun info => some (producerOf semver (orAddr addr info) topics) := by
  obtain ⟨r, es', rfl, h⟩ := h
  cases r with
  | error err =>
      obtain ⟨rfl, rfl⟩ := h
      exact .inl ⟨err, rfl, rfl⟩
  | ok topics =>
      refine .inr ⟨topics, ?_⟩
      by_cases hmem : topic ∈ topics
      · simp only [if_pos hmem] at h
        obtain ⟨r, es'', rfl, h⟩ := h
        refine .inr ⟨r, ?_⟩
        cases r with
        | error err =>
            obtain ⟨rfl, rfl⟩ := h
            exact ⟨rfl, rfl⟩
        | ok info =>
            obtain ⟨rfl, rfl⟩ := h
            exact ⟨rfl, rfl⟩
      · simp only [if_neg hmem] at h
        obtain ⟨rfl, rfl⟩ := h
        exact .inl ⟨rfl, rfl⟩

/-- The requests of a goroutine of `GetXMQDProducers`. -/
theorem path_xmqdProducer {addr : String} {es : List (Event (Reply semver))}
    {c : Except String (ClusterProducer semver.Version)} (h : (xmqdProducer semver addr).Path es c) :
    (∃ err, es = [⟨.getInfo (infoEndpoint addr), .error err⟩] ∧ c = .error err) ∨
      ∃ info endpoint r, es = [⟨.getInfo (infoEndpoint addr), .ok info⟩, ⟨.getStats endpoint, r⟩] ∧
        c = r.map fun topics => producerOf semver info topics := by
  obtain ⟨r, es', rfl, h⟩ := h
  cases r with
  | error err =>
      obtain ⟨rfl, rfl⟩ := h
      exact .inl ⟨err, rfl, rfl⟩
  | ok info =>
      obtain ⟨r, es'', rfl, h⟩ := h
      refine .inr ⟨info, _, r, ?_⟩
      cases r with
      | error err =>
          obtain ⟨rfl, rfl⟩ := h
          exact ⟨rfl, rfl⟩
      | ok topics =>
          obtain ⟨rfl, rfl⟩ := h
          exact ⟨rfl, rfl⟩

theorem mem_foldl_toList {ps : List (Option (ClusterProducer semver.Version))}
    {qs : List (ClusterProducer semver.Version)} {p : ClusterProducer semver.Version} :
    p ∈ ps.foldl (fun qs p => qs ++ p.toList) qs ↔ p ∈ qs ∨ some p ∈ ps := by
  induction ps generalizing qs with
  | nil => simp
  | cons q ps ih =>
      rw [List.foldl_cons, ih, List.mem_append, Option.mem_toList, List.mem_cons, or_assoc, eq_comm]

theorem infoEndpoint_inj {a b : String} (h : infoEndpoint a = infoEndpoint b) : a = b := by
  have hlist := congrArg String.toList h
  simp only [infoEndpoint, String.toList_append] at hlist
  have htail := List.append_cancel_left (List.append_cancel_right hlist)
  exact String.toList_inj.mp htail

theorem getXMQDTopicProducers_ends (topic : String) (addrs : List String) :
    (getXMQDTopicProducers semver topic addrs).Ends (Found (.nodes topic addrs)) := by
  refine (query_ends fun addr es c h => ?_).mono fun asked result h =>
    Queried.found (.nodes topic addrs) h ?_ ?_ ?_
  · obtain ⟨err, rfl, rfl⟩ | ⟨topics, ⟨rfl, rfl⟩ | ⟨r, rfl, rfl⟩⟩ := path_xmqdTopicProducer h
    · rfl
    · rfl
    · cases r <;> rfl
  · rintro addr es c hpath e he endpoint
    obtain ⟨err, rfl, rfl⟩ | ⟨topics, ⟨rfl, rfl⟩ | ⟨r, rfl, rfl⟩⟩ := path_xmqdTopicProducer hpath
    · obtain rfl := List.mem_singleton.mp he
      simp
    · obtain rfl := List.mem_singleton.mp he
      simp
    · obtain rfl | rfl := List.mem_pair.mp he <;> simp
  · intro vs hvisits _ addr
    have hnames : (∃ e ∈ asked, (Search.nodes topic addrs).NamedBy e addr) ↔
        ∃ o ∈ oks vs, ∃ p, o = some p ∧ httpAddress p = addr := by
      refine hvisits.exists_iff fun a ha es c hpath => ?_
      constructor
      · rintro ⟨e, he, b, -, info, rfl, rfl⟩
        obtain ⟨err, rfl, rfl⟩ | ⟨topics, ⟨rfl, rfl⟩ | ⟨r, rfl, rfl⟩⟩ := path_xmqdTopicProducer hpath
        · simp at he
        · simp at he
        · obtain he | he := List.mem_pair.mp he
          · cases he
          · obtain rfl := infoEndpoint_inj (Op.getInfo.inj (congrArg Sigma.fst he))
            cases he
            exact ⟨_, rfl, _, rfl, rfl⟩
      · rintro ⟨o, rfl, p, rfl, rfl⟩
        obtain ⟨err, rfl, hc⟩ | ⟨topics, ⟨rfl, hc⟩ | ⟨r, rfl, hc⟩⟩ := path_xmqdTopicProducer hpath
        · cases hc
        · cases hc
        · cases r with
          | error err => cases hc
          | ok info =>
              cases hc
              exact ⟨_, by simp, a, ha, info, rfl, rfl⟩
    rw [hnames, List.mem_map]
    simp only [mem_foldl_toList, List.not_mem_nil, false_or]
    constructor
    · rintro ⟨p, hp, rfl⟩
      exact ⟨some p, hp, p, rfl, rfl⟩
    · rintro ⟨_, hp, p, rfl, rfl⟩
      exact ⟨p, hp, rfl⟩
  · intro _ _ hs
    cases hs

theorem getXMQDProducers_ends (node : String) :
    (getXMQDProducers semver [node]).Ends (Found (.node node)) := by
  refine (query_ends fun addr es c h => ?_).mono fun asked result h =>
    Queried.found (.node node) h ?_ ?_ ?_
  · obtain ⟨err, rfl, rfl⟩ | ⟨info, endpoint, r, rfl, rfl⟩ := path_xmqdProducer h
    · rfl
    · cases r <;> rfl
  · rintro addr es c hpath e he endpoint
    obtain ⟨err, rfl, rfl⟩ | ⟨info, endpoint, r, rfl, rfl⟩ := path_xmqdProducer hpath
    · obtain rfl := List.mem_singleton.mp he
      simp
    · obtain rfl | rfl := List.mem_pair.mp he <;> simp
  · intro vs hvisits hlen addr
    obtain ⟨v, rfl⟩ := List.length_eq_one_iff.mp
      ((List.length_map Prod.fst).symm.trans hvisits.addrs.length_eq)
    have hv : v.1 = node := by simpa [Search.addrs] using hvisits.addrs
    have hlog : asked.Perm v.2.events := by simpa using hvisits.log
    have hpath := hvisits.path v (List.mem_singleton_self v)
    rw [hv] at hpath
    rw [(failures_perm hlog).length_eq] at hlen
    -- Of one node there is all or nothing, and it is not nothing.
    obtain ⟨err, hes, -⟩ | ⟨info, endpoint, r, hes, hans⟩ := path_xmqdProducer hpath
    · rw [hes] at hlen
      exact absurd rfl hlen
    · cases r with
      | error err =>
          rw [hes] at hlen
          exact absurd rfl hlen
      | ok topics =>
          have hoks : oks [v] = [producerOf semver info topics] := by
            rw [oks, List.filterMap_cons, hans]
            rfl
          rw [hoks]
          constructor
          · intro haddr
            obtain rfl := List.mem_singleton.mp haddr
            exact ⟨_, hlog.mem_iff.mpr (hes ▸ List.mem_cons_self), info, rfl, rfl⟩
          · rintro ⟨e, he, info', rfl, rfl⟩
            obtain he | he := List.mem_pair.mp (hes ▸ hlog.mem_iff.mp he)
            · cases he
              exact List.mem_singleton_self _
            · cases he
  · intro _ _ hs
    cases hs

theorem getTopicProducers_ends (topic : String) (lookupds xmqds : List String) :
    (getTopicProducers semver topic lookupds xmqds).Ends (Found (topicSearch topic lookupds xmqds)) := by
  unfold getTopicProducers topicSearch
  split
  · exact getLookupdTopicProducers_ends topic lookupds
  · exact getXMQDTopicProducers_ends topic xmqds

/-! ### The commands -/

/-- A search, and what follows when something is left of it. -/
theorem search_ends {search : Search}
    {find : Prog (Reply semver) (List (ClusterProducer semver.Version) × Option QueryErr)}
    (hfind : find.Ends (Found search)) (before : List String)
    {next : List (ClusterProducer semver.Version) → List String →
      Prog (Reply semver) (Option QueryErr)}
    {Q : List (Event (Reply semver)) → Option QueryErr → Prop}
    (hstop : ∀ asked text, Found search asked ([], some (.errorf text)) → Q asked (some (.errorf text)))
    (hnext : ∀ asked ps errs, Found search asked (ps, errOfList errs) → errs.Perm (failures asked) →
      (next ps (before ++ errs)).Ends fun es err => Q (asked ++ es) err) :
    (findAnd find before next).Ends Q := by
  refine Prog.Ends.bind (hfind.mono fun asked result h => ?_)
  obtain ⟨text, rfl⟩ | ⟨errs, herrs, heq⟩ := h.cases
  · refine ends_pure ?_
    rw [List.append_nil]
    exact hstop asked text h
  · rw [heq] at h ⊢
    show (keepErrs (errOfList errs) before (next result.1)).Ends _
    rw [keepErrs_errOfList]
    exact hnext asked _ errs h herrs

/-- The nodes are told, and the command ends. -/
theorem tellNodes_ends (ps : List (ClusterProducer semver.Version)) (uri qs : String) (errs : List String) :
    (producersPOST semver ps uri qs >>= fun err =>
      keepErrs err errs fun errs => pure (errOfList errs)).Ends fun es err =>
        Tells [⟨uri, qs⟩] (ps.map httpAddress) es ∧ err = errOfList (errs ++ failures es) := by
  refine Prog.Ends.bind ((producersPOST_ends ps uri qs).mono fun es err h => ?_)
  obtain ⟨htells, rfl⟩ := h
  rw [keepErrs_errOfList]
  refine ends_pure ?_
  rw [List.append_nil]
  exact ⟨htells, rfl⟩

/-- The lookupds are told, and the command goes on. -/
theorem tellLookupds_ends (addrs : List String) (uri qs : String) (errs : List String)
    {next : List String → Prog (Reply semver) (Option QueryErr)}
    {Q : List (Event (Reply semver)) → Option QueryErr → Prop}
    (hnext : ∀ es, Tells [⟨uri, qs⟩] addrs es →
      (next (errs ++ failures es)).Ends fun es' err => Q (es ++ es') err) :
    (xmqlookupdPOST semver addrs uri qs >>= fun err => keepErrs err errs next).Ends Q := by
  refine Prog.Ends.bind ((xmqlookupdPOST_ends addrs uri qs).mono fun es err h => ?_)
  obtain ⟨htells, rfl⟩ := h
  rw [keepErrs_errOfList]
  exact hnext es htells

theorem tells_nil (addrs : List String) : @Tells semver [] addrs [] := rfl

theorem Tells.append {ns ns' : List Notice} {addrs : List String} {es es' : List (Event (Reply semver))}
    (h : Tells ns addrs es) (h' : Tells ns' addrs es') : Tells (ns ++ ns') addrs (es ++ es') := by
  rw [Tells, List.map_append, h, h', List.flatMap_append]

theorem Carried.congr {plan : Plan} {lookupds : List String} {es es' : List (Event (Reply semver))}
    {err err' : Option QueryErr} (h : Carried lookupds plan es err) (hes : es' = es) (herr : err' = err) :
    Carried lookupds plan es' err' := by
  rw [hes, herr]
  exact h

/-- A search that is the first of a command. -/
theorem carried_ends {plan : Plan} {lookupds : List String} {search : Search} {ns : List Notice}
    {uri qs : String} (hplan : plan = ⟨[], some ⟨search, ns, ⟨uri, qs⟩⟩⟩)
    {find : Prog (Reply semver) (List (ClusterProducer semver.Version) × Option QueryErr)}
    (hfind : find.Ends (Found search))
    {next : List (ClusterProducer semver.Version) → List String →
      Prog (Reply semver) (Option QueryErr)}
    (hnext : ∀ ps errs, (next ps errs).Ends fun es err => ∃ after nodes, es = after ++ nodes ∧
      Tells ns lookupds after ∧ Tells [⟨uri, qs⟩] (ps.map httpAddress) nodes ∧
      err = errOfList (errs ++ failures after ++ failures nodes)) :
    (findAnd find [] next).Ends (Carried lookupds plan) := by
  subst hplan
  refine search_ends hfind [] (fun asked text h => ?_) fun asked ps errs h herrs => ?_
  · exact (Carried.stopped (tells_nil _) h).congr rfl rfl
  · refine (hnext ps _).mono fun es err hes => ?_
    obtain ⟨after, nodes, rfl, hafter, hnodes, rfl⟩ := hes
    refine (Carried.through (tells_nil _) h herrs hafter hnodes).congr ?_ rfl
    rw [List.nil_append, List.append_assoc]

theorem actionHelper_ends (topic : String) (lookupds xmqds : List String) (uri qs : String) :
    (actionHelper semver topic lookupds xmqds uri qs).Ends
      (Carried lookupds (actionPlan topic lookupds xmqds uri qs)) := by
  refine carried_ends rfl (getTopicProducers_ends topic lookupds xmqds) fun ps errs => ?_
  refine (tellNodes_ends ps uri qs errs).mono fun es err h => ?_
  exact ⟨[], es, rfl, tells_nil _, h.1, by rw [h.2]; simp [failures]⟩

/-- The end of `DeleteTopic` and of `DeleteChannel`. -/
theorem delete_ends (ps : List (ClusterProducer semver.Version)) (lookupds : List String)
    (uri qs : String) (errs : List String) :
    (xmqlookupdPOST semver lookupds uri qs >>= fun err => keepErrs err errs fun errs =>
      producersPOST semver ps uri qs >>= fun err =>
        keepErrs err errs fun errs => pure (errOfList errs)).Ends fun es err =>
      ∃ after nodes, es = after ++ nodes ∧ Tells [⟨uri, qs⟩] lookupds after ∧
        Tells [⟨uri, qs⟩] (ps.map httpAddress) nodes ∧
        err = errOfList (errs ++ failures after ++ failures nodes) := by
  refine tellLookupds_ends lookupds uri qs errs fun after hafter => ?_
  refine (tellNodes_ends ps uri qs _).mono fun nodes err h => ?_
  exact ⟨after, nodes, rfl, hafter, h.1, h.2⟩

theorem deleteTopic_ends (topic : String) (lookupds xmqds : List String) :
    (deleteTopic semver topic lookupds xmqds).Ends
      (Carried lookupds ((Command.deleteTopic topic).plan lookupds xmqds)) :=
  carried_ends rfl (getTopicProducers_ends topic lookupds xmqds) fun ps errs =>
    delete_ends ps lookupds "topic/delete" (topicQuery topic) errs

theorem deleteChannel_ends (topic channel : String) (lookupds xmqds : List String) :
    (deleteChannel semver topic channel lookupds xmqds).Ends
      (Carried lookupds ((Command.deleteChannel topic channel).plan lookupds xmqds)) :=
  carried_ends rfl (getTopicProducers_ends topic lookupds xmqds) fun ps errs =>
    delete_ends ps lookupds "channel/delete" (channelQuery topic channel) errs

theorem tombstoneNodeForTopic_ends (topic node : String) (lookupds xmqds : List String) :
    (tombstoneNodeForTopic semver topic node lookupds).Ends
      (Carried lookupds ((Command.tombstoneNodeForTopic topic node).plan lookupds xmqds)) := by
  refine tellLookupds_ends lookupds _ _ [] fun before hbefore => ?_
  refine search_ends (getXMQDProducers_ends node) _ (fun asked text h => ?_)
    fun asked ps errs h herrs => ?_
  · exact .stopped hbefore h
  · refine (tellNodes_ends ps _ _ _).mono fun nodes err hnodes => ?_
    refine (Carried.through hbefore h herrs (tells_nil _) hnodes.1).congr ?_ ?_
    · rw [List.append_nil, List.append_assoc]
    · rw [hnodes.2]
      simp [failures]

theorem createTopicChannel_ends (topic channel : String) (lookupds xmqds : List String) :
    (createTopicChannel semver topic channel lookupds).Ends
      (Carried lookupds ((Command.createTopicChannel topic channel).plan lookupds xmqds)) := by
  refine tellLookupds_ends lookupds _ _ [] fun topics htopics => ?_
  by_cases hc : channel.length > 0
  · rw [if_pos hc]
    have hplan : (Command.createTopicChannel topic channel).plan lookupds xmqds =
        ⟨[⟨"topic/create", topicQuery topic⟩, ⟨"channel/create", channelQuery topic channel⟩],
          some ⟨.lookupds topic lookupds, [], ⟨"channel/create", channelQuery topic channel⟩⟩⟩ :=
      if_pos hc
    refine tellLookupds_ends lookupds _ _ _ fun channels hchannels => ?_
    have hbefore := htopics.append hchannels
    refine search_ends (getLookupdTopicProducers_ends topic lookupds) _ (fun asked text h => ?_)
      fun asked ps errs h herrs => ?_
    · rw [← List.append_assoc, hplan]
      exact .stopped hbefore h
    · refine (tellNodes_ends ps _ _ _).mono fun nodes err hnodes => ?_
      rw [hplan]
      refine (Carried.through hbefore h herrs (tells_nil _) hnodes.1).congr ?_ ?_
      · simp
      · rw [hnodes.2]
        simp [failures]
  · rw [if_neg hc]
    have hplan : (Command.createTopicChannel topic channel).plan lookupds xmqds =
        ⟨[⟨"topic/create", topicQuery topic⟩], none⟩ := if_neg hc
    refine ends_pure ?_
    rw [List.append_nil, List.nil_append, hplan]
    exact .told htopics

theorem Command.run_ends (c : Command) (lookupds xmqds : List String) :
    (c.run semver lookupds xmqds).Ends (Carried lookupds (c.plan lookupds xmqds)) := by
  cases c with
  | createTopicChannel t c => exact createTopicChannel_ends t c lookupds xmqds
  | deleteTopic t => exact deleteTopic_ends t lookupds xmqds
  | deleteChannel t c => exact deleteChannel_ends t c lookupds xmqds
  | tombstoneNodeForTopic t node => exact tombstoneNodeForTopic_ends t node lookupds xmqds
  | pauseTopic t => exact actionHelper_ends t lookupds xmqds _ _
  | unPauseTopic t => exact actionHelper_ends t lookupds xmqds _ _
  | pauseChannel t c => exact actionHelper_ends t lookupds xmqds _ _
  | unPauseChannel t c => exact actionHelper_ends t lookupds xmqds _ _
  | emptyTopic t => exact actionHelper_ends t lookupds xmqds _ _
  | emptyChannel t c => exact actionHelper_ends t lookupds xmqds _ _

theorem errOfList_eq_none {errs : List String} (h : errOfList errs = none) : errs = [] := by
  cases errs with
  | nil => rfl
  | cons err errs => cases h

theorem Carried.no_failures {plan : Plan} {lookupds : List String} {log : List (Event (Reply semver))}
    (h : Carried lookupds plan log none) : failures log = [] := by
  generalize herr : (none : Option QueryErr) = err at h
  cases h with
  | told hbefore => exact errOfList_eq_none herr.symm
  | stopped hbefore hasked => cases herr
  | through hbefore hasked herrs hafter hnodes =>
      have h := errOfList_eq_none herr.symm
      simp only [List.append_eq_nil_iff] at h
      obtain ⟨⟨⟨hb, rfl⟩, ha⟩, hn⟩ := h
      simp only [failures_append, hb, ha, hn, herrs.nil_eq.symm, List.append_nil]

/-- A command that a query has ended has changed nothing but what it did before it asked. -/
theorem Carried.no_posts {plan : Plan} {lookupds : List String} {log : List (Event (Reply semver))}
    {text : String} (h : Carried lookupds plan log (some (.errorf text))) (hplan : plan.before = []) :
    ∀ e ∈ log, ∀ endpoint, e.1 ≠ .post endpoint := by
  have hlist : ∀ errs, errOfList errs ≠ some (.errorf text) := by
    intro errs
    cases errs <;> simp [errOfList]
  generalize herr : some (QueryErr.errorf text) = err at h
  cases h with
  | told hbefore => exact absurd herr.symm (hlist _)
  | stopped hbefore hasked =>
      obtain rfl : _ = [] := hplan
      have hnil : _ = [] := List.map_eq_nil_iff.mp hbefore
      rw [hnil, List.nil_append]
      exact hasked.gets
  | through hbefore hasked herrs hafter hnodes => exact absurd herr.symm (hlist _)

end Spec

/-- A lookupd is down; the other names one node twice and another; that node is down too. -/
def ordersWorld : World (Reply Lookupd.dottedSemver)
  | .getTopics _ => .error "connection refused"
  | .getChannels _ => .error "connection refused"
  | .getProducers endpoint =>
    if endpoint = "http://a:4161/lookup?topic=orders" then
      .ok (["n1", "n2", "n1"].map fun host =>
        producerOf Lookupd.dottedSemver ⟨"1.0.0", host, host, 4151, 4150⟩ [])
    else .error "connection refused"
  | .getInfo _ => .error "connection refused"
  | .getStats _ => .error "connection refused"
  | .post endpoint =>
    if endpoint = "http://n2:4151/topic/delete?topic=orders" then some "connection refused" else none

def ordersActs : List (Act (Reply Lookupd.dottedSemver)) :=
  [.worker 1 ordersWorld, .worker 0 ordersWorld, .hand 0, .hand 0, .wait] ++
    List.replicate 4 (.request ordersWorld)

end Xmq.ClusterInfo
