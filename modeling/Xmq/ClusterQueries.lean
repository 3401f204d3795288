import Mathlib.Data.List.Sort
import Mathlib.Data.String.Basic
import Xmq.ClusterTotals
import Xmq.Gather
import Xmq.HttpPublish

/-!
# Asking a cluster

The queries of `ClusterInfo` for names and for producers. Each asks every address in a goroutine of its
own; a goroutine adds what it was answered, or its error, to the slices of the query while it has the
lock. A query fails when as many have failed as there are addresses; otherwise it returns what it has,
with an `ErrList` of the failures.

* The names of a query are the union of the answers, in order and each once, whatever the order in which
  the goroutines had the lock.
* A query of no addresses has failed.
-/

namespace Xmq.ClusterInfo

open Gather Runs
open Lookupd (ClusterProducer ProducerTopic Semver)

/-! ### Requests -/

/-- The fields of `/info`. -/
structure InfoResp where
  version : String
  broadcastAddress : String
  hostname : String
  httpPort : ℤ
  tcpPort : ℤ

/-- `GETV1`, by what it decodes the answer into, and `POSTV1`. -/
inductive Op where
  | getTopics (endpoint : String)
  | getChannels (endpoint : String)
  | getProducers (endpoint : String)
  | getInfo (endpoint : String)
  | getStats (endpoint : String)
  | post (endpoint : String)
  deriving DecidableEq

/-- What they return. Of `/stats` only the names of the topics are decoded. -/
abbrev Reply (semver : Semver) : Op → Type
  | .getTopics _ => Except String (List String)
  | .getChannels _ => Except String (List String)
  | .getProducers _ => Except String (List (ClusterProducer semver.Version))
  | .getInfo _ => Except String InfoResp
  | .getStats _ => Except String (List String)
  | .post _ => Option String

/-! ### Errors -/

/-- An error of a query: an `ErrList`, which is a `PartialErr`, or another. -/
inductive QueryErr where
  | errList (errs : List String)
  | errorf (text : String)
  deriving DecidableEq

/-- `ErrList.Error`. -/
def errListText (errs : List String) : String := String.intercalate "\n" errs

def QueryErr.error : QueryErr → String
  | .errList errs => errListText errs
  | .errorf text => text

/-- What a query of so many addresses makes of its failures. -/
def report (daemon : String) (asked : ℕ) (errs : List String) : Option QueryErr :=
  if errs.length = asked then
    some (.errorf s!"failed to query any {daemon}: {errListText errs}")
  else if errs.length > 0 then some (.errList errs)
  else none

/-! ### `stringy` -/

/-- `stringy.Add`. -/
def add (s : List String) (a : String) : List String := if a ∈ s then s else s ++ [a]

/-- `stringy.Uniq`. -/
def uniq (s : List String) : List String := s.foldl add []

/-- `sort.Strings`. -/
def sortStrings (l : List String) : List String := l.mergeSort fun a b => decide (a ≤ b)

/-! ### Addresses -/

/-- `net.SplitHostPort`; what its callers make of an error is two empty strings. -/
def splitHostPort (hostport : String) : String × String :=
  let cs := hostport.toList
  let port := (cs.reverse.takeWhile (· ≠ ':')).reverse
  let i := cs.length - port.length - 1
  let close := cs.idxOf ']'
  if ':' ∉ cs then ("", "")
  else if cs.head? = some '[' then
    if close + 1 ≠ i ∨ '[' ∈ cs.drop 1 ∨ ']' ∈ cs.drop (close + 1) then ("", "")
    else (String.ofList ((cs.take close).drop 1), String.ofList port)
  else if ':' ∈ cs.take i ∨ '[' ∈ cs ∨ ']' ∈ cs then ("", "")
  else (String.ofList (cs.take i), String.ofList port)

/-- `strconv.Atoi`, whose error its caller drops: zero for what is no number, and the bound for one that
is out of range. -/
def atoi (s : String) : ℤ :=
  let (negative, digits) :=
    match s.toList with
    | '-' :: digits => (true, digits)
    | '+' :: digits => (false, digits)
    | digits => (false, digits)
  match V2.decimal digits with
  | none => 0
  | some n => if negative then max (-n) (-2 ^ 63) else min n (2 ^ 63 - 1)

/-! ### Queries -/

/-- The slices of a query. -/
structure Gathered (α : Type) where
  values : List α
  errs : List String

def Gathered.empty {α : Type} : Gathered α := ⟨[], []⟩

/-- What a goroutine does when it has the lock; `append` adds an answer to the values. -/
def Gathered.merge {α β : Type} (append : List α → β → List α) (st : Gathered α) :
    Except String β → Gathered α
  | .error err => { st with errs := st.errs ++ [err] }
  | .ok resp => { st with values := append st.values resp }

/-- The end of a query. -/
def Gathered.conclude {α : Type} (daemon : String) (asked : ℕ) (finish : List α → List α)
    (st : Gathered α) : List α × Option QueryErr :=
  match report daemon asked st.errs with
  | some (.errorf text) => ([], some (.errorf text))
  | err => (finish st.values, err)

/-- A query: what its goroutine for an address does, and what becomes of the answers. -/
def query {semver : Semver} {α β : Type} (daemon : String) (addrs : List String)
    (goroutine : String → Worker (Reply semver) (Except String β)) (append : List α → β → List α)
    (finish : List α → List α) : Prog (Reply semver) (List α × Option QueryErr) := do
  let got ← Prog.all (addrs.map goroutine)
  pure ((got.foldl (Gathered.merge append) .empty).conclude daemon addrs.length finish)

variable (semver : Semver)

def getLookupdTopics (lookupdHTTPAddrs : List String) :
    Prog (Reply semver) (List String × Option QueryErr) :=
  query "xmqlookupd" lookupdHTTPAddrs (fun addr => .ask (.getTopics s!"http://{addr}/topics") .done)
    (· ++ ·) fun topics => sortStrings (uniq topics)

def getLookupdTopicChannels (topic : String) (lookupdHTTPAddrs : List String) :
    Prog (Reply semver) (List String × Option QueryErr) :=
  query "xmqlookupd" lookupdHTTPAddrs
    (fun addr => .ask (.getChannels s!"http://{addr}/channels?topic={queryEscape topic}") .done)
    (· ++ ·) fun channels => sortStrings (uniq channels)

def getXMQDTopics (xmqdHTTPAddrs : List String) :
    Prog (Reply semver) (List String × Option QueryErr) :=
  query "xmqd" xmqdHTTPAddrs
    (fun addr => .ask (.getStats s!"http://{addr}/stats?format=json") .done)
    (List.foldl add) sortStrings

/-- What the loop over an answer makes of the producers: those whose address is not there yet. -/
def addProducerOnce {V : Type} (producers : List (ClusterProducer V)) (p : ClusterProducer V) :
    List (ClusterProducer V) :=
  if producers.any fun pp => httpAddress p = httpAddress pp then producers else producers ++ [p]

def getLookupdTopicProducers (topic : String) (lookupdHTTPAddrs : List String) :
    Prog (Reply semver) (List (ClusterProducer semver.Version) × Option QueryErr) :=
  query "xmqlookupd" lookupdHTTPAddrs
    (fun addr => .ask (.getProducers s!"http://{addr}/lookup?topic={queryEscape topic}") .done)
    (List.foldl addProducerOnce) id

def infoEndpoint (addr : String) : String := s!"http://{addr}/info"

def topicStatsEndpoint (topic addr : String) : String :=
  s!"http://{addr}/stats?format=json&topic={queryEscape topic}&include_clients=false"

/-- A producer made of the answers to `/info` and `/stats`. -/
def producerOf (info : InfoResp) (topics : List String) : ClusterProducer semver.Version where
  remoteAddresses := []
  remoteAddress := ""
  hostname := info.hostname
  broadcastAddress := info.broadcastAddress
  tcpPort := info.tcpPort
  httpPort := info.httpPort
  version := info.version
  versionObj := semver.versionObj info.version
  topics := topics.map fun t => ⟨t, false⟩
  outOfDate := false

/-- The goroutine of `GetXMQDProducers`. -/
def xmqdProducer (addr : String) :
    Worker (Reply semver) (Except String (ClusterProducer semver.Version)) :=
  .ask (.getInfo (infoEndpoint addr)) fun
    | .error err => .done (.error err)
    | .ok info => .ask (.getStats s!"http://{addr}/stats?format=json&include_clients=false") fun
      | .error err => .done (.error err)
      | .ok topics => .done (.ok (producerOf semver info topics))

def getXMQDProducers (xmqdHTTPAddrs : List String) :
    Prog (Reply semver) (List (ClusterProducer semver.Version) × Option QueryErr) :=
  query "xmqd" xmqdHTTPAddrs (xmqdProducer semver) (fun producers p => producers ++ [p]) id

/-- An answer to `/info` without an address, or without a name, has those of the request. -/
def orAddr (addr : String) (info : InfoResp) : InfoResp :=
  let (host, p) := splitHostPort addr
  let info :=
    if info.broadcastAddress = "" then { info with broadcastAddress := host, httpPort := atoi p } else info
  if info.hostname = "" then { info with hostname := host } else info

/-- The goroutine of `GetXMQDTopicProducers`; a node without the topic is none. -/
def xmqdTopicProducer (topic addr : String) :
    Worker (Reply semver) (Except String (Option (ClusterProducer semver.Version))) :=
  .ask (.getStats (topicStatsEndpoint topic addr)) fun
    | .error err => .done (.error err)
    | .ok topics =>
      if topic ∈ topics then .ask (.getInfo (infoEndpoint addr)) fun
        | .error err => .done (.error err)
        | .ok info => .done (.ok (some (producerOf semver (orAddr addr info) topics)))
      else .done (.ok none)

def getXMQDTopicProducers (topic : String) (xmqdHTTPAddrs : List String) :
    Prog (Reply semver) (List (ClusterProducer semver.Version) × Option QueryErr) :=
  query "xmqd" xmqdHTTPAddrs (xmqdTopicProducer semver topic) (fun producers p => producers ++ p.toList) id

def getTopicProducers (topicName : String) (lookupdHTTPAddrs xmqdHTTPAddrs : List String) :
    Prog (Reply semver) (List (ClusterProducer semver.Version) × Option QueryErr) :=
  if lookupdHTTPAddrs.length ≠ 0 then getLookupdTopicProducers semver topicName lookupdHTTPAddrs
  else getXMQDTopicProducers semver topicName xmqdHTTPAddrs

/-! ### What a query comes to -/

section Queries

variable {semver} {α β : Type}

/-- The error of an answer. -/
def errOf : Except String β → Option String
  | .error err => some err
  | .ok _ => none

/-- The error of a request. -/
def failure : Event (Reply semver) → Option String
  | ⟨.getTopics _, r⟩ => errOf r
  | ⟨.getChannels _, r⟩ => errOf r
  | ⟨.getProducers _, r⟩ => errOf r
  | ⟨.getInfo _, r⟩ => errOf r
  | ⟨.getStats _, r⟩ => errOf r
  | ⟨.post _, r⟩ => r

def failures (log : List (Event (Reply semver))) : List String := log.filterMap failure

/-- A goroutine that keeps every error of its requests and has no others. -/
def Reports (w : Worker (Reply semver) (Except String β)) : Prop :=
  ∀ es c, w.Path es c → failures es = (errOf c).toList

theorem foldl_merge (append : List α → β → List α) (cs : List (Except String β)) (st : Gathered α) :
    cs.foldl (Gathered.merge append) st =
      ⟨(cs.filterMap Except.toOption).foldl append st.values, st.errs ++ cs.filterMap errOf⟩ := by
  induction cs generalizing st with
  | nil => simp
  | cons c cs ih =>
      rw [List.foldl_cons, ih]
      cases c with
      | error err =>
          rw [Gathered.merge, List.append_assoc]
          rfl
      | ok b => rfl

theorem failures_append (es es' : List (Event (Reply semver))) :
    failures (es ++ es') = failures es ++ failures es' := List.filterMap_append

theorem failures_perm {es es' : List (Event (Reply semver))} (h : es.Perm es') :
    (failures es).Perm (failures es') := h.filterMap _

/-- What the goroutines of a query have done, in the order in which they had the lock. -/
structure Visits {ι γ : Type} (addrs : List ι) (goroutine : ι → Worker (Reply semver) γ)
    (log : List (Event (Reply semver))) (vs : List (ι × Outcome (Reply semver) γ)) : Prop where
  addrs : (vs.map Prod.fst).Perm addrs
  path : ∀ v ∈ vs, (goroutine v.1).Path v.2.events v.2.answer
  log : log.Perm (vs.flatMap fun v => v.2.events)

/-- The answers of a query, as they were merged. -/
def oks {ι : Type} (vs : List (ι × Outcome (Reply semver) (Except String β))) : List β :=
  vs.filterMap fun v => v.2.answer.toOption

theorem Visits.failures {addrs : List String} {log : List (Event (Reply semver))}
    {goroutine : String → Worker (Reply semver) (Except String β)}
    {vs : List (String × Outcome (Reply semver) (Except String β))} (h : Visits addrs goroutine log vs)
    (hreports : ∀ addr, Reports (goroutine addr)) :
    ((vs.map fun v => v.2.answer).filterMap errOf).Perm (failures log) := by
  refine List.Perm.trans (List.Perm.of_eq ?_) (failures_perm h.log).symm
  have hpath := h.path
  clear h
  induction vs with
  | nil => rfl
  | cons v vs ih =>
      have hv := hreports v.1 _ _ (hpath v List.mem_cons_self)
      rw [List.flatMap_cons, failures_append, hv, List.map_cons, List.filterMap_cons,
        ← ih fun w hw => hpath w (List.mem_cons_of_mem _ hw)]
      cases errOf v.2.answer <;> rfl

/-- **What a query comes to.** -/
structure Queried (daemon : String) (addrs : List String)
    (goroutine : String → Worker (Reply semver) (Except String β)) (append : List α → β → List α)
    (finish : List α → List α) (log : List (Event (Reply semver)))
    (result : List α × Option QueryErr) : Prop where
  visits : ∃ vs errs, Visits addrs goroutine log vs ∧ errs.Perm (failures log) ∧
    result = (Gathered.mk ((oks vs).foldl append []) errs).conclude daemon addrs.length finish

theorem query_ends {daemon : String} {addrs : List String}
    {goroutine : String → Worker (Reply semver) (Except String β)} {append : List α → β → List α}
    {finish : List α → List α} (hreports : ∀ addr, Reports (goroutine addr)) :
    (query daemon addrs goroutine append finish).Ends
      (Queried daemon addrs goroutine append finish) := by
  refine Prog.Ends.bind (ends_all_map fun vs log hperm hpath hlog => ?_)
  refine ends_pure ?_
  rw [List.append_nil]
  have hvisits : Visits addrs goroutine log vs := ⟨hperm, hpath, hlog⟩
  refine ⟨vs, _, hvisits, hvisits.failures hreports, ?_⟩
  rw [foldl_merge, Gathered.empty, List.nil_append, List.filterMap_map]
  rfl

/-- The error of the end, and whether there are values. -/
theorem conclude_cases (daemon : String) (asked : ℕ) (finish : List α → List α) (st : Gathered α) :
    (st.errs.length = asked ∧ st.conclude daemon asked finish = ([], report daemon asked st.errs)) ∨
      (st.errs.length ≠ asked ∧
        st.conclude daemon asked finish = (finish st.values, report daemon asked st.errs)) := by
  unfold Gathered.conclude report
  by_cases hlen : st.errs.length = asked
  · simp [hlen]
  · by_cases hpos : st.errs.length > 0 <;> simp [hlen, hpos]

end Queries

/-! ### The names -/

section Names

theorem mem_add {s : List String} {a t : String} : t ∈ add s a ↔ t ∈ s ∨ t = a := by
  unfold add
  by_cases ha : a ∈ s
  · rw [if_pos ha]
    exact ⟨Or.inl, fun h => h.elim id fun h => h ▸ ha⟩
  · rw [if_neg ha, List.mem_append, List.mem_singleton]

theorem nodup_add {s : List String} (h : s.Nodup) (a : String) : (add s a).Nodup := by
  unfold add
  by_cases ha : a ∈ s
  · rwa [if_pos ha]
  · rw [if_neg ha, List.nodup_append]
    exact ⟨h, List.nodup_singleton a, fun x hx y hy hxy => ha (by simp_all)⟩

theorem mem_foldl_add {l s : List String} {t : String} : t ∈ l.foldl add s ↔ t ∈ s ∨ t ∈ l := by
  induction l generalizing s with
  | nil => simp
  | cons a l ih => rw [List.foldl_cons, ih, mem_add, List.mem_cons, or_assoc]

theorem nodup_foldl_add {s : List String} (h : s.Nodup) (l : List String) : (l.foldl add s).Nodup := by
  induction l generalizing s with
  | nil => exact h
  | cons a l ih => exact ih (nodup_add h a)

theorem mem_foldl_foldl_add {ls : List (List String)} {s : List String} {t : String} :
    t ∈ ls.foldl (List.foldl add) s ↔ t ∈ s ∨ ∃ l ∈ ls, t ∈ l := by
  induction ls generalizing s with
  | nil => simp
  | cons l ls ih => simp [ih, mem_foldl_add, or_assoc]

theorem nodup_foldl_foldl_add {s : List String} (h : s.Nodup) (ls : List (List String)) :
    (ls.foldl (List.foldl add) s).Nodup := by
  induction ls generalizing s with
  | nil => exact h
  | cons l ls ih => exact ih (nodup_foldl_add h l)

theorem mem_foldl_append {ls : List (List String)} {s : List String} {t : String} :
    t ∈ ls.foldl (· ++ ·) s ↔ t ∈ s ∨ ∃ l ∈ ls, t ∈ l := by
  induction ls generalizing s with
  | nil => simp
  | cons l ls ih => simp [ih, or_assoc]

theorem mem_sortStrings {l : List String} {t : String} : t ∈ sortStrings l ↔ t ∈ l :=
  (List.mergeSort_perm l _).mem_iff

theorem sorted_sortStrings {l : List String} (h : l.Nodup) : (sortStrings l).Pairwise (· < ·) := by
  have hle : (sortStrings l).Pairwise (· ≤ ·) := List.pairwise_mergeSort' (· ≤ ·) l
  have hne : (sortStrings l).Pairwise (· ≠ ·) := (List.mergeSort_perm l _).nodup_iff.mpr h
  exact hle.imp₂ (fun _ _ hab hn => lt_of_le_of_ne hab hn) hne

/-- The queries for names. -/
inductive NamesQuery where
  | lookupdTopics
  | lookupdTopicChannels (topic : String)
  | xmqdTopics

namespace NamesQuery

def run (semver : Semver) : NamesQuery → List String →
    Prog (Reply semver) (List String × Option QueryErr)
  | lookupdTopics => getLookupdTopics semver
  | lookupdTopicChannels topic => getLookupdTopicChannels semver topic
  | xmqdTopics => getXMQDTopics semver

/-- What it asks an address. -/
def op : NamesQuery → String → Op
  | lookupdTopics, addr => .getTopics s!"http://{addr}/topics"
  | lookupdTopicChannels topic, addr => .getChannels s!"http://{addr}/channels?topic={queryEscape topic}"
  | xmqdTopics, addr => .getStats s!"http://{addr}/stats?format=json"

def daemon : NamesQuery → String
  | lookupdTopics => "xmqlookupd"
  | lookupdTopicChannels _ => "xmqlookupd"
  | xmqdTopics => "xmqd"

end NamesQuery

variable {semver}

/-- The names of an answer. -/
def namesOf : Event (Reply semver) → List String
  | ⟨.getTopics _, .ok names⟩ => names
  | ⟨.getChannels _, .ok names⟩ => names
  | ⟨.getStats _, .ok names⟩ => names
  | _ => []

/-- A goroutine that asks once, for names. -/
structure AsksOnce (w : Worker (Reply semver) (Except String (List String))) (op : Op) : Prop where
  path : ∀ es c, w.Path es c → ∃ e, es = [e] ∧ e.1 = op ∧ failure e = errOf c ∧
    namesOf e = c.toOption.getD []

theorem AsksOnce.reports {w : Worker (Reply semver) (Except String (List String))} {op : Op}
    (h : AsksOnce w op) : Reports w := by
  intro es c hpath
  obtain ⟨e, rfl, -, hfail, -⟩ := h.path es c hpath
  rw [failures, List.filterMap_cons, hfail]
  cases errOf c <;> rfl

/-- What a query for names comes to, of the requests that were made. -/
structure Named (q : NamesQuery) (addrs : List String) (log : List (Event (Reply semver)))
    (result : List String × Option QueryErr) : Prop where
  asked : (log.map Sigma.fst).Perm (addrs.map q.op)
  err : ∃ errs, errs.Perm (failures log) ∧ result.2 = report q.daemon addrs.length errs
  failed : (failures log).length = addrs.length → result.1 = []
  sorted : result.1.Pairwise (· < ·)
  union : (failures log).length ≠ addrs.length → ∀ t, t ∈ result.1 ↔ ∃ e ∈ log, t ∈ namesOf e

/-- The names of a query, in any order and perhaps more than once, as its goroutines have left them. -/
structure Unites (append : List String → List String → List String)
    (finish : List String → List String) : Prop where
  sorted : ∀ ls : List (List String), (finish (ls.foldl append [])).Pairwise (· < ·)
  mem : ∀ (ls : List (List String)) t, t ∈ finish (ls.foldl append []) ↔ ∃ l ∈ ls, t ∈ l

theorem unites_uniq : Unites (· ++ ·) fun names => sortStrings (uniq names) where
  sorted ls := sorted_sortStrings (nodup_foldl_add List.nodup_nil _)
  mem ls t := by
    rw [mem_sortStrings, uniq, mem_foldl_add, mem_foldl_append]
    simp

theorem unites_add : Unites (List.foldl add) sortStrings where
  sorted ls := sorted_sortStrings (nodup_foldl_foldl_add List.nodup_nil ls)
  mem ls t := by
    rw [mem_sortStrings, mem_foldl_foldl_add]
    simp

/-- Every name of an answer is the name of a request, and the other way round. -/
theorem Visits.names {addrs : List String} {log : List (Event (Reply semver))} {op : String → Op}
    {goroutine : String → Worker (Reply semver) (Except String (List String))}
    {vs : List (String × Outcome (Reply semver) (Except String (List String)))}
    (h : Visits addrs goroutine log vs) (hasks : ∀ addr, AsksOnce (goroutine addr) (op addr)) :
    (log.map Sigma.fst).Perm (addrs.map op) ∧
      ∀ t, (∃ e ∈ log, t ∈ namesOf e) ↔ ∃ l ∈ oks vs, t ∈ l := by
  have hone : ∀ v ∈ vs, ∃ e, v.2.events = [e] ∧ e.1 = op v.1 ∧
      namesOf e = v.2.answer.toOption.getD [] := fun v hv => by
    obtain ⟨e, he, hop, -, hnames⟩ := (hasks v.1).path _ _ (h.path v hv)
    exact ⟨e, he, hop, hnames⟩
  refine ⟨?_, fun t => ?_⟩
  · have hops : (vs.flatMap fun v => v.2.events).map Sigma.fst = (vs.map Prod.fst).map op := by
      rw [List.map_flatMap, List.map_map, List.map_eq_flatMap]
      refine List.flatMap_congr fun v hv => ?_
      obtain ⟨e, he, hop, -⟩ := hone v hv
      rw [he, List.map_singleton, hop]
      rfl
    exact (h.log.map _).trans (List.Perm.trans (.of_eq hops) (h.addrs.map op))
  · constructor
    · rintro ⟨e, he, ht⟩
      obtain ⟨v, hv, hve⟩ := List.mem_flatMap.mp (h.log.mem_iff.mp he)
      obtain ⟨e', hes, -, hnames⟩ := hone v hv
      rw [hes, List.mem_singleton] at hve
      rw [hve, hnames] at ht
      cases hans : v.2.answer with
      | error err =>
          rw [hans] at ht
          cases ht
      | ok l =>
          rw [hans] at ht
          exact ⟨l, List.mem_filterMap.mpr ⟨v, hv, by rw [hans]; rfl⟩, ht⟩
    · rintro ⟨l, hl, ht⟩
      obtain ⟨v, hv, hans⟩ := List.mem_filterMap.mp hl
      obtain ⟨e, hes, -, hnames⟩ := hone v hv
      refine ⟨e, h.log.mem_iff.mpr (List.mem_flatMap.mpr ⟨v, hv, ?_⟩), ?_⟩
      · rw [hes]
        exact List.mem_singleton_self e
      · rw [hnames, hans]
        exact ht

theorem Queried.named {q : NamesQuery} {addrs : List String} {log : List (Event (Reply semver))}
    {goroutine : String → Worker (Reply semver) (Except String (List String))}
    {append : List String → List String → List String} {finish : List String → List String}
    {result : List String × Option QueryErr}
    (h : Queried q.daemon addrs goroutine append finish log result)
    (hasks : ∀ addr, AsksOnce (goroutine addr) (q.op addr)) (hunites : Unites append finish) :
    Named q addrs log result := by
  obtain ⟨vs, errs, hvisits, herrs, rfl⟩ := h.visits
  obtain ⟨hasked, hnames⟩ := hvisits.names hasks
  obtain ⟨hlen, heq⟩ | ⟨hlen, heq⟩ :=
    conclude_cases q.daemon addrs.length finish ⟨(oks vs).foldl append [], errs⟩
  · rw [heq]
    exact ⟨hasked, ⟨errs, herrs, rfl⟩, fun _ => rfl, .nil,
      fun hne => absurd (herrs.length_eq ▸ hlen) hne⟩
  · rw [heq]
    refine ⟨hasked, ⟨errs, herrs, rfl⟩, fun h => absurd (herrs.length_eq.trans h) hlen,
      hunites.sorted _, fun _ t => ?_⟩
    rw [hunites.mem, hnames]

/-- A goroutine of the query. -/
def NamesQuery.goroutine : (q : NamesQuery) → String →
    Worker (Reply semver) (Except String (List String))
  | lookupdTopics, addr => .ask (lookupdTopics.op addr) .done
  | lookupdTopicChannels topic, addr => .ask ((lookupdTopicChannels topic).op addr) .done
  | xmqdTopics, addr => .ask (xmqdTopics.op addr) .done

theorem NamesQuery.asksOnce (q : NamesQuery) (addr : String) :
    @AsksOnce semver (q.goroutine addr) (q.op addr) where
  path es c hpath := by
    cases q <;>
      (obtain ⟨r, es', rfl, rfl, rfl⟩ := hpath
       exact ⟨_, rfl, rfl, rfl, by cases c <;> rfl⟩)

theorem NamesQuery.run_ends (q : NamesQuery) (addrs : List String) :
    (q.run semver addrs).Ends (Named q addrs) := by
  have hreports : ∀ addr, @Reports semver _ (q.goroutine addr) :=
    fun addr => (q.asksOnce addr).reports
  have hasks : ∀ addr, @AsksOnce semver (q.goroutine addr) (q.op addr) := q.asksOnce
  cases q with
  | lookupdTopics =>
      refine (query_ends hreports).mono fun _ _ h => ?_
      exact Queried.named (q := .lookupdTopics) h hasks unites_uniq
  | lookupdTopicChannels topic =>
      refine (query_ends hreports).mono fun _ _ h => ?_
      exact Queried.named (q := .lookupdTopicChannels topic) h hasks unites_uniq
  | xmqdTopics =>
      refine (query_ends hreports).mono fun _ _ h => ?_
      exact Queried.named (q := .xmqdTopics) h hasks unites_add

/-- What the world answers does not change while a program asks. -/
def Standing (world : World (Reply semver)) (log : List (Event (Reply semver))) : Prop :=
  ∀ e ∈ log, e.2 = world e.1

theorem Standing.perm {world : World (Reply semver)} {log log' : List (Event (Reply semver))}
    (h : Standing world log) (h' : Standing world log')
    (hops : (log.map Sigma.fst).Perm (log'.map Sigma.fst)) : log.Perm log' := by
  have hmap : ∀ l : List (Event (Reply semver)), Standing world l →
      (l.map Sigma.fst).map (fun op => (⟨op, world op⟩ : Event (Reply semver))) = l := fun l hl => by
    rw [List.map_map]
    refine (List.map_congr_left fun e he => ?_).trans (List.map_id l)
    obtain ⟨op, r⟩ := e
    exact congrArg _ (hl _ he).symm
  rw [← hmap log h, ← hmap log' h']
  exact hops.map _

theorem Named.agree {q : NamesQuery} {addrs : List String} {log log' : List (Event (Reply semver))}
    {result result' : List String × Option QueryErr} (h : Named q addrs log result)
    (h' : Named q addrs log' result') {world : World (Reply semver)} (hw : Standing world log)
    (hw' : Standing world log') : result.1 = result'.1 ∧ (failures log).Perm (failures log') := by
  have hlog : log.Perm log' := hw.perm hw' (h.asked.trans h'.asked.symm)
  have hfail := failures_perm hlog
  refine ⟨?_, hfail⟩
  by_cases hlen : (failures log).length = addrs.length
  · rw [h.failed hlen, h'.failed (hfail.length_eq ▸ hlen)]
  · have hmem : ∀ t, t ∈ result.1 ↔ t ∈ result'.1 := fun t => by
      rw [h.union hlen, h'.union (hfail.length_eq ▸ hlen)]
      exact exists_congr fun e => and_congr_left' hlog.mem_iff
    exact h.sorted.sortedLT.eq_of_mem_iff h'.sorted.sortedLT hmem

/-- **The union of the answers.** However the goroutines of a query for names interleave, and whatever
they are answered: each address is asked once; the query fails when as many fail as there are addresses,
and otherwise its names are those of the answers, in order and each once; its error has every failure of
a request and nothing else. Where the world stands still, every run has the same names and failures. -/
theorem names_union (semver : Semver) (q : NamesQuery) (addrs : List String)
    (acts : List (Act (Reply semver))) (log : List (Event (Reply semver)))
    (result : List String × Option QueryErr)
    (hrun : run step ⟨q.run semver addrs, []⟩ acts = some ⟨.done result, log⟩) :
    Named q addrs log result ∧
      ∀ acts' log' result',
        run step ⟨q.run semver addrs, []⟩ acts' = some ⟨.done result', log'⟩ →
        ∀ world, Standing world log → Standing world log' →
          result.1 = result'.1 ∧ (failures log).Perm (failures log') := by
  have hnamed : ∀ acts log result,
      run step ⟨q.run semver addrs, []⟩ acts = some ⟨.done result, log⟩ → Named q addrs log result := by
    intro acts log result hrun
    obtain ⟨es, rfl, h⟩ := run_ends acts (q.run_ends addrs) hrun
    exact h
  refine ⟨hnamed _ _ _ hrun, fun acts' log' result' hrun' world hw hw' => ?_⟩
  exact (hnamed _ _ _ hrun).agree (hnamed _ _ _ hrun') hw hw'

/-- Two lookupds that answer, both with the topic `clicks`; nothing else does. -/
def clicksWorld : World (Reply Lookupd.dottedSemver)
  | .getTopics endpoint =>
    if endpoint = "http://a:4161/topics" then .ok ["views", "clicks"]
    else if endpoint = "http://b:4161/topics" then .ok ["clicks"]
    else .error "connection refused"
  | .getChannels _ => .error "connection refused"
  | .getProducers _ => .error "connection refused"
  | .getInfo _ => .error "connection refused"
  | .getStats _ => .error "connection refused"
  | .post _ => some "connection refused"

/-- The third goroutine asks first and the second has the lock first. -/
def clicksActs : List (Act (Reply Lookupd.dottedSemver)) :=
  [.worker 2 clicksWorld, .worker 1 clicksWorld, .hand 1, .worker 0 clicksWorld, .hand 1, .hand 0, .wait]

theorem names_union_clicks : ∃ result log,
    run step ⟨NamesQuery.lookupdTopics.run Lookupd.dottedSemver ["a:4161", "b:4161", "c:4161"], []⟩
      clicksActs = some ⟨.done result, log⟩ ∧
    Named NamesQuery.lookupdTopics ["a:4161", "b:4161", "c:4161"] log result :=
  ⟨_, _, rfl, (names_union Lookupd.dottedSemver .lookupdTopics ["a:4161", "b:4161", "c:4161"] clicksActs
    _ _ rfl).1⟩

end Names

end Xmq.ClusterInfo
