import Xmq.Custody
import Xmq.GoMap
import Xmq.Message
import Xmq.Protocol
import Xmq.Runs

/-!
# Relaying messages

`xmq_to_xmq` consumes topics and publishes every message that passes its filters to one of the
destinations. A handler hands the message to a producer and returns; the producer puts the
transaction on a channel when the destination has answered or the connection is lost, and a responder
takes it from there and finishes or requeues the message.

* The consumer hands a message to a handler and, where the handler has not disabled it, answers for
  the message when the handler returns: it finishes it, or requeues it after an error.
* `PublishAsync` fails, or takes the transaction and completes it once, without an error only when
  the destination has accepted the message. It may do so before `PublishAsync` returns.
* The host pool gives any of its hosts. Floats and the text of JSON are parameters.
-/

namespace Xmq.XmqToXmq

open Custody

/-! ### The flags -/

/-- The flags that the program reads. -/
structure Flags where
  channel : String
  destTopic : String
  mode : String
  xmqdTCPAddrs : List String
  lookupdHTTPAddrs : List String
  destXmqdTCPAddrs : List String
  whitelistJSONFields : List String
  topics : List String
  requireJSONField : String
  requireJSONValue : String

/-- What `main` stops with. -/
def Flags.fatal (f : Flags) : Option String :=
  if f.topics = [] ∨ f.channel = "" then some "--topic and --channel are required"
  else if (f.topics.any fun topic => !isValidTopicName topic) then some "--topic is invalid"
  else if f.destTopic ≠ "" ∧ isValidTopicName f.destTopic = false then
    some "--destination-topic is invalid"
  else if isValidChannelName f.channel = false then some "--channel is invalid"
  else if f.xmqdTCPAddrs = [] ∧ f.lookupdHTTPAddrs = [] then
    some "--xmqd-tcp-address or --lookupd-http-address required"
  else if f.xmqdTCPAddrs ≠ [] ∧ f.lookupdHTTPAddrs ≠ [] then
    some "use --xmqd-tcp-address or --lookupd-http-address not both"
  else if f.destXmqdTCPAddrs = [] then some "--destination-xmqd-tcp-address required"
  else none

inductive Mode where
  | roundRobin
  | hostPool
  deriving DecidableEq

/-- An unknown mode leaves the variable at zero, which is the mode of round robin. -/
def Flags.selectedMode (f : Flags) : Mode :=
  if f.mode = "hostpool" ∨ f.mode = "epsilon-greedy" then .hostPool else .roundRobin

/-- The destination topic of the handlers of a topic. -/
def Flags.publishTopic (f : Flags) (topic : String) : String :=
  if f.destTopic ≠ "" then f.destTopic else topic

/-! ### The filters -/

/-- What `json.Unmarshal` puts into an `interface{}`, and the integers of `filterMessage`. `F` is
`float64`, `V` has the values that are neither strings nor numbers. -/
inductive Value (F V : Type) where
  | string (s : String)
  | number (x : F)
  | integer (n : Int64)
  | other (v : V)

structure Libs (F V : Type) where
  unmarshal : List UInt8 → Option (GoMap String (Value F V))
  marshal : GoMap String (Value F V) → Option (List UInt8)
  format : GoMap String (Value F V) → String
  parseFloat : String → F × GoError
  floatEq : F → F → Bool
  toInt64 : F → Int64
  ofInt64 : Int64 → F
  zero : F

/-- The fields of the handler in which the parsed flag is kept. -/
structure Cache (F : Type) where
  requireJSONValueParsed : Bool
  requireJSONValueIsNumber : Bool
  requireJSONNumber : F

variable {F V : Type}

def newCache (libs : Libs F V) : Cache F := ⟨false, false, libs.zero⟩

/-- The flag is parsed when it is needed for the first time. -/
def Cache.parse (libs : Libs F V) (f : Flags) (c : Cache F) : Cache F :=
  if f.requireJSONValue ≠ "" ∧ c.requireJSONValueParsed = false then
    let r := libs.parseFloat f.requireJSONValue
    ⟨true, r.2.isNone, r.1⟩
  else c

/-- The value is the required one. -/
def Value.isRequired (libs : Libs F V) (f : Flags) (c : Cache F) : Value F V → Bool
  | .string s => s = f.requireJSONValue
  | .number x => c.requireJSONValueIsNumber && libs.floatEq x c.requireJSONNumber
  | .integer _ => false
  | .other _ => false

/-- `shouldPassMessage`: whether the message passes, and whether to back off. -/
def shouldPassMessage (libs : Libs F V) (f : Flags) (c : Cache F) (js : GoMap String (Value F V)) :
    (Bool × Bool) × Cache F :=
  if f.requireJSONField = "" then ((true, false), c)
  else
    let c := c.parse libs f
    match js.lookup f.requireJSONField with
    | none => ((false, decide (f.requireJSONValue ≠ "")), c)
    | some v =>
      if f.requireJSONValue ≠ "" then ((v.isRequired libs f c, false), c) else ((true, false), c)

/-- A float that is an integer becomes one. -/
def Value.plain (libs : Libs F V) : Value F V → Value F V
  | .number x =>
    let n := libs.toInt64 x
    if libs.floatEq (libs.ofInt64 n) x then .integer n else .number x
  | .string s => .string s
  | .integer n => .integer n
  | .other v => .other v

/-- The fields of the whitelist, in the order of the flags. -/
def whitelisted (libs : Libs F V) (f : Flags) (js : GoMap String (Value F V)) :
    GoMap String (Value F V) :=
  f.whitelistJSONFields.foldl
    (fun m key => (js.lookup key).elim m fun v => m.insert key (v.plain libs)) ∅

def filterMessage (libs : Libs F V) (f : Flags) (js : GoMap String (Value F V))
    (rawMsg : List UInt8) : Except String (List UInt8) :=
  if f.whitelistJSONFields = [] then .ok rawMsg
  else
    match libs.marshal (whitelisted libs f js) with
    | none =>
      .error ("unable to marshal filtered message " ++ libs.format (whitelisted libs f js))
    | some newRawMsg => .ok newRawMsg

/-- What follows the check of the required field. -/
def afterCheck (libs : Libs F V) (f : Flags) (js : GoMap String (Value F V)) (body : List UInt8) :
    Bool × Bool → Except GoError (List UInt8)
  | (true, _) =>
    match filterMessage libs f js body with
    | .error err => .error (some err)
    | .ok msgBody => .ok msgBody
  | (false, true) => .error (some "backoff")
  | (false, false) => .error none

/-- `HandleMessage` as far as the filters: it returns, or goes on with a body. -/
def filter (libs : Libs F V) (f : Flags) (c : Cache F) (body : List UInt8) :
    Except GoError (List UInt8) × Cache F :=
  if f.requireJSONField ≠ "" ∨ f.whitelistJSONFields ≠ [] then
    match libs.unmarshal body with
    | none => (.error none, c)
    | some js =>
      let r := shouldPassMessage libs f c js
      (afterCheck libs f js body r.1, r.2)
  else (.ok body, c)

/-! ### The goroutines -/

/-- The last argument of a transaction: an address, or a response of the host pool. -/
inductive Arg where
  | addr (a : String)
  | response (r : ℕ)
  deriving DecidableEq

/-- `ProducerTransaction`, with the message that it is for. `accepted` is not seen by the program. -/
structure Transaction where
  msg : ℕ
  topic : String
  body : List UInt8
  arg : Arg
  accepted : Bool
  error : GoError
  deriving DecidableEq

/-- Where a handler is: with a message that it has not looked at, that has passed the filters, that
goes to a producer, that the producer has taken, or with the error that it returns. The last one also
says whether the consumer is to answer. -/
inductive Handler where
  | idle
  | received (m : ℕ)
  | passed (m : ℕ) (body : List UInt8)
  | publishing (m : ℕ) (body : List UInt8) (arg : Arg)
  | accepted (m : ℕ)
  | returned (m : ℕ) (err : GoError) (autoResponse : Bool)
  deriving DecidableEq

/-- A goroutine of the consumer of a topic. -/
structure Worker where
  topic : String
  handler : Handler
  deriving DecidableEq

/-- What a responder does for a transaction. -/
inductive Instr where
  | mark (r : ℕ) (err : GoError)
  | respond (m : ℕ) (success : Bool)
  | status (addr : String)
  deriving DecidableEq

/-- A message that was consumed. -/
structure Consumed where
  topic : String
  body : List UInt8
  deriving DecidableEq

/-- A message that a destination has accepted. -/
structure Delivery where
  msg : ℕ
  addr : String
  topic : String
  body : List UInt8
  deriving DecidableEq

/-- The messages are numbered as they come, and so are the responses of the host pool. `responses` has
the calls of `Finish` and `Requeue`, `marks` those of `Mark`, and `reports` what became of each message
that went to a producer. -/
structure State (F : Type) where
  received : List Consumed
  handlers : List Worker
  counter : UInt64
  cache : Cache F
  picks : List String
  pending : List Transaction
  respChan : List Transaction
  responders : List (List Instr)
  delivered : List Delivery
  reports : List (ℕ × GoError)
  responses : List (ℕ × Bool)
  marks : List (ℕ × GoError)
  crashed : Bool

/-- A handler goroutine for each topic and destination, and a responder for each destination. -/
def init (libs : Libs F V) (f : Flags) : State F where
  received := []
  handlers := f.topics.flatMap fun topic =>
    List.replicate f.destXmqdTCPAddrs.length ⟨topic, .idle⟩
  counter := 0
  cache := newCache libs
  picks := []
  pending := []
  respChan := []
  responders := List.replicate f.destXmqdTCPAddrs.length []
  delivered := []
  reports := []
  responses := []
  marks := []
  crashed := false

namespace State

/-- The address of an argument. -/
def host (s : State F) : Arg → Option String
  | .addr a => some a
  | .response r => s.picks[r]?

def setHandler (s : State F) (i : ℕ) (topic : String) (h : Handler) : State F :=
  { s with handlers := s.handlers.set i ⟨topic, h⟩ }

def crash (s : State F) : State F := { s with crashed := true }

/-- `Mark`, where there is a response to mark. -/
def mark (s : State F) (arg : Arg) (err : GoError) : State F :=
  match arg with
  | .addr _ => s
  | .response r => { s with marks := s.marks ++ [(r, err)] }

end State

/-- What `responder` does with a transaction; the type assertions are those of the mode. -/
def program (f : Flags) (s : State F) (t : Transaction) : Option (List Instr) :=
  match f.selectedMode, t.arg with
  | .roundRobin, .addr a => some [.respond t.msg t.error.isNone, .status a]
  | .hostPool, .response r =>
    (s.picks[r]?).map fun a =>
      [.mark r (t.error.map fun _ => "failed"), .respond t.msg t.error.isNone, .status a]
  | .roundRobin, .response _ => none
  | .hostPool, .addr _ => none

inductive Act where
  | receive (i : ℕ) (body : List UInt8)
  | check (i : ℕ)
  | choose (i : ℕ) (host : String)
  | publish (i : ℕ) (err : GoError)
  | disable (i : ℕ)
  | finish (i : ℕ)
  | accept (k : ℕ)
  | complete (k : ℕ) (err : GoError)
  | take (j : ℕ)
  | instr (j : ℕ)

def Act.isReceive : Act → Bool
  | .receive _ _ => true
  | _ => false

/-- The choice of the destination. -/
def choose (f : Flags) (s : State F) (i : ℕ) (topic : String) (m : ℕ) (body : List UInt8)
    (host : String) : Option (State F) :=
  match f.selectedMode with
  | .roundRobin =>
    let counter := s.counter + 1
    match f.destXmqdTCPAddrs[counter.toNat % f.destXmqdTCPAddrs.length]? with
    | none => some s.crash
    | some a =>
      some ({ s with counter := counter }.setHandler i topic (.publishing m body (.addr a)))
  | .hostPool =>
    if host ∈ f.destXmqdTCPAddrs then
      some ({ s with picks := s.picks ++ [host] }.setHandler i topic
        (.publishing m body (.response s.picks.length)))
    else none

/-- `PublishAsync` and what follows it; the producers are those of the destinations. -/
def publish (f : Flags) (s : State F) (i : ℕ) (topic : String) (m : ℕ) (body : List UInt8) (arg : Arg)
    (err : GoError) : State F :=
  if (s.host arg).any fun a => decide (a ∈ f.destXmqdTCPAddrs) then
    match err with
    | none =>
      State.setHandler
        { s with pending := s.pending ++ [⟨m, f.publishTopic topic, body, arg, false, none⟩] }
        i topic (.accepted m)
    | some err =>
      ({ s with reports := s.reports ++ [(m, some err)] }.mark arg (some err)).setHandler i topic
        (.returned m (some err) true)
  else s.crash

/-- The destination accepts the message of a transaction. -/
def accept (s : State F) (k : ℕ) (t : Transaction) (a : String) : State F :=
  { s with
    pending := s.pending.set k { t with accepted := true }
    delivered := s.delivered ++ [⟨t.msg, a, t.topic, t.body⟩] }

/-- The producer puts the transaction on the channel. -/
def complete (s : State F) (k : ℕ) (t : Transaction) (err : GoError) : State F :=
  { s with
    pending := s.pending.eraseIdx k
    respChan := s.respChan ++ [{ t with error := err }]
    reports := s.reports ++ [(t.msg, err)] }

def exec (f : Flags) (s : State F) (j : ℕ) (rest : List Instr) : Instr → State F
  | .mark r err =>
    { s with marks := s.marks ++ [(r, err)], responders := s.responders.set j rest }
  | .respond m success =>
    { s with responses := s.responses ++ [(m, success)], responders := s.responders.set j rest }
  | .status a =>
    if a ∈ f.destXmqdTCPAddrs then { s with responders := s.responders.set j rest } else s.crash

/-- The consumer answers when the handler has returned. -/
def finish (s : State F) (i : ℕ) (topic : String) (m : ℕ) (err : GoError) (autoResponse : Bool) :
    State F :=
  if autoResponse then
    { s with responses := s.responses ++ [(m, err.isNone)] }.setHandler i topic .idle
  else s.setHandler i topic .idle

/-- Where the handler is after the filters. -/
def Handler.ofFilter (m : ℕ) : Except GoError (List UInt8) → Handler
  | .error err => .returned m err true
  | .ok body => .passed m body

def step (libs : Libs F V) (f : Flags) (s : State F) (a : Act) : Option (State F) :=
  if s.crashed then none
  else
    match a with
    | .receive i body =>
      match s.handlers[i]? with
      | some ⟨topic, .idle⟩ =>
        some (State.setHandler { s with received := s.received ++ [⟨topic, body⟩] } i topic
          (.received s.received.length))
      | _ => none
    | .check i =>
      match s.handlers[i]? with
      | some ⟨topic, .received m⟩ =>
        (s.received[m]?).map fun c =>
          let r := filter libs f s.cache c.body
          { s with cache := r.2 }.setHandler i topic (.ofFilter m r.1)
      | _ => none
    | .choose i host =>
      match s.handlers[i]? with
      | some ⟨topic, .passed m body⟩ => choose f s i topic m body host
      | _ => none
    | .publish i err =>
      match s.handlers[i]? with
      | some ⟨topic, .publishing m body arg⟩ => some (publish f s i topic m body arg err)
      | _ => none
    | .disable i =>
      match s.handlers[i]? with
      | some ⟨topic, .accepted m⟩ => some (s.setHandler i topic (.returned m none false))
      | _ => none
    | .finish i =>
      match s.handlers[i]? with
      | some ⟨topic, .returned m err autoResponse⟩ => some (finish s i topic m err autoResponse)
      | _ => none
    | .accept k =>
      match s.pending[k]? with
      | some t => if t.accepted then none else (s.host t.arg).map fun a => accept s k t a
      | none => none
    | .complete k err =>
      match s.pending[k]? with
      | some t =>
        if (err = none → t.accepted = true) ∧ s.respChan.length < f.destXmqdTCPAddrs.length then
          some (complete s k t err)
        else none
      | none => none
    | .take j =>
      match s.responders[j]?, s.respChan with
      | some [], t :: rest =>
        match program f s t with
        | none => some s.crash
        | some is => some { s with respChan := rest, responders := s.responders.set j is }
      | _, _ => none
    | .instr j =>
      match s.responders[j]? with
      | some (i :: rest) => some (exec f s j rest i)
      | _ => none

/-- Nothing is under way. -/
def Quiet (s : State F) : Prop :=
  (∀ w ∈ s.handlers, w.handler = .idle) ∧ s.pending = [] ∧ s.respChan = [] ∧
    ∀ is ∈ s.responders, is = []

instance (s : State F) : Decidable (Quiet s) := inferInstanceAs (Decidable (_ ∧ _))

end Xmq.XmqToXmq
