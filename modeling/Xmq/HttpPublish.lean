import Xmq.CommandStream

/-!
# Publishing over HTTP

The handlers of `/pub`, `/mpub` and `/channel/create`, from the request to the topic. What
`GetTopic` and `GetExistingTopic` find is a parameter, and so is what the topic makes of the
messages.

* A request is its declared length, its query, and the bytes that can be read from its body before
  reading fails or ends.
* In text mode `/mpub` reads one byte more than it may, line by line. A line without bytes is no
  message.
-/

namespace Xmq.V2

/-! ### Requests -/

/-- `query` gives the first value of a key; there is none when the query does not parse. The
declared length is negative where there is none, and `bodyErr` says that reading fails behind the
body. -/
structure HTTPRequest where
  contentLength : ℤ
  query : Option (String → Option String)
  body : List UInt8
  bodyErr : Bool

abbrev HTTP (α : Type) := Except HTTPFail α

def httpErr {α : Type} (code : ℕ) (text : String) : HTTP α := .error (.err ⟨code, text⟩)

def httpReject (p : Prop) [Decidable p] (code : ℕ) (text : String) : HTTP PUnit :=
  if p then httpErr code text else .ok ⟨⟩

/-- A method of the topic that `GetTopic` returned. -/
def useTopic (topic : Bool) : HTTP PUnit := if topic then .ok ⟨⟩ else .error (.panic .nilTopic)

/-- Reading from `io.LimitReader(req.Body, readMax)` fails. -/
def HTTPRequest.fails (req : HTTPRequest) (readMax : ℤ) : Bool :=
  req.bodyErr && decide ((req.body.length : ℤ) < readMax)

/-- What can be read from `io.LimitReader(req.Body, readMax)`. -/
def HTTPRequest.limited (req : HTTPRequest) (readMax : ℤ) : List UInt8 :=
  req.body.take readMax.toNat

/-- The checks of `getTopicFromQuery`: the query, and the name of the topic. -/
def topicFromQuery (req : HTTPRequest) : HTTP ((String → Option String) × String) :=
  match req.query with
  | none => httpErr 400 "INVALID_REQUEST"
  | some reqParams =>
    match reqParams "topic" with
    | none => httpErr 400 "MISSING_ARG_TOPIC"
    | some topicName =>
      if isValidTopicName topicName then .ok (reqParams, topicName)
      else httpErr 400 "INVALID_TOPIC"

/-! ### `/pub` -/

/-- The digits of a number, and nothing else. -/
def decimal (digits : List Char) : Option ℕ :=
  if !digits.isEmpty && digits.all Char.isDigit then some (Nat.ofDigitChars 10 digits 0) else none

/-- `strconv.ParseInt(s, 10, 64)`. -/
def parseInt (s : String) : Option Int64 :=
  match s.toList with
  | '-' :: digits =>
    (decimal digits).bind fun n => if n ≤ 2 ^ 63 then some (Int64.ofInt (-n)) else none
  | '+' :: digits =>
    (decimal digits).bind fun n => if n < 2 ^ 63 then some (Int64.ofInt n) else none
  | digits => (decimal digits).bind fun n => if n < 2 ^ 63 then some (Int64.ofInt n) else none

def pubBody (opts : Options) (req : HTTPRequest) : HTTP (List UInt8) := do
  httpReject (opts.maxMsgSize < req.contentLength) 413 "MSG_TOO_BIG"
  let readMax := opts.maxMsgSize + 1
  httpReject (req.fails readMax = true) 500 "INTERNAL_ERROR"
  let body := req.limited readMax
  httpReject ((body.length : ℤ) = readMax) 413 "MSG_TOO_BIG"
  httpReject (body = []) 400 "MSG_EMPTY"
  .ok body

/-- The parameter `defer`. -/
def deferParam (opts : Options) (reqParams : String → Option String) : HTTP Int64 :=
  match reqParams "defer" with
  | none => .ok 0
  | some ds =>
    match parseInt ds with
    | none => httpErr 400 "INVALID_DEFER"
    | some di => do
      let deferred := di * 1000000
      httpReject (deferred < 0 ∨ opts.maxReqTimeout < deferred) 400 "INVALID_DEFER"
      .ok deferred

/-- `doPUB`, with the message that it publishes. -/
def doPUB (opts : Options) (getTopic : String → Bool) (putErr : GoError) (req : HTTPRequest) :
    HTTP (List UInt8 × Int64) := do
  let body ← pubBody opts req
  let (reqParams, topicName) ← topicFromQuery req
  let topic := getTopic topicName
  let deferred ← deferParam opts reqParams
  useTopic topic
  httpReject (putErr.isSome = true) 503 "EXITING"
  .ok (body, deferred)

/-! ### `/mpub` -/

def boolParams : List (String × Bool) :=
  [("true", true), ("1", true), ("false", false), ("0", false)]

def binaryMode (reqParams : String → Option String) : Bool :=
  match reqParams "binary" with
  | none => false
  | some val => (boolParams.lookup val).getD true

def mpubBinary (opts : Options) (topic : Bool) (req : HTTPRequest) : HTTP (List (List UInt8)) :=
  match readMPUB topic opts.maxMsgSize opts.maxBodySize req.body with
  | .error (.protocol e) _ => httpErr 413 (e.code.drop 2).toString
  | .error (.panic p) _ => .error (.panic p)
  | .ok messages _ => .ok messages

/-- The loop of the text mode, on the blocks between the newlines, with the bytes read so far. The
last block ends where the body does. -/
def mpubLines (opts : Options) (fails topic : Bool) : ℕ → List (List UInt8) →
    HTTP (List (List UInt8))
  | _, [] => .ok []
  | total, block :: rest => do
    httpReject (rest.isEmpty = true ∧ fails = true) 500 "INTERNAL_ERROR"
    let total := total + block.length + if rest.isEmpty then 0 else 1
    httpReject ((total : ℤ) = opts.maxBodySize + 1) 413 "BODY_TOO_BIG"
    if block.isEmpty then mpubLines opts fails topic total rest
    else do
      httpReject (opts.maxMsgSize < block.length) 413 "MSG_TOO_BIG"
      useTopic topic
      let msgs ← mpubLines opts fails topic total rest
      .ok (block :: msgs)

def mpubText (opts : Options) (topic : Bool) (req : HTTPRequest) : HTTP (List (List UInt8)) :=
  let readMax := opts.maxBodySize + 1
  mpubLines opts (req.fails readMax) topic 0 ((req.limited readMax).splitOn 10)

/-- `doMPUB`, with the messages that it publishes. -/
def doMPUB (opts : Options) (getTopic : String → Bool) (putErr : GoError) (req : HTTPRequest) :
    HTTP (List (List UInt8)) := do
  httpReject (opts.maxBodySize < req.contentLength) 413 "BODY_TOO_BIG"
  let (reqParams, topicName) ← topicFromQuery req
  let topic := getTopic topicName
  let msgs ← if binaryMode reqParams then mpubBinary opts topic req else mpubText opts topic req
  useTopic topic
  httpReject (putErr.isSome = true) 503 "EXITING"
  .ok msgs

/-- The binary mode is `doMPUBBinary`. -/
theorem doMPUB_binary {opts : Options} {getTopic : String → Bool} {putErr : GoError}
    {req : HTTPRequest} {preq : PublishRequest} {reqParams : String → Option String}
    {topicName : String} (hquery : topicFromQuery req = .ok (reqParams, topicName))
    (hmode : binaryMode reqParams = true) (hbody : preq.body = req.body)
    (htopic : preq.topic = .ok (getTopic topicName)) (hsize : 0 ≤ opts.maxBodySize)
    (hlength : req.contentLength = (preq.contentLength.map Nat.cast).getD (-1)) :
    doMPUB opts getTopic putErr req = doMPUBBinary opts putErr preq := by
  have hbig : opts.maxBodySize < req.contentLength ↔
      preq.contentLength.any (fun n => decide (opts.maxBodySize < n)) = true := by
    rw [hlength]
    cases preq.contentLength with
    | none =>
        simp
        omega
    | some n => simp
  unfold doMPUB doMPUBBinary
  by_cases h : opts.maxBodySize < req.contentLength
  · rw [if_pos (hbig.mp h), httpReject, if_pos h]
    rfl
  · rw [if_neg (mt hbig.mpr h), httpReject, if_neg h, hquery, htopic, hbody]
    simp only [bind, Except.bind, hmode, if_true, mpubBinary]
    have hnone := readMPUB_noTopic opts.maxMsgSize opts.maxBodySize req.body
    cases hread : readMPUB (getTopic topicName) opts.maxMsgSize opts.maxBodySize req.body with
    | error e r => cases e <;> rfl
    | ok messages r =>
        cases hget : getTopic topicName with
        | false =>
            unfold Ensures at hnone
            rw [hget] at hread
            rw [hread] at hnone
            exact hnone.elim
        | true => cases putErr <;> rfl

/-! ### `/channel/create` -/

/-- `GetTopicChannelArgs`. -/
def getTopicChannelArgs (reqParams : String → Option String) : HTTP (String × String) :=
  match reqParams "topic" with
  | none => httpErr 400 "MISSING_ARG_TOPIC"
  | some topicName =>
    if isValidTopicName topicName then
      match reqParams "channel" with
      | none => httpErr 400 "MISSING_ARG_CHANNEL"
      | some channelName =>
        if isValidChannelName channelName then .ok (topicName, channelName)
        else httpErr 400 "INVALID_ARG_CHANNEL"
    else httpErr 400 "INVALID_ARG_TOPIC"

/-- `NewReqParams`, which reads the whole body. -/
def newReqParams (req : HTTPRequest) : HTTP (String → Option String) :=
  match req.query with
  | none => httpErr 400 "INVALID_REQUEST"
  | some reqParams => if req.bodyErr then httpErr 400 "INVALID_REQUEST" else .ok reqParams

/-- `doCreateChannel` calls `GetChannel` of a topic that exists, and does not look at what it
returns: the topic and the channel. -/
def doCreateChannel (getExistingTopic : String → Bool) (req : HTTPRequest) :
    HTTP (String × String) := do
  let reqParams ← newReqParams req
  let (topicName, channelName) ← getTopicChannelArgs reqParams
  httpReject (getExistingTopic topicName = false) 404 "TOPIC_NOT_FOUND"
  .ok (topicName, channelName)

end Xmq.V2
