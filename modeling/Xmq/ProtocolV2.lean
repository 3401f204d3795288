import Xmq.Protocol
import Xmq.WireReader

/-!
# The commands of a V2 connection

What each command does with a client, command by command and check by check, and the loop that reads
commands until one of them ends the connection.

* `FIN`, `REQ` and `TOUCH` fail or not as the channel says; what they do to the channel is elsewhere.
* The channel of `PUB`, `MPUB` and `DPUB` is empty, as for `IsAllowed`.
-/

namespace Xmq.V2

def fatal (code desc : String) : Fail := newFatalClientErr code (text desc)

def invalid (desc : String) : Fail := fatal "E_INVALID" desc

/-- What is read leaves the rest of the client alone. -/
def readFrom {α : Type} (m : Reader α) : Handler α := fun c =>
  match m c.reader with
  | .ok a r => .ok a { c with reader := r }
  | .error e r => .error e { c with reader := r }

theorem ensures_readFrom {α : Type} {m : Reader α} {c : ClientV2} {Q : α → ClientV2 → Prop}
    {E : Fail → ClientV2 → Prop} :
    Ensures (readFrom m) c Q E ↔ Ensures m c.reader (fun a r => Q a { c with reader := r })
      fun e r => E e { c with reader := r } := by
  unfold Ensures readFrom
  cases m c.reader <;> rfl

def effect (e : Effect) : Handler PUnit :=
  modify fun c => { c with effects := c.effects ++ [e] }

/-! ### Authorizations -/

def ClientV2.hasAuthorizations (c : ClientV2) : Bool :=
  match c.authState with
  | some a => !a.authorizations.isEmpty
  | none => false

/-- What the auth server is asked for the client. -/
def ClientV2.authQuery (c : ClientV2) (w : World) (remoteIP : String) : AuthQuery where
  remoteIP := remoteIP
  tlsEnabled := c.tls
  commonName := if c.tls then w.commonName else ""
  secret := c.authSecret

/-- What the auth servers say. -/
def ClientV2.queryAnyAuthd (libs : Libs) (opts : Options) (w : World) (c : ClientV2) :
    Except GoError (AuthQuery × Auth.State) :=
  match w.remoteIP with
  | .error err => .error (some err)
  | .ok remoteIP =>
    (Auth.queryAnyAuthd libs.regexp (w.authd (c.authQuery w remoteIP)) w.nowQuery w.start
      opts.authHTTPAddresses).map fun a => (c.authQuery w remoteIP, a)

def queryAuthd (libs : Libs) (opts : Options) (w : World) : Handler GoError := do
  let c ← get
  match c.queryAnyAuthd libs opts w with
  | .error (some err) => pure (some err)
  | .error none => do
    modify fun c => { c with authState := none }
    pure none
  | .ok (query, a) => do
    modify fun c => { c with authState := some a, effects := c.effects ++ [.obtained query a] }
    pure none

/-- Where `IsAuthorized` asks again. -/
def refreshAuth (libs : Libs) (opts : Options) (w : World) (a : Auth.State) : Handler GoError := do
  modify fun c => { c with clock := w.nowCheck }
  if a.isExpired w.nowCheck then do
    modify fun c => { c with clock := w.nowQuery }
    queryAuthd libs opts w
  else pure none

/-- `AuthState.IsAllowed`, of what is there now. -/
def allowedNow (libs : Libs) (topic channel : List UInt8) : Handler Bool := do
  let c ← get
  match c.authState with
  | none => throw (.panic .nilAuthState)
  | some a =>
    match a.isAllowed libs.regexp topic channel with
    | none => throw (.panic .mustCompile)
    | some ok => pure ok

def isAuthorized (libs : Libs) (opts : Options) (w : World) (topic channel : List UInt8) :
    Handler (Except String Bool) := do
  let c ← get
  match c.authState with
  | none => pure (.ok false)
  | some a => do
    let err ← refreshAuth libs opts w a
    match err with
    | some err => pure (.error err)
    | none => do
      let ok ← allowedNow libs topic channel
      pure (.ok ok)

def checkAuth (libs : Libs) (opts : Options) (w : World) (cmd : String)
    (topic channel : List UInt8) : Handler PUnit :=
  if isAuthEnabled opts then do
    let c ← get
    rejectIf (c.hasAuthorizations = false) (fatal "E_AUTH_FIRST" s!"AUTH required before {cmd}")
    let ok ← isAuthorized libs opts w topic channel
    match ok with
    | .error _ => throw (fatal "E_AUTH_FAILED" "AUTH failed")
    | .ok ok => rejectIf (ok = false) (newFatalClientErr "E_UNAUTHORIZED"
        (text s!"AUTH failed for {cmd} on " ++ libs.quote topic ++ text " " ++ libs.quote channel))
  else pure ⟨⟩

/-- `GetTopic`, with what was looked at before. -/
def reach (topic channel : List UInt8) : Handler PUnit :=
  modify fun c => { c with effects := c.effects ++ [.reached topic channel c.authState c.clock] }

/-! ### `IDENTIFY` and `AUTH` -/

abbrev Response := Option (List UInt8)

def identify (libs : Libs) (opts : Options) (w : World) : Handler Response := do
  let c ← get
  rejectIf (c.state ≠ .init) (invalid "cannot IDENTIFY in current state")
  let body ← readFrom (readBody opts "IDENTIFY")
  match libs.unmarshalIdentify body with
  | .error _ => throw (badBody "IDENTIFY failed to decode JSON body")
  | .ok data => do
    modify fun c => { c with buffered := w.buffered }
    (identifySteps opts data).forM (identifyStep libs opts w)
    pure (if data.featureNegotiation then none else some okBytes)

def auth (libs : Libs) (opts : Options) (w : World) (params : List (List UInt8)) :
    Handler Response := do
  let c ← get
  rejectIf (c.state ≠ .init) (invalid "cannot AUTH in current state")
  rejectIf (params.length ≠ 1) (invalid "AUTH invalid number of parameters")
  let body ← readFrom (readBody opts "AUTH")
  rejectIf (c.hasAuthorizations = true) (invalid "AUTH already set")
  rejectIf (isAuthEnabled opts = false) (fatal "E_AUTH_DISABLED" "AUTH disabled")
  modify fun c => { c with authSecret := body }
  let err ← queryAuthd libs opts w
  rejectIf (err.isSome = true) (fatal "E_AUTH_FAILED" "AUTH failed")
  let c ← get
  rejectIf (c.hasAuthorizations = false) (fatal "E_UNAUTHORIZED" "AUTH no authorizations found")
  match c.authState with
  | none => throw (.panic .nilAuthState)
  | some a => do
    let err ← send w frameTypeResponse (libs.marshalAuth
      { identity := a.identity
        identityURL := a.identityURL
        permissionCount := a.authorizations.length })
    match err with
    | some err => throw (fatal "E_AUTH_ERROR" s!"AUTH error {err}")
    | none => pure none

/-! ### Subscribing -/

/-- One round of the loop of `SUB`: whether there is to be another one. -/
def subRound (r : SubRound) : Handler Bool := do
  rejectIf (r.topic = false) (.panic .nilTopic)
  rejectIf (r.channel = false) (.panic .nilChannel)
  match r.addClient with
  | some err => throw (fatal "E_SUB_FAILED" s!"SUB failed {err}")
  | none => pure r.exiting

/-- The loop, which goes round twice at most. -/
def subLoop (w : World) : Handler PUnit := do
  let again ← subRound (w.sub 1)
  if again then do
    let again ← subRound (w.sub 2)
    rejectIf (again = true) (fatal "E_SUB_FAILED" "SUB failed to deleted topic/channel")
  else pure ⟨⟩

/-- A name that is not valid. -/
def rejectName (libs : Libs) (code what : String) (name : List UInt8) : Handler PUnit :=
  rejectIf (isValidName (name.map UInt8.toNat) = false)
    (newFatalClientErr code (text s!"{what} name " ++ libs.quote name ++ text " is not valid"))

def sub (libs : Libs) (opts : Options) (w : World) (params : List (List UInt8)) :
    Handler Response := do
  let c ← get
  rejectIf (c.state ≠ .init) (invalid "cannot SUB in current state")
  rejectIf (c.heartbeatInterval ≤ 0) (invalid "cannot SUB with heartbeats disabled")
  rejectIf (params.length < 3) (invalid "SUB insufficient number of parameters")
  let topicName := params.getD 1 []
  let channelName := params.getD 2 []
  rejectName libs "E_BAD_TOPIC" "SUB topic" topicName
  rejectName libs "E_BAD_CHANNEL" "SUB channel" channelName
  checkAuth libs opts w "SUB" topicName channelName
  reach topicName channelName
  subLoop w
  modify fun c =>
    { c with
      state := .subscribed
      channel := some (topicName, channelName)
      effects := c.effects ++ [.subscribed topicName channelName] }
  pure (some okBytes)

/-- The count of `RDY`. -/
def readyParam (params : List (List UInt8)) : Except (List UInt8) Int64 :=
  if 1 < params.length then
    match byteToBase10 (params.getD 1 []) with
    | .error _ => .error (params.getD 1 [])
    | .ok b10 => .ok b10.toInt64
  else .ok 1

def rdy (opts : Options) (params : List (List UInt8)) : Handler Response := do
  let c ← get
  if c.state = .closing then pure none
  else do
    rejectIf (c.state ≠ .subscribed) (invalid "cannot RDY in current state")
    match readyParam params with
    | .error param =>
      throw (newFatalClientErr "E_INVALID" (text "RDY could not parse count " ++ param))
    | .ok count => do
      rejectIf (count < 0 ∨ opts.maxRdyCount < count)
        (invalid s!"RDY count {count.toInt} out of range 0-{opts.maxRdyCount.toInt}")
      modify fun c => { c with readyCount := count }
      pure none

def cls : Handler Response := do
  let c ← get
  rejectIf (c.state ≠ .subscribed) (invalid "cannot CLS in current state")
  modify fun c => { c with readyCount := 0, state := .closing }
  pure (some (text "CLOSE_WAIT"))

def nop : Handler Response := pure none

/-! ### Messages of the channel -/

/-- `getMessageID`. -/
def rejectMessageID (id : List UInt8) : Handler PUnit :=
  rejectIf (id.length ≠ msgIDLength) (invalid "invalid message ID")

/-- The state, and the parameters, of `FIN`, `REQ` and `TOUCH`. -/
def rejectState (cmd : String) (atLeast : ℕ) (params : List (List UInt8)) : Handler PUnit := do
  let c ← get
  rejectIf (c.state ≠ .subscribed ∧ c.state ≠ .closing) (invalid s!"cannot {cmd} in current state")
  rejectIf (params.length < atLeast) (invalid s!"{cmd} insufficient number of params")

/-- A call to `client.Channel`. -/
def onChannel (w : World) (cmd : String) (id : List UInt8)
    (call : ClientV2 → List UInt8 × List UInt8 → Effect) : Handler Response := do
  let c ← get
  match c.channel with
  | none => throw (.panic .clientChannel)
  | some channel => do
    effect (call c channel)
    match w.channelErr with
    | some err => throw (newClientErr s!"E_{cmd}_FAILED"
        (text s!"{cmd} " ++ id ++ text s!" failed {err}"))
    | none => pure none

def fin (w : World) (params : List (List UInt8)) : Handler Response := do
  rejectState "FIN" 2 params
  let id := params.getD 1 []
  rejectMessageID id
  onChannel w "FIN" id fun _ channel => .finish channel id

/-- `REQ` takes a timeout that is out of range for the bound. -/
def clampTimeout (opts : Options) (timeout : Int64) : Int64 :=
  if timeout < 0 then 0 else if opts.maxReqTimeout < timeout then opts.maxReqTimeout else timeout

/-- A number of milliseconds, as a duration. -/
def milliseconds (ms : UInt64) : Int64 := ms.toInt64 * 1000000

def req (opts : Options) (w : World) (params : List (List UInt8)) : Handler Response := do
  rejectState "REQ" 3 params
  let id := params.getD 1 []
  rejectMessageID id
  match byteToBase10 (params.getD 2 []) with
  | .error _ => throw (newFatalClientErr "E_INVALID"
      (text "REQ could not parse timeout " ++ params.getD 2 []))
  | .ok timeoutMs =>
    onChannel w "REQ" id fun _ channel =>
      .requeue channel id (clampTimeout opts (milliseconds timeoutMs))

def touch (w : World) (params : List (List UInt8)) : Handler Response := do
  rejectState "TOUCH" 2 params
  let id := params.getD 1 []
  rejectMessageID id
  onChannel w "TOUCH" id fun c channel => .touch channel id c.msgTimeout

/-! ### Publishing -/

/-- `PutMessage` or `PutMessages`. -/
def put (w : World) (cmd : String) (topic : List UInt8) (bodies : List (List UInt8))
    (deferred : Int64) : Handler Response :=
  match w.putErr with
  | some err => throw (fatal s!"E_{cmd}_FAILED" s!"{cmd} failed {err}")
  | none => do
    effect (.put topic bodies deferred)
    pure (some okBytes)

/-- What `PUB` and `DPUB` do with a body. -/
def putOne (libs : Libs) (opts : Options) (w : World) (cmd : String) (topicName : List UInt8)
    (deferred : Int64) : Handler Response := do
  let messageBody ← readFrom (readMessageBody opts cmd)
  checkAuth libs opts w cmd topicName []
  reach topicName []
  rejectIf (w.topic = false) (.panic .nilTopic)
  put w cmd topicName [messageBody] deferred

def pub (libs : Libs) (opts : Options) (w : World) (params : List (List UInt8)) :
    Handler Response := do
  rejectIf (params.length < 2) (invalid "PUB insufficient number of parameters")
  let topicName := params.getD 1 []
  rejectName libs "E_BAD_TOPIC" "PUB topic" topicName
  putOne libs opts w "PUB" topicName 0

def mpub (libs : Libs) (opts : Options) (w : World) (params : List (List UInt8)) :
    Handler Response := do
  rejectIf (params.length < 2) (invalid "MPUB insufficient number of parameters")
  let topicName := params.getD 1 []
  rejectName libs "E_BAD_TOPIC" "E_BAD_TOPIC MPUB topic" topicName
  checkAuth libs opts w "MPUB" topicName []
  reach topicName []
  let _ ← readFrom (readMPUBLen opts)
  let messages ← readFrom (readMPUB w.topic opts.maxMsgSize opts.maxBodySize)
  put w "MPUB" topicName messages 0

def dpub (libs : Libs) (opts : Options) (w : World) (params : List (List UInt8)) :
    Handler Response := do
  rejectIf (params.length < 3) (invalid "DPUB insufficient number of parameters")
  let topicName := params.getD 1 []
  rejectName libs "E_BAD_TOPIC" "DPUB topic" topicName
  match byteToBase10 (params.getD 2 []) with
  | .error _ => throw (newFatalClientErr "E_INVALID"
      (text "DPUB could not parse timeout " ++ params.getD 2 []))
  | .ok timeoutMs => do
    let timeout := milliseconds timeoutMs
    rejectIf (timeout < 0 ∨ opts.maxReqTimeout < timeout)
      (invalid s!"DPUB timeout {timeoutMs} out of range 0-{(opts.maxReqTimeout / 1000000).toInt}")
    putOne libs opts w "DPUB" topicName timeout

/-! ### The loop -/

inductive Command where
  | identify
  | fin
  | rdy
  | req
  | pub
  | mpub
  | dpub
  | nop
  | touch
  | sub
  | cls
  | auth
  deriving DecidableEq

def Command.name : Command → String
  | identify => "IDENTIFY"
  | fin => "FIN"
  | rdy => "RDY"
  | req => "REQ"
  | pub => "PUB"
  | mpub => "MPUB"
  | dpub => "DPUB"
  | nop => "NOP"
  | touch => "TOUCH"
  | sub => "SUB"
  | cls => "CLS"
  | auth => "AUTH"

/-- The commands in the order in which `Exec` compares their names. -/
def commands : List Command :=
  [.identify, .fin, .rdy, .req, .pub, .mpub, .dpub, .nop, .touch, .sub, .cls, .auth]

def commandOf (params : List (List UInt8)) : Option Command :=
  commands.find? fun k => params.headD [] == text k.name

def enforceTLSPolicy (opts : Options) (command : List UInt8) : Handler PUnit := do
  let c ← get
  rejectIf (opts.tlsRequired = true ∧ c.tls = false)
    (newFatalClientErr "E_INVALID"
      (text "cannot " ++ command ++ text " in current state (TLS required)"))

/-- Every command but `IDENTIFY` comes after the TLS policy. -/
def behindTLS (opts : Options) (command : List UInt8) (h : Handler Response) :
    Handler Response := do
  enforceTLSPolicy opts command
  h

def exec (libs : Libs) (opts : Options) (w : World) (params : List (List UInt8)) :
    Handler Response :=
  let name := params.headD []
  match commandOf params with
  | some .identify => identify libs opts w
  | some .fin => behindTLS opts name (fin w params)
  | some .rdy => behindTLS opts name (rdy opts params)
  | some .req => behindTLS opts name (req opts w params)
  | some .pub => behindTLS opts name (pub libs opts w params)
  | some .mpub => behindTLS opts name (mpub libs opts w params)
  | some .dpub => behindTLS opts name (dpub libs opts w params)
  | some .nop => behindTLS opts name nop
  | some .touch => behindTLS opts name (touch w params)
  | some .sub => behindTLS opts name (sub libs opts w params)
  | some .cls => behindTLS opts name cls
  | some .auth => behindTLS opts name (auth libs opts w params)
  | none => behindTLS opts name
      (throw (newFatalClientErr "E_INVALID" (text "invalid command " ++ name)))

inductive Status where
  | reading
  | ended
  | crashed (p : Panic)
  deriving DecidableEq

structure Conn where
  client : ClientV2
  status : Status

/-- The frame is sent; a failure to send it ends the loop. -/
def Conn.sendOr (w : World) (c : ClientV2) (frameType : Int32) (data : List UInt8)
    (status : Status) : Conn where
  client := c.write frameType data
  status := if w.sendErr c.sent.length = none then status else .ended

/-- What becomes of the result of a command. -/
def answer (w : World) : EStateM.Result Fail ClientV2 Response → Conn
  | .ok none c => ⟨c, .reading⟩
  | .ok (some response) c => .sendOr w c frameTypeResponse response .reading
  | .error (.protocol e) c =>
    .sendOr w c frameTypeError e.error (if e.fatal then .ended else .reading)
  | .error (.panic p) c => ⟨c, .crashed p⟩

/-- One round of `IOLoop`. -/
def ioLoop (libs : Libs) (opts : Options) (s : Conn) (w : World) : Option Conn :=
  match s.status with
  | .reading =>
    match readSlice s.client.reader with
    | none => some { s with status := .ended }
    | some (line, rest) =>
      some (answer w (exec libs opts w (splitParams line) { s.client with reader := rest }))
  | .ended | .crashed _ => none

/-- A round of the loop ends the connection without a line, or takes the command of the line. -/
theorem ioLoop_cases {libs : Libs} {opts : Options} {s s' : Conn} {w : World}
    (h : ioLoop libs opts s w = some s') :
    (readSlice s.client.reader = none ∧ s' = { s with status := .ended }) ∨
      ∃ line rest, readSlice s.client.reader = some (line, rest) ∧
        s' = answer w (exec libs opts w (splitParams line) { s.client with reader := rest }) := by
  unfold ioLoop at h
  split at h
  · split at h
    · rename_i hread
      cases h
      exact Or.inl ⟨hread, rfl⟩
    · rename_i line rest hread
      cases h
      exact Or.inr ⟨line, rest, hread, rfl⟩
  · cases h
  · cases h

/-- A connection that sends the given bytes. -/
def Conn.start (opts : Options) (bytes : List UInt8) : Conn := ⟨newClientV2 opts bytes, .reading⟩

end Xmq.V2
