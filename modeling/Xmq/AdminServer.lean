import Xmq.ClusterCommands
import Xmq.RuntimeOptions

/-!
# The changes of an administrator

The handlers of `xmqadmin` that change a cluster, the one that lists its topics, and the one that changes
the options of `xmqadmin`. Every request has a goroutine of its own, and any of them may change the options
while the others run.

* A handler that changes the cluster asks first whether the request is authorized: whether the header
  that the options name has one of their users. Without users every request is.
* `doConfig` copies the options and stores the copy. The copy has the array of the addresses in common
  with what it is a copy of, and `json.Unmarshal` writes into it; so what is in a slice of addresses is
  left to the world. Neither the users nor the header is ever changed.
* An action is reported to the notification endpoint also when it has failed; any other command is not
  when its search has.
-/

namespace Xmq.Admin

open Gather Runs
open ClusterInfo (QueryErr Command Carried errListText splitHostPort)
open Lookupd (Semver HTTPErr)

/-! ### Options -/

structure Options where
  logLevel : String
  logPrefix : String
  httpAddress : String
  basePath : String
  devStaticDir : String
  graphiteURL : String
  proxyGraphite : Bool
  statsdPrefix : String
  statsdCounterFormat : String
  statsdGaugeFormat : String
  statsdInterval : ℤ
  xmqlookupdHTTPAddresses : RuntimeOptions.Slice
  xmqdHTTPAddresses : List String
  httpClientConnectTimeout : ℤ
  httpClientRequestTimeout : ℤ
  httpClientTLSInsecureSkipVerify : Bool
  httpClientTLSRootCAFile : String
  httpClientTLSCert : String
  httpClientTLSKey : String
  allowConfigFromCIDR : String
  notificationHTTPEndpoint : String
  aclHTTPHeader : String
  adminUsers : List String

def newOptions : Options where
  logLevel := "info"
  logPrefix := "[xmqadmin] "
  httpAddress := "0.0.0.0:4171"
  basePath := "/"
  devStaticDir := ""
  graphiteURL := ""
  proxyGraphite := false
  statsdPrefix := "xmq.%s"
  statsdCounterFormat := "stats.counters.%s.count"
  statsdGaugeFormat := "stats.gauges.%s"
  statsdInterval := 60000000000
  xmqlookupdHTTPAddresses := ⟨0, 0⟩
  xmqdHTTPAddresses := []
  httpClientConnectTimeout := 2000000000
  httpClientRequestTimeout := 5000000000
  httpClientTLSInsecureSkipVerify := false
  httpClientTLSRootCAFile := ""
  httpClientTLSCert := ""
  httpClientTLSKey := ""
  allowConfigFromCIDR := "127.0.0.1/8"
  notificationHTTPEndpoint := ""
  aclHTTPHeader := "X-Forwarded-User"
  adminUsers := []

inductive OptValue where
  | string (s : String)
  | bool (b : Bool)
  | duration (ns : ℤ)
  | strings (l : List String)
  | slice (s : RuntimeOptions.Slice)

/-- `getOptByCfgName`: the tag `cfg` of a field, or its tag `flag` with underscores. -/
def getOptByCfgName (opts : Options) : String → Option OptValue
  | "log_level" => some (.string opts.logLevel)
  | "log_prefix" => some (.string opts.logPrefix)
  | "http_address" => some (.string opts.httpAddress)
  | "base_path" => some (.string opts.basePath)
  | "dev_static_dir" => some (.string opts.devStaticDir)
  | "graphite_url" => some (.string opts.graphiteURL)
  | "proxy_graphite" => some (.bool opts.proxyGraphite)
  | "statsd_prefix" => some (.string opts.statsdPrefix)
  | "statsd_counter_format" => some (.string opts.statsdCounterFormat)
  | "statsd_gauge_format" => some (.string opts.statsdGaugeFormat)
  | "statsd_interval" => some (.duration opts.statsdInterval)
  | "xmqlookupd_http_addresses" => some (.slice opts.xmqlookupdHTTPAddresses)
  | "xmqd_http_addresses" => some (.strings opts.xmqdHTTPAddresses)
  | "http_client_connect_timeout" => some (.duration opts.httpClientConnectTimeout)
  | "http_client_request_timeout" => some (.duration opts.httpClientRequestTimeout)
  | "http_client_tls_insecure_skip_verify" => some (.bool opts.httpClientTLSInsecureSkipVerify)
  | "http_client_tls_root_ca_file" => some (.string opts.httpClientTLSRootCAFile)
  | "http_client_tls_cert" => some (.string opts.httpClientTLSCert)
  | "http_client_tls_key" => some (.string opts.httpClientTLSKey)
  | "allow_config_from_cidr" => some (.string opts.allowConfigFromCIDR)
  | "notification_http_endpoint" => some (.string opts.notificationHTTPEndpoint)
  | "acl_http_header" => some (.string opts.aclHTTPHeader)
  | "admin_users" => some (.strings opts.adminUsers)
  | _ => none

/-! ### Requests -/

/-- The handlers, with the parameters of their paths. -/
inductive Route where
  /-- `GET /api/topics`. -/
  | topics
  /-- `POST /api/topics`. -/
  | createTopicChannel
  /-- `POST /api/topics/:topic`. -/
  | topicAction (topic : String)
  /-- `POST /api/topics/:topic/:channel`. -/
  | channelAction (topic channel : String)
  /-- `DELETE /api/nodes/:node`. -/
  | tombstoneNodeForTopic (node : String)
  /-- `DELETE /api/topics/:topic`. -/
  | deleteTopic (topic : String)
  /-- `DELETE /api/topics/:topic/:channel`. -/
  | deleteChannel (topic channel : String)
  /-- `GET` and `PUT /config/:opt`. -/
  | config (put : Bool) (opt : String)

/-- What is read of a request; `query` gives the first value of a key. -/
structure Request where
  route : Route
  header : String → String
  query : Except String (String → Option String)
  body : List UInt8
  bodyErr : Bool
  remoteAddr : String
  userAgent : String
  /-- `u.String()`, of the URL and the host of the request. -/
  url : String

/-- The decoding of a body by `json`, with the text of its error, and `strings.ToLower`. -/
structure Decoders where
  topicBody : List UInt8 → Except String String
  createBody : List UInt8 → Except String (String × String)
  actionBody : List UInt8 → Except String String
  lower : List UInt8 → String

/-- `net`. -/
structure Net where
  IP : Type
  IPNet : Type
  parseCIDR : String → Option IPNet
  parseIP : String → Option IP
  contains : IPNet → IP → Bool

structure AdminAction where
  action : String
  topic : String
  channel : String
  node : String
  timestamp : ℤ
  user : List UInt8
  remoteIP : String
  userAgent : String
  url : String
  via : String

/-- What a handler does: it asks and tells the cluster, and uses what all requests share. -/
inductive Op where
  | cluster (op : ClusterInfo.Op)
  | getOpts
  | swapOpts (opts : Options)
  /-- The elements of a slice of addresses. -/
  | readAddresses (s : RuntimeOptions.Slice)
  /-- `json.Unmarshal` into a slice of addresses: the new slice, or none. -/
  | decodeAddresses (s : RuntimeOptions.Slice) (body : List UInt8)
  | setLogLevel (level : ℕ)
  | hostname
  | now
  /-- A goroutine of its own sends it. -/
  | notify (action : AdminAction)

abbrev Reply (semver : Semver) : Op → Type
  | .cluster op => ClusterInfo.Reply semver op
  | .getOpts => Options
  | .swapOpts _ => Unit
  | .readAddresses _ => List String
  | .decodeAddresses _ _ => Option RuntimeOptions.Slice
  | .setLogLevel _ => Unit
  | .hostname => String
  | .now => ℤ
  | .notify _ => Unit

/-- What is answered; `PanicHandler` answers when a handler panics. -/
inductive Data where
  | topics (topics : List String) (message : String)
  | inactive (topics : List (String × List String)) (message : String)
  | message (message : String)
  | value (v : OptValue)

abbrev Response := Except HTTPErr Data

/-! ### Notifications -/

/-- The value of a digit of `base64`. -/
def base64Digit (c : Char) : Option ℕ :=
  if 'A' ≤ c ∧ c ≤ 'Z' then some (c.toNat - 65)
  else if 'a' ≤ c ∧ c ≤ 'z' then some (c.toNat - 71)
  else if '0' ≤ c ∧ c ≤ '9' then some (c.toNat + 4)
  else if c = '+' then some 62
  else if c = '/' then some 63
  else none

/-- Four digits at a time; the last four may have padding. -/
def decodeQuanta : List Char → Option (List UInt8)
  | [] => some []
  | [a, b, '=', '='] => do
    let n := (← base64Digit a) * 64 + (← base64Digit b)
    some [UInt8.ofNat (n / 16)]
  | [a, b, c, '='] => do
    let n := ((← base64Digit a) * 64 + (← base64Digit b)) * 64 + (← base64Digit c)
    some [UInt8.ofNat (n / 1024), UInt8.ofNat (n / 4)]
  | a :: b :: c :: d :: rest => do
    let n := (((← base64Digit a) * 64 + (← base64Digit b)) * 64 + (← base64Digit c)) * 64 +
      (← base64Digit d)
    some ([UInt8.ofNat (n / 65536), UInt8.ofNat (n / 256), UInt8.ofNat n] ++ (← decodeQuanta rest))
  | _ => none

/-- `base64.StdEncoding.DecodeString`. -/
def decodeString (s : String) : Option (List UInt8) :=
  decodeQuanta (s.toList.filter fun c => c ≠ '\r' ∧ c ≠ '\n')

/-- `basicAuthUser`. -/
def basicAuthUser (req : Request) : List UInt8 :=
  let cs := (req.header "Authorization").toList
  if ' ' ∈ cs ∧ cs.takeWhile (· ≠ ' ') = "Basic".toList then
    match decodeString (String.ofList ((cs.dropWhile (· ≠ ' ')).drop 1)) with
    | none => []
    | some b => if 58 ∈ b then b.takeWhile (· ≠ 58) else []
  else []

section Handlers

variable (semver : Semver)

abbrev Handler := Prog (Reply semver)

def getOpts : Handler semver Options := .ask .getOpts .done

/-- `s.xmqadmin.getOpts().XMQLookupdHTTPAddresses`. -/
def lookupdAddresses : Handler semver (List String) := do
  let opts ← getOpts semver
  .ask (.readAddresses opts.xmqlookupdHTTPAddresses) .done

/-- A part of a handler that deals with the cluster. -/
def upstream {semver : Semver} {α : Type} (p : Prog (ClusterInfo.Reply semver) α) : Handler semver α :=
  p.lift Op.cluster fun _ r => r

def notifyAdminAction (action topic channel node : String) (req : Request) : Handler semver Unit := do
  let opts ← getOpts semver
  if opts.notificationHTTPEndpoint = "" then pure ()
  else
    Prog.ask .hostname fun via =>
      Prog.ask .now fun timestamp =>
        Prog.ask (.notify
          { action := action
            topic := topic
            channel := channel
            node := node
            timestamp := timestamp
            user := basicAuthUser req
            remoteIP := req.remoteAddr
            userAgent := req.userAgent
            url := req.url
            via := via }) Prog.done

/-! ### Handlers -/

def isAuthorizedAdminRequest (req : Request) : Handler semver Bool := do
  let opts ← getOpts semver
  let adminUsers := opts.adminUsers
  if adminUsers.length = 0 then pure true
  else do
    let opts ← getOpts semver
    let user := req.header opts.aclHTTPHeader
    pure (adminUsers.any fun v => v = user)

def maybeWarnMsg (msgs : List String) : String :=
  if msgs.length > 0 then "WARNING: " ++ String.intercalate "; " msgs else ""

/-- What a handler makes of the error of the cluster: the warnings, or an error of its own. -/
def messagesOf : Option QueryErr → Except HTTPErr (List String)
  | none => .ok []
  | some (.errList errs) => .ok [errListText errs]
  | some (.errorf text) => .error ⟨502, s!"UPSTREAM_ERROR: {text}"⟩

/-- The end of a handler, with what it does before it when the cluster has not failed. -/
def respond {semver : Semver} (err : Option QueryErr) (before : Handler semver Unit) :
    Handler semver Response :=
  match messagesOf err with
  | .error e => pure (.error e)
  | .ok messages => do
    before
    pure (.ok (.message (maybeWarnMsg messages)))

variable (dec : Decoders)

def tombstoneNodeForTopicHandler (node : String) (req : Request) : Handler semver Response := do
  if !(← isAuthorizedAdminRequest semver req) then pure (.error ⟨403, "FORBIDDEN"⟩)
  else
    match dec.topicBody req.body with
    | .error _ => pure (.error ⟨400, "INVALID_BODY"⟩)
    | .ok topic =>
      if isValidTopicName topic = false then pure (.error ⟨400, "INVALID_TOPIC"⟩)
      else do
        let lookupds ← lookupdAddresses semver
        let err ← upstream (ClusterInfo.tombstoneNodeForTopic semver topic node lookupds)
        respond err (notifyAdminAction semver "tombstone_topic_producer" topic "" node req)

def createTopicChannelHandler (req : Request) : Handler semver Response := do
  if !(← isAuthorizedAdminRequest semver req) then pure (.error ⟨403, "FORBIDDEN"⟩)
  else
    match dec.createBody req.body with
    | .error err => pure (.error ⟨400, err⟩)
    | .ok (topic, channel) =>
      if isValidTopicName topic = false then pure (.error ⟨400, "INVALID_TOPIC"⟩)
      else if channel.length > 0 ∧ isValidChannelName channel = false then
        pure (.error ⟨400, "INVALID_CHANNEL"⟩)
      else do
        let lookupds ← lookupdAddresses semver
        let err ← upstream (ClusterInfo.createTopicChannel semver topic channel lookupds)
        respond err do
          notifyAdminAction semver "create_topic" topic "" "" req
          if channel.length > 0 then notifyAdminAction semver "create_channel" topic channel "" req
          else pure ()

def deleteTopicHandler (topicName : String) (req : Request) : Handler semver Response := do
  if !(← isAuthorizedAdminRequest semver req) then pure (.error ⟨403, "FORBIDDEN"⟩)
  else do
    let lookupds ← lookupdAddresses semver
    let opts ← getOpts semver
    let err ← upstream (ClusterInfo.deleteTopic semver topicName lookupds opts.xmqdHTTPAddresses)
    respond err (notifyAdminAction semver "delete_topic" topicName "" "" req)

def deleteChannelHandler (topicName channelName : String) (req : Request) :
    Handler semver Response := do
  if !(← isAuthorizedAdminRequest semver req) then pure (.error ⟨403, "FORBIDDEN"⟩)
  else do
    let lookupds ← lookupdAddresses semver
    let opts ← getOpts semver
    let err ← upstream (ClusterInfo.deleteChannel semver topicName channelName lookupds
      opts.xmqdHTTPAddresses)
    respond err (notifyAdminAction semver "delete_channel" topicName channelName "" req)

/-- The command of an action, and the name that is reported. -/
def actionOf (action topicName channelName : String) : Option (Command × String) :=
  match action with
  | "pause" =>
    if channelName ≠ "" then some (.pauseChannel topicName channelName, "pause_channel")
    else some (.pauseTopic topicName, "pause_topic")
  | "unpause" =>
    if channelName ≠ "" then some (.unPauseChannel topicName channelName, "unpause_channel")
    else some (.unPauseTopic topicName, "unpause_topic")
  | "empty" =>
    if channelName ≠ "" then some (.emptyChannel topicName channelName, "empty_channel")
    else some (.emptyTopic topicName, "empty_topic")
  | _ => none

/-- It reports the action before it looks at the error. -/
def topicChannelAction (req : Request) (topicName channelName : String) : Handler semver Response := do
  if !(← isAuthorizedAdminRequest semver req) then pure (.error ⟨403, "FORBIDDEN"⟩)
  else
    match dec.actionBody req.body with
    | .error err => pure (.error ⟨400, err⟩)
    | .ok action =>
      match actionOf action topicName channelName with
      | none => pure (.error ⟨400, "INVALID_ACTION"⟩)
      | some (command, name) => do
        let lookupds ← lookupdAddresses semver
        let opts ← getOpts semver
        let err ← upstream (command.run semver lookupds opts.xmqdHTTPAddresses)
        notifyAdminAction semver name topicName channelName "" req
        respond err (pure ())

def topicActionHandler (topicName : String) (req : Request) : Handler semver Response :=
  topicChannelAction semver dec req topicName ""

def channelActionHandler (topicName channelName : String) (req : Request) : Handler semver Response :=
  topicChannelAction semver dec req topicName channelName

/-- The topics without a producer, with their channels. -/
def inactiveLoop : List String → List (String × List String) →
    Handler semver (List (String × List String))
  | [], topicChannelMap => pure topicChannelMap
  | topicName :: topics, topicChannelMap => do
    let lookupds ← lookupdAddresses semver
    let (producers, _) ← upstream (ClusterInfo.getLookupdTopicProducers semver topicName lookupds)
    if producers.length = 0 then do
      let lookupds ← lookupdAddresses semver
      let (topicChannels, _) ← upstream (ClusterInfo.getLookupdTopicChannels semver topicName lookupds)
      inactiveLoop topics (topicChannelMap ++ [(topicName, topicChannels)])
    else inactiveLoop topics topicChannelMap

/-- The topics that the lookupds know, or the nodes when there are no lookupds. -/
def allTopics : Handler semver (List String × Option QueryErr) := do
  let opts ← getOpts semver
  if opts.xmqlookupdHTTPAddresses.len ≠ 0 then do
    let lookupds ← lookupdAddresses semver
    upstream (ClusterInfo.getLookupdTopics semver lookupds)
  else do
    let opts ← getOpts semver
    upstream (ClusterInfo.getXMQDTopics semver opts.xmqdHTTPAddresses)

def topicsHandler (req : Request) : Handler semver Response := do
  match req.query with
  | .error err => pure (.error ⟨400, err⟩)
  | .ok reqParams => do
    let (topics, err) ← allTopics semver
    match messagesOf err with
    | .error e => pure (.error e)
    | .ok messages =>
      if reqParams "inactive" = some "true" then do
        let opts ← getOpts semver
        if opts.xmqlookupdHTTPAddresses.len = 0 then
          pure (.ok (.inactive [] (maybeWarnMsg messages)))
        else do
          let topicChannelMap ← inactiveLoop semver topics []
          pure (.ok (.inactive topicChannelMap (maybeWarnMsg messages)))
      else pure (.ok (.topics topics (maybeWarnMsg messages)))

/-! ### `doConfig` -/

/-- The levels of the log. -/
def logLevel : String → Option ℕ
  | "debug" => some 0
  | "info" => some 1
  | "warning" => some 2
  | "error" => some 3
  | "fatal" => some 4
  | _ => none

/-- What the client may change, from where it is. The network of the options was parsed at the start; a
nil one would panic. -/
def configAllowed (net : Net) (allowConfigFromCIDR remoteAddr : String) : Except HTTPErr Unit :=
  if allowConfigFromCIDR = "" then .ok ()
  else
    match net.parseIP (splitHostPort remoteAddr).1 with
    | none => .error ⟨400, "INVALID_REMOTE_ADDR"⟩
    | some ip =>
      match net.parseCIDR allowConfigFromCIDR with
      | none => .error ⟨500, "INTERNAL_ERROR"⟩
      | some ipnet => if net.contains ipnet ip then .ok () else .error ⟨403, "FORBIDDEN"⟩

/-- `1024*1024 + 1`. -/
def readMax : ℕ := 1048577

/-- The body of a request, with the errors of reading it. -/
def configBody (req : Request) : Except HTTPErr (List UInt8) :=
  if req.bodyErr = true ∧ req.body.length < readMax then .error ⟨500, "INTERNAL_ERROR"⟩
  else
    let body := req.body.take readMax
    if body.length = readMax ∨ body.length = 0 then .error ⟨413, "INVALID_VALUE"⟩ else .ok body

/-- The options with the new value; the level of the log is set at once. -/
def setOption (opt : String) (body : List UInt8) (opts : Options) :
    Handler semver (Except HTTPErr Options) :=
  match opt with
  | "xmqlookupd_http_addresses" =>
    .ask (.decodeAddresses opts.xmqlookupdHTTPAddresses body) fun
      | none => .done (.error ⟨400, "INVALID_VALUE"⟩)
      | some addresses => .done (.ok { opts with xmqlookupdHTTPAddresses := addresses })
  | "log_level" =>
    match logLevel (dec.lower body) with
    | none => .done (.error ⟨400, "INVALID_VALUE"⟩)
    | some level => .ask (.setLogLevel level) fun _ =>
        .done (.ok { opts with logLevel := dec.lower body })
  | _ => .done (.error ⟨400, "INVALID_OPTION"⟩)

/-- The answer with the value of an option. -/
def configValue (opt : String) : Handler semver Response := do
  let opts ← getOpts semver
  match getOptByCfgName opts opt with
  | none => pure (.error ⟨400, "INVALID_OPTION"⟩)
  | some v => pure (.ok (.value v))

def doConfig (net : Net) (put : Bool) (opt : String) (req : Request) : Handler semver Response := do
  let opts ← getOpts semver
  match configAllowed net opts.allowConfigFromCIDR req.remoteAddr with
  | .error e => pure (.error e)
  | .ok () =>
    if put then
      match configBody req with
      | .error e => pure (.error e)
      | .ok body => do
        let opts ← getOpts semver
        match ← setOption semver dec opt body opts with
        | .error e => pure (.error e)
        | .ok opts => .ask (.swapOpts opts) fun _ => configValue semver opt
    else configValue semver opt

/-- The handler of a request. -/
def serve (net : Net) (req : Request) : Handler semver Response :=
  match req.route with
  | .topics => topicsHandler semver req
  | .createTopicChannel => createTopicChannelHandler semver dec req
  | .topicAction topic => topicActionHandler semver dec topic req
  | .channelAction topic channel => channelActionHandler semver dec topic channel req
  | .tombstoneNodeForTopic node => tombstoneNodeForTopicHandler semver dec node req
  | .deleteTopic topic => deleteTopicHandler semver topic req
  | .deleteChannel topic channel => deleteChannelHandler semver topic channel req
  | .config put opt => doConfig semver dec net put opt req

end Handlers

/-! ### The server -/

section Server

variable (semver : Semver)

/-- The requests that have come, each with how far its handler is. -/
structure Server where
  opts : Options
  running : List (Request × State (Reply semver) Response)

inductive Act where
  | arrive (req : Request)
  /-- The handler of a request takes a step. -/
  | go (i : ℕ) (act : Gather.Act (Reply semver))

variable {semver}

/-- The options are those that were stored last; everything else is up to the world. -/
def withOpts (opts : Options) (world : World (Reply semver)) : World (Reply semver)
  | .getOpts => opts
  | op => world op

def answering (opts : Options) : Gather.Act (Reply semver) → Gather.Act (Reply semver)
  | .request world => .request (withOpts opts world)
  | .worker i world => .worker i (withOpts opts world)
  | .hand i => .hand i
  | .wait => .wait

/-- The options after some requests of a handler. -/
def stored (opts : Options) : List (Event (Reply semver)) → Options
  | [] => opts
  | ⟨.swapOpts opts', _⟩ :: es => stored opts' es
  | _ :: es => stored opts es

variable (dec : Decoders) (net : Net)

def step (s : Server semver) : Act semver → Option (Server semver)
  | .arrive req => some { s with running := s.running ++ [(req, ⟨serve semver dec net req, []⟩)] }
  | .go i act =>
    match s.running[i]? with
    | none => none
    | some (req, st) =>
      match Gather.step st (answering s.opts act) with
      | none => none
      | some st' =>
        some
          { opts := stored s.opts (st'.log.drop st.log.length)
            running := s.running.set i (req, st') }

end Server

/-! ### Who may change what -/

section Safety

variable {semver : Semver} {users : List String} {header : String} {req : Request}

/-- What changes the cluster, and the report of it. -/
def Op.Changes : Op → Prop
  | .cluster (.post _) => True
  | .notify _ => True
  | _ => False

def Authorized (users : List String) (header : String) (req : Request) : Prop :=
  users = [] ∨ req.header header ∈ users

/-- Options with these users and this header. -/
def Options.Kept (users : List String) (header : String) (opts : Options) : Prop :=
  opts.adminUsers = users ∧ opts.aclHTTPHeader = header

/-- The options that are read have them. -/
def Rely (users : List String) (header : String) : Event (Reply semver) → Prop
  | ⟨.getOpts, opts⟩ => opts.Kept users header
  | _ => True

/-- A change is authorized, and the options that are stored have them. -/
def Guar (users : List String) (header : String) (req : Request) (e : Event (Reply semver)) : Prop :=
  (e.1.Changes → Authorized users header req) ∧ ∀ opts, e.1 = .swapOpts opts → opts.Kept users header

/-- A handler that keeps to this. -/
abbrev Keeps {α : Type} (users : List String) (header : String) (req : Request)
    (p : Handler semver α) : Prop :=
  p.Safe (Rely users header) (Guar users header req)

theorem guar_of_not_changes {op : Op} (r : Reply semver op) (hop : ¬ op.Changes)
    (hswap : ∀ opts, op ≠ .swapOpts opts) : Guar users header req ⟨op, r⟩ :=
  ⟨fun h => absurd h hop, fun opts h => absurd h (hswap opts)⟩

variable {α β : Type}

theorem keeps_getOpts {f : Options → Handler semver β}
    (hf : ∀ opts, opts.Kept users header → Keeps users header req (f opts)) :
    Keeps users header req (getOpts semver >>= f) :=
  fun opts => ⟨guar_of_not_changes opts id (by simp), fun h => hf opts h⟩

theorem keeps_lookupdAddresses : Keeps users header req (lookupdAddresses semver) :=
  keeps_getOpts fun _ _ r => ⟨guar_of_not_changes r id (by simp), fun _ => trivial⟩

theorem keeps_upstream (h : Authorized users header req) (p : Prog (ClusterInfo.Reply semver) α) :
    Keeps users header req (upstream p) := by
  have hp : p.Safe (fun _ => True) fun _ => True := p.safe_true
  exact hp.lift _ _ (fun _ _ _ => ⟨fun _ => h, by simp⟩) fun _ _ _ => trivial

/-- A program that only asks the cluster. -/
def OnlyAsks (p : Prog (ClusterInfo.Reply semver) α) : Prop :=
  p.Safe (fun _ => True) fun e => ∀ endpoint, e.1 ≠ .post endpoint

theorem keeps_asks {p : Prog (ClusterInfo.Reply semver) α} (hp : OnlyAsks p) :
    Keeps users header req (upstream p) := by
  refine Prog.Safe.lift _ _ (fun op r h => guar_of_not_changes _ (fun hc => ?_) (by simp))
    (fun _ _ _ => trivial) hp
  cases op with
  | post endpoint => exact h endpoint rfl
  | getTopics endpoint => exact hc
  | getChannels endpoint => exact hc
  | getProducers endpoint => exact hc
  | getInfo endpoint => exact hc
  | getStats endpoint => exact hc

theorem keeps_notify (h : Authorized users header req) (action topic channel node : String) :
    Keeps users header req (notifyAdminAction semver action topic channel node req) := by
  refine keeps_getOpts fun opts _ => ?_
  split
  · exact safe_pure _
  · exact fun via => ⟨guar_of_not_changes via id (by simp), fun _ timestamp =>
      ⟨guar_of_not_changes timestamp id (by simp), fun _ _ =>
        ⟨⟨fun _ => h, by simp⟩, fun _ => trivial⟩⟩⟩

/-- What follows the check may take its answer for granted. -/
theorem keeps_authorized {f : Bool → Handler semver α} (hyes : Authorized users header req →
    Keeps users header req (f true)) (hno : Keeps users header req (f false)) :
    Keeps users header req (isAuthorizedAdminRequest semver req >>= f) := by
  show Keeps users header req (getOpts semver >>= fun opts =>
    (if opts.adminUsers.length = 0 then pure true
    else getOpts semver >>= fun opts' =>
      pure (opts.adminUsers.any fun v => v = req.header opts'.aclHTTPHeader)) >>= f)
  refine keeps_getOpts fun opts hopts => ?_
  obtain ⟨rfl, -⟩ := hopts
  by_cases hlen : opts.adminUsers.length = 0
  · simp only [if_pos hlen]
    exact hyes (.inl (List.length_eq_zero_iff.mp hlen))
  · simp only [if_neg hlen]
    show Keeps opts.adminUsers header req (getOpts semver >>= fun opts' =>
      f (opts.adminUsers.any fun v => v = req.header opts'.aclHTTPHeader))
    refine keeps_getOpts fun opts' hopts' => ?_
    obtain ⟨-, rfl⟩ := hopts'
    cases hany : opts.adminUsers.any fun v => v = req.header opts'.aclHTTPHeader with
    | false => exact hno
    | true =>
        refine hyes (.inr ?_)
        obtain ⟨v, hv, heq⟩ := List.any_eq_true.mp hany
        exact of_decide_eq_true heq ▸ hv

/-- The end of a handler that changes the cluster. -/
theorem keeps_respond (err : Option QueryErr) {before : Handler semver Unit}
    (hbefore : Keeps users header req before) : Keeps users header req (respond err before) := by
  unfold respond
  split
  · exact safe_pure _
  · exact hbefore.bind fun _ => safe_pure _

variable (dec : Decoders)

theorem keeps_tombstoneNodeForTopic (node : String) :
    Keeps users header req (tombstoneNodeForTopicHandler semver dec node req) := by
  refine keeps_authorized (fun h => ?_) (safe_pure _)
  simp only [Bool.not_true, Bool.false_eq_true, if_false]
  split
  · exact safe_pure _
  · split
    · exact safe_pure _
    · exact keeps_lookupdAddresses.bind fun _ => (keeps_upstream h _).bind fun _ =>
        keeps_respond _ (keeps_notify h _ _ _ _)

theorem keeps_createTopicChannel :
    Keeps users header req (createTopicChannelHandler semver dec req) := by
  refine keeps_authorized (fun h => ?_) (safe_pure _)
  simp only [Bool.not_true, Bool.false_eq_true, if_false]
  split
  · exact safe_pure _
  · split
    · exact safe_pure _
    · split
      · exact safe_pure _
      · refine keeps_lookupdAddresses.bind fun _ => (keeps_upstream h _).bind fun _ =>
          keeps_respond _ ((keeps_notify h _ _ _ _).bind fun _ => ?_)
        split
        · exact keeps_notify h _ _ _ _
        · exact safe_pure _

theorem keeps_deleteTopic (topicName : String) :
    Keeps users header req (deleteTopicHandler semver topicName req) := by
  refine keeps_authorized (fun h => ?_) (safe_pure _)
  exact keeps_lookupdAddresses.bind fun _ => keeps_getOpts fun _ _ =>
    (keeps_upstream h _).bind fun _ => keeps_respond _ (keeps_notify h _ _ _ _)

theorem keeps_deleteChannel (topicName channelName : String) :
    Keeps users header req (deleteChannelHandler semver topicName channelName req) := by
  refine keeps_authorized (fun h => ?_) (safe_pure _)
  exact keeps_lookupdAddresses.bind fun _ => keeps_getOpts fun _ _ =>
    (keeps_upstream h _).bind fun _ => keeps_respond _ (keeps_notify h _ _ _ _)

theorem keeps_topicChannelAction (topicName channelName : String) :
    Keeps users header req (topicChannelAction semver dec req topicName channelName) := by
  refine keeps_authorized (fun h => ?_) (safe_pure _)
  simp only [Bool.not_true, Bool.false_eq_true, if_false]
  split
  · exact safe_pure _
  · split
    · exact safe_pure _
    · exact keeps_lookupdAddresses.bind fun _ => keeps_getOpts fun _ _ =>
        (keeps_upstream h _).bind fun _ => (keeps_notify h _ _ _ _).bind fun _ =>
          keeps_respond _ (safe_pure _)

/-- A query whose goroutines only ask. -/
theorem query_asks {γ : Type} {daemon : String} {addrs : List String}
    {goroutine : String → Worker (ClusterInfo.Reply semver) (Except String β)}
    {append : List γ → β → List γ} {finish : List γ → List γ}
    (h : ∀ addr, (goroutine addr).Safe (fun _ => True) fun e => ∀ endpoint, e.1 ≠ .post endpoint) :
    OnlyAsks (ClusterInfo.query daemon addrs goroutine append finish) := by
  refine Prog.Safe.bind (fun _ => safe_pure _) (safe_all fun w hw => ?_)
  obtain ⟨addr, -, rfl⟩ := List.mem_map.mp hw
  exact h addr

theorem getLookupdTopics_asks (addrs : List String) :
    OnlyAsks (ClusterInfo.getLookupdTopics semver addrs) :=
  query_asks fun _ _ => ⟨by simp, fun _ => trivial⟩

theorem getLookupdTopicChannels_asks (topic : String) (addrs : List String) :
    OnlyAsks (ClusterInfo.getLookupdTopicChannels semver topic addrs) :=
  query_asks fun _ _ => ⟨by simp, fun _ => trivial⟩

theorem getXMQDTopics_asks (addrs : List String) : OnlyAsks (ClusterInfo.getXMQDTopics semver addrs) :=
  query_asks fun _ _ => ⟨by simp, fun _ => trivial⟩

theorem getLookupdTopicProducers_asks (topic : String) (addrs : List String) :
    OnlyAsks (ClusterInfo.getLookupdTopicProducers semver topic addrs) :=
  query_asks fun _ _ => ⟨by simp, fun _ => trivial⟩

theorem keeps_inactiveLoop (topics : List String) (topicChannelMap : List (String × List String)) :
    Keeps users header req (inactiveLoop semver topics topicChannelMap) := by
  induction topics generalizing topicChannelMap with
  | nil => exact safe_pure _
  | cons topicName topics ih =>
      refine keeps_lookupdAddresses.bind fun lookupds => Prog.Safe.bind (fun found => ?_)
        (keeps_asks (getLookupdTopicProducers_asks topicName lookupds))
      obtain ⟨producers, err⟩ := found
      by_cases hlen : producers.length = 0
      · simp only [if_pos hlen]
        exact keeps_lookupdAddresses.bind fun lookupds => Prog.Safe.bind (fun _ => ih _)
          (keeps_asks (getLookupdTopicChannels_asks topicName lookupds))
      · simp only [if_neg hlen]
        exact ih _

theorem keeps_allTopics : Keeps users header req (allTopics semver) := by
  refine keeps_getOpts fun opts _ => ?_
  split
  · exact keeps_lookupdAddresses.bind fun lookupds => keeps_asks (getLookupdTopics_asks lookupds)
  · exact keeps_getOpts fun opts _ => keeps_asks (getXMQDTopics_asks opts.xmqdHTTPAddresses)

theorem keeps_topics : Keeps users header req (topicsHandler semver req) := by
  unfold topicsHandler
  split
  · exact safe_pure _
  · refine keeps_allTopics.bind fun found => ?_
    obtain ⟨topics, err⟩ := found
    simp only []
    split
    · exact safe_pure _
    · split
      · refine keeps_getOpts fun opts _ => ?_
        split
        · exact safe_pure _
        · exact (keeps_inactiveLoop topics []).bind fun _ => safe_pure _
      · exact safe_pure _

theorem keeps_configValue (opt : String) : Keeps users header req (configValue semver opt) := by
  refine keeps_getOpts fun opts _ => ?_
  split
  · exact safe_pure _
  · exact safe_pure _

/-- Setting an option changes no other. -/
theorem keeps_setOption {opt : String} {body : List UInt8} {opts : Options}
    (hopts : opts.Kept users header) {f : Except HTTPErr Options → Handler semver β}
    (hf : ∀ r, (∀ opts', r = .ok opts' → opts'.Kept users header) → Keeps users header req (f r)) :
    Keeps users header req (setOption semver dec opt body opts >>= f) := by
  have herr : ∀ e, Keeps users header req (f (.error e)) := fun e => hf _ (by simp)
  unfold setOption
  split
  · refine fun r => ⟨guar_of_not_changes r id (by simp), fun _ => ?_⟩
    cases r with
    | none => exact herr _
    | some addresses =>
        refine hf _ fun opts' h => ?_
        cases h
        exact hopts
  · split
    · exact herr _
    · refine fun r => ⟨guar_of_not_changes r id (by simp), fun _ => hf _ fun opts' h => ?_⟩
      cases h
      exact hopts
  · exact herr _

theorem keeps_config (net : Net) (put : Bool) (opt : String) :
    Keeps users header req (doConfig semver dec net put opt req) := by
  refine keeps_getOpts fun opts _ => ?_
  split
  · exact safe_pure _
  · split
    · split
      · exact safe_pure _
      · refine keeps_getOpts fun opts hopts => keeps_setOption dec hopts fun r hr => ?_
        cases r with
        | error e => exact safe_pure _
        | ok opts' =>
            refine fun u => ⟨⟨fun h => absurd h id, fun o ho => ?_⟩, fun _ => keeps_configValue opt⟩
            cases ho
            exact hr opts' rfl
    · exact keeps_configValue opt

/-- **Every handler keeps to it.** -/
theorem serve_keeps (net : Net) : Keeps users header req (serve semver dec net req) := by
  unfold serve
  split
  · exact keeps_topics
  · exact keeps_createTopicChannel dec
  · exact keeps_topicChannelAction dec _ _
  · exact keeps_topicChannelAction dec _ _
  · exact keeps_tombstoneNodeForTopic dec _
  · exact keeps_deleteTopic _
  · exact keeps_deleteChannel _ _
  · exact keeps_config dec net _ _

/-! ### Every run -/

/-- What holds of the server in every run. -/
structure Server.Inv (users : List String) (header : String) (s : Server semver) : Prop where
  opts : s.opts.Kept users header
  keeps : ∀ r ∈ s.running, Keeps users header r.1 r.2.prog
  log : ∀ r ∈ s.running, ∀ e ∈ r.2.log, Guar users header r.1 e

/-- What the world answers through `withOpts` can be relied on. -/
theorem rely_withOpts {opts : Options} (h : opts.Kept users header) {world : World (Reply semver)}
    {e : Event (Reply semver)} (he : e.2 = withOpts opts world e.1) : Rely users header e := by
  obtain ⟨op, r⟩ := e
  cases op with
  | getOpts =>
      obtain rfl : r = opts := he
      exact h
  | cluster op => trivial
  | swapOpts opts' => trivial
  | readAddresses s => trivial
  | decodeAddresses s body => trivial
  | setLogLevel level => trivial
  | hostname => trivial
  | now => trivial
  | notify action => trivial

theorem world_answering {opts : Options} {act : Gather.Act (Reply semver)} {world : World (Reply semver)}
    (h : (answering opts act).world = some world) : ∃ world', world = withOpts opts world' := by
  cases act with
  | request world' => exact ⟨world', (Option.some.inj h).symm⟩
  | worker i world' => exact ⟨world', (Option.some.inj h).symm⟩
  | hand i => cases h
  | wait => cases h

theorem kept_stored {opts : Options} (h : opts.Kept users header) {es : List (Event (Reply semver))}
    (hes : ∀ e ∈ es, Guar users header req e) : (stored opts es).Kept users header := by
  induction es generalizing opts with
  | nil => exact h
  | cons e es ih =>
      have htail := fun e' he' => hes e' (List.mem_cons_of_mem _ he')
      unfold stored
      split
      · rename_i hnil
        cases hnil
      · rename_i opts' r es' hcons
        cases hcons
        exact ih ((hes _ List.mem_cons_self).2 _ rfl) htail
      · rename_i hcons
        cases hcons
        exact ih h htail

theorem step_inv {net : Net} {s s' : Server semver} {a : Act semver} (h : s.Inv users header)
    (hs : step dec net s a = some s') : s'.Inv users header := by
  cases a with
  | arrive req =>
      cases hs
      refine ⟨h.opts, fun r hr => ?_, fun r hr => ?_⟩
      · obtain hr | hr := List.mem_append.mp hr
        · exact h.keeps r hr
        · obtain rfl := List.mem_singleton.mp hr
          exact serve_keeps dec net
      · obtain hr | hr := List.mem_append.mp hr
        · exact h.log r hr
        · obtain rfl := List.mem_singleton.mp hr
          simp
  | go i act =>
      rw [step] at hs
      split at hs
      · cases hs
      · rename_i req st hget
        have hmem := List.mem_of_getElem? hget
        split at hs
        · cases hs
        · rename_i st' hst
          cases hs
          obtain ⟨es, hlog, hguar, hsafe⟩ := Safe.step (h.keeps _ hmem) hst
          obtain ⟨es', hlog', hworld⟩ := step_log hst
          obtain rfl : es = es' := List.append_cancel_left (hlog.symm.trans hlog')
          have hrely : ∀ e ∈ es, Rely users header e := fun e he => by
            obtain ⟨world, hw, he⟩ := hworld e he
            obtain ⟨world', rfl⟩ := world_answering hw
            exact rely_withOpts h.opts he
          refine ⟨?_, fun r hr => ?_, fun r hr => ?_⟩
          · rw [hlog, List.drop_left]
            exact kept_stored h.opts hguar
          · obtain hr | rfl := List.mem_or_eq_of_mem_set hr
            · exact h.keeps r hr
            · exact hsafe hrely
          · obtain hr | rfl := List.mem_or_eq_of_mem_set hr
            · exact h.log r hr
            · intro e he
              rw [hlog] at he
              exact (List.mem_append.mp he).elim (h.log _ hmem e) (hguar e)

end Safety

/-- **Only who may.** However many requests there are and however their handlers and the goroutines of
their queries interleave, also while others change the options, and whatever the cluster answers: neither
the users nor their header ever changes, and a request that has led to a change of the cluster, or to a
report of one, was authorized by the users and the header that the server started with. -/
theorem changes_authorized (semver : Semver) (dec : Decoders) (net : Net) (opts : Options)
    (acts : List (Act semver)) (s : Server semver)
    (hrun : run (step dec net) ⟨opts, []⟩ acts = some s) :
    s.opts.adminUsers = opts.adminUsers ∧ s.opts.aclHTTPHeader = opts.aclHTTPHeader ∧
      ∀ r ∈ s.running, (∃ e ∈ r.2.log, e.1.Changes) →
        Authorized opts.adminUsers opts.aclHTTPHeader r.1 := by
  have hstart : Server.Inv opts.adminUsers opts.aclHTTPHeader (⟨opts, []⟩ : Server semver) :=
    ⟨⟨rfl, rfl⟩, by simp, by simp⟩
  have h := invariant_run (fun _ _ _ h hs => step_inv dec h hs) acts _ _ hstart hrun
  refine ⟨h.opts.1, h.opts.2, ?_⟩
  rintro r hr ⟨e, he, hchanges⟩
  exact (h.log r hr e he).1 hchanges

/-- Only `root` may change anything. -/
def rootOptions : Options :=
  { newOptions with xmqdHTTPAddresses := ["n1:4151"], adminUsers := ["root"] }

/-- A user deletes a topic. -/
def deleteOrders (user : String) : Request where
  route := .deleteTopic "orders"
  header _ := user
  query := .error ""
  body := []
  bodyErr := false
  remoteAddr := "127.0.0.1:9"
  userAgent := ""
  url := ""

/-- A node with the topic, and no lookupds. -/
def ordersNode : World (Reply Lookupd.dottedSemver)
  | .cluster (.getTopics _) => .ok []
  | .cluster (.getChannels _) => .ok []
  | .cluster (.getProducers _) => .ok []
  | .cluster (.getInfo _) => .ok ⟨"1.0.0", "n1", "n1", 4151, 4150⟩
  | .cluster (.getStats _) => .ok ["orders"]
  | .cluster (.post _) => none
  | .getOpts => newOptions
  | .swapOpts _ => ()
  | .readAddresses _ => []
  | .decodeAddresses _ _ => none
  | .setLogLevel _ => ()
  | .hostname => ""
  | .now => 0
  | .notify _ => ()

def noDecoders : Decoders := ⟨.error ∘ fun _ => "", .error ∘ fun _ => "", .error ∘ fun _ => "", fun _ => ""⟩

def noNet : Net := ⟨Unit, Unit, fun _ => none, fun _ => none, fun _ _ => false⟩

/-- Two users at once; one gets as far as the node. -/
def twoUsers : List (Act Lookupd.dottedSemver) :=
  [.arrive (deleteOrders "root"), .arrive (deleteOrders "eve"), .go 0 (.request ordersNode),
    .go 1 (.request ordersNode), .go 1 (.request ordersNode)] ++
  List.replicate 4 (.go 0 (.request ordersNode)) ++
  [.go 0 (.worker 0 ordersNode), .go 0 (.worker 0 ordersNode), .go 0 (.hand 0), .go 0 .wait,
    .go 0 (.request ordersNode)]

theorem twoUsers_run : (run (step noDecoders noNet) ⟨rootOptions, []⟩ twoUsers).isSome := by
  decide

theorem changes_authorized_twoUsers : ∃ s : Server Lookupd.dottedSemver,
    run (step noDecoders noNet) ⟨rootOptions, []⟩ twoUsers = some s ∧
    s.opts.adminUsers = ["root"] ∧ s.opts.aclHTTPHeader = "X-Forwarded-User" ∧
      ∀ r ∈ s.running, (∃ e ∈ r.2.log, e.1.Changes) →
        Authorized ["root"] "X-Forwarded-User" r.1 := by
  obtain ⟨s, hs⟩ := Option.isSome_iff_exists.mp twoUsers_run
  exact ⟨s, hs, changes_authorized Lookupd.dottedSemver noDecoders noNet rootOptions twoUsers s hs⟩

end Xmq.Admin
