import Xmq.Authorizations
import Xmq.Frames
import Xmq.Handlers

/-!
# A V2 client

The connection of a client, its layers, and what `IDENTIFY` does to them. A writer is what its bytes
go to: the connection, TLS over it, or a compressor over one of the two. A reader is the bytes that
it has still to give, some of which sit in its buffer; a reader that takes its place starts behind
these.

* `World` is what else happens while a command runs: failures, what a new layer decodes, what the
  auth servers answer, and what becomes of calls to topics and channels.
* `identifySteps` are the parts of `IDENTIFY` between which a heartbeat may be sent.
* What only the message pump and the statistics read is left out.
-/

namespace Xmq.V2

/-! ### The client -/

inductive Sink where
  | conn
  | tls
  | snappy (overTLS : Bool)
  | deflate (overTLS : Bool)
  deriving DecidableEq

/-- The layers that an `IDENTIFY` can put over the connection. -/
inductive Layer where
  | tls
  | snappy
  | deflate
  deriving DecidableEq

/-- A frame, and what was negotiated when it was written. -/
structure Sent where
  sink : Sink
  frameType : Int32
  data : List UInt8
  tls : Bool
  snappy : Bool
  deflate : Bool
  deriving DecidableEq

inductive ClientState where
  | init
  | subscribed
  | closing
  deriving DecidableEq

/-- What a client tells the auth server. -/
structure AuthQuery where
  remoteIP : String
  tlsEnabled : Bool
  commonName : String
  secret : List UInt8

/-- What a command has done outside of the client. `obtained` is an answer of the auth server that
was accepted, and `reached` the first call to a topic, with the authorizations and the clock as they
were last looked at. -/
inductive Effect where
  | obtained (query : AuthQuery) (state : Auth.State)
  | reached (topic channel : List UInt8) (auth : Option Auth.State) (clock : ℤ)
  | subscribed (topic channel : List UInt8)
  | put (topic : List UInt8) (bodies : List (List UInt8)) (deferred : Int64)
  | finish (channel : List UInt8 × List UInt8) (id : List UInt8)
  | requeue (channel : List UInt8 × List UInt8) (id : List UInt8) (timeout : Int64)
  | touch (channel : List UInt8 × List UInt8) (id : List UInt8) (msgTimeout : ℤ)

structure ClientV2 where
  reader : List UInt8
  buffered : ℕ
  writer : Sink
  tlsConn : Bool
  flateWriter : Option Bool
  outputBufferSize : ℤ
  outputBufferTimeout : ℤ
  heartbeatInterval : ℤ
  msgTimeout : ℤ
  sampleRate : ℤ
  tls : Bool
  snappy : Bool
  deflate : Bool
  state : ClientState
  channel : Option (List UInt8 × List UInt8)
  readyCount : Int64
  authSecret : List UInt8
  authState : Option Auth.State
  /-- When the authorizations were last looked at. -/
  clock : ℤ
  sent : List Sent
  effects : List Effect

def millisecond : ℤ := 1000000

/-- Durations are in nanoseconds. -/
structure Options where
  clientTimeout : ℤ
  outputBufferTimeout : ℤ
  msgTimeout : ℤ
  maxHeartbeatInterval : ℤ
  minOutputBufferTimeout : ℤ
  maxOutputBufferTimeout : ℤ
  maxOutputBufferSize : ℤ
  maxMsgTimeout : ℤ
  maxMsgSize : ℤ
  maxBodySize : ℤ
  maxRdyCount : Int64
  maxReqTimeout : Int64
  deflateEnabled : Bool
  maxDeflateLevel : ℤ
  snappyEnabled : Bool
  tlsRequired : Bool
  tlsConfig : Bool
  authHTTPAddresses : List String

/-- `NewOptions`: no TLS and no auth server. -/
def newOptions : Options where
  clientTimeout := 60000 * millisecond
  outputBufferTimeout := 250 * millisecond
  msgTimeout := 60000 * millisecond
  maxHeartbeatInterval := 60000 * millisecond
  minOutputBufferTimeout := 25 * millisecond
  maxOutputBufferTimeout := 30000 * millisecond
  maxOutputBufferSize := 64 * 1024
  maxMsgTimeout := 900000 * millisecond
  maxMsgSize := 1024 * 1024
  maxBodySize := 5 * 1024 * 1024
  maxRdyCount := 2500
  maxReqTimeout := 3600000000000
  deflateEnabled := true
  maxDeflateLevel := 6
  snappyEnabled := true
  tlsRequired := false
  tlsConfig := false
  authHTTPAddresses := []

def defaultBufferSize : ℕ := 16 * 1024

def newClientV2 (opts : Options) (conn : List UInt8) : ClientV2 where
  reader := conn
  buffered := 0
  writer := .conn
  tlsConn := false
  flateWriter := none
  outputBufferSize := defaultBufferSize
  outputBufferTimeout := opts.outputBufferTimeout
  heartbeatInterval := opts.clientTimeout.tdiv 2
  msgTimeout := opts.msgTimeout
  sampleRate := 0
  tls := false
  snappy := false
  deflate := false
  state := .init
  channel := none
  readyCount := 0
  authSecret := []
  authState := none
  clock := 0
  sent := []
  effects := []

structure IdentifyData where
  heartbeatInterval : ℤ
  outputBufferSize : ℤ
  outputBufferTimeout : ℤ
  featureNegotiation : Bool
  tlsv1 : Bool
  deflate : Bool
  deflateLevel : ℤ
  snappy : Bool
  sampleRate : ℤ
  msgTimeout : ℤ

/-- The response to an `IDENTIFY` that negotiates features. -/
structure IdentifyResponse where
  maxRdyCount : Int64
  maxMsgTimeout : ℤ
  msgTimeout : ℤ
  tlsv1 : Bool
  deflate : Bool
  deflateLevel : ℤ
  maxDeflateLevel : ℤ
  snappy : Bool
  sampleRate : ℤ
  authRequired : Bool
  outputBufferSize : ℤ
  outputBufferTimeout : ℤ

structure AuthResponse where
  identity : String
  identityURL : String
  permissionCount : ℕ

/-- `json`, `regexp` and the quotation of `%q`. -/
structure Libs where
  unmarshalIdentify : List UInt8 → Except String IdentifyData
  marshalIdentify : IdentifyResponse → List UInt8
  marshalAuth : AuthResponse → List UInt8
  quote : List UInt8 → List UInt8
  regexp : Auth.Regexp

/-- Bytes without structure: no JSON is read, and every pattern matches. -/
def Libs.plain : Libs where
  unmarshalIdentify _ := .error "unexpected end of JSON input"
  marshalIdentify _ := []
  marshalAuth _ := []
  quote bytes := bytes
  regexp := ⟨fun _ => none, fun _ _ => true, fun s => s⟩

/-- One round of the loop of `SUB`: whether `GetTopic` and `GetChannel` return something, the error of
`AddClient`, and whether the topic or channel is ephemeral and exiting. -/
structure SubRound where
  topic : Bool
  channel : Bool
  addClient : GoError
  exiting : Bool

structure World where
  sendErr : ℕ → GoError
  flushErr : GoError
  handshake : GoError
  buffered : ℕ
  decode : Layer → List UInt8 → List UInt8
  remoteIP : Except String String
  commonName : String
  authd : AuthQuery → String → Except String Auth.Answer
  start : ℕ
  nowCheck : ℤ
  nowQuery : ℤ
  topic : Bool
  sub : ℕ → SubRound
  putErr : GoError
  channelErr : GoError

/-- Nothing fails, and no auth server answers. -/
def World.calm : World where
  sendErr _ := none
  flushErr := none
  handshake := none
  buffered := 0
  decode _ bytes := bytes
  remoteIP := .ok "127.0.0.1"
  commonName := ""
  authd _ _ := .error "connection refused"
  start := 0
  nowCheck := 0
  nowQuery := 0
  topic := true
  sub _ := ⟨true, true, none, false⟩
  putErr := none
  channelErr := none

/-! ### Errors -/

/-- The bytes of an ASCII text. -/
def text (s : String) : List UInt8 := s.toList.map fun c => UInt8.ofNat c.toNat

/-- `ClientErr`, or `FatalClientErr`, which ends the connection. -/
structure ProtocolErr where
  fatal : Bool
  code : String
  desc : List UInt8
  deriving DecidableEq

/-- `Error`. -/
def ProtocolErr.error (e : ProtocolErr) : List UInt8 := text e.code ++ text " " ++ e.desc

inductive Panic where
  | nilTopic
  | nilChannel
  | nilAuthState
  | mustCompile
  | clientChannel
  deriving DecidableEq

inductive Fail where
  | protocol (e : ProtocolErr)
  | panic (p : Panic)
  deriving DecidableEq

abbrev Handler (α : Type) := EStateM Fail ClientV2 α

def newFatalClientErr (code : String) (desc : List UInt8) : Fail := .protocol ⟨true, code, desc⟩

def newClientErr (code : String) (desc : List UInt8) : Fail := .protocol ⟨false, code, desc⟩

/-- An error of `Identify`, as `IDENTIFY` reports it. -/
def badIdentify (err : String) : Fail := newFatalClientErr "E_BAD_BODY" (text s!"IDENTIFY {err}")

def identifyFailed (err : String) : Fail :=
  newFatalClientErr "E_IDENTIFY_FAILED" (text s!"IDENTIFY failed {err}")

/-! ### Writing -/

/-- The frame goes to the writer of this moment. -/
def ClientV2.write (c : ClientV2) (frameType : Int32) (data : List UInt8) : ClientV2 :=
  { c with sent := c.sent ++ [⟨c.writer, frameType, data, c.tls, c.snappy, c.deflate⟩] }

/-- `Send`. -/
def send (w : World) (frameType : Int32) (data : List UInt8) : Handler GoError := do
  let c ← get
  modify fun c => c.write frameType data
  pure (w.sendErr c.sent.length)

/-! ### Settings -/

def setHeartbeatInterval (opts : Options) (desiredInterval : ℤ) : Handler PUnit :=
  if desiredInterval = -1 then modify fun c => { c with heartbeatInterval := 0 }
  else if desiredInterval = 0 then pure ⟨⟩
  else if 1000 ≤ desiredInterval ∧
      desiredInterval ≤ opts.maxHeartbeatInterval.tdiv millisecond then
    modify fun c => { c with heartbeatInterval := desiredInterval * millisecond }
  else throw (badIdentify s!"heartbeat interval ({desiredInterval}) is invalid")

/-- The first switch of `SetOutputBuffer`. -/
def setOutputBufferTimeout (opts : Options) (desiredTimeout : ℤ) : Handler PUnit :=
  if desiredTimeout = -1 then modify fun c => { c with outputBufferTimeout := 0 }
  else if desiredTimeout = 0 then pure ⟨⟩
  else if opts.minOutputBufferTimeout.tdiv millisecond ≤ desiredTimeout ∧
      desiredTimeout ≤ opts.maxOutputBufferTimeout.tdiv millisecond then
    modify fun c => { c with outputBufferTimeout := desiredTimeout * millisecond }
  else throw (badIdentify s!"output buffer timeout ({desiredTimeout}) is invalid")

/-- The second switch. -/
def setOutputBufferSize (opts : Options) (desiredSize : ℤ) : Handler PUnit :=
  if desiredSize = -1 then
    modify fun c => { c with outputBufferSize := 1, outputBufferTimeout := 0 }
  else if desiredSize = 0 then pure ⟨⟩
  else if 64 ≤ desiredSize ∧ desiredSize ≤ opts.maxOutputBufferSize then
    modify fun c => { c with outputBufferSize := desiredSize }
  else throw (badIdentify s!"output buffer size ({desiredSize}) is invalid")

/-- A new writer on `c.Conn`. -/
def rebuildWriter (w : World) (desiredSize : ℤ) : Handler PUnit :=
  if desiredSize ≠ 0 then
    match w.flushErr with
    | some err => throw (badIdentify err)
    | none => modify fun c => { c with writer := .conn }
  else pure ⟨⟩

def setOutputBuffer (opts : Options) (w : World) (desiredSize desiredTimeout : ℤ) :
    Handler PUnit := do
  setOutputBufferTimeout opts desiredTimeout
  setOutputBufferSize opts desiredSize
  rebuildWriter w desiredSize

def setSampleRate (sampleRate : ℤ) : Handler PUnit :=
  if sampleRate < 0 ∨ 99 < sampleRate then
    throw (badIdentify s!"sample rate ({sampleRate}) is invalid")
  else modify fun c => { c with sampleRate := sampleRate }

def setMsgTimeout (opts : Options) (msgTimeout : ℤ) : Handler PUnit :=
  if msgTimeout = 0 then pure ⟨⟩
  else if 1000 ≤ msgTimeout ∧ msgTimeout ≤ opts.maxMsgTimeout.tdiv millisecond then
    modify fun c => { c with msgTimeout := msgTimeout * millisecond }
  else throw (badIdentify s!"msg timeout ({msgTimeout}) is invalid")

/-! ### Layers -/

/-- A new reader decodes what comes after the buffer of the old one. -/
def ClientV2.decoded (c : ClientV2) (w : World) (layer : Layer) : ClientV2 :=
  { c with reader := w.decode layer (c.reader.drop c.buffered), buffered := 0 }

def upgradeTLS (w : World) : Handler PUnit :=
  match w.handshake with
  | some err => throw (identifyFailed err)
  | none => modify fun c => { c.decoded w .tls with tlsConn := true, writer := .tls, tls := true }

def upgradeDeflate (w : World) : Handler PUnit :=
  modify fun c =>
    { c.decoded w .deflate with
      flateWriter := some c.tlsConn, writer := .deflate c.tlsConn, deflate := true }

def upgradeSnappy (w : World) : Handler PUnit :=
  modify fun c => { c.decoded w .snappy with writer := .snappy c.tlsConn, snappy := true }

/-! ### `IDENTIFY` -/

inductive IdentifyStep where
  | setHeartbeatInterval (desiredInterval : ℤ)
  | setOutputBuffer (desiredSize desiredTimeout : ℤ)
  | setSampleRate (sampleRate : ℤ)
  | setMsgTimeout (msgTimeout : ℤ)
  | cannotEnableBoth
  | respond (tlsv1 deflate snappy : Bool) (deflateLevel : ℤ)
  | upgradeTLS
  | upgradeSnappy
  | upgradeDeflate
  | respondOK
  deriving DecidableEq

/-- The features that are negotiated. -/
def featureSteps (opts : Options) (data : IdentifyData) : List IdentifyStep :=
  let tlsv1 := opts.tlsConfig && data.tlsv1
  let deflate := opts.deflateEnabled && data.deflate
  let wanted := if deflate && 0 < data.deflateLevel then data.deflateLevel else 6
  let deflateLevel := if opts.maxDeflateLevel < wanted then opts.maxDeflateLevel else wanted
  let snappy := opts.snappyEnabled && data.snappy
  if deflate && snappy then [.cannotEnableBoth]
  else
    [.respond tlsv1 deflate snappy deflateLevel] ++
      (if tlsv1 then [.upgradeTLS, .respondOK] else []) ++
      (if snappy then [.upgradeSnappy, .respondOK] else []) ++
      (if deflate then [.upgradeDeflate, .respondOK] else [])

/-- `Identify`, and the features. -/
def identifySteps (opts : Options) (data : IdentifyData) : List IdentifyStep :=
  [.setHeartbeatInterval data.heartbeatInterval,
    .setOutputBuffer data.outputBufferSize data.outputBufferTimeout,
    .setSampleRate data.sampleRate, .setMsgTimeout data.msgTimeout] ++
    if data.featureNegotiation then featureSteps opts data else []

def okBytes : List UInt8 := text "OK"

/-- A response whose failure ends the `IDENTIFY`. -/
def identifySend (w : World) (data : List UInt8) : Handler PUnit := do
  let err ← send w frameTypeResponse data
  match err with
  | some err => throw (identifyFailed err)
  | none => pure ⟨⟩

def isAuthEnabled (opts : Options) : Bool := !opts.authHTTPAddresses.isEmpty

def identifyStep (libs : Libs) (opts : Options) (w : World) : IdentifyStep → Handler PUnit
  | .setHeartbeatInterval n => setHeartbeatInterval opts n
  | .setOutputBuffer size timeout => setOutputBuffer opts w size timeout
  | .setSampleRate n => setSampleRate n
  | .setMsgTimeout n => setMsgTimeout opts n
  | .cannotEnableBoth => throw (newFatalClientErr "E_IDENTIFY_FAILED"
      (text "cannot enable both deflate and snappy compression"))
  | .respond tlsv1 deflate snappy deflateLevel => do
    let c ← get
    identifySend w (libs.marshalIdentify
      { maxRdyCount := opts.maxRdyCount
        maxMsgTimeout := opts.maxMsgTimeout.tdiv millisecond
        msgTimeout := c.msgTimeout.tdiv millisecond
        tlsv1 := tlsv1
        deflate := deflate
        deflateLevel := deflateLevel
        maxDeflateLevel := opts.maxDeflateLevel
        snappy := snappy
        sampleRate := c.sampleRate
        authRequired := isAuthEnabled opts
        outputBufferSize := c.outputBufferSize
        outputBufferTimeout := c.outputBufferTimeout.tdiv millisecond })
  | .upgradeTLS => upgradeTLS w
  | .upgradeSnappy => upgradeSnappy w
  | .upgradeDeflate => upgradeDeflate w
  | .respondOK => identifySend w okBytes

/-! ### What a setting changes -/

/-- An error that ends the connection. -/
def Fail.Fatal (e : Fail) : Prop := ∃ code desc, e = newFatalClientErr code desc

/-- Only the settings differ. -/
def SameButSettings (c c' : ClientV2) : Prop :=
  ∃ heartbeatInterval outputBufferSize outputBufferTimeout sampleRate msgTimeout, c' =
    { c with
      heartbeatInterval := heartbeatInterval
      outputBufferSize := outputBufferSize
      outputBufferTimeout := outputBufferTimeout
      sampleRate := sampleRate
      msgTimeout := msgTimeout }

theorem SameButSettings.refl (c : ClientV2) : SameButSettings c c := ⟨_, _, _, _, _, rfl⟩

section Settings

variable {opts : Options}

/-- A setting is left, changed, or refused. -/
theorem badIdentify_fatal (err : String) : (badIdentify err).Fatal := ⟨_, _, rfl⟩

theorem preserves_setHeartbeatInterval (n : ℤ) :
    Preserves SameButSettings Fail.Fatal (setHeartbeatInterval opts n) := by
  refine preserves_ite (preserves_modify fun _ => ⟨_, _, _, _, _, rfl⟩) ?_
  refine preserves_ite (preserves_pure .refl _) ?_
  exact preserves_ite (preserves_modify fun _ => ⟨_, _, _, _, _, rfl⟩)
    (preserves_throw .refl (badIdentify_fatal _))

theorem preserves_setOutputBufferTimeout (n : ℤ) :
    Preserves SameButSettings Fail.Fatal (setOutputBufferTimeout opts n) := by
  refine preserves_ite (preserves_modify fun _ => ⟨_, _, _, _, _, rfl⟩) ?_
  refine preserves_ite (preserves_pure .refl _) ?_
  exact preserves_ite (preserves_modify fun _ => ⟨_, _, _, _, _, rfl⟩)
    (preserves_throw .refl (badIdentify_fatal _))

theorem preserves_setOutputBufferSize (n : ℤ) :
    Preserves SameButSettings Fail.Fatal (setOutputBufferSize opts n) := by
  refine preserves_ite (preserves_modify fun _ => ⟨_, _, _, _, _, rfl⟩) ?_
  refine preserves_ite (preserves_pure .refl _) ?_
  exact preserves_ite (preserves_modify fun _ => ⟨_, _, _, _, _, rfl⟩)
    (preserves_throw .refl (badIdentify_fatal _))

theorem preserves_setSampleRate (n : ℤ) :
    Preserves SameButSettings Fail.Fatal (setSampleRate n) :=
  preserves_ite (preserves_throw .refl (badIdentify_fatal _))
    (preserves_modify fun _ => ⟨_, _, _, _, _, rfl⟩)

theorem preserves_setMsgTimeout (n : ℤ) :
    Preserves SameButSettings Fail.Fatal (setMsgTimeout opts n) := by
  refine preserves_ite (preserves_pure .refl _) ?_
  exact preserves_ite (preserves_modify fun _ => ⟨_, _, _, _, _, rfl⟩)
    (preserves_throw .refl (badIdentify_fatal _))

end Settings

/-- A relation that a part of `IDENTIFY` preserves. -/
structure Frame (w : World) (i : IdentifyStep) (R : ClientV2 → ClientV2 → Prop) : Prop where
  refl : ∀ c, R c c
  trans : ∀ c₁ c₂ c₃, R c₁ c₂ → R c₂ c₃ → R c₁ c₃
  settings : ∀ c c', SameButSettings c c' → R c c'
  rebuild : ∀ c : ClientV2, R c { c with writer := .conn }
  write : ∀ c frameType data, R c (c.write frameType data)
  tls : i = .upgradeTLS → ∀ c,
    R c { c.decoded w .tls with tlsConn := true, writer := .tls, tls := true }
  snappy : i = .upgradeSnappy → ∀ c,
    R c { c.decoded w .snappy with writer := .snappy c.tlsConn, snappy := true }
  deflate : i = .upgradeDeflate → ∀ c,
    R c { c.decoded w .deflate with
      flateWriter := some c.tlsConn, writer := .deflate c.tlsConn, deflate := true }

section Frame

variable {opts : Options} {w : World} {i : IdentifyStep} {R : ClientV2 → ClientV2 → Prop}

theorem Frame.send (h : Frame w i R) (data : List UInt8) :
    Preserves R Fail.Fatal (identifySend w data) := by
  refine preserves_bind h.trans ?_ fun err => ?_
  · refine preserves_bind h.trans (preserves_get h.refl) fun c => ?_
    refine preserves_bind h.trans (preserves_modify fun c => h.write c _ _) fun _ => ?_
    exact preserves_pure h.refl _
  · cases err with
    | none => exact preserves_pure h.refl _
    | some err => exact preserves_throw h.refl ⟨_, _, rfl⟩

theorem Frame.setOutputBuffer (h : Frame w i R) (desiredSize desiredTimeout : ℤ) :
    Preserves R Fail.Fatal (setOutputBuffer opts w desiredSize desiredTimeout) := by
  refine preserves_bind h.trans ((preserves_setOutputBufferTimeout _).mono h.settings fun _ h => h)
    fun _ => ?_
  refine preserves_bind h.trans ((preserves_setOutputBufferSize _).mono h.settings fun _ h => h)
    fun _ => ?_
  refine preserves_ite ?_ (preserves_pure h.refl _)
  cases w.flushErr with
  | none => exact preserves_modify h.rebuild
  | some err => exact preserves_throw h.refl (badIdentify_fatal _)

/-- **Parts of `IDENTIFY`.** Whether they succeed or fail, they preserve what all changes do. -/
theorem Frame.identifyStep (h : Frame w i R) (libs : Libs) :
    Preserves R Fail.Fatal (identifyStep libs opts w i) := by
  cases i with
  | setHeartbeatInterval n => exact (preserves_setHeartbeatInterval n).mono h.settings fun _ h => h
  | setOutputBuffer desiredSize desiredTimeout => exact h.setOutputBuffer _ _
  | setSampleRate n => exact (preserves_setSampleRate n).mono h.settings fun _ h => h
  | setMsgTimeout n => exact (preserves_setMsgTimeout n).mono h.settings fun _ h => h
  | cannotEnableBoth => exact preserves_throw h.refl ⟨_, _, rfl⟩
  | respond tlsv1 deflate snappy deflateLevel =>
      exact preserves_bind h.trans (preserves_get h.refl) fun c => h.send _
  | upgradeTLS =>
      show Preserves R Fail.Fatal (upgradeTLS w)
      rw [upgradeTLS]
      cases w.handshake with
      | none => exact preserves_modify (h.tls rfl)
      | some err => exact preserves_throw h.refl ⟨_, _, rfl⟩
  | upgradeSnappy => exact preserves_modify (h.snappy rfl)
  | upgradeDeflate => exact preserves_modify (h.deflate rfl)
  | respondOK => exact h.send _

end Frame

end Xmq.V2
