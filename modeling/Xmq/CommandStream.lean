import Xmq.ProtocolV2
import Xmq.Runs

/-!
# The command stream

After a command that leaves the connection open the reader stands behind the command and its body,
on the first byte of the next one. Two commands break this. `MPUB` reads its messages without a look
at the length it was given, and `IDENTIFY` throws away what the old reader has buffered when it puts
a layer over the connection.

* `command_stream` is about every run of the loop, and about the binary mode of `/mpub`, which reads
  its messages with the same function and knows no more than the length of the request, if that.
-/

namespace Xmq.V2

open BigEndian

/-! ### Publishing over HTTP -/

structure HTTPErr where
  code : ℕ
  text : String

inductive HTTPFail where
  | err (e : HTTPErr)
  | panic (p : Panic)

/-- A request to `/mpub` in binary mode: `net/http` gives a body no longer than its declared length,
which a chunked request does not have. `topic` is what `getTopicFromQuery` returns: an error, or
whether there is a topic. -/
structure PublishRequest where
  contentLength : Option ℕ
  body : List UInt8
  topic : Except HTTPErr Bool
  bounded : ∀ n ∈ contentLength, body.length ≤ n

/-- `doMPUB` in binary mode, with the messages that it publishes. -/
def doMPUBBinary (opts : Options) (putErr : GoError) (req : PublishRequest) :
    Except HTTPFail (List (List UInt8)) :=
  if req.contentLength.any fun n => decide (opts.maxBodySize < n) then
    .error (.err ⟨413, "BODY_TOO_BIG"⟩)
  else
    match req.topic with
    | .error e => .error (.err e)
    | .ok topic =>
      match readMPUB topic opts.maxMsgSize opts.maxBodySize req.body with
      | .error (.protocol e) _ => .error (.err ⟨413, (e.code.drop 2).toString⟩)
      | .error (.panic p) _ => .error (.panic p)
      | .ok messages _ =>
        match putErr with
        | some _ => .error (.err ⟨503, "EXITING"⟩)
        | none => .ok messages

/-! ### Synchronisation -/

/-- The commands that a body follows. -/
def Command.hasBody : Command → Bool
  | identify | auth | pub | mpub | dpub => true
  | fin | rdy | req | nop | touch | sub | cls => false

/-- What `MPUB` has accepted has the declared length, which is not above the limit. -/
def Counted (opts : Options) (effects : List Effect) (b : List UInt8) : Prop :=
  ∃ topic messages, effects.getLast? = some (.put topic messages 0) ∧
    4 + (messages.map fun body => 4 + body.length).sum = b.length ∧
      (b.length : ℤ) ≤ opts.maxBodySize

/-- From its line on, the command has read no more and no less than its body, and `rest` is behind
it. Only `IDENTIFY` puts layers over `rest`. -/
structure Consumed (opts : Options) (w : World) (k : Command) (c c' : ClientV2)
    (rest : List UInt8) : Prop where
  nothing : k.hasBody = false → c.reader = rest
  body : k.hasBody = true → ∃ b, c.reader = framed b ++ rest ∧
    (k = .mpub → Counted opts c'.effects b)
  next : ∃ layers : List Layer, c'.reader = layers.foldl (fun r layer => w.decode layer r) rest ∧
    (k ≠ .identify → layers = [])

/-- A round that leaves the connection open reads a line and what belongs to its command. -/
def InSync (libs : Libs) (opts : Options) (s : Conn) (w : World) : Prop :=
  ∀ s' ∈ ioLoop libs opts s w, s'.status = .reading →
    ∃ line r k rest, s.client.reader = line ++ 10 :: r ∧ (10 : UInt8) ∉ line ∧
      commandOf (splitParams line) = some k ∧
        Consumed opts w k { s.client with reader := r } s'.client rest

/-! ### The condition -/

/-- Where there is a length and the body of an `MPUB` that is acceptable, they agree. -/
def LengthsAgree (opts : Options) (bytes : List UInt8) : Prop :=
  ∀ n messages tail, n < 2 ^ 31 → Acceptable opts.maxMsgSize opts.maxBodySize messages →
    bytes = toBytes 4 n ++ (mpubBytes messages ++ tail) → (mpubBytes messages).length = n

/-- The layer that a part of `IDENTIFY` puts over the connection. -/
def IdentifyStep.layer : IdentifyStep → Option Layer
  | .upgradeTLS => some .tls
  | .upgradeSnappy => some .snappy
  | .upgradeDeflate => some .deflate
  | .setHeartbeatInterval _ | .setOutputBuffer _ _ | .setSampleRate _ | .setMsgTimeout _
  | .cannotEnableBoth | .respond _ _ _ _ | .respondOK => none

/-- Nothing is buffered behind an `IDENTIFY` that negotiates a layer. -/
def NothingBuffered (libs : Libs) (opts : Options) (w : World) (bytes : List UInt8) : Prop :=
  ∀ body tail data, bytes = framed body ++ tail → libs.unmarshalIdentify body = .ok data →
    w.buffered = 0 ∨ ∀ i ∈ identifySteps opts data, i.layer = none

/-- The condition for a round, on the bytes behind its line. -/
def Agrees (libs : Libs) (opts : Options) (s : Conn) (w : World) : Prop :=
  ∀ line r, readSlice s.client.reader = some (line, r) →
    (commandOf (splitParams line) = some .mpub → LengthsAgree opts r) ∧
      (commandOf (splitParams line) = some .identify → NothingBuffered libs opts w r)

/-- The condition for a request: it has a length, or its messages are not too long together. -/
def PublishRequest.Limited (opts : Options) (req : PublishRequest) : Prop :=
  req.topic = .ok true → req.contentLength = none → ∀ messages tail,
    Acceptable opts.maxMsgSize opts.maxBodySize messages → req.body = mpubBytes messages ++ tail →
      ((mpubBytes messages).length : ℤ) ≤ opts.maxBodySize

/-! ### Commands that read nothing more -/

/-- Errors and panics that end the connection. -/
def Fail.Ends : Fail → Prop
  | .protocol e => e.fatal = true
  | .panic _ => True

theorem Fail.Fatal.ends {e : Fail} (h : e.Fatal) : e.Ends := by
  obtain ⟨_, _, rfl⟩ := h
  exact rfl

theorem Fail.FatalOrNoTopic.ends {e : Fail} (h : e.FatalOrNoTopic) : e.Ends := by
  rcases h with h | rfl
  · exact h.ends
  · exact trivial

def SameReader (c c' : ClientV2) : Prop := c'.reader = c.reader

theorem SameReader.refl (c : ClientV2) : SameReader c c := rfl

theorem SameReader.trans (c₁ c₂ c₃ : ClientV2) (h : SameReader c₁ c₂) (h' : SameReader c₂ c₃) :
    SameReader c₁ c₃ :=
  Eq.trans h' h

section Nothing

variable {libs : Libs} {opts : Options} {w : World} {E : Fail → Prop} {α β : Type}

theorem reads_bind {m : Handler α} {f : α → Handler β} (hm : Preserves SameReader E m)
    (hf : ∀ a, Preserves SameReader E (f a)) : Preserves SameReader E (m >>= f) :=
  preserves_bind .trans hm hf

theorem reads_pure (a : α) : Preserves SameReader E (pure a : Handler α) :=
  preserves_pure .refl a

theorem reads_throw {e : Fail} (he : E e) : Preserves SameReader E (throw e : Handler α) :=
  preserves_throw .refl he

theorem reads_get : Preserves SameReader E (get : Handler ClientV2) := preserves_get .refl

theorem reads_modify {f : ClientV2 → ClientV2} (hf : ∀ c, (f c).reader = c.reader) :
    Preserves SameReader E (modify f : Handler PUnit) :=
  preserves_modify hf

theorem reads_rejectIf {p : Prop} [Decidable p] {e : Fail} (he : E e) :
    Preserves SameReader E (rejectIf p e : Handler PUnit) :=
  preserves_rejectIf .refl he

theorem queryAuthd_reads : Preserves SameReader E (queryAuthd libs opts w) := by
  refine reads_bind reads_get fun c => ?_
  cases c.queryAnyAuthd libs opts w with
  | error err =>
      cases err with
      | none => exact reads_bind (reads_modify fun _ => rfl) fun _ => reads_pure _
      | some err => exact reads_pure _
  | ok r => exact reads_bind (reads_modify fun _ => rfl) fun _ => reads_pure _

theorem isAuthorized_reads (topic channel : List UInt8) :
    Preserves SameReader Fail.Ends (isAuthorized libs opts w topic channel) := by
  refine reads_bind reads_get fun c => ?_
  cases c.authState with
  | none => exact reads_pure _
  | some a =>
      refine reads_bind ?_ fun err => ?_
      · refine reads_bind (reads_modify fun _ => rfl) fun _ => ?_
        refine preserves_ite ?_ (reads_pure _)
        exact reads_bind (reads_modify fun _ => rfl) fun _ => queryAuthd_reads
      · cases err with
        | some err => exact reads_pure _
        | none =>
            refine reads_bind (reads_bind reads_get fun c => ?_) fun ok => reads_pure _
            cases c.authState with
            | none => exact reads_throw trivial
            | some a =>
                cases h : a.isAllowed libs.regexp topic channel with
                | none =>
                    simp only [h]
                    exact reads_throw trivial
                | some ok =>
                    simp only [h]
                    exact reads_pure _

theorem checkAuth_reads (cmd : String) (topic channel : List UInt8) :
    Preserves SameReader Fail.Ends (checkAuth libs opts w cmd topic channel) := by
  refine preserves_ite ?_ (reads_pure _)
  refine reads_bind reads_get fun c => reads_bind (reads_rejectIf rfl) fun _ => ?_
  refine reads_bind (isAuthorized_reads topic channel) fun ok => ?_
  cases ok with
  | error err => exact reads_throw rfl
  | ok ok => exact reads_rejectIf rfl

/-- A command without a body: whether it fails or not, it reads nothing. -/
def NoBody (m : Handler Response) : Prop := Preserves SameReader (fun _ => True) m

theorem subRound_reads (r : SubRound) : Preserves SameReader (fun _ => True) (subRound r) := by
  refine reads_bind (reads_rejectIf trivial) fun _ => ?_
  refine reads_bind (reads_rejectIf trivial) fun _ => ?_
  cases r.addClient with
  | none => exact reads_pure _
  | some err => exact reads_throw trivial

theorem sub_noBody (params : List (List UInt8)) : NoBody (sub libs opts w params) := by
  refine reads_bind reads_get fun c => reads_bind (reads_rejectIf trivial) fun _ => ?_
  refine reads_bind (reads_rejectIf trivial) fun _ => ?_
  refine reads_bind (reads_rejectIf trivial) fun _ => ?_
  refine reads_bind (reads_rejectIf trivial) fun _ => ?_
  refine reads_bind (reads_rejectIf trivial) fun _ => ?_
  refine reads_bind ((checkAuth_reads _ _ _).mono (fun _ _ h => h) fun _ _ => trivial) fun _ => ?_
  refine reads_bind (reads_modify fun _ => rfl) fun _ => ?_
  refine reads_bind ?_ fun _ => reads_bind (reads_modify fun _ => rfl) fun _ => reads_pure _
  refine reads_bind (subRound_reads _) fun again => preserves_ite ?_ (reads_pure _)
  exact reads_bind (subRound_reads _) fun _ => reads_rejectIf trivial

theorem rdy_noBody (params : List (List UInt8)) : NoBody (rdy opts params) := by
  refine reads_bind reads_get fun c => preserves_ite (reads_pure _) ?_
  refine reads_bind (reads_rejectIf trivial) fun _ => ?_
  cases readyParam params with
  | error param => exact reads_throw trivial
  | ok count =>
      refine reads_bind (reads_rejectIf trivial) fun _ => ?_
      exact reads_bind (reads_modify fun _ => rfl) fun _ => reads_pure _

theorem cls_noBody : NoBody cls := by
  refine reads_bind reads_get fun c => reads_bind (reads_rejectIf trivial) fun _ => ?_
  exact reads_bind (reads_modify fun _ => rfl) fun _ => reads_pure _

theorem nop_noBody : NoBody nop := reads_pure _

theorem rejectState_reads (cmd : String) (atLeast : ℕ) (params : List (List UInt8)) :
    Preserves SameReader (fun _ => True) (rejectState cmd atLeast params) :=
  reads_bind reads_get fun _ => reads_bind (reads_rejectIf trivial) fun _ => reads_rejectIf trivial

theorem onChannel_noBody (cmd : String) (id : List UInt8)
    (call : ClientV2 → List UInt8 × List UInt8 → Effect) : NoBody (onChannel w cmd id call) := by
  refine reads_bind reads_get fun c => ?_
  cases c.channel with
  | none => exact reads_throw trivial
  | some channel =>
      refine reads_bind (reads_modify fun _ => rfl) fun _ => ?_
      cases w.channelErr with
      | none => exact reads_pure _
      | some err => exact reads_throw trivial

theorem fin_noBody (params : List (List UInt8)) : NoBody (fin w params) := by
  refine reads_bind (rejectState_reads _ _ _) fun _ => ?_
  exact reads_bind (reads_rejectIf trivial) fun _ => onChannel_noBody _ _ _

theorem req_noBody (params : List (List UInt8)) : NoBody (req opts w params) := by
  refine reads_bind (rejectState_reads _ _ _) fun _ => ?_
  refine reads_bind (reads_rejectIf trivial) fun _ => ?_
  cases byteToBase10 (params.getD 2 []) with
  | error err => exact reads_throw trivial
  | ok timeoutMs => exact onChannel_noBody _ _ _

theorem touch_noBody (params : List (List UInt8)) : NoBody (touch w params) := by
  refine reads_bind (rejectState_reads _ _ _) fun _ => ?_
  exact reads_bind (reads_rejectIf trivial) fun _ => onChannel_noBody _ _ _

end Nothing

/-! ### Commands with a body -/

section Bodies

variable {libs : Libs} {opts : Options} {w : World} {c : ClientV2}

/-- What is left to do after a body was read leaves the reader alone. -/
theorem consumed_of_body {k : Command} {c₁ c' : ClientV2} {b rest : List UInt8}
    (hk : k.hasBody = true) (hmpub : k ≠ .mpub) (hread : c.reader = framed b ++ rest)
    (hrest : c₁.reader = rest) (h : SameReader c₁ c') : Consumed opts w k c c' rest where
  nothing hno := by
    rw [hk] at hno
    cases hno
  body _ := ⟨b, hread, fun h => absurd h hmpub⟩
  next := ⟨[], Eq.trans h hrest, fun _ => rfl⟩

/-- A command that reads a body with its length. -/
def HasBody (opts : Options) (w : World) (k : Command) (m : Handler Response) (c : ClientV2) :
    Prop :=
  Ensures m c (fun _ c' => ∃ rest, Consumed opts w k c c' rest) fun e _ => e.Ends

/-- The body comes first, and then what reads nothing. -/
theorem hasBody_of_read {k : Command} {m : Reader (List UInt8)} {f : List UInt8 → Handler Response}
    (hk : k.hasBody = true) (hmpub : k ≠ .mpub)
    (hm : ∀ r, Ensures m r (fun b r' => r = framed b ++ r') fun e _ => e.Fatal)
    (hf : ∀ b, Preserves SameReader Fail.Ends (f b)) :
    HasBody opts w k (readFrom m >>= f) c := by
  rw [HasBody, ensures_bind, ensures_readFrom]
  refine (hm c.reader).imp (fun b r hread => ?_) fun _ _ h => h.ends
  refine (hf b { c with reader := r }).imp (fun _ c' h => ?_) fun _ _ h => h.1
  exact ⟨r, consumed_of_body hk hmpub hread rfl h⟩

/-- A check before it does not matter. -/
theorem hasBody_rejectIf {k : Command} {p : Prop} [Decidable p] {e : Fail} {m : Handler Response}
    (he : e.Ends) (hm : HasBody opts w k m c) :
    HasBody opts w k (rejectIf p e >>= fun _ => m) c := by
  rw [HasBody, ensures_bind, ensures_rejectIf]
  exact ⟨fun _ => he, fun _ => hm⟩

theorem auth_hasBody (params : List (List UInt8)) :
    HasBody opts w .auth (auth libs opts w params) c := by
  refine hasBody_rejectIf rfl (hasBody_rejectIf rfl ?_)
  refine hasBody_of_read rfl nofun (readBody_spec "AUTH") fun body => ?_
  refine reads_bind (reads_rejectIf rfl) fun _ => reads_bind (reads_rejectIf rfl) fun _ => ?_
  refine reads_bind (reads_modify fun _ => rfl) fun _ => reads_bind queryAuthd_reads fun err => ?_
  refine reads_bind (reads_rejectIf rfl) fun _ => reads_bind reads_get fun c => ?_
  refine reads_bind (reads_rejectIf rfl) fun _ => ?_
  cases c.authState with
  | none => exact reads_throw trivial
  | some a =>
      refine reads_bind (reads_bind reads_get fun c => ?_) fun err => ?_
      · exact reads_bind (reads_modify fun _ => rfl) fun _ => reads_pure _
      · cases err with
        | none => exact reads_pure _
        | some err => exact reads_throw rfl

theorem put_reads (cmd : String) (topic : List UInt8) (bodies : List (List UInt8))
    (deferred : Int64) : Preserves SameReader Fail.Ends (put w cmd topic bodies deferred) := by
  rw [put]
  cases w.putErr with
  | some err => exact reads_throw rfl
  | none => exact reads_bind (reads_modify fun _ => rfl) fun _ => reads_pure _

theorem putOne_hasBody {k : Command} (hk : k.hasBody = true) (hmpub : k ≠ .mpub) (cmd : String)
    (topicName : List UInt8) (deferred : Int64) :
    HasBody opts w k (putOne libs opts w cmd topicName deferred) c := by
  refine hasBody_of_read hk hmpub (readMessageBody_spec cmd) fun body => ?_
  refine reads_bind (checkAuth_reads _ _ _) fun _ => ?_
  refine reads_bind (reads_modify fun _ => rfl) fun _ => ?_
  exact reads_bind (reads_rejectIf trivial) fun _ => put_reads _ _ _ _

theorem pub_hasBody (params : List (List UInt8)) :
    HasBody opts w .pub (pub libs opts w params) c := by
  refine hasBody_rejectIf rfl (hasBody_rejectIf rfl ?_)
  exact putOne_hasBody (k := .pub) rfl nofun _ _ _

theorem dpub_hasBody (params : List (List UInt8)) :
    HasBody opts w .dpub (dpub libs opts w params) c := by
  refine hasBody_rejectIf rfl (hasBody_rejectIf rfl ?_)
  cases byteToBase10 (params.getD 2 []) with
  | error err => exact rfl
  | ok timeoutMs => exact hasBody_rejectIf rfl (putOne_hasBody (k := .dpub) rfl nofun _ _ _)

/-- **`MPUB`.** Where the lengths agree, it reads its body and no more. -/
theorem mpub_hasBody (params : List (List UInt8)) (hagree : LengthsAgree opts c.reader) :
    HasBody opts w .mpub (mpub libs opts w params) c := by
  refine hasBody_rejectIf rfl (hasBody_rejectIf rfl ?_)
  rw [HasBody, ensures_bind]
  refine (checkAuth_reads _ _ _ c).imp (fun _ c₁ h₁ => ?_) fun _ _ h => h.1
  have hreader : c₁.reader = c.reader := h₁
  rw [ensures_bind, reach, ensures_modify, ensures_bind, ensures_readFrom]
  show Ensures (readMPUBLen opts) c₁.reader _ _
  rw [hreader]
  refine (readMPUBLen_spec c.reader).imp (fun n r₁ h => ?_) fun _ _ h => h.ends
  obtain ⟨hlen, hpos, hmax⟩ := h
  rw [ensures_bind, ensures_readFrom]
  refine (readMPUB_spec _ _ _ _).imp (fun messages r₂ h => ?_) fun _ _ h => h.ends
  obtain ⟨hmessages, hacceptable⟩ := h
  have hr₁ : r₁ = mpubBytes messages ++ r₂ := hmessages
  have hlt := n.toInt_lt
  have hlength : (mpubBytes messages).length = n.toInt.toNat :=
    hagree _ messages r₂ (by omega) hacceptable (by rw [hlen, hr₁])
  have hread : c.reader = framed (mpubBytes messages) ++ r₂ := by
    rw [hlen, hr₁, framed, hlength, List.append_assoc]
  rw [put]
  cases w.putErr with
  | some err => exact rfl
  | none =>
      refine ⟨r₂, by rintro ⟨⟩, fun _ => ⟨mpubBytes messages, hread, fun _ => ?_⟩, [], rfl,
        fun _ => rfl⟩
      refine ⟨params.getD 1 [], messages, List.getLast?_concat .., ?_, by omega⟩
      rw [length_mpubBytes]

/-- Layers are put over what is still to be read, if nothing of it is buffered. -/
def Decodes (w : World) (c c' : ClientV2) : Prop :=
  c.buffered = 0 → c'.buffered = 0 ∧
    ∃ layers : List Layer, c'.reader = layers.foldl (fun r layer => w.decode layer r) c.reader

theorem decodes_decoded {layer : Layer} {c' : ClientV2}
    (hbuffered : c'.buffered = (c.decoded w layer).buffered)
    (hreader : c'.reader = (c.decoded w layer).reader) : Decodes w c c' := by
  intro h
  refine ⟨hbuffered, [layer], ?_⟩
  rw [hreader, ClientV2.decoded, h]
  rfl

theorem frame_decodes (i : IdentifyStep) : Frame w i (Decodes w) where
  refl c h := ⟨h, [], rfl⟩
  trans c₁ c₂ c₃ h h' hbuffered := by
    obtain ⟨h₂, layers, hlayers⟩ := h hbuffered
    obtain ⟨h₃, layers', hlayers'⟩ := h' h₂
    exact ⟨h₃, layers ++ layers', by rw [hlayers', hlayers, List.foldl_append]⟩
  settings c c' h hbuffered := by
    obtain ⟨_, _, _, _, _, rfl⟩ := h
    exact ⟨hbuffered, [], rfl⟩
  rebuild c h := ⟨h, [], rfl⟩
  write c _ _ h := ⟨h, [], rfl⟩
  tls _ c := decodes_decoded rfl rfl
  snappy _ c := decodes_decoded rfl rfl
  deflate _ c := decodes_decoded rfl rfl

/-- Without a layer the reader stays. -/
theorem frame_sameReader {i : IdentifyStep} (h : i.layer = none) : Frame w i SameReader where
  refl := .refl
  trans := .trans
  settings c c' h := by
    obtain ⟨_, _, _, _, _, rfl⟩ := h
    exact .refl _
  rebuild _ := rfl
  write _ _ _ := rfl
  tls hi _ := by
    rw [hi] at h
    cases h
  snappy hi _ := by
    rw [hi] at h
    cases h
  deflate hi _ := by
    rw [hi] at h
    cases h

/-- **`IDENTIFY`.** Where nothing is buffered behind it, its layers are put over all that
follows. -/
theorem identify_hasBody (hnothing : NothingBuffered libs opts w c.reader) :
    HasBody opts w .identify (identify libs opts w) c := by
  refine hasBody_rejectIf rfl ?_
  rw [HasBody, ensures_bind, ensures_readFrom]
  refine (readBody_spec "IDENTIFY" c.reader).imp (fun body r hread => ?_) fun _ _ h => h.ends
  cases hdata : libs.unmarshalIdentify body with
  | error err => exact rfl
  | ok data =>
      have hbody : ∀ c', (∃ layers : List Layer,
          c'.reader = layers.foldl (fun r layer => w.decode layer r) r) →
          ∃ rest, Consumed opts w .identify c c' rest := fun c' ⟨layers, hlayers⟩ =>
        ⟨r, nofun, fun _ => ⟨body, hread, nofun⟩, layers, hlayers, fun h => absurd rfl h⟩
      simp only [ensures_bind, ensures_modify]
      rcases hnothing body r data hread hdata with hbuffered | hlayers
      · have hloop : Preserves (Decodes w) Fail.Fatal
            ((identifySteps opts data).forM (identifyStep libs opts w)) :=
          preserves_forM (frame_decodes .respondOK).refl (frame_decodes .respondOK).trans
            fun i _ => (frame_decodes i).identifyStep libs
        refine (hloop _).imp (fun _ c' h => ?_) fun _ _ h => h.1.ends
        exact hbody c' (h hbuffered).2
      · have hloop : Preserves SameReader Fail.Fatal
            ((identifySteps opts data).forM (identifyStep libs opts w)) :=
          preserves_forM .refl .trans fun i hi =>
            (frame_sameReader (hlayers i hi)).identifyStep libs
        refine (hloop _).imp (fun _ c' h => ?_) fun _ _ h => h.1.ends
        exact hbody c' ⟨[], h⟩

/-- A command ends the connection, or reads what belongs to it. -/
def Consumes (opts : Options) (w : World) (k : Command) (m : Handler Response) (c : ClientV2) :
    Prop :=
  Ensures m c (fun _ c' => ∃ rest, Consumed opts w k c c' rest)
    fun e c' => e.Ends ∨ ∃ rest, Consumed opts w k c c' rest

theorem HasBody.consumes {k : Command} {m : Handler Response} (h : HasBody opts w k m c) :
    Consumes opts w k m c :=
  h.imp (fun _ _ h => h) fun _ _ h => Or.inl h

theorem NoBody.consumes {k : Command} {m : Handler Response} (hk : k.hasBody = false)
    (h : NoBody m) : Consumes opts w k m c := by
  have hconsumed : ∀ c', SameReader c c' → ∃ rest, Consumed opts w k c c' rest := by
    intro c' hc'
    refine ⟨c.reader, fun _ => rfl, fun hbody => ?_, [], hc', fun _ => rfl⟩
    rw [hk] at hbody
    cases hbody
  exact (h c).imp (fun _ c' hc' => hconsumed c' hc') fun _ c' hc' => Or.inr (hconsumed c' hc'.2)

theorem Consumes.behindTLS {k : Command} {m : Handler Response} (h : Consumes opts w k m c)
    (name : List UInt8) : Consumes opts w k (behindTLS opts name m) c := by
  simp only [Consumes, V2.behindTLS, enforceTLSPolicy, ensures_bind, ensures_get,
    ensures_rejectIf]
  exact ⟨fun _ => Or.inl rfl, fun _ => h⟩

/-- **One command.** Where the condition holds, it ends the connection or reads what belongs to
it. -/
theorem exec_consumes {params : List (List UInt8)} {k : Command}
    (hcommand : commandOf params = some k) (hmpub : k = .mpub → LengthsAgree opts c.reader)
    (hidentify : k = .identify → NothingBuffered libs opts w c.reader) :
    Consumes opts w k (exec libs opts w params) c := by
  unfold exec
  rw [hcommand]
  cases k with
  | identify => exact (identify_hasBody (hidentify rfl)).consumes
  | fin => exact ((fin_noBody params).consumes rfl).behindTLS _
  | rdy => exact ((rdy_noBody params).consumes rfl).behindTLS _
  | req => exact ((req_noBody params).consumes rfl).behindTLS _
  | pub => exact (pub_hasBody params).consumes.behindTLS _
  | mpub => exact (mpub_hasBody params (hmpub rfl)).consumes.behindTLS _
  | dpub => exact (dpub_hasBody params).consumes.behindTLS _
  | nop => exact (nop_noBody.consumes rfl).behindTLS _
  | touch => exact ((touch_noBody params).consumes rfl).behindTLS _
  | sub => exact ((sub_noBody params).consumes rfl).behindTLS _
  | cls => exact (cls_noBody.consumes rfl).behindTLS _
  | auth => exact (auth_hasBody params).consumes.behindTLS _

theorem exec_invalid {params : List (List UInt8)} (hcommand : commandOf params = none) :
    Ensures (exec libs opts w params) c (fun _ _ => False) fun e _ => e.Ends := by
  unfold exec
  rw [hcommand]
  simp only [behindTLS, enforceTLSPolicy, ensures_bind, ensures_get, ensures_rejectIf,
    ensures_throw]
  exact ⟨fun _ => rfl, fun _ => rfl⟩

end Bodies

/-! ### Whole runs -/

section Rounds

variable {libs : Libs} {opts : Options} {w : World} {s s' : Conn} {c : ClientV2}

/-- Where the loop goes on, the command was no error that ends it, and its answer changes neither
what is to be read nor what was done. -/
theorem answer_reading {m : Handler Response} {Q : ClientV2 → Prop}
    (hm : Ensures m c (fun _ c' => Q c') fun e c' => e.Ends ∨ Q c')
    (h : (answer w (m c)).status = .reading) :
    ∃ c', Q c' ∧ (answer w (m c)).client.reader = c'.reader ∧
      (answer w (m c)).client.effects = c'.effects := by
  cases hresult : m c with
  | ok response c' =>
      refine ⟨c', hm.ok hresult, ?_⟩
      cases response <;> exact ⟨rfl, rfl⟩
  | error e c' =>
      rw [hresult] at h
      cases e with
      | panic p => cases h
      | protocol e =>
          rcases hm.error hresult with hends | hq
          · have hfatal : e.fatal = true := hends
            rw [answer, Conn.sendOr, if_pos hfatal, ite_self] at h
            cases h
          · exact ⟨c', hq, rfl, rfl⟩

theorem Consumed.congr {k : Command} {c₁ c₂ : ClientV2} {rest : List UInt8}
    (h : Consumed opts w k c c₁ rest) (hreader : c₂.reader = c₁.reader)
    (heffects : c₂.effects = c₁.effects) : Consumed opts w k c c₂ rest where
  nothing := h.nothing
  body := by
    rw [heffects]
    exact h.body
  next := by
    rw [hreader]
    exact h.next

/-- **One round.** -/
theorem ioLoop_inSync (hagrees : Agrees libs opts s w) : InSync libs opts s w := by
  intro s' hstep hreading
  rcases ioLoop_cases hstep with ⟨-, rfl⟩ | ⟨line, r, hread, rfl⟩
  · cases hreading
  · obtain ⟨hmpub, hidentify⟩ := hagrees line r hread
    obtain ⟨hreader, hline⟩ := readSlice_eq hread
    cases hcommand : commandOf (splitParams line) with
    | none =>
        have hno : Ensures (exec libs opts w (splitParams line)) { s.client with reader := r }
            (fun _ _ => False) fun e _ => e.Ends := exec_invalid hcommand
        obtain ⟨c', h, -⟩ :=
          answer_reading (hno.imp (fun _ _ h => h) fun _ _ h => Or.inl h) hreading
        exact h.elim
    | some k =>
        rw [hcommand] at hmpub hidentify
        have hconsumes : Consumes opts w k (exec libs opts w (splitParams line))
            { s.client with reader := r } :=
          exec_consumes hcommand (fun hk => hmpub (congrArg some hk))
            fun hk => hidentify (congrArg some hk)
        obtain ⟨c', ⟨rest, hc'⟩, hsame, heffects⟩ := answer_reading hconsumes hreading
        exact ⟨line, r, k, rest, hreader, hline, hcommand, hc'.congr hsame heffects⟩

end Rounds

/-! ### Requests -/

section Requests

variable {opts : Options} {putErr : GoError} {req : PublishRequest} {messages : List (List UInt8)}

/-- What `/mpub` publishes is acceptable, and what the body begins with. -/
theorem doMPUBBinary_eq_ok (h : doMPUBBinary opts putErr req = .ok messages) :
    (∀ n ∈ req.contentLength, (n : ℤ) ≤ opts.maxBodySize) ∧ req.topic = .ok true ∧
      Acceptable opts.maxMsgSize opts.maxBodySize messages ∧
        ∃ tail, req.body = mpubBytes messages ++ tail := by
  unfold doMPUBBinary at h
  split at h
  · cases h
  · rename_i hlength
    split at h
    · cases h
    · rename_i topic htopic
      split at h
      · cases h
      · cases h
      · rename_i messages' tail hread
        cases putErr with
        | some err => cases h
        | none =>
            cases h
            cases topic with
            | false => exact ((readMPUB_noTopic _ _ _).ok hread).elim
            | true =>
                obtain ⟨hbody, hacceptable⟩ := (readMPUB_spec _ _ _ _).ok hread
                refine ⟨fun n hn => Int.not_lt.mp fun hlt => hlength ?_, htopic, hacceptable, tail,
                  hbody⟩
                rw [Option.mem_def.mp hn]
                exact decide_eq_true hlt

/-- **Requests.** The messages of a request keep to the limit exactly when the request does. -/
theorem published_limited (opts : Options) (req : PublishRequest) :
    (∀ putErr messages, doMPUBBinary opts putErr req = .ok messages →
      ((4 + (messages.map fun body => 4 + body.length).sum : ℕ) : ℤ) ≤ opts.maxBodySize) ↔
      req.Limited opts := by
  constructor
  · intro h htopic hchunked messages tail hacceptable hbody
    have hread := readMPUB_append hacceptable tail
    rw [← hbody] at hread
    rw [length_mpubBytes]
    refine h none messages ?_
    obtain ⟨messages', tail', hresult, rfl, rfl⟩ := hread.exists_ok
    simp only [doMPUBBinary, hchunked, htopic, hresult]
    rfl
  · intro hlimited putErr messages h
    obtain ⟨hlength, htopic, hacceptable, tail, hbody⟩ := doMPUBBinary_eq_ok h
    rw [← length_mpubBytes]
    cases hcontent : req.contentLength with
    | none => exact hlimited htopic hcontent messages tail hacceptable hbody
    | some n =>
        have hn := hlength n hcontent
        have hbounded := req.bounded n hcontent
        rw [hbody, List.length_append] at hbounded
        omega

end Requests

/-- **The command stream.** Along every run whose rounds meet the condition the connection stays in
sync, and a request publishes no more than the limit exactly when it has a length or its messages
are within the limit together. -/
theorem command_stream (libs : Libs) (opts : Options) :
    (∀ bytes worlds,
      Runs.Along (ioLoop libs opts) (Agrees libs opts) (Conn.start opts bytes) worlds →
        Runs.Along (ioLoop libs opts) (InSync libs opts) (Conn.start opts bytes) worlds) ∧
      ∀ req : PublishRequest, (∀ putErr messages, doMPUBBinary opts putErr req = .ok messages →
        ((4 + (messages.map fun body => 4 + body.length).sum : ℕ) : ℤ) ≤ opts.maxBodySize) ↔
        req.Limited opts := by
  refine ⟨fun bytes worlds h => ?_, published_limited opts⟩
  exact Runs.along_imp (I := fun _ => True) (fun _ _ _ _ _ _ => trivial)
    (fun _ _ _ hagrees => ioLoop_inSync hagrees) worlds _ trivial h

/-! ### Lengths that agree, and lengths that do not -/

section Lengths

variable {opts : Options}

/-- An `MPUB` that is built as a whole agrees with itself. -/
theorem lengthsAgree_framed {messages : List (List UInt8)}
    (h : Acceptable opts.maxMsgSize opts.maxBodySize messages)
    (hlt : (mpubBytes messages).length < 2 ^ 31) (tail : List UInt8) :
    LengthsAgree opts (framed (mpubBytes messages) ++ tail) := by
  intro n messages' tail' hn h' heq
  rw [framed, List.append_assoc] at heq
  obtain ⟨hlen, hbody⟩ := List.append_inj heq (by rw [length_toBytes, length_toBytes])
  obtain ⟨_, _, hread, rfl, -⟩ := (readMPUB_append h tail).exists_ok
  obtain ⟨_, _, hread', rfl, -⟩ := (readMPUB_append h' tail').exists_ok
  rw [← hbody, hread] at hread'
  obtain ⟨rfl, -⟩ := EStateM.Result.ok.inj hread'
  exact toBytes_inj hlt hn hlen

/-- Two orders at once. -/
def twoOrders : List (List UInt8) := [text "order 1", text "order 2"]

theorem acceptable_twoOrders :
    Acceptable newOptions.maxMsgSize newOptions.maxBodySize twoOrders where
  pos := by decide
  lt := by decide
  le := by decide
  sizes := by
    have hseven : ∀ body ∈ twoOrders, body.length = 7 := by decide
    have hmax : newOptions.maxMsgSize = 1048576 := rfl
    intro body hbody
    rw [hseven body hbody, hmax]
    omega

/-- They are published, and the reader is at the end. -/
theorem command_stream_twoOrders :
    Runs.Along (ioLoop Libs.plain newOptions) (InSync Libs.plain newOptions)
      (Conn.start newOptions (text "MPUB orders\n" ++ framed (mpubBytes twoOrders))) [World.calm] ∧
      ∀ putErr messages, doMPUBBinary newOptions putErr
        ⟨some 26, mpubBytes twoOrders, .ok true, by decide⟩ = .ok messages →
        ((4 + (messages.map fun body => 4 + body.length).sum : ℕ) : ℤ)
          ≤ newOptions.maxBodySize := by
  have hslice : readSlice (text "MPUB orders\n" ++ framed (mpubBytes twoOrders)) =
      some (text "MPUB orders", framed (mpubBytes twoOrders)) := by decide
  refine ⟨(command_stream Libs.plain newOptions).1 _ _ ⟨fun line r hread => ?_, ?_⟩,
    ((command_stream Libs.plain newOptions).2 _).mpr fun _ hno => by cases hno⟩
  · obtain ⟨rfl, rfl⟩ := Prod.mk.inj (Option.some.inj (hslice.symm.trans hread))
    refine ⟨fun _ => ?_, fun h => ?_⟩
    · have hagree := lengthsAgree_framed acceptable_twoOrders (by decide) []
      rwa [List.append_nil] at hagree
    · exact absurd h (by decide)
  · split <;> trivial

/-- An `MPUB` that says its body is one byte long. -/
def shortMPUB : List UInt8 := text "MPUB orders\n" ++ (toBytes 4 1 ++ mpubBytes twoOrders)

/-- It is accepted, and nine more of its bytes are read. -/
theorem command_stream_short :
    ¬ Runs.Along (ioLoop Libs.plain newOptions) (InSync Libs.plain newOptions)
      (Conn.start newOptions shortMPUB) [World.calm] := by
  intro h
  obtain ⟨s, hs, hreading⟩ := Runs.exists_of_run (ioLoop Libs.plain newOptions)
    (Conn.start newOptions shortMPUB) [World.calm] (fun s => s.status = .reading)
    (by decide)
  obtain ⟨s', hstep, hs'⟩ := Runs.run_cons_elim hs
  obtain rfl := Option.some.inj hs'
  obtain ⟨line, r, k, rest, hreader, hline, hcommand, hconsumed⟩ := h.head s' hstep hreading
  have hlength : line.length = 11 := by
    have hidx : shortMPUB.idxOf 10 = 11 := by decide
    rw [show shortMPUB = line ++ 10 :: r from hreader, List.idxOf_append_of_notMem hline,
      List.idxOf_cons_self] at hidx
    exact hidx
  have hr : r = toBytes 4 1 ++ mpubBytes twoOrders := by
    have hdrop := congrArg (List.drop 12) (show shortMPUB = line ++ 10 :: r from hreader)
    rw [show shortMPUB.drop 12 = toBytes 4 1 ++ mpubBytes twoOrders by decide] at hdrop
    rw [hdrop, List.drop_append, hlength, List.drop_of_length_le (by omega)]
    rfl
  have hk : k = .mpub := by
    have hline' : line = text "MPUB orders" := by
      have htake := congrArg (List.take 11) (show shortMPUB = line ++ 10 :: r from hreader)
      rw [List.take_left' hlength] at htake
      rw [← htake]
      decide
    rw [hline'] at hcommand
    exact Option.some.inj (hcommand.symm.trans (by decide))
  subst hk
  obtain ⟨b, hb, hcounted⟩ := hconsumed.body rfl
  obtain ⟨topic, messages, -, hsum, hmax⟩ := hcounted rfl
  have hone : b.length = 1 := by
    have hbytes : toBytes 4 1 ++ mpubBytes twoOrders = toBytes 4 b.length ++ (b ++ rest) := by
      rw [← hr, ← List.append_assoc]
      exact hb
    have hlen := (List.append_inj hbytes (by rw [length_toBytes, length_toBytes])).1
    have hbound : (b.length : ℤ) ≤ 5 * 1024 * 1024 := hmax
    exact (toBytes_inj (by omega) (by omega) hlen).symm
  omega

end Lengths

end Xmq.V2
