import Xmq.Message
import Xmq.MpubBodies

/-!
# The bounds of the disk queues

The disk queue of a topic, and that of a channel, is told how short and how long its records are,
and refuses a record of another length. Both are told the length of a message without a body and
that length more than `MaxMsgSize`, in 32 bits, while whoever publishes compares the length of a
body with `MaxMsgSize` in 64.

`Accepted` has a constructor for each way to publish. A body that is accepted is not longer than
`MaxMsgSize`, so it fits as long as nothing wraps, which is the case up to `2 ^ 31 - 27`; from there
on a body that is too long for any `int32` together with its 26 bytes is accepted by `PUB`.
-/

namespace Xmq.V2

/-! ### Lengths -/

/-- The lengths that `diskqueue.New` is given. -/
structure DiskQueueBounds where
  minMsgSize : Int32
  maxMsgSize : Int32

/-- A `Put` of any other record is refused. -/
def DiskQueueBounds.Accepts (b : DiskQueueBounds) (record : List UInt8) : Prop :=
  b.minMsgSize.toInt ≤ record.length ∧ (record.length : ℤ) ≤ b.maxMsgSize.toInt

def diskQueueBounds (maxMsgSize : Int64) : DiskQueueBounds where
  minMsgSize := Int32.ofNat minValidMsgLength
  maxMsgSize := maxMsgSize.toInt32 + Int32.ofNat minValidMsgLength

/-- The bounds in `ClusterNewTopic`. -/
def clusterNewTopicBounds (maxMsgSize : Int64) : DiskQueueBounds := diskQueueBounds maxMsgSize

/-- The bounds in `ClusterNewChannel`. -/
def clusterNewChannelBounds (maxMsgSize : Int64) : DiskQueueBounds := diskQueueBounds maxMsgSize

theorem length_writeTo (m : Message) : m.writeTo.length = minValidMsgLength + m.body.length := by
  simp only [Message.writeTo, List.length_append, BigEndian.length_toBytes, Vector.length_toList,
    minValidMsgLength, msgIDLength]

theorem toInt_maxMsgSize (maxMsgSize : Int64) :
    (diskQueueBounds maxMsgSize).maxMsgSize.toInt = (maxMsgSize.toInt + 26).bmod (2 ^ 32) := by
  have hmin : (Int32.ofNat minValidMsgLength).toInt = 26 := by decide
  change (maxMsgSize.toInt32 + Int32.ofNat minValidMsgLength).toInt = _
  rw [Int32.toInt_add, Int64.toInt_toInt32, hmin, Int.bmod_add_bmod]

/-- A record of a message that fits, for the lengths that its body may have. -/
theorem accepts_writeTo {maxMsgSize : Int64} (hmax : maxMsgSize.toInt ≤ 2 ^ 31 - 27) (m : Message)
    (hbody : (m.body.length : ℤ) ≤ maxMsgSize.toInt) :
    (diskQueueBounds maxMsgSize).Accepts m.writeTo := by
  have hmin : (diskQueueBounds maxMsgSize).minMsgSize.toInt = 26 := by
    change (Int32.ofNat minValidMsgLength).toInt = 26
    decide
  have hbound : (diskQueueBounds maxMsgSize).maxMsgSize.toInt = maxMsgSize.toInt + 26 := by
    rw [toInt_maxMsgSize]
    refine Int.bmod_eq_of_le ?_ ?_
    · simp only [Nat.reducePow]
      omega
    · simp only [Nat.reducePow]
      omega
  have hlength : m.writeTo.length = 26 + m.body.length := length_writeTo m
  rw [DiskQueueBounds.Accepts, hmin, hbound, hlength]
  omega

/-- No bound is as large as `2 ^ 31`. -/
theorem not_accepts_writeTo (maxMsgSize : Int64) (m : Message)
    (hbody : 2 ^ 31 - 26 ≤ m.body.length) : ¬ (diskQueueBounds maxMsgSize).Accepts m.writeTo := by
  have hlt := (diskQueueBounds maxMsgSize).maxMsgSize.toInt_lt
  have hlength : m.writeTo.length = 26 + m.body.length := length_writeTo m
  rw [DiskQueueBounds.Accepts, hlength]
  omega

/-! ### What is accepted -/

inductive PublishCommand where
  | pub
  | mpub
  | dpub

def PublishCommand.handler (libs : Libs) (opts : Options) (w : World)
    (params : List (List UInt8)) : PublishCommand → Handler Response
  | pub => V2.pub libs opts w params
  | mpub => V2.mpub libs opts w params
  | dpub => V2.dpub libs opts w params

/-- The last thing that was done was to put the body, among others, into a topic. -/
def ClientV2.HasPut (c : ClientV2) (body : List UInt8) : Prop :=
  ∃ before topic bodies deferred,
    c.effects = before ++ [.put topic bodies deferred] ∧ body ∈ bodies

/-- The bodies that some way to publish accepts. -/
inductive Accepted (opts : Options) (body : List UInt8) : Prop
  | command (k : PublishCommand) (libs : Libs) (w : World) (params : List (List UInt8))
      {c c' : ClientV2} : k.handler libs opts w params c = .ok (some okBytes) c' → c'.HasPut body →
      Accepted opts body
  | httpPUB (getTopic : String → Bool) (req : HTTPRequest) {deferred : Int64} :
      doPUB opts getTopic none req = .ok (body, deferred) → Accepted opts body
  | httpMPUB (getTopic : String → Bool) (req : HTTPRequest) {messages : List (List UInt8)} :
      doMPUB opts getTopic none req = .ok messages → body ∈ messages → Accepted opts body

/-- A command that only puts bodies that are not too long. -/
def PutsShort (opts : Options) (m : Handler Response) : Prop :=
  ∀ c, Ensures m c (fun _ c' => ∀ body, c'.HasPut body → (body.length : ℤ) ≤ opts.maxMsgSize)
    fun _ _ => True

section Commands

variable {libs : Libs} {opts : Options} {w : World}

theorem ensures_true {ε σ α : Type} (m : EStateM ε σ α) (s : σ) :
    Ensures m s (fun _ _ => True) fun _ _ => True := by
  unfold Ensures
  cases m s <;> trivial

/-- What is done before does not matter. -/
theorem putsShort_bind {α : Type} {m : Handler α} {f : α → Handler Response}
    (h : ∀ a, PutsShort opts (f a)) : PutsShort opts (m >>= f) := by
  intro c
  rw [ensures_bind]
  exact (ensures_true m c).imp (fun a c' _ => h a c') fun _ _ _ => trivial

theorem putsShort_throw (e : Fail) : PutsShort opts (throw e) := fun _ => trivial

theorem putsShort_put {cmd : String} {topic : List UInt8} {bodies : List (List UInt8)}
    {deferred : Int64} (h : ∀ body ∈ bodies, (body.length : ℤ) ≤ opts.maxMsgSize) :
    PutsShort opts (put w cmd topic bodies deferred) := by
  intro c
  unfold put
  cases w.putErr with
  | some err => trivial
  | none =>
      intro body ⟨before, topic', bodies', deferred', heffects, hmem⟩
      have hlast := (List.append_inj' heffects rfl).2
      cases hlast
      exact h body hmem

/-- What is read is handed on. -/
theorem putsShort_readFrom {α : Type} {m : Reader α} {P : α → Prop} {f : α → Handler Response}
    (hm : ∀ r, Ensures m r (fun a _ => P a) fun _ _ => True)
    (h : ∀ a, P a → PutsShort opts (f a)) : PutsShort opts (readFrom m >>= f) := by
  intro c
  rw [ensures_bind, ensures_readFrom]
  exact (hm c.reader).imp (fun a r ha => h a ha _) fun _ _ _ => trivial

theorem readMessageBody_length (cmd : String) (r : List UInt8) :
    Ensures (readMessageBody opts cmd) r (fun body _ => (body.length : ℤ) ≤ opts.maxMsgSize)
      fun _ _ => True := by
  rw [readMessageBody, ensures_bind]
  refine (ensures_true _ r).imp (fun n r₁ _ => ?_) fun _ _ _ => trivial
  simp only [ensures_bind, ensures_rejectIf]
  refine ⟨fun _ => trivial, fun hpos => ⟨fun _ => trivial, fun hmax => ?_⟩⟩
  exact (readFull_spec _ r₁).imp (fun body r₂ hread => by omega) fun _ _ _ => trivial

theorem putsShort_putOne (cmd : String) (topicName : List UInt8) (deferred : Int64) :
    PutsShort opts (putOne libs opts w cmd topicName deferred) := by
  refine putsShort_readFrom (readMessageBody_length cmd) fun body hbody => ?_
  refine putsShort_bind fun _ => putsShort_bind fun _ => putsShort_bind fun _ => ?_
  exact putsShort_put (List.forall_mem_singleton.mpr hbody)

theorem putsShort_handler (k : PublishCommand) (params : List (List UInt8)) :
    PutsShort opts (k.handler libs opts w params) := by
  cases k with
  | pub => exact putsShort_bind fun _ => putsShort_bind fun _ => putsShort_putOne _ _ _
  | mpub =>
      refine putsShort_bind fun _ => putsShort_bind fun _ => putsShort_bind fun _ => ?_
      refine putsShort_bind fun _ => putsShort_bind fun _ => ?_
      refine putsShort_readFrom (fun r => ?_) fun messages => putsShort_put
      refine (readMPUB_spec w.topic opts.maxMsgSize opts.maxBodySize r).imp
        (fun messages r' h body hmem => ?_) fun _ _ _ => trivial
      exact (h.2.sizes body hmem).2.2
  | dpub =>
      refine putsShort_bind fun _ => putsShort_bind fun _ => ?_
      cases byteToBase10 (params.getD 2 []) with
      | error _ => exact putsShort_throw _
      | ok timeoutMs => exact putsShort_bind fun _ => putsShort_putOne _ _ _

/-- A body of a length that can be declared is read back. -/
theorem readMessageBody_append (cmd : String) {body : List UInt8} (hpos : 0 < body.length)
    (hlt : body.length < 2 ^ 31) (hmax : (body.length : ℤ) ≤ opts.maxMsgSize) (r : List UInt8) :
    Ensures (readMessageBody opts cmd) (framed body ++ r) (fun b r' => b = body ∧ r' = r)
      fun _ _ => False := by
  rw [readMessageBody, ensures_bind, framed, List.append_assoc]
  refine (readLen_append hlt _).imp (fun n r₁ h => ?_) fun _ _ h => h
  obtain ⟨hn, rfl⟩ := h
  simp only [ensures_bind, ensures_rejectIf, hn]
  refine ⟨fun h => by omega, fun _ => ⟨fun h => by omega, fun _ => ?_⟩⟩
  exact readFull_append _ body r

/-- Without an auth server `PUB` accepts every body that is not too long. -/
theorem accepted_pub (hauth : isAuthEnabled opts = false) {body : List UInt8}
    (hpos : 0 < body.length) (hlt : body.length < 2 ^ 31)
    (hmax : (body.length : ℤ) ≤ opts.maxMsgSize) : Accepted opts body := by
  have hname : isValidName ((text "t").map UInt8.toNat) = true := by decide
  have hpub : Ensures (pub Libs.plain opts World.calm [text "PUB", text "t"])
      (newClientV2 opts (framed body ++ [])) (fun r c' => r = some okBytes ∧ c'.HasPut body)
      fun _ _ => False := by
    unfold pub putOne rejectName checkAuth reach put
    simp only [hauth, ensures_bind, ensures_rejectIf, ensures_readFrom]
    refine ⟨by decide, fun _ => ⟨fun h => ?_, fun _ => ?_⟩⟩
    · exact absurd (hname.symm.trans h) (by decide)
    refine (readMessageBody_append "PUB" hpos hlt hmax []).imp (fun b r h => ?_) fun _ _ h => h
    refine ⟨by decide, fun _ => ⟨rfl, _, _, _, _, rfl, ?_⟩⟩
    rw [h.1]
    exact List.mem_singleton_self _
  obtain ⟨_, c', hok, rfl, hput⟩ := hpub.exists_ok
  exact .command .pub Libs.plain World.calm _ hok hput

end Commands

section Requests

variable {opts : Options} {getTopic : String → Bool} {req : HTTPRequest}

theorem pubBody_length {body : List UInt8} (h : pubBody opts req = .ok body) :
    (body.length : ℤ) ≤ opts.maxMsgSize := by
  unfold pubBody at h
  simp only [httpReject_eq_ok] at h
  obtain ⟨-, -, hsize, hne, hbody⟩ := h
  cases hbody
  have hpos := List.length_pos_iff.mpr hne
  have hlimited : (req.limited (opts.maxMsgSize + 1)).length =
      min (opts.maxMsgSize + 1).toNat req.body.length := List.length_take
  omega

theorem doPUB_length {body : List UInt8} {deferred : Int64}
    (h : doPUB opts getTopic none req = .ok (body, deferred)) :
    (body.length : ℤ) ≤ opts.maxMsgSize := by
  unfold doPUB at h
  obtain ⟨body', hbody, h⟩ := http_bind_eq_ok.mp h
  obtain ⟨⟨reqParams, topicName⟩, -, h⟩ := http_bind_eq_ok.mp h
  obtain ⟨deferred', -, h⟩ := http_bind_eq_ok.mp h
  obtain ⟨⟨⟩, -, h⟩ := http_bind_eq_ok.mp h
  cases (httpReject_eq_ok.mp h).2
  exact pubBody_length hbody

theorem mpubLines_length {fails topic : Bool} (lines : List (List UInt8)) (total : ℕ)
    {messages : List (List UInt8)} (h : mpubLines opts fails topic total lines = .ok messages) :
    ∀ body ∈ messages, (body.length : ℤ) ≤ opts.maxMsgSize := by
  induction lines generalizing total messages with
  | nil =>
      cases h
      exact nofun
  | cons line rest ih =>
      rw [mpubLines] at h
      simp only [httpReject_eq_ok] at h
      obtain ⟨-, -, h⟩ := h
      by_cases hline : line.isEmpty = true
      · rw [if_pos hline] at h
        exact ih _ h
      · rw [if_neg hline, httpReject_eq_ok] at h
        obtain ⟨hmax, h⟩ := h
        obtain ⟨⟨⟩, -, h⟩ := http_bind_eq_ok.mp h
        obtain ⟨msgs, hmsgs, h⟩ := http_bind_eq_ok.mp h
        cases h
        exact List.forall_mem_cons.mpr ⟨by omega, ih _ hmsgs⟩

theorem mpubBinary_length {topic : Bool} {messages : List (List UInt8)}
    (h : mpubBinary opts topic req = .ok messages) :
    ∀ body ∈ messages, (body.length : ℤ) ≤ opts.maxMsgSize := by
  have hread := readMPUB_spec topic opts.maxMsgSize opts.maxBodySize req.body
  unfold mpubBinary at h
  unfold Ensures at hread
  cases hm : readMPUB topic opts.maxMsgSize opts.maxBodySize req.body with
  | error e r =>
      rw [hm] at h
      cases e <;> exact nomatch h
  | ok msgs r =>
      rw [hm] at h hread
      cases h
      exact fun body hmem => (hread.2.sizes body hmem).2.2

theorem doMPUB_length {messages : List (List UInt8)}
    (h : doMPUB opts getTopic none req = .ok messages) :
    ∀ body ∈ messages, (body.length : ℤ) ≤ opts.maxMsgSize := by
  unfold doMPUB at h
  obtain ⟨-, h⟩ := httpReject_eq_ok.mp h
  obtain ⟨⟨reqParams, topicName⟩, -, h⟩ := http_bind_eq_ok.mp h
  by_cases hmode : binaryMode reqParams = true
  · obtain ⟨msgs, hmsgs, h⟩ := http_bind_eq_ok.mp ((if_pos hmode).symm.trans h)
    obtain ⟨⟨⟩, -, h⟩ := http_bind_eq_ok.mp h
    cases (httpReject_eq_ok.mp h).2
    exact mpubBinary_length hmsgs
  · obtain ⟨msgs, hmsgs, h⟩ := http_bind_eq_ok.mp ((if_neg hmode).symm.trans h)
    obtain ⟨⟨⟩, -, h⟩ := http_bind_eq_ok.mp h
    cases (httpReject_eq_ok.mp h).2
    exact mpubLines_length _ 0 hmsgs

end Requests

theorem Accepted.length_le {opts : Options} {body : List UInt8} (h : Accepted opts body) :
    (body.length : ℤ) ≤ opts.maxMsgSize := by
  cases h with
  | command k libs w params hok hput => exact (putsShort_handler k params _).ok hok body hput
  | httpPUB getTopic req hok => exact doPUB_length hok
  | httpMPUB getTopic req hok hmem => exact doMPUB_length hok body hmem

/-! ### What fits -/

/-- Every message with an accepted body fits in the disk queues of its topic and its channels. -/
def AcceptedFit (maxMsgSize : Int64) : Prop :=
  ∀ opts : Options, opts.maxMsgSize = maxMsgSize.toInt → ∀ m : Message, Accepted opts m.body →
    (clusterNewTopicBounds maxMsgSize).Accepts m.writeTo ∧
      (clusterNewChannelBounds maxMsgSize).Accepts m.writeTo

/-- A body that is too long for every `int32` is accepted. -/
theorem not_acceptedFit {maxMsgSize : Int64} (hmax : 2 ^ 31 - 26 ≤ maxMsgSize.toInt) :
    ¬ AcceptedFit maxMsgSize := by
  intro h
  obtain ⟨body, hbody⟩ : ∃ body : List UInt8, body.length = 2 ^ 31 - 26 :=
    ⟨List.replicate (2 ^ 31 - 26) 0, List.length_replicate⟩
  have hacc : Accepted { newOptions with maxMsgSize := maxMsgSize.toInt } body :=
    accepted_pub rfl (by omega) (by omega) (by rw [hbody]; push_cast; omega)
  have hfit := h _ rfl (newMessage (Vector.replicate 16 0) body 0) hacc
  exact not_accepts_writeTo maxMsgSize _ (le_of_eq hbody.symm) hfit.1

/-- **Accepted messages fit the disk queues** if and only if the longest of them still does in 32
bits. -/
theorem acceptedFit_iff (maxMsgSize : Int64) :
    AcceptedFit maxMsgSize ↔ maxMsgSize.toInt ≤ 2 ^ 31 - 27 := by
  constructor
  · intro h
    by_contra hmax
    exact not_acceptedFit (by omega) h
  · intro hmax opts hopts m hm
    have hbody := hm.length_le
    rw [hopts] at hbody
    exact ⟨accepts_writeTo hmax m hbody, accepts_writeTo hmax m hbody⟩

/-- With `MaxMsgSize` the largest `int32` the sum wraps, and a message of one byte is refused. -/
theorem not_acceptedFit_maxInt32 : ¬ AcceptedFit 2147483647 := by
  intro h
  have hacc : Accepted { newOptions with maxMsgSize := 2147483647 } [97] :=
    accepted_pub rfl (by decide) (by decide) (by decide)
  have hfit := h _ rfl (newMessage (Vector.replicate 16 0) [97] 0) hacc
  exact absurd hfit.1.2 (by decide)

end Xmq.V2
