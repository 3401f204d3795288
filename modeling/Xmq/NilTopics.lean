import Xmq.HttpPublish

/-!
# Handlers that are given no topic

`GetTopic` and `GetChannel` return `nil` when they fail. This module says of every command and
request that publishes or subscribes when it comes to use such a result: exactly when its own checks
pass. The checks are the handler up to the place where it uses the topic; a refused request never
gets there.

* `Clean` handlers use neither. Behind a clean handler the question is put to what comes next.
* `MPUB` and `/mpub` use the topic at their first message.
-/

namespace Xmq.V2

/-! ### Use of nil -/

/-- A method of no topic or no channel was called. -/
def Fail.UsesNil : Fail → Prop
  | .panic .nilTopic => True
  | .panic .nilChannel => True
  | _ => False

/-- The handler ends at a nil topic or channel. -/
def UsesNil {σ α : Type} (m : EStateM Fail σ α) (s : σ) : Prop :=
  Ensures m s (fun _ _ => False) fun e _ => e.UsesNil

/-- The handler returns. -/
def Passes {σ α : Type} (m : EStateM Fail σ α) (s : σ) : Prop :=
  Ensures m s (fun _ _ => True) fun _ _ => False

instance {σ α : Type} (m : EStateM Fail σ α) (s : σ) : Decidable (Passes m s) :=
  match h : m s with
  | .ok _ _ => isTrue (by unfold Passes Ensures; rw [h]; trivial)
  | .error _ _ => isFalse (by unfold Passes Ensures; rw [h]; exact id)

/-- The handler uses neither a topic nor a channel. -/
abbrev Clean {σ α : Type} (m : EStateM Fail σ α) : Prop :=
  Preserves (fun _ _ => True) (fun e => ¬ e.UsesNil) m

section Cleanness

variable {σ : Type} {α β : Type}

theorem clean_bind {m : EStateM Fail σ α} {f : α → EStateM Fail σ β} (hm : Clean m)
    (hf : ∀ a, Clean (f a)) : Clean (m >>= f) :=
  preserves_bind (fun _ _ _ _ _ => trivial) hm hf

theorem clean_pure (a : α) : Clean (pure a : EStateM Fail σ α) :=
  preserves_pure (fun _ => trivial) a

theorem clean_get : Clean (get : EStateM Fail σ σ) := preserves_get fun _ => trivial

theorem clean_modify (f : σ → σ) : Clean (modify f : EStateM Fail σ PUnit) :=
  preserves_modify fun _ => trivial

theorem clean_throw {e : Fail} (he : ¬ e.UsesNil) : Clean (throw e : EStateM Fail σ α) :=
  preserves_throw (fun _ => trivial) he

theorem clean_rejectIf {p : Prop} [Decidable p] {e : Fail} (he : ¬ e.UsesNil) :
    Clean (rejectIf p e : EStateM Fail σ PUnit) :=
  preserves_rejectIf (fun _ => trivial) he

theorem Clean.not_usesNil {m : EStateM Fail σ α} (h : Clean m) (s : σ) : ¬ UsesNil m s := by
  intro hn
  unfold UsesNil Ensures at hn
  cases hm : m s with
  | ok a t =>
      rw [hm] at hn
      exact hn
  | error e t =>
      rw [hm] at hn
      exact ((h s).error hm).1 hn

/-- What comes behind checks that pass. -/
theorem usesNil_bind {m : EStateM Fail σ α} (hm : Clean m) (f : α → EStateM Fail σ β) (s : σ) :
    UsesNil (m >>= f) s ↔ Ensures m s (fun a t => UsesNil (f a) t) fun _ _ => False := by
  unfold UsesNil
  rw [ensures_bind]
  unfold Ensures
  cases hr : m s with
  | ok a t => exact Iff.rfl
  | error e t => simp [((hm s).error hr).1]

/-- The same, where what comes behind goes wrong in the states that further checks pass. -/
theorem usesNil_bind_passes {m : EStateM Fail σ α} (hm : Clean m) {f : α → EStateM Fail σ β}
    {γ : Type} {g : α → EStateM Fail σ γ} {p : Prop}
    (hf : ∀ a t, UsesNil (f a) t ↔ Passes (g a) t ∧ p) (s : σ) :
    UsesNil (m >>= f) s ↔ Passes (m >>= g) s ∧ p := by
  rw [usesNil_bind hm]
  unfold Passes
  rw [ensures_bind]
  unfold Ensures
  cases m s with
  | ok a t => exact hf a t
  | error e t => simp

/-- The same, where what comes behind does not depend on the checks. -/
theorem usesNil_bind_iff {m : EStateM Fail σ α} (hm : Clean m) {f : α → EStateM Fail σ β} {p : Prop}
    (hf : ∀ a t, UsesNil (f a) t ↔ p) (s : σ) : UsesNil (m >>= f) s ↔ Passes m s ∧ p := by
  have hpure : m = m >>= pure := (bind_pure m).symm
  rw [hpure, bind_assoc]
  refine usesNil_bind_passes hm (fun a t => ?_) s
  rw [pure_bind, hf]
  simp [Passes]

/-- What comes behind uses no topic. -/
theorem usesNil_bind_left (m : EStateM Fail σ α) {f : α → EStateM Fail σ β} (hf : ∀ a, Clean (f a))
    (s : σ) : UsesNil (m >>= f) s ↔ UsesNil m s := by
  unfold UsesNil
  rw [ensures_bind]
  unfold Ensures
  cases m s with
  | ok a t =>
      have hn := (hf a).not_usesNil t
      simpa [UsesNil, Ensures] using hn
  | error e t => exact Iff.rfl

theorem usesNil_rejectIf {p : Prop} [Decidable p] {e : Fail} (he : e.UsesNil)
    {m : PUnit → EStateM Fail σ α} (hm : Clean (m ⟨⟩)) (s : σ) :
    UsesNil (rejectIf p e >>= m) s ↔ p := by
  have hn := hm.not_usesNil s
  unfold UsesNil at hn ⊢
  simp only [ensures_bind, ensures_rejectIf]
  by_cases hp : p
  · simp [hp, he]
  · simp [hp, hn]

end Cleanness

section Commands

variable {libs : Libs} {opts : Options} {w : World}

theorem clean_readFrom {α : Type} {m : Reader α} (hm : Clean m) : Clean (readFrom m) := by
  intro c
  rw [ensures_readFrom]
  exact (hm c.reader).imp (fun _ _ h => h) fun _ _ h => h

theorem clean_readFull (n : ℕ) {err : Fail} (he : ¬ err.UsesNil) : Clean (readFull n err) := by
  intro r
  exact (readFull_spec n r).imp (fun _ _ _ => trivial) fun e _ h => ⟨h ▸ he, trivial⟩

theorem clean_readLen {err : Fail} (he : ¬ err.UsesNil) : Clean (readLen err) :=
  clean_bind (clean_readFull 4 he) fun _ => clean_pure _

theorem clean_readMessageBody (cmd : String) : Clean (readMessageBody opts cmd) :=
  clean_bind (clean_readLen id) fun _ => clean_bind (clean_rejectIf id) fun _ =>
    clean_bind (clean_rejectIf id) fun _ => clean_readFull _ id

theorem clean_queryAuthd : Clean (queryAuthd libs opts w) := by
  refine clean_bind clean_get fun c => ?_
  cases c.queryAnyAuthd libs opts w with
  | error err =>
      cases err with
      | some err => exact clean_pure _
      | none => exact clean_bind (clean_modify _) fun _ => clean_pure _
  | ok r => exact clean_bind (clean_modify _) fun _ => clean_pure _

theorem clean_isAuthorized (topic channel : List UInt8) :
    Clean (isAuthorized libs opts w topic channel) := by
  refine clean_bind clean_get fun c => ?_
  cases c.authState with
  | none => exact clean_pure _
  | some a =>
      refine clean_bind (clean_bind (clean_modify _) fun _ => preserves_ite
        (clean_bind (clean_modify _) fun _ => clean_queryAuthd) (clean_pure _)) fun err => ?_
      cases err with
      | some err => exact clean_pure _
      | none =>
          refine clean_bind (clean_bind clean_get fun c => ?_) fun ok => clean_pure _
          cases c.authState with
          | none => exact clean_throw id
          | some a =>
              dsimp only
              cases a.isAllowed libs.regexp topic channel with
              | none => exact clean_throw id
              | some ok => exact clean_pure _

theorem clean_checkAuth (cmd : String) (topic channel : List UInt8) :
    Clean (checkAuth libs opts w cmd topic channel) := by
  refine preserves_ite ?_ (clean_pure _)
  refine clean_bind clean_get fun c => clean_bind (clean_rejectIf id) fun _ => ?_
  refine clean_bind (clean_isAuthorized topic channel) fun ok => ?_
  cases ok with
  | error err => exact clean_throw id
  | ok ok => exact clean_rejectIf id

theorem clean_put (cmd : String) (topic : List UInt8) (bodies : List (List UInt8))
    (deferred : Int64) : Clean (put w cmd topic bodies deferred) := by
  unfold put
  cases w.putErr with
  | some err => exact clean_throw id
  | none => exact clean_bind (clean_modify _) fun _ => clean_pure _

/-- What `PUB` and `DPUB` do with a body before they use the topic. -/
def putOneChecks (libs : Libs) (opts : Options) (w : World) (cmd : String)
    (topicName : List UInt8) :
    Handler (List UInt8) := do
  let messageBody ← readFrom (readMessageBody opts cmd)
  checkAuth libs opts w cmd topicName []
  reach topicName []
  pure messageBody

/-- The checks of `PUB`. -/
def pubChecks (libs : Libs) (opts : Options) (w : World) (params : List (List UInt8)) :
    Handler (List UInt8) := do
  rejectIf (params.length < 2) (invalid "PUB insufficient number of parameters")
  rejectName libs "E_BAD_TOPIC" "PUB topic" (params.getD 1 [])
  putOneChecks libs opts w "PUB" (params.getD 1 [])

/-- The checks of `DPUB`. -/
def dpubChecks (libs : Libs) (opts : Options) (w : World) (params : List (List UInt8)) :
    Handler (List UInt8 × Int64) := do
  rejectIf (params.length < 3) (invalid "DPUB insufficient number of parameters")
  rejectName libs "E_BAD_TOPIC" "DPUB topic" (params.getD 1 [])
  match byteToBase10 (params.getD 2 []) with
  | .error _ => throw (newFatalClientErr "E_INVALID"
      (text "DPUB could not parse timeout " ++ params.getD 2 []))
  | .ok timeoutMs => do
    let timeout := milliseconds timeoutMs
    rejectIf (timeout < 0 ∨ opts.maxReqTimeout < timeout)
      (invalid s!"DPUB timeout {timeoutMs} out of range 0-{(opts.maxReqTimeout / 1000000).toInt}")
    let messageBody ← putOneChecks libs opts w "DPUB" (params.getD 1 [])
    pure (messageBody, timeout)

/-- The count of an `MPUB` and its first message. -/
def readFirstMessage (maxMessageSize maxBodySize : ℤ) : Reader (List UInt8) := do
  let numMessages ← readLen (badBody "MPUB failed to read message count")
  rejectIf (numMessages.toInt ≤ 0 ∨ (maxBodySize - 4).tdiv 5 < numMessages.toInt)
    (badBody s!"MPUB invalid message count {numMessages.toInt}")
  let messageSize ← readLen (badMessage s!"MPUB failed to read message({0}) body size")
  rejectIf (messageSize.toInt ≤ 0)
    (badMessage s!"MPUB invalid message({0}) body size {messageSize.toInt}")
  rejectIf (maxMessageSize < messageSize.toInt)
    (badMessage s!"MPUB message too big {messageSize.toInt} > {maxMessageSize}")
  readFull messageSize.toInt.toNat (badMessage "MPUB failed to read message body")

/-- The checks of `MPUB`, up to its first message. -/
def mpubChecks (libs : Libs) (opts : Options) (w : World) (params : List (List UInt8)) :
    Handler (List UInt8) := do
  rejectIf (params.length < 2) (invalid "MPUB insufficient number of parameters")
  rejectName libs "E_BAD_TOPIC" "E_BAD_TOPIC MPUB topic" (params.getD 1 [])
  checkAuth libs opts w "MPUB" (params.getD 1 []) []
  reach (params.getD 1 []) []
  let _ ← readFrom (readMPUBLen opts)
  readFrom (readFirstMessage opts.maxMsgSize opts.maxBodySize)

/-- The checks of `SUB`. -/
def subChecks (libs : Libs) (opts : Options) (w : World) (params : List (List UInt8)) :
    Handler PUnit := do
  let c ← get
  rejectIf (c.state ≠ .init) (invalid "cannot SUB in current state")
  rejectIf (c.heartbeatInterval ≤ 0) (invalid "cannot SUB with heartbeats disabled")
  rejectIf (params.length < 3) (invalid "SUB insufficient number of parameters")
  rejectName libs "E_BAD_TOPIC" "SUB topic" (params.getD 1 [])
  rejectName libs "E_BAD_CHANNEL" "SUB channel" (params.getD 2 [])
  checkAuth libs opts w "SUB" (params.getD 1 []) (params.getD 2 [])
  reach (params.getD 1 []) (params.getD 2 [])

/-- A round of `SUB` that has no topic or no channel. -/
def SubRound.UsesNil (r : SubRound) : Prop := r.topic = false ∨ r.channel = false

/-- A round of `SUB` after which there is another one. -/
def SubRound.Again (r : SubRound) : Prop := r.addClient = none ∧ r.exiting = true

theorem putOne_eq (cmd : String) (topicName : List UInt8) (deferred : Int64) :
    putOne libs opts w cmd topicName deferred = (do
      let messageBody ← putOneChecks libs opts w cmd topicName
      rejectIf (w.topic = false) (.panic .nilTopic)
      put w cmd topicName [messageBody] deferred) := by
  simp only [putOne, putOneChecks, bind_assoc, pure_bind]

theorem clean_putOneChecks (cmd : String) (topicName : List UInt8) :
    Clean (putOneChecks libs opts w cmd topicName) := by
  refine clean_bind (clean_readFrom (clean_readMessageBody cmd)) fun _ => ?_
  refine clean_bind (clean_checkAuth _ _ _) fun _ => clean_bind (clean_modify _) fun _ => ?_
  exact clean_pure _

theorem pub_usesNil (params : List (List UInt8)) (c : ClientV2) :
    UsesNil (pub libs opts w params) c ↔ Passes (pubChecks libs opts w params) c ∧
      w.topic = false := by
  have heq : pub libs opts w params = (do
      let messageBody ← pubChecks libs opts w params
      rejectIf (w.topic = false) (.panic .nilTopic)
      put w "PUB" (params.getD 1 []) [messageBody] 0) := by
    simp only [pub, pubChecks, putOne_eq, bind_assoc]
  rw [heq]
  refine usesNil_bind_iff ?_ (fun body c' =>
    usesNil_rejectIf (e := .panic .nilTopic) trivial (clean_put _ _ _ _) c') c
  refine clean_bind (clean_rejectIf id) fun _ => clean_bind (clean_rejectIf id) fun _ => ?_
  exact clean_putOneChecks _ _

theorem dpub_usesNil (params : List (List UInt8)) (c : ClientV2) :
    UsesNil (dpub libs opts w params) c ↔ Passes (dpubChecks libs opts w params) c ∧
      w.topic = false := by
  have heq : dpub libs opts w params = (do
      let r ← dpubChecks libs opts w params
      rejectIf (w.topic = false) (.panic .nilTopic)
      put w "DPUB" (params.getD 1 []) [r.1] r.2) := by
    unfold dpub dpubChecks
    simp only [putOne_eq, bind_assoc]
    cases byteToBase10 (params.getD 2 []) with
    | error e => rfl
    | ok ms => simp only [bind_assoc, pure_bind]
  rw [heq]
  refine usesNil_bind_iff ?_ (fun r c' =>
    usesNil_rejectIf (e := .panic .nilTopic) trivial (clean_put _ _ _ _) c') c
  refine clean_bind (clean_rejectIf id) fun _ => clean_bind (clean_rejectIf id) fun _ => ?_
  cases byteToBase10 (params.getD 2 []) with
  | error e => exact clean_throw id
  | ok ms =>
      refine clean_bind (clean_rejectIf id) fun _ => ?_
      exact clean_bind (clean_putOneChecks _ _) fun _ => clean_pure _

theorem clean_readFirstMessage (maxMessageSize maxBodySize : ℤ) :
    Clean (readFirstMessage maxMessageSize maxBodySize) := by
  refine clean_bind (clean_readLen id) fun _ => clean_bind (clean_rejectIf id) fun _ => ?_
  refine clean_bind (clean_readLen id) fun _ => clean_bind (clean_rejectIf id) fun _ => ?_
  exact clean_bind (clean_rejectIf id) fun _ => clean_readFull _ id

theorem clean_readMessages (maxMessageSize : ℤ) (n : ℕ) :
    ∀ i, Clean (readMessages maxMessageSize true i n) := by
  induction n with
  | zero =>
      intro i
      exact clean_pure _
  | succ n ih =>
      intro i
      refine clean_bind (clean_readLen id) fun _ => clean_bind (clean_rejectIf id) fun _ => ?_
      refine clean_bind (clean_rejectIf id) fun _ => clean_bind (clean_readFull _ id) fun _ => ?_
      have hskip : rejectIf (true = false) (.panic .nilTopic) =
          (pure ⟨⟩ : Reader PUnit) := rfl
      rw [hskip, pure_bind]
      exact clean_bind (ih (i + 1)) fun _ => clean_pure _

/-- Without a topic an `MPUB` ends at its first message. -/
theorem readMPUB_usesNil (topic : Bool) (maxMessageSize maxBodySize : ℤ) (r : List UInt8) :
    UsesNil (readMPUB topic maxMessageSize maxBodySize) r ↔
      Passes (readFirstMessage maxMessageSize maxBodySize) r ∧ topic = false := by
  cases topic with
  | true =>
      refine ⟨fun h => absurd h (Clean.not_usesNil ?_ r), fun h => absurd h.2 (by simp)⟩
      exact clean_bind (clean_readLen id) fun _ => clean_bind (clean_rejectIf id) fun _ =>
        clean_readMessages _ _ 0
  | false =>
      have heq : readMPUB false maxMessageSize maxBodySize = (do
          let _ ← readFirstMessage maxMessageSize maxBodySize
          (throw (.panic .nilTopic) : Reader (List (List UInt8)))) := by
        unfold readMPUB readFirstMessage
        simp only [bind_assoc]
        congr 1
        funext count
        by_cases hcount : count.toInt ≤ 0 ∨ (maxBodySize - 4).tdiv 5 < count.toInt
        · simp only [rejectIf, if_pos hcount]
          rfl
        · obtain ⟨n, hn⟩ : ∃ n, count.toInt.toNat = n + 1 := ⟨count.toInt.toNat - 1, by omega⟩
          rw [hn]
          rfl
      rw [heq]
      refine usesNil_bind_iff (clean_readFirstMessage _ _) (fun _ _ => ?_) r
      simp [UsesNil, Fail.UsesNil]

theorem clean_readMPUBLen : Clean (readMPUBLen opts) :=
  clean_bind (clean_readLen id) fun _ => clean_bind (clean_rejectIf id) fun _ =>
    clean_bind (clean_rejectIf id) fun _ => clean_pure _

theorem mpub_usesNil (params : List (List UInt8)) (c : ClientV2) :
    UsesNil (mpub libs opts w params) c ↔ Passes (mpubChecks libs opts w params) c ∧
      w.topic = false := by
  refine usesNil_bind_passes (clean_rejectIf id) (fun _ c => ?_) c
  refine usesNil_bind_passes (clean_rejectIf id) (fun _ c => ?_) c
  refine usesNil_bind_passes (clean_checkAuth _ _ _) (fun _ c => ?_) c
  refine usesNil_bind_passes (clean_modify _) (fun _ c => ?_) c
  refine usesNil_bind_passes (clean_readFrom clean_readMPUBLen) (fun _ c => ?_) c
  rw [usesNil_bind_left _ fun _ => clean_put _ _ _ _]
  unfold UsesNil Passes
  rw [ensures_readFrom, ensures_readFrom]
  exact readMPUB_usesNil w.topic opts.maxMsgSize opts.maxBodySize c.reader

theorem subRound_eq {r : SubRound} (htopic : r.topic = true) (hchannel : r.channel = true) :
    subRound r = match r.addClient with
      | some err => throw (fatal "E_SUB_FAILED" s!"SUB failed {err}")
      | none => pure r.exiting := by
  obtain ⟨topic, channel, addClient, exiting⟩ := r
  cases htopic
  cases hchannel
  rfl

theorem clean_subRound {r : SubRound} (htopic : r.topic = true) (hchannel : r.channel = true) :
    Clean (subRound r) := by
  rw [subRound_eq htopic hchannel]
  cases r.addClient with
  | some err => exact clean_throw id
  | none => exact clean_pure _

theorem subRound_usesNil (r : SubRound) (c : ClientV2) : UsesNil (subRound r) c ↔ r.UsesNil := by
  unfold SubRound.UsesNil
  cases htopic : r.topic with
  | false => simp [UsesNil, subRound, htopic, Fail.UsesNil]
  | true =>
      cases hchannel : r.channel with
      | false => simp [UsesNil, subRound, htopic, hchannel, Fail.UsesNil]
      | true => simpa using (clean_subRound htopic hchannel).not_usesNil c

theorem subLoop_usesNil (c : ClientV2) :
    UsesNil (subLoop w) c ↔ (w.sub 1).UsesNil ∨ (w.sub 1).Again ∧ (w.sub 2).UsesNil := by
  by_cases hfirst : (w.sub 1).UsesNil
  · have h := (subRound_usesNil (w.sub 1) c).mpr hfirst
    refine ⟨fun _ => Or.inl hfirst, fun _ => ?_⟩
    unfold UsesNil subLoop
    rw [ensures_bind]
    exact h.imp (fun _ _ h => h.elim) fun _ _ h => h
  · have hparts : (w.sub 1).topic = true ∧ (w.sub 1).channel = true := by
      simpa [SubRound.UsesNil] using hfirst
    obtain ⟨htopic, hchannel⟩ := hparts
    unfold subLoop
    rw [usesNil_bind (clean_subRound htopic hchannel), or_iff_right hfirst]
    rw [subRound_eq htopic hchannel]
    unfold SubRound.Again
    cases hadd : (w.sub 1).addClient with
    | some err => simp
    | none =>
        cases hexit : (w.sub 1).exiting with
        | false => simp [UsesNil]
        | true =>
            have hsecond := usesNil_bind_left (subRound (w.sub 2)) (f := fun again =>
              rejectIf (again = true) (fatal "E_SUB_FAILED" "SUB failed to deleted topic/channel"))
              (fun _ => clean_rejectIf id) c
            rw [subRound_usesNil] at hsecond
            simpa using hsecond

theorem sub_usesNil (params : List (List UInt8)) (c : ClientV2) :
    UsesNil (sub libs opts w params) c ↔ Passes (subChecks libs opts w params) c ∧
      ((w.sub 1).UsesNil ∨ (w.sub 1).Again ∧ (w.sub 2).UsesNil) := by
  refine usesNil_bind_passes clean_get (fun c₀ c => ?_) c
  refine usesNil_bind_passes (clean_rejectIf id) (fun _ c => ?_) c
  refine usesNil_bind_passes (clean_rejectIf id) (fun _ c => ?_) c
  refine usesNil_bind_passes (clean_rejectIf id) (fun _ c => ?_) c
  refine usesNil_bind_passes (clean_rejectIf id) (fun _ c => ?_) c
  refine usesNil_bind_passes (clean_rejectIf id) (fun _ c => ?_) c
  refine usesNil_bind_passes (clean_checkAuth _ _ _) (fun _ c => ?_) c
  refine usesNil_bind_iff (clean_modify _) (fun _ c => ?_) c
  rw [usesNil_bind_left _ fun _ => clean_bind (clean_modify _) fun _ => clean_pure _]
  exact subLoop_usesNil c

end Commands

/-! ### Requests -/

section Requests

def HTTPFail.UsesNil : HTTPFail → Prop
  | .err _ => False
  | .panic p => Fail.UsesNil (.panic p)

/-- The handler of the request ends at a nil topic. -/
def HTTPUsesNil {α : Type} : HTTP α → Prop
  | .ok _ => False
  | .error e => e.UsesNil

/-- The request passes, and `p` holds of what is returned. -/
def HTTPReturns {α : Type} (p : α → Prop) : HTTP α → Prop
  | .ok a => p a
  | .error _ => False

/-- What comes behind checks goes wrong where further checks pass. -/
theorem httpUsesNil_bind {α β γ : Type} {m : HTTP α} (hm : ¬ HTTPUsesNil m) {f : α → HTTP β}
    {g : α → HTTP γ} {p : γ → Prop} (hf : ∀ a, HTTPUsesNil (f a) ↔ HTTPReturns p (g a)) :
    HTTPUsesNil (m >>= f) ↔ HTTPReturns p (m >>= g) := by
  cases m with
  | ok a => exact hf a
  | error e => exact ⟨fun h => absurd h hm, fun h => h.elim⟩

theorem not_httpUsesNil_bind {α β : Type} {m : HTTP α} {f : α → HTTP β} (hm : ¬ HTTPUsesNil m)
    (hf : ∀ a, ¬ HTTPUsesNil (f a)) : ¬ HTTPUsesNil (m >>= f) := by
  cases m with
  | ok a => exact hf a
  | error e => exact hm

theorem not_httpUsesNil_reject (p : Prop) [Decidable p] (code : ℕ) (text : String) :
    ¬ HTTPUsesNil (httpReject p code text) := by
  unfold httpReject
  by_cases hp : p <;> simp [hp, httpErr, HTTPUsesNil, HTTPFail.UsesNil]

theorem not_httpUsesNil_topicFromQuery (req : HTTPRequest) :
    ¬ HTTPUsesNil (topicFromQuery req) := by
  unfold topicFromQuery
  cases req.query with
  | none => exact id
  | some reqParams =>
      simp only
      cases reqParams "topic" with
      | none => exact id
      | some name =>
          simp only
          by_cases hname : isValidTopicName name = true
          · rw [if_pos hname]
            exact id
          · rw [if_neg hname]
            exact id

theorem not_httpUsesNil_pubBody (req : HTTPRequest) : ¬ HTTPUsesNil (pubBody opts req) := by
  refine not_httpUsesNil_bind (not_httpUsesNil_reject _ _ _) fun _ => ?_
  refine not_httpUsesNil_bind (not_httpUsesNil_reject _ _ _) fun _ => ?_
  refine not_httpUsesNil_bind (not_httpUsesNil_reject _ _ _) fun _ => ?_
  exact not_httpUsesNil_bind (not_httpUsesNil_reject _ _ _) fun _ => id

theorem not_httpUsesNil_deferParam (reqParams : String → Option String) :
    ¬ HTTPUsesNil (deferParam opts reqParams) := by
  unfold deferParam
  cases reqParams "defer" with
  | none => exact id
  | some ds =>
      simp only
      cases parseInt ds with
      | none => exact id
      | some di => exact not_httpUsesNil_bind (not_httpUsesNil_reject _ _ _) fun _ => id

/-- The checks of `/pub`: the name of the topic. -/
def pubRequestChecks (opts : Options) (req : HTTPRequest) : HTTP String := do
  let _ ← pubBody opts req
  let (reqParams, topicName) ← topicFromQuery req
  let _ ← deferParam opts reqParams
  .ok topicName

/-- A method of the topic, and what comes then. -/
theorem useTopic_bind_usesNil {α : Type} (topic : Bool) {f : PUnit → HTTP α}
    (hf : ¬ HTTPUsesNil (f ⟨⟩)) : HTTPUsesNil (useTopic topic >>= f) ↔ topic = false := by
  cases topic with
  | false => exact ⟨fun _ => rfl, fun _ => trivial⟩
  | true => exact ⟨fun h => absurd h hf, fun h => by cases h⟩

theorem doPUB_usesNil (getTopic : String → Bool) (putErr : GoError) (req : HTTPRequest) :
    HTTPUsesNil (doPUB opts getTopic putErr req) ↔
      HTTPReturns (fun topicName => getTopic topicName = false) (pubRequestChecks opts req) := by
  refine httpUsesNil_bind (not_httpUsesNil_pubBody req) fun body => ?_
  refine httpUsesNil_bind (not_httpUsesNil_topicFromQuery req) fun r => ?_
  obtain ⟨reqParams, topicName⟩ := r
  refine httpUsesNil_bind (not_httpUsesNil_deferParam reqParams) fun deferred => ?_
  refine useTopic_bind_usesNil (getTopic topicName) ?_
  exact not_httpUsesNil_bind (not_httpUsesNil_reject _ _ _) fun _ => id

/-- The loop of the text mode up to the first message. -/
def firstLine (opts : Options) (fails : Bool) : ℕ → List (List UInt8) → HTTP PUnit
  | _, [] => .ok ⟨⟩
  | total, block :: rest => do
    httpReject (rest.isEmpty = true ∧ fails = true) 500 "INTERNAL_ERROR"
    let total := total + block.length + if rest.isEmpty then 0 else 1
    httpReject ((total : ℤ) = opts.maxBodySize + 1) 413 "BODY_TOO_BIG"
    if block.isEmpty then firstLine opts fails total rest
    else httpReject (opts.maxMsgSize < block.length) 413 "MSG_TOO_BIG"

/-- The checks of `/mpub`, up to its first message. -/
def mpubRequestChecks (opts : Options) (req : HTTPRequest) : HTTP String := do
  httpReject (opts.maxBodySize < req.contentLength) 413 "BODY_TOO_BIG"
  let (reqParams, topicName) ← topicFromQuery req
  if binaryMode reqParams then
    match readFirstMessage opts.maxMsgSize opts.maxBodySize req.body with
    | .ok _ _ => .ok topicName
    | .error _ _ => httpErr 413 "BAD_MESSAGE"
  else do
    let readMax := opts.maxBodySize + 1
    firstLine opts (req.fails readMax) 0 ((req.limited readMax).splitOn 10)
    .ok topicName

theorem not_httpUsesNil_mpubLines (fails : Bool) (blocks : List (List UInt8)) :
    ∀ total, ¬ HTTPUsesNil (mpubLines opts fails true total blocks) := by
  induction blocks with
  | nil =>
      intro total
      exact id
  | cons block rest ih =>
      intro total
      refine not_httpUsesNil_bind (not_httpUsesNil_reject _ _ _) fun _ => ?_
      refine not_httpUsesNil_bind (not_httpUsesNil_reject _ _ _) fun _ => ?_
      split
      · exact ih _
      · refine not_httpUsesNil_bind (not_httpUsesNil_reject _ _ _) fun _ => ?_
        refine not_httpUsesNil_bind id fun _ => ?_
        exact not_httpUsesNil_bind (ih _) fun _ => id

variable (opts) in
/-- Without a topic the text mode ends at the first message, or at `PutMessages` if there is
none. -/
theorem mpubLines_usesNil (fails : Bool) (blocks : List (List UInt8)) :
    ∀ total, HTTPUsesNil (mpubLines opts fails false total blocks >>= fun _ => useTopic false) ↔
      HTTPReturns (fun _ => True) (firstLine opts fails total blocks) := by
  induction blocks with
  | nil =>
      intro total
      exact ⟨fun _ => trivial, fun _ => trivial⟩
  | cons block rest ih =>
      intro total
      unfold mpubLines firstLine
      rw [bind_assoc]
      refine httpUsesNil_bind (not_httpUsesNil_reject _ _ _) fun _ => ?_
      rw [bind_assoc]
      refine httpUsesNil_bind (not_httpUsesNil_reject _ _ _) fun _ => ?_
      by_cases hblock : block.isEmpty = true
      · rw [if_pos hblock, if_pos hblock]
        exact ih _
      · rw [if_neg hblock, if_neg hblock, bind_assoc]
        unfold httpReject
        by_cases hbig : opts.maxMsgSize < block.length
        · rw [if_pos hbig]
          exact ⟨fun h => h.elim, fun h => h.elim⟩
        · rw [if_neg hbig]
          exact ⟨fun _ => trivial, fun _ => trivial⟩

variable (opts) in
theorem mpubBinary_usesNil (topic : Bool) (req : HTTPRequest) :
    HTTPUsesNil (mpubBinary opts topic req) ↔
      Passes (readFirstMessage opts.maxMsgSize opts.maxBodySize) req.body ∧ topic = false := by
  rw [← readMPUB_usesNil]
  unfold mpubBinary UsesNil Ensures
  cases readMPUB topic opts.maxMsgSize opts.maxBodySize req.body with
  | ok messages r => exact Iff.rfl
  | error e r => cases e <;> exact Iff.rfl

theorem not_mpubBinary_ok (req : HTTPRequest) (messages : List (List UInt8)) :
    mpubBinary opts false req ≠ .ok messages := by
  have hnone := readMPUB_noTopic opts.maxMsgSize opts.maxBodySize req.body
  unfold mpubBinary
  unfold Ensures at hnone
  cases hr : readMPUB false opts.maxMsgSize opts.maxBodySize req.body with
  | ok messages r =>
      rw [hr] at hnone
      exact hnone.elim
  | error e r => cases e <;> simp [httpErr]

theorem doMPUB_usesNil (getTopic : String → Bool) (putErr : GoError) (req : HTTPRequest) :
    HTTPUsesNil (doMPUB opts getTopic putErr req) ↔
      HTTPReturns (fun topicName => getTopic topicName = false) (mpubRequestChecks opts req) := by
  refine httpUsesNil_bind (not_httpUsesNil_reject _ _ _) fun _ => ?_
  refine httpUsesNil_bind (not_httpUsesNil_topicFromQuery req) fun r => ?_
  obtain ⟨reqParams, topicName⟩ := r
  have hput : ∀ msgs, ¬ HTTPUsesNil (httpReject (putErr.isSome = true) 503 "EXITING" >>= fun _ =>
      (.ok msgs : HTTP (List (List UInt8)))) := fun msgs =>
    not_httpUsesNil_bind (not_httpUsesNil_reject _ _ _) fun _ => id
  simp only
  cases htopic : getTopic topicName with
  | true =>
      refine iff_of_false ?_ ?_
      · have hafter : ∀ msgs, ¬ HTTPUsesNil (useTopic true >>= fun _ =>
            httpReject (putErr.isSome = true) 503 "EXITING" >>= fun _ =>
              (.ok msgs : HTTP (List (List UInt8)))) := fun msgs => hput msgs
        by_cases hbinary : binaryMode reqParams = true
        · rw [if_pos hbinary]
          refine not_httpUsesNil_bind ?_ hafter
          rw [mpubBinary_usesNil]
          simp
        · rw [if_neg hbinary]
          exact not_httpUsesNil_bind (not_httpUsesNil_mpubLines _ _ 0) hafter
      · by_cases hbinary : binaryMode reqParams = true
        · rw [if_pos hbinary]
          cases readFirstMessage opts.maxMsgSize opts.maxBodySize req.body with
          | ok body r => simp [HTTPReturns, htopic]
          | error e r => exact id
        · rw [if_neg hbinary]
          cases firstLine opts (req.fails (opts.maxBodySize + 1)) 0
              ((req.limited (opts.maxBodySize + 1)).splitOn 10) with
          | ok u => simp [HTTPReturns, htopic, bind, Except.bind]
          | error e => exact id
  | false =>
      have hskip : ∀ msgs : List (List UInt8), (useTopic false >>= fun _ =>
          httpReject (putErr.isSome = true) 503 "EXITING" >>= fun _ =>
            (.ok msgs : HTTP (List (List UInt8)))) = .error (.panic .nilTopic) := fun _ => rfl
      simp only [hskip]
      by_cases hbinary : binaryMode reqParams = true
      · rw [if_pos hbinary, if_pos hbinary]
        have hpasses := mpubBinary_usesNil opts false req
        unfold Passes Ensures at hpasses
        cases hb : mpubBinary opts false req with
        | ok messages => exact absurd hb (not_mpubBinary_ok req messages)
        | error e =>
            rw [hb] at hpasses
            refine Iff.trans (show _ ↔ HTTPUsesNil (.error e : HTTP PUnit) from Iff.rfl) ?_
            refine Iff.trans hpasses ?_
            cases readFirstMessage opts.maxMsgSize opts.maxBodySize req.body with
            | ok body r => simp [HTTPReturns, htopic]
            | error e r => simp [HTTPReturns, httpErr]
      · rw [if_neg hbinary, if_neg hbinary]
        have hlines := mpubLines_usesNil opts (req.fails (opts.maxBodySize + 1))
          ((req.limited (opts.maxBodySize + 1)).splitOn 10) 0
        have hsame : HTTPUsesNil (mpubText opts false req >>= fun _ =>
            (.error (.panic .nilTopic) : HTTP (List (List UInt8)))) ↔
              HTTPUsesNil (mpubText opts false req >>= fun _ => useTopic false) := by
          cases mpubText opts false req <;> exact Iff.rfl
        rw [hsame]
        refine Iff.trans hlines ?_
        cases firstLine opts (req.fails (opts.maxBodySize + 1)) 0
            ((req.limited (opts.maxBodySize + 1)).splitOn 10) with
        | ok u => simp [HTTPReturns, htopic, bind, Except.bind]
        | error e => exact Iff.rfl

theorem doCreateChannel_usesNil (getExistingTopic : String → Bool) (req : HTTPRequest) :
    ¬ HTTPUsesNil (doCreateChannel getExistingTopic req) := by
  refine not_httpUsesNil_bind ?_ fun reqParams => not_httpUsesNil_bind ?_ fun names => ?_
  · unfold newReqParams
    cases req.query with
    | none => exact id
    | some reqParams =>
        simp only
        cases req.bodyErr <;> exact id
  · unfold getTopicChannelArgs
    cases reqParams "topic" with
    | none => exact id
    | some topicName =>
        simp only
        split
        · cases reqParams "channel" with
          | none => exact id
          | some channelName =>
              simp only
              split <;> exact id
        · exact id
  · exact not_httpUsesNil_bind (not_httpUsesNil_reject _ _ _) fun _ => id

end Requests

end Xmq.V2
