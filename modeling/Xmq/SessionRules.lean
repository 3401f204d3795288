import Xmq.ProtocolV2
import Xmq.Runs

/-!
# The rules of a session

Which commands do something in which state of a client, what comes before the TLS policy, and that no
topic is reached but through an authorization. `CheckAuth` asks again when an authorization has run
out, and takes the answer without another look at its time: an answer with a time to live that
overflows has run out before it came.

* `Mediated` is about one round of the loop, `session_mediated` about every run of it.
-/

namespace Xmq.V2

/-! ### Effects -/

def Effect.isSubscribed : Effect → Bool
  | .subscribed _ _ => true
  | .obtained _ _ | .reached _ _ _ _ | .put _ _ _ | .finish _ _ | .requeue _ _ _
  | .touch _ _ _ => false

/-- The authorizations allow it, had not run out when they were looked at in this round, and are an
answer to this client. -/
def Allowed (libs : Libs) (opts : Options) (w : World) (all : List Effect)
    (topic channel : List UInt8) (auth : Option Auth.State) (clock : ℤ) : Prop :=
  isAuthEnabled opts = true → ∃ a, auth = some a ∧
    a.isAllowed libs.regexp topic channel = some true ∧ a.isExpired clock = false ∧
      (clock = w.nowCheck ∨ clock = w.nowQuery) ∧ ∃ query, .obtained query a ∈ all

/-- What is reached is allowed, and to subscribe or to publish is to reach the topic first. -/
def Effect.Mediated (libs : Libs) (opts : Options) (w : World) (all new : List Effect) :
    Effect → Prop
  | .reached topic channel auth clock => Allowed libs opts w all topic channel auth clock
  | .subscribed topic channel => ∃ auth clock, .reached topic channel auth clock ∈ new
  | .put topic _ _ => ∃ auth clock, .reached topic [] auth clock ∈ new
  | .obtained _ _ | .finish _ _ | .requeue _ _ _ | .touch _ _ _ => True

/-! ### Rules -/

/-- The parameters of the next command. -/
def Conn.next (s : Conn) : Option (List (List UInt8)) :=
  (readSlice s.client.reader).map fun l => splitParams l.1

/-- All that is new is what was read and what was sent. -/
def Unchanged (s s' : Conn) : Prop :=
  { s'.client with reader := s.client.reader, sent := s.client.sent } = s.client

/-- The rules for one round of the loop. -/
structure Mediated (libs : Libs) (opts : Options) (s : Conn) (w : World) (s' : Conn) : Prop where
  /-- A channel that is not there, authorizations that are not there, and patterns that do not
  compile are never used. -/
  panics : ∀ p, s'.status = .crashed p → p = .nilTopic ∨ p = .nilChannel
  subscribed : s'.client.effects.countP Effect.isSubscribed ≤ 1
  initial : ∀ params ∈ s.next,
    commandOf params ∈ [some .identify, some .auth, some .sub] → s.client.state ≠ .init →
      Unchanged s s'
  closing : ∀ params ∈ s.next, commandOf params = some .rdy → s.client.state = .closing →
    Unchanged s s'
  tls : ∀ params ∈ s.next, commandOf params ≠ some .identify → opts.tlsRequired = true →
    s.client.tls = false → Unchanged s s'
  effects : ∃ new, s'.client.effects = s.client.effects ++ new ∧
    ∀ e ∈ new, e.Mediated libs opts w s'.client.effects new

/-! ### The condition -/

/-- The topic and the channel that a command asks `CheckAuth` for. -/
def authTarget (params : List (List UInt8)) : Option (List UInt8 × List UInt8) :=
  match commandOf params with
  | some .sub => some (params.getD 1 [], params.getD 2 [])
  | some .pub | some .mpub | some .dpub => some (params.getD 1 [], [])
  | _ => none

/-- Authorizations that have run out are not replaced by ones that allow the same and whose time to
live is negative as a duration. -/
def ClientV2.Renews (libs : Libs) (opts : Options) (w : World) (c : ClientV2)
    (topic channel : List UInt8) : Prop :=
  ∀ a ∈ c.authState, a.isExpired w.nowCheck = true →
    ∀ r ∈ (c.queryAnyAuthd libs opts w).toOption,
      r.2.isAllowed libs.regexp topic channel = some true → 0 ≤ Auth.duration r.2.ttl

instance (libs : Libs) (opts : Options) (w : World) (c : ClientV2) (topic channel : List UInt8) :
    Decidable (c.Renews libs opts w topic channel) :=
  Option.decidableForallMem _

def Renews (libs : Libs) (opts : Options) (s : Conn) (w : World) : Prop :=
  ∀ params ∈ s.next, ∀ t ∈ authTarget params, s.client.Renews libs opts w t.1 t.2

instance (libs : Libs) (opts : Options) (s : Conn) (w : World) :
    Decidable (Renews libs opts s w) :=
  Option.decidableForallMem _

/-! ### What a command keeps -/

/-- Errors, and the panics that a session may end with. -/
def Fail.Clean : Fail → Prop
  | .protocol _ => True
  | .panic p => p = .nilTopic ∨ p = .nilChannel

theorem Fail.Fatal.clean {e : Fail} (h : e.Fatal) : e.Clean := by
  obtain ⟨_, _, rfl⟩ := h
  exact trivial

theorem Fail.FatalOrNoTopic.clean {e : Fail} (h : e.FatalOrNoTopic) : e.Clean := by
  rcases h with h | rfl
  · exact h.clean
  · exact Or.inl rfl

/-- What holds of a client between any two steps of a session. -/
structure ClientV2.Inv (libs : Libs) (c : ClientV2) : Prop where
  hasChannel : c.state = .init ↔ c.channel = none
  subscribed : c.effects.countP Effect.isSubscribed = if c.state = .init then 0 else 1
  compiles : ∀ a ∈ c.authState, a.Compiles libs.regexp
  obtained : ∀ a ∈ c.authState, ∃ query, .obtained query a ∈ c.effects

/-- The invariant within a round, which began with the effects `old`. -/
structure Within (libs : Libs) (opts : Options) (w : World) (old : List Effect) (c : ClientV2) :
    Prop extends c.Inv libs where
  mediated : ∃ new, c.effects = old ++ new ∧ ∀ e ∈ new, e.Mediated libs opts w c.effects new

/-- The topic was reached in this round. -/
def Reached (old : List Effect) (topic channel : List UInt8) (c : ClientV2) : Prop :=
  ∃ auth clock, .reached topic channel auth clock ∈ c.effects.drop old.length

/-- What neither the invariant nor the condition looks at may differ. -/
structure SameSession (c c' : ClientV2) : Prop where
  state : c'.state = c.state
  channel : c'.channel = c.channel
  authState : c'.authState = c.authState
  effects : c'.effects = c.effects

theorem SameSession.refl (c : ClientV2) : SameSession c c := ⟨rfl, rfl, rfl, rfl⟩

theorem SameSession.trans (c₁ c₂ c₃ : ClientV2) (h : SameSession c₁ c₂) (h' : SameSession c₂ c₃) :
    SameSession c₁ c₃ :=
  ⟨h'.state.trans h.state, h'.channel.trans h.channel, h'.authState.trans h.authState,
    h'.effects.trans h.effects⟩

theorem SameButSettings.sameSession {c c' : ClientV2} (h : SameButSettings c c') :
    SameSession c c' := by
  obtain ⟨_, _, _, _, _, rfl⟩ := h
  exact ⟨rfl, rfl, rfl, rfl⟩

theorem Effect.Mediated.mono {libs : Libs} {opts : Options} {w : World}
    {all all' new new' : List Effect} {e : Effect} (h : e.Mediated libs opts w all new)
    (hall : all ⊆ all') (hnew : new ⊆ new') : e.Mediated libs opts w all' new' := by
  cases e with
  | reached topic channel auth clock =>
      intro henabled
      obtain ⟨a, hauth, hallowed, hexpired, hclock, query, hquery⟩ := h henabled
      exact ⟨a, hauth, hallowed, hexpired, hclock, query, hall hquery⟩
  | subscribed topic channel =>
      obtain ⟨auth, clock, h⟩ := h
      exact ⟨auth, clock, hnew h⟩
  | put topic bodies deferred =>
      obtain ⟨auth, clock, h⟩ := h
      exact ⟨auth, clock, hnew h⟩
  | obtained _ _ | finish _ _ | requeue _ _ _ | touch _ _ _ => exact trivial

section Within

variable {libs : Libs} {opts : Options} {w : World} {old : List Effect} {c c' : ClientV2}
  {topic channel : List UInt8}

theorem ClientV2.Inv.within (h : c.Inv libs) : Within libs opts w c.effects c where
  toInv := h
  mediated := ⟨[], (List.append_nil _).symm, nofun⟩

theorem Within.same (hc : Within libs opts w old c) (h : SameSession c c') :
    Within libs opts w old c' where
  hasChannel := by
    rw [h.state, h.channel]
    exact hc.hasChannel
  subscribed := by
    rw [h.state, h.effects]
    exact hc.subscribed
  compiles := by
    rw [h.authState]
    exact hc.compiles
  obtained := by
    rw [h.authState, h.effects]
    exact hc.obtained
  mediated := by
    rw [h.effects]
    exact hc.mediated

/-- One more effect keeps what was done before mediated. -/
theorem mediated_append {es : List Effect} {e : Effect}
    (hes : ∃ new, es = old ++ new ∧ ∀ e ∈ new, e.Mediated libs opts w es new)
    (he : e.Mediated libs opts w (es ++ [e]) ((es ++ [e]).drop old.length)) :
    ∃ new, es ++ [e] = old ++ new ∧ ∀ e' ∈ new, e'.Mediated libs opts w (es ++ [e]) new := by
  obtain ⟨new, rfl, hnew⟩ := hes
  refine ⟨new ++ [e], List.append_assoc .., fun e' he' => ?_⟩
  rw [List.append_assoc, List.drop_left' rfl, ← List.append_assoc] at he
  rcases List.mem_append.mp he' with he' | he'
  · exact (hnew e' he').mono (List.subset_append_left ..) (List.subset_append_left ..)
  · rw [List.mem_singleton.mp he']
    exact he

/-- An effect that is no subscription keeps the invariant when it is mediated. -/
theorem Within.effect (hc : Within libs opts w old c) {e : Effect} (hno : e.isSubscribed = false)
    (he : e.Mediated libs opts w (c.effects ++ [e]) ((c.effects ++ [e]).drop old.length)) :
    Within libs opts w old { c with effects := c.effects ++ [e] } where
  hasChannel := hc.hasChannel
  subscribed := by
    show (c.effects ++ [e]).countP Effect.isSubscribed = _
    rw [List.countP_append, List.countP_singleton, hno, hc.subscribed]
    rfl
  compiles := hc.compiles
  obtained := fun a ha =>
    let ⟨query, h⟩ := hc.obtained a ha
    ⟨query, List.mem_append_left _ h⟩
  mediated := mediated_append hc.mediated he

/-! ### Authorizations -/

/-- The authorizations are there, and had not run out if they allow the topic and the channel. -/
structure ClientV2.Looked (libs : Libs) (w : World) (topic channel : List UInt8) (c : ClientV2) :
    Prop where
  renewed : ∃ a, c.authState = some a ∧
    (a.isAllowed libs.regexp topic channel = some true → a.isExpired c.clock = false)
  clock : c.clock = w.nowCheck ∨ c.clock = w.nowQuery

/-- What a client may reach. -/
def ClientV2.Passed (libs : Libs) (opts : Options) (w : World) (topic channel : List UInt8)
    (c : ClientV2) : Prop :=
  Allowed libs opts w c.effects topic channel c.authState c.clock

/-- An answer that is accepted has patterns that compile, and its time comes from its time to
live. -/
theorem queryAnyAuthd_accepted {r : AuthQuery × Auth.State}
    (h : c.queryAnyAuthd libs opts w = .ok r) :
    r.2.Compiles libs.regexp ∧ r.2.expires = w.nowQuery + (Auth.duration r.2.ttl).toInt := by
  unfold ClientV2.queryAnyAuthd at h
  split at h
  · cases h
  · rename_i remoteIP _
    cases hquery : Auth.queryAnyAuthd libs.regexp (w.authd (c.authQuery w remoteIP)) w.nowQuery
        w.start opts.authHTTPAddresses with
    | error err =>
        rw [hquery] at h
        cases h
    | ok a =>
        rw [hquery] at h
        cases h
        exact Auth.queryAnyAuthd_ok hquery

/-- With auth servers, there is an answer or an error. -/
theorem queryAnyAuthd_ne (henabled : isAuthEnabled opts = true) :
    c.queryAnyAuthd libs opts w ≠ .error none := by
  intro h
  unfold ClientV2.queryAnyAuthd at h
  split at h
  · cases h
  · rename_i remoteIP _
    cases hquery : Auth.queryAnyAuthd libs.regexp (w.authd (c.authQuery w remoteIP)) w.nowQuery
        w.start opts.authHTTPAddresses with
    | error err =>
        rw [hquery] at h
        cases h
        rw [isAuthEnabled, Auth.queryAnyAuthd_error_none hquery] at henabled
        cases henabled
    | ok a =>
        rw [hquery] at h
        cases h

/-- An answer takes the place of what was there. -/
theorem Within.obtain (hc : Within libs opts w old c) {r : AuthQuery × Auth.State}
    (h : c.queryAnyAuthd libs opts w = .ok r) :
    Within libs opts w old
      { c with authState := some r.2, effects := c.effects ++ [.obtained r.1 r.2] } where
  hasChannel := hc.hasChannel
  subscribed := (hc.effect (e := .obtained r.1 r.2) rfl trivial).subscribed
  compiles := fun a ha => Option.mem_some.mp ha ▸ (queryAnyAuthd_accepted h).1
  obtained := fun a ha => ⟨r.1, by
    rw [← Option.mem_some.mp ha]
    exact List.mem_append_right _ (List.mem_singleton_self _)⟩
  mediated := mediated_append hc.mediated trivial

/-- The auth servers are asked, and what they answer is there if they do. -/
theorem queryAuthd_spec (henabled : isAuthEnabled opts = true) (hc : Within libs opts w old c) :
    Ensures (queryAuthd libs opts w) c
      (fun err c' => (Within libs opts w old c' ∧ c'.state = c.state) ∧ (err = none →
        ∃ r, c.queryAnyAuthd libs opts w = .ok r ∧ c'.authState = some r.2 ∧ c'.clock = c.clock))
      fun _ _ => False := by
  rw [queryAuthd, ensures_bind, ensures_get]
  cases hquery : c.queryAnyAuthd libs opts w with
  | error err =>
      cases err with
      | none => exact absurd hquery (queryAnyAuthd_ne henabled)
      | some err => exact ⟨⟨hc, rfl⟩, nofun⟩
  | ok r => exact ⟨⟨hc.obtain hquery, rfl⟩, fun _ => ⟨r, rfl, rfl, rfl⟩⟩

theorem refreshAuth_spec (henabled : isAuthEnabled opts = true) (hc : Within libs opts w old c)
    {a : Auth.State} (ha : c.authState = some a)
    (hrenews : c.Renews libs opts w topic channel) :
    Ensures (refreshAuth libs opts w a) c
      (fun err c' => (Within libs opts w old c' ∧ c'.state = c.state) ∧
        (err = none → c'.Looked libs w topic channel)) fun _ _ => False := by
  rw [refreshAuth, ensures_bind, ensures_modify, ensures_ite]
  refine ⟨fun hexpired => ?_, fun hexpired => ?_⟩
  · have hclock : Within libs opts w old { c with clock := w.nowQuery } :=
      hc.same ⟨rfl, rfl, rfl, rfl⟩
    rw [ensures_bind, ensures_modify]
    refine (queryAuthd_spec henabled hclock).imp (fun err c₁ h => ⟨h.1, ?_⟩) fun _ _ h => h
    intro herr
    obtain ⟨r, hquery, hstate, hclock⟩ := h.2 herr
    refine ⟨⟨r.2, hstate, fun hallowed => ?_⟩, Or.inr hclock⟩
    have hrenew := hrenews a ha hexpired r (by
      rw [show c.queryAnyAuthd libs opts w = .ok r from hquery]
      rfl) hallowed
    have hduration : 0 ≤ (Auth.duration r.2.ttl).toInt := Int64.le_iff_toInt_le.mp hrenew
    have hexpires := (queryAnyAuthd_accepted hquery).2
    have hlater : ¬ r.2.expires < w.nowQuery := by omega
    rw [hclock]
    exact decide_eq_false hlater
  · refine ⟨⟨hc.same ⟨rfl, rfl, rfl, rfl⟩, rfl⟩, fun _ => ⟨⟨a, ha, fun _ => ?_⟩, Or.inl rfl⟩⟩
    exact Bool.eq_false_iff.mpr hexpired

theorem allowedNow_spec (hc : Within libs opts w old c) (h : c.Looked libs w topic channel) :
    Ensures (allowedNow libs topic channel) c
      (fun ok c' => c' = c ∧ (ok = true → c.Passed libs opts w topic channel)) fun _ _ => False := by
  obtain ⟨a, ha, hexpired⟩ := h.renewed
  obtain ⟨query, hquery⟩ := hc.obtained a ha
  obtain ⟨ok, hok⟩ := Option.isSome_iff_exists.mp
    (Auth.isAllowed_isSome (hc.compiles a ha) topic channel)
  rw [allowedNow, ensures_bind, ensures_get, ha]
  simp only [hok, ensures_pure]
  refine ⟨trivial, fun htrue _ => ?_⟩
  subst htrue
  exact ⟨a, ha, hok, hexpired hok, h.clock, query, hquery⟩

theorem isAuthorized_spec (henabled : isAuthEnabled opts = true) (hc : Within libs opts w old c)
    (hrenews : c.Renews libs opts w topic channel) :
    Ensures (isAuthorized libs opts w topic channel) c
      (fun r c' => (Within libs opts w old c' ∧ c'.state = c.state) ∧
        (r = .ok true → c'.Passed libs opts w topic channel)) fun _ _ => False := by
  rw [isAuthorized, ensures_bind, ensures_get]
  cases ha : c.authState with
  | none => exact ⟨⟨hc, rfl⟩, nofun⟩
  | some a =>
      show Ensures (refreshAuth libs opts w a >>= _) c _ _
      rw [ensures_bind]
      refine (refreshAuth_spec henabled hc ha hrenews).imp (fun err c₁ h => ?_) fun _ _ h => h
      obtain ⟨⟨hc₁, hstate⟩, hlooked⟩ := h
      cases err with
      | some err => exact ⟨⟨hc₁, hstate⟩, nofun⟩
      | none =>
          show Ensures (allowedNow libs topic channel >>= _) c₁ _ _
          rw [ensures_bind]
          refine (allowedNow_spec hc₁ (hlooked rfl)).imp (fun ok c₂ h => ?_) fun _ _ h => h
          obtain ⟨rfl, hpassed⟩ := h
          refine ⟨⟨hc₁, hstate⟩, fun hok => hpassed ?_⟩
          injection hok

/-- **`CheckAuth`.** Who gets through may reach the topic and the channel. -/
theorem checkAuth_spec (cmd : String) (hc : Within libs opts w old c)
    (hrenews : c.Renews libs opts w topic channel) :
    Ensures (checkAuth libs opts w cmd topic channel) c
      (fun _ c' => (Within libs opts w old c' ∧ c'.state = c.state) ∧
        c'.Passed libs opts w topic channel)
      fun e c' => e.Clean ∧ Within libs opts w old c' := by
  rw [checkAuth, ensures_ite]
  refine ⟨fun henabled => ?_, fun hdisabled => ⟨⟨hc, rfl⟩, fun h => absurd h hdisabled⟩⟩
  simp only [ensures_bind, ensures_get, ensures_rejectIf]
  refine ⟨fun _ => ⟨trivial, hc⟩, fun _ => ?_⟩
  refine (isAuthorized_spec henabled hc hrenews).imp (fun r c₁ h => ?_) fun _ _ h => h.elim
  obtain ⟨hc₁, hpassed⟩ := h
  cases r with
  | error err => exact ⟨trivial, hc₁.1⟩
  | ok ok =>
      show Ensures (rejectIf (ok = false) _) c₁ _ _
      rw [ensures_rejectIf]
      refine ⟨fun _ => ⟨trivial, hc₁.1⟩, fun hok => ⟨hc₁, hpassed ?_⟩⟩
      rw [Bool.not_eq_false] at hok
      rw [hok]

/-! ### Commands -/

theorem readFrom_keeps {α : Type} {m : Reader α}
    (hm : ∀ r, Ensures m r (fun _ _ => True) fun e _ => e.Clean) :
    Keeps (Within libs opts w old) Fail.Clean (readFrom m) := by
  intro c hc
  have hread : ∀ r, Within libs opts w old { c with reader := r } := fun r =>
    hc.same ⟨rfl, rfl, rfl, rfl⟩
  rw [ensures_readFrom]
  exact (hm c.reader).imp (fun _ r _ => hread r) fun _ r he => ⟨he, hread r⟩

theorem readBody_clean (cmd : String) (r : List UInt8) :
    Ensures (readBody opts cmd) r (fun _ _ => True) fun e _ => e.Clean :=
  (readBody_spec cmd r).imp (fun _ _ _ => trivial) fun _ _ h => h.clean

theorem identify_keeps : Keeps (Within libs opts w old) Fail.Clean (identify libs opts w) := by
  refine keeps_bind keeps_get fun c => keeps_bind (keeps_rejectIf trivial) fun _ => ?_
  refine keeps_bind (readFrom_keeps (readBody_clean "IDENTIFY")) fun body => ?_
  cases libs.unmarshalIdentify body with
  | error err => exact keeps_throw trivial
  | ok data =>
      refine keeps_bind (keeps_modify fun c hc => hc.same ⟨rfl, rfl, rfl, rfl⟩)
        fun _ => keeps_bind (Preserves.keeps (R := SameSession) ?_ fun _ _ h hc => hc.same h)
          fun _ => keeps_pure _
      refine preserves_forM .refl .trans fun i _ => ?_
      have hframe : Frame w i SameSession :=
        { refl := .refl
          trans := .trans
          settings := fun _ _ h => h.sameSession
          rebuild := fun _ => ⟨rfl, rfl, rfl, rfl⟩
          write := fun _ _ _ => ⟨rfl, rfl, rfl, rfl⟩
          tls := fun _ _ => ⟨rfl, rfl, rfl, rfl⟩
          snappy := fun _ _ => ⟨rfl, rfl, rfl, rfl⟩
          deflate := fun _ _ => ⟨rfl, rfl, rfl, rfl⟩ }
      exact (hframe.identifyStep libs).mono (fun _ _ h => h) fun _ h => h.clean

theorem auth_keeps (params : List (List UInt8)) :
    Keeps (Within libs opts w old) Fail.Clean (auth libs opts w params) := by
  refine keeps_bind keeps_get fun c₀ => keeps_bind (keeps_rejectIf trivial) fun _ => ?_
  refine keeps_bind (keeps_rejectIf trivial) fun _ => ?_
  refine keeps_bind (readFrom_keeps (readBody_clean "AUTH")) fun body => ?_
  refine keeps_bind (keeps_rejectIf trivial) fun _ => ?_
  intro c hc
  simp only [ensures_bind, ensures_rejectIf, ensures_modify]
  refine ⟨fun _ => ⟨trivial, hc⟩, fun henabled => ?_⟩
  have hsecret : Within libs opts w old { c with authSecret := body } :=
    hc.same ⟨rfl, rfl, rfl, rfl⟩
  refine (queryAuthd_spec (by simpa using henabled) hsecret).imp (fun err c₁ h => ?_) fun _ _ h => h.elim
  refine ⟨fun _ => ⟨trivial, h.1.1⟩, fun _ => ?_⟩
  rw [ensures_get]
  refine ⟨fun _ => ⟨trivial, h.1.1⟩, fun hauth => ?_⟩
  cases ha : c₁.authState with
  | none =>
      rw [ClientV2.hasAuthorizations, ha] at hauth
      exact absurd rfl hauth
  | some a =>
      have hwrite : ∀ frameType data, Within libs opts w old (c₁.write frameType data) :=
        fun _ _ => h.1.1.same ⟨rfl, rfl, rfl, rfl⟩
      simp only [send, ensures_bind, ensures_get, ensures_modify, ensures_pure]
      cases w.sendErr c₁.sent.length with
      | none => exact hwrite _ _
      | some err => exact ⟨trivial, hwrite _ _⟩

/-- A session has a state other than the initial one exactly when it has a channel. -/
theorem Within.channel_isSome (hc : Within libs opts w old c) (h : c.state ≠ .init) :
    ∃ channel, c.channel = some channel :=
  Option.ne_none_iff_exists'.mp fun hnone => h (hc.hasChannel.mpr hnone)

theorem rdy_keeps (params : List (List UInt8)) :
    Keeps (Within libs opts w old) Fail.Clean (rdy opts params) := by
  refine keeps_bind keeps_get fun c => keeps_ite (keeps_pure _) ?_
  refine keeps_bind (keeps_rejectIf trivial) fun _ => ?_
  cases readyParam params with
  | error param => exact keeps_throw trivial
  | ok count =>
      refine keeps_bind (keeps_rejectIf trivial) fun _ => ?_
      exact keeps_bind (keeps_modify fun c hc => hc.same ⟨rfl, rfl, rfl, rfl⟩) fun _ => keeps_pure _

theorem cls_keeps : Keeps (Within libs opts w old) Fail.Clean cls := by
  intro c hc
  simp only [cls, ensures_bind, ensures_get, ensures_rejectIf, ensures_modify, ensures_pure]
  refine ⟨fun _ => ⟨trivial, hc⟩, fun h => ?_⟩
  have hsubscribed : c.state = .subscribed := not_not.mp h
  have hinit : c.state ≠ .init := by
    rw [hsubscribed]
    decide
  have hclosing : ClientState.closing ≠ .init := by decide
  exact
    { hasChannel := iff_of_false hclosing fun h => hinit (hc.hasChannel.mpr h)
      subscribed := by
        rw [if_neg hclosing, hc.subscribed, if_neg hinit]
      compiles := hc.compiles
      obtained := hc.obtained
      mediated := hc.mediated }

theorem nop_keeps : Keeps (Within libs opts w old) Fail.Clean nop := keeps_pure _

/-- Where the client has a channel, a call to it is one more effect. -/
theorem onChannel_keeps (cmd : String) (id : List UInt8)
    (call : ClientV2 → List UInt8 × List UInt8 → Effect)
    (hcall : ∀ c channel all new, (call c channel).isSubscribed = false ∧
      (call c channel).Mediated libs opts w all new)
    (hc : Within libs opts w old c) (hstate : c.state ≠ .init) :
    Ensures (onChannel w cmd id call) c (fun _ c' => Within libs opts w old c')
      fun e c' => e.Clean ∧ Within libs opts w old c' := by
  obtain ⟨channel, hchannel⟩ := hc.channel_isSome hstate
  have heffect := hc.effect (hcall c channel [] []).1 (hcall c channel _ _).2
  rw [onChannel, ensures_bind, ensures_get, hchannel]
  simp only [effect, ensures_bind, ensures_modify]
  cases w.channelErr with
  | none => exact heffect
  | some err => exact ⟨trivial, heffect⟩

/-- `FIN`, `REQ` and `TOUCH` get to the channel in a state that has one. -/
theorem rejectState_spec (cmd : String) (atLeast : ℕ) (params : List (List UInt8))
    (hc : Within libs opts w old c) :
    Ensures (rejectState cmd atLeast params) c
      (fun _ c' => Within libs opts w old c' ∧ c'.state ≠ .init)
      fun e c' => e.Clean ∧ Within libs opts w old c' := by
  simp only [rejectState, ensures_bind, ensures_get, ensures_rejectIf]
  refine ⟨fun _ => ⟨trivial, hc⟩, fun h => ⟨fun _ => ⟨trivial, hc⟩, fun _ => ⟨hc, fun hinit => ?_⟩⟩⟩
  rw [hinit] at h
  exact h (by decide)

theorem fin_keeps (params : List (List UInt8)) :
    Keeps (Within libs opts w old) Fail.Clean (fin w params) := by
  intro c hc
  rw [fin, ensures_bind]
  refine (rejectState_spec "FIN" 2 params hc).imp (fun _ c₁ h => ?_) fun _ _ h => h
  rw [ensures_bind, rejectMessageID, ensures_rejectIf]
  refine ⟨fun _ => ⟨trivial, h.1⟩, fun _ => ?_⟩
  exact onChannel_keeps _ _ _ (fun _ _ _ _ => ⟨rfl, trivial⟩) h.1 h.2

theorem req_keeps (params : List (List UInt8)) :
    Keeps (Within libs opts w old) Fail.Clean (req opts w params) := by
  intro c hc
  rw [req, ensures_bind]
  refine (rejectState_spec "REQ" 3 params hc).imp (fun _ c₁ h => ?_) fun _ _ h => h
  rw [ensures_bind, rejectMessageID, ensures_rejectIf]
  refine ⟨fun _ => ⟨trivial, h.1⟩, fun _ => ?_⟩
  cases byteToBase10 (params.getD 2 []) with
  | error err => exact ⟨trivial, h.1⟩
  | ok timeoutMs => exact onChannel_keeps _ _ _ (fun _ _ _ _ => ⟨rfl, trivial⟩) h.1 h.2

theorem touch_keeps (params : List (List UInt8)) :
    Keeps (Within libs opts w old) Fail.Clean (touch w params) := by
  intro c hc
  rw [touch, ensures_bind]
  refine (rejectState_spec "TOUCH" 2 params hc).imp (fun _ c₁ h => ?_) fun _ _ h => h
  rw [ensures_bind, rejectMessageID, ensures_rejectIf]
  refine ⟨fun _ => ⟨trivial, h.1⟩, fun _ => ?_⟩
  exact onChannel_keeps _ _ _ (fun _ _ _ _ => ⟨rfl, trivial⟩) h.1 h.2

/-! ### Reaching a topic -/

/-- The invariant after the topic was reached. -/
structure After (libs : Libs) (opts : Options) (w : World) (old : List Effect)
    (topic channel : List UInt8) (c : ClientV2) : Prop extends Within libs opts w old c where
  reached : Reached old topic channel c

theorem After.same (hc : After libs opts w old topic channel c) (h : SameSession c c') :
    After libs opts w old topic channel c' where
  toWithin := hc.toWithin.same h
  reached := by
    rw [Reached, h.effects]
    exact hc.reached

theorem reach_spec (hc : Within libs opts w old c) (h : c.Passed libs opts w topic channel) :
    Ensures (reach topic channel) c
      (fun _ c' => After libs opts w old topic channel c' ∧ c'.state = c.state)
      fun _ _ => False := by
  obtain ⟨new, hnew, -⟩ := hc.mediated
  have hpassed : Allowed libs opts w (c.effects ++ [.reached topic channel c.authState c.clock])
      topic channel c.authState c.clock := fun henabled =>
    let ⟨a, hauth, hallowed, hexpired, hclock, query, hquery⟩ := h henabled
    ⟨a, hauth, hallowed, hexpired, hclock, query, List.mem_append_left _ hquery⟩
  refine ⟨⟨hc.effect rfl hpassed, c.authState, c.clock, ?_⟩, rfl⟩
  show _ ∈ (c.effects ++ [Effect.reached topic channel c.authState c.clock]).drop old.length
  rw [hnew, List.append_assoc, List.drop_left' rfl]
  exact List.mem_append_right _ (List.mem_singleton_self _)

/-- The loop of `SUB` leaves the client alone. -/
theorem subLoop_preserves : Preserves (@Eq ClientV2) Fail.Clean (subLoop w) := by
  have htrans : ∀ c₁ c₂ c₃ : ClientV2, c₁ = c₂ → c₂ = c₃ → c₁ = c₃ := fun _ _ _ => Eq.trans
  have hround : ∀ r, Preserves (@Eq ClientV2) Fail.Clean (subRound r) := by
    intro r
    have hno : ∀ (p : Prop) [Decidable p] (e : Fail), e.Clean →
        Preserves (@Eq ClientV2) Fail.Clean (rejectIf p e) :=
      fun p _ e he => preserves_rejectIf (fun _ => rfl) he
    refine preserves_bind htrans (hno _ _ (Or.inl rfl)) fun _ => ?_
    refine preserves_bind htrans (hno _ _ (Or.inr rfl)) fun _ => ?_
    cases r.addClient with
    | none => exact preserves_pure (fun _ => rfl) _
    | some err => exact preserves_throw (fun _ => rfl) trivial
  refine preserves_bind htrans (hround _) fun again => ?_
  refine preserves_ite ?_ (preserves_pure (fun _ => rfl) _)
  exact preserves_bind htrans (hround _) fun _ => preserves_rejectIf (fun _ => rfl) trivial

/-- To subscribe is to leave the initial state. -/
theorem After.subscribe (hc : After libs opts w old topic channel c) (hinit : c.state = .init) :
    Within libs opts w old
      { c with
        state := .subscribed
        channel := some (topic, channel)
        effects := c.effects ++ [.subscribed topic channel] } where
  hasChannel := iff_of_false nofun nofun
  subscribed := by
    have hcount := hc.subscribed
    rw [if_pos hinit] at hcount
    show (c.effects ++ [Effect.subscribed topic channel]).countP Effect.isSubscribed = _
    rw [List.countP_append, List.countP_singleton, hcount]
    rfl
  compiles := hc.compiles
  obtained := fun a ha =>
    let ⟨query, h⟩ := hc.obtained a ha
    ⟨query, List.mem_append_left _ h⟩
  mediated := by
    obtain ⟨auth, clock, h⟩ := hc.reached
    refine mediated_append hc.mediated ⟨auth, clock, ?_⟩
    exact ((List.sublist_append_left ..).drop old.length).subset h

theorem sub_keeps {params : List (List UInt8)} (hc : Within libs opts w old c)
    (hrenews : c.Renews libs opts w (params.getD 1 []) (params.getD 2 [])) :
    Ensures (sub libs opts w params) c (fun _ c' => Within libs opts w old c')
      fun e c' => e.Clean ∧ Within libs opts w old c' := by
  simp only [sub, rejectName, ensures_bind, ensures_get, ensures_rejectIf]
  refine ⟨fun _ => ⟨trivial, hc⟩, fun hstate => ⟨fun _ => ⟨trivial, hc⟩, fun _ => ?_⟩⟩
  refine ⟨fun _ => ⟨trivial, hc⟩, fun _ => ⟨fun _ => ⟨trivial, hc⟩, fun _ => ?_⟩⟩
  refine ⟨fun _ => ⟨trivial, hc⟩, fun _ => ?_⟩
  refine (checkAuth_spec "SUB" hc hrenews).imp (fun _ c₁ h₁ => ?_) fun _ _ h => h
  refine (reach_spec h₁.1.1 h₁.2).imp (fun _ c₂ h₂ => ?_) fun _ _ h => h.elim
  refine (subLoop_preserves c₂).imp (fun _ c₃ h₃ => ?_) fun _ c₃ h₃ => ?_
  · subst h₃
    have hinit : c₂.state = .init := h₂.2.trans (h₁.1.2.trans (not_not.mp hstate))
    exact h₂.1.subscribe hinit
  · obtain ⟨hclean, rfl⟩ := h₃
    exact ⟨hclean, h₂.1.toWithin⟩

theorem put_keeps (cmd : String) (bodies : List (List UInt8)) (deferred : Int64)
    (hc : After libs opts w old topic [] c) :
    Ensures (put w cmd topic bodies deferred) c (fun _ c' => Within libs opts w old c')
      fun e c' => e.Clean ∧ Within libs opts w old c' := by
  rw [put]
  cases w.putErr with
  | some err => exact ⟨trivial, hc.toWithin⟩
  | none =>
      obtain ⟨auth, clock, h⟩ := hc.reached
      refine hc.toWithin.effect rfl ⟨auth, clock, ?_⟩
      exact ((List.sublist_append_left ..).drop old.length).subset h

theorem putOne_keeps (cmd : String) (deferred : Int64) (hc : Within libs opts w old c)
    (hrenews : c.Renews libs opts w topic []) :
    Ensures (putOne libs opts w cmd topic deferred) c (fun _ c' => Within libs opts w old c')
      fun e c' => e.Clean ∧ Within libs opts w old c' := by
  have hread : ∀ r, Within libs opts w old { c with reader := r } := fun r =>
    hc.same ⟨rfl, rfl, rfl, rfl⟩
  rw [putOne, ensures_bind, ensures_readFrom]
  refine (readMessageBody_spec cmd c.reader).imp (fun body r _ => ?_)
    fun _ r he => ⟨he.clean, hread r⟩
  rw [ensures_bind]
  refine (checkAuth_spec cmd (hread r) hrenews).imp (fun _ c₁ h₁ => ?_) fun _ _ h => h
  rw [ensures_bind]
  refine (reach_spec h₁.1.1 h₁.2).imp (fun _ c₂ h₂ => ?_) fun _ _ h => h.elim
  rw [ensures_bind, ensures_rejectIf]
  exact ⟨fun _ => ⟨Or.inl rfl, h₂.1.toWithin⟩, fun _ => put_keeps _ _ _ h₂.1⟩

theorem pub_keeps {params : List (List UInt8)} (hc : Within libs opts w old c)
    (hrenews : c.Renews libs opts w (params.getD 1 []) []) :
    Ensures (pub libs opts w params) c (fun _ c' => Within libs opts w old c')
      fun e c' => e.Clean ∧ Within libs opts w old c' := by
  simp only [pub, rejectName, ensures_bind, ensures_rejectIf]
  refine ⟨fun _ => ⟨trivial, hc⟩, fun _ => ⟨fun _ => ⟨trivial, hc⟩, fun _ => ?_⟩⟩
  exact putOne_keeps _ _ hc hrenews

theorem dpub_keeps {params : List (List UInt8)} (hc : Within libs opts w old c)
    (hrenews : c.Renews libs opts w (params.getD 1 []) []) :
    Ensures (dpub libs opts w params) c (fun _ c' => Within libs opts w old c')
      fun e c' => e.Clean ∧ Within libs opts w old c' := by
  simp only [dpub, rejectName, ensures_bind, ensures_rejectIf]
  refine ⟨fun _ => ⟨trivial, hc⟩, fun _ => ⟨fun _ => ⟨trivial, hc⟩, fun _ => ?_⟩⟩
  cases byteToBase10 (params.getD 2 []) with
  | error err => exact ⟨trivial, hc⟩
  | ok timeoutMs =>
      rw [ensures_bind, ensures_rejectIf]
      exact ⟨fun _ => ⟨trivial, hc⟩, fun _ => putOne_keeps _ _ hc hrenews⟩

theorem mpub_keeps {params : List (List UInt8)} (hc : Within libs opts w old c)
    (hrenews : c.Renews libs opts w (params.getD 1 []) []) :
    Ensures (mpub libs opts w params) c (fun _ c' => Within libs opts w old c')
      fun e c' => e.Clean ∧ Within libs opts w old c' := by
  simp only [mpub, rejectName, ensures_bind, ensures_rejectIf]
  refine ⟨fun _ => ⟨trivial, hc⟩, fun _ => ⟨fun _ => ⟨trivial, hc⟩, fun _ => ?_⟩⟩
  refine (checkAuth_spec "MPUB" hc hrenews).imp (fun _ c₁ h₁ => ?_) fun _ _ h => h
  refine (reach_spec h₁.1.1 h₁.2).imp (fun _ c₂ h₂ => ?_) fun _ _ h => h.elim
  have hread : ∀ r, After libs opts w old (params.getD 1 []) [] { c₂ with reader := r } :=
    fun r => h₂.1.same ⟨rfl, rfl, rfl, rfl⟩
  rw [ensures_readFrom]
  refine (readMPUBLen_spec c₂.reader).imp (fun _ r _ => ?_)
    fun _ r he => ⟨he.clean, (hread r).toWithin⟩
  rw [ensures_readFrom]
  refine (readMPUB_spec w.topic opts.maxMsgSize opts.maxBodySize r).imp
    (fun messages r' _ => ?_) fun _ r' he => ⟨he.clean, (hread r').toWithin⟩
  exact put_keeps _ _ _ (hread r')

/-! ### The loop -/

theorem ensures_behindTLS {name : List UInt8} {h : Handler Response}
    {Q : Response → ClientV2 → Prop} {E : Fail → ClientV2 → Prop}
    (hrefused : opts.tlsRequired = true → c.tls = false → ∀ e : Fail, e.Clean → E e c)
    (hh : ¬ (opts.tlsRequired = true ∧ c.tls = false) → Ensures h c Q E) :
    Ensures (behindTLS opts name h) c Q E := by
  simp only [behindTLS, enforceTLSPolicy, ensures_bind, ensures_get, ensures_rejectIf]
  exact ⟨fun h => hrefused h.1 h.2 _ trivial, hh⟩

/-- **One command.** It keeps the invariant, and ends with no panic but those of a topic or a channel
that is not there. -/
theorem exec_keeps (params : List (List UInt8)) (hc : Within libs opts w old c)
    (hrenews : ∀ t ∈ authTarget params, c.Renews libs opts w t.1 t.2) :
    Ensures (exec libs opts w params) c (fun _ c' => Within libs opts w old c')
      fun e c' => e.Clean ∧ Within libs opts w old c' := by
  have htls : ∀ {name : List UInt8} {h : Handler Response},
      (Ensures h c (fun _ c' => Within libs opts w old c')
        fun e c' => e.Clean ∧ Within libs opts w old c') →
      Ensures (behindTLS opts name h) c (fun _ c' => Within libs opts w old c')
        fun e c' => e.Clean ∧ Within libs opts w old c' :=
    fun h => ensures_behindTLS (fun _ _ _ he => ⟨he, hc⟩) fun _ => h
  unfold authTarget at hrenews
  unfold exec
  cases hcommand : commandOf params with
  | none => exact htls ⟨trivial, hc⟩
  | some k =>
      rw [hcommand] at hrenews
      cases k with
      | identify => exact identify_keeps c hc
      | fin => exact htls (fin_keeps params c hc)
      | rdy => exact htls (rdy_keeps params c hc)
      | req => exact htls (req_keeps params c hc)
      | pub => exact htls (pub_keeps hc (hrenews _ rfl))
      | mpub => exact htls (mpub_keeps hc (hrenews _ rfl))
      | dpub => exact htls (dpub_keeps hc (hrenews _ rfl))
      | nop => exact htls (nop_keeps c hc)
      | touch => exact htls (touch_keeps params c hc)
      | sub => exact htls (sub_keeps hc (hrenews _ rfl))
      | cls => exact htls (cls_keeps c hc)
      | auth => exact htls (auth_keeps params c hc)

/-- A command leaves the client as it is. -/
def LeavesAlone (m : Handler Response) (c : ClientV2) : Prop :=
  Ensures m c (fun _ c' => c' = c) fun _ c' => c' = c

/-- Before TLS, where it is required, only `IDENTIFY` does anything. -/
theorem exec_beforeTLS {params : List (List UInt8)} (hcommand : commandOf params ≠ some .identify)
    (hrequired : opts.tlsRequired = true) (htls : c.tls = false) :
    LeavesAlone (exec libs opts w params) c := by
  have hrefused : ∀ {name : List UInt8} {h : Handler Response},
      LeavesAlone (behindTLS opts name h) c :=
    ensures_behindTLS (fun _ _ _ _ => rfl) fun h => absurd ⟨hrequired, htls⟩ h
  unfold exec
  split
  · rename_i h
    exact absurd h hcommand
  all_goals exact hrefused

/-- `IDENTIFY`, `AUTH` and `SUB` do nothing in a later state. -/
theorem exec_notInitial {params : List (List UInt8)}
    (hcommand : commandOf params ∈ [some Command.identify, some .auth, some .sub])
    (hstate : c.state ≠ .init) : LeavesAlone (exec libs opts w params) c := by
  simp only [List.mem_cons, List.not_mem_nil, or_false] at hcommand
  rcases hcommand with h | h | h <;> unfold exec <;> rw [h]
  · show LeavesAlone (identify libs opts w) c
    simp only [LeavesAlone, identify, ensures_bind, ensures_get, ensures_rejectIf]
    exact ⟨fun _ => trivial, fun h => absurd hstate h⟩
  · refine ensures_behindTLS (fun _ _ _ _ => rfl) fun _ => ?_
    simp only [auth, ensures_bind, ensures_get, ensures_rejectIf]
    exact ⟨fun _ => trivial, fun h => absurd hstate h⟩
  · refine ensures_behindTLS (fun _ _ _ _ => rfl) fun _ => ?_
    simp only [sub, ensures_bind, ensures_get, ensures_rejectIf]
    exact ⟨fun _ => trivial, fun h => absurd hstate h⟩

/-- `RDY` does nothing once the client is closing. -/
theorem exec_closing {params : List (List UInt8)} (hcommand : commandOf params = some .rdy)
    (hstate : c.state = .closing) : LeavesAlone (exec libs opts w params) c := by
  unfold exec
  rw [hcommand]
  refine ensures_behindTLS (fun _ _ _ _ => rfl) fun _ => ?_
  rw [rdy, ensures_bind, ensures_get, if_pos hstate]
  exact rfl

/-- What a command leaves, with the response or the error behind it. -/
theorem answer_client {m : Handler Response} {P : ClientV2 → Prop}
    (h : Ensures m c (fun _ c' => P c') fun _ c' => P c') :
    ∃ c', P c' ∧ ((answer w (m c)).client = c' ∨
      ∃ frameType data, (answer w (m c)).client = c'.write frameType data) := by
  cases hm : m c with
  | ok response c' =>
      refine ⟨c', h.ok hm, ?_⟩
      cases response with
      | none => exact Or.inl rfl
      | some data => exact Or.inr ⟨_, _, rfl⟩
  | error e c' =>
      refine ⟨c', h.error hm, ?_⟩
      cases e with
      | protocol e => exact Or.inr ⟨_, _, rfl⟩
      | panic p => exact Or.inl rfl

/-- Only a panic crashes. -/
theorem answer_crashed {m : Handler Response} {p : Panic}
    (h : (answer w (m c)).status = .crashed p) : ∃ c', m c = .error (.panic p) c' := by
  cases hm : m c with
  | ok response c' =>
      rw [hm] at h
      cases response with
      | none => cases h
      | some data =>
          rw [answer, Conn.sendOr] at h
          split at h <;> cases h
  | error e c' =>
      rw [hm] at h
      cases e with
      | protocol e =>
          rw [answer, Conn.sendOr] at h
          split at h
          · split at h <;> cases h
          · cases h
      | panic p' =>
          cases h
          exact ⟨c', rfl⟩

theorem Within.answer {m : Handler Response}
    (h : Ensures m c (fun _ c' => Within libs opts w old c') fun _ c' => Within libs opts w old c') :
    Within libs opts w old (answer w (m c)).client := by
  obtain ⟨c', hc', h | ⟨frameType, data, h⟩⟩ := answer_client h
  · rw [h]
    exact hc'
  · rw [h]
    exact hc'.same ⟨rfl, rfl, rfl, rfl⟩

end Within

section Rounds

variable {libs : Libs} {opts : Options} {w : World} {s s' : Conn} {line rest : List UInt8}

theorem ClientV2.Inv.subscribed_le {c : ClientV2} (h : c.Inv libs) :
    c.effects.countP Effect.isSubscribed ≤ 1 := by
  rw [h.subscribed]
  split <;> decide

theorem unchanged_of_leavesAlone
    (h : LeavesAlone (exec libs opts w (splitParams line)) { s.client with reader := rest }) :
    Unchanged s
      (answer w (exec libs opts w (splitParams line) { s.client with reader := rest })) := by
  obtain ⟨c', rfl, h | ⟨frameType, data, h⟩⟩ := answer_client (w := w) h
  · rw [Unchanged, h]
  · rw [Unchanged, h]
    rfl

/-- **One round.** It follows the rules, if authorizations are renewed. -/
theorem ioLoop_mediated (hs : s.client.Inv libs) (hrenews : Renews libs opts s w)
    (h : ioLoop libs opts s w = some s') : Mediated libs opts s w s' ∧ s'.client.Inv libs := by
  rcases ioLoop_cases h with ⟨hread, rfl⟩ | ⟨line, rest, hread, rfl⟩
  · have hnext : s.next = none := by rw [Conn.next, hread, Option.map_none]
    have hno : ∀ {P : List (List UInt8) → Prop}, ∀ params ∈ s.next, P params := by
      rw [hnext]
      exact nofun
    exact ⟨⟨nofun, hs.subscribed_le, hno, hno, hno, [], (List.append_nil _).symm, nofun⟩, hs⟩
  · have hnext : s.next = some (splitParams line) := by rw [Conn.next, hread, Option.map_some]
    have hwithin : Within libs opts w s.client.effects { s.client with reader := rest } :=
      hs.within.same ⟨rfl, rfl, rfl, rfl⟩
    have hkeeps := exec_keeps (splitParams line) hwithin (hrenews _ hnext)
    have hafter := Within.answer (hkeeps.imp (fun _ _ h => h) fun _ _ h => h.2)
    refine ⟨?_, hafter.toInv⟩
    refine
      { panics := fun p hp => ?_
        subscribed := hafter.subscribed_le
        initial := fun params hparams hcommand hstate => ?_
        closing := fun params hparams hcommand hstate => ?_
        tls := fun params hparams hcommand hrequired htls => ?_
        effects := hafter.mediated }
    · obtain ⟨c', hc'⟩ := answer_crashed hp
      exact (hkeeps.error hc').1
    · obtain rfl := Option.some.inj (hnext.symm.trans hparams)
      exact unchanged_of_leavesAlone (exec_notInitial hcommand hstate)
    · obtain rfl := Option.some.inj (hnext.symm.trans hparams)
      exact unchanged_of_leavesAlone (exec_closing hcommand hstate)
    · obtain rfl := Option.some.inj (hnext.symm.trans hparams)
      exact unchanged_of_leavesAlone (exec_beforeTLS hcommand hrequired htls)

end Rounds

/-! ### Whole runs -/

/-- A round that is possible follows the rules. -/
def FollowsRules (libs : Libs) (opts : Options) (s : Conn) (w : World) : Prop :=
  ∀ s' ∈ ioLoop libs opts s w, Mediated libs opts s w s'

/-- **Complete mediation.** Whatever a client sends, whatever the auth servers answer and whatever
else happens, every round of its session follows the rules, as long as authorizations that have run
out are renewed with a time to live that is not negative as a duration. -/
theorem session_mediated (libs : Libs) (opts : Options) (bytes : List UInt8) (worlds : List World)
    (h : Runs.Along (ioLoop libs opts) (Renews libs opts) (Conn.start opts bytes) worlds) :
    Runs.Along (ioLoop libs opts) (FollowsRules libs opts) (Conn.start opts bytes) worlds := by
  have hstart : (Conn.start opts bytes).client.Inv libs := ⟨iff_of_true rfl rfl, rfl, nofun, nofun⟩
  refine Runs.along_imp (I := fun s => s.client.Inv libs) ?_ ?_ worlds _ hstart h
  · intro s w s' hs hrenews hstep
    exact (ioLoop_mediated hs hrenews hstep).2
  · intro s w hs hrenews s' hstep
    exact (ioLoop_mediated hs hrenews hstep).1

/-! ### Authorizations that have run out -/

section RunOut

/-- One auth server. -/
def authOptions : Options := { newOptions with authHTTPAddresses := ["127.0.0.1:4181"] }

/-- It answers at the given time, with the given time to live, that all is allowed. -/
def authWorld (now : ℤ) (ttl : Int64) : World :=
  { World.calm with
    authd := fun _ _ => .ok ⟨ttl, [⟨".*", [".*"], ["publish", "subscribe"]⟩], "", ""⟩
    nowCheck := now
    nowQuery := now }

/-- A client that publishes after its authorizations have run out. -/
def publishLate : List UInt8 :=
  text "AUTH\n" ++ framed (text "secret") ++ text "SUB orders billing\n" ++ text "PUB orders\n" ++
    framed (text "order 1")

theorem session_mediated_renewed :
    Runs.Along (ioLoop Libs.plain authOptions) (FollowsRules Libs.plain authOptions)
      (Conn.start authOptions publishLate)
      [authWorld 0 60, authWorld 1 60, authWorld 1000000000000 60] :=
  session_mediated Libs.plain authOptions publishLate _ (by decide)

/-- Some topic was reached with authorizations that had run out. -/
def reachedRunOut (effects : List Effect) : Bool :=
  effects.any fun e =>
    match e with
    | .reached _ _ (some a) clock => a.isExpired clock
    | _ => false

/-- The rules keep authorizations that have run out from being used. -/
theorem FollowsRules.reachedRunOut_eq_false {libs : Libs} {opts : Options} {bytes : List UInt8}
    {worlds : List World} {s : Conn} (henabled : isAuthEnabled opts = true)
    (h : Runs.Along (ioLoop libs opts) (FollowsRules libs opts) (Conn.start opts bytes) worlds)
    (hr : Runs.run (ioLoop libs opts) (Conn.start opts bytes) worlds = some s) :
    reachedRunOut s.client.effects = false := by
  refine Runs.invariant_along (I := fun s => reachedRunOut s.client.effects = false) ?_ worlds _ s
    rfl h hr
  intro s w s' hs hrules hstep
  obtain ⟨new, hnew, hmediated⟩ := (hrules s' hstep).effects
  rw [hnew, reachedRunOut, List.any_append, Bool.or_eq_false_iff]
  refine ⟨hs, List.any_eq_false.mpr fun e he => ?_⟩
  split
  · rename_i topic channel a clock
    obtain ⟨b, hb, -, hexpired, -⟩ := hmediated _ he henabled
    rw [Option.some.inj hb, hexpired]
    exact Bool.false_ne_true
  · exact Bool.false_ne_true

/-- A time to live of 9223372037 seconds is negative in nanoseconds. -/
theorem session_not_mediated :
    ¬ Runs.Along (ioLoop Libs.plain authOptions) (FollowsRules Libs.plain authOptions)
      (Conn.start authOptions publishLate)
      [authWorld 0 60, authWorld 1 60, authWorld 1000000000000 9223372037] := by
  intro h
  obtain ⟨s, hs, hrunOut⟩ := Runs.exists_of_run (ioLoop Libs.plain authOptions)
    (Conn.start authOptions publishLate)
    [authWorld 0 60, authWorld 1 60, authWorld 1000000000000 9223372037]
    (fun s => reachedRunOut s.client.effects = true) (by decide)
  have hno := FollowsRules.reachedRunOut_eq_false rfl h hs
  rw [hrunOut] at hno
  cases hno

end RunOut

end Xmq.V2
