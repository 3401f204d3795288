import Xmq.ClientV2
import Xmq.Runs

/-!
# The settings of the message pump

`IDENTIFY` writes the negotiated settings into the client and sends an event to the message pump,
which keeps copies of its own: it passes its `msgTimeout` to `StartInFlightTimeout` and applies its
`sampleRate`. The event goes through a channel with one slot, a send to a full slot is dropped, and
the pump stops listening after the first event. So the pump has the settings of the connection as it
was opened, or those of the first `IDENTIFY`, whatever comes after.

* The reading of commands and the pump take turns in any order. What other commands do, and whether
  the client is ready for messages, is open.
* `identified` only records: the settings after each call of `Identify` that succeeded.
-/

namespace Xmq.V2

open Runs

namespace PumpSettings

/-- The two settings of a delivery. -/
structure Settings where
  msgTimeout : ℤ
  sampleRate : ℤ
  deriving DecidableEq

structure IdentifyEvent where
  outputBufferTimeout : ℤ
  heartbeatInterval : ℤ
  sampleRate : ℤ
  msgTimeout : ℤ

/-- The local variables of `messagePump`. A ticker is stopped, or it has a period; a channel that is
not listened to is nil. -/
structure Pump where
  subListening : Bool
  identifyListening : Bool
  subscribed : Bool
  outputBufferTicker : Option ℤ
  heartbeatTicker : Option ℤ
  sampleRate : ℤ
  msgTimeout : ℤ
  exited : Bool

structure State where
  client : ClientV2
  identifyEventChan : Option IdentifyEvent
  subEventChan : Bool
  /-- `ExitChan` is closed: no more commands are read. -/
  exitChan : Bool
  pump : Pump
  identified : List Settings

/-- The pump as it starts, before the first command is read. -/
def startPump (c : ClientV2) : Pump where
  subListening := true
  identifyListening := true
  subscribed := false
  outputBufferTicker := some c.outputBufferTimeout
  heartbeatTicker := some c.heartbeatInterval
  sampleRate := 0
  msgTimeout := c.msgTimeout
  exited := false

def init (opts : Options) : State where
  client := newClientV2 opts []
  identifyEventChan := none
  subEventChan := false
  exitChan := false
  pump := startPump (newClientV2 opts [])
  identified := []

/-- The settings that `Identify` makes, before it sends the event. -/
def settle (opts : Options) (w : World) (data : IdentifyData) : Handler PUnit := do
  setHeartbeatInterval opts data.heartbeatInterval
  setOutputBuffer opts w data.outputBufferSize data.outputBufferTimeout
  setSampleRate data.sampleRate
  setMsgTimeout opts data.msgTimeout

/-- What `IDENTIFY` does after `Identify`. -/
def negotiate (libs : Libs) (opts : Options) (w : World) (data : IdentifyData) : Handler PUnit :=
  (if data.featureNegotiation then featureSteps opts data else []).forM (identifyStep libs opts w)

def identifyEvent (c : ClientV2) : IdentifyEvent where
  outputBufferTimeout := c.outputBufferTimeout
  heartbeatInterval := c.heartbeatInterval
  sampleRate := c.sampleRate
  msgTimeout := c.msgTimeout

def settingsOf (c : ClientV2) : Settings := ⟨c.msgTimeout, c.sampleRate⟩

/-- The pump after it received the event. -/
def Pump.receiveIdentify (p : Pump) (e : IdentifyEvent) : Pump :=
  { p with
    identifyListening := false
    outputBufferTicker := if 0 < e.outputBufferTimeout then some e.outputBufferTimeout else none
    heartbeatTicker := if 0 < e.heartbeatInterval then some e.heartbeatInterval else none
    sampleRate := if 0 < e.sampleRate then e.sampleRate else p.sampleRate
    msgTimeout := e.msgTimeout }

/-- The steps of the loop that reads commands, and those of the pump. `message` is a message from
memory or from the backend, with the number that was drawn for the sampling. -/
inductive Act where
  | identify (data : IdentifyData) (w : World)
  | sub (accepted : Bool)
  | disconnect
  | receiveSub
  | receiveIdentify
  | otherEvent
  | message (r : Fin 100)
  | exit

/-- `IDENTIFY` in the initial state. -/
def State.identify (libs : Libs) (opts : Options) (s : State) (data : IdentifyData) (w : World) :
    State :=
  match settle opts w data s.client with
  | .error _ c => { s with client := c, exitChan := true }
  | .ok _ c =>
    let s : State :=
      { s with
        identifyEventChan := some (s.identifyEventChan.getD (identifyEvent c))
        identified := s.identified ++ [settingsOf c] }
    match negotiate libs opts w data c with
    | .ok _ c => { s with client := c }
    | .error _ c => { s with client := c, exitChan := true }

def step (libs : Libs) (opts : Options) (s : State) : Act → Option State
  | .identify data w =>
    if s.exitChan then none
    else if s.client.state ≠ .init then some { s with exitChan := true }
    else some (s.identify libs opts data w)
  | .sub accepted =>
    if s.exitChan then none
    else if s.client.state ≠ .init ∨ s.client.heartbeatInterval ≤ 0 ∨ accepted = false then
      some { s with exitChan := true }
    else some { s with client := { s.client with state := .subscribed }, subEventChan := true }
  | .disconnect => if s.exitChan then none else some { s with exitChan := true }
  | .receiveSub =>
    if s.pump.exited ∨ s.pump.subListening = false ∨ s.subEventChan = false then none
    else some
      { s with
        subEventChan := false, pump := { s.pump with subscribed := true, subListening := false } }
  | .receiveIdentify =>
    if s.pump.exited ∨ s.pump.identifyListening = false then none
    else s.identifyEventChan.map fun e =>
      { s with identifyEventChan := none, pump := s.pump.receiveIdentify e }
  | .otherEvent => if s.pump.exited then none else some s
  | .message _ => if s.pump.exited ∨ s.pump.subscribed = false then none else some s
  | .exit => if s.pump.exited then none else some { s with pump := { s.pump with exited := true } }

/-- The settings with which the step delivers a message; `none` when it does not. -/
def delivery (s : State) : Act → Option Settings
  | .message r =>
    if s.pump.exited ∨ s.pump.subscribed = false then none
    else if 0 < s.pump.sampleRate ∧ s.pump.sampleRate < (r : ℕ) then none
    else some ⟨s.pump.msgTimeout, s.pump.sampleRate⟩
  | _ => none

/-! ### What was negotiated -/

def defaults (opts : Options) : Settings := ⟨opts.msgTimeout, 0⟩

/-- The settings of the last `IDENTIFY`, or the defaults. -/
def negotiated (opts : Options) (s : State) : Settings :=
  s.identified.getLast?.getD (defaults opts)

/-- The settings of the first `IDENTIFY`. -/
def first (opts : Options) (s : State) : Settings := s.identified.head?.getD (defaults opts)

/-- The pump has heard of an `IDENTIFY` and the last one left the settings of the first, or it has
heard of none and the settings are still the defaults. -/
def UpToDate (opts : Options) (s : State) : Prop :=
  negotiated opts s = if s.pump.identifyListening then defaults opts else first opts s

/-- A delivery uses the settings of the client, which are those of the last `IDENTIFY`. -/
def UsesNegotiated (opts : Options) (s : State) (a : Act) : Prop :=
  ∀ d, delivery s a = some d → d = settingsOf s.client ∧ d = negotiated opts s

instance (opts : Options) (s : State) (a : Act) : Decidable (UsesNegotiated opts s a) :=
  match h : delivery s a with
  | none => isTrue (by simp [UsesNegotiated, h])
  | some d =>
    decidable_of_iff (d = settingsOf s.client ∧ d = negotiated opts s) (by
      simp [UsesNegotiated, h])

/-- A delivery comes when the pump is up to date. -/
def DeliversUpToDate (opts : Options) (s : State) (a : Act) : Prop :=
  (delivery s a).isSome → UpToDate opts s

/-! ### What `IDENTIFY` leaves alone -/

section Handlers

variable {libs : Libs} {opts : Options} {w : World}

/-- The sample rate stays a rate, and the state of the client is the same. -/
def KeepsRate (c c' : ClientV2) : Prop :=
  c'.state = c.state ∧ (0 ≤ c.sampleRate → 0 ≤ c'.sampleRate)

theorem KeepsRate.refl (c : ClientV2) : KeepsRate c c := ⟨rfl, id⟩

theorem KeepsRate.trans (c₁ c₂ c₃ : ClientV2) (h : KeepsRate c₁ c₂) (h' : KeepsRate c₂ c₃) :
    KeepsRate c₁ c₃ :=
  ⟨h'.1.trans h.1, fun hc => h'.2 (h.2 hc)⟩

theorem settle_keepsRate (data : IdentifyData) :
    Preserves KeepsRate (fun _ => True) (settle opts w data) := by
  have keeps : ∀ f : ClientV2 → ClientV2, (∀ c, (f c).state = c.state) →
      (∀ c, (f c).sampleRate = c.sampleRate) →
      Preserves KeepsRate (fun _ : Fail => True) (modify f) := by
    intro f hstate hrate
    exact preserves_modify fun c => ⟨hstate c, fun hc => (hrate c).symm ▸ hc⟩
  have fails : ∀ e : Fail, Preserves KeepsRate (fun _ => True) (throw e : Handler PUnit) :=
    fun e => preserves_throw .refl trivial
  have same : Preserves KeepsRate (fun _ => True) (pure ⟨⟩ : Handler PUnit) :=
    preserves_pure .refl _
  have hheartbeat : Preserves KeepsRate (fun _ => True)
      (setHeartbeatInterval opts data.heartbeatInterval) :=
    preserves_ite (keeps _ (fun _ => rfl) fun _ => rfl)
      (preserves_ite same (preserves_ite (keeps _ (fun _ => rfl) fun _ => rfl) (fails _)))
  have htimeout : Preserves KeepsRate (fun _ => True)
      (setOutputBufferTimeout opts data.outputBufferTimeout) :=
    preserves_ite (keeps _ (fun _ => rfl) fun _ => rfl)
      (preserves_ite same (preserves_ite (keeps _ (fun _ => rfl) fun _ => rfl) (fails _)))
  have hsize : Preserves KeepsRate (fun _ => True)
      (setOutputBufferSize opts data.outputBufferSize) :=
    preserves_ite (keeps _ (fun _ => rfl) fun _ => rfl)
      (preserves_ite same (preserves_ite (keeps _ (fun _ => rfl) fun _ => rfl) (fails _)))
  have hwriter : Preserves KeepsRate (fun _ => True) (rebuildWriter w data.outputBufferSize) := by
    refine preserves_ite ?_ same
    cases w.flushErr with
    | none => exact keeps _ (fun _ => rfl) fun _ => rfl
    | some err => exact fails _
  have hrate : Preserves KeepsRate (fun _ => True) (setSampleRate data.sampleRate) := by
    intro c
    rw [setSampleRate, ensures_ite]
    refine ⟨fun _ => ⟨trivial, .refl c⟩, fun hno => ⟨rfl, fun _ => ?_⟩⟩
    show 0 ≤ data.sampleRate
    omega
  have hmsg : Preserves KeepsRate (fun _ => True) (setMsgTimeout opts data.msgTimeout) :=
    preserves_ite same (preserves_ite (keeps _ (fun _ => rfl) fun _ => rfl) (fails _))
  exact preserves_bind .trans hheartbeat fun _ =>
    preserves_bind .trans (preserves_bind .trans htimeout fun _ =>
      preserves_bind .trans hsize fun _ => hwriter) fun _ =>
      preserves_bind .trans hrate fun _ => hmsg

/-- The settings and the state of the client are the same. -/
def SameSettings (c c' : ClientV2) : Prop := c'.state = c.state ∧ settingsOf c' = settingsOf c

theorem SameSettings.refl (c : ClientV2) : SameSettings c c := ⟨rfl, rfl⟩

theorem SameSettings.trans (c₁ c₂ c₃ : ClientV2) (h : SameSettings c₁ c₂)
    (h' : SameSettings c₂ c₃) : SameSettings c₁ c₃ :=
  ⟨h'.1.trans h.1, h'.2.trans h.2⟩

theorem identifySend_sameSettings (data : List UInt8) :
    Preserves SameSettings (fun _ => True) (identifySend w data) := by
  refine preserves_bind .trans ?_ fun err => ?_
  · refine preserves_bind .trans (preserves_get .refl) fun c => ?_
    exact preserves_bind .trans (preserves_modify fun _ => ⟨rfl, rfl⟩) fun _ =>
      preserves_pure .refl _
  · cases err with
    | none => exact preserves_pure .refl _
    | some err => exact preserves_throw .refl trivial

/-- The steps of `Identify`. -/
def isSetting : IdentifyStep → Bool
  | .setHeartbeatInterval _ | .setOutputBuffer _ _ | .setSampleRate _ | .setMsgTimeout _ => true
  | _ => false

theorem featureSteps_not_setting (data : IdentifyData) :
    ∀ i ∈ featureSteps opts data, isSetting i = false := by
  intro i hi
  simp only [featureSteps] at hi
  split at hi
  · rw [List.mem_singleton.mp hi]
    rfl
  · simp only [List.mem_append, List.mem_ite_nil_right, List.mem_cons, List.not_mem_nil,
      or_false] at hi
    rcases hi with ((rfl | ⟨-, rfl | rfl⟩) | ⟨-, rfl | rfl⟩) | ⟨-, rfl | rfl⟩ <;> rfl

theorem identifyStep_sameSettings {i : IdentifyStep} (hi : isSetting i = false) :
    Preserves SameSettings (fun _ => True) (identifyStep libs opts w i) := by
  cases i with
  | setHeartbeatInterval n => cases hi
  | setOutputBuffer size timeout => cases hi
  | setSampleRate n => cases hi
  | setMsgTimeout n => cases hi
  | cannotEnableBoth => exact preserves_throw .refl trivial
  | respond tlsv1 deflate snappy deflateLevel =>
      exact preserves_bind .trans (preserves_get .refl) fun c => identifySend_sameSettings _
  | upgradeTLS =>
      show Preserves SameSettings (fun _ => True) (upgradeTLS w)
      rw [upgradeTLS]
      cases w.handshake with
      | none => exact preserves_modify fun _ => ⟨rfl, rfl⟩
      | some err => exact preserves_throw .refl trivial
  | upgradeSnappy => exact preserves_modify fun _ => ⟨rfl, rfl⟩
  | upgradeDeflate => exact preserves_modify fun _ => ⟨rfl, rfl⟩
  | respondOK => exact identifySend_sameSettings _

/-- Nothing that is negotiated is one of the two settings. -/
theorem negotiate_sameSettings (data : IdentifyData) :
    Preserves SameSettings (fun _ => True) (negotiate libs opts w data) := by
  refine preserves_forM .refl .trans fun i hi => identifyStep_sameSettings ?_
  split at hi
  · exact featureSteps_not_setting data i hi
  · cases hi

end Handlers

/-! ### The invariant -/

/-- Where the settings of the connection are: in the client the last ones, in the slot or in the
pump the first. -/
structure Inv (opts : Options) (s : State) : Prop where
  client : s.exitChan = false ∨ s.client.state ≠ .init → settingsOf s.client = negotiated opts s
  subscribed : s.pump.subscribed = true ∨ s.subEventChan = true → s.client.state ≠ .init
  rate : 0 ≤ s.client.sampleRate
  slot : s.pump.identifyListening = true →
    match s.identifyEventChan with
    | none => s.identified = []
    | some e => s.identified.head? = some ⟨e.msgTimeout, e.sampleRate⟩ ∧ 0 ≤ e.sampleRate
  heard : s.pump.identifyListening = false → s.identified ≠ []
  copies : (⟨s.pump.msgTimeout, s.pump.sampleRate⟩ : Settings) =
    if s.pump.identifyListening then defaults opts else first opts s

variable {libs : Libs} {opts : Options} {s t : State} {a : Act}

theorem init_inv (opts : Options) : Inv opts (init opts) where
  client _ := rfl
  subscribed h := by simp [init, startPump] at h
  rate := Int.le_refl 0
  slot _ := rfl
  heard h := by cases h
  copies := rfl

theorem negotiated_append (x : Settings) {s : State} {l : List Settings}
    (h : s.identified = l ++ [x]) : negotiated opts s = x := by
  rw [negotiated, h, List.getLast?_append_cons, List.getLast?_singleton]
  rfl

/-- The slot takes the first settings, and keeps them. -/
theorem Inv.slot_settled (hs : Inv opts s) {c : ClientV2} (hrate : 0 ≤ c.sampleRate)
    (hlisten : s.pump.identifyListening = true) :
    (s.identified ++ [settingsOf c]).head? =
        some ⟨(s.identifyEventChan.getD (identifyEvent c)).msgTimeout,
          (s.identifyEventChan.getD (identifyEvent c)).sampleRate⟩ ∧
      0 ≤ (s.identifyEventChan.getD (identifyEvent c)).sampleRate := by
  have hold := hs.slot hlisten
  cases he : s.identifyEventChan with
  | none =>
      rw [he] at hold
      rw [hold]
      exact ⟨rfl, hrate⟩
  | some e =>
      rw [he] at hold
      rw [List.head?_append, hold.1]
      exact ⟨rfl, hold.2⟩

/-- The settings are settled, whatever becomes of the features. -/
theorem Inv.settled (hs : Inv opts s) {c c' : ClientV2}
    (hidle : ¬ (s.pump.subscribed = true ∨ s.subEventChan = true)) (hrate : 0 ≤ c.sampleRate)
    (hsame : SameSettings c c') (closed : Bool) : Inv opts
      { s with
        client := c', exitChan := closed,
        identifyEventChan := some (s.identifyEventChan.getD (identifyEvent c)),
        identified := s.identified ++ [settingsOf c] } := by
  constructor
  · intro _
    rw [negotiated_append (settingsOf c) rfl]
    exact hsame.2
  · exact fun h => absurd h hidle
  · show 0 ≤ (settingsOf c').sampleRate
    rw [hsame.2]
    exact hrate
  · exact hs.slot_settled hrate
  · exact fun _ => by simp
  · show (⟨s.pump.msgTimeout, s.pump.sampleRate⟩ : Settings) = _
    rw [hs.copies]
    cases hlisten : s.pump.identifyListening with
    | true => rfl
    | false =>
        obtain ⟨x, l, hx⟩ := List.exists_cons_of_ne_nil (hs.heard hlisten)
        simp [first, hx]

/-- An `IDENTIFY` keeps the invariant: the first one is in the slot, the last one in the client. -/
theorem Inv.identify (hs : Inv opts s) (hinit : s.client.state = .init) (data : IdentifyData)
    (w : World) : Inv opts (s.identify libs opts data w) := by
  have hidle : ¬ (s.pump.subscribed = true ∨ s.subEventChan = true) := fun h =>
    hs.subscribed h hinit
  have hsettle : Preserves KeepsRate (fun _ => True) (settle opts w data) :=
    settle_keepsRate data
  unfold State.identify
  cases hc : settle opts w data s.client with
  | error e c =>
      have hkeep := ((hsettle s.client).error hc).2
      constructor
      · rintro (h | h)
        · cases h
        · exact absurd (hkeep.1.trans hinit) h
      · exact fun h => absurd h hidle
      · exact hkeep.2 hs.rate
      · exact hs.slot
      · exact hs.heard
      · exact hs.copies
  | ok u c =>
      have hkeep := (hsettle s.client).ok hc
      have hrate : 0 ≤ c.sampleRate := hkeep.2 hs.rate
      have hneg : Preserves SameSettings (fun _ => True) (negotiate libs opts w data) :=
        negotiate_sameSettings data
      simp only
      cases hc' : negotiate libs opts w data c with
      | ok u' c' => exact hs.settled hidle hrate ((hneg c).ok hc') s.exitChan
      | error e c' => exact hs.settled hidle hrate ((hneg c).error hc').2 true

/-- What the pump receives is the settings of the first `IDENTIFY`. -/
theorem Inv.receiveIdentify (hs : Inv opts s) (hlisten : s.pump.identifyListening = true)
    {e : IdentifyEvent} (he : s.identifyEventChan = some e) :
    Inv opts { s with identifyEventChan := none, pump := s.pump.receiveIdentify e } := by
  obtain ⟨hfirst, hrate⟩ : s.identified.head? = some ⟨e.msgTimeout, e.sampleRate⟩ ∧
      0 ≤ e.sampleRate := by
    have hslot := hs.slot hlisten
    rwa [he] at hslot
  have hold : s.pump.sampleRate = 0 := by
    have hcopies := hs.copies
    rw [if_pos hlisten] at hcopies
    exact congrArg Settings.sampleRate hcopies
  constructor
  · exact hs.client
  · exact hs.subscribed
  · exact hs.rate
  · intro h
    cases h
  · intro _ hnil
    have hnil : s.identified = [] := hnil
    rw [hnil] at hfirst
    cases hfirst
  · show (⟨e.msgTimeout, if 0 < e.sampleRate then e.sampleRate else s.pump.sampleRate⟩ : Settings) =
      s.identified.head?.getD (defaults opts)
    rw [hfirst, hold]
    show _ = (⟨e.msgTimeout, e.sampleRate⟩ : Settings)
    congr 1
    omega

/-- **One step** of the reading of commands or of the pump. -/
theorem Inv.step (s : State) (a : Act) (t : State) (hs : Inv opts s)
    (h : step libs opts s a = some t) : Inv opts t := by
  have hclosed : Inv opts { s with exitChan := true } := by
    refine ⟨fun h => hs.client (.inr (h.resolve_left (by simp))), hs.subscribed, hs.rate, hs.slot,
      hs.heard, hs.copies⟩
  cases a with
  | identify data w =>
      simp only [PumpSettings.step] at h
      split at h
      · cases h
      · split at h
        · cases h
          exact hclosed
        · rename_i hinit
          cases h
          exact hs.identify (not_not.mp hinit) data w
  | sub accepted =>
      simp only [PumpSettings.step] at h
      split at h
      · cases h
      · rename_i hopen
        split at h
        · cases h
          exact hclosed
        · cases h
          refine ⟨fun _ => hs.client (.inl (by simpa using hopen)), fun _ => ?_, hs.rate, hs.slot,
            hs.heard, hs.copies⟩
          exact ClientState.noConfusion
  | disconnect =>
      simp only [PumpSettings.step] at h
      split at h
      · cases h
      · cases h
        exact hclosed
  | receiveSub =>
      simp only [PumpSettings.step] at h
      split at h
      · cases h
      · rename_i hready
        cases h
        refine ⟨hs.client, fun _ => hs.subscribed (.inr ?_), hs.rate, hs.slot, hs.heard, hs.copies⟩
        simp only [not_or, Bool.not_eq_false] at hready
        exact hready.2.2
  | receiveIdentify =>
      simp only [PumpSettings.step] at h
      split at h
      · cases h
      · rename_i hready
        obtain ⟨e, he, rfl⟩ := Option.map_eq_some_iff.mp h
        simp only [not_or, Bool.not_eq_false] at hready
        exact hs.receiveIdentify hready.2 he
  | otherEvent =>
      simp only [PumpSettings.step] at h
      split at h
      · cases h
      · cases h
        exact hs
  | message r =>
      simp only [PumpSettings.step] at h
      split at h
      · cases h
      · cases h
        exact hs
  | exit =>
      simp only [PumpSettings.step] at h
      split at h
      · cases h
      · cases h
        exact ⟨hs.client, hs.subscribed, hs.rate, hs.slot, hs.heard, hs.copies⟩

theorem delivery_eq {d : Settings} (h : delivery s a = some d) :
    s.pump.subscribed = true ∧ d = ⟨s.pump.msgTimeout, s.pump.sampleRate⟩ := by
  unfold delivery at h
  split at h
  · split at h
    · cases h
    · rename_i hready
      split at h
      · cases h
      · cases h
        simp only [not_or, Bool.not_eq_false] at hready
        exact ⟨hready.2, rfl⟩
  · cases h

/-- Where the invariant holds, a delivery is right exactly when the pump is up to date. -/
theorem usesNegotiated_iff (hs : Inv opts s) :
    UsesNegotiated opts s a ↔ DeliversUpToDate opts s a := by
  unfold UsesNegotiated DeliversUpToDate
  cases hd : delivery s a with
  | none => simp
  | some d =>
      obtain ⟨hsub, rfl⟩ := delivery_eq hd
      have hclient := hs.client (.inr (hs.subscribed (.inl hsub)))
      simp only [Option.some.injEq, forall_eq', Option.isSome_some, forall_const]
      rw [hclient, and_self, hs.copies, UpToDate, eq_comm]

/-- **The settings of the pump** are the negotiated ones in exactly the runs in which it is up to
date whenever it delivers. -/
theorem settings_used_iff (libs : Libs) (opts : Options) (acts : List Act) :
    Along (step libs opts) (UsesNegotiated opts) (init opts) acts ↔
      Along (step libs opts) (DeliversUpToDate opts) (init opts) acts :=
  along_congr (I := Inv opts) Inv.step (fun _ _ hs => usesNegotiated_iff hs) acts (init opts)
    (init_inv opts)

/-! ### Two runs -/

/-- An `IDENTIFY` that asks for a message timeout in milliseconds. -/
def timeoutData (msgTimeout : ℤ) : IdentifyData :=
  ⟨0, 0, 0, false, false, false, 0, false, 0, msgTimeout⟩

/-- The client identifies twice, and the pump receives the first event in time. -/
def twice : List Act :=
  [.identify (timeoutData 1000) .calm, .receiveIdentify, .identify (timeoutData 2000) .calm,
    .sub true, .receiveSub, .message 0]

/-- The client identifies once, and the pump takes a message before the event. -/
def late : List Act :=
  [.identify (timeoutData 1000) .calm, .sub true, .receiveSub, .message 0]

/-- Both runs are possible, and in both a message is delivered with another timeout than the client
was told. -/
theorem settings_not_used :
    (run (step .plain newOptions) (init newOptions) twice).isSome ∧
      ¬ Along (step .plain newOptions) (UsesNegotiated newOptions) (init newOptions) twice ∧
      (run (step .plain newOptions) (init newOptions) late).isSome ∧
      ¬ Along (step .plain newOptions) (UsesNegotiated newOptions) (init newOptions) late := by
  decide

end PumpSettings

end Xmq.V2
