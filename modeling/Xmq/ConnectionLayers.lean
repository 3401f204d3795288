import Xmq.ClientV2
import Xmq.Runs

/-!
# The layers of a connection

A client may send `IDENTIFY` again and again, and each may put a layer over the connection. The four
functions that rebuild the writer do not build on what is there: `SetOutputBuffer` starts from the
connection itself, `UpgradeTLS` from TLS, and a compressor from TLS or the connection. What was
negotiated before is lost wherever they should have built on it, and only there.

* `IDENTIFY` commands one after the other; the pump, and whoever answers, may send at any time.
-/

namespace Xmq.V2

/-! ### What the writer goes through -/

def Sink.overTLS : Sink → Bool
  | .conn => false
  | .tls => true
  | .snappy overTLS | .deflate overTLS => overTLS

def Sink.isSnappy : Sink → Bool
  | .snappy _ => true
  | .conn | .tls | .deflate _ => false

def Sink.isDeflate : Sink → Bool
  | .deflate _ => true
  | .conn | .tls | .snappy _ => false

/-- What goes to the sink passes through all that was negotiated. -/
def Sink.Through (sink : Sink) (tls snappy deflate : Bool) : Prop :=
  (tls = true → sink.overTLS = true) ∧ (snappy = true → sink.isSnappy = true) ∧
    (deflate = true → sink.isDeflate = true)

instance (sink : Sink) (tls snappy deflate : Bool) : Decidable (sink.Through tls snappy deflate) :=
  inferInstanceAs (Decidable (_ ∧ _))

/-- Every frame passed through what was negotiated by then, and the next one will. -/
structure ClientV2.Layered (c : ClientV2) : Prop where
  writer : c.writer.Through c.tls c.snappy c.deflate
  sent : ∀ f ∈ c.sent, f.sink.Through f.tls f.snappy f.deflate

/-! ### Runs -/

structure Session where
  client : ClientV2
  todo : List IdentifyStep
  ended : Bool

/-- `IDENTIFY` with its data, its next part, or a frame that is sent. -/
inductive SessionAct where
  | identify (data : IdentifyData)
  | next (w : World)
  | send (frameType : Int32) (data : List UInt8)

namespace Session

def init (opts : Options) (conn : List UInt8) : Session := ⟨newClientV2 opts conn, [], false⟩

def step (libs : Libs) (opts : Options) (s : Session) : SessionAct → Option Session
  | .identify data =>
    if s.client.state = .init ∧ s.todo = [] ∧ s.ended = false then
      some { s with todo := identifySteps opts data }
    else none
  | .next w =>
    match s.todo with
    | [] => none
    | i :: todo =>
      match identifyStep libs opts w i s.client with
      | .ok _ c => some { s with client := c, todo := todo }
      | .error _ c => some ⟨c, [], true⟩
  | .send frameType data => some { s with client := s.client.write frameType data }

end Session

/-! ### The condition -/

def TimeoutValid (opts : Options) (desiredTimeout : ℤ) : Prop :=
  desiredTimeout = -1 ∨ desiredTimeout = 0 ∨
    opts.minOutputBufferTimeout.tdiv millisecond ≤ desiredTimeout ∧
      desiredTimeout ≤ opts.maxOutputBufferTimeout.tdiv millisecond

instance (opts : Options) (desiredTimeout : ℤ) : Decidable (TimeoutValid opts desiredTimeout) :=
  inferInstanceAs (Decidable (_ ∨ _))

/-- A new size. -/
def SizeValid (opts : Options) (desiredSize : ℤ) : Prop :=
  desiredSize = -1 ∨ 64 ≤ desiredSize ∧ desiredSize ≤ opts.maxOutputBufferSize

instance (opts : Options) (desiredSize : ℤ) : Decidable (SizeValid opts desiredSize) :=
  inferInstanceAs (Decidable (_ ∨ _))

/-- `SetOutputBuffer` gets to its new writer. -/
def Rebuilds (opts : Options) (w : World) (desiredSize desiredTimeout : ℤ) : Prop :=
  TimeoutValid opts desiredTimeout ∧ SizeValid opts desiredSize ∧ w.flushErr = none

instance (opts : Options) (w : World) (desiredSize desiredTimeout : ℤ) :
    Decidable (Rebuilds opts w desiredSize desiredTimeout) :=
  inferInstanceAs (Decidable (_ ∧ _))

/-- The part drops no layer: no new output buffer where there is one, no TLS after a compressor,
and not one compressor after the other. -/
def IdentifyStep.Stacks (opts : Options) (w : World) (c : ClientV2) : IdentifyStep → Prop
  | .setOutputBuffer desiredSize desiredTimeout => Rebuilds opts w desiredSize desiredTimeout →
    c.tls = false ∧ c.snappy = false ∧ c.deflate = false
  | .upgradeTLS => w.handshake = none → c.snappy = false ∧ c.deflate = false
  | .upgradeSnappy => c.deflate = false
  | .upgradeDeflate => c.snappy = false
  | _ => True

instance (opts : Options) (w : World) (c : ClientV2) :
    ∀ i : IdentifyStep, Decidable (i.Stacks opts w c)
  | .setOutputBuffer _ _ | .upgradeTLS => inferInstanceAs (Decidable (_ → _))
  | .upgradeSnappy | .upgradeDeflate => inferInstanceAs (Decidable (_ = false))
  | .setHeartbeatInterval _ | .setSampleRate _ | .setMsgTimeout _ | .cannotEnableBoth
  | .respond _ _ _ _ | .respondOK => inferInstanceAs (Decidable True)

def Stacks (opts : Options) (s : Session) : SessionAct → Prop
  | .next w => ∀ i ∈ s.todo.head?, i.Stacks opts w s.client
  | _ => True

instance (opts : Options) (s : Session) : ∀ a : SessionAct, Decidable (Stacks opts s a)
  | .next _ => Option.decidableForallMem _
  | .identify _ | .send _ _ => inferInstanceAs (Decidable True)

/-! ### Parts of `IDENTIFY` -/

/-- Neither a layer nor what was sent has changed. -/
structure SameLayers (c c' : ClientV2) : Prop where
  tls : c'.tls = c.tls
  snappy : c'.snappy = c.snappy
  deflate : c'.deflate = c.deflate
  tlsConn : c'.tlsConn = c.tlsConn
  sent : c'.sent = c.sent

/-- The client has a TLS connection when it says so. -/
structure ClientV2.Sound (c : ClientV2) : Prop extends c.Layered where
  tlsConn : c.tls = true → c.tlsConn = true

section Parts

variable {libs : Libs} {opts : Options} {w : World} {c c' : ClientV2}

theorem SameLayers.refl (c : ClientV2) : SameLayers c c := ⟨rfl, rfl, rfl, rfl, rfl⟩

theorem SameLayers.sound (h : SameLayers c c') (hw : c'.writer = c.writer) (hc : c.Sound) :
    c'.Sound where
  writer := by
    rw [hw, h.tls, h.snappy, h.deflate]
    exact hc.writer
  sent := by
    rw [h.sent]
    exact hc.sent
  tlsConn := by
    rw [h.tls, h.tlsConn]
    exact hc.tlsConn

theorem SameButSettings.sameLayers (h : SameButSettings c c') :
    SameLayers c c' ∧ c'.writer = c.writer := by
  obtain ⟨_, _, _, _, _, rfl⟩ := h
  exact ⟨⟨rfl, rfl, rfl, rfl, rfl⟩, rfl⟩

theorem setOutputBufferTimeout_spec (desiredTimeout : ℤ) (c : ClientV2) :
    Ensures (setOutputBufferTimeout opts desiredTimeout) c
      (fun _ c' => (SameLayers c c' ∧ c'.writer = c.writer) ∧ TimeoutValid opts desiredTimeout)
      (fun _ c' => (SameLayers c c' ∧ c'.writer = c.writer) ∧
        ¬ TimeoutValid opts desiredTimeout) := by
  simp only [setOutputBufferTimeout, ensures_ite, ensures_modify, ensures_pure, ensures_throw]
  refine ⟨fun h => ⟨⟨⟨rfl, rfl, rfl, rfl, rfl⟩, trivial⟩, Or.inl h⟩,
    fun h₁ => ⟨fun h => ?_, fun h₂ => ⟨fun h => ?_, fun h₃ => ?_⟩⟩⟩
  · exact ⟨⟨.refl c, trivial⟩, Or.inr (Or.inl h)⟩
  · exact ⟨⟨⟨rfl, rfl, rfl, rfl, rfl⟩, trivial⟩, Or.inr (Or.inr h)⟩
  · exact ⟨⟨.refl c, trivial⟩, fun h => h.elim h₁ fun h => h.elim h₂ h₃⟩

theorem setOutputBufferSize_spec (desiredSize : ℤ) (c : ClientV2) :
    Ensures (setOutputBufferSize opts desiredSize) c
      (fun _ c' => (SameLayers c c' ∧ c'.writer = c.writer) ∧
        (desiredSize ≠ 0 ↔ SizeValid opts desiredSize))
      (fun _ c' => (SameLayers c c' ∧ c'.writer = c.writer) ∧ ¬ SizeValid opts desiredSize) := by
  simp only [setOutputBufferSize, ensures_ite, ensures_modify, ensures_pure, ensures_throw,
    SizeValid]
  refine ⟨fun h => ⟨⟨⟨rfl, rfl, rfl, rfl, rfl⟩, trivial⟩, by omega⟩,
    fun h₁ => ⟨fun h => ⟨⟨.refl c, trivial⟩, by omega⟩, fun h₂ => ⟨fun h => ?_, fun h₃ => ?_⟩⟩⟩
  · exact ⟨⟨⟨rfl, rfl, rfl, rfl, rfl⟩, trivial⟩, by omega⟩
  · exact ⟨⟨.refl c, trivial⟩, fun h => h.elim h₁ h₃⟩

theorem SameLayers.trans {c₁ c₂ c₃ : ClientV2} (h : SameLayers c₁ c₂) (h' : SameLayers c₂ c₃) :
    SameLayers c₁ c₃ :=
  ⟨h'.tls.trans h.tls, h'.snappy.trans h.snappy, h'.deflate.trans h.deflate,
    h'.tlsConn.trans h.tlsConn, h'.sent.trans h.sent⟩

/-- `SetOutputBuffer` rebuilds the writer on the connection, or changes no layer. -/
theorem setOutputBuffer_spec (desiredSize desiredTimeout : ℤ) (c : ClientV2) :
    Ensures (setOutputBuffer opts w desiredSize desiredTimeout) c
      (fun _ c' => SameLayers c c' ∧ c'.writer =
        if Rebuilds opts w desiredSize desiredTimeout then .conn else c.writer)
      (fun _ c' => SameLayers c c' ∧ c'.writer =
        if Rebuilds opts w desiredSize desiredTimeout then .conn else c.writer) := by
  rw [setOutputBuffer, ensures_bind]
  refine (setOutputBufferTimeout_spec desiredTimeout c).imp (fun _ c₁ h₁ => ?_) fun _ c₁ h₁ => ?_
  · obtain ⟨⟨hsame₁, hwriter₁⟩, htimeout⟩ := h₁
    rw [ensures_bind]
    refine (setOutputBufferSize_spec desiredSize c₁).imp (fun _ c₂ h₂ => ?_) fun _ c₂ h₂ => ?_
    · obtain ⟨⟨hsame₂, hwriter₂⟩, hsize⟩ := h₂
      have hsame := hsame₁.trans hsame₂
      rw [rebuildWriter, ensures_ite]
      refine ⟨fun h => ?_, fun h => ?_⟩
      · cases hflush : w.flushErr with
        | none =>
            have hyes : Rebuilds opts w desiredSize desiredTimeout :=
              ⟨htimeout, hsize.mp h, hflush⟩
            rw [if_pos hyes]
            exact ⟨⟨hsame.tls, hsame.snappy, hsame.deflate, hsame.tlsConn, hsame.sent⟩, rfl⟩
        | some err =>
            have hno : ¬ Rebuilds opts w desiredSize desiredTimeout := fun h => by
              rw [h.2.2] at hflush
              cases hflush
            rw [if_neg hno]
            exact ⟨hsame, hwriter₂.trans hwriter₁⟩
      · have hno : ¬ Rebuilds opts w desiredSize desiredTimeout := fun hr => h (hsize.mpr hr.2.1)
        rw [if_neg hno]
        exact ⟨hsame, hwriter₂.trans hwriter₁⟩
    · have hno : ¬ Rebuilds opts w desiredSize desiredTimeout := fun hr => h₂.2 hr.2.1
      rw [if_neg hno]
      exact ⟨hsame₁.trans h₂.1.1, h₂.1.2.trans hwriter₁⟩
  · have hno : ¬ Rebuilds opts w desiredSize desiredTimeout := fun hr => h₁.2 hr.1
    rw [if_neg hno]
    exact h₁.1

/-- A frame goes through what was negotiated when the next one would. -/
theorem ClientV2.Sound.write (hc : c.Sound) (frameType : Int32) (data : List UInt8) :
    (c.write frameType data).Sound where
  writer := hc.writer
  sent := by
    intro f hf
    rcases List.mem_append.mp hf with hf | hf
    · exact hc.sent f hf
    · rw [List.mem_singleton.mp hf]
      exact hc.writer
  tlsConn := hc.tlsConn

theorem identifySend_sound (hc : c.Sound) (data : List UInt8) :
    Ensures (identifySend w data) c (fun _ c' => c'.Sound) fun _ c' => c'.Sound := by
  rw [identifySend, ensures_bind, send]
  show Ensures _ (c.write frameTypeResponse data) _ _
  cases w.sendErr c.sent.length with
  | none => exact hc.write _ _
  | some err => exact hc.write _ _

/-- Without a layer, any sink will do. -/
theorem through_conn {tls snappy deflate : Bool} :
    Sink.conn.Through tls snappy deflate ↔ tls = false ∧ snappy = false ∧ deflate = false := by
  cases tls <;> cases snappy <;> cases deflate <;> decide

theorem through_tls {tls snappy deflate : Bool} :
    Sink.tls.Through tls snappy deflate ↔ snappy = false ∧ deflate = false := by
  cases tls <;> cases snappy <;> cases deflate <;> decide

theorem through_snappy {overTLS tls deflate : Bool} (h : tls = true → overTLS = true) :
    (Sink.snappy overTLS).Through tls true deflate ↔ deflate = false := by
  revert h
  cases overTLS <;> cases tls <;> cases deflate <;> decide

theorem through_deflate {overTLS tls snappy : Bool} (h : tls = true → overTLS = true) :
    (Sink.deflate overTLS).Through tls snappy true ↔ snappy = false := by
  revert h
  cases overTLS <;> cases tls <;> cases snappy <;> decide

/-- Where all that was sent is fine, it depends on the writer. -/
theorem layered_iff (hsent : c'.sent = c.sent) (hc : c.Layered) :
    c'.Layered ↔ c'.writer.Through c'.tls c'.snappy c'.deflate := by
  refine ⟨fun h => h.writer, fun h => ⟨h, ?_⟩⟩
  rw [hsent]
  exact hc.sent

/-- The client has a TLS connection when it says so, and keeps the layers when `p` holds. -/
structure ClientV2.KeepsWhen (p : Prop) (c : ClientV2) : Prop where
  tlsConn : c.tls = true → c.tlsConn = true
  layered : c.Layered ↔ p

theorem ClientV2.Sound.keepsWhen {p : Prop} (hc : c.Sound) (hp : p) : c.KeepsWhen p :=
  ⟨hc.tlsConn, iff_of_true hc.toLayered hp⟩

theorem keepsWhen_of_preserves {m : Handler PUnit} (h : Preserves SameButSettings Fail.Fatal m)
    (hc : c.Sound) :
    Ensures m c (fun _ c' => c'.KeepsWhen True) fun _ c' => c'.KeepsWhen True := by
  have hkeeps : ∀ c', SameButSettings c c' → c'.KeepsWhen True := fun c' h' =>
    (h'.sameLayers.1.sound h'.sameLayers.2 hc).keepsWhen trivial
  exact (h c).imp (fun _ c' h' => hkeeps c' h') fun _ c' h' => hkeeps c' h'.2

theorem identifySend_keepsWhen (hc : c.Sound) (data : List UInt8) :
    Ensures (identifySend w data) c (fun _ c' => c'.KeepsWhen True)
      fun _ c' => c'.KeepsWhen True :=
  (identifySend_sound hc data).imp (fun _ _ h => h.keepsWhen trivial)
    fun _ _ h => h.keepsWhen trivial

variable (libs opts w) in
/-- **One part.** It keeps the layers exactly when it stacks. -/
theorem identifyStep_keepsWhen (hc : c.Sound) (i : IdentifyStep) :
    Ensures (identifyStep libs opts w i) c (fun _ c' => c'.KeepsWhen (i.Stacks opts w c))
      fun _ c' => c'.KeepsWhen (i.Stacks opts w c) := by
  cases i with
  | setHeartbeatInterval n => exact keepsWhen_of_preserves (preserves_setHeartbeatInterval n) hc
  | setOutputBuffer desiredSize desiredTimeout =>
      have hspec : ∀ c' : ClientV2, (SameLayers c c' ∧ c'.writer =
          if Rebuilds opts w desiredSize desiredTimeout then .conn else c.writer) →
          c'.KeepsWhen
            ((IdentifyStep.setOutputBuffer desiredSize desiredTimeout).Stacks opts w c) := by
        rintro c' ⟨hsame, hwriter⟩
        by_cases hr : Rebuilds opts w desiredSize desiredTimeout
        · rw [if_pos hr] at hwriter
          refine ⟨?_, ?_⟩
          · rw [hsame.tls, hsame.tlsConn]
            exact hc.tlsConn
          · rw [layered_iff hsame.sent hc.toLayered, hwriter, hsame.tls, hsame.snappy,
              hsame.deflate, through_conn]
            exact ⟨fun h _ => h, fun h => h hr⟩
        · rw [if_neg hr] at hwriter
          exact (hsame.sound hwriter hc).keepsWhen fun h => absurd h hr
      exact (setOutputBuffer_spec desiredSize desiredTimeout c).imp (fun _ c' h => hspec c' h)
        fun _ c' h => hspec c' h
  | setSampleRate n => exact keepsWhen_of_preserves (preserves_setSampleRate n) hc
  | setMsgTimeout n => exact keepsWhen_of_preserves (preserves_setMsgTimeout n) hc
  | cannotEnableBoth => exact hc.keepsWhen trivial
  | respond tlsv1 deflate snappy deflateLevel => exact identifySend_keepsWhen hc _
  | upgradeTLS =>
      show Ensures (upgradeTLS w) c _ _
      rw [upgradeTLS, IdentifyStep.Stacks]
      cases w.handshake with
      | some err => exact hc.keepsWhen fun h => by cases h
      | none =>
          have hiff : (ClientV2.Layered
              { c.decoded w .tls with tlsConn := true, writer := .tls, tls := true }) ↔ _ :=
            layered_iff (c := c) rfl hc.toLayered
          exact ⟨fun _ => rfl, hiff.trans (through_tls.trans ⟨fun h _ => h, fun h => h rfl⟩)⟩
  | upgradeSnappy =>
      have hiff : (ClientV2.Layered
          { c.decoded w .snappy with writer := .snappy c.tlsConn, snappy := true }) ↔ _ :=
        layered_iff (c := c) rfl hc.toLayered
      exact ⟨hc.tlsConn, hiff.trans (through_snappy hc.tlsConn)⟩
  | upgradeDeflate =>
      have hiff : (ClientV2.Layered
          { c.decoded w .deflate with
            flateWriter := some c.tlsConn, writer := .deflate c.tlsConn, deflate := true }) ↔ _ :=
        layered_iff (c := c) rfl hc.toLayered
      exact ⟨hc.tlsConn, hiff.trans (through_deflate hc.tlsConn)⟩
  | respondOK => exact identifySend_keepsWhen hc _

end Parts

/-! ### Whole runs -/

/-- The step keeps the layers. -/
def KeepsLayers (libs : Libs) (opts : Options) (s : Session) (a : SessionAct) : Prop :=
  ∀ s' ∈ Session.step libs opts s a, s'.client.Layered

section Sessions

variable {libs : Libs} {opts : Options} {s s' : Session} {a : SessionAct}

theorem Session.step_keepsWhen (hs : s.client.Sound) (h : Session.step libs opts s a = some s') :
    s'.client.KeepsWhen (Stacks opts s a) := by
  cases a with
  | identify data =>
      obtain ⟨-, h⟩ := Option.ite_none_right_eq_some.mp h
      cases h
      exact hs.keepsWhen trivial
  | send frameType data =>
      cases h
      exact (hs.write frameType data).keepsWhen trivial
  | next w =>
      cases htodo : s.todo with
      | nil =>
          simp only [Session.step, htodo] at h
          cases h
      | cons i todo =>
          have hspec := identifyStep_keepsWhen libs opts w hs i
          have hgoal : Stacks opts s (.next w) ↔ i.Stacks opts w s.client := by
            rw [Stacks, htodo]
            exact ⟨fun h => h i rfl, fun h j hj => Option.mem_some.mp hj ▸ h⟩
          rw [hgoal]
          simp only [Session.step, htodo] at h
          cases hstep : identifyStep libs opts w i s.client with
          | ok _ c =>
              rw [hstep] at h
              cases h
              exact hspec.ok hstep
          | error _ c =>
              rw [hstep] at h
              cases h
              exact hspec.error hstep

theorem Session.step_sound (hs : s.client.Sound) (h : Session.step libs opts s a = some s')
    (hlayered : s'.client.Layered) : s'.client.Sound :=
  ⟨hlayered, (Session.step_keepsWhen hs h).tlsConn⟩

/-- A part that is not possible drops nothing. -/
theorem Session.stacks_of_keeps (hs : s.client.Sound) (h : KeepsLayers libs opts s a) :
    Stacks opts s a := by
  cases hstep : Session.step libs opts s a with
  | some s' => exact (Session.step_keepsWhen hs hstep).layered.mp (h s' hstep)
  | none =>
      cases a with
      | identify data => exact trivial
      | send frameType data => exact trivial
      | next w =>
          cases htodo : s.todo with
          | nil =>
              rw [Stacks, htodo]
              exact nofun
          | cons i todo =>
              simp only [Session.step, htodo] at hstep
              split at hstep <;> cases hstep

theorem Session.init_sound (opts : Options) (conn : List UInt8) :
    (Session.init opts conn).client.Sound where
  writer := ⟨nofun, nofun, nofun⟩
  sent := nofun
  tlsConn := nofun

end Sessions

/-- **The layers of a connection.** However often a client negotiates, and whatever is sent between,
all frames go through all that was negotiated exactly as long as each part of an `IDENTIFY` stacks. -/
theorem layers_kept (libs : Libs) (opts : Options) (conn : List UInt8) (acts : List SessionAct) :
    Runs.Along (Session.step libs opts) (KeepsLayers libs opts) (Session.init opts conn) acts ↔
      Runs.Along (Session.step libs opts) (Stacks opts) (Session.init opts conn) acts := by
  have hinit := Session.init_sound opts conn
  constructor
  · refine Runs.along_imp (I := fun s => s.client.Sound) ?_ ?_ acts _ hinit
    · intro s a s' hs hkeeps hstep
      exact Session.step_sound hs hstep (hkeeps s' hstep)
    · intro s a hs hkeeps
      exact Session.stacks_of_keeps hs hkeeps
  · refine Runs.along_imp (I := fun s => s.client.Sound) ?_ ?_ acts _ hinit
    · intro s a s' hs hstacks hstep
      exact Session.step_sound hs hstep ((Session.step_keepsWhen hs hstep).layered.mpr hstacks)
    · intro s a hs hstacks s' hstep
      exact (Session.step_keepsWhen hs hstep).layered.mpr hstacks

/-! ### Without the condition -/

section Plaintext

/-- A server with TLS. -/
def tlsOptions : Options := { newOptions with tlsConfig := true }

def identifyTLS : IdentifyData where
  heartbeatInterval := 0
  outputBufferSize := 0
  outputBufferTimeout := 0
  featureNegotiation := true
  tlsv1 := true
  deflate := false
  deflateLevel := 0
  snappy := false
  sampleRate := 0
  msgTimeout := 0

def identifyBuffer : IdentifyData :=
  { identifyTLS with outputBufferSize := 64, featureNegotiation := false, tlsv1 := false }

/-- TLS first, and then a new output buffer: the response to a `PUB` goes to the connection itself. -/
def bufferAfterTLS : List SessionAct :=
  [.identify identifyTLS] ++ List.replicate 7 (.next World.calm) ++ [.identify identifyBuffer] ++
    List.replicate 4 (.next World.calm) ++ [.send frameTypeResponse okBytes]

theorem plaintext_after_tls :
    ∃ s, Runs.run (Session.step Libs.plain tlsOptions) (Session.init tlsOptions [])
        bufferAfterTLS = some s ∧
      s.client.tls = true ∧ s.client.writer = .conn ∧ ¬ s.client.Layered := by
  have hrun := Runs.exists_of_run (Session.step Libs.plain tlsOptions) (Session.init tlsOptions [])
    bufferAfterTLS (fun s => s.client.tls = true ∧ s.client.writer = .conn) (by decide)
  obtain ⟨s, hs, htls, hwriter⟩ := hrun
  refine ⟨s, hs, htls, hwriter, fun h => ?_⟩
  have hover := h.writer.1 htls
  rw [hwriter] at hover
  cases hover

end Plaintext

end Xmq.V2
