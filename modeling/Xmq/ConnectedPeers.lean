import Xmq.LookupLoop

/-!
# Connected means announced

Once a peer is connected the lookup loop leaves it alone, so whatever the callback has not done by
then is not done later. The law asks that a connected peer has been accepted, and that the topics
and channels that were there when its connection was made are registered. Three exits break it: an
`Identify` that fails and a `Register` that fails both leave the peer connected, and the callback
looks for the topics in a map that nobody fills. A notification also calls the client of a peer that
was never reached.

* The log of the calls says which connection is the present one and what was announced on it.
* Where the turns of a run avoid these exits, no turn panics and every connected peer is announced.
-/

namespace Xmq.Lookup

open Runs
open Cluster (XMQD Announced)

/-! ### The law -/

def Entry.Opens (addr : String) : Entry → Prop
  | .opened a _ _ => a = addr
  | _ => False

/-- The `Identify` of the present connection to the address was accepted, and what the node had when
it was made has been registered there. -/
def AnnouncedTo (addr : String) (log : Log) : Prop :=
  ∃ after node id before, log = after ++ .opened addr node id :: before ∧
    (∀ e ∈ after, ¬ e.Opens addr) ∧ .identified addr true ∈ after ∧
    ∀ q, Announced node.cluster node.cluster.topics id q → .registered addr q ∈ log

/-- **Connected means announced**, for a run of the loop: no turn panics, and at its end every
connected peer is announced. -/
def ConnectedAnnounced (turns : List Turn) : Prop :=
  ∃ s, run LookupLoop.turn (LookupLoop.new, []) turns = some s ∧
    ∀ lp ∈ s.1.lookupPeers, lp.state = .connected → AnnouncedTo lp.addr s.2

/-! ### The condition -/

namespace Turn

variable (t : Turn)

/-- The turn makes a connection to the address. -/
def Connects (l : LookupLoop) (addr : String) : Prop :=
  t.dial addr = none ∧
    (t.wake = .tick ∧ (∃ lp ∈ l.lookupPeers, lp.addr = addr ∧ lp.state ≠ .connected) ∨
      (l.connect = true ∨ t.wake = .optsNotification) ∧ addr ∈ t.addresses ∧ addr ∉ l.lookupAddrs)

/-- The calls on a new connection end well: `Identify` has an answer, and after one without an error
all that the node has is in the commands or is registered already, and no command fails. -/
structure EndsWell (log : Log) (addr : String) : Prop where
  identify : ∀ err, t.identify addr ≠ .error err
  register : Accepted IdentifyReply.err (t.identify addr) →
    ∀ q ∈ t.commands addr, Accepted Reply.err (t.register addr q)
  existing : Accepted IdentifyReply.err (t.identify addr) →
    ∀ q, Announced (t.node addr).cluster (t.node addr).cluster.topics t.opts.id q →
      q ∈ t.commands addr ∨ .registered addr q ∈ log

/-- The turn takes none of the exits. -/
structure Sound (s : LookupLoop × Log) : Prop where
  connects : ∀ addr, t.Connects s.1 addr → t.EndsWell s.2 addr
  notify : ∀ val, t.wake = .notify val → ∀ lp ∈ s.1.lookupPeers, lp.client = true

end Turn

/-! ### How the log grows -/

/-- The log has grown, with new connections only to these addresses. -/
def Grows (P : String → Prop) (log log' : Log) : Prop :=
  ∃ new, log' = new ++ log ∧ ∀ e ∈ new, ∀ addr, e.Opens addr → P addr

variable {P Q : String → Prop} {log log' log'' : Log} {addr : String}

theorem Grows.refl (log : Log) : Grows P log log := ⟨[], rfl, by simp⟩

theorem Grows.cons {e : Entry} (he : ∀ addr, e.Opens addr → P addr) (h : Grows P log log') :
    Grows P log (e :: log') := by
  obtain ⟨new, rfl, hnew⟩ := h
  refine ⟨e :: new, rfl, ?_⟩
  intro e' he'
  rcases List.mem_cons.mp he' with rfl | he'
  · exact he
  · exact hnew e' he'

theorem Grows.trans (h : Grows P log log') (h' : Grows P log' log'') : Grows P log log'' := by
  obtain ⟨new, rfl, hnew⟩ := h
  obtain ⟨new', rfl, hnew'⟩ := h'
  refine ⟨new' ++ new, (List.append_assoc _ _ _).symm, ?_⟩
  intro e he
  rcases List.mem_append.mp he with he | he
  · exact hnew' e he
  · exact hnew e he

theorem Grows.imp (h : Grows P log log') (hPQ : ∀ addr, P addr → Q addr) : Grows Q log log' := by
  obtain ⟨new, rfl, hnew⟩ := h
  exact ⟨new, rfl, fun e he addr hopens => hPQ addr (hnew e he addr hopens)⟩

theorem Grows.mem (h : Grows P log log') {e : Entry} (he : e ∈ log) : e ∈ log' := by
  obtain ⟨new, rfl, -⟩ := h
  exact List.mem_append_right _ he

/-- Connections to other addresses leave a peer announced. -/
theorem AnnouncedTo.grow (h : AnnouncedTo addr log) (hgrow : Grows P log log') (haddr : ¬ P addr) :
    AnnouncedTo addr log' := by
  obtain ⟨after, node, id, before, heq, hlast, hid, hreg⟩ := h
  obtain ⟨new, hnew, hopens⟩ := hgrow
  refine ⟨new ++ after, node, id, before, ?_, ?_, ?_, ?_⟩
  · rw [hnew, heq, List.append_assoc]
  · intro e he hopen
    rcases List.mem_append.mp he with he | he
    · exact haddr (hopens e he addr hopen)
    · exact hlast e he hopen
  · exact List.mem_append_right _ hid
  · intro q hq
    rw [hnew]
    exact List.mem_append_right _ (hreg q hq)

/-- What the callback does from an accepted `Identify` on. -/
theorem announcedTo_of_grows {node : XMQD} {id : String} {before : Log}
    (h : Grows (fun _ => False) (.identified addr true :: .opened addr node id :: before) log')
    (hall : ∀ q, Announced node.cluster node.cluster.topics id q → .registered addr q ∈ log') :
    AnnouncedTo addr log' := by
  obtain ⟨new, rfl, hnew⟩ := h
  refine ⟨new ++ [.identified addr true], node, id, before, by simp, ?_, by simp, hall⟩
  intro e he hopen
  rcases List.mem_append.mp he with he | he
  · exact hnew e he addr hopen
  · rw [List.mem_singleton.mp he] at hopen
    exact hopen

theorem Turn.EndsWell.grow {t : Turn} (h : t.EndsWell log addr) (hgrow : Grows P log log') :
    t.EndsWell log' addr where
  identify := h.identify
  register := h.register
  existing haccept q hq := (h.existing haccept q hq).imp_right hgrow.mem

/-! ### One peer -/

/-- A connected peer has an open connection that is announced. -/
def Settled (log : Log) (lp : LookupPeer) : Prop :=
  lp.state = .connected → AnnouncedTo lp.addr log ∧ lp.Ready

theorem Settled.grow {lp : LookupPeer} (h : Settled log lp) (hgrow : Grows P log log')
    (haddr : ¬ P lp.addr) : Settled log' lp := by
  intro hstate
  obtain ⟨hannounced, hready⟩ := h hstate
  exact ⟨hannounced.grow hgrow haddr, hready⟩

variable {t : Turn}

/-- The loop over the commands; where none fails, all are registered. -/
theorem registerAll_grows {lp : LookupPeer} (h : lp.Ready) (commands : List RegisterRequest) :
    ∀ log, ∃ log', registerAll t.daemons lp commands log = some log' ∧
      Grows (fun _ => False) log log' ∧
      ((∀ q ∈ commands, Accepted Reply.err (t.register lp.addr q)) →
        ∀ q ∈ commands, .registered lp.addr q ∈ log') := by
  induction commands with
  | nil =>
      intro log
      exact ⟨log, rfl, .refl log, by simp⟩
  | cons cmd commands ih =>
      intro log
      rw [registerAll_cons h]
      cases hcall : t.register lp.addr cmd with
      | error err =>
          simp only [Turn.daemons, hcall, Accepted, if_false]
          refine ⟨log, rfl, .refl log, ?_⟩
          intro hall
          have hfail := hall cmd List.mem_cons_self
          rw [hcall] at hfail
          exact hfail.elim
      | ok rsp =>
          simp only [Turn.daemons, hcall, Accepted]
          by_cases herr : rsp.err = ""
          · obtain ⟨log', hrun, hgrow, hall⟩ := ih (.registered lp.addr cmd :: log)
            have hopened : Grows (fun _ => False) log (.registered lp.addr cmd :: log) :=
              .cons (fun _ hopen => hopen) (.refl log)
            simp only [herr, if_true, ne_eq, not_true_eq_false, if_false]
            refine ⟨log', hrun, hopened.trans hgrow, ?_⟩
            intro haccept q hq
            rcases List.mem_cons.mp hq with rfl | hq
            · exact hgrow.mem List.mem_cons_self
            · exact hall (fun q hq => haccept q (List.mem_cons_of_mem _ hq)) q hq
          · simp only [herr, if_false, ne_eq, not_false_eq_true, if_true]
            refine ⟨log, rfl, .refl log, ?_⟩
            intro hall
            have hfail := hall cmd List.mem_cons_self
            rw [hcall] at hfail
            exact absurd hfail herr

/-- The answer to the `Identify` of the callback, in the log. -/
theorem daemons_identify {rsp : IdentifyReply} (h : t.identify addr = .ok rsp) (log : Log)
    (req : PeerRequest) : t.daemons.identify log addr req =
      (.ok rsp, .identified addr (decide (rsp.err = "")) :: log) := by
  simp [Turn.daemons, h, Accepted]

/-- The callback on a new connection, where its calls end well. -/
theorem callback_settles {lp : LookupPeer} (h : lp.Ready) {log before : Log}
    (hlog : log = .opened lp.addr (t.node lp.addr) t.opts.id :: before)
    (hwell : t.EndsWell log lp.addr) :
    ∃ lp' log', t.callback lp log = some (lp', log') ∧ lp'.addr = lp.addr ∧
      Grows (fun _ => False) log log' ∧ lp'.client = true ∧ Settled log' lp' := by
  cases hcall : t.identify lp.addr with
  | error err => exact absurd hcall (hwell.identify err)
  | ok rsp =>
      have hid := daemons_identify hcall log t.opts.identifyRequest
      have hgrow : Grows (fun _ => False) log
          (.identified lp.addr (decide (rsp.err = "")) :: log) :=
        .cons (fun _ hopen => hopen) (.refl log)
      by_cases herr : rsp.err = ""
      · have haccept : Accepted IdentifyReply.err (t.identify lp.addr) := by
          rw [hcall]
          exact herr
        obtain ⟨log', hrun, hmore, hall⟩ := registerAll_grows (t := t) (h.identified rsp)
          (t.commands lp.addr) (.identified lp.addr (decide (rsp.err = "")) :: log)
        have hlast : Grows (fun _ => False) log log' := hgrow.trans hmore
        refine ⟨lp.identified rsp, log', ?_, rfl, hlast, h.1, ?_⟩
        · rw [Turn.callback, connectCallback_accepted h hid herr, hrun, Option.map_some]
        · intro _
          refine ⟨?_, h⟩
          rw [decide_eq_true herr, hlog] at hmore
          refine announcedTo_of_grows hmore ?_
          intro q hq
          rcases hwell.existing haccept q hq with hq | hq
          · exact hall (hwell.register haccept) q hq
          · exact hlast.mem hq
      · refine ⟨lp.close, _, ?_, rfl, hgrow, h.1, ?_⟩
        · rw [Turn.callback, connectCallback_refused h hid herr]
        · intro hstate
          cases hstate

theorem daemons_dial_none (h : t.dial addr = none) (log : Log) :
    t.daemons.dial log addr = (none, .opened addr (t.node addr) t.opts.id :: log) := by
  simp [Turn.daemons, h]

theorem daemons_dial_some {err : String} (h : t.dial addr = some err) (log : Log) :
    t.daemons.dial log addr = (some err, log) := by
  simp [Turn.daemons, h]

/-- **`startConnect`**, where the calls on a new connection end well. -/
theorem startConnect_settles {lp : LookupPeer} (h : Settled log lp)
    (hwell : lp.state ≠ .connected → t.dial lp.addr = none → t.EndsWell log lp.addr) :
    ∃ err lp' log', startConnect t.daemons t.callback lp log = some (err, lp', log') ∧
      lp'.addr = lp.addr ∧ Grows (fun addr => addr = lp.addr) log log' ∧ Settled log' lp' ∧
      (err = none → lp'.client = true) := by
  by_cases hstate : lp.state = .connected
  · refine ⟨none, lp, log, ?_, rfl, .refl log, h, fun _ => (h hstate).2.1⟩
    rw [startConnect, if_pos hstate]
  · cases hdial : t.dial lp.addr with
    | some err =>
        refine ⟨some err, lp, log, ?_, rfl, .refl log, h, fun herr => by cases herr⟩
        simp only [startConnect, if_neg hstate, LookupPeer.connect, daemons_dial_some hdial]
    | none =>
        have hopened : Grows (fun addr => addr = lp.addr) log
            (.opened lp.addr (t.node lp.addr) t.opts.id :: log) :=
          .cons (fun _ hopen => hopen.symm) (.refl log)
        obtain ⟨lp', log', hcall, haddr, hgrow, hclient, hsettled⟩ :=
          callback_settles lp.ready_dialled rfl ((hwell hstate hdial).grow hopened)
        simp only [LookupPeer.dialled_addr] at hcall haddr hgrow
        have hstart : startConnect t.daemons t.callback lp log = _ :=
          startConnect_disconnected hstate (daemons_dial_none hdial log)
        rw [hcall, Option.map_some] at hstart
        have hlast := hopened.trans (hgrow.imp fun _ hfalse => hfalse.elim)
        split at hstart
        · exact ⟨_, lp', log', hstart, haddr, hlast, hsettled, fun herr => by cases herr⟩
        · exact ⟨_, lp', log', hstart, haddr, hlast, hsettled, fun _ => hclient⟩

/-! ### The peers of the loop -/

/-- A method of a client that is there. -/
theorem call_grows {α : Type} {lp : LookupPeer} (h : lp.client = true)
    {f : Log → String → Except String α × Log} (hf : ∀ log addr, Grows P log (f log addr).2)
    (log : Log) :
    ∃ r, lp.call f log = some r ∧ Grows P log r.2 := by
  unfold LookupPeer.call
  rw [if_neg (by simp [h])]
  split
  · exact ⟨_, rfl, hf log lp.addr⟩
  · exact ⟨_, rfl, .refl log⟩

/-- A heartbeat changes nothing. -/
theorem call_ping {lp : LookupPeer} (h : lp.client = true) (req : PeerRequest) (log : Log) :
    ∃ r, lp.call (fun log addr => t.daemons.ping log addr req) log = some (r, log) := by
  unfold LookupPeer.call
  rw [if_neg (by simp [h])]
  split
  · exact ⟨_, rfl⟩
  · exact ⟨_, rfl⟩

theorem notifyAll_grows {f : Log → String → Except String Reply × Log}
    (hf : ∀ log addr, Grows P log (f log addr).2) {lps : List LookupPeer} :
    ∀ log, (∀ lp ∈ lps, lp.client = true) →
      ∃ log', LookupLoop.notifyAll f lps log = some log' ∧ Grows P log log' := by
  induction lps with
  | nil =>
      intro log _
      exact ⟨log, rfl, .refl log⟩
  | cons lp lps ih =>
      intro log hclient
      obtain ⟨r, hcall, hgrow⟩ := call_grows (hclient lp List.mem_cons_self) hf log
      obtain ⟨log', hrun, hrest⟩ := ih r.2 fun lp hlp => hclient lp (List.mem_cons_of_mem _ hlp)
      refine ⟨log', ?_, hgrow.trans hrest⟩
      rw [LookupLoop.notifyAll, hcall]
      exact hrun

theorem daemons_register_grows (t : Turn) (req : RegisterRequest) (log : Log) (addr : String) :
    Grows (fun _ => False) log (t.daemons.register log addr req).2 := by
  simp only [Turn.daemons]
  split
  · exact .cons (fun _ hopen => hopen) (.refl log)
  · exact .refl log

/-- **A tick**: every peer stays settled, or gets settled. -/
theorem heartbeats_settles (req : PeerRequest) {lps : List LookupPeer} :
    ∀ log, (lps.map LookupPeer.addr).Nodup → (∀ lp ∈ lps, Settled log lp) →
      (∀ lp ∈ lps, lp.state ≠ .connected → t.dial lp.addr = none → t.EndsWell log lp.addr) →
      ∃ lps' log', LookupLoop.heartbeats t.daemons t.callback req lps log = some (lps', log') ∧
        lps'.map LookupPeer.addr = lps.map LookupPeer.addr ∧
        Grows (fun addr => addr ∈ lps.map LookupPeer.addr) log log' ∧
        ∀ lp ∈ lps', Settled log' lp := by
  induction lps with
  | nil =>
      intro log _ _ _
      exact ⟨[], log, rfl, rfl, .refl log, by simp⟩
  | cons lp lps ih =>
      intro log hnodup hsettled hwell
      rw [List.map_cons, List.nodup_cons] at hnodup
      obtain ⟨err, lp', log₁, hstart, haddr, hgrow, hfirst, hclient⟩ :=
        startConnect_settles (hsettled lp List.mem_cons_self) (hwell lp List.mem_cons_self)
      have hother : ∀ lp₁ ∈ lps, lp₁.addr ≠ lp.addr := by
        intro lp₁ hlp₁ heq
        exact hnodup.1 (heq ▸ List.mem_map_of_mem hlp₁)
      obtain ⟨lps', log', hrun, haddrs, hrest, hall⟩ := ih log₁ hnodup.2
        (fun lp₁ hlp₁ => (hsettled lp₁ (List.mem_cons_of_mem _ hlp₁)).grow hgrow (hother lp₁ hlp₁))
        (fun lp₁ hlp₁ hstate hdial =>
          (hwell lp₁ (List.mem_cons_of_mem _ hlp₁) hstate hdial).grow hgrow)
      have hlast : Settled log' lp' := by
        refine hfirst.grow hrest ?_
        rw [haddr]
        exact hnodup.1
      refine ⟨lp' :: lps', log', ?_, ?_, ?_, ?_⟩
      · cases err with
        | some err =>
            simp only [LookupLoop.heartbeats, hstart]
            rw [hrun, Option.map_some]
        | none =>
            obtain ⟨r, hping⟩ := call_ping (t := t) (hclient rfl) req log₁
            simp only [LookupLoop.heartbeats, hstart, hping]
            rw [hrun, Option.map_some]
      · rw [List.map_cons, List.map_cons, haddr, haddrs]
      · refine (hgrow.imp ?_).trans (hrest.imp ?_)
        · rintro addr rfl
          exact List.mem_cons_self
        · intro addr hmem
          exact List.mem_cons_of_mem _ hmem
      · intro lp₁ hlp₁
        rcases List.mem_cons.mp hlp₁ with rfl | hlp₁
        · exact hlast
        · exact hall lp₁ hlp₁

/-! ### The turns -/

/-- The loop has one peer for each address, and all are settled. -/
structure AllSettled (s : LookupLoop × Log) : Prop where
  addrs : s.1.lookupPeers.map LookupPeer.addr = s.1.lookupAddrs
  nodup : s.1.lookupAddrs.Nodup
  peers : ∀ lp ∈ s.1.lookupPeers, Settled s.2 lp

theorem settled_new (addr : String) (log : Log) : Settled log (newLookupPeer addr) := by
  intro hstate
  cases hstate

/-- **The loop over the addresses**: every new peer gets settled. -/
theorem addPeers_settles {hosts : List String} : ∀ {l : LookupLoop} {log : Log},
    AllSettled (l, log) →
    (∀ addr ∈ hosts, addr ∉ l.lookupAddrs → t.dial addr = none → t.EndsWell log addr) →
    ∃ s, LookupLoop.addPeers t.daemons t.callback hosts l log = some s ∧ AllSettled s := by
  induction hosts with
  | nil =>
      intro l log h _
      exact ⟨_, rfl, h⟩
  | cons host hosts ih =>
      intro l log h hwell
      simp only [LookupLoop.addPeers]
      by_cases hmem : host ∈ l.lookupAddrs
      · rw [if_pos hmem]
        exact ih h fun addr haddr => hwell addr (List.mem_cons_of_mem _ haddr)
      · rw [if_neg hmem]
        obtain ⟨err, lp, log', hstart, haddr, hgrow, hsettled, -⟩ :=
          startConnect_settles (settled_new host log) fun _ => hwell host List.mem_cons_self hmem
        simp only [hstart]
        refine ih ?_ ?_
        · constructor
          · simp only [List.map_append, h.addrs, List.map_cons, List.map_nil, haddr]
            rfl
          · exact List.nodup_append.mpr ⟨h.nodup, List.nodup_singleton host, by
              rintro a ha b hb rfl
              exact hmem (List.mem_singleton.mp hb ▸ ha)⟩
          · intro lp₁ hlp₁
            rcases List.mem_append.mp hlp₁ with hlp₁ | hlp₁
            · refine (h.peers lp₁ hlp₁).grow hgrow ?_
              rintro heq
              refine hmem ?_
              rw [← h.addrs, ← show lp₁.addr = host from heq]
              exact List.mem_map_of_mem hlp₁
            · rw [List.mem_singleton.mp hlp₁]
              exact hsettled
        · intro addr haddr hnew hdial
          have hnot : addr ∉ l.lookupAddrs := fun h => hnew (List.mem_append_left _ h)
          exact (hwell addr (List.mem_cons_of_mem _ haddr) hnot hdial).grow hgrow

theorem top_settles {l : LookupLoop} {log : Log} (h : AllSettled (l, log))
    (hwell : l.connect = true → ∀ addr ∈ t.addresses, addr ∉ l.lookupAddrs → t.dial addr = none →
      t.EndsWell log addr) :
    ∃ s, LookupLoop.top t.daemons t.callback t.addresses l log = some s ∧ AllSettled s := by
  unfold LookupLoop.top
  by_cases hconnect : l.connect = true
  · obtain ⟨s, hrun, hs⟩ := addPeers_settles h (hwell hconnect)
    rw [if_pos hconnect, hrun]
    exact ⟨_, rfl, hs.addrs, hs.nodup, hs.peers⟩
  · rw [if_neg hconnect]
    exact ⟨_, rfl, h⟩

theorem keepPeers_settled {l : LookupLoop} {log : Log} (h : AllSettled (l, log))
    (addresses : List String) : AllSettled (l.keepPeers addresses, log) where
  addrs := rfl
  nodup := by
    have hnodup := h.nodup
    rw [← h.addrs] at hnodup
    exact (List.Sublist.map _ (List.filter_sublist)).nodup hnodup
  peers lp hlp := h.peers lp (List.mem_filter.mp hlp).1

/-- An address of the options that is not kept is new. -/
theorem notMem_of_keepPeers {l : LookupLoop} {log : Log} (h : AllSettled (l, log))
    {addresses : List String} (haddr : addr ∈ addresses)
    (hnew : addr ∉ (l.keepPeers addresses).lookupAddrs) :
    addr ∉ l.lookupAddrs := by
  intro hmem
  rw [← h.addrs] at hmem
  obtain ⟨lp, hlp, rfl⟩ := List.mem_map.mp hmem
  exact hnew (List.mem_map.mpr ⟨lp, List.mem_filter.mpr ⟨hlp, by simpa using haddr⟩, rfl⟩)

theorem daemons_notify_grows (t : Turn) (exiting : Bool) (req : RegisterRequest) (log : Log)
    (addr : String) : Grows (fun _ => False) log
      ((if exiting then t.daemons.unregister else t.daemons.register) log addr req).2 := by
  cases exiting with
  | false => exact daemons_register_grows t req log addr
  | true => exact .refl log

/-- The event of a turn. -/
theorem handle_settles {l : LookupLoop} {log : Log} (h : AllSettled (l, log))
    (hsound : t.Sound (l, log)) :
    ∃ l' log', LookupLoop.handle t.daemons t.callback t.opts t.addresses t.raftState t.wake l log =
        some (l', log') ∧ AllSettled (l', log') ∧ (∃ P, Grows P log log') ∧
      (l'.connect = true → ∀ addr ∈ t.addresses, addr ∉ l'.lookupAddrs →
        (l.connect = true ∨ t.wake = .optsNotification) ∧ addr ∉ l.lookupAddrs) := by
  cases hwake : t.wake with
  | tick =>
      have hnodup : (l.lookupPeers.map LookupPeer.addr).Nodup := h.addrs ▸ h.nodup
      obtain ⟨lps, log', hrun, haddrs, hgrow, hall⟩ :=
        heartbeats_settles (LookupLoop.pingRequest t.opts t.raftState) log hnodup h.peers
          fun lp hlp hstate hdial =>
            hsound.connects lp.addr ⟨hdial, .inl ⟨hwake, lp, hlp, rfl, hstate⟩⟩
      refine ⟨{ l with lookupPeers := lps }, log', ?_, ⟨haddrs.trans h.addrs, h.nodup, hall⟩,
        ⟨_, hgrow⟩, fun hconnect addr _ hnew => ⟨.inl hconnect, hnew⟩⟩
      rw [LookupLoop.handle, hrun, Option.map_some]
  | notify val =>
      obtain ⟨log', hrun, hgrow⟩ := notifyAll_grows
        (fun log addr => daemons_notify_grows t val.exiting (val.request t.opts.id) log addr) log
        (hsound.notify val hwake)
      have hpeers : AllSettled (l, log') :=
        ⟨h.addrs, h.nodup, fun lp hlp => (h.peers lp hlp).grow hgrow id⟩
      refine ⟨l, log', ?_, hpeers, ⟨_, hgrow⟩, fun hconnect addr _ hnew => ⟨.inl hconnect, hnew⟩⟩
      rw [LookupLoop.handle]
      simp only [hrun, Option.map_some]
  | optsNotification =>
      exact ⟨l.keepPeers t.addresses, log, rfl, keepPeers_settled h t.addresses,
        ⟨fun _ => False, .refl log⟩,
        fun _ addr haddr hnew => ⟨.inr rfl, notMem_of_keepPeers h haddr hnew⟩⟩

/-- **The step**: a turn that takes none of the exits goes through, and leaves all peers settled. -/
theorem turn_settles (s : LookupLoop × Log) (t : Turn) (h : AllSettled s) (hsound : t.Sound s) :
    ∃ s', LookupLoop.turn s t = some s' ∧ AllSettled s' := by
  obtain ⟨l, log⟩ := s
  obtain ⟨l', log', hhandle, hsettled, ⟨P, hgrow⟩, hnew⟩ := handle_settles h hsound
  have htop := top_settles (t := t) hsettled fun hconnect addr haddr haddr' hdial => by
    obtain ⟨hwhen, hnot⟩ := hnew hconnect addr haddr haddr'
    exact (hsound.connects addr ⟨hdial, .inr ⟨hwhen, haddr, hnot⟩⟩).grow hgrow
  obtain ⟨s', hrun, hs'⟩ := htop
  refine ⟨s', ?_, hs'⟩
  rw [LookupLoop.turn, hhandle, Option.bind_some]
  exact hrun

/-- **Connected means announced**, in every run whose turns take none of the exits. -/
theorem connected_announced (turns : List Turn)
    (h : Along LookupLoop.turn (fun s t => t.Sound s) (LookupLoop.new, []) turns) :
    ConnectedAnnounced turns := by
  have hnew : AllSettled (LookupLoop.new, []) := ⟨rfl, List.nodup_nil, fun lp hlp => by cases hlp⟩
  obtain ⟨s, hrun, hs⟩ := progress_along turn_settles turns (LookupLoop.new, []) hnew h
  exact ⟨s, hrun, fun lp hlp hstate => (hs.peers lp hlp hstate).1⟩

/-! ### Runs -/

/-- A turn in which every call ends well. -/
def healthyTurn (node : XMQD) (wake : Wake) : Turn where
  wake := wake
  opts := ⟨"n1", "10.0.0.1", 5150, 5151, "host", "1.0"⟩
  addresses := ["lookupd:5155"]
  raftState := "Leader"
  range := .id
  node _ := node
  dial _ := none
  identify _ := .ok ⟨"", 5155, 5156, "1.0", "10.0.0.9", "lookupd"⟩
  register _ _ := .ok ⟨"", "OK"⟩
  unregister _ _ := .ok ⟨"", "OK"⟩
  ping _ := .ok ⟨"", "OK"⟩

def emptyNode : XMQD := .new ⟨1, 1⟩

/-- A node that has created a topic. -/
def topicNode : XMQD :=
  (run (XMQD.step .ofNew) emptyNode
    [.cluster (.apply .leader (Cluster.newTopicEntry .ofNew "t"))]).getD emptyNode

theorem healthyTurn_endsWell (wake : Wake) (log : Log) (addr : String) :
    (healthyTurn emptyNode wake).EndsWell log addr where
  identify err h := by cases h
  register _ _ _ := rfl
  existing _ q hq := by cases hq.2.1

/-- A node without topics connects, sends a heartbeat and creates a topic. -/
theorem healthy_announced : ConnectedAnnounced
    [healthyTurn emptyNode .optsNotification, healthyTurn emptyNode .tick,
      healthyTurn emptyNode (.notify (.topic "orders" false))] :=
  connected_announced _
    ⟨⟨fun _ _ => healthyTurn_endsWell _ _ _, fun val h => by cases h⟩,
      ⟨fun _ _ => healthyTurn_endsWell _ _ _, fun val h => by cases h⟩,
      ⟨fun _ _ => healthyTurn_endsWell _ _ _,
        fun val _ lp hlp => by rw [List.mem_singleton.mp hlp]⟩,
      trivial⟩

def failedIdentify : Turn :=
  { healthyTurn emptyNode .optsNotification with
    identify :=
      fun _ => .error "rpc error: code = DeadlineExceeded desc = context deadline exceeded" }

def failedConnect : Turn :=
  { healthyTurn emptyNode .optsNotification with dial := fun _ => some "context deadline exceeded" }

theorem AnnouncedTo.identified (h : AnnouncedTo addr log) : .identified addr true ∈ log := by
  obtain ⟨after, node, id, before, rfl, -, hid, -⟩ := h
  exact List.mem_append_left _ hid

/-- A peer whose `Identify` failed is connected. -/
theorem failedIdentify_connected : ¬ ConnectedAnnounced [failedIdentify] := by
  rintro ⟨s, hrun, hall⟩
  cases hrun
  have hid := (hall _ List.mem_cons_self rfl).identified
  have hlog : Entry.identified "lookupd:5155" true ∉
      [.identified "lookupd:5155" false, .opened "lookupd:5155" emptyNode "n1"] := by simp
  exact hlog hid

/-- A notification calls a client that was never made. -/
theorem failedConnect_panics : ¬ ConnectedAnnounced
    [failedConnect, healthyTurn emptyNode (.notify (.topic "orders" false))] := by
  rintro ⟨s, hrun, -⟩
  cases hrun

/-- What has come of the calls of a node with a topic. -/
def topicLog : Log := [.identified "lookupd:5155" true, .opened "lookupd:5155" topicNode "n1"]

theorem not_announced_topicLog : ¬ AnnouncedTo "lookupd:5155" topicLog := by
  rintro ⟨after, node, id, before, heq, -, -, hreg⟩
  have hopened : Entry.opened "lookupd:5155" node id ∈ topicLog := by
    rw [heq]
    exact List.mem_append_right _ List.mem_cons_self
  simp only [topicLog, List.mem_cons, reduceCtorEq, false_or, Entry.opened.injEq, true_and,
    List.not_mem_nil, or_false] at hopened
  obtain ⟨rfl, rfl⟩ := hopened
  have hstored : Announced topicNode.cluster topicNode.cluster.topics "n1" ⟨"n1", "t", ""⟩ :=
    ⟨rfl, by decide, .inr ⟨rfl, rfl⟩⟩
  have hmissing := hreg _ hstored
  simp [topicLog] at hmissing

/-- A topic that is there when the connection is made is not registered. -/
theorem topicNode_connected : ¬ ConnectedAnnounced [healthyTurn topicNode .optsNotification] := by
  rintro ⟨s, hrun, hall⟩
  cases hrun
  exact not_announced_topicLog (hall _ List.mem_cons_self rfl)

/-- **Connected and not announced**, by each exit in turn. -/
theorem connected_unannounced : ¬ ConnectedAnnounced [failedIdentify] ∧
    ¬ ConnectedAnnounced [healthyTurn topicNode .optsNotification] ∧
    ¬ ConnectedAnnounced [failedConnect, healthyTurn emptyNode (.notify (.topic "orders" false))] :=
  ⟨failedIdentify_connected, topicNode_connected, failedConnect_panics⟩

end Xmq.Lookup
