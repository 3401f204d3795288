import Xmq.TcpServer

/-!
# Who is served, and when a node exits

A connection is served only if the node led when it came and its client chose the protocol; it is in
the map from the beginning of its service to the end. `Exit` ends by itself when every connection is
closed or left by its client. It waits for one that is open and silent, and that can only be one that
was accepted and not in the map yet when `Exit` went over it.
-/

namespace Xmq.TcpServer

open Custody

variable {s s' : State} {a : Act} {c c' : Conn} {i : ℕ}

/-! ### A connection -/

/-- The client is in the map. -/
def Phase.stored : Phase → Bool
  | .serving => true
  | .ended => true
  | .checking => false
  | .reading _ => false
  | .chosen _ => false
  | .starting => false
  | .deleted => false
  | .done => false

/-- The client was served. -/
def Phase.served : Phase → Bool
  | .serving => true
  | .ended => true
  | .deleted => true
  | .checking => false
  | .reading _ => false
  | .chosen _ => false
  | .starting => false
  | .done => false

/-- There is nothing left but to close the connection. -/
def Phase.left : Phase → Bool
  | .deleted => true
  | .done => true
  | .checking => false
  | .reading _ => false
  | .chosen _ => false
  | .starting => false
  | .serving => false
  | .ended => false

/-- The node did not lead, said so and closed the connection. -/
def Conn.Refused (c : Conn) : Prop :=
  c.leader = false ∧ c.closed = true ∧ c.sent = [(frameTypeError, notLeader)]

/-- The node led and has written nothing. -/
def Conn.Led (c : Conn) : Prop := c.leader = true ∧ c.sent = []

/-- What is known of a connection in each phase. -/
def Conn.Good (c : Conn) : Prop :=
  match c.phase with
  | .checking => c.sent = [] ∧ c.input = c.received
  | .reading buf => (c.Led ∨ c.Refused) ∧ buf.length < 4 ∧ buf ++ c.input = c.received
  | .chosen protocolMagic =>
    c.Led ∧ protocolMagic.length = 4 ∧ protocolMagic <+: c.received
  | .starting => c.Led ∧ magicV2 <+: c.received
  | .serving => c.Led ∧ magicV2 <+: c.received
  | .ended => c.Led ∧ magicV2 <+: c.received
  | .deleted => c.Led ∧ magicV2 <+: c.received
  | .done => c.closed = true ∧ (c.Led ∨ c.Refused ∨
      c.leader = true ∧ c.sent = [(frameTypeError, badProtocol)] ∧
        ∃ m, m.length = 4 ∧ m ≠ magicV2 ∧ m <+: c.received)

/-- What a step of its goroutine, of its client or of `Exit` does to a connection. -/
structure Conn.Moves (c c' : Conn) : Prop where
  good : c.Good → c'.Good
  closed : c.closed = true → c'.closed = true
  begun : c.phase.late = false → c'.phase.late = false
  left : c.phase.left = true → c'.phase.left = true
  done : c.phase = .done → c'.phase = .done

theorem check_moves (h : c.phase = .checking) (leader : Bool) : c.Moves (c.check leader) := by
  constructor
  · intro hg
    simp only [Conn.Good, h] at hg
    obtain ⟨hsent, hinput⟩ := hg
    cases leader with
    | true => exact ⟨.inl ⟨rfl, hsent⟩, by simp, hinput⟩
    | false =>
        refine ⟨.inr ⟨rfl, rfl, ?_⟩, by simp, hinput⟩
        show c.sent ++ _ = _
        rw [hsent, List.nil_append]
  · intro hc
    cases leader with
    | true => exact hc
    | false => rfl
  · intro hl
    rw [h] at hl
    cases hl
  · intro hl
    rw [h] at hl
    cases hl
  · intro hd
    rw [h] at hd
    cases hd

theorem finish_good (h : c.Led ∨ c.Refused) : c.finish.Good := by
  refine ⟨rfl, ?_⟩
  rcases h with hled | ⟨hleader, -, hsent⟩
  · exact .inl hled
  · exact .inr (.inl ⟨hleader, rfl, hsent⟩)

theorem read_moves {buf : List UInt8} (h : c.phase = .reading buf) (hr : c.read buf = some c') :
    c.Moves c' := by
  have hbegun : c.phase.late = false → c'.phase.late = false := fun hl => by rw [h] at hl; cases hl
  have hleft : c.phase.left = true → c'.phase.left = true := fun hl => by rw [h] at hl; cases hl
  have hdone : c.phase = .done → c'.phase = .done := fun hd => by rw [h] at hd; cases hd
  unfold Conn.read at hr
  split at hr
  · rename_i hclosed
    cases hr
    refine ⟨fun hg => ?_, fun _ => rfl, hbegun, hleft, hdone⟩
    simp only [Conn.Good, h] at hg
    exact finish_good hg.1
  · rename_i hopen
    split at hr
    · cases hr
      refine ⟨fun hg => ?_, fun hc => hc, hbegun, hleft, hdone⟩
      simp only [Conn.Good, h] at hg
      obtain ⟨hwho, hlen, hrec⟩ := hg
      have hled : c.Led := hwho.resolve_right fun href => hopen href.2.1
      have hsplit : (buf ++ c.input.take (4 - buf.length)) ++ c.input.drop (4 - buf.length) =
          c.received := by
        rw [List.append_assoc, List.take_append_drop, hrec]
      simp only [Conn.Good]
      split
      · rename_i hcase
        split at hcase <;> cases hcase
      · rename_i buf' hcase
        split at hcase
        · rename_i hshort
          cases hcase
          exact ⟨.inl hled, hshort, hsplit⟩
        · cases hcase
      · rename_i m hcase
        split at hcase
        · cases hcase
        · rename_i hlong
          cases hcase
          refine ⟨hled, ?_, ⟨_, hsplit⟩⟩
          simp only [List.length_append, List.length_take] at hlong ⊢
          omega
      all_goals
        rename_i hcase
        split at hcase <;> cases hcase
    · split at hr
      · cases hr
        refine ⟨fun hg => ?_, fun _ => rfl, hbegun, hleft, hdone⟩
        simp only [Conn.Good, h] at hg
        exact finish_good hg.1
      · cases hr

theorem choose_moves {m : List UInt8} (h : c.phase = .chosen m) : c.Moves (c.choose m) := by
  have hbegun : c.phase.late = false → (c.choose m).phase.late = false :=
    fun hl => by rw [h] at hl; cases hl
  have hleft : c.phase.left = true → (c.choose m).phase.left = true :=
    fun hl => by rw [h] at hl; cases hl
  have hdone : c.phase = .done → (c.choose m).phase = .done := fun hd => by rw [h] at hd; cases hd
  refine ⟨fun hg => ?_, fun hc => ?_, hbegun, hleft, hdone⟩
  · simp only [Conn.Good, h] at hg
    obtain ⟨⟨hleader, hsent⟩, hlen, hpre⟩ := hg
    unfold Conn.choose
    split
    · rename_i hmagic
      exact ⟨⟨hleader, hsent⟩, hmagic ▸ hpre⟩
    · rename_i hmagic
      refine ⟨rfl, .inr (.inr ⟨hleader, ?_, m, hlen, hmagic, hpre⟩)⟩
      show c.sent ++ _ = _
      rw [hsent, List.nil_append]
  · unfold Conn.choose
    split
    · exact hc
    · rfl

/-- A served connection stays one while its service goes on. -/
theorem served_moves (h : c.phase.served = true) (hl : c.phase.left = true → c'.phase.left = true)
    (hs : c'.phase.served = true) (hled : c'.leader = c.leader) (hsent : c'.sent = c.sent)
    (hrec : c'.received = c.received) (hc : c'.closed = c.closed) : c.Moves c' := by
  have hbegun : c'.phase.late = false := by
    cases hp : c'.phase <;> rw [hp] at hs <;> first | rfl | cases hs
  refine ⟨fun hg => ?_, fun hclosed => hc.trans hclosed, fun _ => hbegun, hl,
    fun hd => by rw [hd] at h; cases h⟩
  have hold : c.Led ∧ magicV2 <+: c.received := by
    unfold Conn.Good at hg
    cases hp : c.phase <;> rw [hp] at h hg <;> first | exact hg | cases h
  have hnew : c'.Led ∧ magicV2 <+: c'.received := by
    rw [Conn.Led, hled, hsent, hrec]
    exact hold
  unfold Conn.Good
  cases hp : c'.phase <;> rw [hp] at hs <;> first | exact hnew | cases hs

theorem close_moves (h : c.phase = .deleted) : c.Moves c.finish := by
  refine ⟨fun hg => ?_, fun _ => rfl, fun _ => rfl, fun _ => rfl, fun _ => rfl⟩
  simp only [Conn.Good, h] at hg
  exact finish_good (.inl hg.1)

theorem send_moves (bytes : List UInt8) :
    c.Moves { c with received := c.received ++ bytes, input := c.input ++ bytes } := by
  refine ⟨fun hg => ?_, fun hc => hc, fun hl => hl, fun hl => hl, fun hd => hd⟩
  have hpre {m : List UInt8} (h : m <+: c.received) : m <+: c.received ++ bytes :=
    h.trans (List.prefix_append _ _)
  unfold Conn.Good at hg ⊢
  simp only
  cases hp : c.phase with
  | checking =>
      rw [hp] at hg
      exact ⟨hg.1, by rw [hg.2]⟩
  | reading buf =>
      rw [hp] at hg
      exact ⟨hg.1, hg.2.1, by rw [← List.append_assoc, hg.2.2]⟩
  | chosen m =>
      rw [hp] at hg
      exact ⟨hg.1, hg.2.1, hpre hg.2.2⟩
  | starting =>
      rw [hp] at hg
      exact ⟨hg.1, hpre hg.2⟩
  | serving =>
      rw [hp] at hg
      exact ⟨hg.1, hpre hg.2⟩
  | ended =>
      rw [hp] at hg
      exact ⟨hg.1, hpre hg.2⟩
  | deleted =>
      rw [hp] at hg
      exact ⟨hg.1, hpre hg.2⟩
  | done =>
      rw [hp] at hg
      refine ⟨hg.1, hg.2.imp_right fun h => h.imp_right ?_⟩
      rintro ⟨hleader, hsent, m, hlen, hne, hm⟩
      exact ⟨hleader, hsent, m, hlen, hne, hpre hm⟩

theorem hangUp_moves : c.Moves { c with hungUp := true } :=
  ⟨fun hg => hg, fun hc => hc, fun hl => hl, fun hl => hl, fun hd => hd⟩

theorem visit_moves : c.Moves { c with closed := true } := by
  refine ⟨fun hg => ?_, fun _ => rfl, fun hl => hl, fun hl => hl, fun hd => hd⟩
  have hrefused (h : c.Refused) : Conn.Refused { c with closed := true } := ⟨h.1, rfl, h.2.2⟩
  unfold Conn.Good at hg ⊢
  simp only
  cases hp : c.phase with
  | reading buf =>
      rw [hp] at hg
      exact ⟨hg.1.imp_right hrefused, hg.2⟩
  | done =>
      rw [hp] at hg
      exact ⟨trivial, hg.2.imp_right fun h => h.imp_left hrefused⟩
  | _ =>
      rw [hp] at hg
      exact hg

/-! ### What a step does -/

/-- A step of a connection changes it alone; the map changes where the service begins and ends. -/
inductive Handles (s : State) (i : ℕ) (c : Conn) : State → Prop where
  | stay (c' : Conn) (hm : c.Moves c') (hs : c'.phase.stored = c.phase.stored) :
      Handles s i c (s.setConn i c')
  | leave (c' : Conn) (hm : c.Moves c') (hp : c.phase = .serving) (hs : c'.phase = .ended) :
      Handles s i c (s.setConn i c')
  | store (hp : c.phase = .starting) :
      Handles s i c ({ s with conns := i :: s.conns }.setConn i { c with phase := .serving })
  | delete (hp : c.phase = .ended) :
      Handles s i c ({ s with conns := s.conns.erase i }.setConn i { c with phase := .deleted })

theorem stored_read {buf : List UInt8} (h : c.read buf = some c') : c'.phase.stored = false := by
  unfold Conn.read at h
  split at h
  · cases h
    rfl
  · split at h
    · cases h
      simp only
      split <;> rfl
    · split at h
      · cases h
        rfl
      · cases h

theorem handle_handles (h : handle s i c a = some s') : Handles s i c s' := by
  cases a with
  | check j leader =>
      unfold handle at h
      dsimp only at h
      split at h
      · rename_i hp
        cases h
        refine .stay _ (check_moves hp leader) ?_
        rw [hp]
        cases leader <;> rfl
      · cases h
  | read j =>
      unfold handle at h
      dsimp only at h
      split at h
      · rename_i buf hp
        obtain ⟨c', hr, rfl⟩ := Option.map_eq_some_iff.mp h
        refine .stay c' (read_moves hp hr) ?_
        rw [hp, stored_read hr]
        rfl
      · cases h
  | choose j =>
      unfold handle at h
      dsimp only at h
      split at h
      · rename_i m hp
        cases h
        refine .stay _ (choose_moves hp) ?_
        rw [hp]
        unfold Conn.choose
        split <;> rfl
      · cases h
  | store j =>
      unfold handle at h
      dsimp only at h
      split at h
      · rename_i hp
        cases h
        exact .store hp
      · cases h
  | serve j n fatal =>
      unfold handle at h
      dsimp only at h
      split at h
      · rename_i hp
        obtain ⟨c', hserve, rfl⟩ := Option.map_eq_some_iff.mp h
        have hserved : c.phase.served = true := by rw [hp]; rfl
        have hleft : c.phase.left = true → c'.phase.left = true := fun hl => by rw [hp] at hl; cases hl
        unfold Conn.serve at hserve
        split at hserve
        · cases hserve
          cases fatal with
          | true => exact .leave _ (served_moves hserved hleft rfl rfl rfl rfl rfl) hp rfl
          | false => exact .stay _ (served_moves hserved hleft rfl rfl rfl rfl rfl) (by rw [hp]; rfl)
        · cases hserve
      · cases h
  | endLoop j =>
      unfold handle at h
      dsimp only at h
      split at h
      · rename_i hp
        obtain ⟨c', hend, rfl⟩ := Option.map_eq_some_iff.mp h
        have hserved : c.phase.served = true := by rw [hp]; rfl
        have hleft : c.phase.left = true → c'.phase.left = true := fun hl => by rw [hp] at hl; cases hl
        unfold Conn.endLoop at hend
        split at hend
        · cases hend
          exact .leave _ (served_moves hserved hleft rfl rfl rfl rfl rfl) hp rfl
        · cases hend
      · cases h
  | deadline j =>
      unfold handle at h
      dsimp only at h
      split at h
      · rename_i hp
        cases h
        have hserved : c.phase.served = true := by rw [hp]; rfl
        refine .leave _ (served_moves hserved (fun hl => ?_) rfl rfl rfl rfl rfl) hp rfl
        rw [hp] at hl
        cases hl
      · cases h
  | delete j =>
      unfold handle at h
      dsimp only at h
      split at h
      · rename_i hp
        cases h
        exact .delete hp
      · cases h
  | close j =>
      unfold handle at h
      dsimp only at h
      split at h
      · rename_i hp
        cases h
        exact .stay _ (close_moves hp) (by rw [hp]; rfl)
      · cases h
  | send j bytes =>
      unfold handle at h
      dsimp only at h
      split at h
      · cases h
      · cases h
        exact .stay _ (send_moves bytes) rfl
  | hangUp j =>
      unfold handle at h
      dsimp only at h
      cases h
      exact .stay _ hangUp_moves rfl
  | _ => cases h

/-- The map holds the connections that are served. -/
structure Stored (s : State) : Prop where
  nodup : s.conns.Nodup
  mem_iff : ∀ i, i ∈ s.conns ↔ ∃ c, s.clients[i]? = some c ∧ c.phase.stored = true

/-- What `Exit` has found so far. -/
def Found (s : State) : Prop :=
  match s.exit with
  | .running => True
  | .listenerClosed => True
  | .ranging keys visited =>
    (∀ i c, s.clients[i]? = some c → i ∈ s.late ∨ i ∈ keys ∨ c.phase.left = true) ∧
      (∀ i ∈ visited, ∀ c, s.clients[i]? = some c → c.closed = true) ∧
      ∀ i ∈ keys, ∀ c, s.clients[i]? = some c → c.phase.late = false
  | .waiting => ∀ i c, s.clients[i]? = some c → i ∈ s.late ∨ c.closed = true ∨ c.phase.left = true
  | .exited => ∀ i c, s.clients[i]? = some c → i ∈ s.late ∨ c.closed = true ∨ c.phase.left = true

structure Inv (s : State) : Prop where
  good : ∀ c ∈ s.clients, c.Good
  stored : Stored s
  found : Found s
  listening : s.exit = .running → s.accept ≠ .waiting ∧ s.accept ≠ .returned true
  returned : s.accept = .returned true → ∀ c ∈ s.clients, c.phase = .done

theorem inv_init : Inv init where
  good := List.forall_mem_nil _
  stored := by
    refine ⟨List.nodup_nil, fun i => ?_⟩
    simp [init]
  found := trivial
  listening _ := ⟨fun h => (by cases h), fun h => by cases h⟩
  returned h := by cases h

theorem getElem?_setConn {c₀ d : Conn} {j : ℕ} (hi : s.clients[i]? = some c₀)
    (hj : (s.setConn i c').clients[j]? = some d) :
    j = i ∧ d = c' ∨ j ≠ i ∧ s.clients[j]? = some d := by
  have hlt := (List.getElem?_eq_some_iff.mp hi).1
  by_cases hij : i = j
  · subst hij
    rw [State.setConn, List.getElem?_set_self hlt] at hj
    cases hj
    exact .inl ⟨rfl, rfl⟩
  · rw [State.setConn, List.getElem?_set_ne hij] at hj
    exact .inr ⟨Ne.symm hij, hj⟩

/-- All that the steps of a connection have in common. -/
structure Replaces (s s' : State) (i : ℕ) (c c' : Conn) : Prop where
  clients : s'.clients = s.clients.set i c'
  moves : c.Moves c'
  accept : s'.accept = s.accept
  late : s'.late = s.late

theorem Handles.replaces (h : Handles s i c s') :
    ∃ c', Replaces s s' i c c' ∧ s'.exit = s.exit := by
  cases h with
  | stay c' hm hs => exact ⟨c', ⟨rfl, hm, rfl, rfl⟩, rfl⟩
  | leave c' hm hp hs => exact ⟨c', ⟨rfl, hm, rfl, rfl⟩, rfl⟩
  | store hp =>
      refine ⟨_, ⟨rfl, ⟨fun hg => ?_, fun hc => hc, fun _ => rfl, fun hl => ?_, fun hd => ?_⟩, rfl, rfl⟩,
        rfl⟩
      · simp only [Conn.Good, hp] at hg
        exact hg
      · rw [hp] at hl
        cases hl
      · rw [hp] at hd
        cases hd
  | delete hp =>
      refine ⟨_, ⟨rfl, served_moves ?_ (fun _ => rfl) rfl rfl rfl rfl rfl, rfl, rfl⟩, rfl⟩
      rw [hp]
      rfl

theorem Replaces.good (h : Replaces s s' i c c') (hi : s.clients[i]? = some c)
    (hg : ∀ c ∈ s.clients, c.Good) : ∀ c ∈ s'.clients, c.Good := by
  rw [h.clients]
  intro d hd
  rcases or_mem_set (h.moves.good (hg c (List.mem_of_getElem? hi))) d hd with hd | hd
  · exact hg d hd
  · exact hd

theorem Replaces.returned (h : Replaces s s' i c c') (hi : s.clients[i]? = some c)
    (hr : s.accept = .returned true → ∀ c ∈ s.clients, c.phase = .done) :
    s'.accept = .returned true → ∀ c ∈ s'.clients, c.phase = .done := by
  rw [h.accept, h.clients]
  intro hret d hd
  have hc' := h.moves.done (hr hret c (List.mem_of_getElem? hi))
  rcases or_mem_set (P := fun d : Conn => d.phase = .done) hc' d hd with hd | hd
  · exact hr hret d hd
  · exact hd

/-- A property that the moves of a connection keep, and that other connections keep. -/
theorem Replaces.forall (h : Replaces s s' i c c') (hi : s.clients[i]? = some c)
    {P : ℕ → Conn → Prop} (hP : P i c → P i c') (hs : ∀ j d, s.clients[j]? = some d → P j d) :
    ∀ j d, s'.clients[j]? = some d → P j d := by
  intro j d hj
  rw [h.clients] at hj
  rcases getElem?_setConn hi hj with ⟨rfl, rfl⟩ | ⟨-, hj⟩
  · exact hP (hs _ c hi)
  · exact hs j d hj

theorem Replaces.found (h : Replaces s s' i c c') (hi : s.clients[i]? = some c) (hf : Found s)
    (hexit : s'.exit = s.exit) : Found s' := by
  have hwaiting (hw : ∀ j d, s.clients[j]? = some d → j ∈ s.late ∨ d.closed = true ∨
      d.phase.left = true) : ∀ j d, s'.clients[j]? = some d → j ∈ s'.late ∨ d.closed = true ∨
      d.phase.left = true := by
    rw [h.late]
    exact h.forall hi (fun hor => hor.imp_right fun hor => hor.imp h.moves.closed h.moves.left) hw
  unfold Found at hf ⊢
  rw [hexit]
  cases hs : s.exit with
  | running => trivial
  | listenerClosed => trivial
  | ranging keys visited =>
      rw [hs] at hf
      obtain ⟨hall, hvisited, hbegun⟩ := hf
      refine ⟨?_, fun j hj => ?_, fun j hj => ?_⟩
      · rw [h.late]
        exact h.forall hi (fun hor => hor.imp_right fun hor => hor.imp_right h.moves.left) hall
      · have hkeys := h.forall hi (P := fun j d => j ∈ visited → d.closed = true)
          (fun hP hv => h.moves.closed (hP hv)) fun j d hd hv => hvisited j hv d hd
        exact fun d hd => hkeys j d hd hj
      · have hkeys := h.forall hi (P := fun j d => j ∈ keys → d.phase.late = false)
          (fun hP hv => h.moves.begun (hP hv)) fun j d hd hv => hbegun j hv d hd
        exact fun d hd => hkeys j d hd hj
  | waiting =>
      rw [hs] at hf
      exact hwaiting hf
  | exited =>
      rw [hs] at hf
      exact hwaiting hf

theorem Stored.congr (h : Stored s) (hi : s.clients[i]? = some c)
    (hconns : s'.conns = s.conns) (hclients : s'.clients = s.clients.set i c')
    (hs : c'.phase.stored = c.phase.stored) : Stored s' := by
  refine ⟨hconns ▸ h.nodup, fun j => ?_⟩
  rw [hconns, h.mem_iff, hclients]
  have hlt := (List.getElem?_eq_some_iff.mp hi).1
  by_cases hij : i = j
  · subst hij
    rw [hi, List.getElem?_set_self hlt]
    simp [hs]
  · rw [List.getElem?_set_ne hij]

theorem Handles.stored (h : Handles s i c s') (hi : s.clients[i]? = some c) (hs : Stored s) :
    Stored s' := by
  have hlt := (List.getElem?_eq_some_iff.mp hi).1
  cases h with
  | stay c' hm hsame => exact hs.congr hi rfl rfl hsame
  | leave c' hm hp hended => exact hs.congr hi rfl rfl (by rw [hp, hended]; rfl)
  | store hp =>
      have hnot : i ∉ s.conns := by
        rw [hs.mem_iff]
        rintro ⟨d, hd, hstored⟩
        rw [hi] at hd
        cases hd
        rw [hp] at hstored
        cases hstored
      refine ⟨List.nodup_cons.mpr ⟨hnot, hs.nodup⟩, fun j => ?_⟩
      simp only [State.setConn, List.mem_cons]
      by_cases hij : i = j
      · subst hij
        rw [List.getElem?_set_self hlt]
        simp [Phase.stored]
      · rw [List.getElem?_set_ne hij, hs.mem_iff]
        simp [Ne.symm hij]
  | delete hp =>
      refine ⟨hs.nodup.erase i, fun j => ?_⟩
      simp only [State.setConn]
      rw [hs.nodup.mem_erase_iff, hs.mem_iff]
      by_cases hij : i = j
      · subst hij
        rw [List.getElem?_set_self hlt]
        simp [Phase.stored]
      · rw [List.getElem?_set_ne hij]
        simp [Ne.symm hij]

theorem Inv.handles (h : Inv s) (hi : s.clients[i]? = some c) (hh : Handles s i c s') : Inv s' := by
  obtain ⟨c', hr, hexit⟩ := hh.replaces
  refine ⟨hr.good hi h.good, hh.stored hi h.stored, hr.found hi h.found hexit, ?_,
    hr.returned hi h.returned⟩
  rw [hexit, hr.accept]
  exact h.listening

/-! ### Accepting and leaving -/

theorem stored_or_left : ∀ {p : Phase}, p.late = false → p.stored = true ∨ p.left = true := by
  intro p hp
  cases p <;> first | exact .inl rfl | exact .inr rfl | cases hp

theorem not_late_of_stored : ∀ {p : Phase}, p.stored = true → p.late = false := by
  intro p hp
  cases p <;> first | rfl | cases hp

theorem Inv.accept (h : Inv s) (hs : s.exit = .running) :
    Inv { s with clients := s.clients ++ [.new] } := by
  have hold {j : ℕ} {d : Conn} (hj : (s.clients ++ [Conn.new])[j]? = some d) :
      s.clients[j]? = some d ∨ j = s.clients.length ∧ d = .new := by
    rcases Nat.lt_trichotomy j s.clients.length with hlt | heq | hgt
    · rw [List.getElem?_append_left hlt] at hj
      exact .inl hj
    · subst heq
      rw [List.getElem?_concat_length] at hj
      cases hj
      exact .inr ⟨rfl, rfl⟩
    · rw [List.getElem?_eq_none (by simp; omega)] at hj
      cases hj
  refine ⟨?_, ⟨h.stored.nodup, fun j => ?_⟩, ?_, h.listening, fun hret => ?_⟩
  · intro d hd
    rcases List.mem_append.mp hd with hd | hd
    · exact h.good d hd
    · rw [List.mem_singleton.mp hd]
      exact ⟨rfl, rfl⟩
  · rw [h.stored.mem_iff]
    constructor
    · rintro ⟨d, hd, hstored⟩
      refine ⟨d, ?_, hstored⟩
      rw [List.getElem?_append_left (List.getElem?_eq_some_iff.mp hd).1, hd]
    · rintro ⟨d, hd, hstored⟩
      rcases hold hd with hd | ⟨-, rfl⟩
      · exact ⟨d, hd, hstored⟩
      · cases hstored
  · unfold Found
    simp only [hs]
  · exact absurd hret (h.listening hs).2

theorem Inv.rangeConns (h : Inv s) :
    Inv { s with
      exit := .ranging s.conns []
      late := (List.range s.clients.length).filter s.isLate } := by
  refine ⟨h.good, ⟨h.stored.nodup, h.stored.mem_iff⟩,
    ⟨fun i c hi => ?_, fun i hi => (by cases hi), fun i hi c hc => ?_⟩,
    fun hrun => (by cases hrun), h.returned⟩
  · have hi : s.clients[i]? = some c := hi
    by_cases hlate : c.phase.late = true
    · refine .inl (List.mem_filter.mpr ⟨?_, ?_⟩)
      · exact List.mem_range.mpr (List.getElem?_eq_some_iff.mp hi).1
      · rw [State.isLate, hi]
        exact hlate
    · rcases stored_or_left (Bool.eq_false_iff.mpr hlate) with hstored | hleft
      · exact .inr (.inl ((h.stored.mem_iff i).mpr ⟨c, hi, hstored⟩))
      · exact .inr (.inr hleft)
  · obtain ⟨d, hd, hstored⟩ := (h.stored.mem_iff i).mp hi
    have hc : s.clients[i]? = some c := hc
    rw [hc] at hd
    cases hd
    exact not_late_of_stored hstored

theorem Inv.visit (h : Inv s) {keys visited : List ℕ} (hs : s.exit = .ranging keys visited)
    (hi : s.clients[i]? = some c) :
    Inv ({ s with exit := .ranging keys (i :: visited) }.setConn i { c with closed := true }) := by
  have hr : Replaces s ({ s with exit := .ranging keys (i :: visited) }.setConn i
      { c with closed := true }) i c { c with closed := true } := ⟨rfl, visit_moves, rfl, rfl⟩
  have hfound := h.found
  unfold Found at hfound
  rw [hs] at hfound
  obtain ⟨hall, hvisited, hbegun⟩ := hfound
  refine ⟨hr.good hi h.good, h.stored.congr hi rfl rfl rfl,
    ⟨?_, fun j hj d hd => ?_, fun j hj d hd => ?_⟩, fun hrun => (by cases hrun),
    hr.returned hi h.returned⟩
  · exact hr.forall hi (fun hor => hor) hall
  · rcases getElem?_setConn hi hd with ⟨-, rfl⟩ | ⟨hne, hd⟩
    · rfl
    · exact hvisited j ((List.mem_cons.mp hj).resolve_left hne) d hd
  · rcases getElem?_setConn hi hd with ⟨rfl, rfl⟩ | ⟨-, hd⟩
    · exact hbegun j hj c hi
    · exact hbegun j hj d hd

theorem Inv.rangeEnd (h : Inv s) {keys visited : List ℕ} (hs : s.exit = .ranging keys visited)
    (hall : ∀ i ∈ keys, i ∈ visited ∨ i ∉ s.conns) : Inv { s with exit := .waiting } := by
  have hfound := h.found
  unfold Found at hfound
  rw [hs] at hfound
  obtain ⟨hkeys, hvisited, hbegun⟩ := hfound
  refine ⟨h.good, ⟨h.stored.nodup, h.stored.mem_iff⟩, fun i c hi => ?_, fun hrun => (by cases hrun),
    h.returned⟩
  have hi : s.clients[i]? = some c := hi
  rcases hkeys i c hi with hlate | hkey | hleft
  · exact .inl hlate
  · rcases hall i hkey with hv | hnot
    · exact .inr (.inl (hvisited i hv c hi))
    · rcases stored_or_left (hbegun i hkey c hi) with hstored | hleft
      · exact absurd ((h.stored.mem_iff i).mpr ⟨c, hi, hstored⟩) hnot
      · exact .inr (.inr hleft)
  · exact .inr (.inr hleft)

theorem Inv.control (h : Inv s) (hs : control s a = some s') : Inv s' := by
  cases a with
  | accept =>
      unfold TcpServer.control at hs
      dsimp only at hs
      split at hs
      · rename_i hcond
        cases hs
        exact h.accept hcond.2
      · cases hs
  | acceptTemporary =>
      unfold TcpServer.control at hs
      dsimp only at hs
      split at hs <;> cases hs
      exact h
  | acceptFailed =>
      unfold TcpServer.control at hs
      dsimp only at hs
      split at hs <;> cases hs
      exact ⟨h.good, ⟨h.stored.nodup, h.stored.mem_iff⟩, h.found,
        fun _ => ⟨fun hw => (by cases hw), fun hw => by cases hw⟩, fun hret => by cases hret⟩
  | acceptClosed =>
      unfold TcpServer.control at hs
      dsimp only at hs
      split at hs
      · rename_i hcond
        cases hs
        exact ⟨h.good, ⟨h.stored.nodup, h.stored.mem_iff⟩, h.found,
          fun hrun => absurd hrun hcond.2, fun hret => by cases hret⟩
      · cases hs
  | wait =>
      unfold TcpServer.control at hs
      dsimp only at hs
      split at hs
      · rename_i hcond
        cases hs
        exact ⟨h.good, ⟨h.stored.nodup, h.stored.mem_iff⟩, h.found,
          fun hrun => absurd hcond.1 (h.listening hrun).1, fun _ => hcond.2⟩
      · cases hs
  | closeListener =>
      unfold TcpServer.control at hs
      dsimp only at hs
      split at hs
      · cases hs
        exact ⟨h.good, ⟨h.stored.nodup, h.stored.mem_iff⟩, trivial, fun hrun => (by cases hrun),
          h.returned⟩
      · cases hs
  | rangeConns =>
      unfold TcpServer.control at hs
      dsimp only at hs
      split at hs
      · cases hs
        exact h.rangeConns
      · cases hs
  | visit i =>
      unfold TcpServer.control at hs
      dsimp only at hs
      split at hs
      · rename_i keys visited c hexit hi
        split at hs
        · cases hs
          exact h.visit hexit hi
        · cases hs
      · cases hs
  | rangeEnd =>
      unfold TcpServer.control at hs
      dsimp only at hs
      split at hs
      · rename_i keys visited hexit
        split at hs
        · rename_i hall
          cases hs
          exact h.rangeEnd hexit hall
        · cases hs
      · cases hs
  | exit =>
      unfold TcpServer.control at hs
      dsimp only at hs
      split at hs
      · rename_i hexit haccept
        cases hs
        have hfound := h.found
        unfold Found at hfound
        rw [hexit] at hfound
        exact ⟨h.good, ⟨h.stored.nodup, h.stored.mem_iff⟩, hfound, fun hrun => (by cases hrun),
          h.returned⟩
      · cases hs
  | _ => cases hs

theorem step_cases (hs : step s a = some s') :
    (∃ i c, a.conn = some i ∧ s.clients[i]? = some c ∧ handle s i c a = some s') ∨
      a.conn = none ∧ control s a = some s' := by
  unfold step at hs
  split at hs
  · rename_i i hconn
    obtain ⟨c, hi, hh⟩ := Option.bind_eq_some_iff.mp hs
    exact .inl ⟨i, c, hconn, hi, hh⟩
  · rename_i hconn
    exact .inr ⟨hconn, hs⟩

theorem Inv.next (h : Inv s) (hs : step s a = some s') : Inv s' := by
  rcases step_cases hs with ⟨i, c, -, hi, hh⟩ | ⟨-, hc⟩
  · exact h.handles hi (handle_handles hh)
  · exact h.control hc

/-! ### Waiting -/

/-- The goroutine of the connection waits for its client, who is silent. -/
def Conn.Blocked (c : Conn) : Prop :=
  c.closed = false ∧ c.hungUp = false ∧ c.input = [] ∧
    (c.phase = .serving ∨ ∃ buf, c.phase = .reading buf)

/-- The steps that the node takes by itself once it exits. -/
def Act.own : Act → Bool
  | .acceptClosed => true
  | .wait => true
  | .check _ _ => true
  | .read _ => true
  | .choose _ => true
  | .store _ => true
  | .serve _ _ _ => true
  | .endLoop _ => true
  | .delete _ => true
  | .close _ => true
  | .exit => true
  | _ => false

/-- What may end the wait for the client: the client, or a deadline. -/
def Act.frees (i : ℕ) : Act → Bool
  | .send j _ => decide (j = i)
  | .hangUp j => decide (j = i)
  | .deadline j => decide (j = i)
  | _ => false

def Phase.work : Phase → ℕ
  | .checking => 7
  | .reading _ => 6
  | .chosen _ => 5
  | .starting => 4
  | .serving => 3
  | .ended => 2
  | .deleted => 1
  | .done => 0

def Conn.work (c : Conn) : ℕ := c.phase.work + c.input.length

def Accepting.work : Accepting → ℕ
  | .accepting => 2
  | .waiting => 1
  | .returned _ => 0

def Exiting.work : Exiting → ℕ
  | .exited => 0
  | _ => 1

/-- The steps that are left. -/
def work (s : State) : ℕ := held Conn.work s.clients + s.accept.work + s.exit.work

theorem work_read {buf : List UInt8} (h : c.phase = .reading buf) (hr : c.read buf = some c') :
    c'.work < c.work := by
  unfold Conn.read at hr
  split at hr
  · cases hr
    simp [Conn.work, Conn.finish, h, Phase.work]
  · split at hr
    · rename_i hne
      cases hr
      have hpos := List.length_pos_iff.mpr hne
      simp only [Conn.work, h, List.length_append, List.length_take, List.length_drop]
      split
      · simp only [Phase.work]
        omega
      · simp only [Phase.work]
        omega
    · split at hr
      · cases hr
        simp [Conn.work, Conn.finish, h, Phase.work]
      · cases hr

theorem work_handle (ha : a.own = true) (hi : s.clients[i]? = some c) (h : handle s i c a = some s') :
    work s' < work s := by
  have hset {u : State} {c' : Conn} (hu : u.clients = s.clients) (haccept : u.accept = s.accept)
      (hexit : u.exit = s.exit) (hlt : c'.work < c.work) : work (u.setConn i c') < work s := by
    have hsum := held_set (f := Conn.work) hi c'
    simp only [work, State.setConn, hu, haccept, hexit]
    omega
  cases a with
  | check j leader =>
      unfold handle at h
      dsimp only at h
      split at h
      · rename_i hp
        cases h
        refine hset rfl rfl rfl ?_
        cases leader <;> simp [Conn.check, Conn.work, hp, Phase.work]
      · cases h
  | read j =>
      unfold handle at h
      dsimp only at h
      split at h
      · rename_i buf hp
        obtain ⟨c', hr, rfl⟩ := Option.map_eq_some_iff.mp h
        exact hset rfl rfl rfl (work_read hp hr)
      · cases h
  | choose j =>
      unfold handle at h
      dsimp only at h
      split at h
      · rename_i m hp
        cases h
        refine hset rfl rfl rfl ?_
        unfold Conn.choose
        split <;> simp [Conn.finish, Conn.work, hp, Phase.work]
      · cases h
  | store j =>
      unfold handle at h
      dsimp only at h
      split at h
      · rename_i hp
        cases h
        exact hset rfl rfl rfl (by simp [Conn.work, hp, Phase.work])
      · cases h
  | serve j n fatal =>
      unfold handle at h
      dsimp only at h
      split at h
      · rename_i hp
        obtain ⟨c', hserve, rfl⟩ := Option.map_eq_some_iff.mp h
        unfold Conn.serve at hserve
        split at hserve
        · rename_i hcond
          cases hserve
          refine hset rfl rfl rfl ?_
          simp only [Conn.work, hp, List.length_drop]
          cases fatal <;> simp [Phase.work] <;> omega
        · cases hserve
      · cases h
  | endLoop j =>
      unfold handle at h
      dsimp only at h
      split at h
      · rename_i hp
        obtain ⟨c', hend, rfl⟩ := Option.map_eq_some_iff.mp h
        unfold Conn.endLoop at hend
        split at hend
        · cases hend
          exact hset rfl rfl rfl (by simp [Conn.work, hp, Phase.work])
        · cases hend
      · cases h
  | delete j =>
      unfold handle at h
      dsimp only at h
      split at h
      · rename_i hp
        cases h
        exact hset rfl rfl rfl (by simp [Conn.work, hp, Phase.work])
      · cases h
  | close j =>
      unfold handle at h
      dsimp only at h
      split at h
      · rename_i hp
        cases h
        exact hset rfl rfl rfl (by simp [Conn.work, Conn.finish, hp, Phase.work])
      · cases h
  | send j bytes => cases ha
  | hangUp j => cases ha
  | deadline j => cases ha
  | _ => cases h

theorem work_lt (ha : a.own = true) (hs : step s a = some s') : work s' < work s := by
  rcases step_cases hs with ⟨i, c, -, hi, hh⟩ | ⟨-, hc⟩
  · exact work_handle ha hi hh
  · cases a with
    | acceptClosed =>
        unfold control at hc
        dsimp only at hc
        split at hc
        · rename_i hcond
          cases hc
          simp [work, hcond.1, Accepting.work]
        · cases hc
    | wait =>
        unfold control at hc
        dsimp only at hc
        split at hc
        · rename_i hcond
          cases hc
          simp [work, hcond.1, Accepting.work]
        · cases hc
    | exit =>
        unfold control at hc
        dsimp only at hc
        split at hc
        · rename_i ok hexit haccept
          cases hc
          simp [work, hexit, Exiting.work]
        · cases hc
    | _ => first | cases hc | cases ha

theorem isSome_step_conn (hconn : a.conn = some i) (hi : s.clients[i]? = some c)
    (h : (handle s i c a).isSome = true) : (step s a).isSome = true := by
  unfold step
  simp only [hconn, hi, Option.bind_some, h]

theorem isSome_step_control (hconn : a.conn = none) (h : (control s a).isSome = true) :
    (step s a).isSome = true := by
  unfold step
  simp only [hconn, h]

/-- The next step of a connection that does not wait for its client. -/
theorem exists_handle (hi : s.clients[i]? = some c) (hd : c.phase ≠ .done) (hb : ¬ c.Blocked) :
    ∃ a, a.own = true ∧ (step s a).isSome = true := by
  cases hp : c.phase with
  | checking =>
      refine ⟨.check i true, rfl, isSome_step_conn rfl hi ?_⟩
      unfold handle
      simp [hp]
  | reading buf =>
      refine ⟨.read i, rfl, isSome_step_conn rfl hi ?_⟩
      unfold handle
      simp only [hp, Option.isSome_map]
      unfold Conn.read
      split
      · rfl
      · rename_i hopen
        split
        · rfl
        · rename_i hempty
          split
          · rfl
          · rename_i hthere
            exact absurd ⟨Bool.eq_false_iff.mpr hopen, Bool.eq_false_iff.mpr hthere,
              not_not.mp hempty, .inr ⟨buf, hp⟩⟩ hb
  | chosen m =>
      refine ⟨.choose i, rfl, isSome_step_conn rfl hi ?_⟩
      unfold handle
      simp [hp]
  | starting =>
      refine ⟨.store i, rfl, isSome_step_conn rfl hi ?_⟩
      unfold handle
      simp [hp]
  | serving =>
      by_cases hend : c.closed = true ∨ (c.hungUp = true ∧ c.input = [])
      · refine ⟨.endLoop i, rfl, isSome_step_conn rfl hi ?_⟩
        unfold handle
        simp only [hp, if_true, Option.isSome_map, Conn.endLoop, if_pos hend]
        rfl
      · obtain ⟨hclosed, hrest⟩ := not_or.mp hend
        have hopen : c.closed = false := Bool.eq_false_iff.mpr hclosed
        by_cases hempty : c.input = []
        · have hthere : c.hungUp = false := Bool.eq_false_iff.mpr fun hu => hrest ⟨hu, hempty⟩
          exact absurd ⟨hopen, hthere, hempty, .inl hp⟩ hb
        · have hpos := List.length_pos_iff.mpr hempty
          refine ⟨.serve i 1 false, rfl, isSome_step_conn rfl hi ?_⟩
          unfold handle
          simp only [hp, if_true, Option.isSome_map, Conn.serve,
            if_pos (⟨Nat.one_pos, hpos, hopen⟩ : 0 < 1 ∧ 1 ≤ c.input.length ∧ c.closed = false)]
          rfl
  | ended =>
      refine ⟨.delete i, rfl, isSome_step_conn rfl hi ?_⟩
      unfold handle
      simp [hp]
  | deleted =>
      refine ⟨.close i, rfl, isSome_step_conn rfl hi ?_⟩
      unfold handle
      simp [hp]
  | done => exact absurd hp hd

/-- **The exit goes on.** When no connection waits for its client the node has a step to take. -/
theorem exists_own (hexit : s.exit = .waiting) (hb : ∀ c ∈ s.clients, ¬ c.Blocked) :
    ∃ a, a.own = true ∧ (step s a).isSome = true := by
  by_cases hall : ∀ c ∈ s.clients, c.phase = .done
  · cases hacc : s.accept with
    | accepting =>
        refine ⟨.acceptClosed, rfl, isSome_step_control rfl ?_⟩
        unfold control
        simp [hacc, hexit]
    | waiting =>
        refine ⟨.wait, rfl, isSome_step_control rfl ?_⟩
        unfold control
        simp only [if_pos (⟨hacc, hall⟩ : s.accept = .waiting ∧ _)]
        rfl
    | returned ok =>
        refine ⟨.exit, rfl, isSome_step_control rfl ?_⟩
        unfold control
        simp [hacc, hexit]
  · simp only [not_forall] at hall
    obtain ⟨c, hc, hd⟩ := hall
    obtain ⟨i, hi⟩ := List.getElem?_of_mem hc
    exact exists_handle hi hd (hb c hc)

/-- The goroutine that waits can do nothing. -/
theorem handle_blocked (hb : c.Blocked) {j : ℕ} (hconn : a.conn = some j) (hf : a.frees j = false) :
    handle s i c a = none := by
  obtain ⟨hopen, hthere, hempty, hp⟩ := hb
  have hphase {p : Phase} (hs : p ≠ .serving) (hr : ∀ buf, p ≠ .reading buf) : c.phase ≠ p := by
    rintro rfl
    rcases hp with hp | ⟨buf, hp⟩
    · exact hs hp
    · exact hr buf hp
  cases a with
  | check k leader => exact if_neg (hphase (fun h => by cases h) fun _ h => by cases h)
  | read k =>
      unfold handle
      dsimp only
      split
      · simp [Conn.read, hopen, hempty, hthere]
      · rfl
  | choose k =>
      unfold handle
      dsimp only
      split
      · rename_i m hm
        exact absurd hm (hphase (fun h => by cases h) fun _ h => by cases h)
      · rfl
  | store k => exact if_neg (hphase (fun h => by cases h) fun _ h => by cases h)
  | serve k n fatal =>
      unfold handle
      dsimp only
      split
      · have hlen : ¬ (0 < n ∧ n ≤ c.input.length ∧ c.closed = false) := by
          rw [hempty, List.length_nil]
          omega
        simp only [Conn.serve, if_neg hlen, Option.map_none]
      · rfl
  | endLoop k =>
      unfold handle
      dsimp only
      split
      · simp [Conn.endLoop, hopen, hthere]
      · rfl
  | delete k => exact if_neg (hphase (fun h => by cases h) fun _ h => by cases h)
  | close k => exact if_neg (hphase (fun h => by cases h) fun _ h => by cases h)
  | send k bytes =>
      cases hconn
      simp [Act.frees] at hf
  | hangUp k =>
      cases hconn
      simp [Act.frees] at hf
  | deadline k =>
      cases hconn
      simp [Act.frees] at hf
  | _ => rfl

/-- `Exit` has gone over the map and still waits, for this connection at least. -/
structure Hangs (s : State) (i : ℕ) (c : Conn) : Prop where
  exit : s.exit = .waiting
  accept : s.accept = .accepting ∨ s.accept = .waiting
  client : s.clients[i]? = some c
  blocked : c.Blocked

theorem Hangs.control (h : Hangs s i c) (hs : control s a = some s') : Hangs s' i c := by
  have hmem : c ∈ s.clients := List.mem_of_getElem? h.client
  have hundone : c.phase ≠ .done := by
    rcases h.blocked.2.2.2 with hp | ⟨buf, hp⟩ <;> rw [hp] <;> exact fun hd => by cases hd
  cases a with
  | accept =>
      unfold TcpServer.control at hs
      simp only [h.exit] at hs
      simp at hs
  | acceptTemporary =>
      unfold TcpServer.control at hs
      simp only [h.exit] at hs
      simp at hs
  | acceptFailed =>
      unfold TcpServer.control at hs
      simp only [h.exit] at hs
      simp at hs
  | acceptClosed =>
      unfold TcpServer.control at hs
      dsimp only at hs
      split at hs
      · cases hs
        exact ⟨h.exit, .inr rfl, h.client, h.blocked⟩
      · cases hs
  | wait =>
      unfold TcpServer.control at hs
      dsimp only at hs
      split at hs
      · rename_i hcond
        exact absurd (hcond.2 c hmem) hundone
      · cases hs
  | closeListener =>
      unfold TcpServer.control at hs
      simp only [h.exit] at hs
      simp at hs
  | rangeConns =>
      unfold TcpServer.control at hs
      simp only [h.exit] at hs
      simp at hs
  | visit j =>
      unfold TcpServer.control at hs
      simp only [h.exit] at hs
      cases hs
  | rangeEnd =>
      unfold TcpServer.control at hs
      simp only [h.exit] at hs
      cases hs
  | exit =>
      rcases h.accept with haccept | haccept <;>
      · unfold TcpServer.control at hs
        simp only [h.exit, haccept] at hs
        cases hs
  | _ => cases hs

theorem Hangs.next (h : Hangs s i c) (hf : a.frees i = false) (hs : step s a = some s') :
    Hangs s' i c := by
  rcases step_cases hs with ⟨j, d, hconn, hj, hh⟩ | ⟨-, hc⟩
  · by_cases hij : j = i
    · subst hij
      rw [h.client] at hj
      cases hj
      rw [handle_blocked h.blocked hconn hf] at hh
      cases hh
    · obtain ⟨d', hr, hexit⟩ := (handle_handles hh).replaces
      refine ⟨hexit.trans h.exit, hr.accept ▸ h.accept, ?_, h.blocked⟩
      rw [hr.clients, List.getElem?_set_ne hij, h.client]
  · exact h.control hc

/-- What holds of the connections after every run. -/
structure Sessions (s : State) : Prop where
  good : ∀ c ∈ s.clients, c.Good
  served : ∀ c ∈ s.clients, c.phase.served = true → c.leader = true ∧ magicV2 <+: c.received
  ended : ∀ c ∈ s.clients, c.phase = .done → c.closed = true
  stored : Stored s
  returned : s.accept = .returned true → ∀ c ∈ s.clients, c.phase = .done

/-- What holds once `Exit` has gone over the map. -/
structure ExitWaits (s : State) : Prop where
  late : ∀ i c, s.clients[i]? = some c → c.Blocked → i ∈ s.late
  bounded : ∀ acts t, (∀ a ∈ acts, Act.own a = true) → Runs.run step s acts = some t →
    acts.length ≤ work s
  goesOn : (∀ c ∈ s.clients, ¬ c.Blocked) → ∃ a, a.own = true ∧ (step s a).isSome = true
  hangs : ∀ i c, s.clients[i]? = some c → c.Blocked → s.accept ≠ .returned false →
    ∀ acts t, (∀ a ∈ acts, Act.frees i a = false) → Runs.run step s acts = some t →
      t.exit = .waiting ∧ t.clients[i]? = some c

theorem Inv.sessions (h : Inv s) : Sessions s where
  good := h.good
  served c hc hs := by
    have hg := h.good c hc
    unfold Conn.Good at hg
    cases hp : c.phase <;> rw [hp] at hg hs <;> first | exact ⟨hg.1.1, hg.2⟩ | cases hs
  ended c hc hd := by
    have hg := h.good c hc
    unfold Conn.Good at hg
    rw [hd] at hg
    exact hg.1
  stored := h.stored
  returned := h.returned

theorem Inv.exitWaits (h : Inv s) (hexit : s.exit = .waiting) : ExitWaits s where
  late i c hi hb := by
    have hfound := h.found
    unfold Found at hfound
    rw [hexit] at hfound
    obtain ⟨hopen, -, -, hp⟩ := hb
    rcases hfound i c hi with hlate | hclosed | hleft
    · exact hlate
    · rw [hopen] at hclosed
      cases hclosed
    · rcases hp with hp | ⟨buf, hp⟩ <;> rw [hp] at hleft <;> cases hleft
  bounded acts t ha hr :=
    Nat.le_of_add_right_le (Runs.length_le_of_decreases (m := work)
      (fun s a t ha hs => work_lt ha hs) acts ha hr)
  goesOn hb := exists_own hexit hb
  hangs i c hi hb hacc acts t hf hr := by
    have hlisten : s.accept = .accepting ∨ s.accept = .waiting := by
      cases haccept : s.accept with
      | accepting => exact .inl rfl
      | waiting => exact .inr rfl
      | returned ok =>
          cases ok with
          | false => exact absurd haccept hacc
          | true =>
              have hd := h.returned haccept c (List.mem_of_getElem? hi)
              rcases hb.2.2.2 with hp | ⟨buf, hp⟩ <;> rw [hd] at hp <;> cases hp
    have hstep : ∀ (u : State) (a : Act) (v : State), Hangs u i c → Act.frees i a = false →
        step u a = some v → Hangs v i c := fun u a v hu hfree hv => hu.next hfree hv
    have hend := Runs.invariant_along hstep acts s t ⟨hexit, hlisten, hi, hb⟩
      (Runs.along_of_forall acts hf) hr
    exact ⟨hend.exit, hend.client⟩

/-- The second connection is accepted before the listener is closed, and never says anything. -/
def silentClient : List Act :=
  [.accept, .check 0 true, .send 0 (magicV2 ++ [78, 79, 80, 10]), .read 0, .choose 0, .store 0,
    .serve 0 4 false, .accept, .closeListener, .rangeConns, .visit 0, .check 1 true, .rangeEnd,
    .endLoop 0, .delete 0, .close 0, .acceptClosed]

theorem silentClient_run :
    ((Runs.run step init silentClient).any fun s =>
      decide (s.exit = .waiting ∧ s.late = [1] ∧
        s.clients[1]? = some ⟨.reading [], [], [], [], false, false, true⟩)) = true := by
  decide

end Xmq.TcpServer
