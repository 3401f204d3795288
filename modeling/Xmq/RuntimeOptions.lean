import Mathlib.Logic.Function.Basic
import Xmq.LookupLoop

/-!
# Options at run time

`doConfig` reads the options, changes a copy and swaps it in, without a lock, and then notifies the
lookup loop through a channel with one slot. The copy shares the array of the addresses with what it
is a copy of, and `json.Unmarshal` writes into an array that is large enough.

* A swap forgets what was swapped in since the request read the options. It forgets nothing when the
  options are still those that it read (`Unchanged`).
* The loop closes the peers that the options do not name and connects to the others. Whatever
  requests there were, it has the addresses of the options once no request and no notification is
  under way.
-/

namespace Xmq.RuntimeOptions

open Lookup

/-! ### Options -/

/-- A slice from the start of an array. -/
structure Slice where
  array : ℕ
  len : ℕ
  deriving DecidableEq

/-- The arrays, each with its whole capacity; those from `next` on are free. -/
structure Arrays where
  elems : ℕ → List String
  next : ℕ

/-- The options that can be set. -/
structure Options where
  xmqLookupdGrpcAddresses : Slice
  logLevel : String
  deriving DecidableEq

namespace Arrays

def read (m : Arrays) (s : Slice) : List String := (m.elems s.array).take s.len

def alloc (m : Arrays) (elems : List String) : Arrays :=
  { elems := Function.update m.elems m.next elems, next := m.next + 1 }

/-- `json.Unmarshal` of an array of strings: the elements go into the slice as far as it has room,
and all of them into a longer one if that is not far enough. `room` is what `reflect.Value.Grow`
adds. -/
def unmarshal (m : Arrays) (s : Slice) (value : List String) (room : ℕ) : Slice × Arrays :=
  if value = [] then (⟨m.next, 0⟩, m.alloc [])
  else
    let cap := (m.elems s.array).length
    let written := value.take cap ++ (m.elems s.array).drop value.length
    let m := { m with elems := Function.update m.elems s.array written }
    if value.length ≤ cap then (⟨s.array, value.length⟩, m)
    else (⟨m.next, value.length⟩, m.alloc (value ++ List.replicate room ""))

theorem read_unmarshal (m : Arrays) (s : Slice) (value : List String) (room : ℕ) :
    (m.unmarshal s value room).2.read (m.unmarshal s value room).1 = value := by
  rw [unmarshal]
  split
  case isTrue hnil => rw [hnil]; rfl
  case isFalse =>
    simp only []
    split
    case isTrue hcap =>
      simp only [read, Function.update_self, List.take_of_length_le hcap]
      exact List.take_left' rfl
    case isFalse =>
      simp only [read, alloc, Function.update_self]
      exact List.take_left' rfl

end Arrays

/-! ### Requests -/

/-- What a `PUT` sets. -/
inductive Put where
  | xmqLookupdGrpcAddresses (value : List String) (room : ℕ)
  | logLevel (logLevelStr : String)

/-- How far a request has come: it has its copy, has changed it, has swapped it in. -/
inductive Phase where
  | copied
  | changed
  | swapped
  deriving DecidableEq

/-- A request, with its copy of the options. `read` is how many swaps there were when it was made.
-/
structure Request where
  put : Put
  opts : Options
  read : ℕ
  phase : Phase

/-- The options of the node and the requests under way. `lastAddresses` and `lastLogLevel` are the
values of the `PUT`s that swapped last. -/
structure Config where
  arrays : Arrays
  opts : Options
  swaps : ℕ
  lastAddresses : List String
  lastLogLevel : String
  requests : ℕ → Option Request

def logLevels : List String := ["debug", "info", "warning", "error", "fatal"]

def Put.Accepted : Put → Prop
  | .xmqLookupdGrpcAddresses _ _ => True
  | .logLevel logLevelStr => logLevelStr ∈ logLevels

instance (put : Put) : Decidable put.Accepted :=
  match put with
  | .xmqLookupdGrpcAddresses _ _ => inferInstanceAs (Decidable True)
  | .logLevel _ => inferInstanceAs (Decidable (_ ∈ _))

namespace Config

def start (arrays : Arrays) (opts : Options) : Config :=
  ⟨arrays, opts, 0, arrays.read opts.xmqLookupdGrpcAddresses, opts.logLevel, fun _ => none⟩

def setRequest (c : Config) (r : ℕ) (q : Option Request) : Config :=
  { c with requests := Function.update c.requests r q }

/-- The addresses of the options. -/
def addresses (c : Config) : List String := c.arrays.read c.opts.xmqLookupdGrpcAddresses

/-- `opts := *s.xmqd.getOpts()`. -/
def copy (c : Config) (r : ℕ) (put : Put) : Option Config :=
  if (c.requests r).isSome then none
  else some (c.setRequest r (some ⟨put, c.opts, c.swaps, .copied⟩))

/-- The `switch`; a value that is not accepted ends the request. -/
def change (c : Config) (r : ℕ) (q : Request) : Config :=
  match q.put with
  | .xmqLookupdGrpcAddresses value room =>
    let (slice, arrays) := c.arrays.unmarshal q.opts.xmqLookupdGrpcAddresses value room
    { c with arrays := arrays }.setRequest r
      (some { q with opts := { q.opts with xmqLookupdGrpcAddresses := slice }, phase := .changed })
  | .logLevel logLevelStr =>
    if logLevelStr ∈ logLevels then
      c.setRequest r
        (some { q with opts := { q.opts with logLevel := logLevelStr }, phase := .changed })
    else c.setRequest r none

/-- `s.xmqd.swapOpts(&opts)`. -/
def swap (c : Config) (r : ℕ) (q : Request) : Config :=
  let c := { c with opts := q.opts, swaps := c.swaps + 1 }.setRequest r
    (some { q with phase := .swapped })
  match q.put with
  | .xmqLookupdGrpcAddresses value _ => { c with lastAddresses := value }
  | .logLevel logLevelStr => { c with lastLogLevel := logLevelStr }

end Config

/-! ### The loop -/

/-- What is around the loop when it takes a step. -/
structure Surroundings (σ : Type) where
  daemons : Daemons σ
  opts : NodeOptions
  commands : String → List RegisterRequest
  raftState : String

def Surroundings.callback {σ : Type} (a : Surroundings σ) (lp : LookupPeer) (w : σ) :
    Option (LookupPeer × σ) :=
  connectCallback a.daemons a.opts (a.commands lp.addr) lp w

/-- The node: `notification` is the slot of the channel, and `received` says that the loop has taken
a notification and not yet looked at its peers. -/
structure State (σ : Type) where
  config : Config
  notification : Bool
  received : Bool
  loop : LookupLoop
  world : σ

inductive Event (σ : Type) where
  | copy (r : ℕ) (put : Put)
  | change (r : ℕ)
  | swap (r : ℕ)
  | notify (r : ℕ)
  | receive
  | keep
  | connect (a : Surroundings σ)
  | wake (a : Surroundings σ) (wake : Wake)

variable {σ : Type}

/-- The request has come as far as this. -/
def Config.requestIn (c : Config) (r : ℕ) (phase : Phase) : Option Request :=
  (c.requests r).filter fun q => q.phase = phase

/-- The loop is at its `select`. -/
def State.Waiting (s : State σ) : Prop := s.received = false ∧ s.loop.connect = false

instance (s : State σ) : Decidable s.Waiting := inferInstanceAs (Decidable (_ ∧ _))

def State.start (arrays : Arrays) (opts : Options) (world : σ) : State σ :=
  ⟨.start arrays opts, false, false, .new, world⟩

def step (s : State σ) : Event σ → Option (State σ)
  | .copy r put => (s.config.copy r put).map fun c => { s with config := c }
  | .change r => (s.config.requestIn r .copied).map fun q =>
    { s with config := s.config.change r q }
  | .swap r => (s.config.requestIn r .changed).map fun q => { s with config := s.config.swap r q }
  | .notify r => (s.config.requestIn r .swapped).map fun _ =>
      { s with config := s.config.setRequest r none, notification := true }
  | .receive =>
    if s.Waiting ∧ s.notification = true then
      some { s with notification := false, received := true }
    else none
  | .keep =>
    if s.received = true then
      some { s with received := false, loop := s.loop.keepPeers s.config.addresses }
    else none
  | .connect a =>
    if s.received = false ∧ s.loop.connect = true then
      (s.loop.top a.daemons a.callback s.config.addresses s.world).map
        fun (l, w) => { s with loop := l, world := w }
    else none
  | .wake _ .optsNotification => none
  | .wake a wake =>
    if s.Waiting then
      (LookupLoop.handle a.daemons a.callback a.opts s.config.addresses a.raftState wake s.loop s.world).map
        fun (l, w) => { s with loop := l, world := w }
    else none

/-- A swap finds the options that its request read. -/
def Unchanged (s : State σ) : Event σ → Prop
  | .swap r => ∀ q, s.config.requests r = some q → q.read = s.config.swaps
  | _ => True

/-- No request is under way. -/
def State.Quiet (s : State σ) : Prop := ∀ r, s.config.requests r = none

/-- Each option has the value of the `PUT` for it that swapped last. -/
def Config.Kept (c : Config) : Prop :=
  c.addresses = c.lastAddresses ∧ c.opts.logLevel = c.lastLogLevel

/-! ### Requests under way -/

/-- A request that will swap. -/
def Live (requests : ℕ → Option Request) (r : ℕ) (q : Request) : Prop :=
  requests r = some q ∧ q.phase ≠ .swapped ∧ q.put.Accepted

/-- The copy has what the request sets, and of the other option what swapped last. -/
def Matches (arrays : Arrays) (opts : Options) (lastAddresses : List String)
    (lastLogLevel : String) :
    Put → Prop
  | .xmqLookupdGrpcAddresses value _ =>
    arrays.read opts.xmqLookupdGrpcAddresses = value ∧ opts.logLevel = lastLogLevel
  | .logLevel logLevelStr =>
    arrays.read opts.xmqLookupdGrpcAddresses = lastAddresses ∧ opts.logLevel = logLevelStr

namespace Config

variable {c c' : Config} {r : ℕ} {q : Request}

/-- A request that nothing has come between. -/
def Ready (c : Config) (q : Request) : Prop :=
  match q.phase with
  | .copied => q.opts = c.opts ∧ c.Kept
  | .changed => Matches c.arrays q.opts c.lastAddresses c.lastLogLevel q.put
  | .swapped => False

/-- What holds of every request. -/
structure Sound (c : Config) : Prop where
  read : ∀ r q, c.requests r = some q → q.read ≤ c.swaps
  accepted : ∀ r q, c.requests r = some q → q.phase ≠ .copied → q.put.Accepted

/-- How the requests stand to each other. One that has been overtaken is not going to find the
options that it read, and of two that may both swap one will be overtaken; neither can come to an
end as it should. -/
inductive Course (c : Config) : Prop where
  | overtaken (r : ℕ) (q : Request) : Live c.requests r q → q.read < c.swaps → Course c
  | racing (r r' : ℕ) (q q' : Request) : r ≠ r' → Live c.requests r q → Live c.requests r' q' →
    Course c
  | alone (r : ℕ) (q : Request) :
      Live c.requests r q → (∀ r' q', Live c.requests r' q' → r' = r) → c.Ready q → Course c
  | idle : (∀ r q, ¬ Live c.requests r q) → c.Kept → Course c

theorem live_update_ne {requests : ℕ → Option Request} {r' : ℕ} (x : Option Request) (h : r' ≠ r) :
    Live (Function.update requests r x) r' q ↔ Live requests r' q := by
  rw [Live, Live, Function.update_of_ne h]

theorem live_update_self {requests : ℕ → Option Request} {x : Option Request} :
    Live (Function.update requests r x) r q ↔ x = some q ∧ q.phase ≠ .swapped ∧ q.put.Accepted := by
  rw [Live, Function.update_self]

/-- A request that was not going to swap comes or goes. -/
theorem Course.dead (h : c.Course) {x : Option Request} (hbefore : ∀ q, ¬ Live c.requests r q)
    (hafter : ∀ q, x = some q → ¬ (q.phase ≠ .swapped ∧ q.put.Accepted)) :
    (c.setRequest r x).Course := by
  have hlive : ∀ r' q', Live (c.setRequest r x).requests r' q' ↔ Live c.requests r' q' := by
    intro r' q'
    by_cases hr : r' = r
    · subst hr
      exact iff_of_false (fun hl => hafter q' (live_update_self.mp hl).1 (live_update_self.mp hl).2)
        (hbefore q')
    · exact live_update_ne x hr
  cases h with
  | overtaken r₁ q₁ h₁ hlt => exact .overtaken r₁ q₁ ((hlive r₁ q₁).mpr h₁) hlt
  | racing r₁ r₂ q₁ q₂ hne h₁ h₂ =>
      exact .racing r₁ r₂ q₁ q₂ hne ((hlive r₁ q₁).mpr h₁) ((hlive r₂ q₂).mpr h₂)
  | alone r₁ q₁ h₁ honly hready =>
      exact .alone r₁ q₁ ((hlive r₁ q₁).mpr h₁) (fun r' q' hl =>
        honly r' q' ((hlive r' q').mp hl)) hready
  | idle hnone hkept => exact .idle (fun r' q' hl => hnone r' q' ((hlive r' q').mp hl)) hkept

theorem Course.copy (h : c.Course) (hr : c.requests r = none) (put : Put) :
    (c.setRequest r (some ⟨put, c.opts, c.swaps, .copied⟩)).Course := by
  have hbefore : ∀ q, ¬ Live c.requests r q := by
    rintro q ⟨hq, -⟩
    rw [hr] at hq
    cases hq
  by_cases haccepted : put.Accepted
  · have hnew : Live (c.setRequest r (some ⟨put, c.opts, c.swaps, .copied⟩)).requests r
        ⟨put, c.opts, c.swaps, .copied⟩ := live_update_self.mpr ⟨rfl, nofun, haccepted⟩
    have hold : ∀ {r' q'}, Live c.requests r' q' → r' ≠ r ∧
        Live (c.setRequest r (some ⟨put, c.opts, c.swaps, .copied⟩)).requests r' q' := by
      intro r' q' hl
      have hne : r' ≠ r := fun heq => hbefore q' (heq ▸ hl)
      exact ⟨hne, (live_update_ne _ hne).mpr hl⟩
    cases h with
    | overtaken r₁ q₁ h₁ hlt => exact .overtaken r₁ q₁ (hold h₁).2 hlt
    | racing r₁ r₂ q₁ q₂ hne h₁ h₂ => exact .racing r₁ r₂ q₁ q₂ hne (hold h₁).2 (hold h₂).2
    | alone r₁ q₁ h₁ honly hready => exact .racing r₁ r q₁ _ (hold h₁).1 (hold h₁).2 hnew
    | idle hnone hkept =>
        refine .alone r _ hnew (fun r' q' hl => ?_) ⟨rfl, hkept⟩
        by_contra hne
        exact hnone r' q' ((live_update_ne _ hne).mp hl)
  · refine h.dead hbefore fun q hq hlive => haccepted ?_
    cases hq
    exact hlive.2

/-- What an accepted value does to the copy. -/
theorem change_accepted (c : Config) (r : ℕ) (haccepted : q.put.Accepted) :
    ∃ arrays opts, c.change r q = { c with arrays := arrays }.setRequest r
        (some { q with opts := opts, phase := .changed }) ∧
      (q.opts = c.opts → c.Kept → Matches arrays opts c.lastAddresses c.lastLogLevel q.put) := by
  rw [change]
  cases hput : q.put with
  | xmqLookupdGrpcAddresses value room =>
      refine ⟨_, _, rfl, fun hopts hkept => ?_⟩
      exact ⟨c.arrays.read_unmarshal q.opts.xmqLookupdGrpcAddresses value room,
        (congrArg Options.logLevel hopts).trans hkept.2⟩
  | logLevel logLevelStr =>
      rw [hput] at haccepted
      refine ⟨c.arrays, _, if_pos haccepted, fun hopts hkept => ⟨?_, rfl⟩⟩
      exact (congrArg (fun o : Options => c.arrays.read o.xmqLookupdGrpcAddresses) hopts).trans hkept.1

theorem change_refused (c : Config) (r : ℕ) (haccepted : ¬ q.put.Accepted) :
    c.change r q = c.setRequest r none := by
  rw [change]
  cases hput : q.put with
  | xmqLookupdGrpcAddresses value room =>
      rw [hput] at haccepted
      exact absurd trivial haccepted
  | logLevel logLevelStr =>
      rw [hput] at haccepted
      exact if_neg haccepted

theorem Course.change (h : c.Course) (hq : c.requests r = some q) (hphase : q.phase = .copied) :
    (c.change r q).Course := by
  by_cases haccepted : q.put.Accepted
  · obtain ⟨arrays, opts, heq, hmatches⟩ := c.change_accepted r haccepted
    rw [heq]
    have hlive : Live c.requests r q := ⟨hq, by rw [hphase]; nofun, haccepted⟩
    have hnew : Live ({ c with arrays := arrays }.setRequest r
        (some { q with opts := opts, phase := .changed })).requests r
        { q with opts := opts, phase := .changed } := live_update_self.mpr ⟨rfl, nofun, haccepted⟩
    -- the request goes on with what it has read
    have hold : ∀ {r' q'}, Live c.requests r' q' → ∃ q'', q''.read = q'.read ∧
        Live ({ c with arrays := arrays }.setRequest r
          (some { q with opts := opts, phase := .changed })).requests r' q'' := by
      intro r' q' hl
      by_cases hne : r' = r
      · subst hne
        obtain rfl : q = q' := Option.some.inj (hq.symm.trans hl.1)
        exact ⟨{ q with opts := opts, phase := .changed }, rfl, hnew⟩
      · exact ⟨q', rfl, (live_update_ne _ hne).mpr hl⟩
    cases h with
    | overtaken r₁ q₁ h₁ hlt =>
        obtain ⟨q₂, hread, h₂⟩ := hold h₁
        exact .overtaken r₁ q₂ h₂ (hread ▸ hlt)
    | racing r₁ r₂ q₁ q₂ hne h₁ h₂ =>
        obtain ⟨q₁', -, h₁'⟩ := hold h₁
        obtain ⟨q₂', -, h₂'⟩ := hold h₂
        exact .racing r₁ r₂ q₁' q₂' hne h₁' h₂'
    | alone r₁ q₁ h₁ honly hready =>
        obtain rfl : r = r₁ := honly r q hlive
        obtain rfl : q = q₁ := Option.some.inj (hq.symm.trans h₁.1)
        rw [Ready, hphase] at hready
        refine .alone r _ hnew (fun r' q' hl => ?_) (hmatches hready.1 hready.2)
        by_contra hne
        exact hne (honly r' q' ((live_update_ne _ hne).mp hl))
    | idle hnone hkept => exact absurd hlive (hnone r q)
  · rw [c.change_refused r haccepted]
    refine h.dead (fun q' hl => haccepted ?_) nofun
    obtain rfl : q = q' := Option.some.inj (hq.symm.trans hl.1)
    exact hl.2.2

theorem swap_requests (c : Config) (r : ℕ) (q : Request) :
    (c.swap r q).requests = Function.update c.requests r (some { q with phase := .swapped }) := by
  rw [swap]
  cases q.put <;> rfl

theorem swap_swaps (c : Config) (r : ℕ) (q : Request) : (c.swap r q).swaps = c.swaps + 1 := by
  rw [swap]
  cases q.put <;> rfl

theorem swap_kept (r : ℕ) (h : Matches c.arrays q.opts c.lastAddresses c.lastLogLevel q.put) :
    (c.swap r q).Kept := by
  rw [swap]
  cases hput : q.put with
  | xmqLookupdGrpcAddresses value room =>
      rw [hput] at h
      exact h
  | logLevel logLevelStr =>
      rw [hput] at h
      exact h

theorem Course.swap (h : c.Course) (hsound : c.Sound) (hq : c.requests r = some q)
    (hphase : q.phase = .changed) (hread : q.read = c.swaps) : (c.swap r q).Course := by
  have hlive : Live c.requests r q :=
    ⟨hq, by rw [hphase]; nofun, hsound.accepted r q hq (by rw [hphase]; nofun)⟩
  have hgone : ∀ q', ¬ Live (c.swap r q).requests r q' := by
    intro q' hl
    rw [swap_requests] at hl
    obtain ⟨hsome, hphase', -⟩ := live_update_self.mp hl
    cases hsome
    exact hphase' rfl
  have hothers : ∀ {r' q'}, r' ≠ r →
      (Live (c.swap r q).requests r' q' ↔ Live c.requests r' q') := by
    intro r' q' hne
    rw [swap_requests]
    exact live_update_ne _ hne
  -- whoever else may swap has been overtaken
  have hovertaken : ∀ {r' q'}, r' ≠ r → Live c.requests r' q' → (c.swap r q).Course := by
    intro r' q' hne hl
    refine .overtaken r' q' ((hothers hne).mpr hl) ?_
    rw [swap_swaps]
    exact Nat.lt_succ_of_le (hsound.read r' q' hl.1)
  cases h with
  | overtaken r₁ q₁ h₁ hlt =>
      refine hovertaken ?_ h₁
      rintro rfl
      obtain rfl : q = q₁ := Option.some.inj (hq.symm.trans h₁.1)
      omega
  | racing r₁ r₂ q₁ q₂ hne h₁ h₂ =>
      by_cases hr : r₁ = r
      · exact hovertaken (fun hr₂ => hne (hr.trans hr₂.symm)) h₂
      · exact hovertaken hr h₁
  | alone r₁ q₁ h₁ honly hready =>
      obtain rfl : r = r₁ := honly r q hlive
      obtain rfl : q = q₁ := Option.some.inj (hq.symm.trans h₁.1)
      rw [Ready, hphase] at hready
      refine .idle (fun r' q' hl => ?_) (swap_kept r hready)
      by_cases hne : r' = r
      · exact hgone q' (hne ▸ hl)
      · exact hne (honly r' q' ((hothers hne).mp hl))
  | idle hnone hkept => exact absurd hlive (hnone r q)

/-- A request that has swapped is gone. -/
theorem Course.notify (h : c.Course) (hq : c.requests r = some q) (hphase : q.phase = .swapped) :
    (c.setRequest r none).Course := by
  refine h.dead (fun q' hl => ?_) nofun
  obtain rfl : q = q' := Option.some.inj (hq.symm.trans hl.1)
  exact hl.2.1 hphase

/-! ### What holds of every request -/

theorem Sound.setRequest (h : c.Sound) {x : Option Request}
    (hx : ∀ q, x = some q → q.read ≤ c.swaps ∧ (q.phase ≠ .copied → q.put.Accepted)) :
    (c.setRequest r x).Sound := by
  have hcases : ∀ {r' q'}, (c.setRequest r x).requests r' = some q' →
      x = some q' ∨ c.requests r' = some q' := by
    intro r' q' hr'
    have hupdate : Function.update c.requests r x r' = some q' := hr'
    by_cases hr : r' = r
    · rw [hr, Function.update_self] at hupdate
      exact .inl hupdate
    · rw [Function.update_of_ne hr] at hupdate
      exact .inr hupdate
  constructor
  case read =>
    intro r' q' hr'
    rcases hcases hr' with hq | hq
    · exact (hx q' hq).1
    · exact h.read r' q' hq
  case accepted =>
    intro r' q' hr'
    rcases hcases hr' with hq | hq
    · exact (hx q' hq).2
    · exact h.accepted r' q' hq

theorem Sound.change (h : c.Sound) (hq : c.requests r = some q) : (c.change r q).Sound := by
  by_cases haccepted : q.put.Accepted
  · obtain ⟨arrays, opts, heq, -⟩ := c.change_accepted r haccepted
    have harrays : ({ c with arrays := arrays } : Config).Sound := ⟨h.read, h.accepted⟩
    rw [heq]
    refine harrays.setRequest fun q' hq' => ?_
    cases hq'
    exact ⟨h.read r q hq, fun _ => haccepted⟩
  · rw [c.change_refused r haccepted]
    exact h.setRequest nofun

theorem Sound.swap (h : c.Sound) (hq : c.requests r = some q) (hphase : q.phase = .changed) :
    (c.swap r q).Sound := by
  have hset : (c.setRequest r (some { q with phase := .swapped })).Sound := by
    refine h.setRequest fun q' hq' => ?_
    cases hq'
    exact ⟨h.read r q hq, fun _ => h.accepted r q hq (by rw [hphase]; nofun)⟩
  constructor
  case read =>
    intro r' q' hr'
    rw [swap_requests] at hr'
    rw [swap_swaps]
    exact Nat.le_succ_of_le (hset.read r' q' hr')
  case accepted =>
    intro r' q' hr'
    rw [swap_requests] at hr'
    exact hset.accepted r' q' hr'

end Config

/-! ### The peers of the loop -/

section Peers

variable {a : Surroundings σ} {w w' : σ} {l l' : LookupLoop} {lp lp' : LookupPeer}

theorem callback_addr (h : a.callback lp w = some (lp', w')) : lp'.addr = lp.addr := by
  rw [Surroundings.callback, connectCallback] at h
  split at h
  · cases h
  · cases h
    rfl
  · split at h
    · cases h
      rfl
    · obtain ⟨w₁, -, heq⟩ := Option.map_eq_some_iff.mp h
      cases heq
      rfl

theorem startConnect_addr {err : GoError}
    (h : startConnect a.daemons a.callback lp w = some (err, lp', w')) : lp'.addr = lp.addr := by
  rw [startConnect] at h
  split at h
  · cases h
    rfl
  · rw [LookupPeer.connect] at h
    cases hdial : a.daemons.dial w lp.addr with
    | mk err₁ w₁ =>
        rw [hdial] at h
        cases err₁ with
        | some err₁ =>
            cases h
            rfl
        | none =>
            obtain ⟨⟨lp₂, w₂⟩, hcall, heq⟩ := Option.map_eq_some_iff.mp h
            have haddr := callback_addr hcall
            have hlp : lp₂ = lp' := by
              split at heq
              · exact congrArg (fun r => r.2.1) heq
              · exact congrArg (fun r => r.2.1) heq
            rw [← hlp]
            exact haddr

theorem heartbeats_addr {req : PeerRequest} {lps lps' : List LookupPeer}
    (h : LookupLoop.heartbeats a.daemons a.callback req lps w = some (lps', w')) :
    lps'.map LookupPeer.addr = lps.map LookupPeer.addr := by
  induction lps generalizing w lps' with
  | nil =>
      cases h
      rfl
  | cons lp lps ih =>
      rw [LookupLoop.heartbeats] at h
      cases hstart : startConnect a.daemons a.callback lp w with
      | none =>
          rw [hstart] at h
          cases h
      | some r =>
          obtain ⟨err, lp₁, w₁⟩ := r
          have haddr := startConnect_addr hstart
          rw [hstart] at h
          cases err with
          | some err =>
              obtain ⟨r, hr, heq⟩ := Option.map_eq_some_iff.mp h
              cases heq
              rw [List.map_cons, List.map_cons, haddr, ih hr]
          | none =>
              simp only [] at h
              split at h
              · cases h
              · obtain ⟨r, hr, heq⟩ := Option.map_eq_some_iff.mp h
                cases heq
                rw [List.map_cons, List.map_cons, haddr, ih hr]

/-- The two lists of the loop go together, and no address is there twice. -/
structure Paired (l : LookupLoop) : Prop where
  addrs : l.lookupPeers.map LookupPeer.addr = l.lookupAddrs
  nodup : l.lookupAddrs.Nodup

theorem addPeers_paired {hosts : List String} (hl : Paired l)
    (h : LookupLoop.addPeers a.daemons a.callback hosts l w = some (l', w')) :
    Paired l' ∧ ∀ x, x ∈ l'.lookupAddrs ↔ x ∈ l.lookupAddrs ∨ x ∈ hosts := by
  induction hosts generalizing l w with
  | nil =>
      cases h
      exact ⟨hl, fun x => by simp⟩
  | cons host hosts ih =>
      rw [LookupLoop.addPeers] at h
      split at h
      case isTrue hmem =>
        obtain ⟨hpaired, hiff⟩ := ih hl h
        refine ⟨hpaired, fun x => (hiff x).trans ?_⟩
        rw [List.mem_cons]
        constructor
        · exact Or.imp_right Or.inr
        · rintro (hx | rfl | hx)
          · exact .inl hx
          · exact .inl hmem
          · exact .inr hx
      case isFalse hnew =>
        cases hstart : startConnect a.daemons a.callback (newLookupPeer host) w with
        | none =>
            rw [hstart] at h
            cases h
        | some r =>
            obtain ⟨err, lp, w₁⟩ := r
            have haddr : lp.addr = host := startConnect_addr hstart
            rw [hstart] at h
            have haddrs : (l.lookupPeers ++ [lp]).map LookupPeer.addr =
                l.lookupAddrs ++ [host] := by
              rw [List.map_append, List.map_singleton, haddr, hl.addrs]
            have hnodup : (l.lookupAddrs ++ [host]).Nodup :=
              List.Nodup.append hl.nodup (List.nodup_singleton host) fun x hx hx' =>
                hnew (List.mem_singleton.mp hx' ▸ hx)
            have hadded : Paired { l with
                lookupPeers := l.lookupPeers ++ [lp], lookupAddrs := l.lookupAddrs ++ [host] } :=
              ⟨haddrs, hnodup⟩
            obtain ⟨hpaired, hiff⟩ := ih hadded h
            refine ⟨hpaired, fun x => (hiff x).trans ?_⟩
            rw [List.mem_append, List.mem_singleton, List.mem_cons, or_assoc]

theorem keepPeers_paired (hl : Paired l) (addresses : List String) :
    Paired (l.keepPeers addresses) ∧ ∀ x ∈ (l.keepPeers addresses).lookupAddrs, x ∈ addresses := by
  refine ⟨⟨rfl, ?_⟩, fun x hx => ?_⟩
  · have hnodup := hl.nodup
    rw [← hl.addrs] at hnodup
    exact (List.filter_sublist.map _).nodup hnodup
  · obtain ⟨lp, hlp, rfl⟩ := List.mem_map.mp hx
    exact of_decide_eq_true (List.mem_filter.mp hlp).2

/-- What else wakes the loop leaves the addresses as they are. -/
theorem handle_paired (hl : Paired l) {opts : NodeOptions} {addresses : List String}
    {raftState : String}
    {wake : Wake} (hwake : wake ≠ .optsNotification)
    (h : LookupLoop.handle a.daemons a.callback opts addresses raftState wake l w = some (l', w')) :
    Paired l' ∧ l'.lookupAddrs = l.lookupAddrs ∧ l'.connect = l.connect := by
  cases wake with
  | tick =>
      obtain ⟨r, hr, heq⟩ := Option.map_eq_some_iff.mp h
      cases heq
      exact ⟨⟨(heartbeats_addr hr).trans hl.addrs, hl.nodup⟩, rfl, rfl⟩
  | notify val =>
      obtain ⟨w₁, -, heq⟩ := Option.map_eq_some_iff.mp h
      cases heq
      exact ⟨hl, rfl, rfl⟩
  | optsNotification => exact absurd rfl hwake

end Peers

/-! ### Following the options -/

/-- The peers are those of the options, or something is still under way that will make them so. -/
inductive Settling (s : State σ) : Prop where
  | request (r : ℕ) (q : Request) : s.config.requests r = some q → q.phase ≠ .copied → Settling s
  | notification : s.notification = true → Settling s
  | received : s.received = true → Settling s
  | kept : s.loop.connect = true → (∀ x ∈ s.loop.lookupAddrs, x ∈ s.config.addresses) → Settling s
  | done : (∀ x, x ∈ s.loop.lookupAddrs ↔ x ∈ s.config.addresses) → Settling s

section Steps

variable {s t : State σ}

/-- What a step does, and from where. -/
theorem requestIn_eq {c : Config} {r : ℕ} {phase : Phase} {q : Request}
    (h : c.requestIn r phase = some q) :
    c.requests r = some q ∧ q.phase = phase := by
  obtain ⟨hq, hphase⟩ := Option.filter_eq_some_iff.mp h
  exact ⟨hq, of_decide_eq_true hphase⟩

theorem copy_eq {c c' : Config} {r : ℕ} {put : Put} (h : c.copy r put = some c') :
    c.requests r = none ∧ c' = c.setRequest r (some ⟨put, c.opts, c.swaps, .copied⟩) := by
  rw [Config.copy] at h
  split at h
  case isTrue => cases h
  case isFalse hnone => exact ⟨Option.not_isSome_iff_eq_none.mp hnone, (Option.some.inj h).symm⟩

/-- A request that comes or goes without having changed anything. -/
theorem Settling.setRequest (h : Settling s) {r : ℕ} {x : Option Request}
    (hr : ∀ q, s.config.requests r = some q → q.phase = .copied) :
    Settling { s with config := s.config.setRequest r x } := by
  cases h with
  | request r₁ q₁ h₁ hphase =>
      have hne : r₁ ≠ r := fun heq => hphase (hr q₁ (heq ▸ h₁))
      have hkept : Function.update s.config.requests r x r₁ = some q₁ := by
        rw [Function.update_of_ne hne, h₁]
      exact .request r₁ q₁ hkept hphase
  | notification h => exact .notification h
  | received h => exact .received h
  | kept hconnect hsub => exact .kept hconnect hsub
  | done hiff => exact .done hiff

theorem Settling.change (h : Settling s) {r : ℕ} {q : Request} (hq : s.config.requests r = some q)
    (hphase : q.phase = .copied) : Settling { s with config := s.config.change r q } := by
  by_cases haccepted : q.put.Accepted
  · obtain ⟨arrays, opts, heq, -⟩ := s.config.change_accepted r haccepted
    rw [heq]
    exact .request r { q with opts := opts, phase := .changed } (Function.update_self _ _ _) nofun
  · rw [s.config.change_refused r haccepted]
    refine h.setRequest fun q' hq' => ?_
    obtain rfl : q = q' := Option.some.inj (hq.symm.trans hq')
    exact hphase

theorem Settling.connect (h : Settling s) {l : LookupLoop} {w : σ}
    (hreceived : s.received = false)
    (hadded : ∀ x, x ∈ l.lookupAddrs ↔ x ∈ s.loop.lookupAddrs ∨ x ∈ s.config.addresses) :
    Settling { s with loop := l, world := w } := by
  cases h with
  | request r q hq hphase => exact .request r q hq hphase
  | notification h => exact .notification h
  | received h =>
      rw [h] at hreceived
      cases hreceived
  | kept hconnect hsub =>
      refine .done fun x => (hadded x).trans ?_
      exact ⟨Or.rec (hsub x) (fun hx => hx), Or.inr⟩
  | done hiff =>
      refine .done fun x => (hadded x).trans ?_
      exact ⟨Or.rec (hiff x).mp (fun hx => hx), Or.inr⟩

theorem Settling.wake (h : Settling s) {l : LookupLoop} {w : σ}
    (haddrs : l.lookupAddrs = s.loop.lookupAddrs) (hconnect : l.connect = s.loop.connect) :
    Settling { s with loop := l, world := w } := by
  cases h with
  | request r q hq hphase => exact .request r q hq hphase
  | notification h => exact .notification h
  | received h => exact .received h
  | kept hc hsub => exact .kept (hconnect.trans hc) (haddrs ▸ hsub)
  | done hiff => exact .done (haddrs ▸ hiff)

/-- **One step**, whatever the requests do. -/
theorem step_follows {e : Event σ} (hpaired : Paired s.loop) (h : Settling s)
    (hstep : step s e = some t) :
    Paired t.loop ∧ Settling t := by
  cases e with
  | copy r put =>
      obtain ⟨c, hc, rfl⟩ := Option.map_eq_some_iff.mp hstep
      obtain ⟨hnone, rfl⟩ := copy_eq hc
      refine ⟨hpaired, h.setRequest fun q hq => ?_⟩
      rw [hnone] at hq
      cases hq
  | change r =>
      obtain ⟨q, hq, rfl⟩ := Option.map_eq_some_iff.mp hstep
      obtain ⟨hq, hphase⟩ := requestIn_eq hq
      exact ⟨hpaired, h.change hq hphase⟩
  | swap r =>
      obtain ⟨q, hq, rfl⟩ := Option.map_eq_some_iff.mp hstep
      refine ⟨hpaired, .request r { q with phase := .swapped } ?_ nofun⟩
      show (s.config.swap r q).requests r = _
      rw [Config.swap_requests, Function.update_self]
  | notify r =>
      obtain ⟨q, hq, rfl⟩ := Option.map_eq_some_iff.mp hstep
      exact ⟨hpaired, .notification rfl⟩
  | receive =>
      rw [step] at hstep
      split at hstep
      · cases hstep
        exact ⟨hpaired, .received rfl⟩
      · cases hstep
  | keep =>
      rw [step] at hstep
      split at hstep
      · cases hstep
        obtain ⟨hkept, hsub⟩ := keepPeers_paired hpaired s.config.addresses
        exact ⟨hkept, .kept rfl hsub⟩
      · cases hstep
  | connect a =>
      rw [step] at hstep
      split at hstep
      case isTrue hwhen =>
        obtain ⟨⟨l, w⟩, htop, rfl⟩ := Option.map_eq_some_iff.mp hstep
        rw [LookupLoop.top, if_pos hwhen.2] at htop
        obtain ⟨⟨l₁, w₁⟩, hadd, heq⟩ := Option.map_eq_some_iff.mp htop
        cases heq
        obtain ⟨hadded, hiff⟩ := addPeers_paired hpaired hadd
        exact ⟨⟨hadded.addrs, hadded.nodup⟩, h.connect hwhen.1 hiff⟩
      case isFalse => cases hstep
  | wake a wake =>
      have hwake : wake ≠ .optsNotification := by
        rintro rfl
        cases hstep
      have hhandle : ∃ l w, LookupLoop.handle a.daemons a.callback a.opts s.config.addresses a.raftState
          wake s.loop s.world = some (l, w) ∧ t = { s with loop := l, world := w } := by
        rw [step] at hstep
        · split at hstep
          · obtain ⟨⟨l, w⟩, hhandle, rfl⟩ := Option.map_eq_some_iff.mp hstep
            exact ⟨l, w, hhandle, rfl⟩
          · cases hstep
        · exact fun heq => hwake heq
      obtain ⟨l, w, hhandle, rfl⟩ := hhandle
      obtain ⟨hl, haddrs, hconnect⟩ := handle_paired hpaired hwake hhandle
      exact ⟨hl, h.wake haddrs hconnect⟩

/-- **One step** of which a swap finds the options that its request read. -/
theorem step_course {e : Event σ} (hsound : s.config.Sound) (h : s.config.Course)
    (hunchanged : Unchanged s e) (hstep : step s e = some t) :
    t.config.Sound ∧ t.config.Course := by
  cases e with
  | copy r put =>
      obtain ⟨c, hc, rfl⟩ := Option.map_eq_some_iff.mp hstep
      obtain ⟨hnone, rfl⟩ := copy_eq hc
      refine ⟨hsound.setRequest fun q hq => ?_, h.copy hnone put⟩
      cases hq
      exact ⟨Nat.le_refl _, fun hphase => absurd rfl hphase⟩
  | change r =>
      obtain ⟨q, hq, rfl⟩ := Option.map_eq_some_iff.mp hstep
      obtain ⟨hq, hphase⟩ := requestIn_eq hq
      exact ⟨hsound.change hq, h.change hq hphase⟩
  | swap r =>
      obtain ⟨q, hq, rfl⟩ := Option.map_eq_some_iff.mp hstep
      obtain ⟨hq, hphase⟩ := requestIn_eq hq
      exact ⟨hsound.swap hq hphase, h.swap hsound hq hphase (hunchanged q hq)⟩
  | notify r =>
      obtain ⟨q, hq, rfl⟩ := Option.map_eq_some_iff.mp hstep
      obtain ⟨hq, hphase⟩ := requestIn_eq hq
      exact ⟨hsound.setRequest nofun, h.notify hq hphase⟩
  | receive =>
      rw [step] at hstep
      split at hstep
      · cases hstep
        exact ⟨hsound, h⟩
      · cases hstep
  | keep =>
      rw [step] at hstep
      split at hstep
      · cases hstep
        exact ⟨hsound, h⟩
      · cases hstep
  | connect a =>
      rw [step] at hstep
      split at hstep
      · obtain ⟨r, -, rfl⟩ := Option.map_eq_some_iff.mp hstep
        exact ⟨hsound, h⟩
      · cases hstep
  | wake a wake =>
      have hconfig : t.config = s.config := by
        cases wake with
        | optsNotification => cases hstep
        | tick =>
            rw [step] at hstep
            · split at hstep
              · obtain ⟨r, -, rfl⟩ := Option.map_eq_some_iff.mp hstep
                rfl
              · cases hstep
            · nofun
        | notify val =>
            rw [step] at hstep
            · split at hstep
              · obtain ⟨r, -, rfl⟩ := Option.map_eq_some_iff.mp hstep
                rfl
              · cases hstep
            · nofun
      rw [hconfig]
      exact ⟨hsound, h⟩

end Steps

/-! ### Runs -/

/-- The peers of the loop have the addresses of the options, each once. -/
def State.Followed (s : State σ) : Prop :=
  (s.loop.lookupPeers.map LookupPeer.addr).Nodup ∧
    ∀ x, x ∈ s.loop.lookupPeers.map LookupPeer.addr ↔ x ∈ s.config.addresses

/-- **Options at run time.** In a run of which every swap finds the options that its request read,
each option has at the end, when no request is under way, the value that was swapped in last; and
when no notification is pending either and the loop waits, it has exactly the peers of the options.
-/
theorem options_kept (arrays : Arrays) (opts : Options) (world : σ) (events : List (Event σ))
    {s : State σ} (hrun : Runs.run step (State.start arrays opts world) events = some s)
    (hunchanged : Runs.Along step Unchanged (State.start arrays opts world) events) :
    (s.Quiet → s.config.Kept) ∧
      (s.Quiet → s.notification = false → s.Waiting → s.Followed) := by
  have hcourse : s.config.Sound ∧ s.config.Course := by
    refine Runs.invariant_along (I := fun s : State σ => s.config.Sound ∧ s.config.Course)
      (fun s e t hs hgood hstep => step_course hs.1 hs.2 hgood hstep) events _ s ?_ hunchanged hrun
    exact ⟨⟨nofun, nofun⟩, .idle (fun r q hl => nomatch hl.1) ⟨rfl, rfl⟩⟩
  have hfollows : Paired s.loop ∧ Settling s := by
    refine Runs.invariant_run (I := fun s : State σ => Paired s.loop ∧ Settling s)
      (fun s e t hs hstep => step_follows hs.1 hs.2 hstep) events _ s ?_ hrun
    exact ⟨⟨rfl, List.nodup_nil⟩, .kept rfl nofun⟩
  have hquiet : s.Quiet → ∀ r q, s.config.requests r ≠ some q := by
    intro h r q hq
    rw [h r] at hq
    cases hq
  refine ⟨fun h => ?_, fun h hnotification hwaiting => ?_⟩
  · cases hcourse.2 with
    | overtaken r q hl => exact absurd hl.1 (hquiet h r q)
    | racing r r' q q' hne hl => exact absurd hl.1 (hquiet h r q)
    | alone r q hl => exact absurd hl.1 (hquiet h r q)
    | idle hnone hkept => exact hkept
  · rw [State.Followed, hfollows.1.addrs]
    refine ⟨hfollows.1.nodup, ?_⟩
    cases hfollows.2 with
    | request r q hq => exact absurd hq (hquiet h r q)
    | notification hset => exact absurd hset (Bool.eq_false_iff.mp hnotification)
    | received hset => exact absurd hset (Bool.eq_false_iff.mp hwaiting.1)
    | kept hset => exact absurd hset (Bool.eq_false_iff.mp hwaiting.2)
    | done hiff => exact hiff

/-- Daemons that cannot be reached. -/
def unreachable : Surroundings Unit where
  daemons :=
    { dial := fun _ _ => (some "connection refused", ())
      identify := fun _ _ _ => (.error "", ())
      register := fun _ _ _ => (.error "", ())
      unregister := fun _ _ _ => (.error "", ())
      ping := fun _ _ _ => (.error "", ()) }
  opts := ⟨"", "", 0, 0, "", ""⟩
  commands := fun _ => []
  raftState := ""

/-- A node with no addresses. -/
def bare : State Unit := .start ⟨fun _ => [], 1⟩ ⟨⟨0, 0⟩, "info"⟩ ()

/-- One request after another, and then the loop. -/
def oneByOne : List (Event Unit) :=
  [.connect unreachable, .copy 0 (.xmqLookupdGrpcAddresses ["a:5155", "a:5155", "b:5155"] 1),
    .change 0,
    .swap 0, .notify 0, .copy 1 (.logLevel "debug"), .change 1, .swap 1, .notify 1, .receive, .keep,
    .connect unreachable]

theorem oneByOne_runs : (Runs.run step bare oneByOne).isSome := by decide

/-- The node after these steps. -/
def configured : State Unit := (Runs.run step bare oneByOne).get oneByOne_runs

theorem configured_quiet : configured.Quiet := by
  intro r
  rcases r with _ | _ | r <;> rfl

theorem options_kept_oneByOne :
    configured.config.addresses = ["a:5155", "a:5155", "b:5155"] ∧ configured.config.Kept ∧
      configured.Followed := by
  have hkept := options_kept ⟨fun _ => [], 1⟩ ⟨⟨0, 0⟩, "info"⟩ () oneByOne
    (Option.some_get oneByOne_runs).symm
    (by
      refine ⟨trivial, trivial, trivial, ?_, trivial, trivial, trivial, ?_, trivial, trivial,
        trivial,
        trivial, trivial⟩
      · rintro q ⟨⟩
        rfl
      · rintro q ⟨⟩
        rfl)
  exact ⟨by decide, hkept.1 configured_quiet, hkept.2 configured_quiet rfl ⟨rfl, rfl⟩⟩

/-- Two requests that read before either swaps. -/
def overlapping : List (Event Unit) :=
  [.copy 0 (.xmqLookupdGrpcAddresses ["a:5155"] 0), .copy 1 (.logLevel "debug"), .change 0,
    .change 1,
    .swap 0, .swap 1, .notify 0, .notify 1]

/-- The addresses that were swapped in are lost with the next swap. -/
theorem addresses_lost :
    ∃ s, Runs.run step bare overlapping = some s ∧ s.Quiet ∧ ¬ s.config.Kept := by
  refine ⟨_, rfl, fun r => ?_, fun h => ?_⟩
  · rcases r with _ | _ | r <;> rfl
  · have hnil : ([] : List String) = ["a:5155"] := h.1
    cases hnil

end Xmq.RuntimeOptions
