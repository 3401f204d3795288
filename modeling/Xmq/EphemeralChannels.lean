import Mathlib.Data.Finset.Erase
import Mathlib.Data.Finset.Insert
import Mathlib.Logic.Function.Basic
import Xmq.ClusterModel
import Xmq.Runs

/-!
# Ephemeral channels that are left

When the last client leaves an ephemeral channel, a goroutine is started that deletes it, by name,
and looks at nothing else. Meanwhile other clients subscribe. This module runs any number of clients
against these deletions, on one topic of a node that leads.

* A client takes the steps of `SUB` (`GetChannel`, `AddClient`, the check of the exit flag, the
  answer), and leaves with `RemoveClient`. Reading `Topic.Channels` again without the lock, as
  `GetChannel` does, is a step of its own.
* The lock of a channel makes `AddClient` and `RemoveClient` steps against `Channel.exit`. Whether
  the limit of consumers lets a client in is open.
* An applied deletion holds the lock of the topic from `Channel.Delete` until the name is gone.
  After it `DeleteExistingChannel` unlocks a lock that it does not hold, where the process may end.
-/

namespace Xmq.Ephemeral

open Runs
open Cluster (isEphemeral)

abbrev ChannelPtr := ℕ

/-! ### The topic, its clients and the deletions -/

/-- `deleter` says whether the `sync.Once` has been used. -/
structure Channel where
  name : String
  ephemeral : Bool
  exitFlag : Bool
  clients : Finset ℕ
  deleter : Bool

/-- What `ClusterNewChannel` sets up. -/
def newChannel (name : String) : Channel := ⟨name, isEphemeral name, false, ∅, false⟩

/-- Where the `SUB` of a client is, in the attempt `i` of its loop: before it looks for the channel,
with its creation submitted, before it reads the map again, with a channel that it has got, that it
is added to, and that has passed the check; then answered with OK or with an error, or left. -/
inductive PC where
  | look (i : ℕ)
  | create (i : ℕ)
  | read (i : ℕ)
  | got (p : ChannelPtr) (i : ℕ)
  | added (p : ChannelPtr) (i : ℕ)
  | passed (p : ChannelPtr)
  | subscribed (p : ChannelPtr)
  | failed
  | left
  deriving DecidableEq

structure Client where
  channelName : String
  pc : PC
  deriving DecidableEq

/-- Where a deletion is: submitted, in `Channel.Delete` behind the pointer, out of the map, or
over. -/
inductive DeletionPC where
  | submitted
  | deleting (p : ChannelPtr)
  | deleted
  | over
  deriving DecidableEq

structure Deletion where
  channelName : String
  pc : DeletionPC
  deriving DecidableEq

def Deletion.isDeleting (d : Deletion) : Bool :=
  match d.pc with
  | .deleting _ => true
  | _ => false

structure State where
  channels : GoMap String ChannelPtr
  channel : ChannelPtr → Channel
  next : ChannelPtr
  clients : List Client
  deletions : List Deletion
  crashed : Bool

/-- A topic without channels. -/
def init : State := ⟨∅, fun _ => newChannel "", 0, [], [], false⟩

inductive Act where
  | sub (channelName : String)
  | look (k : ℕ)
  | create (k : ℕ) (accepted : Bool)
  | read (k : ℕ)
  | add (k : ℕ) (room : Bool)
  | check (k : ℕ)
  | answer (k : ℕ)
  | leave (k : ℕ)
  | newChannel (name : String)
  | delete (j : ℕ) (accepted : Bool)
  | erase (j : ℕ)
  | unlock (j : ℕ) (crash : Bool)

namespace State

/-- The lock of the topic is held by an applied deletion. -/
def Locked (s : State) : Prop := ∃ d ∈ s.deletions, ∃ p, d.pc = .deleting p

instance (s : State) : Decidable s.Locked :=
  decidable_of_iff (s.deletions.any Deletion.isDeleting = true) (by
    rw [List.any_eq_true, Locked]
    refine exists_congr fun d => and_congr_right fun _ => ?_
    obtain ⟨name, pc⟩ := d
    cases pc <;> simp [Deletion.isDeleting])

def setPC (s : State) (k : ℕ) (c : Client) (pc : PC) : State :=
  { s with clients := s.clients.set k { c with pc := pc } }

def setDeletion (s : State) (j : ℕ) (d : Deletion) (pc : DeletionPC) : State :=
  { s with deletions := s.deletions.set j { d with pc := pc } }

def setChannel (s : State) (p : ChannelPtr) (c : Channel) : State :=
  { s with channel := Function.update s.channel p c }

/-- `ClusterNewChannel`, whether or not the topic has the channel. -/
def storeChannel (s : State) (name : String) : State :=
  { s.setChannel s.next (newChannel name) with
    channels := s.channels.insert name s.next
    next := s.next + 1 }

/-- `RemoveClient`; the last client of an ephemeral channel starts its deletion, once. -/
def removeClient (s : State) (k : ℕ) (p : ChannelPtr) : State :=
  let c := s.channel p
  if c.exitFlag ∨ k ∉ c.clients then s
  else
    let clients := c.clients.erase k
    if clients = ∅ ∧ c.ephemeral ∧ c.deleter = false then
      { s.setChannel p { c with clients := clients, deleter := true } with
        deletions := s.deletions ++ [⟨c.name, .submitted⟩] }
    else s.setChannel p { c with clients := clients }

/-- The next step of a client, where it is `c`. -/
def clientStep (s : State) (k : ℕ) (c : Client) : Act → Option State
  | .look _ =>
    match c.pc with
    | .look i =>
      if s.Locked then none
      else some
        (s.setPC k c (if (s.channels.lookup c.channelName).isSome then .read i else .create i))
    | _ => none
  | .create _ accepted =>
    match c.pc with
    | .create i =>
      -- a submission that is refused makes `GetChannel` return nil, which is dereferenced
      if accepted = false then some { s with crashed := true }
      else if s.Locked then none
      else some ((s.storeChannel c.channelName).setPC k c (.read i))
    | _ => none
  | .read _ =>
    match c.pc with
    | .read i =>
      match s.channels.lookup c.channelName with
      | some p => some (s.setPC k c (.got p i))
      | none => some { s with crashed := true }
    | _ => none
  | .add _ room =>
    match c.pc with
    | .got p i =>
      let o := s.channel p
      if o.exitFlag then some (s.setPC k c .failed)
      else if k ∈ o.clients then some (s.setPC k c (.added p i))
      else if room = false then some (s.setPC k c .failed)
      else some ((s.setChannel p { o with clients := insert k o.clients }).setPC k c (.added p i))
    | _ => none
  | .check _ =>
    match c.pc with
    | .added p i =>
      if (s.channel p).ephemeral ∧ (s.channel p).exitFlag then
        some ((s.removeClient k p).setPC k c (if i < 2 then .look (i + 1) else .failed))
      else some (s.setPC k c (.passed p))
    | _ => none
  | .answer _ =>
    match c.pc with
    | .passed p => some (s.setPC k c (.subscribed p))
    | _ => none
  | .leave _ =>
    match c.pc with
    | .subscribed p => some ((s.removeClient k p).setPC k c .left)
    | .failed => some (s.setPC k c .left)
    | _ => none
  | _ => none

/-- The next step of a deletion. -/
def deletionStep (s : State) (j : ℕ) (d : Deletion) : Act → Option State
  | .delete _ accepted =>
    match d.pc with
    | .submitted =>
      if accepted = false then some (s.setDeletion j d .over)
      else if s.Locked then none
      else
        match s.channels.lookup d.channelName with
        | none => some (s.setDeletion j d .deleted)
        | some p =>
          some ((s.setChannel p { s.channel p with exitFlag := true }).setDeletion j d
            (.deleting p))
    | _ => none
  | .erase _ =>
    match d.pc with
    | .deleting _ =>
      some ({ s with channels := s.channels.erase d.channelName }.setDeletion j d .deleted)
    | _ => none
  | .unlock _ crash =>
    match d.pc with
    | .deleted => some { s.setDeletion j d .over with crashed := crash }
    | _ => none
  | _ => none

end State

/-- A step of the node; there is none once the process has ended. -/
def step (s : State) (a : Act) : Option State :=
  if s.crashed then none
  else
    match a with
    | .sub channelName => some { s with clients := s.clients ++ [⟨channelName, .look 1⟩] }
    | .newChannel name => if s.Locked then none else some (s.storeChannel name)
    | .look k | .create k _ | .read k | .add k _ | .check k | .answer k | .leave k =>
      (s.clients[k]?).bind fun c => s.clientStep k c a
    | .delete j _ | .erase j | .unlock j _ => (s.deletions[j]?).bind fun d => s.deletionStep j d a

/-- What a step of a client finds, and the state it leaves. -/
inductive Move (s : State) (k : ℕ) (c : Client) : Act → State → Prop where
  | look (i k' : ℕ) (hpc : c.pc = .look i) (hlocked : ¬ s.Locked) :
    Move s k c (.look k')
      (s.setPC k c (if (s.channels.lookup c.channelName).isSome then .read i else .create i))
  | refused (i k' : ℕ) (hpc : c.pc = .create i) :
    Move s k c (.create k' false) { s with crashed := true }
  | create (i k' : ℕ) (hpc : c.pc = .create i) (hlocked : ¬ s.Locked) :
    Move s k c (.create k' true) ((s.storeChannel c.channelName).setPC k c (.read i))
  | read (i k' : ℕ) (p : ChannelPtr) (hpc : c.pc = .read i)
    (hp : s.channels.lookup c.channelName = some p) :
    Move s k c (.read k') (s.setPC k c (.got p i))
  | gone (i k' : ℕ) (hpc : c.pc = .read i) (hp : s.channels.lookup c.channelName = none) :
    Move s k c (.read k') { s with crashed := true }
  | turnedAway (p : ChannelPtr) (i k' : ℕ) (room : Bool) (hpc : c.pc = .got p i)
    (hno : (s.channel p).exitFlag = true ∨ k ∉ (s.channel p).clients ∧ room = false) :
    Move s k c (.add k' room) (s.setPC k c .failed)
  | again (p : ChannelPtr) (i k' : ℕ) (room : Bool) (hpc : c.pc = .got p i)
    (hflag : (s.channel p).exitFlag = false) (hin : k ∈ (s.channel p).clients) :
    Move s k c (.add k' room) (s.setPC k c (.added p i))
  | join (p : ChannelPtr) (i k' : ℕ) (hpc : c.pc = .got p i)
    (hflag : (s.channel p).exitFlag = false) (hout : k ∉ (s.channel p).clients) :
    Move s k c (.add k' true)
      ((s.setChannel p { s.channel p with clients := insert k (s.channel p).clients }).setPC
        k c (.added p i))
  | retry (p : ChannelPtr) (i k' : ℕ) (hpc : c.pc = .added p i)
    (hexit : (s.channel p).ephemeral = true ∧ (s.channel p).exitFlag = true) :
    Move s k c (.check k')
      ((s.removeClient k p).setPC k c (if i < 2 then .look (i + 1) else .failed))
  | pass (p : ChannelPtr) (i k' : ℕ) (hpc : c.pc = .added p i)
    (hexit : ¬ ((s.channel p).ephemeral = true ∧ (s.channel p).exitFlag = true)) :
    Move s k c (.check k') (s.setPC k c (.passed p))
  | answer (p : ChannelPtr) (k' : ℕ) (hpc : c.pc = .passed p) :
    Move s k c (.answer k') (s.setPC k c (.subscribed p))
  | leave (p : ChannelPtr) (k' : ℕ) (hpc : c.pc = .subscribed p) :
    Move s k c (.leave k') ((s.removeClient k p).setPC k c .left)
  | leaveFailed (k' : ℕ) (hpc : c.pc = .failed) : Move s k c (.leave k') (s.setPC k c .left)

/-- Every step of a client is one of these. -/
theorem clientStep_move {s s' : State} {k : ℕ} {c : Client} {a : Act}
    (hs : s.clientStep k c a = some s') : Move s k c a s' := by
  unfold State.clientStep at hs
  split at hs
  · split at hs
    · rename_i i hpc
      obtain ⟨hlocked, hs⟩ := Option.ite_none_left_eq_some.mp hs
      cases hs
      exact .look i _ hpc hlocked
    · cases hs
  · split at hs
    · rename_i accepted _ i hpc
      cases accepted with
      | false =>
          cases hs
          exact .refused i _ hpc
      | true =>
          rw [if_neg nofun] at hs
          obtain ⟨hlocked, hs⟩ := Option.ite_none_left_eq_some.mp hs
          cases hs
          exact .create i _ hpc hlocked
    · cases hs
  · split at hs
    · rename_i i hpc
      split at hs
      · rename_i p hp
        cases hs
        exact .read i _ p hpc hp
      · rename_i hp
        cases hs
        exact .gone i _ hpc hp
    · cases hs
  · split at hs
    · rename_i room _ p i hpc
      dsimp only at hs
      split at hs
      · rename_i hflag
        cases hs
        exact .turnedAway p i _ room hpc (.inl hflag)
      · rename_i hflag
        rw [Bool.not_eq_true] at hflag
        split at hs
        · rename_i hin
          cases hs
          exact .again p i _ room hpc hflag hin
        · rename_i hout
          cases room with
          | false =>
              cases hs
              exact .turnedAway p i _ false hpc (.inr ⟨hout, rfl⟩)
          | true =>
              cases hs
              exact .join p i _ hpc hflag hout
    · cases hs
  · split at hs
    · rename_i p i hpc
      split at hs
      · rename_i hexit
        cases hs
        exact .retry p i _ hpc hexit
      · rename_i hexit
        cases hs
        exact .pass p i _ hpc hexit
    · cases hs
  · split at hs
    · rename_i p hpc
      cases hs
      exact .answer p _ hpc
    · cases hs
  · split at hs
    · rename_i p hpc
      cases hs
      exact .leave p _ hpc
    · rename_i hpc
      cases hs
      exact .leaveFailed _ hpc
    · cases hs
  · cases hs

/-! ### What a subscriber can rely on -/

/-- A deletion deletes no channel with a client in its map that was answered OK and has not left. -/
def Spared (s : State) (a : Act) : Prop :=
  ∀ (j : ℕ) (d : Deletion) (p : ChannelPtr), a = .delete j true → s.deletions[j]? = some d →
    d.pc = .submitted →
    s.channels.lookup d.channelName = some p →
      ∀ (k : ℕ) (c : Client), s.clients[k]? = some c → c.pc = .subscribed p →
        k ∉ (s.channel p).clients

/-- Every client that was answered OK and has not left is in the map of the channel that the topic
has under its name. -/
def Attached (s : State) : Prop :=
  ∀ (k : ℕ) (c : Client) (p : ChannelPtr), s.clients[k]? = some c → c.pc = .subscribed p →
    k ∈ (s.channel p).clients ∧ s.channels.lookup (s.channel p).name = some p

/-- **The subscribers are left alone** by an act. -/
def Kept (s : State) (a : Act) : Prop := Spared s a ∧ ∀ s' ∈ step s a, Attached s'

/-- A deletion of this name is submitted, and has not been applied. -/
def Outstanding (s : State) (name : String) : Prop :=
  ∃ d ∈ s.deletions, d.pc = .submitted ∧ d.channelName = name

/-- The client has a pointer to the channel. -/
def PC.Holds (p : ChannelPtr) : PC → Prop
  | .got q _ => q = p
  | .added q _ => q = p
  | .passed q => q = p
  | .subscribed q => q = p
  | _ => False

/-- The channel that the client has just been added to. -/
def PC.addedTo : PC → Option ChannelPtr
  | .added p _ => some p
  | _ => none

/-- Nobody has a pointer to the channel of this name, if there is one. -/
def Free (s : State) (name : String) : Prop :=
  ∀ p ∈ s.channels.lookup name, ∀ c ∈ s.clients, ¬ c.pc.Holds p

/-- The condition for an act: no client passes the check while a deletion of its channel is
outstanding, and no channel is replaced that somebody has a pointer to. -/
def Careful (s : State) : Act → Prop
  | .check k => ∀ c ∈ s.clients[k]?, ∀ p ∈ c.pc.addedTo, (s.channel p).exitFlag = false →
      ¬ Outstanding s (s.channel p).name
  | .create k true => ∀ c ∈ s.clients[k]?, Free s c.channelName
  | .newChannel name => Free s name
  | _ => True

instance (s : State) (name : String) : Decidable (Outstanding s name) :=
  inferInstanceAs (Decidable (∃ d ∈ s.deletions, d.pc = .submitted ∧ d.channelName = name))

instance (p : ChannelPtr) : ∀ pc : PC, Decidable (pc.Holds p)
  | .got q _ | .added q _ | .passed q | .subscribed q => inferInstanceAs (Decidable (q = p))
  | .look _ | .create _ | .read _ | .failed | .left => inferInstanceAs (Decidable False)

instance (s : State) (name : String) : Decidable (Free s name) :=
  inferInstanceAs (Decidable (∀ p ∈ s.channels.lookup name, ∀ c ∈ s.clients, ¬ c.pc.Holds p))

instance (s : State) : ∀ a, Decidable (Careful s a)
  | .check k => inferInstanceAs (Decidable (∀ c ∈ s.clients[k]?, ∀ p ∈ c.pc.addedTo,
      (s.channel p).exitFlag = false → ¬ Outstanding s (s.channel p).name))
  | .create k true => inferInstanceAs (Decidable (∀ c ∈ s.clients[k]?, Free s c.channelName))
  | .newChannel name => inferInstanceAs (Decidable (Free s name))
  | .create _ false | .sub _ | .look _ | .read _ | .add _ _ | .answer _ | .leave _ | .delete _ _
  | .erase _ | .unlock _ _ => inferInstanceAs (Decidable True)

/-! ### The invariant -/

/-- The client has been added to the map of the channel. -/
def PC.Member (p : ChannelPtr) : PC → Prop
  | .added q _ => q = p
  | .passed q => q = p
  | .subscribed q => q = p
  | _ => False

/-- The client has passed the check. -/
def PC.Settled (p : ChannelPtr) : PC → Prop
  | .passed q => q = p
  | .subscribed q => q = p
  | _ => False

/-- A channel that is held and not exiting is the one of its name; settled clients are in the map of
a channel that is not exiting and that no outstanding deletion means. -/
structure Inv (s : State) : Prop where
  named : ∀ n p, s.channels.lookup n = some p → (s.channel p).name = n ∧ p < s.next
  ephemeral : ∀ p, (s.channel p).ephemeral = isEphemeral (s.channel p).name
  exited : ∀ p, (s.channel p).exitFlag = true → (s.channel p).ephemeral = true
  held : ∀ (k : ℕ) (c : Client) (p : ChannelPtr), s.clients[k]? = some c → c.pc.Holds p →
    p < s.next ∧
    ((s.channel p).exitFlag = false → s.channels.lookup (s.channel p).name = some p)
  member : ∀ (k : ℕ) (c : Client) (p : ChannelPtr), s.clients[k]? = some c → c.pc.Member p →
    k ∈ (s.channel p).clients
  settled : ∀ (k : ℕ) (c : Client) (p : ChannelPtr), s.clients[k]? = some c → c.pc.Settled p →
    (s.channel p).exitFlag = false ∧ ¬ Outstanding s (s.channel p).name
  submitted : ∀ d ∈ s.deletions, d.pc = .submitted → isEphemeral d.channelName = true
  deleting : ∀ d ∈ s.deletions, ∀ q, d.pc = .deleting q →
    ∀ p, s.channels.lookup d.channelName = some p → (s.channel p).exitFlag = true

section Invariant

variable {s s' : State} {k j : ℕ} {c : Client} {d : Deletion} {pc : PC} {p : ChannelPtr}

theorem PC.Settled.member (h : pc.Settled p) : pc.Member p := by
  cases pc <;> first | exact h | exact h.elim

theorem PC.Member.holds (h : pc.Member p) : pc.Holds p := by
  cases pc <;> first | exact h | exact h.elim

/-- The entries of a list with one entry replaced. -/
theorem getElem?_set_cases {α : Type} {l : List α} {a b : α} (h : (l.set k a)[j]? = some b) :
    j = k ∧ b = a ∨ j ≠ k ∧ l[j]? = some b := by
  by_cases hjk : j = k
  · subst hjk
    have hlt : j < l.length := by
      have := (List.getElem?_eq_some_iff.mp h).1
      rwa [List.length_set] at this
    rw [List.getElem?_set_self hlt] at h
    exact .inl ⟨rfl, (Option.some.inj h).symm⟩
  · rw [List.getElem?_set_ne (Ne.symm hjk)] at h
    exact .inr ⟨hjk, h⟩

theorem mem_set_cases {α : Type} {l : List α} {a b : α} (h : b ∈ l.set k a) : b = a ∨ b ∈ l := by
  rcases List.mem_or_eq_of_mem_set h with h | h
  · exact .inr h
  · exact .inl h

/-- A client goes on. -/
theorem Inv.setPC (h : Inv s) (pc : PC)
    (hheld : ∀ p, pc.Holds p → p < s.next ∧
      ((s.channel p).exitFlag = false → s.channels.lookup (s.channel p).name = some p))
    (hmember : ∀ p, pc.Member p → k ∈ (s.channel p).clients)
    (hsettled : ∀ p, pc.Settled p →
      (s.channel p).exitFlag = false ∧ ¬ Outstanding s (s.channel p).name) :
    Inv (s.setPC k c pc) where
  named := h.named
  ephemeral := h.ephemeral
  exited := h.exited
  held j e p he hp := by
    rcases getElem?_set_cases he with ⟨rfl, rfl⟩ | ⟨-, he⟩
    · exact hheld p hp
    · exact h.held j e p he hp
  member j e p he hp := by
    rcases getElem?_set_cases he with ⟨rfl, rfl⟩ | ⟨-, he⟩
    · exact hmember p hp
    · exact h.member j e p he hp
  settled j e p he hp := by
    rcases getElem?_set_cases he with ⟨rfl, rfl⟩ | ⟨-, he⟩
    · exact hsettled p hp
    · exact h.settled j e p he hp
  submitted := h.submitted
  deleting := h.deleting

/-- A client that lets go of its channel. -/
theorem Inv.letGo (h : Inv s) (hpc : ∀ p, ¬ pc.Holds p) : Inv (s.setPC k c pc) :=
  h.setPC pc (fun p hp => absurd hp (hpc p)) (fun p hp => absurd hp.holds (hpc p))
    fun p hp => absurd hp.member.holds (hpc p)

/-- A channel changes its map of clients, and keeps those that have been added to it. -/
theorem Inv.setClients (h : Inv s) {o : Channel} (hname : o.name = (s.channel p).name)
    (heph : o.ephemeral = (s.channel p).ephemeral) (hexit : o.exitFlag = (s.channel p).exitFlag)
    (hmember : ∀ (k : ℕ) (c : Client), s.clients[k]? = some c → c.pc.Member p → k ∈ o.clients) :
    Inv (s.setChannel p o) := by
  have hsame : ∀ q, ((s.setChannel p o).channel q).name = (s.channel q).name ∧
      ((s.setChannel p o).channel q).ephemeral = (s.channel q).ephemeral ∧
      ((s.setChannel p o).channel q).exitFlag = (s.channel q).exitFlag := by
    intro q
    by_cases hq : q = p
    · subst hq
      simpa [State.setChannel] using ⟨hname, heph, hexit⟩
    · simp [State.setChannel, hq]
  constructor
  · intro n q hq
    rw [(hsame q).1]
    exact h.named n q hq
  · intro q
    rw [(hsame q).1, (hsame q).2.1]
    exact h.ephemeral q
  · intro q
    rw [(hsame q).2.1, (hsame q).2.2]
    exact h.exited q
  · intro k c q hc hq
    rw [(hsame q).1, (hsame q).2.2]
    exact h.held k c q hc hq
  · intro k c q hc hq
    by_cases hqp : q = p
    · subst hqp
      simpa [State.setChannel] using hmember k c hc hq
    · simpa [State.setChannel, hqp] using h.member k c q hc hq
  · intro k c q hc hq
    rw [(hsame q).1, (hsame q).2.2]
    exact h.settled k c q hc hq
  · exact h.submitted
  · intro d hd q hpc r hr
    rw [(hsame r).2.2]
    exact h.deleting d hd q hpc r hr

/-- A deletion of a name that no settled client has is submitted. -/
theorem Inv.submit (h : Inv s) {name : String} (heph : isEphemeral name = true)
    (hfree : ∀ (k : ℕ) (c : Client) (p : ChannelPtr), s.clients[k]? = some c → c.pc.Settled p →
      (s.channel p).name ≠ name) :
    Inv { s with deletions := s.deletions ++ [⟨name, .submitted⟩] } where
  named := h.named
  ephemeral := h.ephemeral
  exited := h.exited
  held := h.held
  member := h.member
  settled k c p hc hp := by
    refine ⟨(h.settled k c p hc hp).1, ?_⟩
    rintro ⟨d, hd, hpc, hname⟩
    rcases List.mem_append.mp hd with hd | hd
    · exact (h.settled k c p hc hp).2 ⟨d, hd, hpc, hname⟩
    · rw [List.mem_singleton.mp hd] at hname
      exact hfree k c p hc hp hname.symm
  submitted d hd hpc := by
    rcases List.mem_append.mp hd with hd | hd
    · exact h.submitted d hd hpc
    · rw [List.mem_singleton.mp hd]
      exact heph
  deleting d hd q hpc := by
    rcases List.mem_append.mp hd with hd | hd
    · exact h.deleting d hd q hpc
    · rw [List.mem_singleton.mp hd] at hpc
      cases hpc

/-- The same channel, where both are held and not exiting. -/
theorem Inv.same_of_name (h : Inv s) {q : ChannelPtr} {e : Client} (hc : s.clients[k]? = some c)
    (hp : c.pc.Settled p) (he : s.clients[j]? = some e) (hq : e.pc.Settled q)
    (hname : (s.channel q).name = (s.channel p).name) : q = p := by
  have hcur := (h.held k c p hc hp.member.holds).2 (h.settled k c p hc hp).1
  have hcur' := (h.held j e q he hq.member.holds).2 (h.settled j e q he hq).1
  rw [hname, hcur] at hcur'
  exact (Option.some.inj hcur').symm

/-- **A subscriber leaves.** -/
theorem Inv.leave (h : Inv s) (hc : s.clients[k]? = some c) (hp : c.pc.Settled p) :
    Inv ((s.removeClient k p).setPC k c .left) := by
  have hflag := (h.settled k c p hc hp).1
  have hmem := h.member k c p hc hp.member
  -- the client lets go first: the map and the deletions do not see the order
  have hgo : Inv (s.setPC k c .left) := h.letGo nofun
  have hothers : ∀ (j : ℕ) (e : Client), (s.setPC k c .left).clients[j]? = some e → e.pc.Member p →
      j ∈ (s.channel p).clients.erase k := by
    intro j e he hq
    rcases getElem?_set_cases he with ⟨rfl, rfl⟩ | ⟨hjk, he⟩
    · exact hq.elim
    · exact Finset.mem_erase.mpr ⟨hjk, h.member j e p he hq⟩
  have hcond : ¬ ((s.channel p).exitFlag = true ∨ k ∉ (s.channel p).clients) := by
    rw [hflag]
    simpa using hmem
  by_cases hlast : (s.channel p).clients.erase k = ∅ ∧ (s.channel p).ephemeral = true ∧
      (s.channel p).deleter = false
  · rw [show s.removeClient k p = _ from (if_neg hcond).trans (if_pos hlast)]
    have hset : Inv ((s.setPC k c .left).setChannel p
        { s.channel p with clients := (s.channel p).clients.erase k, deleter := true }) :=
      hgo.setClients rfl rfl rfl hothers
    refine hset.submit (?_ : isEphemeral (s.channel p).name = true) fun j e q he hq hname => ?_
    · rw [← h.ephemeral p]
      exact hlast.2.1
    · -- a settled client of this name would be in the map that has become empty
      rcases getElem?_set_cases he with ⟨rfl, rfl⟩ | ⟨hjk, he'⟩
      · exact hq.elim
      · by_cases hqp : q = p
        · have hin := Finset.mem_erase.mpr ⟨hjk, hqp ▸ h.member j e q he' hq.member⟩
          rw [hlast.1] at hin
          exact Finset.notMem_empty j hin
        · simp only [State.setChannel, State.setPC, Function.update_of_ne hqp] at hname
          exact hqp (h.same_of_name hc hp he' hq hname)
  · rw [show s.removeClient k p = _ from (if_neg hcond).trans (if_neg hlast)]
    exact hgo.setClients rfl rfl rfl hothers

/-- **A new channel is stored**, where nobody has a pointer to an old one. -/
theorem Inv.storeChannel (h : Inv s) {name : String} (hlocked : ¬ s.Locked) (hfree : Free s name) :
    Inv (s.storeChannel name) := by
  have hold : ∀ q, q < s.next → (s.storeChannel name).channel q = s.channel q := fun q hq =>
    Function.update_of_ne (Nat.ne_of_lt hq) _ _
  have hnew : (s.storeChannel name).channel s.next = newChannel name := Function.update_self _ _ _
  have hheld : ∀ (k : ℕ) (c : Client) (q : ChannelPtr), s.clients[k]? = some c → c.pc.Holds q →
      (s.storeChannel name).channel q = s.channel q :=
        fun k c q hc hq => hold q (h.held k c q hc hq).1
  constructor
  · intro n q hq
    rcases GoMap.lookup_insert_eq_some.mp hq with ⟨rfl, rfl⟩ | ⟨-, hq⟩
    · rw [hnew]
      exact ⟨rfl, Nat.lt_succ_self _⟩
    · obtain ⟨hname, hlt⟩ := h.named n q hq
      rw [hold q hlt]
      exact ⟨hname, Nat.lt_succ_of_lt hlt⟩
  · intro q
    by_cases hq : q = s.next
    · rw [hq, hnew]
      rfl
    · rw [show (s.storeChannel name).channel q = s.channel q from Function.update_of_ne hq _ _]
      exact h.ephemeral q
  · intro q
    by_cases hq : q = s.next
    · rw [hq, hnew]
      exact nofun
    · rw [show (s.storeChannel name).channel q = s.channel q from Function.update_of_ne hq _ _]
      exact h.exited q
  · intro k c q hc hq
    obtain ⟨hlt, hcur⟩ := h.held k c q hc hq
    rw [hheld k c q hc hq]
    refine ⟨Nat.lt_succ_of_lt hlt, fun hflag => ?_⟩
    have hlook := hcur hflag
    refine GoMap.lookup_insert_eq_some.mpr (.inr ⟨fun hname => ?_, hlook⟩)
    rw [hname] at hlook
    exact hfree q hlook c (List.mem_of_getElem? hc) hq
  · intro k c q hc hq
    rw [hheld k c q hc hq.holds]
    exact h.member k c q hc hq
  · intro k c q hc hq
    rw [hheld k c q hc hq.member.holds]
    exact h.settled k c q hc hq
  · exact h.submitted
  · intro d hd q hpc
    exact absurd ⟨d, hd, q, hpc⟩ hlocked

/-- A deletion goes on to a state in which it is no more submitted and deletes nothing. -/
theorem Inv.setDeletion (h : Inv s) {pc : DeletionPC} (hsub : pc ≠ .submitted)
    (hdel : ∀ q, pc = .deleting q →
      ∀ p, s.channels.lookup d.channelName = some p → (s.channel p).exitFlag = true) :
    Inv (s.setDeletion j d pc) where
  named := h.named
  ephemeral := h.ephemeral
  exited := h.exited
  held := h.held
  member := h.member
  settled k c p hc hp := by
    refine ⟨(h.settled k c p hc hp).1, ?_⟩
    rintro ⟨e, he, hpc, hname⟩
    rcases mem_set_cases he with rfl | he
    · exact hsub hpc
    · exact (h.settled k c p hc hp).2 ⟨e, he, hpc, hname⟩
  submitted e he hpc := by
    rcases mem_set_cases he with rfl | he
    · exact absurd hpc hsub
    · exact h.submitted e he hpc
  deleting e he q hpc := by
    rcases mem_set_cases he with rfl | he
    · exact hdel q hpc
    · exact h.deleting e he q hpc

/-- A channel that no settled client has begins to exit. -/
theorem Inv.setExit (h : Inv s) (heph : (s.channel p).ephemeral = true)
    (hnone : ∀ (k : ℕ) (c : Client), s.clients[k]? = some c → ¬ c.pc.Settled p) :
    Inv (s.setChannel p { s.channel p with exitFlag := true }) := by
  have hself : (s.setChannel p { s.channel p with exitFlag := true }).channel p =
      { s.channel p with exitFlag := true } := Function.update_self _ _ _
  have hother : ∀ q, q ≠ p →
      (s.setChannel p { s.channel p with exitFlag := true }).channel q = s.channel q := fun q hq =>
    Function.update_of_ne hq _ _
  have hname : ∀ q, ((s.setChannel p { s.channel p with exitFlag := true }).channel q).name =
      (s.channel q).name := by
    intro q
    by_cases hq : q = p
    · rw [hq, hself]
    · rw [hother q hq]
  constructor
  · intro n q hq
    rw [hname]
    exact h.named n q hq
  · intro q
    rw [hname, ← h.ephemeral q]
    by_cases hq : q = p
    · rw [hq, hself]
    · rw [hother q hq]
  · intro q
    by_cases hq : q = p
    · rw [hq, hself]
      exact fun _ => heph
    · rw [hother q hq]
      exact h.exited q
  · intro k c q hc hq
    obtain ⟨hlt, hcur⟩ := h.held k c q hc hq
    refine ⟨hlt, fun hflag => ?_⟩
    rw [hname]
    by_cases hqp : q = p
    · rw [hqp, hself] at hflag
      cases hflag
    · rw [hother q hqp] at hflag
      exact hcur hflag
  · intro k c q hc hq
    by_cases hqp : q = p
    · rw [hqp, hself]
      exact hqp ▸ h.member k c q hc hq
    · rw [hother q hqp]
      exact h.member k c q hc hq
  · intro k c q hc hq
    have hqp : q ≠ p := fun hqp => hnone k c hc (hqp ▸ hq)
    rw [hother q hqp]
    exact h.settled k c q hc hq
  · exact h.submitted
  · intro d hd q hpc r hr
    by_cases hrp : r = p
    · rw [hrp, hself]
    · rw [hother r hrp]
      exact h.deleting d hd q hpc r hr

/-- A name goes whose channel is exiting. -/
theorem Inv.eraseName (h : Inv s) {name : String}
    (hexit : ∀ p, s.channels.lookup name = some p → (s.channel p).exitFlag = true) :
    Inv { s with channels := s.channels.erase name } where
  named n q hq := h.named n q (GoMap.lookup_erase_eq_some.mp hq).2
  ephemeral := h.ephemeral
  exited := h.exited
  held k c q hc hq := by
    obtain ⟨hlt, hcur⟩ := h.held k c q hc hq
    refine ⟨hlt, fun hflag => GoMap.lookup_erase_eq_some.mpr ⟨fun hname => ?_, hcur hflag⟩⟩
    have hgone := hexit q (hname ▸ hcur hflag)
    rw [hflag] at hgone
    cases hgone
  member := h.member
  settled := h.settled
  submitted := h.submitted
  deleting d hd q hpc r hr := h.deleting d hd q hpc r (GoMap.lookup_erase_eq_some.mp hr).2

/-- An outstanding deletion finds no settled client. -/
theorem Inv.unsettled (h : Inv s) (hd : d ∈ s.deletions) (hpc : d.pc = .submitted)
    (hp : s.channels.lookup d.channelName = some p) (hc : s.clients[k]? = some c) :
    ¬ c.pc.Settled p := by
  intro hset
  exact (h.settled k c p hc hset).2 ⟨d, hd, hpc, (h.named _ _ hp).1.symm⟩

/-- A client that is in the map of the channel it holds. -/
theorem Inv.added (h : Inv s) (hheld : p < s.next ∧
      ((s.channel p).exitFlag = false → s.channels.lookup (s.channel p).name = some p))
    (hin : k ∈ (s.channel p).clients) (i : ℕ) : Inv (s.setPC k c (.added p i)) := by
  refine h.setPC _ (fun q hq => ?_) (fun q hq => ?_) fun q hq => hq.elim
  · obtain rfl : p = q := hq
    exact hheld
  · obtain rfl : p = q := hq
    exact hin

/-- A client that is added to the map of the channel it holds. -/
theorem Inv.joins (h : Inv s) (hheld : p < s.next ∧
      ((s.channel p).exitFlag = false → s.channels.lookup (s.channel p).name = some p)) (i : ℕ) :
    Inv ((s.setChannel p { s.channel p with clients := insert k (s.channel p).clients }).setPC
      k c (.added p i)) := by
  have hset : Inv (s.setChannel p
      { s.channel p with clients := insert k (s.channel p).clients }) :=
    h.setClients rfl rfl rfl fun j e he hq => Finset.mem_insert_of_mem (h.member j e p he hq)
  have hself : (s.setChannel p
      { s.channel p with clients := insert k (s.channel p).clients }).channel p =
      { s.channel p with clients := insert k (s.channel p).clients } :=
    Function.update_self _ _ _
  refine hset.added ?_ ?_ i
  · rw [hself]
    exact hheld
  · rw [hself]
    exact Finset.mem_insert_self _ _

/-- A client of a channel passes the check, or is told so. -/
theorem Inv.settles (h : Inv s) (hc : s.clients[k]? = some c) (hmember : c.pc.Member p)
    (hsettled : (s.channel p).exitFlag = false ∧ ¬ Outstanding s (s.channel p).name)
    (hpc : pc = .passed p ∨ pc = .subscribed p) : Inv (s.setPC k c pc) := by
  have hsame : ∀ q, pc.Holds q → q = p := by
    rintro q hq
    rcases hpc with rfl | rfl <;> exact hq.symm
  refine h.setPC _ (fun q hq => ?_) (fun q hq => ?_) fun q hq => ?_
  · rw [hsame q hq]
    exact h.held k c p hc hmember.holds
  · rw [hsame q hq.holds]
    exact h.member k c p hc hmember
  · rw [hsame q hq.member.holds]
    exact hsettled

/-! ### The steps -/

/-- The process may end. -/
theorem Inv.crash (h : Inv s) (crash : Bool) : Inv { s with crashed := crash } :=
  ⟨h.named, h.ephemeral, h.exited, h.held, h.member, h.settled, h.submitted, h.deleting⟩

/-- The client looks its channel up. -/
theorem Inv.clientLook (h : Inv s) (hs : s.clientStep k c (.look k) = some s') : Inv s' := by
  cases clientStep_move hs with
  | look i _ hpc hlocked =>
      refine h.letGo fun p => ?_
      split <;> exact id

/-- The client makes its channel under the lock of the topic. -/
theorem Inv.clientCreate (h : Inv s) (hc : s.clients[k]? = some c) {accepted : Bool}
    (ha : Careful s (.create k accepted))
    (hs : s.clientStep k c (.create k accepted) = some s') : Inv s' := by
  cases clientStep_move hs with
  | refused i _ hpc => exact h.crash true
  | create i _ hpc hlocked => exact (h.storeChannel hlocked (ha c hc)).letGo nofun

/-- The client reads the channel back from the topic. -/
theorem Inv.clientRead (h : Inv s) (hs : s.clientStep k c (.read k) = some s') : Inv s' := by
  cases clientStep_move hs with
  | read i _ p hpc hp =>
      obtain ⟨hname, hlt⟩ := h.named _ p hp
      refine h.setPC _ (fun q hq => ?_) (fun q hq => hq.elim) fun q hq => hq.elim
      obtain rfl : p = q := hq
      exact ⟨hlt, fun _ => hname ▸ hp⟩
  | gone i _ hpc hp => exact h.crash true

/-- The client joins its channel, or is refused. -/
theorem Inv.clientAdd (h : Inv s) (hc : s.clients[k]? = some c) {room : Bool}
    (hs : s.clientStep k c (.add k room) = some s') : Inv s' := by
  have hheld : ∀ p i, c.pc = .got p i → p < s.next ∧
      ((s.channel p).exitFlag = false → s.channels.lookup (s.channel p).name = some p) :=
    fun p i hpc => h.held k c p hc (by rw [hpc]; exact rfl)
  cases clientStep_move hs with
  | turnedAway p i _ _ hpc hno => exact h.letGo nofun
  | again p i _ _ hpc hflag hin => exact h.added (hheld p i hpc) hin i
  | join p i _ hpc hflag hout => exact h.joins (hheld p i hpc) i

/-- The client looks whether its channel is exiting: one that is has dropped the client already. -/
theorem Inv.clientCheck (h : Inv s) (hc : s.clients[k]? = some c) (ha : Careful s (.check k))
    (hs : s.clientStep k c (.check k) = some s') : Inv s' := by
  cases clientStep_move hs with
  | retry p i _ hpc hexit =>
      have hskip : s.removeClient k p = s := if_pos (.inl hexit.2)
      rw [hskip]
      refine h.letGo fun q => ?_
      split <;> exact id
  | pass p i _ hpc hexit =>
      have hflag : (s.channel p).exitFlag = false := by
        by_contra hflag
        rw [Bool.not_eq_false] at hflag
        exact hexit ⟨h.exited p hflag, hflag⟩
      have hmember : c.pc.Member p := by rw [hpc]; exact rfl
      exact h.settles hc hmember ⟨hflag, ha c hc p (by rw [hpc]; rfl) hflag⟩ (.inl rfl)

/-- The client is answered OK. -/
theorem Inv.clientAnswer (h : Inv s) (hc : s.clients[k]? = some c)
    (hs : s.clientStep k c (.answer k) = some s') : Inv s' := by
  cases clientStep_move hs with
  | answer p _ hpc =>
      have hsettled : c.pc.Settled p := by rw [hpc]; exact rfl
      exact h.settles hc hsettled.member (h.settled k c p hc hsettled) (.inr rfl)

theorem Inv.clientLeave (h : Inv s) (hc : s.clients[k]? = some c)
    (hs : s.clientStep k c (.leave k) = some s') : Inv s' := by
  cases clientStep_move hs with
  | leave p _ hpc => exact h.leave hc (by rw [hpc]; exact rfl)
  | leaveFailed _ hpc => exact h.letGo nofun

/-- The handler of a deletion removes the channel, unless a client has settled in it. -/
theorem Inv.deletionDelete (h : Inv s) (hd : s.deletions[j]? = some d) {accepted : Bool}
    (hs : s.deletionStep j d (.delete j accepted) = some s') : Inv s' := by
  have hmem := List.mem_of_getElem? hd
  unfold State.deletionStep at hs
  dsimp only at hs
  split at hs
  · rename_i hpc
    split at hs
    · cases hs
      exact h.setDeletion nofun nofun
    · split at hs
      · cases hs
      · split at hs
        · cases hs
          exact h.setDeletion nofun nofun
        · rename_i p hp
          cases hs
          have hnone := fun (k : ℕ) (c : Client) (hc : s.clients[k]? = some c) =>
            h.unsettled hmem hpc hp hc
          have heph : (s.channel p).ephemeral = true := by
            rw [h.ephemeral p, (h.named _ _ hp).1]
            exact h.submitted d hmem hpc
          refine (h.setExit heph hnone).setDeletion nofun fun q _ r hr => ?_
          have hrp : r = p := Option.some.inj (hr.symm.trans hp)
          simp [hrp, State.setChannel]
  · cases hs

/-- The handler takes the deleted channel out of the map of the topic. -/
theorem Inv.deletionErase (h : Inv s) (hd : s.deletions[j]? = some d)
    (hs : s.deletionStep j d (.erase j) = some s') : Inv s' := by
  unfold State.deletionStep at hs
  dsimp only at hs
  split at hs
  · rename_i q hpc
    cases hs
    have hgone := h.deleting d (List.mem_of_getElem? hd) q hpc
    exact (h.eraseName hgone).setDeletion nofun nofun
  · cases hs

theorem Inv.deletionUnlock (h : Inv s) {crash : Bool}
    (hs : s.deletionStep j d (.unlock j crash) = some s') : Inv s' := by
  unfold State.deletionStep at hs
  dsimp only at hs
  split at hs
  · cases hs
    have hover : Inv (s.setDeletion j d .over) := h.setDeletion nofun nofun
    exact hover.crash crash
  · cases hs

theorem Inv.sub (h : Inv s) (channelName : String) :
    Inv { s with clients := s.clients ++ [⟨channelName, .look 1⟩] } := by
  have hold : ∀ (k : ℕ) (c : Client) (p : ChannelPtr),
      (s.clients ++ [⟨channelName, .look 1⟩])[k]? = some c → c.pc.Holds p →
        s.clients[k]? = some c := by
    intro k c p hc hp
    rcases Nat.lt_or_ge k s.clients.length with hlt | hge
    · rwa [List.getElem?_append_left hlt] at hc
    · rw [List.getElem?_append_right hge] at hc
      have hnew := List.mem_of_getElem? hc
      rw [List.mem_singleton.mp hnew] at hp
      exact hp.elim
  exact
    { named := h.named
      ephemeral := h.ephemeral
      exited := h.exited
      held := fun k c p hc hp => h.held k c p (hold k c p hc hp) hp
      member := fun k c p hc hp => h.member k c p (hold k c p hc hp.holds) hp
      settled := fun k c p hc hp => h.settled k c p (hold k c p hc hp.member.holds) hp
      submitted := h.submitted
      deleting := h.deleting }

/-- **A careful step keeps the invariant.** -/
theorem step_inv {a : Act} (h : Inv s) (ha : Careful s a) (hs : step s a = some s') : Inv s' := by
  unfold step at hs
  split at hs
  · cases hs
  · cases a with
    | sub channelName =>
        cases hs
        exact h.sub channelName
    | newChannel name =>
        simp only at hs
        split at hs
        · cases hs
        · rename_i hlocked
          cases hs
          exact h.storeChannel hlocked ha
    | look k =>
        obtain ⟨c, -, hstep⟩ := Option.bind_eq_some_iff.mp hs
        exact h.clientLook hstep
    | create k accepted =>
        obtain ⟨c, hc, hstep⟩ := Option.bind_eq_some_iff.mp hs
        exact h.clientCreate hc ha hstep
    | read k =>
        obtain ⟨c, -, hstep⟩ := Option.bind_eq_some_iff.mp hs
        exact h.clientRead hstep
    | add k room =>
        obtain ⟨c, hc, hstep⟩ := Option.bind_eq_some_iff.mp hs
        exact h.clientAdd hc hstep
    | check k =>
        obtain ⟨c, hc, hstep⟩ := Option.bind_eq_some_iff.mp hs
        exact h.clientCheck hc ha hstep
    | answer k =>
        obtain ⟨c, hc, hstep⟩ := Option.bind_eq_some_iff.mp hs
        exact h.clientAnswer hc hstep
    | leave k =>
        obtain ⟨c, hc, hstep⟩ := Option.bind_eq_some_iff.mp hs
        exact h.clientLeave hc hstep
    | delete j accepted =>
        obtain ⟨d, hd, hstep⟩ := Option.bind_eq_some_iff.mp hs
        exact h.deletionDelete hd hstep
    | erase j =>
        obtain ⟨d, hd, hstep⟩ := Option.bind_eq_some_iff.mp hs
        exact h.deletionErase hd hstep
    | unlock j crash =>
        obtain ⟨d, -, hstep⟩ := Option.bind_eq_some_iff.mp hs
        exact h.deletionUnlock hstep

theorem Inv.attached (h : Inv s) : Attached s := by
  intro k c p hc hpc
  have hset : c.pc.Settled p := by
    rw [hpc]
    exact rfl
  exact ⟨h.member k c p hc hset.member,
    (h.held k c p hc hset.member.holds).2 (h.settled k c p hc hset).1⟩

theorem Inv.spared (h : Inv s) (a : Act) : Spared s a := by
  intro j d p _ hd hpc hp k c hc hsub _
  refine h.unsettled (List.mem_of_getElem? hd) hpc hp hc ?_
  rw [hsub]
  exact rfl

end Invariant

theorem init_inv : Inv init where
  named _ _ hp := by cases hp
  ephemeral _ := rfl
  exited _ hp := by cases hp
  held _ _ _ hc := by cases hc
  member _ _ _ hc := by cases hc
  settled _ _ _ hc := by cases hc
  submitted _ hd := by cases hd
  deleting _ hd := by cases hd

/-- **Subscribers of ephemeral channels** are left alone along every careful run. -/
theorem subscribers_kept (acts : List Act) (h : Along step Careful init acts) :
    Along step Kept init acts :=
  along_imp (I := Inv) (fun _ _ _ hi hc hs => step_inv hi hc hs)
    (fun _ a hi hc => ⟨hi.spared a, fun _ hs => (step_inv hi hc hs).attached⟩) acts init init_inv h

/-- The steps of a client that subscribes to a channel that is there. -/
def subscription (k : ℕ) : List Act :=
  [.sub "c#ephemeral", .look k, .read k, .add k true, .check k, .answer k]

/-- The first client makes the channel, subscribes and leaves. -/
def visit : List Act :=
  [.sub "c#ephemeral", .look 0, .create 0 true, .read 0, .add 0 true, .check 0, .answer 0, .leave 0]

/-- The deletion is through before another client has passed the check. -/
theorem subscribers_kept_visit :
    Along step Kept init (visit ++ [.delete 0 true, .erase 0, .unlock 0 false]) :=
  subscribers_kept _ (by decide +kernel)

/-- **A subscriber that is not left alone.** The deletion comes when the second client has its
answer. -/
theorem subscriber_deleted :
    ¬ Along step Kept init (visit ++ subscription 1 ++ [.delete 0 true]) := by
  intro h
  obtain ⟨s, hs, hd, hp, hc, hin⟩ := exists_of_run step init (visit ++ subscription 1)
    (fun s => s.deletions[0]? = some ⟨"c#ephemeral", .submitted⟩ ∧
      s.channels.lookup "c#ephemeral" = some 0 ∧
      s.clients[1]? = some ⟨"c#ephemeral", .subscribed 0⟩ ∧ 1 ∈ (s.channel 0).clients)
    (by decide +kernel)
  obtain ⟨hspared, -⟩ := (h.append hs).head
  exact hspared 0 _ 0 rfl hd rfl hp 1 _ hc rfl hin

end Xmq.Ephemeral
