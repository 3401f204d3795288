import Mathlib.Data.List.Rotate
import Xmq.Message

/-!
# Authorizations

What an auth server answers for a client, and what it allows. `regexp` is a parameter: which patterns
compile, with what error, and what they match. `MustCompile` panics on a pattern that does not, which
`none` stands for.

* Times are nanoseconds. The time to live is multiplied by 10^9 in 64 bits, and the product may be
  negative.
* The server that is asked first is random.
-/

namespace Xmq.Auth

/-- `regexp`, on the bytes of a name, and the quotation of a text in an error. -/
structure Regexp where
  compile : String → GoError
  matchString : String → List UInt8 → Bool
  quote : String → String

structure Authorization where
  topic : String
  channels : List String
  permissions : List String
  deriving DecidableEq

structure State where
  ttl : Int64
  authorizations : List Authorization
  identity : String
  identityURL : String
  expires : ℤ
  deriving DecidableEq

/-! ### What is allowed -/

/-- `MustCompile` and `MatchString`. -/
def Regexp.mustMatch (rx : Regexp) (pattern : String) (name : List UInt8) : Option Bool :=
  match rx.compile pattern with
  | none => some (rx.matchString pattern name)
  | some _ => none

def Authorization.hasPermission (a : Authorization) (permission : String) : Bool :=
  a.permissions.any fun p => permission == p

/-- The loop over the channels. -/
def matchChannels (rx : Regexp) (channel : List UInt8) : List String → Option Bool
  | [] => some false
  | c :: rest =>
    match rx.mustMatch c channel with
    | none => none
    | some true => some true
    | some false => matchChannels rx channel rest

def Authorization.isAllowed (rx : Regexp) (a : Authorization) (topic channel : List UInt8) :
    Option Bool :=
  if !a.hasPermission (if channel ≠ [] then "subscribe" else "publish") then some false
  else
    match rx.mustMatch a.topic topic with
    | none => none
    | some false => some false
    | some true => matchChannels rx channel a.channels

/-- The loop over the authorizations. -/
def anyAllowed (rx : Regexp) (topic channel : List UInt8) : List Authorization → Option Bool
  | [] => some false
  | a :: rest =>
    match a.isAllowed rx topic channel with
    | none => none
    | some true => some true
    | some false => anyAllowed rx topic channel rest

def State.isAllowed (rx : Regexp) (a : State) (topic channel : List UInt8) : Option Bool :=
  anyAllowed rx topic channel a.authorizations

def State.isExpired (a : State) (now : ℤ) : Bool := decide (a.expires < now)

/-! ### Asking -/

/-- What a server answers; `QueryAuthd` writes `Expires` whatever the answer has for it. -/
structure Answer where
  ttl : Int64
  authorizations : List Authorization
  identity : String
  identityURL : String

/-- The first permission that is not known. -/
def unknownPermission (a : Authorization) : Option String :=
  a.permissions.find? fun p => !(p == "subscribe" || p == "publish")

/-- The first channel that does not compile, with the error. -/
def badChannel (rx : Regexp) : List String → Option (String × String)
  | [] => none
  | c :: rest =>
    match rx.compile c with
    | some err => some (c, err)
    | none => badChannel rx rest

/-- The validation of one authorization. -/
def validate (rx : Regexp) (a : Authorization) : GoError :=
  match unknownPermission a with
  | some p => some s!"unknown permission {p}"
  | none =>
    match rx.compile a.topic with
    | some err => some s!"unable to compile topic {rx.quote a.topic} {err}"
    | none =>
      match badChannel rx a.channels with
      | some (c, err) => some s!"unable to compile channel {rx.quote c} {err}"
      | none => none

/-- `time.Duration(ttl) * time.Second`. -/
def duration (ttl : Int64) : Int64 := ttl * 1000000000

def queryAuthd (rx : Regexp) (get : String → Except String Answer) (now : ℤ) (authd : String) :
    Except String State :=
  match get authd with
  | .error err => .error err
  | .ok answer =>
    match answer.authorizations.findSome? (validate rx) with
    | some err => .error err
    | none =>
      if answer.ttl ≤ 0 then .error s!"invalid TTL {answer.ttl.toInt} (must be >0)"
      else
        .ok
          { ttl := answer.ttl
            authorizations := answer.authorizations
            identity := answer.identity
            identityURL := answer.identityURL
            expires := now + (duration answer.ttl).toInt }

/-- Ask the servers in order until one answers. -/
def queryInOrder (rx : Regexp) (get : String → Except String Answer) (now : ℤ) :
    GoError → List String → Except GoError State
  | retErr, [] => .error retErr
  | retErr, a :: rest =>
    match queryAuthd rx get now a with
    | .ok s => .ok s
    | .error err =>
      let es := s!"failed to auth against {a} - {err}"
      queryInOrder rx get now (some (match retErr with | some e => s!"{e}; {es}" | none => es)) rest

/-- `QueryAnyAuthd`: `start` is the random number, and the sum with it is taken to fit 64 bits. With no
server there is neither state nor error. -/
def queryAnyAuthd (rx : Regexp) (get : String → Except String Answer) (now : ℤ) (start : ℕ)
    (authd : List String) : Except GoError State :=
  queryInOrder rx get now none (authd.rotate start)

/-! ### Patterns -/

/-- Every pattern compiles. -/
def State.Compiles (rx : Regexp) (a : State) : Prop :=
  ∀ b ∈ a.authorizations, rx.compile b.topic = none ∧ ∀ c ∈ b.channels, rx.compile c = none

section Patterns

variable {rx : Regexp} {get : String → Except String Answer} {now : ℤ}

theorem badChannel_eq_none {l : List String} (h : badChannel rx l = none) :
    ∀ c ∈ l, rx.compile c = none := by
  induction l with
  | nil => exact nofun
  | cons c l ih =>
      rw [badChannel] at h
      split at h
      · cases h
      · rename_i hc
        exact List.forall_mem_cons.mpr ⟨hc, ih h⟩

theorem validate_eq_none {a : Authorization} (h : validate rx a = none) :
    rx.compile a.topic = none ∧ ∀ c ∈ a.channels, rx.compile c = none := by
  unfold validate at h
  split at h
  · cases h
  · split at h
    · cases h
    · rename_i htopic
      split at h
      · cases h
      · rename_i hchannels
        exact ⟨htopic, badChannel_eq_none hchannels⟩

/-- What `QueryAuthd` has accepted. -/
theorem queryAuthd_ok {authd : String} {s : State} (h : queryAuthd rx get now authd = .ok s) :
    s.Compiles rx ∧ s.expires = now + (duration s.ttl).toInt := by
  unfold queryAuthd at h
  split at h
  · cases h
  · split at h
    · cases h
    · rename_i answer _ hvalid
      split at h
      · cases h
      · cases h
        exact ⟨fun b hb => validate_eq_none (List.findSome?_eq_none_iff.mp hvalid b hb), rfl⟩

theorem queryInOrder_ok {l : List String} {retErr : GoError} {s : State}
    (h : queryInOrder rx get now retErr l = .ok s) :
    s.Compiles rx ∧ s.expires = now + (duration s.ttl).toInt := by
  induction l generalizing retErr with
  | nil => cases h
  | cons a l ih =>
      rw [queryInOrder] at h
      split at h
      · rename_i hs
        cases h
        exact queryAuthd_ok hs
      · exact ih h

/-- **Accepted answers.** Their patterns compile. -/
theorem queryAnyAuthd_ok {start : ℕ} {authd : List String} {s : State}
    (h : queryAnyAuthd rx get now start authd = .ok s) :
    s.Compiles rx ∧ s.expires = now + (duration s.ttl).toInt :=
  queryInOrder_ok h

/-- Only the absence of servers is no error. -/
theorem queryInOrder_error_none {l : List String} {retErr : GoError}
    (h : queryInOrder rx get now retErr l = .error none) : retErr = none ∧ l = [] := by
  induction l generalizing retErr with
  | nil =>
      rw [queryInOrder] at h
      injection h with h
      exact ⟨h, rfl⟩
  | cons a l ih =>
      rw [queryInOrder] at h
      split at h
      · cases h
      · exact nomatch (ih h).1

theorem queryAnyAuthd_error_none {start : ℕ} {authd : List String}
    (h : queryAnyAuthd rx get now start authd = .error none) : authd = [] :=
  List.rotate_eq_nil_iff.mp (queryInOrder_error_none h).2

theorem matchChannels_isSome {channel : List UInt8} {l : List String}
    (h : ∀ c ∈ l, rx.compile c = none) : (matchChannels rx channel l).isSome := by
  induction l with
  | nil => rfl
  | cons c l ih =>
      obtain ⟨hc, hl⟩ := List.forall_mem_cons.mp h
      rw [matchChannels, Regexp.mustMatch, hc]
      cases rx.matchString c channel with
      | true => rfl
      | false => exact ih hl

theorem anyAllowed_isSome {topic channel : List UInt8} {l : List Authorization}
    (h : ∀ b ∈ l, rx.compile b.topic = none ∧ ∀ c ∈ b.channels, rx.compile c = none) :
    (anyAllowed rx topic channel l).isSome := by
  induction l with
  | nil => rfl
  | cons a l ih =>
      obtain ⟨⟨htopic, hchannels⟩, hl⟩ := List.forall_mem_cons.mp h
      have hone : (a.isAllowed rx topic channel).isSome := by
        rw [Authorization.isAllowed, Regexp.mustMatch, htopic]
        cases a.hasPermission (if channel ≠ [] then "subscribe" else "publish") with
        | false => rfl
        | true =>
            cases rx.matchString a.topic topic with
            | true => exact matchChannels_isSome hchannels
            | false => rfl
      rw [anyAllowed]
      obtain ⟨b, hb⟩ := Option.isSome_iff_exists.mp hone
      rw [hb]
      cases b with
      | true => rfl
      | false => exact ih hl

/-- **`IsAllowed` does not panic** on a state whose patterns compile. -/
theorem isAllowed_isSome {a : State} (h : a.Compiles rx) (topic channel : List UInt8) :
    (a.isAllowed rx topic channel).isSome :=
  anyAllowed_isSome h

end Patterns

end Xmq.Auth
