import Xmq.Authorizations

/-!
# The rotation of the auth servers

`QueryAnyAuthd` starts at a random server and asks one after the other. `Authorizations` takes the
list in that order; here is the index of the source, `(i+start)%n` in 64 bits, and what it does when
the sum does not fit: the remainder of a negative number is negative or zero.

* `Fair` is what the rotation is for. It comes out just when every sum that is reached fits, or is
  2^63 and a multiple of the number of servers.
* Where all sums fit, the loop is that of `Authorizations`.
-/

namespace Xmq.Auth.Rotation

/-- The positions that were asked, in order, and what came of it; `none` is an index out of range.
-/
structure Asked where
  asked : List ℕ
  result : Option (Except GoError State)

/-- `(i+start)%n`. -/
def index (start n i : ℕ) : ℤ := ((Int64.ofNat i + Int64.ofNat start) % Int64.ofNat n).toInt

/-- `authd[(i+start)%n]`, with its position. -/
def server (authd : List String) (start i : ℕ) : Option (ℕ × String) :=
  let j := index start authd.length i
  if 0 ≤ j then authd[j.toNat]?.map fun a => (j.toNat, a) else none

/-- The next value of `retErr`. -/
def addError (retErr : GoError) (a err : String) : GoError :=
  let es := s!"failed to auth against {a} - {err}"
  some (match retErr with | some e => s!"{e}; {es}" | none => es)

/-- The rounds from `i` on, of which `todo` are left. -/
def askFrom (ask : ℕ → String → Except String State) (authd : List String) (start : ℕ) :
    ℕ → ℕ → GoError → Asked
  | 0, _, retErr => ⟨[], some (.error retErr)⟩
  | todo + 1, i, retErr =>
    match server authd start i with
    | none => ⟨[], none⟩
    | some (j, a) =>
      match ask i a with
      | .ok s => ⟨[j], some (.ok s)⟩
      | .error err =>
        let r := askFrom ask authd start todo (i + 1) (addError retErr a err)
        { r with asked := j :: r.asked }

/-- `QueryAnyAuthd`; a server may answer otherwise when it is asked again. -/
def queryAnyAuthd (rx : Regexp) (get : ℕ → String → Except String Answer) (now : ℤ) (start : ℕ)
    (authd : List String) : Asked :=
  askFrom (fun i => queryAuthd rx (get i) now) authd start authd.length 0 none

/-! ### What the rotation is for -/

/-- What the server whose turn is `i` says. -/
def turn (ask : ℕ → String → Except String State) (authd : List String) (start i : ℕ) :
    Option (Except String State) :=
  (authd.rotate start)[i]?.map (ask i)

def Fails (ask : ℕ → String → Except String State) (authd : List String) (start i : ℕ) : Prop :=
  ∃ err, turn ask authd start i = some (.error err)

/-- The servers are asked in turn up to the first that answers, whose state is the result; there is
an error only when all of them have failed. -/
structure Fair (ask : ℕ → String → Except String State) (authd : List String) (start : ℕ)
    (r : Asked) : Prop where
  inRange : r.result ≠ none
  rotation : r.asked <+: (List.range authd.length).rotate start
  state : ∀ s, r.result = some (.ok s) → ∃ k, r.asked.length = k + 1 ∧
    turn ask authd start k = some (.ok s) ∧ ∀ i < k, Fails ask authd start i
  error : ∀ err, r.result = some (.error err) →
    r.asked.length = authd.length ∧ ∀ i < authd.length, Fails ask authd start i

/-- No server is asked twice. -/
theorem Fair.nodup {ask : ℕ → String → Except String State} {authd : List String} {start : ℕ}
    {r : Asked} (h : Fair ask authd start r) : r.asked.Nodup :=
  (List.nodup_rotate.mpr List.nodup_range).sublist h.rotation.sublist

/-- The sum fits, or it is just one too large and comes out at zero, as it should. -/
def Fits (start n i : ℕ) : Prop := start + i < 2 ^ 63 ∨ start + i = 2 ^ 63 ∧ n ∣ 2 ^ 63

instance (start n i : ℕ) : Decidable (Fits start n i) := inferInstanceAs (Decidable (_ ∨ _))

/-! ### The index -/

section Index

variable {start n i : ℕ}

theorem index_eq (hstart : start < 2 ^ 63) (hn : n < 2 ^ 63) (hi : i < n) :
    index start n i =
      if start + i < 2 ^ 63 then (((start + i) % n : ℕ) : ℤ)
      else -(((2 ^ 64 - (start + i)) % n : ℕ) : ℤ) := by
  have hsum : ((Int64.ofNat i).toInt + (Int64.ofNat start).toInt).bmod (2 ^ 64) =
      if start + i < 2 ^ 63 then ((start + i : ℕ) : ℤ) else -((2 ^ 64 - (start + i) : ℕ) : ℤ) := by
    rw [Int64.toInt_ofNat_of_lt (by omega), Int64.toInt_ofNat_of_lt hstart, Int.bmod_def]
    simp only [Nat.reducePow]
    split <;> split <;> omega
  rw [index, Int64.toInt_mod, Int64.toInt_add, hsum, Int64.toInt_ofNat_of_lt hn]
  split
  · exact (Int.ofNat_tmod (start + i) n).symm
  · rw [Int.neg_tmod]
    exact congrArg Neg.neg (Int.ofNat_tmod _ n).symm

/-- The index is right. -/
theorem index_fits (hstart : start < 2 ^ 63) (hn : n < 2 ^ 63) (hi : i < n) (h : Fits start n i) :
    index start n i = (((start + i) % n : ℕ) : ℤ) := by
  rw [index_eq hstart hn hi]
  rcases h with hlt | ⟨heq, hdvd⟩
  · rw [if_pos hlt]
  · have hzero : (2 ^ 64 - 2 ^ 63) % n = 0 := Nat.mod_eq_zero_of_dvd (by simpa using hdvd)
    rw [if_neg (by omega), heq, hzero, Nat.mod_eq_zero_of_dvd hdvd]
    rfl

/-- The index is negative. -/
theorem index_neg (hstart : start < 2 ^ 63) (hn : n < 2 ^ 63) (hi : i < n)
    (hbig : 2 ^ 63 ≤ start + i) (hdvd : ¬ n ∣ 2 ^ 64 - (start + i)) : index start n i < 0 := by
  rw [index_eq hstart hn hi, if_neg (by omega)]
  have hpos : 0 < (2 ^ 64 - (start + i)) % n :=
    Nat.pos_of_ne_zero fun h => hdvd (Nat.dvd_of_mod_eq_zero h)
  omega

/-- Once a sum does not fit, the index was negative then or earlier. -/
theorem exists_index_neg (hstart : start < 2 ^ 63) (hn : n < 2 ^ 63) (hi : i < n)
    (h : ¬ Fits start n i) : ∃ k ≤ i, index start n k < 0 := by
  obtain ⟨hbig, hne⟩ := not_or.mp h
  have hfirst : 2 ^ 64 - (start + (2 ^ 63 - start)) = 2 ^ 63 := by omega
  by_cases hdvd : n ∣ 2 ^ 63
  · -- the sum 2^63 comes out at zero, and the one after it does not
    have hlt : 2 ^ 63 < start + i := by
      rcases Nat.lt_or_ge (2 ^ 63) (start + i) with hlt | hge
      · exact hlt
      · exact absurd ⟨by omega, hdvd⟩ hne
    refine ⟨2 ^ 63 - start + 1, by omega, index_neg hstart hn (by omega) (by omega) fun hnext => ?_⟩
    have hone : n ∣ 1 := by
      have hsub := Nat.dvd_sub hdvd hnext
      have heq : 2 ^ 63 - (2 ^ 64 - (start + (2 ^ 63 - start + 1))) = 1 := by omega
      rwa [heq] at hsub
    have hle := Nat.le_of_dvd Nat.one_pos hone
    omega
  · refine ⟨2 ^ 63 - start, by omega, index_neg hstart hn (by omega) (by omega) ?_⟩
    rwa [hfirst]

end Index

/-! ### The rounds -/

section Rounds

variable {ask : ℕ → String → Except String State} {authd : List String} {start i : ℕ}

theorem rotate_range_getElem? (hi : i < authd.length) :
    ((List.range authd.length).rotate start)[i]? = some ((start + i) % authd.length) := by
  have hmod : (start + i) % authd.length < authd.length := Nat.mod_lt _ (by omega)
  rw [List.getElem?_rotate (by rwa [List.length_range]), List.length_range, Nat.add_comm i start,
    List.getElem?_range hmod]

/-- A server whose sum fits is the one whose turn it is. -/
theorem server_fits (hstart : start < 2 ^ 63) (hn : authd.length < 2 ^ 63) (hi : i < authd.length)
    (h : Fits start authd.length i) :
    ∃ a, (authd.rotate start)[i]? = some a ∧
      server authd start i = some ((start + i) % authd.length, a) := by
  have hmod : (start + i) % authd.length < authd.length := Nat.mod_lt _ (by omega)
  refine ⟨authd[(start + i) % authd.length], ?_, ?_⟩
  · rw [List.getElem?_rotate hi, Nat.add_comm i start, List.getElem?_eq_getElem hmod]
  · rw [server]
    simp only [index_fits hstart hn hi h, Int.natCast_nonneg, if_true, Int.toNat_natCast,
      List.getElem?_eq_getElem hmod, Option.map_some]

theorem server_neg (h : index start authd.length i < 0) : server authd start i = none :=
  if_neg (by omega)

/-- A server that has failed has not answered. -/
theorem Fails.not_ok (h : Fails ask authd start i) (s : State) :
    turn ask authd start i ≠ some (.ok s) := by
  obtain ⟨err, herr⟩ := h
  rw [herr]
  nofun

theorem Fails.upTo (h : ∀ m < i, Fails ask authd start m) (hi : Fails ask authd start i) :
    ∀ m < i + 1, Fails ask authd start m := fun m hm =>
  (Nat.lt_succ_iff_lt_or_eq.mp hm).elim (h m) fun heq => heq ▸ hi

/-- The rounds from `i` on are fair, when the sums that they reach fit. -/
theorem askFrom_fair (hstart : start < 2 ^ 63) (hn : authd.length < 2 ^ 63) {todo : ℕ}
    (htodo : i + todo = authd.length) (hfails : ∀ m < i, Fails ask authd start m)
    (hfits : ∀ m < authd.length, (∀ j < m, ∀ s, turn ask authd start j ≠ some (.ok s)) →
      Fits start authd.length m) (retErr : GoError) :
    let r := askFrom ask authd start todo i retErr
    r.result ≠ none ∧ r.asked <+: ((List.range authd.length).rotate start).drop i ∧
      (∀ s, r.result = some (.ok s) → ∃ k, i + r.asked.length = k + 1 ∧
        turn ask authd start k = some (.ok s) ∧ ∀ m < k, Fails ask authd start m) ∧
      ∀ err, r.result = some (.error err) →
        i + r.asked.length = authd.length ∧ ∀ m < authd.length, Fails ask authd start m := by
  induction todo generalizing i retErr with
  | zero =>
      refine ⟨nofun, List.nil_prefix, nofun, fun err _ => ⟨htodo, ?_⟩⟩
      rwa [← htodo, Nat.add_zero]
  | succ todo ih =>
      have hi : i < authd.length := by omega
      obtain ⟨a, ha, hserver⟩ :=
        server_fits hstart hn hi (hfits i hi fun j hj => (hfails j hj).not_ok)
      have hdrop : ((List.range authd.length).rotate start).drop i =
          (start + i) % authd.length :: ((List.range authd.length).rotate start).drop (i + 1) :=
        List.drop_eq_getElem?_toList_append.trans (by rw [rotate_range_getElem? hi]; rfl)
      have hturn : turn ask authd start i = some (ask i a) := by rw [turn, ha, Option.map_some]
      cases hask : ask i a with
      | ok s =>
          simp only [askFrom, hserver, hask, hdrop]
          refine ⟨nofun, List.prefix_cons_inj _ |>.mpr List.nil_prefix, fun s' hs' => ?_, nofun⟩
          cases hs'
          exact ⟨i, rfl, by rw [hturn, hask], hfails⟩
      | error err =>
          have hfail : Fails ask authd start i := ⟨err, by rw [hturn, hask]⟩
          obtain ⟨hrange, hprefix, hstate, herror⟩ := ih (by omega) (Fails.upTo hfails hfail)
            (addError retErr a err)
          simp only [askFrom, hserver, hask, hdrop]
          refine ⟨hrange, (List.prefix_cons_inj _).mpr hprefix, fun s hs => ?_, fun err herr => ?_⟩
          · obtain ⟨k, hk, h⟩ := hstate s hs
            exact ⟨k, by rw [List.length_cons]; omega, h⟩
          · obtain ⟨hlen, h⟩ := herror err herr
            exact ⟨by rw [List.length_cons]; omega, h⟩

/-- When all servers before a negative index have failed, the loop panics. -/
theorem askFrom_panics (hstart : start < 2 ^ 63) (hn : authd.length < 2 ^ 63) {todo k : ℕ}
    (hneg : index start authd.length k < 0) (hfits : ∀ m < k, Fits start authd.length m)
    (hfails : ∀ m < k, ∀ s, turn ask authd start m ≠ some (.ok s)) (hik : i ≤ k)
    (hk : k < authd.length) (htodo : i + todo = authd.length) (retErr : GoError) :
    (askFrom ask authd start todo i retErr).result = none := by
  induction todo generalizing i retErr with
  | zero => omega
  | succ todo ih =>
      rcases Nat.lt_or_eq_of_le hik with hlt | rfl
      · obtain ⟨a, ha, hserver⟩ := server_fits hstart hn (hlt.trans hk) (hfits i hlt)
        have hturn : turn ask authd start i = some (ask i a) := by rw [turn, ha, Option.map_some]
        cases hask : ask i a with
        | error err =>
            simp only [askFrom, hserver, hask]
            exact ih hlt (by omega) _
        | ok s => exact absurd (by rw [hturn, hask]) (hfails i hlt s)
      · rw [askFrom, server_neg hneg]

end Rounds

/-- Where the sums fit, the rounds are those of the list in its order. -/
theorem askFrom_result {ask : String → Except String State} {authd : List String} {start : ℕ}
    (hn : authd.length < 2 ^ 63) (hfits : start + authd.length ≤ 2 ^ 63) {todo i : ℕ}
    (htodo : i + todo = authd.length) (retErr : GoError) {rx : Regexp}
    {get : String → Except String Answer} {now : ℤ}
    (hask : ∀ a, ask a = queryAuthd rx get now a) :
    (askFrom (fun _ => ask) authd start todo i retErr).result =
      some (queryInOrder rx get now retErr ((authd.rotate start).drop i)) := by
  induction todo generalizing i retErr with
  | zero =>
      have hdrop : (authd.rotate start).drop i = [] :=
        List.drop_eq_nil_of_le (by rw [List.length_rotate]; omega)
      rw [hdrop]
      rfl
  | succ todo ih =>
      obtain ⟨a, ha, hserver⟩ := server_fits (show start < 2 ^ 63 by omega) hn
        (show i < authd.length by omega) (.inl (by omega))
      have hdrop : (authd.rotate start).drop i = a :: (authd.rotate start).drop (i + 1) :=
        List.drop_eq_getElem?_toList_append.trans (by rw [ha]; rfl)
      rw [hdrop, queryInOrder, ← hask a]
      cases hans : ask a with
      | ok s => simp only [askFrom, hserver, hans]
      | error err =>
          simp only [askFrom, hserver, hans]
          exact ih (by omega) (addError retErr a err)

/-- **The two loops agree** where the sums fit. -/
theorem queryAnyAuthd_rotate (rx : Regexp) (get : String → Except String Answer) (now : ℤ)
    {start : ℕ} {authd : List String} (hn : authd.length < 2 ^ 63)
    (hfits : start + authd.length ≤ 2 ^ 63) :
    (queryAnyAuthd rx (fun _ => get) now start authd).result =
      some (Auth.queryAnyAuthd rx get now start authd) :=
  askFrom_result hn hfits (Nat.zero_add _) none fun _ => rfl

/-- **The rotation is fair** just when every sum that is reached fits. -/
theorem rotation_fair_iff (rx : Regexp) (get : ℕ → String → Except String Answer) (now : ℤ)
    (start : ℕ) (hstart : start < 2 ^ 63) (authd : List String) (hn : authd.length < 2 ^ 63) :
    Fair (fun i => queryAuthd rx (get i) now) authd start (queryAnyAuthd rx get now start authd) ↔
      ∀ i < authd.length, Fits start authd.length i ∨
        ∃ j < i, ∃ s, turn (fun i => queryAuthd rx (get i) now) authd start j = some (.ok s) := by
  constructor
  · intro hfair i hi
    by_contra hbad
    obtain ⟨hnot, hfails⟩ := not_or.mp hbad
    obtain ⟨k, hk, hneg⟩ := exists_index_neg hstart hn hi hnot
    -- the first negative index is reached
    have hex : ∃ k, index start authd.length k < 0 := ⟨k, hneg⟩
    have hfirst : Nat.find hex ≤ k := Nat.find_min' hex hneg
    refine hfair.inRange (askFrom_panics hstart hn (Nat.find_spec hex) (fun m hm => ?_)
      (fun m hm s hs => ?_) (Nat.zero_le _) (by omega) (Nat.zero_add _) none)
    · by_contra hfit
      obtain ⟨l, hl, hneg⟩ := exists_index_neg hstart hn (by omega) hfit
      exact Nat.find_min hex (Nat.lt_of_le_of_lt hl hm) hneg
    · exact hfails ⟨m, by omega, s, hs⟩
  · intro hfits
    have hreached : ∀ m < authd.length, (∀ j < m, ∀ s,
        turn (fun i => queryAuthd rx (get i) now) authd start j ≠ some (.ok s)) →
          Fits start authd.length m := fun m hm hno =>
      (hfits m hm).resolve_right fun ⟨j, hj, s, hs⟩ => hno j hj s hs
    obtain ⟨hrange, hprefix, hstate, herror⟩ :=
      askFrom_fair hstart hn (Nat.zero_add authd.length) nofun hreached none
    refine ⟨hrange, hprefix, fun s hs => ?_, fun err herr => ?_⟩
    · obtain ⟨k, hk, h⟩ := hstate s hs
      exact ⟨k, (Nat.zero_add _).symm.trans hk, h⟩
    · obtain ⟨hlen, h⟩ := herror err herr
      exact ⟨(Nat.zero_add _).symm.trans hlen, h⟩

/-- Every pattern compiles, and matches everything. -/
def anyRegexp : Regexp := ⟨fun _ => none, fun _ _ => true, id⟩

/-- Only the last of three servers answers. -/
def lastAnswers (_ : ℕ) (a : String) : Except String Answer :=
  if a = "c" then .ok ⟨60, [], "", ""⟩ else .error "down"

theorem rotation_fair_lastAnswers :
    (5 < 2 ^ 63 ∧ ["a", "b", "c"].length < 2 ^ 63) ∧
      Fair (fun i => queryAuthd anyRegexp (lastAnswers i) 0) ["a", "b", "c"] 5
        (queryAnyAuthd anyRegexp lastAnswers 0 5 ["a", "b", "c"]) :=
  ⟨by decide, (rotation_fair_iff anyRegexp lastAnswers 0 5 (by decide) ["a", "b", "c"]
    (by decide)).mpr fun i (hi : i < 3) => .inl (.inl (by omega))⟩

/-- With the greatest random number the second of three servers has the index `-2`. -/
theorem index_outOfRange :
    index (2 ^ 63 - 1) 3 1 = -2 ∧
      ¬ Fair (fun i => queryAuthd anyRegexp (lastAnswers i) 0) ["c", "a", "b"] (2 ^ 63 - 1)
        (queryAnyAuthd anyRegexp lastAnswers 0 (2 ^ 63 - 1) ["c", "a", "b"]) := by
  refine ⟨by decide, fun h => h.inRange ?_⟩
  rfl

end Xmq.Auth.Rotation
