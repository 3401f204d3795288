import Mathlib.Algebra.Group.Int.Defs
import Mathlib.Data.Int.Notation
import Mathlib.Data.List.Nodup

/-!
# Structures in JSON

What `encoding/json` makes of a value, and how it fills a structure from one.

* A member goes to the field of its name, or of a name that differs in case; others are skipped. The
  members come in their order, so that of two for one field the later one counts.
* `null` makes a slice nil and leaves anything else as it is. The elements of an array are appended
  to an empty slice.
* A value that does not fit its field is an error. Decoding goes on, and reports the first one.
-/

namespace Xmq.GoJson

/-! ### Values -/

/-- A number. One with a fraction or an exponent is kept as it is written. -/
inductive Literal where
  | integer (n : ℤ)
  | decimal (text : String)

inductive Value where
  | null
  | bool (b : Bool)
  | number (n : Literal)
  | string (s : String)
  | array (xs : List Value)
  | object (ms : List (String × Value))

/-- What an error calls the value. -/
def Value.kind : Value → String
  | null => "null"
  | bool _ => "bool"
  | number _ => "number"
  | string _ => "string"
  | array _ => "array"
  | object _ => "object"

/-- The elements of an array. -/
def Value.elements : Value → List Value
  | array xs => xs
  | _ => []

/-! ### Types -/

/-- The number is one of an `int` of 64 bits. -/
def InInt64 (n : ℤ) : Prop := -2 ^ 63 ≤ n ∧ n < 2 ^ 63

instance (n : ℤ) : Decidable (InInt64 n) := inferInstanceAs (Decidable (_ ∧ _))

inductive GoType where
  | string
  | int
  | bool
  | slice (t : GoType)

namespace GoType

@[reducible] def denote : GoType → Type
  | string => String
  | int => ℤ
  | bool => Bool
  | slice t => List t.denote

def name : GoType → String
  | string => "string"
  | int => "int"
  | bool => "bool"
  | slice t => "[]" ++ t.name

def zero : (t : GoType) → t.denote
  | string => ""
  | int => 0
  | bool => false
  | slice _ => []

/-- What `omitempty` leaves out. -/
def isEmpty : (t : GoType) → t.denote → Bool
  | string, s => s == ""
  | int, n => n == 0
  | bool, b => !b
  | slice _, xs => xs.isEmpty

/-- Every number in the value is one of an `int`. -/
def InRange : (t : GoType) → t.denote → Prop
  | string, _ => True
  | int, n => InInt64 n
  | bool, _ => True
  | slice t, xs => ∀ x ∈ xs, t.InRange x

def marshal : (t : GoType) → t.denote → Value
  | string, s => .string s
  | int, n => .number (.integer n)
  | bool, b => .bool b
  | slice t, xs => .array (xs.map t.marshal)

end GoType

/-- What was found, and the type that it does not fit. -/
structure Mismatch where
  value : String
  type : String

namespace GoType

/-- What a value does to the one that is there. -/
def read : (t : GoType) → Value → Except Mismatch (t.denote → t.denote)
  | string, v =>
    match v with
    | .null => .ok id
    | .string s => .ok fun _ => s
    | v => .error ⟨v.kind, string.name⟩
  | int, v =>
    match v with
    | .null => .ok id
    | .number (.integer n) =>
      if InInt64 n then .ok fun _ => n
      else .error ⟨s!"number {n}", int.name⟩
    | .number (.decimal text) => .error ⟨s!"number {text}", int.name⟩
    | v => .error ⟨v.kind, int.name⟩
  | bool, v =>
    match v with
    | .null => .ok id
    | .bool b => .ok fun _ => b
    | v => .error ⟨v.kind, bool.name⟩
  | slice t, v =>
    match v with
    | .null => .ok fun _ => []
    | .array xs => (xs.mapM fun x => (t.read x).map fun u => u t.zero).map fun ys _ => ys
    | v => .error ⟨v.kind, (slice t).name⟩

/-- The values that can be read. -/
def Fits : GoType → Value → Prop
  | string, v => v = .null ∨ ∃ s, v = .string s
  | int, v => v = .null ∨ ∃ n : ℤ, v = .number (.integer n) ∧ InInt64 n
  | bool, v => v = .null ∨ ∃ b, v = .bool b
  | slice t, v => v = .null ∨ ∃ xs, v = .array xs ∧ ∀ x ∈ xs, t.Fits x

end GoType

/-! ### Reading all elements -/

section Elements

variable {α β ε : Type} {f : α → Except ε β}

theorem mapM_ok {g : α → β} {xs : List α} (h : ∀ x ∈ xs, f x = .ok (g x)) :
    xs.mapM f = .ok (xs.map g) := by
  induction xs with
  | nil => rfl
  | cons x xs ih =>
      have hrest := ih fun y hy => h y (List.mem_cons_of_mem x hy)
      rw [List.mapM_cons, h x List.mem_cons_self, hrest]
      rfl

theorem mapM_ok_iff {xs : List α} :
    (∃ ys, xs.mapM f = .ok ys) ↔ ∀ x ∈ xs, ∃ y, f x = .ok y := by
  induction xs with
  | nil => simp [pure, Except.pure]
  | cons x xs ih =>
      rw [List.forall_mem_cons, ← ih, List.mapM_cons]
      cases hx : f x with
      | error e => simp [bind, Except.bind]
      | ok y =>
          cases hxs : xs.mapM f with
          | error e => simp [bind, Except.bind]
          | ok ys => simp [bind, Except.bind, pure, Except.pure]

theorem length_of_mapM {xs : List α} : ∀ {ys}, xs.mapM f = .ok ys → ys.length = xs.length := by
  induction xs with
  | nil =>
      intro ys h
      cases h
      rfl
  | cons x xs ih =>
      intro ys h
      rw [List.mapM_cons] at h
      cases hx : f x with
      | error e => simp [hx, bind, Except.bind] at h
      | ok y =>
          cases hxs : xs.mapM f with
          | error e => simp [hx, hxs, bind, Except.bind] at h
          | ok zs =>
              simp only [hx, hxs, bind, Except.bind, pure, Except.pure, Except.ok.injEq] at h
              rw [← h, List.length_cons, List.length_cons, ih hxs]

end Elements

/-! ### Reading values -/

namespace GoType

theorem isEmpty_iff (t : GoType) (x : t.denote) : t.isEmpty x = true ↔ x = t.zero := by
  cases t <;> simp [isEmpty, zero]

/-- What was marshalled is read back. -/
theorem read_marshal (t : GoType) :
    ∀ x : t.denote, t.InRange x → t.read (t.marshal x) = .ok fun _ => x := by
  induction t with
  | string =>
      intro s _
      rfl
  | int =>
      intro n hn
      exact if_pos hn
  | bool =>
      intro b _
      rfl
  | slice t ih =>
      intro xs hxs
      have hall : (xs.map t.marshal).mapM (fun v => (t.read v).map fun u => u t.zero) =
          .ok xs := by
        rw [List.mapM_map, mapM_ok (g := id), List.map_id]
        intro x hx
        rw [Function.comp_apply, ih x (hxs x hx)]
        rfl
      show ((xs.map t.marshal).mapM fun v => (t.read v).map fun u => u t.zero).map
        (fun (ys : List t.denote) _ => ys) = Except.ok fun _ => xs
      rw [hall]
      rfl

theorem read_ok_iff (t : GoType) : ∀ v, (∃ u, t.read v = .ok u) ↔ t.Fits v := by
  induction t with
  | string =>
      intro v
      cases v <;> simp [read, Fits]
  | int =>
      intro v
      cases v with
      | number n =>
          cases n with
          | integer n =>
              by_cases hn : InInt64 n <;> simp [read, Fits, hn]
          | decimal text => simp [read, Fits]
      | _ => simp [read, Fits]
  | bool =>
      intro v
      cases v <;> simp [read, Fits]
  | slice t ih =>
      intro v
      cases v with
      | array xs =>
          have hall : (∃ ys, xs.mapM (fun x => (t.read x).map fun u => u t.zero) = .ok ys) ↔
              ∀ x ∈ xs, t.Fits x := by
            rw [mapM_ok_iff]
            refine forall₂_congr fun x _ => ?_
            rw [← ih x]
            cases t.read x <;> simp [Except.map]
          simp only [read, Fits, Value.array.injEq, reduceCtorEq, false_or, exists_eq_left',
            ← hall]
          cases xs.mapM fun x => (t.read x).map fun u => u t.zero <;> simp [Except.map]
      | _ => simp [read, Fits]

/-- A slice is as long as the array that is read. -/
theorem length_of_read {t : GoType} {v : Value} {u : List t.denote → List t.denote}
    (h : (slice t).read v = .ok u) (xs : List t.denote) : (u xs).length = v.elements.length := by
  cases v with
  | null =>
      cases h
      rfl
  | array vs =>
      have h : (vs.mapM fun x => (t.read x).map fun u => u t.zero).map
        (fun (ys : List t.denote) (_ : List t.denote) => ys) = Except.ok u := h
      cases hys : vs.mapM fun x => (t.read x).map fun u => u t.zero with
      | error e =>
          rw [hys] at h
          cases h
      | ok ys =>
          rw [hys] at h
          cases h
          exact length_of_mapM hys
  | _ => cases h

end GoType

/-! ### Structures -/

/-- The smallest letter that differs from this one in case. Two letters beyond ASCII are like one of
ASCII. -/
def foldRune (c : Char) : Char :=
  if c = Char.ofNat 0x17F then 's' else if c = Char.ofNat 0x212A then 'k' else c.toLower

def foldName (key : String) : List Char := key.toList.map foldRune

/-- A field that is read or written under a name. -/
structure StructField (σ : Type) where
  name : String
  type : GoType
  get : σ → type.denote
  set : type.denote → σ → σ

/-- The fields of a structure, with names that differ in more than case. -/
structure Struct (σ : Type) where
  fields : List (StructField σ)
  nodup : (fields.map fun f => foldName f.name).Nodup

structure UnmarshalTypeError where
  value : String
  field : String
  type : String

variable {σ : Type}

def StructField.read (f : StructField σ) (v : Value) (s : σ) : Except UnmarshalTypeError σ :=
  match f.type.read v with
  | .ok u => .ok (f.set (u (f.get s)) s)
  | .error e => .error ⟨e.value, f.name, e.type⟩

namespace Struct

variable (S : Struct σ)

def fieldOf (key : String) : Option (StructField σ) :=
  match S.fields.find? fun f => f.name = key with
  | some f => some f
  | none => S.fields.find? fun f => foldName f.name = foldName key

def unmarshalMembers : List (String × Value) → σ → Except UnmarshalTypeError σ
  | [], s => .ok s
  | (key, v) :: ms, s =>
    match S.fieldOf key with
    | none => unmarshalMembers ms s
    | some f =>
      match f.read v s with
      | .ok s => unmarshalMembers ms s
      | .error e => .error e

def unmarshal (type : String) (v : Value) (s : σ) : Except UnmarshalTypeError σ :=
  match v with
  | .null => .ok s
  | .object ms => S.unmarshalMembers ms s
  | v => .error ⟨v.kind, "", type⟩

end Struct

/-- The member of a field with `omitempty`. -/
def omitEmpty (name : String) (t : GoType) (x : t.denote) : List (String × Value) :=
  if t.isEmpty x then [] else [(name, t.marshal x)]

/-- The values of the members for the field of a name. -/
def valuesOf (name : String) (ms : List (String × Value)) : List Value :=
  (ms.filter fun m => foldName name = foldName m.1).map Prod.snd

/-- The length of the array that comes last for a field. -/
def lengthOf (name : String) (ms : List (String × Value)) : ℕ :=
  ((valuesOf name ms).getLast?.map fun v => v.elements.length).getD 0

/-! ### Reading structures -/

namespace Struct

variable {S : Struct σ} {f : StructField σ} {key : String} {ms : List (String × Value)} {s s' : σ}

theorem fieldOf_eq_some :
    S.fieldOf key = some f ↔ f ∈ S.fields ∧ foldName f.name = foldName key := by
  have hunique : ∀ g ∈ S.fields, f ∈ S.fields → foldName g.name = foldName f.name → g = f :=
    fun g hg hf => List.inj_on_of_nodup_map S.nodup hg hf
  have hfound : ∀ g, S.fieldOf key = some g → g ∈ S.fields ∧ foldName g.name = foldName key := by
    intro g hg
    unfold fieldOf at hg
    split at hg
    · rename_i g' hexact
      cases hg
      have hname : g.name = key := by simpa using List.find?_some hexact
      exact ⟨List.mem_of_find?_eq_some hexact, by rw [hname]⟩
    · exact ⟨List.mem_of_find?_eq_some hg, by simpa using List.find?_some hg⟩
  constructor
  · exact hfound f
  · rintro ⟨hf, hname⟩
    cases hkey : S.fieldOf key with
    | some g =>
        obtain ⟨hg, hgname⟩ := hfound g hkey
        rw [hunique g hg hf (hgname.trans hname.symm)]
    | none =>
        unfold fieldOf at hkey
        split at hkey
        · cases hkey
        · have hnot := List.find?_eq_none.mp hkey f hf
          simp [hname] at hnot

/-- The members that fit their fields. -/
def WellTyped (S : Struct σ) (ms : List (String × Value)) : Prop :=
  ∀ m ∈ ms, ∀ f ∈ S.fields, foldName f.name = foldName m.1 → f.type.Fits m.2

theorem fieldOf_name (hf : f ∈ S.fields) : S.fieldOf f.name = some f := by
  rw [fieldOf_eq_some]
  exact ⟨hf, rfl⟩

theorem fieldOf_eq_none (h : ∀ f ∈ S.fields, foldName f.name ≠ foldName key) :
    S.fieldOf key = none := by
  cases hkey : S.fieldOf key with
  | none => rfl
  | some f =>
      rw [fieldOf_eq_some] at hkey
      exact absurd hkey.2 (h f hkey.1)

theorem unmarshalMembers_cons (v : Value) : S.unmarshalMembers ((key, v) :: ms) s =
    ((S.fieldOf key).elim (.ok s) fun f => f.read v s).bind (S.unmarshalMembers ms) := by
  rw [unmarshalMembers]
  cases S.fieldOf key with
  | none => rfl
  | some f => cases hread : f.read v s <;> simp [hread, Except.bind]

/-- A member of no field is skipped. -/
theorem unmarshalMembers_skip {v : Value} (h : S.fieldOf key = none) :
    S.unmarshalMembers ((key, v) :: ms) s = S.unmarshalMembers ms s := by
  rw [unmarshalMembers_cons, h]
  rfl

/-- A member of a field is read into it. -/
theorem unmarshalMembers_field {v : Value} (h : S.fieldOf key = some f) :
    S.unmarshalMembers ((key, v) :: ms) s = (f.read v s).bind (S.unmarshalMembers ms) := by
  rw [unmarshalMembers_cons, h]
  rfl

/-- A field that is zero takes the value that was marshalled with `omitempty`. -/
theorem unmarshalMembers_omitEmpty {x : f.type.denote} (hf : f ∈ S.fields)
    (hzero : f.set f.type.zero s = s) (hx : f.type.InRange x) :
    S.unmarshalMembers (omitEmpty f.name f.type x ++ ms) s = S.unmarshalMembers ms (f.set x s) := by
  unfold omitEmpty
  split
  · rename_i hempty
    rw [(f.type.isEmpty_iff x).mp hempty, hzero, List.nil_append]
  · rw [List.singleton_append, unmarshalMembers_field (fieldOf_name hf), StructField.read,
      f.type.read_marshal x hx]
    rfl

theorem unmarshalMembers_omitEmpty_skip {t : GoType} {x : t.denote} (h : S.fieldOf key = none) :
    S.unmarshalMembers (omitEmpty key t x ++ ms) s = S.unmarshalMembers ms s := by
  unfold omitEmpty
  split
  · rfl
  · exact unmarshalMembers_skip h

theorem read_ok {v : Value} (h : f.read v s = .ok s') :
    ∃ u, f.type.read v = .ok u ∧ s' = f.set (u (f.get s)) s := by
  unfold StructField.read at h
  split at h
  · rename_i u hu
    cases h
    exact ⟨u, hu, rfl⟩
  · cases h

/-- An object is read exactly when its members fit. -/
theorem unmarshalMembers_ok_iff (ms : List (String × Value)) : ∀ s : σ,
    (∃ s', S.unmarshalMembers ms s = .ok s') ↔ S.WellTyped ms := by
  induction ms with
  | nil =>
      intro s
      exact iff_of_true ⟨s, rfl⟩ (List.forall_mem_nil _)
  | cons m ms ih =>
      obtain ⟨key, v⟩ := m
      intro s
      have hsplit : S.WellTyped ((key, v) :: ms) ↔
          (∀ f, S.fieldOf key = some f → f.type.Fits v) ∧ S.WellTyped ms := by
        simp only [WellTyped, List.forall_mem_cons, fieldOf_eq_some, and_imp]
      rw [hsplit]
      cases hkey : S.fieldOf key with
      | none => simp [unmarshalMembers_skip hkey, ih s]
      | some f =>
          have hfits := f.type.read_ok_iff v
          simp only [unmarshalMembers_field hkey, Option.some.injEq, forall_eq', StructField.read,
            ← hfits]
          cases hread : f.type.read v with
          | error e => simp [Except.bind]
          | ok u => simp [Except.bind, ih (f.set (u (f.get s)) s)]

/-- What of a structure depends on one field only is as the last member for the field has it. -/
theorem unmarshalMembers_last {β : Type} {g : σ → β} {val : Value → β}
    (hself : ∀ v s s', f.read v s = .ok s' → g s' = val v)
    (hother : ∀ f' ∈ S.fields, foldName f'.name ≠ foldName f.name → ∀ x s, g (f'.set x s) = g s)
    (hf : f ∈ S.fields) (ms : List (String × Value)) : ∀ s s' : σ,
      S.unmarshalMembers ms s = .ok s' →
        g s' = ((valuesOf f.name ms).getLast?.map val).getD (g s) := by
  induction ms with
  | nil =>
      intro s s' h
      cases h
      rfl
  | cons m ms ih =>
      obtain ⟨key, v⟩ := m
      intro s s' h
      by_cases hname : foldName f.name = foldName key
      · have hvalues : valuesOf f.name ((key, v) :: ms) = v :: valuesOf f.name ms := by
          simp [valuesOf, hname]
        rw [unmarshalMembers_field (fieldOf_eq_some.mpr ⟨hf, hname⟩)] at h
        cases hread : f.read v s with
        | error e => simp [hread, Except.bind] at h
        | ok s₁ =>
            rw [hread] at h
            rw [ih s₁ s' h, hself v s s₁ hread, hvalues, List.getLast?_cons]
            cases (valuesOf f.name ms).getLast? <;> rfl
      · have hvalues : valuesOf f.name ((key, v) :: ms) = valuesOf f.name ms := by
          simp [valuesOf, hname]
        rw [hvalues]
        cases hkey : S.fieldOf key with
        | none =>
            rw [unmarshalMembers_skip hkey] at h
            exact ih s s' h
        | some f' =>
            rw [unmarshalMembers_field hkey] at h
            rw [fieldOf_eq_some] at hkey
            cases hread : f'.read v s with
            | error e => simp [hread, Except.bind] at h
            | ok s₁ =>
                rw [hread] at h
                obtain ⟨u, -, rfl⟩ := read_ok hread
                rw [ih _ s' h, hother f' hkey.1 fun heq => hname (heq.symm.trans hkey.2)]

end Struct

end Xmq.GoJson
