import Mathlib.Data.Rat.Defs
import ZhiyanRag.Lib.Table

/-!
# JSON objects

The payloads of chunks and the server scope are JSON objects as Python holds them: a `dict` with
`get`, item assignment and `==`. Python compares numbers by value across `bool`, `int` and `float`,
and a `NaN` with nothing; but lists and dicts look first whether two values are one object, and
every `NaN` of `json.loads` is the same one.
-/

namespace ZhiyanRag.Retrieval

open Relational

/-- A Python `float` by its value. -/
inductive PyFloat
  | finite (value : Rat)
  | infinite (negative : Bool)
  | nan
  deriving DecidableEq

/-- `a == b` of two numbers. -/
def PyFloat.equals (a b : PyFloat) : Bool := decide (a ≠ .nan) && decide (a = b)

theorem PyFloat.equals_iff {a b : PyFloat} : a.equals b = true ↔ a ≠ .nan ∧ a = b := by
  unfold PyFloat.equals
  rw [Bool.and_eq_true, decide_eq_true_eq, decide_eq_true_eq]

/-- What `json.loads` yields for a member. -/
inductive JsonValue
  | null
  | bool (value : Bool)
  | int (value : Int)
  | float (value : PyFloat)
  | str (value : String)
  | array (items : List JsonValue)
  | object (members : List (String × JsonValue))

namespace JsonValue

/-- The string, if `isinstance(value, str)`. -/
def str? : JsonValue → Option String
  | str value => some value
  | _ => none

/-- `isinstance(value, str) and value`. -/
def isNonemptyStr (value : JsonValue) : Bool := value.str?.any fun s => decide (s ≠ "")

/-- `isinstance(value, int)`, which a `bool` is. -/
def isInt : JsonValue → Bool
  | int _ | bool _ => true
  | _ => false

def isBool : JsonValue → Bool
  | bool _ => true
  | _ => false

def isList : JsonValue → Bool
  | array _ => true
  | _ => false

/-- `value is True`. -/
def isTrue : JsonValue → Bool
  | bool value => value
  | _ => false

/-- `value is False`. -/
def isFalse : JsonValue → Bool
  | bool value => !value
  | _ => false

/-- The items, if `isinstance(value, list)`. -/
def items : JsonValue → List JsonValue
  | array items => items
  | _ => []

/-- `_string_set`. -/
def stringSet : JsonValue → List String
  | array items => items.filterMap fun item => item.str?.filter fun s => decide (s ≠ "")
  | _ => []

/-- The value as a number, if it is one. -/
def number? : JsonValue → Option PyFloat
  | bool value => some (.finite value.toNat)
  | int value => some (.finite value)
  | float value => some value
  | _ => none

/-- The object that stands for every `NaN` in what `json.loads` yields. -/
def isNan : JsonValue → Bool
  | float .nan => true
  | _ => false

mutual

/-- `a == b`. -/
def equals : JsonValue → JsonValue → Bool
  | null, null => true
  | str a, str b => decide (a = b)
  | array a, array b => equalItems a b
  | object a, object b => decide (a.length = b.length) && equalMembers [] a b
  | a, b =>
    match a.number?, b.number? with
    | some x, some y => x.equals y
    | _, _ => false

def equalItems : List JsonValue → List JsonValue → Bool
  | [], [] => true
  | a :: as, b :: bs => (a.isNan && b.isNan || equals a b) && equalItems as bs
  | _, _ => false

/-- Every member of the first list, but for those that an earlier one of its name hides, is a member
of the second. -/
def equalMembers : List String → List (String × JsonValue) → List (String × JsonValue) → Bool
  | _, [], _ => true
  | hidden, (field, a) :: rest, other =>
    (hidden.contains field || match other.lookup field with
      | some b => a.isNan && b.isNan || equals a b
      | none => false) && equalMembers (field :: hidden) rest other

end

/-- `a is b or a == b`, by which a list, a set or a dict compares two values. -/
def same (a b : JsonValue) : Bool := a.isNan && b.isNan || a.equals b

theorem str?_eq_some {value : JsonValue} {s : String} : value.str? = some s ↔ value = .str s := by
  cases value <;> simp [str?]

theorem isTrue_iff {value : JsonValue} : value.isTrue = true ↔ value = .bool true := by
  cases value <;> simp [isTrue]

/-! ### Equality is transitive -/

theorem equals_of_number {a b : JsonValue} {x y : PyFloat} (ha : a.number? = some x)
    (hb : b.number? = some y) : a.equals b = x.equals y := by
  cases a <;> cases b <;> simp_all [number?, equals]

/-- What a number is equal to is a number of this value. -/
theorem number_of_equals {a b : JsonValue} {x : PyFloat} (ha : a.number? = some x)
    (h : a.equals b = true) : x ≠ .nan ∧ b.number? = some x := by
  cases hb : b.number? with
  | some y =>
    rw [equals_of_number ha hb] at h
    obtain ⟨hne, rfl⟩ := PyFloat.equals_iff.mp h
    exact ⟨hne, rfl⟩
  | none => cases a <;> cases b <;> simp_all [number?, equals]

theorem isNan_iff {a : JsonValue} : a.isNan = true ↔ a = .float .nan := by
  cases a with
  | float value => cases value <;> simp [isNan]
  | _ => simp [isNan]

theorem same_iff {a b : JsonValue} : a.same b = true ↔ a.isNan = true ∧ b.isNan = true ∨
    a.equals b = true := by
  unfold same
  rw [Bool.or_eq_true, Bool.and_eq_true]

/-- A `NaN` is equal to nothing, and nothing to a `NaN`. -/
theorem not_isNan_of_equals {a b : JsonValue} (h : a.equals b = true) :
    a.isNan = false ∧ b.isNan = false := by
  constructor <;> refine Bool.eq_false_iff.mpr fun hnan => ?_
  · obtain rfl := isNan_iff.mp hnan
    exact (number_of_equals (a := .float .nan) rfl h).1 rfl
  · obtain rfl := isNan_iff.mp hnan
    cases ha : a.number? with
    | some x =>
      obtain ⟨hne, hx⟩ := number_of_equals ha h
      exact hne (Option.some.inj hx).symm
    | none => cases a <;> simp_all [number?, equals]

theorem equalItems_cons (a b : JsonValue) (as bs : List JsonValue) :
    equalItems (a :: as) (b :: bs) = (a.same b && equalItems as bs) := by
  rw [equalItems, same]

theorem lookup_of_equalMembers {hidden : List String} {members other : List (String × JsonValue)}
    {field : String} {a : JsonValue} (h : equalMembers hidden members other = true)
    (hfield : field ∉ hidden) (ha : members.lookup field = some a) :
    ∃ b, other.lookup field = some b ∧ a.same b = true := by
  induction members generalizing hidden with
  | nil => cases ha
  | cons member rest ih =>
    obtain ⟨name, value⟩ := member
    rw [equalMembers, Bool.and_eq_true, Bool.or_eq_true] at h
    obtain ⟨hmember, hrest⟩ := h
    rw [List.lookup_cons] at ha
    by_cases hname : field = name
    · subst hname
      rw [beq_self_eq_true] at ha
      cases ha
      have hvisible := hmember.resolve_left fun hhidden => hfield (List.contains_iff_mem.mp hhidden)
      cases hb : other.lookup field with
      | none =>
        rw [hb] at hvisible
        cases hvisible
      | some b =>
        rw [hb] at hvisible
        exact ⟨b, rfl, hvisible⟩
    · rw [beq_false_of_ne hname] at ha
      exact ih hrest (fun hmem => (List.mem_cons.mp hmem).elim hname hfield) ha

theorem same_trans_of {a b c : JsonValue}
    (htrans : a.equals b = true → b.equals c = true → a.equals c = true) (hab : a.same b = true)
    (hbc : b.same c = true) : a.same c = true := by
  rw [same_iff] at *
  rcases hab with ⟨ha, hb⟩ | hab
  · rcases hbc with ⟨-, hc⟩ | hbc
    · exact .inl ⟨ha, hc⟩
    · rw [(not_isNan_of_equals hbc).1] at hb
      cases hb
  · rcases hbc with ⟨hb, -⟩ | hbc
    · rw [(not_isNan_of_equals hab).2] at hb
      cases hb
    · exact .inr (htrans hab hbc)

mutual

theorem equals_trans : ∀ {a b c : JsonValue}, a.equals b = true → b.equals c = true →
    a.equals c = true
  | .null, b, c, hab, hbc => by
    cases b with
    | null => exact hbc
    | _ => simp [equals, number?] at hab
  | .str s, b, c, hab, hbc => by
    cases b with
    | str s' =>
      rw [equals, decide_eq_true_eq] at hab
      rw [hab]
      exact hbc
    | _ => simp [equals, number?] at hab
  | .array items, b, c, hab, hbc => by
    cases b with
    | array items' =>
      cases c with
      | array items'' =>
        rw [equals] at *
        exact equalItems_trans hab hbc
      | _ => simp [equals, number?] at hbc
    | _ => simp [equals, number?] at hab
  | .object members, b, c, hab, hbc => by
    cases b with
    | object members' =>
      cases c with
      | object members'' =>
        rw [equals, Bool.and_eq_true, decide_eq_true_eq] at *
        exact ⟨hab.1.trans hbc.1, equalMembers_trans hab.2 hbc.2⟩
      | _ => simp [equals, number?] at hbc
    | _ => simp [equals, number?] at hab
  | .bool value, b, c, hab, hbc => by
    obtain ⟨hne, hb⟩ := number_of_equals (a := .bool value) rfl hab
    obtain ⟨-, hc⟩ := number_of_equals hb hbc
    rw [equals_of_number (a := .bool value) rfl hc]
    exact PyFloat.equals_iff.mpr ⟨hne, rfl⟩
  | .int value, b, c, hab, hbc => by
    obtain ⟨hne, hb⟩ := number_of_equals (a := .int value) rfl hab
    obtain ⟨-, hc⟩ := number_of_equals hb hbc
    rw [equals_of_number (a := .int value) rfl hc]
    exact PyFloat.equals_iff.mpr ⟨hne, rfl⟩
  | .float value, b, c, hab, hbc => by
    obtain ⟨hne, hb⟩ := number_of_equals (a := .float value) rfl hab
    obtain ⟨-, hc⟩ := number_of_equals hb hbc
    rw [equals_of_number (a := .float value) rfl hc]
    exact PyFloat.equals_iff.mpr ⟨hne, rfl⟩

theorem equalItems_trans : ∀ {as bs cs : List JsonValue}, equalItems as bs = true →
    equalItems bs cs = true → equalItems as cs = true
  | [], [], cs, _, h => h
  | a :: as, b :: bs, c :: cs, hab, hbc => by
    rw [equalItems_cons, Bool.and_eq_true] at *
    exact ⟨same_trans_of (fun hab hbc => equals_trans hab hbc) hab.1 hbc.1,
      equalItems_trans hab.2 hbc.2⟩
  | a :: as, b :: bs, [], _, hbc => by simp [equalItems] at hbc
  | [], b :: bs, cs, hab, _ => by simp [equalItems] at hab
  | a :: as, [], cs, hab, _ => by simp [equalItems] at hab

theorem equalMembers_trans : ∀ {hidden : List String} {as bs cs : List (String × JsonValue)},
    equalMembers hidden as bs = true → equalMembers [] bs cs = true →
    equalMembers hidden as cs = true
  | _, [], _, _, _, _ => by rw [equalMembers]
  | hidden, (field, a) :: rest, bs, cs, hab, hbc => by
    rw [equalMembers, Bool.and_eq_true, Bool.or_eq_true] at *
    obtain ⟨hfield, hrest⟩ := hab
    refine ⟨hfield.imp_right fun hfield => ?_, equalMembers_trans hrest hbc⟩
    cases hb : bs.lookup field with
    | none =>
      rw [hb] at hfield
      cases hfield
    | some b =>
      rw [hb] at hfield
      obtain ⟨c, hc, hequals⟩ := lookup_of_equalMembers hbc List.not_mem_nil hb
      rw [hc]
      exact same_trans_of (fun hab hbc => equals_trans hab hbc) hfield hequals

end

theorem same_trans {a b c : JsonValue} (hab : a.same b = true) (hbc : b.same c = true) :
    a.same c = true :=
  same_trans_of equals_trans hab hbc

/-! ### Every value is the same as itself -/

/-- `NaN` by itself is the one value that is not equal to itself. -/
theorem equals_self_of_number {a : JsonValue} {x : PyFloat} (ha : a.number? = some x)
    (hx : x ≠ .nan) : a.equals a = true := by
  rw [equals_of_number ha ha]
  exact PyFloat.equals_iff.mpr ⟨hx, rfl⟩

theorem equalMembers_of_lookup {hidden : List String} {members other : List (String × JsonValue)}
    (h : ∀ field ∉ hidden, ∀ a, members.lookup field = some a → ∃ b, other.lookup field = some b ∧
      a.same b = true) :
    equalMembers hidden members other = true := by
  induction members generalizing hidden with
  | nil => rw [equalMembers]
  | cons member rest ih =>
    obtain ⟨name, value⟩ := member
    rw [equalMembers, Bool.and_eq_true, Bool.or_eq_true]
    refine ⟨?_, ih fun field hfield a ha => ?_⟩
    · by_cases hname : name ∈ hidden
      · exact .inl (List.contains_iff_mem.mpr hname)
      · obtain ⟨b, hb, hsame⟩ := h name hname value (by rw [List.lookup_cons, beq_self_eq_true])
        rw [hb]
        exact .inr hsame
    · rw [List.mem_cons, not_or] at hfield
      exact h field hfield.2 a (by rw [List.lookup_cons, beq_false_of_ne hfield.1]; exact ha)

mutual

theorem same_self : ∀ a : JsonValue, a.same a = true
  | .null => by rw [same, equals, Bool.or_true]
  | .str s => by rw [same, equals, decide_eq_true rfl, Bool.or_true]
  | .array items => by rw [same, equals, equalItems_self items, Bool.or_true]
  | .object members => by
    rw [same, equals, decide_eq_true rfl, equalMembers_of_lookup
      fun field _ a ha => ⟨a, ha, member_same_self members ha⟩]
    rfl
  | .bool value => same_iff.mpr (.inr (equals_self_of_number (a := .bool value) rfl (by simp)))
  | .int value => same_iff.mpr (.inr (equals_self_of_number (a := .int value) rfl (by simp)))
  | .float .nan => rfl
  | .float (.finite value) =>
    same_iff.mpr (.inr (equals_self_of_number (a := .float (.finite value)) rfl (by simp)))
  | .float (.infinite negative) =>
    same_iff.mpr (.inr (equals_self_of_number (a := .float (.infinite negative)) rfl (by simp)))

theorem equalItems_self : ∀ items : List JsonValue, equalItems items items = true
  | [] => by rw [equalItems]
  | item :: items => by rw [equalItems_cons, same_self item, equalItems_self items]; rfl

theorem member_same_self : ∀ (members : List (String × JsonValue)) {field : String} {a : JsonValue},
    members.lookup field = some a → a.same a = true
  | (name, value) :: rest, field, a, h => by
    rw [List.lookup_cons] at h
    split at h
    · cases h
      exact same_self value
    · exact member_same_self rest h

end

/-- Whatever is no `NaN` is equal to itself, with all that is in it. -/
theorem equals_self {a : JsonValue} (h : a.isNan = false) : a.equals a = true := by
  have hsame := same_iff.mp a.same_self
  rw [h] at hsame
  exact hsame.resolve_left fun hnan => Bool.false_ne_true hnan.1

end JsonValue

/-- `set(payload) == set(fields)`. -/
def hasKeys (members : List (String × JsonValue)) (fields : List String) : Bool :=
  members.all (fun member => fields.contains member.1) && fields.all fun field =>
    (members.lookup field).isSome

structure JsonObject where
  members : Table (Prod.fst : String × JsonValue → String)

namespace JsonObject

/-- `payload.get(field)`: `None` for a member that is absent. -/
def get (payload : JsonObject) (field : String) : JsonValue :=
  ((payload.members.find? field).map Prod.snd).getD .null

/-- `payload[field] = value`. -/
def put (payload : JsonObject) (field : String) (value : JsonValue) : JsonObject :=
  ⟨payload.members.upsert (field, value)⟩

/-- The object with these members, a later one replacing an earlier one of its name. -/
def ofMembers (members : List (String × JsonValue)) : JsonObject :=
  members.foldl (fun payload member => payload.put member.1 member.2) ⟨Table.empty⟩

/-- `a == b` of two objects. -/
def equals (a b : JsonObject) : Bool :=
  (JsonValue.object a.members.rows).equals (.object b.members.rows)

theorem equals_trans {a b c : JsonObject} (hab : a.equals b = true) (hbc : b.equals c = true) :
    a.equals c = true :=
  JsonValue.equals_trans hab hbc

theorem equals_self (a : JsonObject) : a.equals a = true := JsonValue.equals_self rfl

@[simp] theorem get_put_self (payload : JsonObject) (field : String) (value : JsonValue) :
    (payload.put field value).get field = value := by
  unfold get put
  rw [show field = Prod.fst (field, value) from rfl, Table.find?_upsert_self]
  rfl

theorem get_put_ne (payload : JsonObject) {field other : String} (value : JsonValue)
    (h : field ≠ other) : (payload.put field value).get other = payload.get other := by
  unfold get put
  rw [Table.find?_upsert_ne _ h]

end JsonObject

end ZhiyanRag.Retrieval
