/-
# `Lib.Json` — JSON values as Python holds them

The values `json.loads` returns, with the operations the program uses on them:
`dict.get`, truth, and `==`.  A number is an `int`, or a `float` by its exact value;
`NaN` and the infinities do not occur (`allow_nan=False`).  `==` compares
dictionaries without their order, and `True`, `1` and `1.0` are equal to it, as they
are in Python.

The text forms stay out of the model.  `Codec` stands for `json.dumps` followed
by SHA-256, for the length of the encoded text, and for `str` on a value that is
not a text.

`dict`, `str` and `secrets.compare_digest`, for a value that somebody else has handed over.
-/
import LiveTrader.Lib.Python
import Mathlib.Data.Rat.Defs

namespace Lib.Py

inductive Json where
  | null
  | bool (b : Bool)
  | int (n : ℤ)
  | float (q : ℚ)
  | str (s : String)
  | arr (items : List Json)
  | obj (fields : List (String × Json))
  deriving Inhabited

/-- A dictionary with text keys, as JSON objects are. -/
abbrev Fields := List (String × Json)

namespace Json

/-- The number a value stands for in a comparison. -/
def number? : Json → Option ℚ
  | .bool b => some (if b then 1 else 0)
  | .int n => some n
  | .float q => some q
  | _ => none

/-- `==` on two numbers; anything else differs. -/
def numbersEq (v w : Json) : Bool :=
  match v.number?, w.number? with
  | some p, some q => p == q
  | _, _ => false

mutual

/-- Python's `==` on two values. -/
def eq : Json → Json → Bool
  | .null, .null => true
  | .str a, .str b => a == b
  | .arr xs, .arr ys => eqItems xs ys
  | .obj xs, .obj ys => xs.length == ys.length && eqFields xs ys
  | v, w => numbersEq v w

def eqItems : List Json → List Json → Bool
  | [], [] => true
  | x :: xs, y :: ys => x.eq y && eqItems xs ys
  | _, _ => false

def eqFields : List (String × Json) → List (String × Json) → Bool
  | [], _ => true
  | (k, x) :: xs, ys =>
    (match ys.lookup k with
      | some y => x.eq y
      | none => false) && eqFields xs ys

end

mutual

/-- No key occurs twice in a dictionary, as in every dictionary of Python. -/
def Distinct : Json → Prop
  | .arr items => DistinctItems items
  | .obj fields => (fields.map Prod.fst).Nodup ∧ DistinctFields fields
  | _ => True

def DistinctItems : List Json → Prop
  | [] => True
  | item :: items => item.Distinct ∧ DistinctItems items

def DistinctFields : List (String × Json) → Prop
  | [] => True
  | (_, value) :: fields => value.Distinct ∧ DistinctFields fields

end

/-- Truth of a value. -/
def truthy : Json → Bool
  | .null => false
  | .bool b => b
  | .int n => n != 0
  | .float q => q != 0
  | .str s => s != ""
  | .arr items => !items.isEmpty
  | .obj fields => !fields.isEmpty

/-- `value or other`. -/
def orElse (value other : Json) : Json := if value.truthy then value else other

/-- A method call on a value that must be a dictionary. -/
def fields : Json → Result Fields
  | .obj fields => .ok fields
  | _ => .error (.type "dict expected")

/-- `value is True`. -/
def isTrue : Json → Bool
  | .bool true => true
  | _ => false

/-- `value is False`. -/
def isFalse : Json → Bool
  | .bool false => true
  | _ => false

/-- `isinstance(value, str) and value`. -/
def isName : Json → Bool
  | .str s => s != ""
  | _ => false

/-- `isinstance(value, dict)`. -/
def isObj : Json → Bool
  | .obj _ => true
  | _ => false

/-- `value in {…}` for a set of texts; a list or a dictionary cannot be looked up. -/
def isOneOf (value : Json) (texts : List String) : Result Bool :=
  match value with
  | .str s => .ok (s ∈ texts)
  | .arr _ | .obj _ => .error (.type "unhashable type")
  | _ => .ok false

/-- `type(value) is int`. -/
def int? : Json → Option ℤ
  | .int n => some n
  | _ => none

/-- A list, or nothing. -/
def items? : Json → Option (List Json)
  | .arr items => some items
  | _ => none

/-- A dictionary, or nothing. -/
def fields? : Json → Option Fields
  | .obj fields => some fields
  | _ => none

/-! ## What `==` says -/

/-- Only a text is equal to a text. -/
theorem eq_str {v : Json} {s : String} (h : v.eq (.str s) = true) : v = .str s := by
  cases v with
  | str t =>
    rw [eq, beq_iff_eq] at h
    rw [h]
  | _ => simp [eq, numbersEq, number?] at h

theorem str_eq {v : Json} {s : String} (h : (Json.str s).eq v = true) : v = .str s := by
  cases v with
  | str t =>
    rw [eq, beq_iff_eq] at h
    rw [h]
  | _ => simp [eq, numbersEq, number?] at h

/-- Equal dictionaries have equal values under a key. -/
theorem eqFields_lookup {xs ys : List (String × Json)} (h : eqFields xs ys = true) {k : String}
    {x : Json} (hx : xs.lookup k = some x) : ∃ y, ys.lookup k = some y ∧ x.eq y = true := by
  induction xs with
  | nil => cases hx
  | cons e xs ih =>
    obtain ⟨k', x'⟩ := e
    rw [eqFields, Bool.and_eq_true] at h
    by_cases hk : k = k'
    · subst hk
      rw [List.lookup_cons_self] at hx
      cases hx
      cases hy : ys.lookup k with
      | none => simp [hy] at h
      | some y =>
        rw [hy] at h
        exact ⟨y, rfl, h.1⟩
    · rw [List.lookup_cons, beq_eq_false_iff_ne.mpr hk] at hx
      exact ih h.2 hx

mutual

theorem eq_refl : ∀ {v : Json}, v.Distinct → v.eq v = true
  | .null, _ => by rw [eq]
  | .bool b, _ => by simp [eq, numbersEq, number?]
  | .int n, _ => by simp [eq, numbersEq, number?]
  | .float q, _ => by simp [eq, numbersEq, number?]
  | .str s, _ => by simp [eq]
  | .arr items, h => by
      rw [eq]
      exact eqItems_refl h
  | .obj fields, h => by
      rw [eq, beq_self_eq_true, Bool.true_and]
      exact eqFields_refl h.2 fun e he => Dict.lookup_of_mem h.1 he

theorem eqItems_refl : ∀ {items : List Json}, DistinctItems items → eqItems items items = true
  | [], _ => by rw [eqItems]
  | item :: items, h => by rw [eqItems, eq_refl h.1, eqItems_refl h.2, Bool.true_and]

theorem eqFields_refl : ∀ {xs ys : List (String × Json)}, DistinctFields xs →
    (∀ e ∈ xs, ys.lookup e.1 = some e.2) → eqFields xs ys = true
  | [], _, _, _ => by rw [eqFields]
  | (k, x) :: xs, ys, h, hlookup => by
      have hk : ys.lookup k = some x := hlookup (k, x) List.mem_cons_self
      rw [eqFields, hk]
      dsimp only
      rw [eq_refl h.1, Bool.true_and]
      exact eqFields_refl h.2 fun e he => hlookup e (List.mem_cons_of_mem _ he)

end

end Json

theorem orElse_of_truthy {value other : Json} (h : value.truthy = true) : value.orElse other = value := if_pos h

theorem orElse_of_falsy {value other : Json} (h : value.truthy = false) : value.orElse other = other :=
  if_neg (Bool.eq_false_iff.mp h)

/-- `d.get(key)`. -/
def Fields.at (d : Fields) (key : String) : Json := (d.lookup key).getD .null

/-- `d[key]`. -/
def Fields.item (d : Fields) (key : String) : Result Json := orRaise (.key key) (d.lookup key)

/-- `{key: d.get(key, "") for key in keys}`. -/
def Fields.pick (d : Fields) (keys : List String) : Json :=
  .obj (keys.map fun key => (key, (d.lookup key).getD (.str "")))

/-- `d.get(key, {})`, to be used as a dictionary. -/
def Fields.section (d : Fields) (key : String) : Result Fields :=
  match d.lookup key with
  | none => .ok []
  | some value => value.fields

theorem item_eq_ok {d : Fields} {key : String} {value : Json} (h : d.item key = .ok value) : d.at key = value := by
  rw [Fields.at, orRaise_eq_ok.mp h, Option.getD_some]

/-- `{**d, key: value}`. -/
def Fields.put (d : Fields) (key : String) (value : Json) : Fields := Dict.set d key value

theorem Fields.lookup_put (d : Fields) (key key' : String) (value : Json) :
    (d.put key value).lookup key' = if key' = key then some value else d.lookup key' :=
  Dict.lookup_set d key key' value

@[simp] theorem Fields.at_put (d : Fields) (key : String) (value : Json) :
    (d.put key value).at key = value := by
  rw [Fields.at, lookup_put, if_pos rfl, Option.getD_some]

theorem Fields.at_put_ne (d : Fields) {key key' : String} (h : key' ≠ key) (value : Json) :
    (d.put key value).at key' = d.at key' := by
  rw [Fields.at, lookup_put, if_neg h, Fields.at]

/-- A value that is not `None` is there. -/
theorem Fields.lookup_of_at {d : Fields} {key : String} {value : Json} (h : d.at key = value)
    (hne : value ≠ .null) : d.lookup key = some value := by
  rw [Fields.at] at h
  cases hlookup : d.lookup key with
  | none =>
    rw [hlookup] at h
    exact absurd h.symm hne
  | some v =>
    rw [hlookup] at h
    exact congrArg some h

/-- The text forms the model leaves open. -/
structure Codec where
  /-- SHA-256 of the canonical text. -/
  sha256 : Json → String
  /-- Bytes of the canonical text in UTF-8. -/
  byteLength : Json → ℕ
  /-- `str` on a value that is not a text. -/
  repr : Json → String

/-- `str(value or "")`. -/
def Codec.text (codec : Codec) (value : Json) : String :=
  match value.orElse (.str "") with
  | .str s => s
  | v => codec.repr v

mutual

/-- A text form to stand for the digest in the sample runs. -/
def sampleText : Json → String
  | .null => "null"
  | .bool b => if b then "true" else "false"
  | .int n => Int.repr n
  | .float q => Int.repr q.num ++ "/" ++ Nat.repr q.den
  | .str s => "<" ++ s ++ ">"
  | .arr items => "[" ++ sampleItems items ++ "]"
  | .obj fields => "(" ++ sampleFields fields ++ ")"

def sampleItems : List Json → String
  | [] => ""
  | item :: items => sampleText item ++ "," ++ sampleItems items

def sampleFields : List (String × Json) → String
  | [] => ""
  | (key, value) :: fields => key ++ ":" ++ sampleText value ++ "," ++ sampleFields fields

end

/-! ## Dictionaries -/

/-- An item of a list that is made a dictionary; a key that is no text is read by nobody. -/
def Json.pair : Json → Result (Option (String × Json))
  | .arr [.str key, value] => .ok (some (key, value))
  | .arr [.arr _, _] | .arr [.obj _, _] => .error (.type "unhashable type")
  | .arr [_, _] => .ok none
  | .obj [(key, _), (value, _)] => .ok (some (key, .str value))
  | .str s =>
    match s.toList with
    | [key, value] => .ok (some (String.singleton key, .str (String.singleton value)))
    | _ => .error (.value "dictionary update sequence element has the wrong length")
  | .arr _ | .obj _ => .error (.value "dictionary update sequence element has the wrong length")
  | _ => .error (.type "cannot convert dictionary update sequence element to a sequence")

/-- The entries of a list of pairs, the later ones over the earlier ones. -/
def Fields.ofPairs (pairs : List (Option (String × Json))) : Fields :=
  pairs.foldl (fun d pair => (pair.map fun entry => d.put entry.1 entry.2).getD d) []

/-- `dict(value)`. -/
def Json.dict : Json → Result Fields
  | .obj d => .ok d
  | .arr items => do
    let pairs ← items.mapM Json.pair
    pure (Fields.ofPairs pairs)
  | .str s =>
    if s = "" then .ok [] else .error (.value "dictionary update sequence element has the wrong length")
  | _ => .error (.type "object is not iterable")

/-- `d.update(other)`. -/
def Fields.update (d other : Fields) : Fields := other.foldl (fun d entry => d.put entry.1 entry.2) d

/-- A key that is not written to stays. -/
theorem Fields.lookup_update {other : Fields} {key : String} (h : key ∉ other.map Prod.fst) (d : Fields) :
    List.lookup key (d.update other) = List.lookup key d := by
  induction other generalizing d with
  | nil => rfl
  | cons entry other ih =>
    rw [List.map_cons, List.mem_cons, not_or] at h
    show List.lookup key (Fields.update (d.put entry.1 entry.2) other) = _
    rw [ih h.2, Fields.lookup_put, if_neg h.1]

/-- A key that is written to once has what was written. -/
theorem Fields.lookup_update_of_mem {other : Fields} (hnodup : (other.map Prod.fst).Nodup) {key : String} {value : Json}
    (h : (key, value) ∈ other) (d : Fields) : List.lookup key (d.update other) = some value := by
  induction other generalizing d with
  | nil => exact (List.not_mem_nil h).elim
  | cons entry other ih =>
    obtain ⟨hnew, hnodup⟩ := List.nodup_cons.mp hnodup
    show List.lookup key (Fields.update (d.put entry.1 entry.2) other) = _
    rcases List.mem_cons.mp h with rfl | h
    · rw [Fields.lookup_update hnew, Fields.lookup_put, if_pos rfl]
    · exact ih hnodup h _

theorem Fields.at_update_of_mem {other : Fields} (hnodup : (other.map Prod.fst).Nodup) {key : String} {value : Json}
    (h : (key, value) ∈ other) (d : Fields) : (d.update other).at key = value := by
  rw [Fields.at, Fields.lookup_update_of_mem hnodup h, Option.getD_some]

theorem Json.of_fields? {value : Json} {d : Fields} (h : value.fields? = some d) : value = .obj d := by
  rw [Json.fields?.eq_def] at h
  split at h
  · obtain rfl := Option.some.inj h
    rfl
  · cases h

/-! ## Texts -/

/-- `str(value or "").strip()`, where `repr` is `str` of a value that is no text. -/
def Json.text (repr : Json → String) (value : Json) : String :=
  match value with
  | .str s => strip s
  | value => if value.truthy then strip (repr value) else ""

/-- `secrets.compare_digest` takes texts of ASCII characters only. -/
def compareDigest (actual expected : String) : Result Bool :=
  if actual.toList.all (·.toNat < 128) && expected.toList.all (·.toNat < 128) then .ok (actual = expected)
  else .error (.type "comparing strings with non-ASCII characters is not supported")

theorem compareDigest_eq_true {actual expected : String} (h : compareDigest actual expected = .ok true) :
    actual = expected := by
  rw [compareDigest] at h
  split at h
  · exact of_decide_eq_true (Except.ok.inj h)
  · cases h

end Lib.Py
