/-
# `Lib.JsonText` — a text that determines its JSON value

The digest of a value is open in the model.  Where a result assumes that digests do
not collide, `Json.sealText` shows that such a function exists: each value is written
in a prefix-free code, so a text that begins with the code of a value determines the
value and the rest of the text.  `Json.digestAmong` gives the values of a list short
texts instead, so that a sample run can be evaluated.

`json.dumps(value, sort_keys=True)` writes every dictionary in the order of its keys,
at every depth, so what `json.loads` reads back is `Json.sortKeys value`.  Sorting is
idempotent, keeps the value under every key, and does not see the order in which a
dictionary was built.
-/
import LiveTrader.Lib.Json
import Mathlib.Data.List.Sort
import Mathlib.Data.Nat.Digits.Defs
import Mathlib.Data.Rat.Lemmas

namespace Lib.Py

/-! ## Prefix-free codes -/

/-- A code whose words can be cut off the front of a text. -/
def PrefixFree {α : Type} (f : α → List Char) : Prop :=
  ∀ a b r r', f a ++ r = f b ++ r' → a = b ∧ r = r'

/-- The code of a list: its members one after the other, then a stop. -/
def codeMany {α : Type} (f : α → List Char) : List α → List Char
  | [] => ['.']
  | a :: l => '+' :: (f a ++ codeMany f l)

theorem PrefixFree.many {α : Type} {f : α → List Char} (h : PrefixFree f) :
    PrefixFree (codeMany f) := by
  intro l
  induction l with
  | nil =>
    intro l' r r' heq
    cases l' with
    | nil => exact ⟨rfl, (List.cons.inj heq).2⟩
    | cons b l' => exact absurd (List.cons.inj heq).1 (by decide)
  | cons a l ih =>
    intro l' r r' heq
    cases l' with
    | nil => exact absurd (List.cons.inj heq).1 (by decide)
    | cons b l' =>
      simp only [codeMany, List.cons_append, List.append_assoc, List.cons.injEq, true_and] at heq
      obtain ⟨rfl, htail⟩ := h a b _ _ heq
      obtain ⟨rfl, rfl⟩ := ih l' r r' htail
      exact ⟨rfl, rfl⟩

def codeUnary (n : ℕ) : List Char := codeMany (fun _ : Unit => []) (List.replicate n ())

theorem prefixFree_unary : PrefixFree codeUnary := by
  intro m n r r' heq
  obtain ⟨hmn, hr⟩ := PrefixFree.many (f := fun _ : Unit => []) (fun _ _ _ _ h => ⟨rfl, h⟩) _ _ _ _ heq
  have hlen := congrArg List.length hmn
  rw [List.length_replicate, List.length_replicate] at hlen
  exact ⟨hlen, hr⟩

/-- A number by its decimal digits. -/
def codeNat (n : ℕ) : List Char := codeMany codeUnary (Nat.digits 10 n)

theorem prefixFree_nat : PrefixFree codeNat := by
  intro m n r r' heq
  obtain ⟨hmn, hr⟩ := prefixFree_unary.many _ _ _ _ heq
  exact ⟨Nat.digits_inj_iff.mp hmn, hr⟩

def codeInt : ℤ → List Char
  | .ofNat n => '+' :: codeNat n
  | .negSucc n => '-' :: codeNat n

theorem prefixFree_int : PrefixFree codeInt := by
  intro m n r r' heq
  cases m <;> cases n
  · obtain ⟨rfl, rfl⟩ := prefixFree_nat _ _ _ _ (List.cons.inj heq).2
    exact ⟨rfl, rfl⟩
  · exact absurd (List.cons.inj heq).1 (by decide)
  · exact absurd (List.cons.inj heq).1 (by decide)
  · obtain ⟨rfl, rfl⟩ := prefixFree_nat _ _ _ _ (List.cons.inj heq).2
    exact ⟨rfl, rfl⟩

def codeString (s : String) : List Char := codeMany (fun c => [c]) s.toList

theorem prefixFree_string : PrefixFree codeString := by
  intro s t r r' heq
  have hchar : PrefixFree fun c : Char => [c] := fun _ _ _ _ h => List.cons.inj h
  obtain ⟨hst, hr⟩ := hchar.many _ _ _ _ heq
  exact ⟨String.toList_inj.mp hst, hr⟩

/-! ## The code of a value -/

namespace Json

mutual

def code : Json → List Char
  | .null => ['n']
  | .bool b => [if b then 't' else 'f']
  | .int n => 'i' :: codeInt n
  | .float q => 'd' :: (codeInt q.num ++ codeNat q.den)
  | .str s => 's' :: codeString s
  | .arr items => 'a' :: codeItems items
  | .obj fields => 'o' :: codeFields fields

def codeItems : List Json → List Char
  | [] => ['.']
  | item :: items => '+' :: (item.code ++ codeItems items)

def codeFields : List (String × Json) → List Char
  | [] => ['.']
  | (key, value) :: fields => '+' :: (codeString key ++ (value.code ++ codeFields fields))

end

mutual

theorem code_cancel : ∀ (v w : Json) (r r' : List Char), v.code ++ r = w.code ++ r' → v = w ∧ r = r'
  | .null, w, r, r', h => by
      cases w with
      | null => exact ⟨rfl, (List.cons.inj h).2⟩
      | bool b => cases b <;> exact absurd (List.cons.inj h).1 (by decide)
      | _ => exact absurd (List.cons.inj h).1 (by decide)
  | .bool b, w, r, r', h => by
      cases w with
      | bool b' =>
        have hb := (List.cons.inj h).1
        refine ⟨congrArg _ ?_, (List.cons.inj h).2⟩
        revert hb
        cases b <;> cases b' <;> decide
      | _ => cases b <;> exact absurd (List.cons.inj h).1 (by decide)
  | .int n, w, r, r', h => by
      cases w with
      | int m =>
        obtain ⟨rfl, rfl⟩ := prefixFree_int n m r r' (List.cons.inj h).2
        exact ⟨rfl, rfl⟩
      | bool b => cases b <;> exact absurd (List.cons.inj h).1 (by decide)
      | _ => exact absurd (List.cons.inj h).1 (by decide)
  | .float q, w, r, r', h => by
      cases w with
      | float q' =>
        simp only [code, List.cons_append, List.append_assoc, List.cons.injEq, true_and] at h
        obtain ⟨hnum, h⟩ := prefixFree_int _ _ _ _ h
        obtain ⟨hden, rfl⟩ := prefixFree_nat _ _ _ _ h
        exact ⟨congrArg _ (Rat.ext hnum hden), rfl⟩
      | bool b => cases b <;> exact absurd (List.cons.inj h).1 (by decide)
      | _ => exact absurd (List.cons.inj h).1 (by decide)
  | .str s, w, r, r', h => by
      cases w with
      | str t =>
        obtain ⟨rfl, rfl⟩ := prefixFree_string s t r r' (List.cons.inj h).2
        exact ⟨rfl, rfl⟩
      | bool b => cases b <;> exact absurd (List.cons.inj h).1 (by decide)
      | _ => exact absurd (List.cons.inj h).1 (by decide)
  | .arr items, w, r, r', h => by
      cases w with
      | arr items' =>
        obtain ⟨rfl, rfl⟩ := codeItems_cancel items items' r r' (List.cons.inj h).2
        exact ⟨rfl, rfl⟩
      | bool b => cases b <;> exact absurd (List.cons.inj h).1 (by decide)
      | _ => exact absurd (List.cons.inj h).1 (by decide)
  | .obj fields, w, r, r', h => by
      cases w with
      | obj fields' =>
        obtain ⟨rfl, rfl⟩ := codeFields_cancel fields fields' r r' (List.cons.inj h).2
        exact ⟨rfl, rfl⟩
      | bool b => cases b <;> exact absurd (List.cons.inj h).1 (by decide)
      | _ => exact absurd (List.cons.inj h).1 (by decide)

theorem codeItems_cancel : ∀ (items items' : List Json) (r r' : List Char),
    codeItems items ++ r = codeItems items' ++ r' → items = items' ∧ r = r'
  | [], [], r, r', h => ⟨rfl, (List.cons.inj h).2⟩
  | [], _ :: _, r, r', h => absurd (List.cons.inj h).1 (by decide)
  | _ :: _, [], r, r', h => absurd (List.cons.inj h).1 (by decide)
  | v :: items, w :: items', r, r', h => by
      simp only [codeItems, List.cons_append, List.append_assoc, List.cons.injEq, true_and] at h
      obtain ⟨rfl, htail⟩ := code_cancel v w _ _ h
      obtain ⟨rfl, rfl⟩ := codeItems_cancel items items' r r' htail
      exact ⟨rfl, rfl⟩

theorem codeFields_cancel : ∀ (fields fields' : List (String × Json)) (r r' : List Char),
    codeFields fields ++ r = codeFields fields' ++ r' → fields = fields' ∧ r = r'
  | [], [], r, r', h => ⟨rfl, (List.cons.inj h).2⟩
  | [], _ :: _, r, r', h => absurd (List.cons.inj h).1 (by decide)
  | _ :: _, [], r, r', h => absurd (List.cons.inj h).1 (by decide)
  | (k, v) :: fields, (l, w) :: fields', r, r', h => by
      simp only [codeFields, List.cons_append, List.append_assoc, List.cons.injEq, true_and] at h
      obtain ⟨rfl, hvalue⟩ := prefixFree_string k l _ _ h
      obtain ⟨rfl, htail⟩ := code_cancel v w _ _ hvalue
      obtain ⟨rfl, rfl⟩ := codeFields_cancel fields fields' r r' htail
      exact ⟨rfl, rfl⟩

end

/-- A text to stand for the digest. -/
def sealText (v : Json) : String := String.ofList v.code

theorem sealText_injective : Function.Injective sealText := by
  intro v w h
  have hcode : v.code = w.code := by
    have h' := congrArg String.toList h
    rwa [sealText, sealText, String.toList_ofList, String.toList_ofList] at h'
  refine (code_cancel v w [] [] ?_).1
  rw [List.append_nil, List.append_nil, hcode]

/-! ## Short digests -/

mutual

/-- The same value, as a test. -/
def same : Json → Json → Bool
  | .null, .null => true
  | .bool a, .bool b => a == b
  | .int m, .int n => m == n
  | .float p, .float q => p == q
  | .str s, .str t => s == t
  | .arr xs, .arr ys => sameItems xs ys
  | .obj xs, .obj ys => sameFields xs ys
  | _, _ => false

def sameItems : List Json → List Json → Bool
  | [], [] => true
  | x :: xs, y :: ys => x.same y && sameItems xs ys
  | _, _ => false

def sameFields : List (String × Json) → List (String × Json) → Bool
  | [], [] => true
  | (k, x) :: xs, (l, y) :: ys => k == l && x.same y && sameFields xs ys
  | _, _ => false

end

mutual

theorem same_iff : ∀ {v w : Json}, v.same w = true ↔ v = w
  | .null, w => by cases w <;> simp [same]
  | .bool a, w => by cases w <;> simp [same]
  | .int m, w => by cases w <;> simp [same]
  | .float p, w => by cases w <;> simp [same]
  | .str s, w => by cases w <;> simp [same]
  | .arr xs, w => by
      cases w with
      | arr ys => rw [same, sameItems_iff, Json.arr.injEq]
      | _ => simp [same]
  | .obj xs, w => by
      cases w with
      | obj ys => rw [same, sameFields_iff, Json.obj.injEq]
      | _ => simp [same]

theorem sameItems_iff : ∀ {xs ys : List Json}, sameItems xs ys = true ↔ xs = ys
  | [], ys => by cases ys <;> simp [sameItems]
  | x :: xs, ys => by
      cases ys with
      | nil => simp [sameItems]
      | cons y ys => rw [sameItems, Bool.and_eq_true, same_iff, sameItems_iff, List.cons.injEq]

theorem sameFields_iff : ∀ {xs ys : List (String × Json)}, sameFields xs ys = true ↔ xs = ys
  | [], ys => by cases ys <;> simp [sameFields]
  | (k, x) :: xs, ys => by
      cases ys with
      | nil => simp [sameFields]
      | cons e ys =>
        obtain ⟨l, y⟩ := e
        rw [sameFields, Bool.and_eq_true, Bool.and_eq_true, beq_iff_eq, same_iff, sameFields_iff,
          List.cons.injEq, Prod.mk.injEq]

end

instance : DecidableEq Json := fun v w => decidable_of_iff (v.same w = true) same_iff

/-- The text of a number, which is the code of no value. -/
def shortText (i : ℕ) : String := String.ofList ('#' :: codeNat i)

/-- A short text for a value of the list, the code of any other value. -/
def digestAmong (known : List Json) (v : Json) : String :=
  if v ∈ known then shortText (known.idxOf v) else v.sealText

theorem shortText_injective : Function.Injective shortText := by
  intro i j h
  have hlist := congrArg String.toList h
  rw [shortText, shortText, String.toList_ofList, String.toList_ofList] at hlist
  refine (prefixFree_nat i j [] [] ?_).1
  rw [List.append_nil, List.append_nil]
  exact (List.cons.inj hlist).2

theorem shortText_ne_sealText (i : ℕ) (v : Json) : shortText i ≠ v.sealText := by
  intro h
  have hlist := congrArg String.toList h
  rw [shortText, sealText, String.toList_ofList, String.toList_ofList] at hlist
  cases v with
  | bool b => cases b <;> exact absurd (List.cons.inj hlist).1 (by decide)
  | _ => exact absurd (List.cons.inj hlist).1 (by decide)

theorem digestAmong_injective (known : List Json) : Function.Injective (digestAmong known) := by
  intro v w h
  unfold digestAmong at h
  split at h <;> split at h
  · next hv hw => exact (List.idxOf_inj hv).mp (shortText_injective h)
  · exact absurd h (shortText_ne_sealText _ _)
  · exact absurd h.symm (shortText_ne_sealText _ _)
  · exact sealText_injective h

end Json

/-! ## The canonical order of a JSON value -/

/-- The order of two entries of a dictionary: their keys, by code points. -/
def keyLE (a b : String × Json) : Prop := a.1.toList ≤ b.1.toList

instance : DecidableRel keyLE := fun a b => inferInstanceAs (Decidable (a.1.toList ≤ b.1.toList))

instance : Std.Total keyLE := ⟨fun a b => le_total a.1.toList b.1.toList⟩

instance : IsTrans (String × Json) keyLE := ⟨fun _ _ _ h h' => le_trans h h'⟩

namespace Json

mutual

/-- The value with every dictionary in the order of its keys. -/
def sortKeys : Json → Json
  | .null => .null
  | .bool b => .bool b
  | .int n => .int n
  | .float q => .float q
  | .str s => .str s
  | .arr items => .arr (sortItems items)
  | .obj fields => .obj ((sortValues fields).insertionSort keyLE)

def sortItems : List Json → List Json
  | [] => []
  | item :: items => item.sortKeys :: sortItems items

def sortValues : List (String × Json) → List (String × Json)
  | [] => []
  | (key, value) :: fields => (key, value.sortKeys) :: sortValues fields

end

@[simp] theorem sortKeys_null : null.sortKeys = null := by rw [sortKeys]

@[simp] theorem sortKeys_int (n : ℤ) : (int n).sortKeys = int n := by rw [sortKeys]

@[simp] theorem sortKeys_str (s : String) : (str s).sortKeys = str s := by rw [sortKeys]

theorem sortValues_eq_map : ∀ fields : List (String × Json),
    sortValues fields = fields.map fun e => (e.1, e.2.sortKeys)
  | [] => by rw [sortValues, List.map_nil]
  | (_, _) :: fields => by rw [sortValues, sortValues_eq_map fields, List.map_cons]

/-! ## Sorting twice -/

/-- Members that are fixed by sorting stay so in any order. -/
theorem sortValues_eq_self {fields : List (String × Json)}
    (h : ∀ e ∈ fields, e.2.sortKeys = e.2) : sortValues fields = fields := by
  rw [sortValues_eq_map]
  refine (List.map_congr_left fun e he => ?_).trans (List.map_id fields)
  rw [h e he, id]

mutual

theorem sortKeys_idem : ∀ v : Json, v.sortKeys.sortKeys = v.sortKeys
  | .null => by simp only [sortKeys]
  | .bool _ => by simp only [sortKeys]
  | .int _ => by simp only [sortKeys]
  | .float _ => by simp only [sortKeys]
  | .str _ => by simp only [sortKeys]
  | .arr items => by simp only [sortKeys, sortItems_idem items]
  | .obj fields => by
      simp only [sortKeys]
      rw [sortValues_eq_self, (List.pairwise_insertionSort keyLE _).insertionSort_eq]
      intro e he
      exact sortValues_fixed fields e ((List.perm_insertionSort keyLE _).subset he)

theorem sortItems_idem : ∀ items : List Json, sortItems (sortItems items) = sortItems items
  | [] => by simp only [sortItems]
  | item :: items => by simp only [sortItems, sortKeys_idem item, sortItems_idem items]

theorem sortValues_fixed : ∀ (fields : List (String × Json)), ∀ e ∈ sortValues fields,
    e.2.sortKeys = e.2
  | [], _, he => by cases he
  | (key, value) :: fields, e, he => by
      rw [sortValues] at he
      rcases List.mem_cons.mp he with rfl | he
      · exact sortKeys_idem value
      · exact sortValues_fixed fields e he

end

/-! ## Lookups -/

/-- An entry goes in front of every other entry with its key. -/
theorem lookup_orderedInsert (e : String × Json) (key : String) : ∀ d : Fields,
    (d.orderedInsert keyLE e).lookup key = (e :: d).lookup key
  | [] => rfl
  | f :: d => by
      rw [List.orderedInsert_cons]
      split
      · rfl
      · next hlt =>
        have hne : e.1 ≠ f.1 := by
          intro heq
          exact hlt (le_of_eq (congrArg String.toList heq))
        obtain ⟨k, v⟩ := e
        obtain ⟨l, w⟩ := f
        rw [List.lookup_cons, lookup_orderedInsert (k, v) key d]
        simp only [List.lookup_cons]
        cases hl : key == l with
        | false => rfl
        | true =>
          have hk : (key == k) = false := by
            refine beq_eq_false_iff_ne.mpr ?_
            rintro rfl
            exact hne (eq_of_beq hl)
          rw [hk]

theorem lookup_insertionSort (key : String) : ∀ d : Fields,
    (d.insertionSort keyLE).lookup key = d.lookup key
  | [] => rfl
  | (k, v) :: d => by
      rw [List.insertionSort_cons, lookup_orderedInsert, List.lookup_cons, List.lookup_cons,
        lookup_insertionSort key d]

theorem lookup_sortValues (key : String) : ∀ d : Fields,
    (sortValues d).lookup key = (d.lookup key).map sortKeys
  | [] => rfl
  | (k, v) :: d => by
      rw [sortValues, List.lookup_cons, List.lookup_cons, lookup_sortValues key d]
      cases key == k <;> rfl

/-! ## The order a dictionary was built in -/

/-- Dictionaries with the same entries, no key twice, are sorted alike. -/
theorem sortKeys_perm {d e : Fields} (h : d.Perm e) (hkeys : (d.map Prod.fst).Nodup) :
    (obj d).sortKeys = (obj e).sortKeys := by
  simp only [sortKeys, sortValues_eq_map]
  have hperm : ((d.map fun f => (f.1, f.2.sortKeys)).insertionSort keyLE).Perm
      ((e.map fun f => (f.1, f.2.sortKeys)).insertionSort keyLE) :=
    ((List.perm_insertionSort keyLE _).trans (h.map _)).trans (List.perm_insertionSort keyLE _).symm
  have hentry : ∀ f ∈ d, ∀ g ∈ d, f.1 = g.1 → f = g := fun f hf g hg heq =>
    List.inj_on_of_nodup_map hkeys hf hg heq
  refine congrArg _ (hperm.eq_of_pairwise ?_ (List.pairwise_insertionSort keyLE _)
    (List.pairwise_insertionSort keyLE _))
  intro a b ha hb hab hba
  obtain ⟨f, hf, rfl⟩ := List.mem_map.mp ((List.mem_insertionSort keyLE).mp ha)
  obtain ⟨g, hg, rfl⟩ := List.mem_map.mp ((List.mem_insertionSort keyLE).mp hb)
  -- two entries that come before each other have one key
  have hkey : f.1 = g.1 := String.toList_inj.mp (le_antisymm hab hba)
  rw [hentry f hf g (h.symm.subset hg) hkey]

end Json

/-- `d` as `json.loads` reads it back. -/
def Fields.sorted (d : Fields) : Fields := (Json.sortValues d).insertionSort keyLE

@[simp] theorem Json.sortKeys_obj (d : Fields) : (Json.obj d).sortKeys = .obj d.sorted := by
  rw [Json.sortKeys, Fields.sorted]

@[simp] theorem Fields.lookup_sorted (d : Fields) (key : String) :
    d.sorted.lookup key = (d.lookup key).map Json.sortKeys := by
  rw [Fields.sorted, Json.lookup_insertionSort, Json.lookup_sortValues]

@[simp] theorem Fields.at_sorted (d : Fields) (key : String) :
    d.sorted.at key = (d.at key).sortKeys := by
  rw [Fields.at, Fields.lookup_sorted, Fields.at]
  cases d.lookup key with
  | none => rw [Option.map_none, Option.getD_none, Json.sortKeys]
  | some v => rw [Option.map_some, Option.getD_some, Option.getD_some]

@[simp] theorem Fields.sorted_sorted (d : Fields) : d.sorted.sorted = d.sorted := by
  have h := Json.sortKeys_idem (.obj d)
  rw [Json.sortKeys_obj, Json.sortKeys_obj] at h
  exact Json.obj.inj h

end Lib.Py
