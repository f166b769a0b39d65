/-
# `Governance.Values` — the values an operational record is made of

The normalising readers of `operational_governance`: a text, a SHA-256 fingerprint, a
revision, a point in time, a JSON object without account identifiers.  Each returns a
value of a type that says what the reader has checked, and gives such a value back when
it is read again.  That second half is what makes a stored record readable: `from_dict`
runs the same readers on what `to_dict` wrote.

`Env` holds what the module takes from the Python library and the model leaves open: the
digest of a canonical text, the text of a JSON value and how it is read back, and the
ISO form of a point in time.
-/
import LiveTrader.Lib.DecimalText
import LiveTrader.Lib.JsonText

namespace LiveTrader.Governance

open Lib Lib.Py

/-! ## The library calls left open -/

/-- From `datetime.min` to `datetime.max`, in microseconds from 1970 in UTC. -/
def InRange (t : ℤ) : Prop := -62135596800000000 ≤ t ∧ t ≤ 253402300799999999

instance : DecidablePred InRange := fun t =>
  inferInstanceAs (Decidable (-62135596800000000 ≤ t ∧ t ≤ 253402300799999999))

/-- A `datetime` in UTC. -/
abbrev Instant := { t : ℤ // InRange t }

/-- `τ` is the type of the text that `json.dumps` makes of a value. -/
structure Env (τ : Type) where
  /-- `hashlib.sha256(…).hexdigest()` of the canonical text. -/
  sha256 : Json → String
  sha256_isHash : ∀ v, isHash (sha256 v) = true
  /-- `json.dumps(value, ensure_ascii=False, sort_keys=True)`. -/
  dumps : Json → τ
  /-- `json.loads(text)`. -/
  loads : τ → Result Json
  loads_dumps : ∀ v, loads (dumps v) = .ok v.sortKeys
  /-- `str(value)` of a value that is not a text. -/
  repr : Json → String
  /-- `int(text)`. -/
  int : String → Option ℤ
  /-- `str.upper`, where the text is kept. -/
  upper : String → String
  /-- `str.isalnum` beyond ASCII. -/
  alnumBeyond : Char → Bool
  /-- `datetime.fromisoformat(text)`. -/
  fromisoformat : String → Option Datetime
  /-- `value.isoformat().replace("+00:00", "Z")` of a `datetime` in UTC. -/
  isoformat : Instant → String
  isoformat_text : ∀ t, isoformat t ≠ "" ∧ strip (isoformat t) = isoformat t
  fromisoformat_isoformat : ∀ t, fromisoformat (replaceZ (isoformat t)) = some ⟨t.1, true⟩

variable {τ : Type} (env : Env τ)

/-- `stable_sha256`. -/
def stableSha256 (value : Json) : String := env.sha256 value.sortKeys

/-- `str(value or "")`. -/
def Env.text (value : Json) : String :=
  match value.orElse (.str "") with
  | .str s => s
  | v => env.repr v

@[simp] theorem text_str (s : String) : env.text (.str s) = s := by
  by_cases h : s = "" <;> simp [Env.text, Json.orElse, Json.truthy, h]

/-! ## Texts -/

/-- A text as `_required_text` leaves it. -/
def IsRequiredText (s : String) : Prop := strip s = s ∧ s ≠ "" ∧ s.toList.length ≤ 500

instance (s : String) : Decidable (IsRequiredText s) :=
  inferInstanceAs (Decidable (strip s = s ∧ s ≠ "" ∧ s.toList.length ≤ 500))

abbrev RequiredText := { s : String // IsRequiredText s }

/-- `_required_text`. -/
def requiredText (value : Json) (label : String) : Result RequiredText :=
  let text := strip (env.text value)
  if hempty : text = "" then .error (.value (label ++ " is required"))
  else if hlong : 500 < text.toList.length then .error (.value (label ++ " is too long"))
  else .ok ⟨text, strip_strip _, hempty, not_lt.mp hlong⟩

@[simp] theorem requiredText_self (t : RequiredText) (label : String) :
    requiredText env (.str t.1) label = .ok t := by
  obtain ⟨s, hstrip, hempty, hlong⟩ := t
  simp only [requiredText, text_str, hstrip]
  rw [dif_neg hempty, dif_neg (not_lt.mpr hlong)]

/-! ## Fingerprints -/

/-- The characters of a hash are neither blanks nor upper case. -/
theorem hash_char {c : Char} (h : (('0' ≤ c && c ≤ '9') || ('a' ≤ c && c ≤ 'f')) = true) :
    isSpace c = false ∧ c.toNat ≠ 0x212A ∧ c.toLower = c := by
  have hn : 48 ≤ c.toNat ∧ c.toNat ≤ 57 ∨ 97 ≤ c.toNat ∧ c.toNat ≤ 102 := by
    simp only [Bool.or_eq_true, Bool.and_eq_true, decide_eq_true_eq] at h
    exact h
  refine ⟨?_, by omega, ?_⟩
  · simp only [isSpace, Bool.or_eq_false_iff, Bool.and_eq_false_iff, decide_eq_false_iff_not,
      beq_eq_false_iff_ne]
    omega
  · refine dif_neg ?_
    rintro ⟨hA, hZ⟩
    have hA' : 65 ≤ c.toNat := hA
    have hZ' : c.toNat ≤ 90 := hZ
    omega

theorem isHash_chars {s : String} (h : isHash s = true) : ∀ c ∈ s.toList,
    isSpace c = false ∧ c.toNat ≠ 0x212A ∧ c.toLower = c := by
  rw [isHash, Bool.and_eq_true, List.all_eq_true] at h
  exact fun c hc => hash_char (h.2 c hc)

theorem isHash_strip {s : String} (h : isHash s = true) : strip s = s := by
  have hchars := isHash_chars h
  rw [strip, trim_of_trimmed, String.ofList_toList]
  exact ⟨fun c hc => (hchars c (List.mem_of_mem_head? hc)).1,
    fun c hc => (hchars c (List.mem_of_mem_getLast? hc)).1⟩

theorem isHash_lower {s : String} (h : isHash s = true) : lower s = s := by
  have hmap : (s.toList.map fun c => if c.toNat = 0x212A then 'k' else c.toLower) = s.toList := by
    refine (List.map_congr_left fun c hc => ?_).trans (List.map_id _)
    obtain ⟨-, hkelvin, hlower⟩ := isHash_chars h c hc
    rw [if_neg hkelvin, hlower, id]
  rw [lower, hmap, String.ofList_toList]

theorem isHash_ne_empty {s : String} (h : isHash s = true) : s ≠ "" := by
  rintro rfl
  exact absurd h (by decide)

abbrev Sha256 := { s : String // isHash s = true }

/-- `_required_sha256`. -/
def requiredSha256 (value : Json) (label : String) : Result Sha256 :=
  let text := lower (strip (env.text value))
  if h : isHash text = true then .ok ⟨text, h⟩
  else .error (.value (label ++ " must be a SHA-256 hex fingerprint"))

@[simp] theorem requiredSha256_self (h : Sha256) (label : String) :
    requiredSha256 env (.str h.1) label = .ok h := by
  simp only [requiredSha256, text_str, isHash_strip h.2, isHash_lower h.2]
  rw [dif_pos h.2]

/-- A fingerprint, or nothing. -/
abbrev OptionalSha256 := { s : String // s = "" ∨ isHash s = true }

/-- `_optional_sha256`. -/
def optionalSha256 (value : Json) (label : String) : Result OptionalSha256 :=
  let text := strip (env.text value)
  if text = "" then .ok ⟨"", .inl rfl⟩
  else (requiredSha256 env (.str text) label).map fun h => ⟨h.1, .inr h.2⟩

@[simp] theorem optionalSha256_self (h : OptionalSha256) (label : String) :
    optionalSha256 env (.str h.1) label = .ok h := by
  obtain ⟨s, hs⟩ := h
  rcases hs with rfl | hs
  · simp only [optionalSha256, text_str]
    rw [if_pos (by decide)]
  · simp only [optionalSha256, text_str, isHash_strip hs]
    rw [if_neg (isHash_ne_empty hs), requiredSha256_self env ⟨s, hs⟩]
    rfl

/-- A key that is looked up under a second name reads the same fingerprint. -/
theorem optionalSha256_orElse (h : OptionalSha256) (label : String) :
    optionalSha256 env ((Json.str h.1).orElse .null) label = .ok h := by
  by_cases hempty : h.1 = ""
  · have hnull : (Json.str h.1).orElse .null = .null := by simp [Json.orElse, Json.truthy, hempty]
    rw [hnull, ← optionalSha256_self env h label, hempty]
    rfl
  · have hstr : (Json.str h.1).orElse .null = .str h.1 := by simp [Json.orElse, Json.truthy, hempty]
    rw [hstr, optionalSha256_self]

/-! ## Numbers -/

abbrev Revision := { n : ℤ // 1 ≤ n }

/-- `int(value)`; `none` where it raises a `TypeError` or a `ValueError`. -/
def Env.int? : Json → Option ℤ
  | .int n => some n
  | .bool b => some (if b then 1 else 0)
  | .float q => some (q.num.tdiv q.den)
  | .str s => env.int s
  | _ => none

/-- `_positive_revision`. -/
def positiveRevision (value : Json) (label : String) : Result Revision := do
  let revision ← orRaise (.value (label ++ " must be an integer")) (env.int? value)
  if h : 1 ≤ revision then pure ⟨revision, h⟩
  else .error (.value (label ++ " must be at least 1"))

@[simp] theorem positiveRevision_self (r : Revision) (label : String) :
    positiveRevision env (.int r.1) label = .ok r := by
  simp only [positiveRevision, Env.int?, orRaise, ok_bind]
  rw [dif_pos r.2]
  rfl

/-- A number bound to an `INTEGER` column. -/
def sqliteInt (n : ℤ) : Result Unit :=
  require (-9223372036854775808 ≤ n ∧ n ≤ 9223372036854775807)
    (.runtime "Python int too large to convert to SQLite INTEGER")

/-! ## Times -/

/-- What a caller may give as a time; the clock of the store gives a `datetime` too. -/
inductive When where
  | datetime (d : Datetime)
  | text (s : String)

/-- `_utc_iso`: the instant of which the returned text is the ISO form. -/
def utcIso (value : When) (label : String) : Result Instant := do
  let parsed ← match value with
    | .datetime d => .ok d
    | .text s => do
      require (strip s ≠ "") (.value (label ++ " is required"))
      orRaise (.value (label ++ " must be an ISO-8601 timestamp")) (env.fromisoformat (replaceZ (strip s)))
  require (parsed.aware = true) (.value (label ++ " must include a timezone"))
  if h : InRange parsed.micros then pure ⟨parsed.micros, h⟩
  else .error (.runtime "date value out of range")

@[simp] theorem utcIso_isoformat (t : Instant) (label : String) :
    utcIso env (.text (env.isoformat t)) label = .ok t := by
  obtain ⟨hempty, hstrip⟩ := env.isoformat_text t
  simp only [utcIso, hstrip, require_true hempty, env.fromisoformat_isoformat, orRaise, ok_bind,
    require_true]
  rw [dif_pos t.2]
  rfl

/-! ## Enumerations -/

/-- `_enum_text`, for an enumeration given by its texts. -/
def enumText {α : Type} (names : List (String × α)) (value : String) (label : String) : Result α :=
  let normalized := upper (strip value)
  orRaise (.value ("unsupported " ++ label ++ ": " ++ orElse normalized "-")) (names.lookup normalized)

/-! ## JSON objects -/

/-- `str.lower` on one character; a capital I with a dot becomes an i and a dot. -/
def lowerChar (c : Char) : List Char :=
  if c.toNat = 0x130 then ['i', Char.ofNat 0x307] else (lower (String.singleton c)).toList

/-- `str.isalnum` on one character. -/
def Env.isalnum (c : Char) : Bool := if c.toNat < 128 then c.isAlphanum else env.alnumBeyond c

/-- `_normalized_key`. -/
def normalizedKey (key : String) : List Char := (key.toList.flatMap lowerChar).filter env.isalnum

/-- `_FORBIDDEN_ACCOUNT_KEYS`. -/
def forbiddenAccountKeys : List String :=
  ["account", "accountid", "accountno", "accountnumber", "brokeraccount", "brokeraccountid",
    "brokeraccountno", "brokeraccountnumber", "cano", "kisaccountno", "paperaccountid"]

/-- A key that may hold a raw account identifier. -/
def isAccountKey (key : String) : Bool :=
  let normalized := normalizedKey env key
  (forbiddenAccountKeys.any fun name => name.toList == normalized) ||
    ((["accountid", "accountno", "accountnumber"].any fun name => name.toList.isSuffixOf normalized) &&
      !normalized.tails.any fun tail => "fingerprint".toList.isPrefixOf tail)

mutual

/-- `_assert_no_raw_account_material`. -/
def assertNoRawAccountMaterial (value : Json) (path : String) : Result Unit :=
  match value with
  | .obj fields => assertFields fields path
  | .arr items => assertItems items path 0
  | _ => .ok ()

def assertFields (fields : List (String × Json)) (path : String) : Result Unit :=
  match fields with
  | [] => .ok ()
  | (key, item) :: fields => do
    require (isAccountKey env key = false)
      (.value (path ++ "." ++ key ++ " may not contain a raw account identifier; " ++
        "pass accountFingerprint instead"))
    assertNoRawAccountMaterial item (path ++ "." ++ key)
    assertFields fields path

def assertItems (items : List Json) (path : String) (index : ℕ) : Result Unit :=
  match items with
  | [] => .ok ()
  | item :: items => do
    assertNoRawAccountMaterial item (path ++ "[" ++ toString index ++ "]")
    assertItems items path (index + 1)

end

mutual

/-- No key at any depth may hold a raw account identifier. -/
def Clean : Json → Prop
  | .obj fields => CleanFields fields
  | .arr items => CleanItems items
  | _ => True

def CleanFields : List (String × Json) → Prop
  | [] => True
  | (key, item) :: fields => isAccountKey env key = false ∧ Clean item ∧ CleanFields fields

def CleanItems : List Json → Prop
  | [] => True
  | item :: items => Clean item ∧ CleanItems items

end

mutual

theorem assertNoRaw_eq_ok : ∀ {value : Json} {path : String} {u : Unit},
    assertNoRawAccountMaterial env value path = .ok u ↔ Clean env value
  | .obj fields, path, u => by rw [assertNoRawAccountMaterial, Clean, assertFields_eq_ok]
  | .arr items, path, u => by rw [assertNoRawAccountMaterial, Clean, assertItems_eq_ok]
  | .null, _, _ => by simp [assertNoRawAccountMaterial, Clean]
  | .bool _, _, _ => by simp [assertNoRawAccountMaterial, Clean]
  | .int _, _, _ => by simp [assertNoRawAccountMaterial, Clean]
  | .float _, _, _ => by simp [assertNoRawAccountMaterial, Clean]
  | .str _, _, _ => by simp [assertNoRawAccountMaterial, Clean]

theorem assertFields_eq_ok : ∀ {fields : List (String × Json)} {path : String} {u : Unit},
    assertFields env fields path = .ok u ↔ CleanFields env fields
  | [], _, _ => by simp [assertFields, CleanFields]
  | (key, item) :: fields, path, u => by
      simp only [assertFields, CleanFields, bind_eq_ok, require_eq_ok, assertNoRaw_eq_ok,
        assertFields_eq_ok, exists_and_left, exists_const]

theorem assertItems_eq_ok : ∀ {items : List Json} {path : String} {index : ℕ} {u : Unit},
    assertItems env items path index = .ok u ↔ CleanItems env items
  | [], _, _, _ => by simp [assertItems, CleanItems]
  | item :: items, path, index, u => by
      simp only [assertItems, CleanItems, bind_eq_ok, assertNoRaw_eq_ok, assertItems_eq_ok,
        exists_and_left, exists_const]

end

/-! ### Sorting keeps an object clean -/

theorem cleanFields_iff : ∀ {fields : List (String × Json)},
    CleanFields env fields ↔ ∀ e ∈ fields, isAccountKey env e.1 = false ∧ Clean env e.2
  | [] => by simp [CleanFields]
  | (key, item) :: fields => by
      rw [CleanFields, cleanFields_iff, List.forall_mem_cons, and_assoc]

mutual

theorem Clean.sortKeys : ∀ {value : Json}, Clean env value → Clean env value.sortKeys
  | .obj fields, h => by
      rw [Json.sortKeys, Clean, cleanFields_iff]
      rw [Clean] at h
      intro e he
      exact (cleanFields_iff env).mp (CleanFields.sortValues h) e
        ((List.mem_insertionSort keyLE).mp he)
  | .arr items, h => by
      rw [Clean] at h
      rw [Json.sortKeys, Clean]
      exact CleanItems.sortItems h
  | .null, _ => by rw [Json.sortKeys]; simp [Clean]
  | .bool _, _ => by rw [Json.sortKeys]; simp [Clean]
  | .int _, _ => by rw [Json.sortKeys]; simp [Clean]
  | .float _, _ => by rw [Json.sortKeys]; simp [Clean]
  | .str _, _ => by rw [Json.sortKeys]; simp [Clean]

theorem CleanFields.sortValues : ∀ {fields : List (String × Json)}, CleanFields env fields →
    CleanFields env (Json.sortValues fields)
  | [], h => h
  | (_, _) :: _, h => ⟨h.1, h.2.1.sortKeys, h.2.2.sortValues⟩

theorem CleanItems.sortItems : ∀ {items : List Json}, CleanItems env items →
    CleanItems env (Json.sortItems items)
  | [], h => h
  | _ :: _, h => ⟨h.1.sortKeys, h.2.sortItems⟩

end

/-- `_json_object`. -/
def jsonObject (value : Fields) (label : String) : Result Fields := do
  assertNoRawAccountMaterial env (.obj value) label
  match ← env.loads (env.dumps (.obj value)) with
  | .obj decoded => pure decoded
  | _ => .error (.value (label ++ " must be an object"))

/-- An object as `_json_object` leaves it. -/
structure IsNormal (d : Fields) : Prop where
  clean : Clean env (.obj d)
  sorted : d.sorted = d

theorem jsonObject_eq_ok {value d : Fields} {label : String} :
    jsonObject env value label = .ok d ↔ Clean env (.obj value) ∧ value.sorted = d := by
  simp only [jsonObject, env.loads_dumps, Json.sortKeys_obj, bind_eq_ok, assertNoRaw_eq_ok,
    Except.ok.injEq, exists_eq_left', pure_eq_ok, exists_and_left, exists_const]

theorem jsonObject_normal {value d : Fields} {label : String} (h : jsonObject env value label = .ok d) :
    IsNormal env d := by
  obtain ⟨hclean, rfl⟩ := (jsonObject_eq_ok env).mp h
  refine ⟨?_, Fields.sorted_sorted value⟩
  rw [← Json.sortKeys_obj]
  exact hclean.sortKeys

theorem IsNormal.jsonObject {d : Fields} (h : IsNormal env d) (label : String) :
    jsonObject env d label = .ok d := (jsonObject_eq_ok env).mpr ⟨h.clean, h.sorted⟩

/-! ## An environment to evaluate runs in -/

/-- Four fingerprints to stand for digests. -/
def sampleHash : ℕ → String
  | 1 => "1aaaaaaaaaaaaaaaaaaaaaaaaaaaaaaaaaaaaaaaaaaaaaaaaaaaaaaaaaaaaaaa"
  | 2 => "2aaaaaaaaaaaaaaaaaaaaaaaaaaaaaaaaaaaaaaaaaaaaaaaaaaaaaaaaaaaaaaa"
  | 3 => "3aaaaaaaaaaaaaaaaaaaaaaaaaaaaaaaaaaaaaaaaaaaaaaaaaaaaaaaaaaaaaaa"
  | _ => "4aaaaaaaaaaaaaaaaaaaaaaaaaaaaaaaaaaaaaaaaaaaaaaaaaaaaaaaaaaaaaaa"

/-- Events differ in their number, manifests and snapshots in their deployment. -/
def sampleMark : Json → ℕ
  | .obj d =>
    match d.lookup "sequence", d.lookup "deploymentId" with
    | some (.int n), _ => n.toNat
    | _, some (.str id) => if id = "A" then 1 else 2
    | _, _ => 0
  | _ => 0

theorem sampleHash_isHash (n : ℕ) : isHash (sampleHash n) = true := by
  unfold sampleHash
  split <;> decide

/-- Microseconds by strokes, but for the end of the first second. -/
def sampleIso (t : Instant) : String :=
  if t.1 = 1000000 then "e"
  else String.ofList ((if 0 ≤ t.1 then 'p' else 'n') :: List.replicate t.1.natAbs '1')

def sampleFromIso (s : String) : Option Datetime :=
  match s.toList with
  | 'e' :: _ => some ⟨1000000, true⟩
  | 'p' :: strokes => some ⟨strokes.length, true⟩
  | 'n' :: strokes => some ⟨-strokes.length, true⟩
  | _ => none

theorem sampleIso_chars (t : Instant) : (sampleIso t).toList ≠ [] ∧
    ∀ c ∈ (sampleIso t).toList, isSpace c = false ∧ c ≠ 'Z' := by
  have hplain : ∀ c ∈ ['e', 'p', 'n', '1'], isSpace c = false ∧ c ≠ 'Z' := by
    simp only [List.mem_cons, List.not_mem_nil, or_false, forall_eq_or_imp, forall_eq]
    decide
  rw [sampleIso]
  split
  · exact ⟨by decide, fun c hc => hplain c (by simp_all)⟩
  · rw [String.toList_ofList]
    refine ⟨List.cons_ne_nil _ _, fun c hc => hplain c ?_⟩
    rcases List.mem_cons.mp hc with rfl | hc
    · split <;> simp
    · simp [List.eq_of_mem_replicate hc]

theorem sampleFromIso_sampleIso (t : Instant) :
    sampleFromIso (replaceZ (sampleIso t)) = some ⟨t.1, true⟩ := by
  have hreplace : replaceZ (sampleIso t) = sampleIso t := by
    have hflat : ∀ cs : List Char, (∀ c ∈ cs, c ≠ 'Z') →
        (cs.flatMap fun c => if c = 'Z' then "+00:00".toList else [c]) = cs := by
      intro cs hcs
      induction cs with
      | nil => rfl
      | cons c cs ih =>
        rw [List.flatMap_cons, if_neg (hcs c List.mem_cons_self),
          ih fun c' hc' => hcs c' (List.mem_cons_of_mem _ hc')]
        rfl
    rw [replaceZ, hflat _ fun c hc => ((sampleIso_chars t).2 c hc).2, String.ofList_toList]
  rw [hreplace, sampleIso, sampleFromIso]
  by_cases hend : t.1 = 1000000
  · rw [if_pos hend, hend]
    rfl
  · rw [if_neg hend, String.toList_ofList]
    by_cases hsign : 0 ≤ t.1
    · rw [if_pos hsign]
      simp [List.length_replicate, Int.natAbs_of_nonneg hsign]
    · rw [if_neg hsign]
      simp only [List.length_replicate, Option.some.injEq, Datetime.mk.injEq, and_true]
      omega

/-- Values are their own texts, so that a run can be evaluated. -/
def Env.sample : Env Json where
  sha256 v := sampleHash (sampleMark v)
  sha256_isHash v := sampleHash_isHash _
  dumps := id
  loads v := .ok v.sortKeys
  loads_dumps _ := rfl
  repr _ := "?"
  int _ := none
  upper := Lib.Py.upper
  alnumBeyond _ := false
  fromisoformat := sampleFromIso
  isoformat := sampleIso
  isoformat_text t := by
    obtain ⟨hne, hchars⟩ := sampleIso_chars t
    refine ⟨?_, ?_⟩
    · intro hempty
      rw [hempty] at hne
      exact hne rfl
    · rw [strip, trim_of_trimmed, String.ofList_toList]
      exact ⟨fun c hc => (hchars c (List.mem_of_mem_head? hc)).1,
        fun c hc => (hchars c (List.mem_of_mem_getLast? hc)).1⟩
  fromisoformat_isoformat := sampleFromIso_sampleIso

end LiveTrader.Governance
