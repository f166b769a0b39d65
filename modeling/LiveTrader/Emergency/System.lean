/-
# `Emergency.System` — processes that share one latch

The latch is one JSON document, and a marker beside it says that it has been written once.
A reader asks for the document, for the marker where there is no document, and reads the
document where there is one; whatever it cannot read counts as active.  The one exception
is a document nested beyond the recursion limit: `json.loads` raises a `RecursionError`,
which the reader does not catch.

The texts of JSON documents are taken as their values, the hash of a nonce and `str` on
values that are not texts are left open in `Env`.

Each process has its two sticky variables, and its calls take turns on `_WRITE_LOCK`; no
lock reaches another process.  A call is a sequence of steps on the disk: asking for the
latch, asking for the marker, reading the document, making the marker and replacing the
document.  Between any two of them the other processes take theirs, and others may put
anything on the disk.  A writing step may fail with an `OSError`, before or after it has
taken effect.

`history` keeps what the calls of a process have returned, in order, and of a release which
latch it has replaced.
-/
import LiveTrader.Lib.Json
import LiveTrader.Lib.Runs

namespace LiveTrader.Emergency

open Lib Lib.Py

/-- What the latch uses of hashes and texts. -/
structure Env where
  /-- `hashlib.sha256(nonce.encode("utf-8")).hexdigest()`. -/
  sha256 : String → String
  sha256_ne_empty : ∀ s, sha256 s ≠ ""
  /-- `str` on a value that is not a text. -/
  repr : Json → String

/-- `str(value or "")`. -/
def Env.text (env : Env) (value : Json) : String :=
  match value.orElse (.str "") with
  | .str s => s
  | v => env.repr v

/-! ## Texts -/

/-- The code points of a text; a text may have lone surrogates. -/
abbrev CodePoints := List ℕ

/-- `text.encode("utf-8")`, which raises at a lone surrogate. -/
def encode (text : CodePoints) : Option String :=
  if ∀ c ∈ text, c.isValidChar then some (String.ofList (text.map Char.ofNat)) else none

/-- `str(value or default)[:limit]`. -/
def clip (value : CodePoints) (default : String) (limit : ℕ) : CodePoints :=
  (if value = [] then default.toList.map Char.toNat else value).take limit

/-! ## Documents -/

/-- What a document has that its caller does not choose. -/
structure Stamp where
  updatedAt : String
  writerPid : ℤ
  nonce : String

/-- `_document`, once its reason and its source are encoded. -/
def document (active : Bool) (reason source : String) (stamp : Stamp) : Fields :=
  [("schemaVersion", .int 1), ("active", .bool active), ("updatedAt", .str stamp.updatedAt),
    ("reason", .str reason), ("source", .str source), ("writerPid", .int stamp.writerPid),
    ("nonce", .str stamp.nonce)]

/-- The clipped reason and source of a document, as they are written. -/
def written (reason source : CodePoints) : Option (String × String) :=
  match encode (clip reason "operator emergency stop" 500), encode (clip source "unknown" 120) with
  | some r, some s => some (r, s)
  | _, _ => none

/-- What the file of the latch holds. -/
inductive Content where
  /-- Reading or parsing it raises an `OSError` or a `ValueError` of this name. -/
  | unreadable (error : String)
  /-- It is nested beyond the recursion limit. -/
  | deep
  | json (payload : Json)

/-- What there is at the path of the latch; `lstat` may also raise an `OSError`. -/
inductive Latch where
  | absent
  | hidden (error : String)
  | file (content : Content)

/-- What there is at the path of the marker. -/
inductive Marker where
  | absent
  | hidden (error : String)
  | present

structure Disk where
  latch : Latch
  marker : Marker

/-! ## Reading -/

/-- What a reader has seen. -/
inductive Seen where
  | hidden (error : String)
  | missing (marker : Marker)
  | content (content : Content)

/-- What `emergency_stop_status` returns, less the path. -/
structure Status where
  active : Bool
  durable : Bool
  status : String
  reason : String
  source : String
  updatedAt : String
  revision : String
  durableRevision : Option String := none

/-- What cannot be read is active. -/
def failClosed (status reason revision : String) : Status :=
  { active := true, durable := false, status, reason, source := "latch-reader", updatedAt := "", revision }

/-- The document as it is, or the `ValueError` for which it is not one. -/
def readDocument (env : Env) (payload : Json) : Option Status :=
  match payload with
  | .obj d =>
    if (Fields.at d "schemaVersion").eq (.int 1) = false then none
    else
      match Fields.at d "active" with
      | .bool active =>
        let nonce := env.text (Fields.at d "nonce")
        if nonce = "" then none
        else some {
          active
          durable := true
          status := if active then "engaged" else "clear"
          reason := env.text (Fields.at d "reason")
          source := env.text (Fields.at d "source")
          updatedAt := env.text (Fields.at d "updatedAt")
          revision := env.sha256 nonce }
      | _ => none
  | _ => none

/-- `_durable_emergency_stop_status`, for what it sees. -/
def durableEmergencyStopStatus (env : Env) : Seen → Result Status
  | .hidden error =>
    .ok (failClosed "fail-closed" ("emergency-stop-state-presence-unavailable:" ++ error) "unavailable")
  | .missing (.hidden error) =>
    .ok (failClosed "fail-closed" ("emergency-stop-marker-presence-unavailable:" ++ error) "unavailable")
  | .missing .present =>
    .ok (failClosed "fail-closed-missing" "emergency-stop-state-missing-after-initialization"
      "initialized-missing")
  | .missing .absent =>
    .ok { active := false, durable := true, status := "clear", reason := "", source := ""
          updatedAt := "", revision := "missing" }
  | .content (.unreadable error) =>
    .ok (failClosed "fail-closed" ("emergency-stop-state-unavailable:" ++ error) "unavailable")
  | .content .deep => .error (.runtime "maximum recursion depth exceeded")
  | .content (.json payload) =>
    .ok ((readDocument env payload).getD
      (failClosed "fail-closed" "emergency-stop-state-unavailable:ValueError" "unavailable"))

/-! ## What a reading says -/

/-- The document is one of the latch: its schema is the number one, it says whether it is
active and it has a nonce. -/
def IsDocument (env : Env) (payload : Json) : Prop :=
  ∃ d : Fields, payload = .obj d ∧ (d.at "schemaVersion" = .int 1 ∨ d.at "schemaVersion" = .float 1) ∧
    (∃ active, d.at "active" = .bool active) ∧ env.text (d.at "nonce") ≠ ""

/-- The schema of a document is `true`, which is equal to one. -/
def trueSchema : Json → Bool
  | .obj d => (Fields.at d "schemaVersion").isTrue
  | _ => false

/-- The latch cannot be read, holds no document of its own, or is missing though its marker is
there. -/
def Broken (env : Env) : Seen → Prop
  | .hidden _ => True
  | .missing .absent => False
  | .missing _ => True
  | .content (.json payload) => ¬ IsDocument env payload
  | .content _ => True

open Lib Lib.Py Lib.Runs

/-! ## Processes -/

/-- The call a reading belongs to. -/
inductive Reader where
  | status
  | boundary
  /-- The verification of an engaged stop. -/
  | engaged
  /-- The status a release starts from. -/
  | release (reason source : CodePoints) (expectedRevision : String)
  /-- The verification of a release, with the revision it expected and the latch it replaced. -/
  | released (expectedRevision : String) (replaced : Latch)

/-- The call a write belongs to. -/
inductive Writer where
  | engage (reason source : CodePoints)
  | release (reason source : CodePoints) (expectedRevision : String)

/-- Where the call of a process is. -/
inductive Pc where
  | idle
  /-- `path.lstat()` is next. -/
  | latch (reader : Reader)
  /-- `lstat` of the marker is next. -/
  | marker (reader : Reader)
  /-- `path.read_text()` is next. -/
  | read (reader : Reader)
  /-- `_ensure_initialized_marker` is next. -/
  | prepare (writer : Writer)
  /-- The temporary file and `os.replace` are next. -/
  | replace (writer : Writer)

/-- What `engage_emergency_stop` and `clear_emergency_stop` return, less the path. -/
inductive Answer where
  /-- `{"ok": ok, **status}`. -/
  | status (ok : Bool) (status : Status)
  /-- `{"ok": False, "active": True, "durable": durable, "status": status, "reason": reason}`. -/
  | refused (durable : Bool) (status reason : String)

/-- How a call has ended. -/
inductive Outcome where
  | status (seen : Seen) (report : Result Status)
  | boundary (seen : Seen) (report : Result Status)
  | engaged (answer : Result Answer)
  /-- A release, with the revision it expected and the latch it replaced. -/
  | released (replaced : Option (String × Latch)) (answer : Result Answer)

structure Process where
  stickyFailClosedReason : String := ""
  stickyActiveRevision : String := ""
  pc : Pc := .idle
  history : List Outcome := []

namespace Process

def finish (proc : Process) (outcome : Outcome) : Process :=
  { proc with pc := .idle, history := proc.history ++ [outcome] }

def goto (proc : Process) (pc : Pc) : Process := { proc with pc }

/-- `_set_sticky_fail_closed`; its reasons are never empty. -/
def setStickyFailClosed (proc : Process) (reason : String) : Process :=
  { proc with stickyFailClosedReason := reason }

end Process

/-! ## `emergency_stop_status` -/

/-- An active document is remembered. -/
def observe (proc : Process) (durable : Status) : Process :=
  if durable.active = true ∧ durable.durable = true then
    { proc with stickyActiveRevision := durable.revision }
  else proc

/-- What is reported of a durable status. -/
def report (proc : Process) (durable : Status) : Status :=
  if proc.stickyFailClosedReason ≠ "" then
    { durable with
      active := true, durable := false, status := "sticky-fail-closed"
      reason := proc.stickyFailClosedReason, source := "latch-writer" }
  else if proc.stickyActiveRevision ≠ "" ∧ durable.active = false then
    { durable with
      active := true, durable := false, status := "sticky-active-state-missing"
      reason := "emergency-stop-active-document-disappeared", source := "latch-observer"
      durableRevision := some durable.revision, revision := proc.stickyActiveRevision }
  else durable

/-! ## The calls after a reading -/

/-- `engage_emergency_stop` after its write. -/
def verifyEngaged (proc : Process) (status : Status) : Process :=
  if status.active = true ∧ status.durable = true then
    proc.finish (.engaged (.ok (.status true status)))
  else
    (proc.setStickyFailClosed "emergency-stop-write-verification-failed").finish
      (.engaged (.ok (.status false { status with reason := "emergency-stop-write-verification-failed" })))

/-- `secrets.compare_digest` takes texts of ASCII characters only. -/
def compareDigest (expected revision : String) : Result Bool :=
  if expected.toList.all (·.toNat < 128) && revision.toList.all (·.toNat < 128) then
    .ok (expected = revision)
  else .error (.type "comparing strings with non-ASCII characters is not supported")

/-- `clear_emergency_stop` from its status to its write. -/
def checkRevision (proc : Process) (current : Status) (reason source : CodePoints)
    (expectedRevision : String) : Process :=
  let expected := strip expectedRevision
  if expected = "" then proc.goto (.prepare (.release reason source expectedRevision))
  else
    match compareDigest expected current.revision with
    | .error e => proc.finish (.released none (.error e))
    | .ok true => proc.goto (.prepare (.release reason source expectedRevision))
    | .ok false => proc.finish (.released none (.ok (.status false
        { current with active := true, reason := "emergency-stop-release-revision-changed" })))

/-- `clear_emergency_stop` after its write. -/
def verifyReleased (proc : Process) (status : Status) (replaced : String × Latch) : Process :=
  if status.active = false ∧ status.durable = true then
    { proc with stickyFailClosedReason := "", stickyActiveRevision := "" }.finish
      (.released replaced (.ok (.status true status)))
  else
    (proc.setStickyFailClosed "emergency-stop-release-verification-failed").finish
      (.released replaced (.ok (.status false
        { status with reason := "emergency-stop-release-verification-failed" })))

/-- What a raised exception ends. -/
def raised (reader : Reader) (seen : Seen) (e : Error) : Outcome :=
  match reader with
  | .status => .status seen (.error e)
  | .boundary => .boundary seen (.error e)
  | .engaged => .engaged (.error e)
  | .release _ _ _ => .released none (.error e)
  | .released expected latch => .released (expected, latch) (.error e)

/-- A reading is complete. -/
def conclude (env : Env) (proc : Process) (seen : Seen) (reader : Reader) : Process :=
  match durableEmergencyStopStatus env seen with
  | .error e => proc.finish (raised reader seen e)
  | .ok durable =>
    let proc' := observe proc durable
    match reader with
    | .status => proc'.finish (.status seen (.ok (report proc' durable)))
    | .boundary => proc'.finish (.boundary seen (.ok (report proc' durable)))
    | .engaged => verifyEngaged proc' (report proc' durable)
    | .release reason source expected => checkRevision proc' (report proc' durable) reason source expected
    | .released expected latch => verifyReleased proc durable (expected, latch)

/-! ## Steps -/

/-- A call with its arguments. -/
inductive Call where
  | status
  | boundary
  | engage (reason source : CodePoints)
  | clear (confirmed : Bool) (reason source : CodePoints) (expectedRevision : String)

/-- A call starts. -/
def begin (proc : Process) : Call → Process
  | .status => proc.goto (.latch .status)
  | .boundary => proc.goto (.latch .boundary)
  | .engage reason source => proc.goto (.prepare (.engage reason source))
  | .clear true reason source expected => proc.goto (.latch (.release reason source expected))
  | .clear false _ _ _ => proc.finish (.released none (.ok (.refused true "release-blocked"
      "emergency-stop-release-confirmation-required")))

/-- How a writing step goes. -/
inductive Fault where
  | none
  /-- It raises this `OSError` and has done nothing. -/
  | before (error : String)
  /-- It has taken effect and raises this `OSError`. -/
  | after (error : String)

/-- The writing step has an effect. -/
def Fault.acts : Fault → Bool
  | .before _ => false
  | _ => true

/-- The error a writing step raises. -/
def Fault.error? : Fault → Option String
  | .none => Option.none
  | .before e | .after e => some e

/-- A write has raised an `OSError`. -/
def writeFailed (proc : Process) (error : String) : Writer → Process
  | .engage _ _ =>
    let reason := "emergency-stop-write-failed:" ++ error
    (proc.setStickyFailClosed reason).finish
      (.engaged (.ok (.refused false "write-failed-local-fail-closed" reason)))
  | .release _ _ _ =>
    let reason := "emergency-stop-release-failed:" ++ error
    (proc.setStickyFailClosed reason).finish
      (.released none (.ok (.refused false "release-write-failed" reason)))

/-- The texts of a writer's document, if they can be encoded. -/
def Writer.texts : Writer → Option (String × String)
  | .engage reason source => written reason source
  | .release reason source _ => written reason source

/-- A writer engages the stop. -/
def Writer.active : Writer → Bool
  | .engage _ _ => true
  | .release _ _ _ => false

/-- `handle.write` raises a `UnicodeEncodeError`, which is no `OSError`. -/
def encodingFailed (proc : Process) : Writer → Process
  | .engage _ _ => proc.finish (.engaged (.error (.value "surrogates not allowed")))
  | .release _ _ _ => proc.finish (.released none (.error (.value "surrogates not allowed")))

/-- The reading that verifies a write. -/
def Writer.verification (replaced : Latch) : Writer → Reader
  | .engage _ _ => .engaged
  | .release _ _ expected => .released expected replaced

/-- `_ensure_initialized_marker`, where it has an effect. -/
def ensureInitializedMarker (disk : Disk) : Disk :=
  match disk.marker with
  | .absent => { disk with marker := .present }
  | _ => disk

/-- `os.replace` puts the document in the place of the latch. -/
def replaceLatch (disk : Disk) (payload : Fields) : Disk :=
  { disk with latch := .file (.json (.obj payload)) }

/-- The next step of a process. -/
def advance (env : Env) (disk : Disk) (proc : Process) (fault : Fault) (stamp : Stamp) :
    Option (Disk × Process) :=
  match proc.pc with
  | .idle => none
  | .latch reader =>
    match disk.latch with
    | .hidden error => some (disk, conclude env proc (.hidden error) reader)
    | .absent => some (disk, proc.goto (.marker reader))
    | .file _ => some (disk, proc.goto (.read reader))
  | .marker reader => some (disk, conclude env proc (.missing disk.marker) reader)
  | .read reader =>
    match disk.latch with
    | .hidden error => some (disk, conclude env proc (.content (.unreadable error)) reader)
    | .absent => some (disk, conclude env proc (.content (.unreadable "FileNotFoundError")) reader)
    | .file content => some (disk, conclude env proc (.content content) reader)
  | .prepare writer =>
    let disk' := if fault.acts then ensureInitializedMarker disk else disk
    match fault.error? with
    | some error => some (disk', writeFailed proc error writer)
    | none => some (disk', proc.goto (.replace writer))
  | .replace writer =>
    match writer.texts with
    | none =>
      match fault with
      | .before error => some (disk, writeFailed proc error writer)
      | _ => some (disk, encodingFailed proc writer)
    | some (reason, source) =>
      let disk' := if fault.acts then replaceLatch disk (document writer.active reason source stamp) else disk
      match fault.error? with
      | some error => some (disk', writeFailed proc error writer)
      | none => some (disk', proc.goto (.latch (writer.verification disk.latch)))

structure World where
  disk : Disk
  process : ℕ → Process

/-- What may happen. -/
inductive Label where
  | call (p : ℕ) (call : Call)
  | advance (p : ℕ) (fault : Fault) (stamp : Stamp)
  /-- Others put something on the disk. -/
  | outside (disk : Disk)

namespace World

def setProcess (w : World) (p : ℕ) (proc : Process) : World :=
  { w with process := Function.update w.process p proc }

/-- Nothing has been called yet. -/
def Initial (w : World) : Prop := ∀ p, w.process p = {}

end World

/-- A step of the world. -/
def step (env : Env) (w : World) : Label → Option World
  | .call p call =>
    match (w.process p).pc with
    | .idle => some (w.setProcess p (begin (w.process p) call))
    | _ => none
  | .advance p fault stamp =>
    (advance env w.disk (w.process p) fault stamp).map fun (disk, proc) =>
      { w.setProcess p proc with disk }
  | .outside disk => some { w with disk }

end LiveTrader.Emergency
