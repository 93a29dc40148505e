import SentinelGRC.Contracts.Accepted
import SentinelGRC.Python.Join
import SentinelGRC.Python.Str

/-!
The connector of LogWatcher exports: alerts, and events in a flat shape or in the shape of the
Windows log. The identity of either joins texts with `|` as they are, so two of them have one
identity exactly when their texts fall into the same pieces at the separators.
-/

namespace SentinelGRC.Connectors

open Python Json Contracts

variable {F : Type}

/-! ### Values -/

/-- `d.get(key, default)`. -/
def getOr (fs : Fields F) (key : Text) (default : Json F) : Json F := (field key fs).getD default

/-- The digits that are no decimal ones, such as superscripts. -/
def isOtherDigit (c : CodePoint) : Bool :=
  [(0xB2, 0xB3), (0xB9, 0xB9), (0x1369, 0x1371), (0x19DA, 0x19DA), (0x2070, 0x2070),
    (0x2074, 0x2079), (0x2080, 0x2089), (0x2460, 0x2468), (0x2474, 0x247C), (0x2488, 0x2490),
    (0x24EA, 0x24EA), (0x24F5, 0x24FD), (0x24FF, 0x24FF), (0x2776, 0x277E), (0x2780, 0x2788),
    (0x278A, 0x2792), (0x10A40, 0x10A43), (0x10E60, 0x10E68), (0x11052, 0x1105A),
    (0x1F100, 0x1F10A)].any fun r => r.1 ≤ c.val && c.val ≤ r.2

def isDecimal (t : Text) : Bool := t.all fun c => (decimalValue c).isSome

/-- `str.isdigit`. -/
def isDigits (t : Text) : Bool :=
  !t.isEmpty && t.all fun c => (decimalValue c).isSome || isOtherDigit c

/-- `_event_code`; a text of digits that `int` does not read is refused. -/
def eventCode (U : UnicodeTables) (value : Json F) : Except PyError (Option ℤ) :=
  match value with
  | .int n => .ok (some n)
  | .str s =>
    if isDigits (strip s) then
      match pyInt (strip s) with
      | some n => .ok (some n)
      | none =>
        if isDecimal (strip s) then
          .error (.valueError (lit "Exceeds the limit (4300 digits) for integer string conversion"))
        else .error (.valueError (lit "invalid literal for int() with base 10: " ++ U.repr (strip s)))
    else .ok none
  | _ => .ok none

/-- `_strict_bool`. -/
def strictBool (U : UnicodeTables) (value : Json F) (field : Text) : Except PyError Bool :=
  match value with
  | .bool b => .ok b
  | .str s =>
    if U.lower (strip s) = lit "true" then .ok true
    else if U.lower (strip s) = lit "false" then .ok false
    else .error (.valueError (field ++ lit " must be boolean"))
  | _ => .error (.valueError (field ++ lit " must be boolean"))

/-- `value in {"closed", "resolved"}`. -/
def isClosed (value : Json F) : Except PyError Bool :=
  match value with
  | .str s => .ok (s = lit "closed" || s = lit "resolved")
  | .arr _ => .error (.typeError (lit "unhashable type: 'list'"))
  | .obj _ => .error (.typeError (lit "unhashable type: 'dict'"))
  | _ => .ok false

/-! ### Alerts -/

/-- The fields of an alert that identify it. -/
def alertKey : List Text :=
  [lit "kind", lit "timestamp", lit "computer", lit "source_ip", lit "target_user", lit "message"]

/-- `kind.replace("_", " ").title()`. -/
def kindTitle : AlertKind → Text
  | .bruteForce => lit "Brute Force"
  | .accountLockout => lit "Account Lockout"
  | .privilegeEscalation => lit "Privilege Escalation"

variable [PyFloat F]

/-- `normalize_logwatcher_alert`. -/
def normalizeLogwatcherAlert (H : Digest) (U : UnicodeTables) (alert : Fields F) :
    Except PyError (Option (AlertFinding F)) := do
  let kindText ← (getOr alert (lit "kind") (.str [])).pyStr U
  if (strip kindText).isEmpty then .error (.valueError (lit "LogWatcher alert kind is required"))
  else
    match parseAlertKind (strip kindText) with
    | none =>
      .error (.valueError (lit "unsupported LogWatcher alert kind: " ++ strip kindText))
    | some kind => do
      let texts ← alertKey.tail.mapM fun name => (getOr alert name (.str [])).pyStr U
      let parts := lit "logwatcher-alert" :: strip kindText :: texts
      if lit "||||" <:+ List.intercalate (lit "|") parts then
        .error (.valueError (lit "LogWatcher alert has no stable identity fields"))
      else do
        let findingId ← contractId H "SEC-ALERT-" parts
        let assetId ← ((get alert (lit "computer")).orElse (.str (lit "unknown"))).pyStr U
        let title ← ((get alert (lit "message")).orElse (.str (kindTitle kind))).pyStr U
        let severity ← ((get alert (lit "severity")).orElse (.str (lit "high"))).pyStr U
        return some {
          findingId
          domain := lit "security"
          source := lit "logwatcher_alert"
          controlId := kind.control
          assetId
          title
          riskOwner := lit "Security Operations"
          severity := U.lower severity
          details := [(lit "kind", .str (strip kindText)),
            (lit "timestamp", get alert (lit "timestamp")),
            (lit "source_ip", get alert (lit "source_ip")),
            (lit "target_user", get alert (lit "target_user")),
            (lit "event_id", get alert (lit "event_id"))] }

/-! ### Events -/

/-- The `event_id` of an event of the Windows log. -/
def recordId (U : UnicodeTables) (event : Fields F) : Except PyError (Json F) :=
  if (get event (lit "EventRecordID")).truthy then .ok (get event (lit "EventRecordID"))
  else do
    let parts ← [lit "TimeCreated", lit "Computer", lit "TargetUserName", lit "IpAddress"].mapM
      fun name => (getOr event name (.str [])).pyStr U
    return .str (List.intercalate (lit "|") parts)

/-- An event of the Windows log in the flat shape; a flat one is left as it is. -/
def flattenEvent (U : UnicodeTables) (event : Fields F) : Except PyError (Fields F) :=
  if (field (lit "EventID") event).isNone then .ok event
  else do
    let code ← eventCode U (get event (lit "EventID"))
    let eventId ← recordId U event
    let userName ← (getOr event (lit "TargetUserName") (.str [])).pyStr U
    return [(lit "event_code", (code.map Json.int).getD .null), (lit "event_id", eventId),
      (lit "asset_id", get event (lit "Computer")),
      (lit "timestamp", get event (lit "TimeCreated")),
      (lit "account", get event (lit "TargetUserName")),
      (lit "source_ip", get event (lit "IpAddress")),
      (lit "privileged", .bool (U.lower userName = lit "administrator" || U.lower userName = lit "admin")),
      (lit "status", getOr event (lit "status") (.str (lit "open")))]

/-- The required fields without a text. -/
def missingFields (U : UnicodeTables) (event : Fields F) : List Text → Except PyError (List Text)
  | [] => .ok []
  | name :: rest => do
    let value ← (getOr event name (.str [])).pyStr U
    let missing ← missingFields U event rest
    return if blank value then name :: missing else missing

/-- The fields of a flat event that identify it. -/
def eventKey : List Text := [lit "event_id", lit "asset_id", lit "account"]

/-- `normalize_security_event`, from the flat shape on. -/
def normalizeFlatEvent (H : Digest) (U : UnicodeTables) (event : Fields F) :
    Except PyError (Option (AlertFinding F)) := do
  let code ← eventCode U (get event (lit "event_code"))
  if code ≠ some 4625 then .ok none
  else do
    let closed ← isClosed (getOr event (lit "status") (.str (lit "open")))
    if closed then .ok none
    else do
      let missing ← missingFields U event
        [lit "event_id", lit "asset_id", lit "timestamp", lit "account"]
      if missing ≠ [] then
        .error (.valueError (lit "security event missing: " ++ joinNames missing))
      else do
        let privileged ← strictBool U (getOr event (lit "privileged") (.bool false))
          (lit "privileged")
        let texts ← eventKey.mapM fun name => (get event name).pyStr U
        let findingId ← contractId H "SEC-AUTH-" (lit "logwatcher" :: texts)
        let eventId ← (get event (lit "event_id")).pyStr U
        let assetId ← (get event (lit "asset_id")).pyStr U
        let account ← (get event (lit "account")).pyStr U
        let riskOwner ←
          ((get event (lit "owner")).orElse (.str (lit "Security Operations"))).pyStr U
        let timestamp ← (get event (lit "timestamp")).pyStr U
        return some {
          findingId
          domain := lit "security"
          source := lit "logwatcher"
          controlId := lit "SEC-AUTH-001"
          assetId
          title := lit "Failed logon detected for " ++ account
          riskOwner
          severity := if privileged then lit "critical" else lit "high"
          details := [(lit "event_code", .int 4625), (lit "event_id", .str eventId),
            (lit "timestamp", .str timestamp), (lit "source_ip", get event (lit "source_ip")),
            (lit "account", .str account), (lit "privileged", .bool privileged)] }

/-- `normalize_security_event`. -/
def normalizeSecurityEvent (H : Digest) (U : UnicodeTables) (event : Fields F) :
    Except PyError (Option (AlertFinding F)) := do
  let flat ← flattenEvent U event
  normalizeFlatEvent H U flat

/-! ### Identities -/

/-- The kinds of a LogWatcher export. -/
inductive Export
  | alert
  | event

namespace Export

def normalize (e : Export) (H : Digest) (U : UnicodeTables) (payload : Fields F) :
    Except PyError (Option (AlertFinding F)) :=
  match e with
  | alert => normalizeLogwatcherAlert H U payload
  | event => normalizeSecurityEvent H U payload

/-- What an identity starts with. -/
def tag : Export → Text
  | alert => lit "logwatcher-alert"
  | event => lit "logwatcher"

/-- What the digits of the hash are put behind. -/
def idPrefix : Export → String
  | alert => "SEC-ALERT-"
  | event => "SEC-AUTH-"

/-- The values that identify a payload; an event is looked at in its flat shape. -/
def key (e : Export) (U : UnicodeTables) (payload : Fields F) : List (Json F) :=
  match e with
  | alert => alertKey.map fun name => getOr payload name (.str [])
  | event =>
    match flattenEvent U payload with
    | .ok flat => eventKey.map fun name => get flat name
    | .error _ => eventKey.map fun _ => .null

/-- The texts that are made of the identifying values: of an alert, the kind is stripped. -/
def textsOf (e : Export) (U : UnicodeTables) (values : List (Json F)) : List Text :=
  match e, values.map (strText U) with
  | alert, kind :: texts => strip kind :: texts
  | _, texts => texts

def texts (e : Export) (U : UnicodeTables) (payload : Fields F) : List Text :=
  e.textsOf U (e.key U payload)

/-- The text that is hashed. -/
def identity (e : Export) (U : UnicodeTables) (payload : Fields F) : Text :=
  List.intercalate (lit "|") (e.tag :: e.texts U payload)

/-- The texts of two payloads fall into the same pieces, although either the separators stand
in different texts or the values differ and their texts do not. -/
structure Merged (e : Export) (U : UnicodeTables) (a b : Fields F) : Prop where
  pieces : pieces (ofChar '|') (e.texts U a) = pieces (ofChar '|') (e.texts U b)
  differ : (e.texts U a).map (List.count (ofChar '|')) ≠ (e.texts U b).map (List.count (ofChar '|')) ∨
    (e.texts U a = e.texts U b ∧ e.key U a ≠ e.key U b)

theorem length_texts (e : Export) (U : UnicodeTables) (a b : Fields F) :
    (e.texts U a).length = (e.texts U b).length := by
  cases e with
  | alert => rfl
  | event =>
    have hlength (c : Fields F) : (event.texts U c).length = 3 := by
      unfold texts textsOf key
      simp only [List.length_map]
      split <;> rfl
    rw [hlength a, hlength b]

theorem mapM_pyStr {U : UnicodeTables} {names : List Text} {value : Text → Json F}
    {texts : List Text} (h : names.mapM (fun name => (value name).pyStr U) = .ok texts) :
    texts = (names.map value).map (strText U) := by
  induction names generalizing texts with
  | nil =>
    obtain rfl := Except.ok.inj h
    rfl
  | cons name names ih =>
    rw [List.mapM_cons] at h
    obtain ⟨t, ht, h⟩ := bind_eq_ok.mp h
    obtain ⟨rest, hrest, h⟩ := bind_eq_ok.mp h
    obtain rfl := Except.ok.inj h
    rw [eq_strText_of_pyStr ht, ih hrest]
    rfl

/-- The finding of an alert is named after the hash of its identity. -/
theorem hashed_alert {H : Digest} {U : UnicodeTables} {payload : Fields F} {f : AlertFinding F}
    (h : alert.normalize H U payload = .ok (some f)) :
    contractId H alert.idPrefix (alert.tag :: alert.texts U payload) = .ok f.findingId := by
  obtain ⟨kindText, hkindText, h⟩ := bind_eq_ok.mp h
  obtain ⟨-, h⟩ := ite_error_eq_ok.mp h
  cases hkind : parseAlertKind (strip kindText) with
  | none =>
    rw [hkind] at h
    cases h
  | some kind =>
    rw [hkind] at h
    obtain ⟨texts, htexts, h⟩ := bind_eq_ok.mp h
    obtain ⟨-, h⟩ := ite_error_eq_ok.mp h
    obtain ⟨findingId, hfindingId, h⟩ := bind_eq_ok.mp h
    obtain ⟨assetId, -, h⟩ := bind_eq_ok.mp h
    obtain ⟨title, -, h⟩ := bind_eq_ok.mp h
    obtain ⟨severity, -, h⟩ := bind_eq_ok.mp h
    obtain rfl := Option.some.inj (Except.ok.inj h)
    rw [eq_strText_of_pyStr hkindText, mapM_pyStr htexts] at hfindingId
    exact hfindingId

/-- The finding of an event is named after the hash of its identity. -/
theorem hashed_event {H : Digest} {U : UnicodeTables} {payload : Fields F} {f : AlertFinding F}
    (h : event.normalize H U payload = .ok (some f)) :
    contractId H event.idPrefix (event.tag :: event.texts U payload) = .ok f.findingId := by
  obtain ⟨flat, hflat, h⟩ := bind_eq_ok.mp h
  obtain ⟨code, -, h⟩ := bind_eq_ok.mp h
  obtain ⟨-, h⟩ := ite_none_eq_some.mp h
  obtain ⟨closed, -, h⟩ := bind_eq_ok.mp h
  obtain ⟨-, h⟩ := ite_none_eq_some.mp h
  obtain ⟨missing, -, h⟩ := bind_eq_ok.mp h
  obtain ⟨-, h⟩ := ite_error_eq_ok.mp h
  obtain ⟨privileged, -, h⟩ := bind_eq_ok.mp h
  obtain ⟨texts, htexts, h⟩ := bind_eq_ok.mp h
  obtain ⟨findingId, hfindingId, h⟩ := bind_eq_ok.mp h
  obtain ⟨eventId, -, h⟩ := bind_eq_ok.mp h
  obtain ⟨assetId, -, h⟩ := bind_eq_ok.mp h
  obtain ⟨account, -, h⟩ := bind_eq_ok.mp h
  obtain ⟨riskOwner, -, h⟩ := bind_eq_ok.mp h
  obtain ⟨timestamp, -, h⟩ := bind_eq_ok.mp h
  obtain rfl := Option.some.inj (Except.ok.inj h)
  have hkey : event.key U payload = eventKey.map fun name => get flat name := by
    simp only [key, hflat]
  rw [mapM_pyStr htexts] at hfindingId
  rw [Export.texts, hkey]
  exact hfindingId

theorem hashed {e : Export} {H : Digest} {U : UnicodeTables} {payload : Fields F}
    {f : AlertFinding F} (h : e.normalize H U payload = .ok (some f)) :
    contractId H e.idPrefix (e.tag :: e.texts U payload) = .ok f.findingId := by
  cases e with
  | alert => exact hashed_alert h
  | event => exact hashed_event h

theorem identity_eq_iff (e : Export) (U : UnicodeTables) (a b : Fields F) :
    e.identity U a = e.identity U b ↔
      Python.pieces (ofChar '|') (e.texts U a) = Python.pieces (ofChar '|') (e.texts U b) := by
  refine (intercalate_eq_iff (List.cons_ne_nil _ _) (List.cons_ne_nil _ _)).trans ?_
  rw [pieces_cons, pieces_cons]
  exact List.append_right_inj _

/-- Payloads with different identifying values have different identities exactly when they are
not merged. -/
theorem apart_iff (e : Export) (U : UnicodeTables) (a b : Fields F) :
    (e.key U a ≠ e.key U b → e.identity U a ≠ e.identity U b) ↔ ¬ e.Merged U a b := by
  constructor
  · rintro h ⟨hpieces, hdiffer⟩
    refine h ?_ ((e.identity_eq_iff U a b).mpr hpieces)
    rcases hdiffer with hcounts | ⟨-, hkey⟩
    · intro hkey
      rw [texts, texts, hkey] at hcounts
      exact hcounts rfl
    · exact hkey
  · intro h hkey hsame
    have hpieces := (e.identity_eq_iff U a b).mp hsame
    refine h ⟨hpieces, ?_⟩
    by_cases hcounts : (e.texts U a).map (List.count (ofChar '|')) =
        (e.texts U b).map (List.count (ofChar '|'))
    · exact .inr ⟨(eq_iff_pieces_eq (e.length_texts U a b)).mpr ⟨hpieces, hcounts⟩, hkey⟩
    · exact .inl hcounts

/-- Of two accepted payloads, what is hashed is the identity, and it tells them apart exactly
when they are not merged. -/
theorem identities_apart_iff {e : Export} {H : Digest} {U : UnicodeTables} {a b : Fields F}
    {f g : AlertFinding F} (ha : e.normalize H U a = .ok (some f))
    (hb : e.normalize H U b = .ok (some g)) :
    (contractId H e.idPrefix (e.tag :: e.texts U a) = .ok f.findingId ∧
      contractId H e.idPrefix (e.tag :: e.texts U b) = .ok g.findingId) ∧
    ((e.key U a ≠ e.key U b → e.identity U a ≠ e.identity U b) ↔ ¬ e.Merged U a b) :=
  ⟨⟨hashed ha, hashed hb⟩, e.apart_iff U a b⟩

/-! ### Payloads -/

def alertOf (targetUser message : String) : Fields Tick :=
  [(lit "kind", .str (lit "brute_force")), (lit "timestamp", .str (lit "2026-07-03T02:15:00")),
    (lit "computer", .str (lit "WIN-DC01")), (lit "source_ip", .str (lit "203.0.113.45")),
    (lit "target_user", .str (lit targetUser)), (lit "message", .str (lit message))]

def eventOf (eventId assetId : String) : Fields Tick :=
  [(lit "event_code", .int 4625), (lit "event_id", .str (lit eventId)),
    (lit "asset_id", .str (lit assetId)), (lit "timestamp", .str (lit "2026-07-19T12:00:00Z")),
    (lit "account", .str (lit "admin"))]

/-- The normalizer makes a finding of the payload. -/
def Accepts (e : Export) (payload : Fields Tick) : Prop :=
  ∃ f, e.normalize sha256 asciiTables payload = .ok (some f)

theorem accepts_of {e : Export} {payload : Fields Tick}
    (h : (match e.normalize sha256 asciiTables payload with
      | .ok (some _) => true
      | _ => false) = true) : e.Accepts payload := by
  cases hpayload : e.normalize sha256 asciiTables payload with
  | error _ =>
    rw [hpayload] at h
    cases h
  | ok found =>
    rw [hpayload] at h
    cases found with
    | none => cases h
    | some f => exact ⟨f, hpayload⟩

/-- Two alerts that differ in the user and the message. -/
theorem identities_apart_users :
    alert.identity asciiTables (alertOf "administrator" "5 failed logons") ≠
      alert.identity asciiTables (alertOf "admin" "5 failed logons") := by
  obtain ⟨f, hf⟩ : alert.Accepts (alertOf "administrator" "5 failed logons") :=
    accepts_of (by decide +kernel)
  obtain ⟨g, hg⟩ : alert.Accepts (alertOf "admin" "5 failed logons") :=
    accepts_of (by decide +kernel)
  refine (identities_apart_iff hf hg).2.mpr ?_ ?_
  · rintro ⟨hpieces, -⟩
    exact absurd hpieces (by decide +kernel)
  · intro hkey
    exact absurd (congrArg (List.map (strText asciiTables)) hkey) (by decide +kernel)

/-- Two accepted alerts and two accepted events that differ and have one identity. -/
theorem separators_merge_payloads :
    (alert.Accepts (alertOf "svc|admin" "locked") ∧ alert.Accepts (alertOf "svc" "admin|locked") ∧
      alert.key asciiTables (alertOf "svc|admin" "locked") ≠
        alert.key asciiTables (alertOf "svc" "admin|locked") ∧
      alert.identity asciiTables (alertOf "svc|admin" "locked") =
        alert.identity asciiTables (alertOf "svc" "admin|locked")) ∧
    (event.Accepts (eventOf "EVT|1" "DC") ∧ event.Accepts (eventOf "EVT" "1|DC") ∧
      event.key asciiTables (eventOf "EVT|1" "DC") ≠ event.key asciiTables (eventOf "EVT" "1|DC") ∧
      event.identity asciiTables (eventOf "EVT|1" "DC") =
        event.identity asciiTables (eventOf "EVT" "1|DC")) := by
  refine ⟨⟨accepts_of (by decide +kernel), accepts_of (by decide +kernel), ?_, by decide +kernel⟩,
    accepts_of (by decide +kernel), accepts_of (by decide +kernel), ?_, by decide +kernel⟩
  · intro hkey
    exact absurd (congrArg (List.map (strText asciiTables)) hkey) (by decide +kernel)
  · intro hkey
    exact absurd (congrArg (List.map (strText asciiTables)) hkey) (by decide +kernel)

end Export

end SentinelGRC.Connectors
