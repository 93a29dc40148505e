import SentinelGRC.Delivery.Queue
import SentinelGRC.Governance.EventLog
import SentinelGRC.Python.Dict

/-!
The governance outbox: its messages and its queue. A message is built from a claimed row
only if the row and its payload agree. An acknowledgement is two transactions, a
`SELECT` and a guarded `UPDATE`, and other calls can come in between.
-/

namespace SentinelGRC.Delivery

open Python Json Store Governance

variable {F : Type}

/-- What the outbox raises. -/
inductive OutboxError
  | permanent (message : Text)
  | raised (error : PyError)

def raisedBy {α : Type} : Except PyError α → Except OutboxError α
  | .ok a => .ok a
  | .error e => .error (.raised e)

/-! ### Messages -/

structure OutboxMessage where
  messageId : Text
  eventId : Text
  findingId : Text
  eventSequence : ℕ
  topic : Text
  body : Bytes
  sha256 : Text

def maxMessageBytes : ℕ := 256 * 1024

/-- A text column that must not be blank. -/
def present (name : String) (value : Text) : Except OutboxError Unit :=
  if blank value then .error (.permanent (lit "outbox " ++ lit name ++ lit " is invalid")) else .ok ()

/-- `OutboxMessage.from_item`. -/
def fromItem [PyFloat F] (H : Digest) (item : OutboxRow F) : Except OutboxError OutboxMessage := do
  present "outbox_id" item.outboxId
  present "event_id" item.eventId
  present "finding_id" item.findingId
  present "topic" item.topic
  present "payload_json" item.payloadJson
  if isId item.outboxId = false then
    .error (.permanent (lit "outbox message identity is invalid"))
  else if item.topic ≠ lit "governance.event.v1" then
    .error (.permanent (lit "outbox topic is not an approved contract"))
  else match (loads item.payloadJson : Except PyError (Json F)) with
  | .error _ => .error (.permanent (lit "outbox payload is invalid"))
  | .ok (.obj payload) =>
    let expected : Fields F := [(lit "event_id", .str item.eventId),
      (lit "finding_id", .str item.findingId), (lit "event_sequence", .int item.eventSequence)]
    if item.eventSequence < 1 then .error (.permanent (lit "outbox event sequence is invalid"))
    else if expected.any fun f => !(get payload f.1).pyEq f.2 then
      .error (.permanent (lit "outbox metadata does not match its payload"))
    else do
      let canonical ← raisedBy (dumps compact (.obj payload))
      if canonical ≠ item.payloadJson then
        .error (.permanent (lit "outbox payload is not canonical JSON"))
      else do
        let body ← raisedBy (encodeUtf8 canonical)
        if body.isEmpty ∨ maxMessageBytes < body.length then
          .error (.permanent (lit "outbox payload size is invalid"))
        else .ok ⟨item.outboxId, item.eventId, item.findingId, item.eventSequence, item.topic, body,
          H.hexdigest body⟩
  | .ok _ => .error (.permanent (lit "outbox event sequence is invalid"))

theorem raisedBy_eq_ok {α : Type} {x : Except PyError α} {a : α} : raisedBy x = .ok a ↔ x = .ok a := by
  cases x <;> simp [raisedBy]

theorem present_eq_ok {name : String} {value : Text} {u : Unit} :
    present name value = .ok u ↔ blank value = false := by
  unfold present
  cases blank value <;> simp

/-- A row that passes the checks of `from_item`, with its payload and body. -/
structure Valid [PyFloat F] (item : OutboxRow F) (payload : Fields F) (body : Bytes) : Prop where
  nonblank : ∀ t ∈ [item.outboxId, item.eventId, item.findingId, item.topic, item.payloadJson],
    blank t = false
  outboxId : isId item.outboxId = true
  topic : item.topic = lit "governance.event.v1"
  parsed : (loads item.payloadJson : Except PyError (Json F)) = .ok (.obj payload)
  eventSequence : 1 ≤ item.eventSequence
  eventId : (get payload (lit "event_id")).pyEq (.str item.eventId) = true
  findingId : (get payload (lit "finding_id")).pyEq (.str item.findingId) = true
  sequence : (get payload (lit "event_sequence")).pyEq (.int item.eventSequence) = true
  canonical : dumps compact (.obj payload) = .ok item.payloadJson
  encoded : encodeUtf8 item.payloadJson = .ok body
  size : body ≠ [] ∧ body.length ≤ maxMessageBytes

/-- A message is built exactly from the rows that pass. -/
theorem fromItem_eq_ok [PyFloat F] {H : Digest} {item : OutboxRow F} {message : OutboxMessage} :
    fromItem H item = .ok message ↔ ∃ payload body, Valid item payload body ∧
      message = ⟨item.outboxId, item.eventId, item.findingId, item.eventSequence, item.topic, body,
        H.hexdigest body⟩ := by
  unfold fromItem
  constructor
  · intro h
    obtain ⟨_, h₁, h⟩ := bind_eq_ok.mp h
    obtain ⟨_, h₂, h⟩ := bind_eq_ok.mp h
    obtain ⟨_, h₃, h⟩ := bind_eq_ok.mp h
    obtain ⟨_, h₄, h⟩ := bind_eq_ok.mp h
    obtain ⟨_, h₅, h⟩ := bind_eq_ok.mp h
    simp only [ite_error_eq_ok, Bool.not_eq_false, ne_eq, not_not] at h
    obtain ⟨hid, htopic, h⟩ := h
    split at h
    · cases h
    · rename_i payload hloads
      simp only [ite_error_eq_ok, not_lt, List.any_cons, List.any_nil, Bool.or_eq_true,
        Bool.not_eq_true', Bool.false_eq_true, or_false, not_or, Bool.not_eq_false] at h
      obtain ⟨hsequence, hfields, h⟩ := h
      obtain ⟨canonical, hdumps, h⟩ := bind_eq_ok.mp h
      simp only [ite_error_eq_ok, not_not] at h
      obtain ⟨rfl, h⟩ := h
      obtain ⟨body, hbody, h⟩ := bind_eq_ok.mp h
      simp only [ite_error_eq_ok, not_or, not_lt, List.isEmpty_iff, Except.ok.injEq] at h
      refine ⟨payload, body, ?_, h.2.symm⟩
      exact
        { nonblank := by
            simp only [List.mem_cons, List.not_mem_nil, or_false, forall_eq_or_imp, forall_eq]
            exact ⟨present_eq_ok.mp h₁, present_eq_ok.mp h₂, present_eq_ok.mp h₃,
              present_eq_ok.mp h₄, present_eq_ok.mp h₅⟩
          outboxId := hid
          topic := htopic
          parsed := hloads
          eventSequence := hsequence
          eventId := hfields.1
          findingId := hfields.2.1
          sequence := hfields.2.2
          canonical := raisedBy_eq_ok.mp hdumps
          encoded := raisedBy_eq_ok.mp hbody
          size := h.1 }
    · cases h
  · rintro ⟨payload, body, hvalid, rfl⟩
    have hnonblank := hvalid.nonblank
    simp only [List.mem_cons, List.not_mem_nil, or_false, forall_eq_or_imp, forall_eq] at hnonblank
    obtain ⟨h₁, h₂, h₃, h₄, h₅⟩ := hnonblank
    refine bind_eq_ok.mpr ⟨(), present_eq_ok.mpr h₁, ?_⟩
    refine bind_eq_ok.mpr ⟨(), present_eq_ok.mpr h₂, ?_⟩
    refine bind_eq_ok.mpr ⟨(), present_eq_ok.mpr h₃, ?_⟩
    refine bind_eq_ok.mpr ⟨(), present_eq_ok.mpr h₄, ?_⟩
    refine bind_eq_ok.mpr ⟨(), present_eq_ok.mpr h₅, ?_⟩
    simp only [ite_error_eq_ok, Bool.not_eq_false, ne_eq, not_not]
    refine ⟨hvalid.outboxId, hvalid.topic, ?_⟩
    rw [hvalid.parsed]
    simp only [ite_error_eq_ok, not_lt, List.any_cons, List.any_nil, Bool.or_eq_true,
        Bool.not_eq_true', Bool.false_eq_true, or_false, not_or, Bool.not_eq_false]
    refine ⟨hvalid.eventSequence, ⟨hvalid.eventId, hvalid.findingId, hvalid.sequence⟩, ?_⟩
    refine bind_eq_ok.mpr ⟨_, raisedBy_eq_ok.mpr hvalid.canonical, ?_⟩
    simp only [not_true_eq_false, if_false]
    refine bind_eq_ok.mpr ⟨_, raisedBy_eq_ok.mpr hvalid.encoded, ?_⟩
    simp only [ite_error_eq_ok, not_or, not_lt, List.isEmpty_iff]
    exact ⟨hvalid.size, trivial⟩

/-! ### GovernanceOutboxQueue -/

abbrev Outbox (F : Type) := Unique (OutboxRow F) OutboxRow.clash

namespace Outbox

variable [Clock F]

/-- `claim`. -/
def claim (outbox : Outbox F) (workerId : Text) (leaseSeconds : ℤ) (token : Uuid) (now : F) :
    Outbox F × Except PyError (Option (OutboxRow F)) :=
  Delivery.claim (lit "worker_id and a positive lease are required") outbox workerId leaseSeconds token
    now

omit [Clock F] in
/-- The first transaction of `acknowledge`: `none` to go on with the second. -/
def lookup (outbox : Outbox F) (item : OutboxRow F) (receipt : Text) :
    Except OutboxError (Option Bool) :=
  if receipt ≠ item.outboxId then .error (.permanent (lit "broker receipt identity mismatch"))
  else if ¬ Scalar item.outboxId then .error (.raised .unicodeEncodeError)
  else match find? outbox item.outboxId with
    | none => .ok (some false)
    | some row =>
      if row.deliveredAt.isSome then .ok (some (row.brokerMessageId = some receipt)) else .ok none

/-- The columns that an acknowledgement writes. -/
def accepted (now : F) (receipt : Text) : Write (OutboxRow F) where
  apply r := { put (finish now (progress r)) r with
    brokerAcceptedAt := some now
    brokerMessageId := some receipt }
  key_apply _ := rfl

/-- The second transaction of `acknowledge`. -/
def settle (outbox : Outbox F) (item : OutboxRow F) (receipt : Text) (now : F) :
    Outbox F × Except OutboxError Bool :=
  if ¬ (∀ t ∈ [receipt, item.outboxId] ++ item.workerId.toList ++ item.lockToken.toList, Scalar t) then
    (outbox, .error (.raised .unicodeEncodeError))
  else
    let (outbox, updated) := update outbox item.outboxId (heldBy item now) (accepted now receipt)
    (outbox, .ok updated)

/-- `acknowledge`, when nothing comes between its two transactions. -/
def acknowledge (outbox : Outbox F) (item : OutboxRow F) (receipt : Text) (now : F) :
    Outbox F × Except OutboxError Bool :=
  match lookup outbox item receipt with
  | .error e => (outbox, .error e)
  | .ok (some answer) => (outbox, .ok answer)
  | .ok none => settle outbox item receipt now

end Outbox

/-- The answers of `fail`. -/
inductive Failed
  | stale
  | dead
  | retry
  deriving DecidableEq

namespace Outbox

variable [Clock F]

/-- `fail`. -/
def fail (outbox : Outbox F) (item : OutboxRow F) (error : Text) (permanent : Bool)
    (maxAttempts retryDelay : ℤ) (now : F) : Outbox F × Except PyError Failed :=
  if maxAttempts < 1 ∨ retryDelay < 0 then
    (outbox, .error (.valueError (lit "outbox retry policy is invalid")))
  else if ¬ (∀ t ∈ [error.take 2000, item.outboxId] ++ item.workerId.toList ++ item.lockToken.toList,
      Scalar t) then (outbox, .error .unicodeEncodeError)
  else
    let dead : Bool := permanent || decide (maxAttempts ≤ item.attempts)
    let availableAt := Clock.after now (if dead then 0 else retryDelay)
    let (outbox, updated) := update outbox item.outboxId (heldBy item now)
      (written (release availableAt (if dead then some now else none) (error.take 2000)))
    (outbox, .ok (if ¬ updated then .stale else if dead then .dead else .retry))

/-- `requeue_dead`. -/
def requeueDead (outbox : Outbox F) (outboxId confirmation : Text) (now : F) :
    Outbox F × Except PyError Bool :=
  Delivery.requeueDead
    { invalid := lit "outbox_id is invalid"
      confirmation := lit "REQUEUE OUTBOX "
      unconfirmed := lit "exact outbox requeue confirmation is required" }
    outbox outboxId confirmation now

/-- The row that `metrics` selects. -/
structure Metrics (F : Type) extends Counts where
  retrying : ℕ
  oldest : Option F

def metrics (outbox : Outbox F) : Metrics F where
  toCounts := counts outbox
  retrying := outbox.rows.countP fun r => isPending r && r.lastError.isSome
  oldest := ((outbox.rows.filter isPending).map (·.createdAt)).min?

end Outbox

end SentinelGRC.Delivery
