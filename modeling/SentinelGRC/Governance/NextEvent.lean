import SentinelGRC.Contracts.Staging
import SentinelGRC.Delivery.Acceptance
import SentinelGRC.Governance.ChainBinding

/-!
The next event of a finding. Its hash is that of no stored event unless two different
messages have one digest: the message names the finding and the last hash of its chain, and
no stored event of the finding follows the last one. So the database takes an event whose
identities are new.
-/

namespace SentinelGRC.Governance

open Python Json Store Transition Contracts Delivery

variable {F S : Type}

/-! ### Chains -/

theorem Event.clash_comm (q r : Event F) : q.clash r = r.clash q := by
  simp only [Event.clash, Bool.beq_comm]

variable [PyFloat F] {H : Digest}

/-- An event of a chain continues the events before it. -/
theorem Chain.continues_of_mem {k : Text} {events : List (Event F)} (h : Chain H k events)
    {e : Event F} (he : e ∈ events) :
    ∃ before after, events = before ++ e :: after ∧ Chain H k before ∧ Continues H k before e := by
  induction h with
  | nil => cases he
  | @snoc events d hchain hlast ih =>
    rcases List.mem_append.mp he with he | he
    · obtain ⟨before, after, rfl, hbefore, hcontinues⟩ := ih he
      exact ⟨before, after ++ [d], by simp, hbefore, hcontinues⟩
    · obtain rfl := List.mem_singleton.mp he
      exact ⟨events, [], rfl, hchain, hlast⟩

theorem Continues.hexdigest {k : Text} {events : List (Event F)} {e : Event F}
    (h : Continues H k events e) : ∃ message, e.eventHash = H.hexdigest message := by
  obtain ⟨details, -, hhash⟩ := h.hashed
  obtain ⟨text, message, -, -, hmessage⟩ := chainHash_eq_ok.mp hhash
  exact ⟨message, hmessage.symm⟩

theorem Chain.isLowerHex_endHash {k : Text} {events : List (Event F)} (h : Chain H k events) :
    ∀ c ∈ endHash events, isLowerHex c = true := by
  cases h with
  | nil =>
    intro c hc
    cases hc
  | @snoc events e hchain hlast =>
    obtain ⟨message, hmessage⟩ := hlast.hexdigest
    rw [endHash, List.getLast?_concat]
    simp only [hmessage]
    exact H.isLowerHex_hexdigest message

/-! ### Messages -/

/-- The bytes that were hashed for an event. -/
def Event.message (e : Event F) : Except PyError Bytes := do
  let details ← loads e.detailsJson
  let text ← dumps compact (.obj (e.body details))
  encodeUtf8 (e.previousHash ++ text)

/-- The bytes that are hashed for the event of an entry. -/
def entryMessage (x : Entry F) : Except PyError Bytes := do
  let text ← dumps compact (.obj x.body)
  encodeUtf8 (x.previousHash ++ text)

/-- The entry is the next one of its finding. -/
structure IsNext (db : Db F) (x : Entry F) : Prop where
  previousHash : x.previousHash = chainedHash (db.eventsOf x.findingId)
  eventSequence : x.eventSequence = nextSequence (db.eventsOf x.findingId)

theorem bodies_eq {k k' : Text} {body body' : Fields F} {p q : Text} {text text' : Text}
    (hp : ∀ c ∈ p, isLowerHex c = true) (hq : ∀ c ∈ q, isLowerHex c = true)
    (htext : dumps compact (.obj body) = .ok text) (htext' : dumps compact (.obj body') = .ok text')
    (hkeys : body.map Prod.fst = body'.map Prod.fst) (hnodup : (body.map Prod.fst).Nodup)
    (hk : get body (lit "finding_id") = .str k) (hk' : get body' (lit "finding_id") = .str k')
    (hscalar : Scalar k) (hscalar' : Scalar k') (h : p ++ text = q ++ text') : p = q ∧ k = k' := by
  unfold dumps at htext htext'
  split_ifs at htext htext'
  obtain rfl := Except.ok.inj htext
  obtain rfl := Except.ok.inj htext'
  rw [sortKeys_obj, sortKeys_obj, render, render] at h
  obtain ⟨rfl, hrest⟩ := append_inj_of_isLowerHex hp hq h
  have hrender : (Json.obj body).sortKeys.render compact = (Json.obj body').sortKeys.render compact := by
    rw [sortKeys_obj, sortKeys_obj, render, render, hrest]
  have hget := render_get_eq hkeys hnodup hrender (lit "finding_id")
  rw [hk, hk'] at hget
  exact ⟨rfl, str_inj hscalar hscalar' hget⟩

/-- The hash that the next event names is that of no event before the last. -/
theorem Chain.endHash_ne {k : Text} {db : Db F} (h : Chain H k (db.eventsOf k)) {before after : List (Event F)}
    {e : Event F} (hevents : db.eventsOf k = before ++ e :: after) (hbefore : Chain H k before) :
    endHash before ≠ endHash (db.eventsOf k) := by
  obtain ⟨last, hlast⟩ : ∃ last, (e :: after).getLast? = some last :=
    ⟨_, List.getLast?_eq_some_getLast (List.cons_ne_nil e after)⟩
  have hmem : last ∈ e :: after := List.mem_of_getLast? hlast
  have hend : endHash (db.eventsOf k) = last.eventHash := by
    rw [endHash, hevents, List.getLast?_append, hlast]
    rfl
  have hstored {d : Event F} (hd : d ∈ db.eventsOf k) : d ∈ db.governanceEvents.rows :=
    List.mem_of_mem_filter hd
  have hlastmem : last ∈ db.eventsOf k := hevents ▸ List.mem_append_right _ hmem
  rw [hend]
  intro heq
  rcases List.eq_nil_or_concat' before with rfl | ⟨init, d, rfl⟩
  · obtain ⟨_, _, -, -, hcontinues⟩ := h.continues_of_mem hlastmem
    obtain ⟨message, hmessage⟩ := hcontinues.hexdigest
    have hlength := H.hexdigest_length message
    rw [← hmessage, ← heq] at hlength
    cases hlength
  · rw [endHash, List.getLast?_concat] at heq
    have hdmem : d ∈ db.eventsOf k := by rw [hevents]; simp
    have hsame : d = last := Unique.eq_of_clash Event.clash_comm (hstored hdmem) (hstored hlastmem)
      (by simp [Event.clash, heq])
    have hpairwise := h.pairwise
    rw [hevents, List.pairwise_append] at hpairwise
    have hlt := hpairwise.2.2 d (by simp) last hmem
    rw [hsame] at hlt
    exact absurd hlt (lt_irrefl _)

/-- The stored events are chained, the queues hold them, and their findings have names that can
be bound. -/
structure Appendable (H : Digest) (db : Db F) : Prop where
  chains : ∀ k, Chain H k (db.eventsOf k)
  mirrored : Mirrored db
  named : ∀ e ∈ db.governanceEvents.rows, Scalar e.findingId

/-- The message of the next event was hashed for no stored event. -/
theorem entryMessage_ne {db : Db F} (h : Appendable H db) {x : Entry F} (hnext : IsNext db x)
    (hscalar : Scalar x.findingId) {e : Event F} (he : e ∈ db.governanceEvents.rows)
    {message : Bytes} (hmessage : e.message = .ok message) : entryMessage x ≠ .ok message := by
  intro hentry
  obtain ⟨details, -, hmessage⟩ := bind_eq_ok.mp hmessage
  obtain ⟨text, htext, hencode⟩ := bind_eq_ok.mp hmessage
  obtain ⟨text', htext', hencode'⟩ := bind_eq_ok.mp hentry
  have htexts : e.previousHash ++ text = x.previousHash ++ text' :=
    Except.ok.inj ((decodeUtf8_encodeUtf8 hencode).symm.trans (decodeUtf8_encodeUtf8 hencode'))
  have hmem : e ∈ db.eventsOf e.findingId := List.mem_filter.mpr ⟨he, by simp⟩
  obtain ⟨before, after, hevents, hbefore, hcontinues⟩ := (h.chains e.findingId).continues_of_mem hmem
  have hp : ∀ c ∈ e.previousHash, isLowerHex c = true := by
    rw [hcontinues.previousHash]
    exact hbefore.isLowerHex_endHash
  have hq : ∀ c ∈ x.previousHash, isLowerHex c = true := by
    rw [hnext.previousHash, (h.chains x.findingId).chainedHash]
    exact (h.chains x.findingId).isLowerHex_endHash
  have hnodup : ((e.body details).map Prod.fst).Nodup := by
    change [lit "finding_id", lit "event_type", lit "actor_id", lit "actor_role", lit "auth_method",
      lit "occurred_at", lit "details", lit "previous_hash"].Nodup
    decide
  have hbodies : e.previousHash = x.previousHash ∧ e.findingId = x.findingId :=
    bodies_eq hp hq htext htext' rfl hnodup rfl rfl (h.named e he) hscalar htexts
  obtain ⟨hprevious, hk⟩ := hbodies
  refine (h.chains e.findingId).endHash_ne hevents hbefore ?_
  rw [← hcontinues.previousHash, hprevious, hnext.previousHash, ← hk,
    (h.chains e.findingId).chainedHash]

/-- What was hashed for a stored event is its message. -/
theorem Continues.message {k : Text} {events : List (Event F)} {e : Event F}
    (h : Continues H k events e) : ∃ message, e.message = .ok message ∧ H.hexdigest message = e.eventHash := by
  obtain ⟨details, hdetails, hhash⟩ := h.hashed
  obtain ⟨text, message, htext, hencode, hmessage⟩ := chainHash_eq_ok.mp hhash
  exact ⟨message, bind_eq_ok.mpr ⟨details, hdetails, bind_eq_ok.mpr ⟨text, htext, hencode⟩⟩, hmessage⟩

/-! ### Insertion -/

/-- The identities of the next event are new, its number can be printed, and its digest is that
of no other message. -/
structure Unhindered (H : Digest) (db : Db F) (x : Entry F) (stamp : Stamp F) : Prop where
  eventId : ∀ e ∈ db.governanceEvents.rows, e.eventId ≠ stamp.eventId.hex
  outboxId : ∀ o ∈ db.governanceOutbox.rows, o.outboxId ≠ stamp.outboxId.hex
  exportId : ∀ y ∈ db.auditExports.rows, y.exportId ≠ stamp.exportId.hex
  number : Printable (.int x.eventSequence : Json F)
  apart : ∀ e ∈ db.governanceEvents.rows, ∀ stored ∈ e.message.toOption,
    ∀ message ∈ (entryMessage x).toOption, H.hexdigest stored = H.hexdigest message → stored = message

theorem unhindered_iff {db : Db F} {x : Entry F} {stamp : Stamp F} : Unhindered H db x stamp ↔
    (∀ e ∈ db.governanceEvents.rows, e.eventId ≠ stamp.eventId.hex) ∧
      (∀ o ∈ db.governanceOutbox.rows, o.outboxId ≠ stamp.outboxId.hex) ∧
      (∀ y ∈ db.auditExports.rows, y.exportId ≠ stamp.exportId.hex) ∧
      Printable (.int x.eventSequence : Json F) ∧
      ∀ e ∈ db.governanceEvents.rows, ∀ stored ∈ e.message.toOption,
        ∀ message ∈ (entryMessage x).toOption, H.hexdigest stored = H.hexdigest message → stored = message := by
  constructor
  · intro h
    exact ⟨h.eventId, h.outboxId, h.exportId, h.number, h.apart⟩
  · intro h
    exact ⟨h.1, h.2.1, h.2.2.1, h.2.2.2.1, h.2.2.2.2⟩

instance (db : Db F) (x : Entry F) (stamp : Stamp F) : Decidable (Unhindered H db x stamp) :=
  decidable_of_iff _ unhindered_iff.symm

theorem Unhindered.fresh {db : Db F} {x : Entry F} {stamp : Stamp F} (h : Unhindered H db x stamp)
    (happendable : Appendable H db) (hnext : IsNext db x) (hnow : stamp.now = x.now) (hscalar : Scalar x.findingId) :
    Fresh H db x.findingId x.eventType x.actor x.details stamp := by
  refine ⟨h.eventId, h.outboxId, h.exportId, fun hash hhash e he heq => ?_⟩
  obtain ⟨text, message, htext, hencode, hmessage⟩ := chainHash_eq_ok.mp hhash
  have hentry : entryMessage x = .ok message := by
    refine bind_eq_ok.mpr ⟨text, ?_, ?_⟩
    · rw [Entry.body, hnext.previousHash, ← hnow]
      exact htext
    · rw [hnext.previousHash]
      exact hencode
  have hmem : e ∈ db.eventsOf e.findingId := List.mem_filter.mpr ⟨he, by simp⟩
  obtain ⟨before, after, -, -, hcontinues⟩ := (happendable.chains e.findingId).continues_of_mem hmem
  obtain ⟨stored, hstored, hdigest⟩ := hcontinues.message
  have hsame : stored = message := h.apart e he stored (by rw [hstored]; rfl) message
    (by rw [hentry]; rfl) (by rw [hdigest, heq, hmessage])
  exact entryMessage_ne happendable hnext hscalar he hstored (hsame ▸ hentry)

omit [PyFloat F] in
theorem printable_body {x : Entry F} (h : Printable (.obj x.details)) : Printable (.obj x.body) := by
  have hdetails : (Json.obj x.details).all printableNode = true := h
  simp only [all, printableNode, Bool.true_and] at hdetails
  simp only [Printable, Entry.body, eventBody, all, allFields, allField, printableNode, hdetails,
    Bool.and_self]

omit [PyFloat F] in
theorem printable_payload {body : Fields F} (h : Printable (.obj body)) {n : ℕ}
    (hn : Printable (.int n : Json F)) (eventId eventHash : Text) :
    Printable (.obj (eventPayload body eventId n eventHash)) := by
  have hbody : (Json.obj body).all printableNode = true := h
  have hnumber : (Json.int n : Json F).all printableNode = true := hn
  simp only [all, printableNode, Bool.true_and, allFields_eq_all] at hbody hnumber
  simp only [Printable, eventPayload, all, printableNode, allFields_eq_all, List.all_append, hbody,
    List.all_cons, List.all_nil, allField, hnumber, Bool.and_self]

/-- The database takes the next event of a finding. -/
theorem exists_event {db : Db F} {x : Entry F} {stamp : Stamp F} (h : Unhindered H db x stamp)
    (happendable : Appendable H db) (hnext : IsNext db x)
    (hnow : stamp.now = x.now) (hscalar : Scalar x.findingId)
    (hactor : Scalar x.actor.actorId ∧ Scalar x.actor.authMethod)
    (hdetails : Printable (.obj x.details)) :
    ∃ db', event H db x.findingId x.eventType x.actor x.details stamp.now stamp = .ok db' := by
  have hbind : bindTexts [x.findingId, x.actor.actorId, x.actor.authMethod] = .ok () := by
    rw [bindTexts_eq_ok]
    simpa using ⟨hscalar, hactor⟩
  have hprinted {st : Style} {v : Json F} (hv : Printable v) : dumps st v = .ok (v.sortKeys.render st) :=
    if_pos hv
  have hbody : Printable (.obj (eventBody x.findingId x.eventType x.actor.actorId x.actor.role
      x.actor.authMethod stamp.now (.obj x.details) (chainedHash (db.eventsOf x.findingId)))) := by
    have hprintable := printable_body hdetails
    rw [Entry.body, hnext.previousHash, ← hnow] at hprintable
    exact hprintable
  have hencoded : ∃ bytes, encodeUtf8 (chainedHash (db.eventsOf x.findingId) ++
      (Json.obj (eventBody x.findingId x.eventType x.actor.actorId x.actor.role x.actor.authMethod
        stamp.now (.obj x.details) (chainedHash (db.eventsOf x.findingId)))).sortKeys.render compact) =
      .ok bytes := by
    refine ⟨_, encodeUtf8_eq_ok.mpr ⟨scalar_append.mpr ⟨?_, ?_⟩, rfl⟩⟩
    · rw [(happendable.chains x.findingId).chainedHash]
      exact scalar_of_isLowerHex (happendable.chains x.findingId).isLowerHex_endHash
    · exact fun c hc => isSurrogate_of_plain (plain_render rfl _ c hc)
  obtain ⟨bytes, hbytes⟩ := hencoded
  cases hevent : event H db x.findingId x.eventType x.actor x.details stamp.now stamp with
  | ok db' => exact ⟨db', rfl⟩
  | error error =>
    -- Nothing of the event fails to be printed or encoded, so that no error is left.
    have hraised := raises_event happendable.mirrored (h.fresh happendable hnext hnow hscalar) error hevent
    have hnone {ρ : Type} (r : Option ρ) : Raises (fun e => ¬ EventError e) (inserted r) := by
      cases r with
      | some table => exact raises_ok _
      | none => exact raises_error.mpr (by rintro (h | h) <;> cases h)
    have hok {α : Type} {r : Except PyError α} {a : α} (hr : r = .ok a) :
        Raises (fun e => ¬ EventError e) r := hr ▸ raises_ok a
    have hother : Raises (fun e => ¬ EventError e)
        (event H db x.findingId x.eventType x.actor x.details stamp.now stamp) := by
      refine (hok (chainHash_eq_ok.mpr ⟨_, bytes, hprinted hbody, hbytes, rfl⟩)).bind
        fun eventHash _ => ?_
      refine (hok (hprinted hdetails)).bind fun detailsJson _ => ?_
      refine (hok hbind).bind fun _ _ => ?_
      refine (hnone _).bind fun governanceEvents _ => ?_
      refine (hok (hprinted (printable_payload hbody ?_ _ _))).bind fun payloadJson _ => ?_
      · rw [← hnext.eventSequence]
        exact h.number
      refine (hnone _).bind fun governanceOutbox _ => ?_
      exact (hnone _).bind fun auditExports _ => raises_ok _
    exact absurd hraised (hother error hevent)

end SentinelGRC.Governance
