import SentinelGRC.Delivery.Workers

/-!
Delivery in order. Each queue with its workers and its record of publications refines the
ordered delivery protocol: what a worker holds was leased, and what it acknowledges was
accepted. So what has been delivered is a beginning of each finding's events, and each
event is published only after an accepted publication of every earlier one.
-/

namespace SentinelGRC.Delivery

open Python Json Store Governance Protocol Transition

variable {F S : Type}

/-! ### One queue -/

section Tracks

variable {ρ : Type} {clash : ρ → ρ → Bool} [Deliverable ρ F clash]

/-- A queue with what its workers hold, what they are to acknowledge, and what was published, as a
state of the protocol. -/
structure Tracks (q : Unique ρ clash) (held acking : ℕ → Option ρ) (log : List (Key × Bool))
    (c : Courier Text Text Text) : Prop where
  items : c.items = items q
  held : ∀ i r, held i = some r → (key r).id ∈ c.taken ∧
    ∃ s, find? q (key r).id = some s ∧ key s = key r
  acking : ∀ i r, acking i = some r → ((key r).id, true) ∈ c.log
  logged : c.log = log.map fun p => (p.1.id, p.2)
  known : ∀ p ∈ log, ∃ r, find? q p.1.id = some r ∧ key r = p.1

/-- What a step of a worker does to the queue, to what the worker holds and is to acknowledge, and
what it publishes. -/
inductive Turned (q : Unique ρ clash) (held acking : Option ρ) :
    Unique ρ clash → Option ρ → Option ρ → Option (Key × Bool) → Prop
  | moved {q' : Unique ρ clash} {held' acking' : Option ρ} (notice : Notice Text Text)
      (effect : Effect q notice q')
      (finished : ∀ id, notice = .finished id → ∃ r, acking = some r ∧ (key r).id = id)
      (holds : ∀ r, held' = some r → held = some r ∨
        (∃ t, notice = .leased (key r).id t) ∧ find? q' (key r).id = some r)
      (acks : ∀ r, acking' = some r → acking = some r) : Turned q held acking q' held' acking' none
  | published {held' acking' : Option ρ} (r : ρ) (accepted : Bool) (holding : held = some r)
      (holds : ∀ s, held' = some s → s = r)
      (acks : ∀ s, acking' = some s → s = r ∧ accepted = true) :
      Turned q held acking q held' acking' (some (key r, accepted))

/-- A claim, by a worker that then holds the row that it answers. -/
theorem Turned.claimed [Clock F] {q q' : Unique ρ clash} {held acking : Option ρ} {refusal workerId : Text}
    {leaseSeconds : ℤ} {token : Uuid} {now : F} {answer : Except PyError (Option ρ)} {held' : Option ρ}
    (h : claim refusal q workerId leaseSeconds token now = (q', answer))
    (hheld : ∀ r, held' = some r → answer = .ok (some r)) : Turned q held acking q' held' none none := by
  rcases claim_cases refusal q workerId leaseSeconds token now with
    ⟨heffect, hnot⟩ | ⟨r, hr, heffect, hfind⟩
  · rw [h] at heffect hnot
    exact .moved .silent heffect (fun id h => by cases h) (fun s hs => absurd (hheld s hs) (hnot s))
      (fun s hs => by cases hs)
  · rw [h] at hr heffect hfind
    refine .moved (.leased (key r).id token.hex) heffect (fun id h => by cases h) ?_
      (fun s hs => by cases hs)
    intro s hs
    obtain rfl := Option.some.inj (Except.ok.inj (hr.symm.trans (hheld s hs)))
    exact .inr ⟨⟨_, rfl⟩, hfind⟩

variable {q q' : Unique ρ clash} {held acking held' acking' : ℕ → Option ρ} {log : List (Key × Bool)}
  {c : Courier Text Text Text} {notice : Notice Text Text}

/-- A move of the queue is a step of the protocol. -/
theorem Tracks.moved (h : Tracks q held acking log c) (hmove : Evolution q notice q')
    (hfinished : ∀ id, notice = .finished id → (id, true) ∈ c.log)
    (hheld : ∀ i r, held' i = some r → held i = some r ∨
      (∃ t, notice = .leased (key r).id t) ∧ find? q' (key r).id = some r)
    (hacking : ∀ i r, acking' i = some r → acking i = some r) :
    ∃ c', c.Step c' ∧ Tracks q' held' acking' log c' := by
  have hkept {id : Text} {r : ρ} (hr : find? q id = some r) : ∃ s, find? q' id = some s ∧ key s = key r := by
    obtain ⟨s, hs, hkey, -⟩ := hmove.kept hr
    exact ⟨s, hs, hkey⟩
  have hitems : c.items.Move notice (Delivery.items q') := by
    rw [h.items]
    exact hmove.move
  have htracks {taken : Set Text} (hsub : c.taken ⊆ taken)
      (hleased : ∀ r : ρ, (∃ t, notice = .leased (key r).id t) → (key r).id ∈ taken) :
      Tracks q' held' acking' log { c with items := Delivery.items q', taken } := by
    refine ⟨rfl, ?_, ?_, h.logged, ?_⟩
    · intro i r hr
      rcases hheld i r hr with hr | ⟨hnotice, hfind⟩
      · obtain ⟨htaken, s, hs, hkey⟩ := h.held i r hr
        obtain ⟨s', hs', hkey'⟩ := hkept hs
        exact ⟨hsub htaken, s', hs', hkey'.trans hkey⟩
      · exact ⟨hleased r hnotice, r, hfind, rfl⟩
    · intro i r hr
      exact h.acking i r (hacking i r hr)
    · intro p hp
      obtain ⟨r, hr, hkey⟩ := h.known p hp
      obtain ⟨s, hs, hkey'⟩ := hkept hr
      exact ⟨s, hs, hkey'.trans hkey⟩
  cases notice with
  | silent =>
    refine ⟨_, .silent _ hitems, htracks subset_rfl ?_⟩
    rintro r ⟨t, ht⟩
    cases ht
  | leased i t =>
    refine ⟨_, .leased _ i t hitems, htracks (Set.subset_insert i c.taken) ?_⟩
    rintro r ⟨u, hu⟩
    cases hu
    exact Set.mem_insert _ _
  | finished i =>
    refine ⟨_, .finished _ i hitems (hfinished i rfl), htracks subset_rfl ?_⟩
    rintro r ⟨t, ht⟩
    cases ht

/-- A publication by a worker that holds the row is a step of the protocol. -/
theorem Tracks.published (h : Tracks q held acking log c) {i : ℕ} {r : ρ} (hr : held i = some r)
    (accepted : Bool) (hheld : ∀ j s, held' j = some s → held j = some s)
    (hacking : ∀ j s, acking' j = some s → acking j = some s ∨ (s = r ∧ accepted = true)) :
    ∃ c', c.Step c' ∧ Tracks q held' acking' (log ++ [(key r, accepted)]) c' := by
  obtain ⟨htaken, s, hs, hkey⟩ := h.held i r hr
  refine ⟨_, .published (key r).id accepted htaken, h.items, ?_, ?_, ?_, ?_⟩
  · intro j t ht
    exact h.held j t (hheld j t ht)
  · intro j t ht
    rcases hacking j t ht with ht | ⟨rfl, rfl⟩
    · exact List.mem_append_left _ (h.acking j t ht)
    · exact List.mem_append_right _ (List.mem_singleton_self _)
  · rw [h.logged, List.map_append]
    rfl
  · intro p hp
    rcases List.mem_append.mp hp with hp | hp
    · exact h.known p hp
    · cases List.mem_singleton.mp hp
      exact ⟨s, hs, hkey⟩

/-- A step of a worker is a step of the protocol. -/
theorem Tracks.turn (h : Tracks q held acking log c) (i : ℕ) {holding acknowledging : Option ρ}
    {publication : Option (Key × Bool)}
    (hturn : Turned q (held i) (acking i) q' holding acknowledging publication) :
    ∃ c', c.Step c' ∧ Tracks q' (Function.update held i holding)
      (Function.update acking i acknowledging) (log ++ publication.toList) c' := by
  have hupdate {f : ℕ → Option ρ} {o : Option ρ} {P : ℕ → ρ → Prop} (hi : ∀ s, o = some s → P i s)
      (hj : ∀ j s, f j = some s → P j s) : ∀ j s, Function.update f i o j = some s → P j s := by
    intro j s hs
    by_cases hji : j = i
    · subst hji
      rw [Function.update_self] at hs
      exact hi s hs
    · rw [Function.update_of_ne hji] at hs
      exact hj j s hs
  cases hturn with
  | moved notice effect finished holds acks =>
    rw [Option.toList_none, List.append_nil]
    refine h.moved (.called effect) ?_ ?_ ?_
    · intro id hid
      obtain ⟨r, hr, rfl⟩ := finished id hid
      exact h.acking i r hr
    · exact hupdate holds fun j s hs => .inl hs
    · exact hupdate acks fun j s hs => hs
  | published r accepted hholding holds acks =>
    refine h.published hholding accepted ?_ ?_
    · refine hupdate (fun s hs => ?_) fun j s hs => hs
      rw [holds s hs]
      exact hholding
    · exact hupdate (fun s hs => .inr (acks s hs)) fun j s hs => .inl hs

end Tracks

/-! ### Workers of the outbox -/

def OutboxMessage.key (m : OutboxMessage) : Key := ⟨m.messageId, m.eventId, m.findingId, m.eventSequence⟩

/-- The row that a worker works on. -/
def OutboxPhase.item? : OutboxPhase F → Option (OutboxRow F)
  | .idle => none
  | .claimed item | .published item _ | .settling item _ | .failing item _ _ => some item

/-- The row that a worker is to acknowledge. -/
def OutboxPhase.acknowledging? : OutboxPhase F → Option (OutboxRow F)
  | .published item _ | .settling item _ => some item
  | _ => none

variable [PyFloat F] {H : Digest} {store : EvidenceStore S}

/-- A message carries the key of its row. -/
theorem fromItem_key {item : OutboxRow F} {message : OutboxMessage} (h : fromItem H item = .ok message) :
    message.key = key item := by
  obtain ⟨payload, body, -, rfl⟩ := fromItem_eq_ok.mp h
  rfl

omit [PyFloat F] in
theorem phase_item (item : OutboxRow F) (e : OutboxError) : (e.phase item).item? = some item ∧
    (e.phase item).acknowledging? = none := by
  cases e <;> exact ⟨rfl, rfl⟩

variable [Clock F]

/-- Each step of a worker of the outbox is one that the protocol allows. -/
theorem PublisherStep.turned (outbox : Outbox F) (step : PublisherStep F) (phase : OutboxPhase F) :
    Turned outbox phase.item? phase.acknowledging? (step.apply H outbox phase).1
      (step.apply H outbox phase).2.1.item? (step.apply H outbox phase).2.1.acknowledging?
      ((step.apply H outbox phase).2.2.map fun p => (p.message.key, p.accepted)) := by
  have hquiet {held acking held' acking' : Option (OutboxRow F)} (hheld : ∀ r, held' = some r → held = some r)
      (hacking : ∀ r, acking' = some r → acking = some r) :
      Turned outbox held acking outbox held' acking' none :=
    .moved .silent .idle (fun id h => by cases h) (fun r hr => .inl (hheld r hr)) hacking
  have hnone {o : Option (OutboxRow F)} : ∀ r, (none : Option (OutboxRow F)) = some r → o = some r :=
    fun r h => by cases h
  unfold PublisherStep.apply
  split
  · split
    · rename_i outbox' item he
      refine .claimed he ?_
      rintro s ⟨⟩
      rfl
    · rename_i outbox' answer hne he
      exact .claimed he (fun s h => by cases h)
  · rename_i outcome item
    split
    · rename_i e he
      obtain ⟨hitem, hacking⟩ := phase_item item e
      refine hquiet ?_ ?_
      · rw [hitem]
        exact fun r h => h
      · rw [hacking]
        exact hnone
    · rename_i message hmessage
      have hkey := fromItem_key hmessage
      cases outcome with
      | receipt messageId =>
        simp only [Option.map_some, hkey]
        refine .published item true rfl ?_ ?_
        · rintro s ⟨⟩
          rfl
        · rintro s ⟨⟩
          exact ⟨rfl, rfl⟩
      | raised error permanent accepted =>
        simp only [Option.map_some, hkey]
        refine .published item accepted rfl ?_ ?_
        · rintro s ⟨⟩
          rfl
        · rintro s ⟨⟩
  · rename_i item receipt
    split
    · rename_i e he
      obtain ⟨hitem, hacking⟩ := phase_item item e
      refine hquiet ?_ ?_
      · rw [hitem]
        exact fun r h => h
      · rw [hacking]
        exact hnone
    · exact hquiet hnone hnone
    · exact hquiet (fun r h => h) (fun r h => h)
  · rename_i now item receipt
    obtain ⟨notice, hnotice, heffect⟩ := outbox.settle_effect item receipt now
    have hfinished (id : Text) (h : notice = .finished id) :
        ∃ r, some item = some r ∧ (key r).id = id := by
      refine ⟨item, rfl, ?_⟩
      rcases hnotice with rfl | rfl
      · cases h
      · exact Notice.finished.inj h
    split
    · rename_i outbox' e he
      rw [he] at heffect
      obtain ⟨hitem, hacking⟩ := phase_item item e
      refine .moved notice heffect hfinished ?_ ?_
      · rw [hitem]
        exact fun r h => .inl h
      · rw [hacking]
        exact hnone
    · rename_i outbox' updated he
      rw [he] at heffect
      exact .moved notice heffect hfinished (fun r h => by cases h) (fun r h => by cases h)
  · rename_i maxAttempts retryDelay now item error permanent
    exact .moved .silent (outbox.fail_effect item error permanent maxAttempts retryDelay now)
      (fun id h => by cases h) (fun r h => by cases h) (fun r h => by cases h)
  · exact hquiet hnone hnone
  · exact hquiet (fun r h => h) (fun r h => h)

/-! ### Workers of the audit exports -/

def ExportPhase.item? : ExportPhase F → Option (AuditExport F)
  | .idle => none
  | .claimed item | .archived item _ | .failing item => some item

def ExportPhase.acknowledging? : ExportPhase F → Option (AuditExport F)
  | .archived item _ => some item
  | _ => none

/-- Each step of a worker of the audit exports is one that the protocol allows. -/
theorem ArchiverStep.turned (exports : Exports F) (step : ArchiverStep F) (phase : ExportPhase F) :
    Turned exports phase.item? phase.acknowledging? (step.apply exports phase).1
      (step.apply exports phase).2.1.item? (step.apply exports phase).2.1.acknowledging?
      ((step.apply exports phase).2.2.map fun a => (key a.item, a.accepted)) := by
  have hquiet {held acking held' acking' : Option (AuditExport F)}
      (hheld : ∀ r, held' = some r → held = some r) (hacking : ∀ r, acking' = some r → acking = some r) :
      Turned exports held acking exports held' acking' none :=
    .moved .silent .idle (fun id h => by cases h) (fun r hr => .inl (hheld r hr)) hacking
  have hnone {o : Option (AuditExport F)} : ∀ r, (none : Option (AuditExport F)) = some r → o = some r :=
    fun r h => by cases h
  unfold ArchiverStep.apply
  split
  · split
    · rename_i exports' item he
      refine .claimed he ?_
      rintro s ⟨⟩
      rfl
    · rename_i exports' answer hne he
      exact .claimed he (fun s h => by cases h)
  · rename_i outcome item
    split
    · exact hquiet (fun r h => h) hnone
    · cases outcome with
      | stored object =>
        refine .published item true rfl ?_ ?_
        · rintro s ⟨⟩
          rfl
        · rintro s ⟨⟩
          exact ⟨rfl, rfl⟩
      | raised accepted =>
        refine .published item accepted rfl ?_ ?_
        · rintro s ⟨⟩
          rfl
        · rintro s ⟨⟩
  · rename_i now item object
    obtain ⟨notice, hnotice, heffect⟩ := exports.acknowledge_effect item object now
    have hfinished (id : Text) (h : notice = .finished id) :
        ∃ r, some item = some r ∧ (key r).id = id := by
      refine ⟨item, rfl, ?_⟩
      rcases hnotice with rfl | rfl
      · cases h
      · exact Notice.finished.inj h
    split
    · rename_i exports' e he
      rw [he] at heffect
      exact .moved notice heffect hfinished (fun r h => .inl h) (fun r h => by cases h)
    · rename_i exports' updated he
      rw [he] at heffect
      exact .moved notice heffect hfinished (fun r h => by cases h) (fun r h => by cases h)
  · rename_i maxAttempts retryDelay now item
    exact .moved .silent (exports.fail_effect item maxAttempts retryDelay now)
      (fun id h => by cases h) (fun r h => by cases h) (fun r h => by cases h)
  · exact hquiet hnone hnone
  · exact hquiet (fun r h => h) (fun r h => h)

/-! ### Runs -/

omit [PyFloat F] [Clock F]

section Refines

variable {ρ : Type} {clash : ρ → ρ → Bool} [Deliverable ρ F clash]

/-- A queue with its workers and its publications stands for a run of the protocol. -/
def Refines (q : Unique ρ clash) (held acking : ℕ → Option ρ) (log : List (Key × Bool)) : Prop :=
  ∃ c, Relation.ReflTransGen Courier.Step Courier.empty c ∧ Tracks q held acking log c

variable {q q' : Unique ρ clash} {held acking : ℕ → Option ρ} {log : List (Key × Bool)}

/-- What moves the queue and no worker. -/
theorem Refines.moved (h : Refines q held acking log) (hmove : Evolution q .silent q') :
    Refines q' held acking log := by
  obtain ⟨c, hc, htracks⟩ := h
  obtain ⟨c', hstep, htracks⟩ := htracks.moved hmove (fun id h => by cases h)
    (fun i r hr => .inl hr) (fun i r hr => hr)
  exact ⟨c', hc.tail hstep, htracks⟩

theorem Refines.turn (h : Refines q held acking log) (i : ℕ) {holding acknowledging : Option ρ}
    {publication : Option (Key × Bool)}
    (hturn : Turned q (held i) (acking i) q' holding acknowledging publication) :
    Refines q' (Function.update held i holding) (Function.update acking i acknowledging)
      (log ++ publication.toList) := by
  obtain ⟨c, hc, htracks⟩ := h
  obtain ⟨c', hstep, htracks⟩ := htracks.turn i hturn
  exact ⟨c', hc.tail hstep, htracks⟩

/-- A worker changes no event's row. -/
theorem Turned.mirrors {held acking held' acking' : Option ρ} {publication : Option (Key × Bool)}
    {events : List (Event F)} (h : Turned q held acking q' held' acking' publication)
    (hmirrors : Mirrors q events) : Mirrors q' events := by
  cases h with
  | moved notice effect finished holds acks => exact hmirrors.effect effect
  | published r accepted holding holds acks => exact hmirrors

/-- A finished row has only finished rows before it in its finding. -/
def FinishedInOrder (q : Unique ρ clash) : Prop :=
  ∀ r ∈ q.rows, (progress r).finishedAt.isSome = true → ∀ s ∈ q.rows,
    (key s).findingId = (key r).findingId → (key s).eventSequence < (key r).eventSequence →
    (progress s).finishedAt.isSome = true

/-- What is published belongs to an event, and every earlier event of its finding was published
and accepted before. -/
def PublishedInOrder (events : List (Event F)) (log : List (Key × Bool)) : Prop :=
  ∀ before k accepted after, log = before ++ (k, accepted) :: after →
    (∃ e ∈ events, eventPlace e = k.place) ∧
    ∀ e ∈ events, e.findingId = k.findingId → e.eventSequence < k.eventSequence →
      ∃ k', k'.place = eventPlace e ∧ (k', true) ∈ before

theorem Refines.finishedInOrder (h : Refines q held acking log) : FinishedInOrder q := by
  obtain ⟨c, hc, htracks⟩ := h
  have hordered := Courier.ordered_of_steps hc
  intro r hr hfinished s hs hfinding hsequence
  have hitem {t : ρ} (ht : t ∈ q.rows) : c.items (key t).id = some (item t) := by
    rw [htracks.items, items_eq_some]
    exact ⟨t, ht, rfl, rfl⟩
  exact (hordered.done _ _ (hitem hr) hfinished).1 _ _ (hitem hs) hfinding hsequence

theorem Refines.publishedInOrder (h : Refines q held acking log) {events : List (Event F)}
    (hmirrors : Mirrors q events) : PublishedInOrder events log := by
  obtain ⟨c, hc, htracks⟩ := h
  intro before k accepted after hlog
  obtain ⟨r, hr, rfl⟩ := htracks.known (k, accepted) (by rw [hlog]; simp)
  constructor
  · have hplace : (key r).place ∈ (q.rows.map key).map Key.place :=
      List.mem_map_of_mem (List.mem_map_of_mem (find?_eq_some.mp hr).1)
    rw [show (q.rows.map key).map Key.place = _ from hmirrors] at hplace
    exact List.mem_map.mp hplace
  · intro e he hfinding hsequence
    have hplace : eventPlace e ∈ (q.rows.map key).map Key.place := by
      rw [show (q.rows.map key).map Key.place = _ from hmirrors]
      exact List.mem_map_of_mem he
    obtain ⟨k', hk', hkplace⟩ := List.mem_map.mp hplace
    obtain ⟨s, hs, rfl⟩ := List.mem_map.mp hk'
    refine ⟨key s, hkplace, ?_⟩
    have hclog := htracks.logged
    rw [hlog, List.map_append, List.map_cons] at hclog
    obtain ⟨x, hx, hbefore⟩ := (Courier.ordered_of_steps hc).log _ _ _ _ hclog
    rw [htracks.items, items, hr] at hx
    obtain rfl := Option.some.inj hx
    have hs? : find? q (key s).id = some s := find?_eq_some.mpr ⟨hs, rfl⟩
    simp only [Key.place, eventPlace, Place.mk.injEq] at hkplace
    have hmem := hbefore (key s).id (item s)
      (by rw [htracks.items, items, hs?]; rfl)
      (hkplace.2.1.trans hfinding) (by simp only [item, hkplace.2.2]; exact hsequence)
    obtain ⟨⟨k', accepted'⟩, hk', heq⟩ := List.mem_map.mp hmem
    obtain ⟨t, ht, htkey⟩ := htracks.known (k', accepted') (by rw [hlog]; simp [hk'])
    obtain ⟨hid, rfl⟩ := Prod.mk.inj heq
    simp only at hid ht htkey
    rw [hid, hs?] at ht
    obtain rfl := Option.some.inj ht
    rw [htkey]
    exact hk'

end Refines

/-- What the workers of the outbox have published, in order. -/
def Fleet.published (s : Fleet F S) : List (Key × Bool) :=
  s.publications.map fun p => (p.message.key, p.accepted)

/-- What the workers of the audit exports have archived, in order. -/
def Fleet.archived (s : Fleet F S) : List (Key × Bool) :=
  s.archivals.map fun a => (key a.item, a.accepted)

/-- The rows of both queues stand for the events, and both queues follow the protocol. -/
structure Fleet.Orderly (s : Fleet F S) : Prop where
  mirrored : Mirrored s.sys.db
  outbox : Refines s.sys.db.governanceOutbox (fun i => (s.publishers i).item?)
    (fun i => (s.publishers i).acknowledging?) s.published
  exports : Refines s.sys.db.auditExports (fun i => (s.archivers i).item?)
    (fun i => (s.archivers i).acknowledging?) s.archived

theorem orderly_init (objects : S) : (Fleet.init objects : Fleet F S).Orderly where
  mirrored := mirrored_empty
  outbox := by
    refine ⟨Courier.empty, .refl, rfl, ?_, ?_, rfl, ?_⟩
    · rintro i r ⟨⟩
    · rintro i r ⟨⟩
    · rintro p ⟨⟩
  exports := by
    refine ⟨Courier.empty, .refl, rfl, ?_, ?_, rfl, ?_⟩
    · rintro i r ⟨⟩
    · rintro i r ⟨⟩
    · rintro p ⟨⟩

theorem published_append {α : Type} (f : α → Key × Bool) (log : List α) (publication : Option α) :
    (log ++ publication.toList).map f = log.map f ++ (publication.map f).toList := by
  cases publication with
  | none => simp
  | some a => simp

variable [PyFloat F] [Clock F]

theorem Fleet.Orderly.publisher {s : Fleet F S} (h : s.Orderly) (H : Digest)
    (store : EvidenceStore S) (i : ℕ) (step : PublisherStep F) :
    ((fleet H store).next s (.publisher i step)).Orderly := by
  have hturn := step.turned (H := H) s.sys.db.governanceOutbox (s.publishers i)
  have hrefines := h.outbox.turn i hturn
  refine ⟨⟨hturn.mirrors h.mirrored.outbox, h.mirrored.exports⟩, ?_, h.exports⟩
  convert hrefines using 1
  · rfl
  · exact Function.comp_update OutboxPhase.item? _ i _
  · exact Function.comp_update OutboxPhase.acknowledging? _ i _
  · exact published_append _ _ _

theorem Fleet.Orderly.archiver {s : Fleet F S} (h : s.Orderly) (H : Digest)
    (store : EvidenceStore S) (i : ℕ) (step : ArchiverStep F) :
    ((fleet H store).next s (.archiver i step)).Orderly := by
  have hturn := step.turned s.sys.db.auditExports (s.archivers i)
  have hrefines := h.exports.turn i hturn
  refine ⟨⟨h.mirrored.outbox, hturn.mirrors h.mirrored.exports⟩, h.outbox, ?_⟩
  convert hrefines using 1
  · rfl
  · exact Function.comp_update ExportPhase.item? _ i _
  · exact Function.comp_update ExportPhase.acknowledging? _ i _
  · exact published_append _ _ _

/-- Each step of the fleet keeps both queues to the protocol. -/
theorem Fleet.Orderly.next {s : Fleet F S} (h : s.Orderly) (H : Digest) (store : EvidenceStore S)
    (turn : Turn F) : ((fleet H store).next s turn).Orderly := by
  cases turn with
  | core action =>
    obtain ⟨hmirrored, houtbox, hexports⟩ := h.mirrored.core H store action
    exact ⟨hmirrored, h.outbox.moved houtbox, h.exports.moved hexports⟩
  | publisher i step => exact h.publisher H store i step
  | archiver i step => exact h.archiver H store i step
  | requeueOutbox outboxId confirmation now =>
    have heffect : Effect _ _ (Outbox.requeueDead s.sys.db.governanceOutbox outboxId confirmation now).1 :=
      requeueDead_effect _ _ _ _ _
    exact ⟨⟨h.mirrored.outbox.effect heffect, h.mirrored.exports⟩, h.outbox.moved (.called heffect),
      h.exports⟩
  | requeueExport exportId confirmation now =>
    have heffect : Effect _ _ (Exports.requeueDead s.sys.db.auditExports exportId confirmation now).1 :=
      requeueDead_effect _ _ _ _ _
    exact ⟨⟨h.mirrored.outbox, h.mirrored.exports.effect heffect⟩, h.outbox,
      h.exports.moved (.called heffect)⟩

/-- In every run, what is delivered or archived is a beginning of each finding's events, and each
event is published, and archived, only after every earlier one was. -/
theorem delivered_in_order (H : Digest) (store : EvidenceStore S) (objects : S) (turns : List (Turn F)) :
    let s := (fleet H store).run (Fleet.init objects) turns
    (FinishedInOrder s.sys.db.governanceOutbox ∧ FinishedInOrder s.sys.db.auditExports) ∧
      PublishedInOrder s.sys.db.governanceEvents.rows s.published ∧
      PublishedInOrder s.sys.db.governanceEvents.rows s.archived := by
  intro s
  have h : s.Orderly := (fleet H store).run_invariant (fun s turn h => h.next H store turn)
    (orderly_init objects) turns
  exact ⟨⟨h.outbox.finishedInOrder, h.exports.finishedInOrder⟩,
    h.outbox.publishedInOrder h.mirrored.outbox, h.exports.publishedInOrder h.mirrored.exports⟩

end SentinelGRC.Delivery
