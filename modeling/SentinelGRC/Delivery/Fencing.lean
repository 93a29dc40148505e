import SentinelGRC.Delivery.Commits

/-!
Fencing of the queues. The operations of the core and calls on both queues with any
arguments interleave in any order. No row is ever finished and dead, a finished row stays
as it is, the counts add up to the rows, and an item whose row was claimed again or
requeued writes nothing any more.
-/

namespace SentinelGRC.Delivery

open Python Store Governance Protocol Transition

variable {F S : Type}

/-! ### Calls -/

inductive OutboxRequest (F : Type)
  | claim (workerId : Text) (leaseSeconds : ℤ) (token : Uuid) (now : F)
  | lookup (item : OutboxRow F) (receipt : Text)
  | settle (item : OutboxRow F) (receipt : Text) (now : F)
  | fail (item : OutboxRow F) (error : Text) (permanent : Bool) (maxAttempts retryDelay : ℤ) (now : F)
  | requeueDead (outboxId confirmation : Text) (now : F)

inductive ExportRequest (F : Type)
  | claim (workerId : Text) (leaseSeconds : ℤ) (token : Uuid) (now : F)
  | acknowledge (item : AuditExport F) (object : ArchivedAuditObject) (now : F)
  | fail (item : AuditExport F) (maxAttempts retryDelay : ℤ) (now : F)
  | requeueDead (exportId confirmation : Text) (now : F)

/-- A step of the core, or a call on a queue. -/
inductive Request (F : Type)
  | core (action : Action F)
  | outbox (request : OutboxRequest F)
  | exports (request : ExportRequest F)

/-- The answers of a queue. -/
inductive QueueAnswer (ρ : Type)
  | claimed (r : Except PyError (Option ρ))
  | looked (r : Except OutboxError (Option Bool))
  | acknowledged (r : Except OutboxError Bool)
  | failed (r : Except PyError Failed)
  | requeued (r : Except PyError Bool)

inductive Reply (F : Type)
  | core (answer : Answer F)
  | outbox (answer : QueueAnswer (OutboxRow F))
  | exports (answer : QueueAnswer (AuditExport F))

variable [Clock F]

def OutboxRequest.apply (outbox : Outbox F) :
    OutboxRequest F → Outbox F × QueueAnswer (OutboxRow F)
  | .claim workerId leaseSeconds token now =>
    let (outbox, r) := outbox.claim workerId leaseSeconds token now
    (outbox, .claimed r)
  | .lookup item receipt => (outbox, .looked (outbox.lookup item receipt))
  | .settle item receipt now =>
    let (outbox, r) := outbox.settle item receipt now
    (outbox, .acknowledged r)
  | .fail item error permanent maxAttempts retryDelay now =>
    let (outbox, r) := outbox.fail item error permanent maxAttempts retryDelay now
    (outbox, .failed r)
  | .requeueDead outboxId confirmation now =>
    let (outbox, r) := outbox.requeueDead outboxId confirmation now
    (outbox, .requeued r)

def ExportRequest.apply (exports : Exports F) :
    ExportRequest F → Exports F × QueueAnswer (AuditExport F)
  | .claim workerId leaseSeconds token now =>
    let (exports, r) := exports.claim workerId leaseSeconds token now
    (exports, .claimed r)
  | .acknowledge item object now =>
    let (exports, r) := exports.acknowledge item object now
    (exports, .acknowledged (raisedBy r))
  | .fail item maxAttempts retryDelay now =>
    let (exports, r) := exports.fail item maxAttempts retryDelay now
    (exports, .failed r)
  | .requeueDead exportId confirmation now =>
    let (exports, r) := exports.requeueDead exportId confirmation now
    (exports, .requeued r)

/-- The core and any calls on its queues, in any order. -/
def queues [PyFloat F] (H : Digest) (store : EvidenceStore S) :
    Machine (Sys F S) (Request F) (Reply F) where
  step := fun s request =>
    match request with
    | .core action => ((governance H store).next s action, .core ((governance H store).answer s action))
    | .outbox request =>
      let (outbox, answer) := request.apply s.db.governanceOutbox
      ({ s with db := { s.db with governanceOutbox := outbox } }, .outbox answer)
    | .exports request =>
      let (exports, answer) := request.apply s.db.auditExports
      ({ s with db := { s.db with auditExports := exports } }, .exports answer)

/-- The lock token that a call draws. -/
def Request.token? : Request F → Option Text
  | .outbox (.claim _ _ token _) => some token.hex
  | .exports (.claim _ _ token _) => some token.hex
  | _ => none

/-! ### Steps -/

/-- A notice of a lease carries the token of the call. -/
def Request.Announces (request : Request F) (notice : Notice Text Text) : Prop :=
  ∀ i t, notice = .leased i t → request.token? = some t

omit [Clock F] in
theorem claimNotice_announces {ρ : Type} {clash : ρ → ρ → Bool} [Deliverable ρ F clash]
    {token : Uuid} {r : Except PyError (Option ρ)} {i t : Text}
    (h : claimNotice token r = .leased i t) : token.hex = t := by
  unfold claimNotice at h
  split at h
  · exact (Notice.leased.inj h).2
  · cases h

theorem OutboxRequest.effect (outbox : Outbox F) (request : OutboxRequest F) :
    ∃ notice, Effect outbox notice (request.apply outbox).1 ∧
      (Request.outbox request).Announces notice := by
  cases request with
  | claim workerId leaseSeconds token now =>
    refine ⟨_, claim_effect _ outbox workerId leaseSeconds token now, fun i t h => ?_⟩
    exact congrArg some (claimNotice_announces h)
  | lookup item receipt => exact ⟨.silent, .idle, fun i t h => by cases h⟩
  | settle item receipt now =>
    obtain ⟨notice, hnotice, heffect⟩ := outbox.settle_effect item receipt now
    refine ⟨notice, heffect, fun i t h => ?_⟩
    rcases hnotice with rfl | rfl <;> cases h
  | fail item error permanent maxAttempts retryDelay now =>
    exact ⟨.silent, outbox.fail_effect item error permanent maxAttempts retryDelay now,
      fun i t h => by cases h⟩
  | requeueDead outboxId confirmation now =>
    exact ⟨.silent, requeueDead_effect _ outbox outboxId confirmation now, fun i t h => by cases h⟩

theorem ExportRequest.effect (exports : Exports F) (request : ExportRequest F) :
    ∃ notice, Effect exports notice (request.apply exports).1 ∧
      (Request.exports request).Announces notice := by
  cases request with
  | claim workerId leaseSeconds token now =>
    refine ⟨_, claim_effect _ exports workerId leaseSeconds token now, fun i t h => ?_⟩
    exact congrArg some (claimNotice_announces h)
  | acknowledge item object now =>
    obtain ⟨notice, hnotice, heffect⟩ := exports.acknowledge_effect item object now
    refine ⟨notice, heffect, fun i t h => ?_⟩
    rcases hnotice with rfl | rfl <;> cases h
  | fail item maxAttempts retryDelay now =>
    exact ⟨.silent, exports.fail_effect item maxAttempts retryDelay now, fun i t h => by cases h⟩
  | requeueDead exportId confirmation now =>
    exact ⟨.silent, requeueDead_effect _ exports exportId confirmation now, fun i t h => by cases h⟩

variable [PyFloat F] {H : Digest} {store : EvidenceStore S}

/-- Every step keeps the rows of the events, and moves both queues. -/
theorem queues_next {s : Sys F S} (hs : Mirrored s.db) (request : Request F) :
    Mirrored ((queues H store).next s request).db ∧
      (∃ notice, request.Announces notice ∧
        Evolution s.db.governanceOutbox notice ((queues H store).next s request).db.governanceOutbox) ∧
      ∃ notice, request.Announces notice ∧
        Evolution s.db.auditExports notice ((queues H store).next s request).db.auditExports := by
  have hsilent : request.Announces .silent := fun i t h => by cases h
  cases request with
  | core action =>
    obtain ⟨hs', hout, hexp⟩ := hs.core H store action
    exact ⟨hs', ⟨.silent, hsilent, hout⟩, .silent, hsilent, hexp⟩
  | outbox request =>
    obtain ⟨notice, heffect, hnotice⟩ := request.effect s.db.governanceOutbox
    exact ⟨⟨hs.outbox.effect heffect, hs.exports⟩, ⟨notice, hnotice, .called heffect⟩,
      .silent, hsilent, .called .idle⟩
  | exports request =>
    obtain ⟨notice, heffect, hnotice⟩ := request.effect s.db.auditExports
    exact ⟨⟨hs.outbox, hs.exports.effect heffect⟩, ⟨.silent, hsilent, .called .idle⟩,
      notice, hnotice, .called heffect⟩

/-! ### Runs -/

section Runs

variable {ρ : Type} {clash : ρ → ρ → Bool} [Deliverable ρ F clash]

/-- A queue of the database that every step moves, announcing the leases it gives out. -/
def Follows (H : Digest) (store : EvidenceStore S) (queue : Db F → Unique ρ clash) : Prop :=
  ∀ (s : Sys F S) (request : Request F), Mirrored s.db → ∃ notice, request.Announces notice ∧
    Evolution (queue s.db) notice (queue ((queues H store).next s request).db)

theorem follows_outbox : Follows H store (fun db : Db F => db.governanceOutbox) :=
  fun _ request hs => (queues_next hs request).2.1

theorem follows_exports : Follows H store (fun db : Db F => db.auditExports) :=
  fun _ request hs => (queues_next hs request).2.2

theorem mirrored_run (H : Digest) (store : EvidenceStore S) (objects : S)
    (requests : List (Request F)) :
    Mirrored ((queues H store).run (Sys.init objects) requests).db := by
  refine Machine.run_invariant (queues H store) (I := fun s : Sys F S => Mirrored s.db) ?_
    mirrored_empty requests
  intro s request hs
  exact (queues_next hs request).1

variable {queue : Db F → Unique ρ clash}

/-- No row is both finished and dead. -/
theorem Follows.sorted (hqueue : Follows H store queue) (hempty : (queue Db.empty).rows = [])
    (objects : S) (requests : List (Request F)) :
    (items (queue ((queues H store).run (Sys.init objects) requests).db)).Sorted := by
  refine (Machine.run_invariant (queues H store)
    (I := fun s : Sys F S => Mirrored s.db ∧ (items (queue s.db)).Sorted) ?_
    ⟨mirrored_empty, ?_⟩ requests).2
  · intro s request hs
    obtain ⟨notice, -, hevolution⟩ := hqueue s request hs.1
    exact ⟨(queues_next hs.1 request).1, hevolution.move.sorted hs.2⟩
  · intro i x hx
    obtain ⟨r, hr, -⟩ := items_eq_some.mp hx
    rw [show (queue (Sys.init objects : Sys F S).db).rows = [] from hempty] at hr
    cases hr

/-- A finished row stays as it is. -/
theorem Follows.finished (hqueue : Follows H store queue) {s : Sys F S} (hs : Mirrored s.db) {r : ρ}
    (hr : r ∈ (queue s.db).rows) (hfinished : (progress r).finishedAt.isSome = true)
    (later : List (Request F)) : r ∈ (queue ((queues H store).run s later).db).rows := by
  refine (Machine.run_invariant (queues H store)
    (I := fun s : Sys F S => Mirrored s.db ∧ r ∈ (queue s.db).rows) ?_ ⟨hs, hr⟩ later).2
  intro s request hs
  obtain ⟨notice, -, hevolution⟩ := hqueue s request hs.1
  obtain ⟨r', hr', -, hsame⟩ := hevolution.kept (find?_eq_some.mpr ⟨hs.2, rfl⟩)
  rw [hsame hfinished] at hr'
  exact ⟨(queues_next hs.1 request).1, (find?_eq_some.mp hr').1⟩

/-- The row under an id does not carry a token. -/
def Lost (q : Unique ρ clash) (id t : Text) : Prop := ∀ x, items q id = some x → x.lease ≠ some t

/-- A token that no call draws again stays off the row. -/
theorem Follows.lost (hqueue : Follows H store queue) {s : Sys F S} (hs : Mirrored s.db) {id t : Text}
    (hlost : Lost (queue s.db) id t) {later : List (Request F)}
    (hlater : ∀ request ∈ later, request.token? ≠ some t) :
    Lost (queue ((queues H store).run s later).db) id t := by
  have halong : (queues H store).Along (fun _ request => request.token? ≠ some t) s later :=
    Machine.along_of_mem s hlater
  refine (halong.run_invariant (I := fun s : Sys F S => Mirrored s.db ∧ Lost (queue s.db) id t)
    ?_ ⟨hs, hlost⟩).2
  intro s request hrequest hs
  obtain ⟨notice, hnotice, hevolution⟩ := hqueue s request hs.1
  refine ⟨(queues_next hs.1 request).1, hevolution.move.lease_ne ?_ hs.2⟩
  intro h
  exact hrequest (hnotice id t h)

end Runs

/-! ### What the queues keep to -/

section Fenced

variable {ρ : Type} {clash : ρ → ρ → Bool} [Deliverable ρ F clash]

/-- A row is finished, dead or pending, and only one of them. -/
def OneOf (r : ρ) : Prop :=
  ((progress r).finishedAt.isSome = true ∧ (progress r).deadAt.isSome = false ∧ isPending r = false) ∨
  ((progress r).finishedAt.isSome = false ∧ (progress r).deadAt.isSome = true ∧ isPending r = false) ∨
  ((progress r).finishedAt.isSome = false ∧ (progress r).deadAt.isSome = false ∧ isPending r = true)

/-- Each row is one of the three, and the counts add up. -/
structure Partitioned (q : Unique ρ clash) : Prop where
  one : ∀ r ∈ q.rows, OneOf r
  total : (counts q).finished + (counts q).pending + (counts q).dead = q.rows.length

omit [Clock F] [PyFloat F] in
theorem oneOf_of_sorted {q : Unique ρ clash} (h : (items q).Sorted) {r : ρ} (hr : r ∈ q.rows) :
    OneOf r := by
  have hdead : (progress r).finishedAt.isSome = true → (progress r).deadAt.isSome = false :=
    h (key r).id (item r) (items_eq_some.mpr ⟨r, hr, rfl, rfl⟩)
  unfold OneOf isPending
  generalize (progress r).finishedAt = finishedAt at hdead ⊢
  generalize (progress r).deadAt = deadAt at hdead ⊢
  cases finishedAt <;> cases deadAt <;> simp_all

omit [Clock F] [PyFloat F] in
theorem partitioned_of_sorted {q : Unique ρ clash} (h : (items q).Sorted) : Partitioned q where
  one _ hr := oneOf_of_sorted h hr
  total := by
    have hone : ∀ r ∈ q.rows, OneOf r := fun r hr => oneOf_of_sorted h hr
    unfold counts
    simp only
    generalize q.rows = rows at hone
    induction rows with
    | nil => rfl
    | cons r rows ih =>
      have ih := ih fun s hs => hone s (List.mem_cons_of_mem r hs)
      simp only [List.countP_cons, List.length_cons]
      rcases hone r List.mem_cons_self with ⟨h₁, h₂, h₃⟩ | ⟨h₁, h₂, h₃⟩ | ⟨h₁, h₂, h₃⟩
      all_goals
        rw [h₁, h₂, h₃]
        simp only [if_true, Bool.false_eq_true, if_false]
        omega

end Fenced

/-! ### Superseded items -/

/-- The outbox row that a claim returned. -/
def Reply.outboxItem? : Reply F → Option (OutboxRow F)
  | .outbox (.claimed (.ok row)) => row
  | _ => none

/-- The export row that a claim returned. -/
def Reply.exportItem? : Reply F → Option (AuditExport F)
  | .exports (.claimed (.ok row)) => row
  | _ => none

/-- A call claims the row again, or requeues it. -/
def TakesOverOutbox (outboxId : Text) (request : Request F) (reply : Reply F) : Prop :=
  (∃ row, reply.outboxItem? = some row ∧ row.outboxId = outboxId) ∨
  ∃ confirmation now, request = .outbox (.requeueDead outboxId confirmation now) ∧
    reply = .outbox (.requeued (.ok true))

def TakesOverExport (exportId : Text) (request : Request F) (reply : Reply F) : Prop :=
  (∃ row, reply.exportItem? = some row ∧ row.exportId = exportId) ∨
  ∃ confirmation now, request = .exports (.requeueDead exportId confirmation now) ∧
    reply = .exports (.requeued (.ok true))

/-- A call of the run answered with an item, and a later one took its row over. -/
def Superseded (H : Digest) (store : EvidenceStore S) (objects : S) (requests : List (Request F))
    (returns : Reply F → Prop) (takesOver : Request F → Reply F → Prop) : Prop :=
  ∃ before a between b after, requests = before ++ a :: (between ++ b :: after) ∧
    returns ((queues H store).answer ((queues H store).run (Sys.init objects) before) a) ∧
    takesOver b ((queues H store).answer
      ((queues H store).run (Sys.init objects) (before ++ a :: between)) b)

/-- What the queues keep to after a run. -/
structure Fenced (H : Digest) (store : EvidenceStore S) (objects : S) (requests : List (Request F))
    (db : Db F) : Prop where
  outbox_partitioned : Partitioned db.governanceOutbox
  exports_partitioned : Partitioned db.auditExports
  metrics_total : (Outbox.metrics db.governanceOutbox).finished +
    (Outbox.metrics db.governanceOutbox).pending + (Outbox.metrics db.governanceOutbox).dead =
      db.governanceOutbox.rows.length
  delivered_kept : ∀ r ∈ db.governanceOutbox.rows, r.deliveredAt.isSome = true → ∀ later,
    r ∈ ((queues H store).run (Sys.init objects) (requests ++ later)).db.governanceOutbox.rows
  archived_kept : ∀ r ∈ db.auditExports.rows, r.archivedAt.isSome = true → ∀ later,
    r ∈ ((queues H store).run (Sys.init objects) (requests ++ later)).db.auditExports.rows
  outbox_superseded : ∀ item : OutboxRow F, Superseded H store objects requests
      (fun reply => reply.outboxItem? = some item) (TakesOverOutbox item.outboxId) →
    (∀ receipt now, (Outbox.settle db.governanceOutbox item receipt now).1 = db.governanceOutbox ∧
      (Outbox.acknowledge db.governanceOutbox item receipt now).1 = db.governanceOutbox) ∧
    ∀ error permanent maxAttempts retryDelay now,
      (Outbox.fail db.governanceOutbox item error permanent maxAttempts retryDelay now).1 =
        db.governanceOutbox
  exports_superseded : ∀ item : AuditExport F, Superseded H store objects requests
      (fun reply => reply.exportItem? = some item) (TakesOverExport item.exportId) →
    (∀ object now, (Exports.acknowledge db.auditExports item object now).1 = db.auditExports) ∧
    ∀ maxAttempts retryDelay now,
      (Exports.fail db.auditExports item maxAttempts retryDelay now).1 = db.auditExports

omit [PyFloat F] [Clock F] in
theorem Lost.update {ρ : Type} {clash : ρ → ρ → Bool} [Deliverable ρ F clash] {q : Unique ρ clash}
    {i : ρ} {t : Text} (ht : (progress i).lockToken = some t) (h : Lost q (key i).id t)
    {guard : ρ → Bool} (hguard : ∀ r, guard r = true → leasedBy i r = true) (w : Write ρ) :
    update q (key i).id guard w = (q, false) := by
  refine update_unleased w hguard ?_
  intro r u hr hu
  obtain rfl : t = u := Option.some.inj (ht.symm.trans hu)
  exact h _ (congrArg (Option.map Delivery.item) hr)

section Lost

variable {outbox : Outbox F} {exports : Exports F} {t : Text}

omit [PyFloat F] in
theorem Outbox.settle_lost {item : OutboxRow F} (ht : item.lockToken = some t)
    (h : Lost outbox item.outboxId t) (receipt : Text) (now : F) :
    (outbox.settle item receipt now).1 = outbox := by
  unfold Outbox.settle
  split_ifs
  · exact congrArg Prod.fst (h.update (i := item) ht (fun r => leasedBy_of_heldBy) _)
  · rfl

omit [PyFloat F] in
theorem Outbox.acknowledge_lost {item : OutboxRow F} (ht : item.lockToken = some t)
    (h : Lost outbox item.outboxId t) (receipt : Text) (now : F) :
    (outbox.acknowledge item receipt now).1 = outbox := by
  unfold Outbox.acknowledge
  split
  · rfl
  · rfl
  · exact Outbox.settle_lost ht h receipt now

omit [PyFloat F] in
theorem Outbox.fail_lost {item : OutboxRow F} (ht : item.lockToken = some t)
    (h : Lost outbox item.outboxId t) (error : Text) (permanent : Bool)
    (maxAttempts retryDelay : ℤ) (now : F) :
    (outbox.fail item error permanent maxAttempts retryDelay now).1 = outbox := by
  unfold Outbox.fail
  split_ifs
  · rfl
  · exact congrArg Prod.fst (h.update (i := item) ht (fun r => leasedBy_of_heldBy) _)
  · rfl

omit [PyFloat F] in
theorem Exports.acknowledge_lost {item : AuditExport F} (ht : item.lockToken = some t)
    (h : Lost exports item.exportId t) (object : ArchivedAuditObject) (now : F) :
    (exports.acknowledge item object now).1 = exports := by
  unfold Exports.acknowledge
  split_ifs
  · exact congrArg Prod.fst (h.update (i := item) ht (fun r => leasedBy_of_heldBy) _)
  · rfl

omit [PyFloat F] in
theorem Exports.fail_lost {item : AuditExport F} (ht : item.lockToken = some t)
    (h : Lost exports item.exportId t) (maxAttempts retryDelay : ℤ) (now : F) :
    (exports.fail item maxAttempts retryDelay now).1 = exports := by
  unfold Exports.fail
  split_ifs
  · rfl
  · exact congrArg Prod.fst (h.update (i := item) ht (fun r hr => hr) _)
  · rfl

end Lost

/-- Once its row was taken over, the token of an item is on it no more. -/
theorem Superseded.lost {ρ : Type} {clash : ρ → ρ → Bool} [Deliverable ρ F clash]
    {queue : Db F → Unique ρ clash} (hqueue : Follows H store queue) {objects : S}
    {requests : List (Request F)} (hfresh : (requests.filterMap Request.token?).Nodup) {id : Text}
    (lease : Option Text) {returns : Reply F → Prop} {takesOver : Request F → Reply F → Prop}
    (hreturns : ∀ s a, returns ((queues H store).answer s a) →
      ∃ t, a.token? = some t ∧ lease = some t)
    (htakes : ∀ s b t, takesOver b ((queues H store).answer s b) → b.token? ≠ some t →
      Lost (queue ((queues H store).next s b).db) id t)
    (h : Superseded H store objects requests returns takesOver) :
    ∃ t, lease = some t ∧
      Lost (queue ((queues H store).run (Sys.init objects) requests).db) id t := by
  obtain ⟨before, a, between, b, after, rfl, ha, hb⟩ := h
  obtain ⟨t, htoken, hlease⟩ := hreturns _ _ ha
  refine ⟨t, hlease, ?_⟩
  rw [List.filterMap_append, List.filterMap_cons_some htoken, List.nodup_append] at hfresh
  have hnew : ∀ request ∈ between ++ b :: after, request.token? ≠ some t := by
    intro request hmem hrequest
    exact (List.nodup_cons.mp hfresh.2.1).1 (List.mem_filterMap.mpr ⟨request, hmem, hrequest⟩)
  have hrun : (queues H store).run (Sys.init objects) (before ++ a :: (between ++ b :: after)) =
      (queues H store).run ((queues H store).next
        ((queues H store).run (Sys.init objects) (before ++ a :: between)) b) after := by
    rw [← List.cons_append, ← List.append_assoc, Machine.run_append, Machine.run_cons]
  rw [hrun]
  have hs := mirrored_run H store objects (before ++ a :: between)
  refine hqueue.lost (queues_next hs b).1 (htakes _ _ t hb (hnew b (by simp))) ?_
  intro request hmem
  exact hnew request (by simp [hmem])

/-- The row that a claim returns is the one in the table, with the token of the call. -/
theorem outboxItem_row {s : Sys F S} {request : Request F} {row : OutboxRow F}
    (h : ((queues H store).answer s request).outboxItem? = some row) :
    ∃ t, request.token? = some t ∧ row.lockToken = some t ∧
      find? ((queues H store).next s request).db.governanceOutbox row.outboxId = some row := by
  cases request with
  | core action => cases h
  | exports request => cases h
  | outbox request =>
    cases request with
    | claim workerId leaseSeconds token now =>
      have hclaim : (Outbox.claim s.db.governanceOutbox workerId leaseSeconds token now).2 =
          .ok (some row) := by
        change Reply.outboxItem? (.outbox (.claimed
          (Outbox.claim s.db.governanceOutbox workerId leaseSeconds token now).2)) = some row at h
        cases hout : (Outbox.claim s.db.governanceOutbox workerId leaseSeconds token now).2 with
        | error e =>
          rw [hout] at h
          cases h
        | ok found =>
          rw [hout] at h
          exact congrArg Except.ok h
      obtain ⟨hfind, htoken⟩ := claim_eq_some hclaim
      exact ⟨token.hex, rfl, htoken, hfind⟩
    | _ => cases h

theorem exportItem_row {s : Sys F S} {request : Request F} {row : AuditExport F}
    (h : ((queues H store).answer s request).exportItem? = some row) :
    ∃ t, request.token? = some t ∧ row.lockToken = some t ∧
      find? ((queues H store).next s request).db.auditExports row.exportId = some row := by
  cases request with
  | core action => cases h
  | outbox request => cases h
  | exports request =>
    cases request with
    | claim workerId leaseSeconds token now =>
      have hclaim : (Exports.claim s.db.auditExports workerId leaseSeconds token now).2 =
          .ok (some row) := by
        change Reply.exportItem? (.exports (.claimed
          (Exports.claim s.db.auditExports workerId leaseSeconds token now).2)) = some row at h
        cases hout : (Exports.claim s.db.auditExports workerId leaseSeconds token now).2 with
        | error e =>
          rw [hout] at h
          cases h
        | ok found =>
          rw [hout] at h
          exact congrArg Except.ok h
      obtain ⟨hfind, htoken⟩ := claim_eq_some hclaim
      exact ⟨token.hex, rfl, htoken, hfind⟩
    | _ => cases h

omit [PyFloat F] [Clock F] in
theorem lost_of_row {ρ : Type} {clash : ρ → ρ → Bool} [Deliverable ρ F clash] {q : Unique ρ clash}
    {id t : Text} (h : ∀ r, find? q id = some r → (progress r).lockToken ≠ some t) : Lost q id t := by
  intro x hx
  obtain ⟨r, hr, rfl⟩ := Option.map_eq_some_iff.mp hx
  exact h r hr

/-- A call that takes a row over leaves no earlier token on it. -/
theorem takesOverOutbox_lost {s : Sys F S} {request : Request F} {outboxId t : Text}
    (h : TakesOverOutbox outboxId request ((queues H store).answer s request))
    (hrequest : request.token? ≠ some t) :
    Lost ((queues H store).next s request).db.governanceOutbox outboxId t := by
  apply lost_of_row
  intro r hr
  rcases h with ⟨row, hrow, rfl⟩ | ⟨confirmation, now, rfl, hanswer⟩
  · obtain ⟨u, hu, htoken, hfind⟩ := outboxItem_row hrow
    obtain rfl := Option.some.inj (hr.symm.trans hfind)
    rintro ht
    exact hrequest (hu.trans (htoken.symm.trans ht))
  · have hanswer : (Outbox.requeueDead s.db.governanceOutbox outboxId confirmation now).2 = .ok true := by
      injection hanswer with hanswer
      injection hanswer
    rw [show (progress r).lockToken = none from requeueDead_eq_true hanswer hr]
    intro h
    cases h

theorem takesOverExport_lost {s : Sys F S} {request : Request F} {exportId t : Text}
    (h : TakesOverExport exportId request ((queues H store).answer s request))
    (hrequest : request.token? ≠ some t) :
    Lost ((queues H store).next s request).db.auditExports exportId t := by
  apply lost_of_row
  intro r hr
  rcases h with ⟨row, hrow, rfl⟩ | ⟨confirmation, now, rfl, hanswer⟩
  · obtain ⟨u, hu, htoken, hfind⟩ := exportItem_row hrow
    obtain rfl := Option.some.inj (hr.symm.trans hfind)
    rintro ht
    exact hrequest (hu.trans (htoken.symm.trans ht))
  · have hanswer : (Exports.requeueDead s.db.auditExports exportId confirmation now).2 = .ok true := by
      injection hanswer with hanswer
      injection hanswer
    rw [show (progress r).lockToken = none from requeueDead_eq_true hanswer hr]
    intro h
    cases h

/-- After any steps of the core and any calls, the queues fence their rows. -/
theorem queues_fenced (H : Digest) (store : EvidenceStore S) (objects : S)
    (requests : List (Request F)) (hfresh : (requests.filterMap Request.token?).Nodup) :
    Fenced H store objects requests ((queues H store).run (Sys.init objects) requests).db := by
  have hs := mirrored_run H store objects requests
  have houtbox : Partitioned ((queues H store).run (Sys.init objects) requests).db.governanceOutbox :=
    partitioned_of_sorted (follows_outbox.sorted rfl objects requests)
  have hexports : Partitioned ((queues H store).run (Sys.init objects) requests).db.auditExports :=
    partitioned_of_sorted (follows_exports.sorted rfl objects requests)
  refine ⟨houtbox, hexports, houtbox.total, ?_, ?_, ?_, ?_⟩
  · intro r hr hdelivered later
    rw [Machine.run_append]
    exact follows_outbox.finished hs hr hdelivered later
  · intro r hr harchived later
    rw [Machine.run_append]
    exact follows_exports.finished hs hr harchived later
  · intro item h
    obtain ⟨t, ht, hlost⟩ := h.lost follows_outbox hfresh item.lockToken
      (fun s a ha => let ⟨t, htoken, hitem, _⟩ := outboxItem_row ha; ⟨t, htoken, hitem⟩)
      (fun s b t hb hrequest => takesOverOutbox_lost hb hrequest)
    exact ⟨fun receipt now => ⟨Outbox.settle_lost ht hlost receipt now,
        Outbox.acknowledge_lost ht hlost receipt now⟩,
      fun error permanent maxAttempts retryDelay now =>
        Outbox.fail_lost ht hlost error permanent maxAttempts retryDelay now⟩
  · intro item h
    obtain ⟨t, ht, hlost⟩ := h.lost follows_exports hfresh item.lockToken
      (fun s a ha => let ⟨t, htoken, hitem, _⟩ := exportItem_row ha; ⟨t, htoken, hitem⟩)
      (fun s b t hb hrequest => takesOverExport_lost hb hrequest)
    exact ⟨fun object now => Exports.acknowledge_lost ht hlost object now,
      fun maxAttempts retryDelay now => Exports.fail_lost ht hlost maxAttempts retryDelay now⟩

instance : Clock Tick where
  epoch := 0
  after t n := ⟨min 9 (t.val + n).toNat, by omega⟩

/-- A finding is created; a worker claims its event, and another one does after the lease. -/
def claimedTwice : List (Request Tick) :=
  (performed 0 analyst createF1).map .core ++
    [.outbox (.claim (lit "worker-1") 2 (uuid 1) 3), .outbox (.claim (lit "worker-2") 2 (uuid 2) 6)]

theorem queues_fenced_claimedTwice :
    Superseded sha256 (memoryEvidenceStore sha256) Table.empty claimedTwice
      (fun reply => reply.outboxItem?.map (·.workerId) = some (some (lit "worker-1")))
      (fun _ reply => reply.outboxItem?.map (·.workerId) = some (some (lit "worker-2"))) ∧
    Fenced sha256 (memoryEvidenceStore sha256) Table.empty claimedTwice
      ((queues sha256 (memoryEvidenceStore sha256)).run (Sys.init Table.empty) claimedTwice).db :=
  ⟨⟨(performed 0 analyst createF1).map .core, _, [], _, [], rfl, by decide +kernel, by decide +kernel⟩,
    queues_fenced sha256 (memoryEvidenceStore sha256) Table.empty claimedTwice (by decide)⟩

end SentinelGRC.Delivery
