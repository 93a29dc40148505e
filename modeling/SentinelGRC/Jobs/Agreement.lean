import SentinelGRC.Jobs.Postgres

/-!
The two job queues under one sequence of calls. A call names a job by its path and each
queue is asked under the id it gave that job. The PostgreSQL queue also gets the token
that the worker's claim of the job returned. Rows stand in step: the same job in the same
place, so that ids are renamed in order. A running row of the one is held by the worker
and the token of the row of the other, which makes the token say no more than the worker
does, as long as no worker id claims a job twice.
-/

namespace SentinelGRC.Jobs

open Python Store Transition

variable {T : Type} [Clock T]

/-! ### Paired calls -/

structure Paired (T : Type) where
  sqlite : Queue T
  postgres : PostgresQueue T
  /-- The token that a worker's claim of a job returned. -/
  tokens : Text → Text → Option LockToken

def Paired.init : Paired T := ⟨Queue.empty, SerialTable.empty, fun _ _ => none⟩

/-- The ids of a job. -/
def Paired.sqliteId (s : Paired T) (path : Text) : ℕ :=
  ((s.sqlite.jobs.rows.find? fun r => r.payloadPath = path).map Job.jobId).getD 0

def Paired.postgresId (s : Paired T) (path : Text) : ℕ :=
  ((s.postgres.table.rows.find? fun r => r.payloadPath = path).map fun r => r.jobId).getD 0

/-- The token of the worker's claim of the job, or else some other. -/
def Paired.token (s : Paired T) (path workerId : Text) (other : LockToken) : Text :=
  ((s.tokens path workerId).getD other).text

inductive PairedCall (T : Type)
  | enqueue (payloadPath : Text) (now : T)
  | claim (workerId : Text) (leaseSeconds : ℤ) (now : T) (token : LockToken)
  | renew (path workerId : Text) (other : LockToken) (leaseSeconds : ℤ) (now : T)
  | complete (path workerId : Text) (other : LockToken) (now : T)
  | fail (path workerId : Text) (other : LockToken) (error : Text) (maxAttempts retryDelay : ℤ)
      (now : T)

inductive PostgresAnswer (T : Type)
  | bool (r : Except PostgresError Bool)
  | claimed (r : Except PostgresError (Option (PostgresJob T)))
  | failed (r : Except PostgresError Queue.Failed)

/-- The tokens after a claim. -/
def recordToken (tokens : Text → Text → Option LockToken) (workerId : Text) (token : LockToken) :
    Except PostgresError (Option (PostgresJob T)) → Text → Text → Option LockToken
  | .ok (some job) => fun path w =>
    if path = job.payloadPath ∧ w = workerId then some token else tokens path w
  | _ => tokens

def Paired.step (s : Paired T) : PairedCall T → Paired T × (QueueAnswer T × PostgresAnswer T)
  | .enqueue path now =>
    let (q, a) := s.sqlite.enqueue path now
    let (p, b) := PostgresQueue.enqueue s.postgres path now
    (⟨q, p, s.tokens⟩, .bool a, .bool b)
  | .claim w lease now token =>
    let (q, a) := s.sqlite.claim w lease now
    let (p, b) := PostgresQueue.claim s.postgres w lease now token
    (⟨q, p, recordToken s.tokens w token b⟩, .claimed a, .claimed b)
  | .renew path w other lease now =>
    let (q, a) := s.sqlite.renew (s.sqliteId path) w lease now
    let (p, b) := PostgresQueue.renew s.postgres (s.postgresId path) w (s.token path w other) lease now
    (⟨q, p, s.tokens⟩, .bool a, .bool b)
  | .complete path w other now =>
    let (q, a) := s.sqlite.complete (s.sqliteId path) w now
    let (p, b) := PostgresQueue.complete s.postgres (s.postgresId path) w (s.token path w other) now
    (⟨q, p, s.tokens⟩, .bool a, .bool b)
  | .fail path w other error attempts delay now =>
    let (q, a) := s.sqlite.fail (s.sqliteId path) w error attempts delay now
    let (p, b) := PostgresQueue.fail s.postgres (s.postgresId path) w (s.token path w other) error
      attempts delay now
    (⟨q, p, s.tokens⟩, .failed a, .failed b)

/-- Both queues, called in step. -/
def pairedQueues (T : Type) [Clock T] :
    Machine (Paired T) (PairedCall T) (QueueAnswer T × PostgresAnswer T) where
  step := Paired.step

/-! ### What the callers keep to -/

/-- The job was enqueued. -/
def Paired.Exists (s : Paired T) (path : Text) : Prop := ∃ r ∈ s.sqlite.jobs.rows, r.payloadPath = path

/-- Nonblank paths and worker ids, existing jobs, valid leases and retry policies, no worker
id that claims a job twice; and texts of a kind. -/
def Valid (ok : Text → Prop) (s : Paired T) : PairedCall T → Prop
  | .enqueue path _ => blank path = false ∧ ok path
  | .claim w lease now _ => blank w = false ∧ ok w ∧ 0 < lease ∧
      ∀ job, (s.sqlite.claim w lease now).2 = .ok (some job) → s.tokens job.payloadPath w = none
  | .renew path w _ lease _ => s.Exists path ∧ blank w = false ∧ ok w ∧ 0 < lease
  | .complete path w _ _ => s.Exists path ∧ blank w = false ∧ ok w
  | .fail path w _ error attempts delay _ =>
    s.Exists path ∧ blank w = false ∧ ok w ∧ ok error ∧ 1 ≤ attempts ∧ 0 ≤ delay

/-- Text that either database stores: no lone surrogates and no NUL. -/
def Storable (t : Text) : Prop := Scalar t ∧ (0 : CodePoint) ∉ t

instance (t : Text) : Decidable (Storable t) := inferInstanceAs (Decidable (_ ∧ _))

instance decidableClaimed (a : Except PyError (Option (Job T))) (P : Job T → Prop)
    [∀ job, Decidable (P job)] : Decidable (∀ job, a = .ok (some job) → P job) :=
  match a with
  | .ok (some job) => decidable_of_iff (P job) (by simp)
  | .ok none => isTrue (by simp)
  | .error _ => isTrue (by simp)

instance (ok : Text → Prop) [∀ t, Decidable (ok t)] (s : Paired T) (c : PairedCall T) :
    Decidable (Valid ok s c) :=
  have (path : Text) : Decidable (s.Exists path) := inferInstanceAs (Decidable (∃ r ∈ _, _))
  match c with
  | .enqueue .. => inferInstanceAs (Decidable (_ ∧ _))
  | .claim .. => inferInstanceAs (Decidable (_ ∧ _ ∧ _ ∧ _))
  | .renew .. => inferInstanceAs (Decidable (_ ∧ _ ∧ _ ∧ _))
  | .complete .. => inferInstanceAs (Decidable (_ ∧ _ ∧ _))
  | .fail .. => inferInstanceAs (Decidable (_ ∧ _ ∧ _ ∧ _ ∧ _ ∧ _))

/-! ### Agreement -/

/-- The same row, up to its id and who holds it. -/
structure SameRow (r : Job T) (p : PostgresJob T) : Prop where
  payloadPath : p.payloadPath = r.payloadPath
  status : p.status = r.status
  attempts : p.attempts = r.attempts
  availableAt : p.availableAt = r.availableAt
  lockedUntil : p.lockedUntil = r.lockedUntil

/-- The same answer; of a claimed job, its path and its attempts. -/
inductive SameAnswer : QueueAnswer T → PostgresAnswer T → Prop
  | bool (b : Bool) : SameAnswer (.bool (.ok b)) (.bool (.ok b))
  | idle : SameAnswer (.claimed (.ok none)) (.claimed (.ok none))
  | claimed (r : Job T) (p : PostgresJob T) (hpath : p.payloadPath = r.payloadPath)
      (hattempts : p.attempts = r.attempts) :
      SameAnswer (.claimed (.ok (some r))) (.claimed (.ok (some p)))
  | failed (f : Queue.Failed) : SameAnswer (.failed (.ok f)) (.failed (.ok f))

/-- The same jobs, whose ids are in the same order in both. -/
structure SameJobs (s : Paired T) : Prop
    extends InStep SameRow s.sqlite.jobs.rows s.postgres.table.rows where
  order : ∀ (m n : ℕ) (r r' : Job T) (p p' : PostgresJob T),
    s.sqlite.jobs.rows[m]? = some r → s.sqlite.jobs.rows[n]? = some r' →
    s.postgres.table.rows[m]? = some p → s.postgres.table.rows[n]? = some p' →
    (r.jobId < r'.jobId ↔ p.jobId < p'.jobId)

/-- The call is answered alike and leaves the same jobs. -/
def Agree (s : Paired T) (c : PairedCall T) : Prop :=
  SameAnswer ((pairedQueues T).answer s c).1 ((pairedQueues T).answer s c).2 ∧
    SameJobs ((pairedQueues T).next s c)

/-! ### Rows in step -/

/-- The same row; and when it is running, held in both by the worker that got the token. -/
structure Linked (tokens : Text → Text → Option LockToken) (r : Job T) (p : PostgresJob T) : Prop
    extends SameRow r p where
  held : r.status = .running → ∃ w token, r.workerId = some w ∧ p.workerId = some w ∧
    p.lockToken = some token.text ∧ tokens r.payloadPath w = some token

def InOrder (s : Paired T) : Prop := InStep (Linked s.tokens) s.sqlite.jobs.rows s.postgres.table.rows

omit [Clock T] in
theorem InOrder.sameJobs {s : Paired T} (h : InOrder s) : SameJobs s where
  length := h.length
  related n x y hx hy := (h.related n x y hx hy).toSameRow
  order _ _ _ _ _ _ hr hr' hp hp' :=
    (key_lt_iff s.sqlite.ascending hr hr').trans (key_lt_iff s.postgres.ascending hp hp').symm

theorem Linked.claimable_eq {tokens : Text → Text → Option LockToken} {r : Job T}
    {p : PostgresJob T} (h : Linked tokens r p) (now : T) :
    Queue.claimable now r = Queue.claimable now p.toJob := by
  unfold Queue.claimable
  rw [h.status, h.availableAt, h.lockedUntil]

/-- To a worker that brings its token, the lease is held in both or in neither. -/
theorem Linked.leasedTo_eq {s : Paired T} {r : Job T} {p : PostgresJob T}
    (h : Linked s.tokens r p) (w : Text) (other : LockToken) (now : T) :
    PostgresQueue.leasedTo w (s.token r.payloadPath w other) now p = Queue.leasedTo w now r := by
  by_cases hrunning : r.status = .running
  · obtain ⟨holder, token, hr, hp, htoken, hgiven⟩ := h.held hrunning
    have hleased : Queue.leasedTo w now p.toJob = Queue.leasedTo w now r := by
      unfold Queue.leasedTo
      rw [h.status, h.lockedUntil, hr, hp]
    rw [PostgresQueue.leasedTo, hleased]
    by_cases hw : holder = w
    · subst hw
      have hsame : p.lockToken = some (s.token r.payloadPath holder other) := by
        rw [htoken, Paired.token, hgiven]
        rfl
      simp [hsame]
    · have hlost : Queue.leasedTo w now r = false := by
        unfold Queue.leasedTo
        rw [hrunning, hr]
        cases r.lockedUntil <;> simp [hw]
      rw [hlost]
      rfl
  · have hlost (q : Job T) (hq : q.status ≠ .running) : Queue.leasedTo w now q = false := by
      unfold Queue.leasedTo
      split
      · contradiction
      · rfl
    rw [PostgresQueue.leasedTo, hlost r hrunning, hlost p.toJob (by rwa [h.status])]
    rfl

omit [Clock T] in
theorem inStep_find? {tokens : Text → Text → Option LockToken} {q : Queue T}
    {u : PostgresQueue T} (h : InStep (Linked tokens) q.jobs.rows u.table.rows) {n : ℕ} {r : Job T}
    {p : PostgresJob T} (hr : q.jobs.rows[n]? = some r) (hp : u.table.rows[n]? = some p) :
    Linked tokens r p ∧ q.find? r.jobId = some r ∧ u.table.find? p.jobId = some p :=
  ⟨h.related n r p hr hp, Table.find?_eq_some.mpr ⟨List.mem_of_getElem? hr, rfl⟩,
    Table.find?_eq_some.mpr ⟨List.mem_of_getElem? hp, rfl⟩⟩

omit [Clock T] in
/-- The rows of a job stand in one place, each under the id the calls name it by. -/
theorem InOrder.row_of_path {s : Paired T} (h : InOrder s) {path : Text} (hpath : s.Exists path) :
    ∃ (n : ℕ) (r : Job T) (p : PostgresJob T), s.sqlite.jobs.rows[n]? = some r ∧
      s.postgres.table.rows[n]? = some p ∧ r.payloadPath = path ∧ s.sqliteId path = r.jobId ∧
      s.postgresId path = p.jobId := by
  have hsame (r : Job T) (p : PostgresJob T) (hl : Linked s.tokens r p) :
      (decide (r.payloadPath = path) : Bool) = decide (p.payloadPath = path) := by
    rw [hl.payloadPath]
  rcases h.find? hsame with ⟨hnone, -⟩ | ⟨n, r, p, hr, hp, hfind, hfind'⟩
  · obtain ⟨r, hr, rfl⟩ := hpath
    exact absurd (List.find?_eq_none.mp hnone r hr) (by simp)
  · refine ⟨n, r, p, hr, hp, by simpa using List.find?_some hfind, ?_, ?_⟩
    · rw [Paired.sqliteId, hfind]
      rfl
    · rw [Paired.postgresId, hfind']
      rfl

omit [Clock T] in
/-- One row is rewritten in both. -/
theorem inStep_set {tokens tokens' : Text → Text → Option LockToken} {q : Queue T}
    {u : PostgresQueue T} (h : InStep (Linked tokens) q.jobs.rows u.table.rows) {n : ℕ} {r : Job T}
    {p : PostgresJob T} (hr : q.jobs.rows[n]? = some r) (hp : u.table.rows[n]? = some p)
    {f : Job T → Job T} {g : PostgresJob T → PostgresJob T} (hf : ∀ r, (f r).jobId = r.jobId)
    (hg : ∀ p, (g p).jobId = p.jobId) (hrow : Linked tokens' (f r) (g p))
    (hrest : ∀ (r' : Job T) (p' : PostgresJob T), Linked tokens r' p' → Linked tokens' r' p') :
    InStep (Linked tokens') (q.set r.jobId f hf).jobs.rows (u.set p.jobId g hg).table.rows := by
  refine InStep.map h fun m r' p' hr' hp' hl => ?_
  by_cases hmn : m = n
  · subst hmn
    obtain rfl := Option.some.inj (hr.symm.trans hr')
    obtain rfl := Option.some.inj (hp.symm.trans hp')
    rw [if_pos rfl, if_pos rfl]
    exact hrow
  · rw [if_neg (mt (q.jobs.key_eq_iff hr hr').mp hmn), if_neg (mt (u.table.key_eq_iff hp hp').mp hmn)]
    exact hrest r' p' hl

/-! ### One call -/

theorem bindText_storable {t : Text} (h : Storable t) : bindText t = .ok () := by
  rw [bindText, if_neg (not_not.mpr h.1), if_neg h.2]

/-- A call that leaves the queues in step and is answered alike. -/
structure Simulated (s : Paired T) (c : PairedCall T) : Prop where
  inOrder : InOrder ((pairedQueues T).next s c)
  sameAnswer : SameAnswer ((pairedQueues T).answer s c).1 ((pairedQueues T).answer s c).2

variable {s : Paired T}

theorem simulated_enqueue (h : InOrder s) {path : Text} (hpath : blank path = false)
    (hstorable : Storable path) (now : T) : Simulated s (.enqueue path now) := by
  have hany : (s.sqlite.jobs.rows.any fun r => r.payloadPath = path) =
      s.postgres.table.rows.any fun p => p.payloadPath = path := by
    refine InStep.any h fun r p hl => ?_
    rw [hl.payloadPath]
  cases hold : s.sqlite.jobs.rows.any fun r => r.payloadPath = path with
  | true =>
    have hsqlite : s.sqlite.enqueue path now = (s.sqlite, .ok false) := by
      rw [Queue.enqueue, if_neg (not_not.mpr hstorable.1), if_pos hold]
    have hpostgres : PostgresQueue.enqueue s.postgres path now = (s.postgres.skip, .ok false) := by
      rw [PostgresQueue.enqueue, if_neg (by simp [hpath]), bindText_storable hstorable]
      exact if_pos (hany.symm.trans hold)
    constructor
    · change InOrder ⟨(s.sqlite.enqueue path now).1, (PostgresQueue.enqueue s.postgres path now).1,
        s.tokens⟩
      rw [hsqlite, hpostgres]
      exact h
    · change SameAnswer (.bool (s.sqlite.enqueue path now).2)
        (.bool (PostgresQueue.enqueue s.postgres path now).2)
      rw [hsqlite, hpostgres]
      exact .bool false
  | false =>
    have hsqlite : s.sqlite.enqueue path now = (s.sqlite.insert path now, .ok true) := by
      rw [Queue.enqueue, if_neg (not_not.mpr hstorable.1), if_neg (by simp [hold])]
    have hpostgres : PostgresQueue.enqueue s.postgres path now =
        (s.postgres.insert (fun n => ⟨⟨n, path, .pending, 0, now, none, none, none⟩, none⟩)
          (fun _ => rfl), .ok true) := by
      rw [PostgresQueue.enqueue, if_neg (by simp [hpath]), bindText_storable hstorable]
      exact if_neg (by rw [← hany, hold]; simp)
    constructor
    · change InOrder ⟨(s.sqlite.enqueue path now).1, (PostgresQueue.enqueue s.postgres path now).1,
        s.tokens⟩
      rw [hsqlite, hpostgres]
      refine InStep.concat h ⟨⟨rfl, rfl, rfl, rfl, rfl⟩, fun hrunning => ?_⟩
      cases hrunning
    · change SameAnswer (.bool (s.sqlite.enqueue path now).2)
        (.bool (PostgresQueue.enqueue s.postgres path now).2)
      rw [hsqlite, hpostgres]
      exact .bool true

theorem simulated_claim (h : InOrder s) {w : Text} {lease : ℤ} {now : T} (token : LockToken)
    (hvalid : Valid Storable s (.claim w lease now token)) :
    Simulated s (.claim w lease now token) := by
  obtain ⟨hblank, hstorable, hlease, hfresh⟩ := hvalid
  have hargs : ¬ (blank w ∨ lease ≤ 0) := by simp [hblank, hlease]
  rcases InStep.find? h (fun r p hl => hl.claimable_eq now) with
    ⟨hnone, hnone'⟩ | ⟨n, r, p, hr, hp, hfind, hfind'⟩
  · have hsqlite : s.sqlite.claim w lease now = (s.sqlite, .ok none) := by
      rw [Queue.claim, if_neg hargs, hnone]
    have hpostgres : PostgresQueue.claim s.postgres w lease now token = (s.postgres, .ok none) := by
      rw [PostgresQueue.claim, if_neg hargs, bindText_storable hstorable]
      simp only [hnone']
    constructor
    · change InOrder ⟨(s.sqlite.claim w lease now).1,
        (PostgresQueue.claim s.postgres w lease now token).1,
        recordToken s.tokens w token (PostgresQueue.claim s.postgres w lease now token).2⟩
      rw [hsqlite, hpostgres]
      exact h
    · change SameAnswer (.claimed (s.sqlite.claim w lease now).2)
        (.claimed (PostgresQueue.claim s.postgres w lease now token).2)
      rw [hsqlite, hpostgres]
      exact .idle
  · have hl := h.related n r p hr hp
    have hsqlite : s.sqlite.claim w lease now =
        (s.sqlite.set r.jobId (Queue.take w (Clock.after now lease)) (Queue.jobId_take _ _),
          .ok (some { r with attempts := r.attempts + 1 })) := by
      rw [Queue.claim, if_neg hargs, hfind]
      exact if_neg (not_not.mpr hstorable.1)
    have hpostgres : PostgresQueue.claim s.postgres w lease now token =
        (s.postgres.set p.jobId (PostgresQueue.take w token (Clock.after now lease)) fun _ => rfl,
          .ok (some (PostgresQueue.take w token (Clock.after now lease) p))) := by
      rw [PostgresQueue.claim, if_neg hargs, bindText_storable hstorable]
      simp only [hfind']
    rw [hsqlite] at hfresh
    have hunclaimed : s.tokens r.payloadPath w = none := hfresh { r with attempts := r.attempts + 1 } rfl
    constructor
    · change InOrder ⟨(s.sqlite.claim w lease now).1,
        (PostgresQueue.claim s.postgres w lease now token).1,
        recordToken s.tokens w token (PostgresQueue.claim s.postgres w lease now token).2⟩
      rw [hsqlite, hpostgres]
      refine inStep_set h hr hp _ _ ⟨⟨hl.payloadPath, rfl, ?_, hl.availableAt, rfl⟩, ?_⟩ ?_
      · change p.attempts + 1 = r.attempts + 1
        rw [hl.attempts]
      · intro _
        refine ⟨w, token, rfl, rfl, rfl, ?_⟩
        exact if_pos ⟨hl.payloadPath.symm, rfl⟩
      · intro r' p' hl'
        refine ⟨hl'.toSameRow, fun hrunning => ?_⟩
        obtain ⟨w', token', hr', hp', htoken, hgiven⟩ := hl'.held hrunning
        refine ⟨w', token', hr', hp', htoken, ?_⟩
        -- The worker has no token of a job of this path, so no row is held with one.
        have hother : ¬ (r'.payloadPath = p.payloadPath ∧ w' = w) := by
          rintro ⟨hpath, rfl⟩
          rw [hpath, hl.payloadPath, hunclaimed] at hgiven
          cases hgiven
        exact (if_neg hother).trans hgiven
    · change SameAnswer (.claimed (s.sqlite.claim w lease now).2)
        (.claimed (PostgresQueue.claim s.postgres w lease now token).2)
      rw [hsqlite, hpostgres]
      exact .claimed _ _ hl.payloadPath (congrArg (· + 1) hl.attempts)

omit [Clock T] in
theorem bindText_token (s : Paired T) (path w : Text) (other : LockToken) :
    bindText (s.token path w other) = .ok () ∧ s.token path w other ≠ [] := by
  have htoken (token : LockToken) : bindText token.text = .ok () ∧ token.text ≠ [] := by
    constructor
    · refine bindText_storable ⟨fun c hc => ?_, fun hc => ?_⟩
      · have := token.hex c hc
        simp only [isLowerHex, Bool.or_eq_true, Bool.and_eq_true, decide_eq_true_eq] at this
        rw [isSurrogate_eq_false]
        omega
      · exact absurd (token.hex 0 hc) (by decide)
    · intro hnil
      have := token.length
      rw [hnil] at this
      cases this
  exact htoken _

/-- The update of a leased row, made in both or in neither. -/
theorem InOrder.update (h : InOrder s) {path w : Text} (other : LockToken) (now : T)
    (hpath : s.Exists path) {f : Job T → Job T} {g : PostgresJob T → PostgresJob T}
    (hf : ∀ r, (f r).jobId = r.jobId) (hg : ∀ p, (g p).jobId = p.jobId)
    (hrow : ∀ (r : Job T) (p : PostgresJob T), Linked s.tokens r p → Linked s.tokens (f r) (g p)) :
    InStep (Linked s.tokens)
        (s.sqlite.update (s.sqliteId path) (Queue.leasedTo w now) f hf).1.jobs.rows
        (PostgresQueue.update s.postgres (s.postgresId path)
          (PostgresQueue.leasedTo w (s.token path w other) now) g hg).1.table.rows ∧
      (PostgresQueue.update s.postgres (s.postgresId path)
          (PostgresQueue.leasedTo w (s.token path w other) now) g hg).2 =
        (s.sqlite.update (s.sqliteId path) (Queue.leasedTo w now) f hf).2 := by
  obtain ⟨n, r, p, hr, hp, rfl, hsqlite, hpostgres⟩ := h.row_of_path hpath
  obtain ⟨hl, hfind, hfind'⟩ := inStep_find? h hr hp
  rw [hsqlite, hpostgres, Queue.update, PostgresQueue.update, hfind, hfind']
  simp only [hl.leasedTo_eq]
  cases Queue.leasedTo w now r with
  | true => exact ⟨inStep_set h hr hp hf hg (hrow r p hl) fun _ _ => id, rfl⟩
  | false => exact ⟨h, rfl⟩

theorem simulated_renew (h : InOrder s) {path w : Text} {other : LockToken} {lease : ℤ} {now : T}
    (hvalid : Valid Storable s (.renew path w other lease now)) :
    Simulated s (.renew path w other lease now) := by
  obtain ⟨hpath, hblank, hstorable, hlease⟩ := hvalid
  obtain ⟨htoken, htoken'⟩ := bindText_token s path w other
  obtain ⟨hrows, hanswer⟩ := h.update other now hpath (w := w)
    (Queue.jobId_renewed (Clock.after now lease))
    (g := PostgresQueue.renewed (Clock.after now lease)) (fun _ => rfl) fun r p hl =>
      ⟨⟨hl.payloadPath, hl.status, hl.attempts, hl.availableAt, rfl⟩, hl.held⟩
  have hsqlite : s.sqlite.renew (s.sqliteId path) w lease now =
      Prod.map id Except.ok (s.sqlite.update (s.sqliteId path) (Queue.leasedTo w now)
        (Queue.renewed (Clock.after now lease)) (Queue.jobId_renewed _)) := by
    rw [Queue.renew, if_neg (by simp [hblank, hlease]), if_neg (not_not.mpr hstorable.1)]
    rfl
  have hpostgres : PostgresQueue.renew s.postgres (s.postgresId path) w (s.token path w other) lease
      now = Prod.map id Except.ok (PostgresQueue.update s.postgres (s.postgresId path)
        (PostgresQueue.leasedTo w (s.token path w other) now)
        (PostgresQueue.renewed (Clock.after now lease)) fun _ => rfl) := by
    rw [PostgresQueue.renew, if_neg (by simp [hblank, hlease, htoken']), bindText_storable hstorable,
      htoken]
    rfl
  constructor
  · change InStep _ (s.sqlite.renew _ _ _ _).1.jobs.rows (PostgresQueue.renew s.postgres _ _ _ _ _).1.table.rows
    rw [hsqlite, hpostgres]
    exact hrows
  · change SameAnswer (.bool (s.sqlite.renew _ _ _ _).2) (.bool (PostgresQueue.renew s.postgres _ _ _ _ _).2)
    rw [hsqlite, hpostgres, Prod.map_snd, Prod.map_snd, hanswer]
    exact .bool _

theorem simulated_complete (h : InOrder s) {path w : Text} {other : LockToken} {now : T}
    (hvalid : Valid Storable s (.complete path w other now)) :
    Simulated s (.complete path w other now) := by
  obtain ⟨hpath, hblank, hstorable⟩ := hvalid
  obtain ⟨htoken, -⟩ := bindText_token s path w other
  obtain ⟨hrows, hanswer⟩ := h.update other now hpath (w := w) Queue.jobId_completed
    (g := PostgresQueue.completed) (fun _ => rfl) fun r p hl =>
      ⟨⟨hl.payloadPath, rfl, hl.attempts, hl.availableAt, rfl⟩, fun hrunning => by cases hrunning⟩
  have hsqlite : s.sqlite.complete (s.sqliteId path) w now =
      Prod.map id Except.ok (s.sqlite.update (s.sqliteId path) (Queue.leasedTo w now)
        Queue.completed Queue.jobId_completed) := by
    rw [Queue.complete, if_neg (by simp [hblank]), if_neg (not_not.mpr hstorable.1)]
    rfl
  have hpostgres : PostgresQueue.complete s.postgres (s.postgresId path) w (s.token path w other)
      now = Prod.map id Except.ok (PostgresQueue.update s.postgres (s.postgresId path)
        (PostgresQueue.leasedTo w (s.token path w other) now) PostgresQueue.completed
        fun _ => rfl) := by
    rw [PostgresQueue.complete, bindText_storable hstorable, htoken]
    rfl
  constructor
  · change InStep _ (s.sqlite.complete _ _ _).1.jobs.rows
      (PostgresQueue.complete s.postgres _ _ _ _).1.table.rows
    rw [hsqlite, hpostgres]
    exact hrows
  · change SameAnswer (.bool (s.sqlite.complete _ _ _).2)
      (.bool (PostgresQueue.complete s.postgres _ _ _ _).2)
    rw [hsqlite, hpostgres, Prod.map_snd, Prod.map_snd, hanswer]
    exact .bool _

theorem Storable.take {t : Text} (h : Storable t) (n : ℕ) : Storable (t.take n) :=
  ⟨fun c hc => h.1 c (List.mem_of_mem_take hc), fun hc => h.2 (List.mem_of_mem_take hc)⟩

theorem simulated_fail (h : InOrder s) {path w error : Text} {other : LockToken}
    {attempts delay : ℤ} {now : T}
    (hvalid : Valid Storable s (.fail path w other error attempts delay now)) :
    Simulated s (.fail path w other error attempts delay now) := by
  obtain ⟨hpath, hblank, -, hstorable, hattempts, hdelay⟩ := hvalid
  obtain ⟨n, r, p, hr, hp, rfl, hid, hid'⟩ := h.row_of_path hpath
  obtain ⟨hl, hfind, hfind'⟩ := inStep_find? h hr hp
  have hstored := hstorable.take 2000
  have hargs : ¬ (blank w ∨ attempts < 1 ∨ delay < 0) := by simp [hblank, hattempts, hdelay]
  have hargs' : ¬ (attempts < 1 ∨ delay < 0) := fun h => hargs (.inr h)
  by_cases hleased : Queue.leasedTo w now r = true
  · have hsqlite : s.sqlite.fail r.jobId w error attempts delay now =
        (s.sqlite.set r.jobId (Queue.failed (attempts ≤ r.attempts)
          (Clock.after now (if attempts ≤ r.attempts then 0 else delay)) (error.take 2000))
          (Queue.jobId_failed _ _ _), .ok (if attempts ≤ r.attempts then .dead else .pending)) := by
      rw [Queue.fail, if_neg hargs, hfind]
      simp [hleased, hstored.1]
    have hpostgres : PostgresQueue.fail s.postgres p.jobId w (s.token r.payloadPath w other) error
        attempts delay now = (s.postgres.set p.jobId (PostgresQueue.failed (attempts ≤ r.attempts)
          (Clock.after now (if attempts ≤ r.attempts then 0 else delay)) (error.take 2000))
          (fun _ => rfl), .ok (if attempts ≤ r.attempts then .dead else .pending)) := by
      rw [PostgresQueue.fail, if_neg hargs', hfind']
      simp [hl.leasedTo_eq, hleased, bindText_storable hstored, hl.attempts]
    constructor
    · change InStep _ (s.sqlite.fail (s.sqliteId _) _ _ _ _ _).1.jobs.rows
        (PostgresQueue.fail s.postgres (s.postgresId _) _ _ _ _ _ _).1.table.rows
      rw [hid, hid', hsqlite, hpostgres]
      refine inStep_set h hr hp _ _ ⟨⟨hl.payloadPath, rfl, hl.attempts, rfl, rfl⟩, ?_⟩ fun _ _ => id
      intro hrunning
      simp only [Queue.failed] at hrunning
      split_ifs at hrunning
    · change SameAnswer (.failed (s.sqlite.fail (s.sqliteId _) _ _ _ _ _).2)
        (.failed (PostgresQueue.fail s.postgres (s.postgresId _) _ _ _ _ _ _).2)
      rw [hid, hid', hsqlite, hpostgres]
      exact .failed _
  · have hsqlite : s.sqlite.fail r.jobId w error attempts delay now = (s.sqlite, .ok .leaseLost) := by
      rw [Queue.fail, if_neg hargs, hfind]
      exact if_pos hleased
    have hpostgres : PostgresQueue.fail s.postgres p.jobId w (s.token r.payloadPath w other) error
        attempts delay now = (s.postgres, .ok .leaseLost) := by
      rw [PostgresQueue.fail, if_neg hargs', hfind']
      exact if_pos (by rwa [hl.leasedTo_eq])
    constructor
    · change InStep _ (s.sqlite.fail (s.sqliteId _) _ _ _ _ _).1.jobs.rows
        (PostgresQueue.fail s.postgres (s.postgresId _) _ _ _ _ _ _).1.table.rows
      rw [hid, hid', hsqlite, hpostgres]
      exact h
    · change SameAnswer (.failed (s.sqlite.fail (s.sqliteId _) _ _ _ _ _).2)
        (.failed (PostgresQueue.fail s.postgres (s.postgresId _) _ _ _ _ _ _).2)
      rw [hid, hid', hsqlite, hpostgres]
      exact .failed _

theorem simulated (h : InOrder s) {c : PairedCall T} (hvalid : Valid Storable s c) :
    Simulated s c := by
  cases c with
  | enqueue path now => exact simulated_enqueue h hvalid.1 hvalid.2 now
  | claim w lease now token => exact simulated_claim h token hvalid
  | renew => exact simulated_renew h hvalid
  | complete => exact simulated_complete h hvalid
  | fail => exact simulated_fail h hvalid

/-! ### Whole runs -/

/-- From empty tables, under any calls in any order, both queues answer alike and hold the
same jobs after every call. -/
theorem queues_agree (T : Type) [Clock T] (calls : List (PairedCall T))
    (hvalid : (pairedQueues T).Along (Valid Storable) Paired.init calls) :
    (pairedQueues T).Along Agree Paired.init calls := by
  refine Machine.Along.imp_of_invariant (I := InOrder) ?_ ?_ hvalid .nil
  · intro s c hc hs
    exact (simulated hs hc).inOrder
  · intro s c hc hs
    exact ⟨(simulated hs hc).sameAnswer, (simulated hs hc).inOrder.sameJobs⟩

section Example

def tokenOf (c : Char) (h : isLowerHex (ofChar c) = true) : LockToken where
  text := List.replicate 32 (ofChar c)
  hex := by
    intro d hd
    rw [List.eq_of_mem_replicate hd]
    exact h
  length := List.length_replicate

/-- A job is taken over from a worker, whose answers no longer count. -/
def takeover : List (PairedCall ℤ) :=
  [.enqueue (lit "inbox/ws-1.json") 0, .enqueue (lit "inbox/ws-1.json") 1,
    .claim (lit "worker-a") 300 10 (tokenOf 'a' rfl),
    .claim (lit "worker-b") 300 310 (tokenOf 'b' rfl),
    .complete (lit "inbox/ws-1.json") (lit "worker-a") (tokenOf 'c' rfl) 320,
    .renew (lit "inbox/ws-1.json") (lit "worker-b") (tokenOf 'c' rfl) 300 330,
    .fail (lit "inbox/ws-1.json") (lit "worker-b") (tokenOf 'c' rfl) (lit "timeout") 3 60 340]

theorem queues_agree_takeover : (pairedQueues ℤ).Along Agree Paired.init takeover :=
  queues_agree ℤ takeover (by decide +kernel)

/-- An error text with a NUL character fails the job on SQLite, and the call on PostgreSQL. -/
def nulError : List (PairedCall ℤ) :=
  [.enqueue (lit "inbox/ws-1.json") 0, .claim (lit "worker-a") 300 10 (tokenOf 'a' rfl),
    .fail (lit "inbox/ws-1.json") (lit "worker-a") (tokenOf 'c' rfl) [0] 3 60 20]

theorem nulError_disagrees : ¬ ∀ calls : List (PairedCall ℤ),
    (pairedQueues ℤ).Along (Valid fun _ => True) Paired.init calls →
      (pairedQueues ℤ).Along Agree Paired.init calls := by
  intro h
  obtain ⟨-, -, ⟨hsame, -⟩, -⟩ := h nulError (by decide +kernel)
  generalize ha : (pairedQueues ℤ).answer _ _ = a at hsame
  have hsqlite : a.1 = .failed (.ok .pending) := by rw [← ha]; rfl
  have hpostgres : a.2 = .failed (.error .dataError) := by rw [← ha]; rfl
  rw [hsqlite, hpostgres] at hsame
  cases hsame

end Example

end SentinelGRC.Jobs
