import Mathlib.Data.Int.Basic
import Mathlib.Logic.Nontrivial.Basic
import SentinelGRC.Pipeline.ClaimedJob

/-!
Evidence is processed as it was accepted. What `run_pipeline` gets was read through one
descriptor, and hashes to the committed record of the name it was read under. That name is the
one of the job unless the inbox has a link in its place: then the worker goes by the record of
the name that the link leads to.
-/

namespace SentinelGRC.Pipeline

open Python Json Store Jobs Contracts

variable {T F R : Type} {jobId : ℕ}

/-! ### What was read -/

/-- The content of the regular file under a name, read through one descriptor that was opened on
the file itself. -/
def ReadOnce (s : Surroundings T jobId) (name : Text) (payload : Bytes) : Prop :=
  ∃ id, s.lstat.inbox.entries name = some (.file id) ∧ s.opening.inbox.entries name = some (.file id) ∧
    payload = s.reading.inbox.contents id

theorem attempt_eq_ok {α : Type} {m : Moment T jobId} {result : Option α} {a : α} :
    m.attempt result = .ok a ↔ m.fault = none ∧ result = some a := by
  unfold Moment.attempt
  cases m.fault with
  | some message => exact iff_of_false nofun nofun
  | none =>
    cases result with
    | none => exact iff_of_false nofun nofun
    | some b => simp

theorem readOnce_of_readEvidenceBytes {s : Surroundings T jobId} {name : Text} {payload : Bytes}
    (h : readEvidenceBytes s name = .ok (some payload)) : ReadOnce s name payload := by
  unfold readEvidenceBytes at h
  obtain ⟨entry, -, h⟩ := bind_eq_ok.mp h
  cases hbefore : s.lstat.inbox.regular? name with
  | none =>
    rw [hbefore] at h
    cases h
  | some before =>
    rw [hbefore] at h
    obtain ⟨descriptor, hopen, h⟩ := bind_eq_ok.mp h
    obtain ⟨opened, hfstat, h⟩ := bind_eq_ok.mp h
    obtain rfl := Option.some.inj (attempt_eq_ok.mp hfstat).2
    split_ifs at h with hregular hsame
    · cases h
    · cases h
    · obtain ⟨bytes, hread, h⟩ := bind_eq_ok.mp h
      obtain rfl := Option.some.inj (Except.ok.inj h)
      obtain rfl := Option.some.inj (attempt_eq_ok.mp hread).2
      rw [not_not] at hsame
      rw [Bool.not_eq_false] at hregular
      have hdescriptor : s.opening.inbox.open? name = some ⟨before, true⟩ := by
        rw [(attempt_eq_ok.mp hopen).2, hsame, ← hregular]
      exact ⟨before, Directory.regular?_eq_some.mp hbefore,
        Directory.open?_eq_some_regular.mp hdescriptor, by rw [hsame]⟩

/-- Calls that do not fail, on a file that stays in its place, read what it holds. -/
theorem readEvidenceBytes_of_file {s : Surroundings T jobId} {name : Text} {id : FileId}
    (hlstat : s.lstat.fault = none) (hopening : s.opening.fault = none)
    (hfstat : s.fstat.fault = none) (hreading : s.reading.fault = none)
    (hbefore : s.lstat.inbox.entries name = some (.file id))
    (hopened : s.opening.inbox.entries name = some (.file id)) :
    readEvidenceBytes s name = .ok (some (s.reading.inbox.contents id)) := by
  have hdescriptor := attempt_eq_ok.mpr ⟨hopening, Directory.open?_eq_some_regular.mpr hopened⟩
  refine bind_eq_ok.mpr ⟨.file id, attempt_eq_ok.mpr ⟨hlstat, hbefore⟩, ?_⟩
  rw [Directory.regular?_eq_some.mpr hbefore]
  refine bind_eq_ok.mpr ⟨⟨id, true⟩, hdescriptor, ?_⟩
  refine bind_eq_ok.mpr ⟨⟨id, true⟩, attempt_eq_ok.mpr ⟨hfstat, rfl⟩, ?_⟩
  rw [if_neg (by simp), if_neg (by simp)]
  exact bind_eq_ok.mpr ⟨_, attempt_eq_ok.mpr ⟨hreading, rfl⟩, rfl⟩

theorem readVerifiedEvidence_eq_some {s : Surroundings T jobId} {name expectedHash : Text}
    {payload : Bytes} (h : readVerifiedEvidence s name expectedHash = .ok (some payload)) :
    ReadOnce s name payload ∧ sha256.hexdigest payload = expectedHash := by
  unfold readVerifiedEvidence at h
  obtain ⟨read, hread, h⟩ := bind_eq_ok.mp h
  cases read with
  | none => cases h
  | some bytes =>
    simp only at h
    split_ifs at h with hhash
    · cases h
    · obtain rfl := Option.some.inj (Except.ok.inj h)
      exact ⟨readOnce_of_readEvidenceBytes hread, not_not.mp hhash⟩

theorem findPayloadByEvidenceId_eq_ok {m : Moment T jobId} {evidenceId : Text}
    {record : Option (AcceptedPayload T)} : findPayloadByEvidenceId m evidenceId = .ok record ↔
      m.fault = none ∧ m.payload? evidenceId = record := by
  unfold findPayloadByEvidenceId
  cases m.fault with
  | some message => exact iff_of_false nofun nofun
  | none => simp

/-- Bytes are handed on only if the record found at the lookup, if any, is theirs. -/
theorem readClaimedPayload_eq_ok {s : Surroundings T jobId} {item : Text} {payload : Bytes}
    (h : readClaimedPayload s item = .ok payload) : ReadOnce s item payload ∧
      ∀ r, s.lookup.payload? (stem item) = some r →
        r.status = .committed ∧ sha256.hexdigest payload = r.payloadHash := by
  unfold readClaimedPayload at h
  obtain ⟨record, hrecord, h⟩ := bind_eq_ok.mp h
  obtain ⟨-, hfound⟩ := findPayloadByEvidenceId_eq_ok.mp hrecord
  rw [hfound]
  cases record with
  | none =>
    obtain ⟨read, hread, h⟩ := bind_eq_ok.mp h
    cases read with
    | none => cases h
    | some bytes =>
      obtain rfl := Except.ok.inj h
      exact ⟨readOnce_of_readEvidenceBytes hread, nofun⟩
  | some r =>
    simp only at h
    split_ifs at h with hstatus
    · cases h
    · obtain ⟨read, hread, h⟩ := bind_eq_ok.mp h
      cases read with
      | none => cases h
      | some bytes =>
        obtain rfl := Except.ok.inj h
        obtain ⟨honce, hhash⟩ := readVerifiedEvidence_eq_some hread
        refine ⟨honce, fun r' hr' => ?_⟩
        obtain rfl := Option.some.inj hr'
        exact ⟨not_not.mp hstatus, hhash⟩

/-- A record that is pending, or that the file does not match, is an error to dead-letter. -/
theorem readClaimedPayload_refused {s : Surroundings T jobId} {item : Text} {r : AcceptedPayload T}
    (hfault : s.lookup.fault = none) (hfound : s.lookup.payload? (stem item) = some r)
    (hrefused : r.status ≠ .committed ∨ readVerifiedEvidence s item r.payloadHash = .ok none) :
    ∃ message, readClaimedPayload s item = .error (.valueError message) ∧ Scalar message := by
  unfold readClaimedPayload
  rw [findPayloadByEvidenceId_eq_ok.mpr ⟨hfault, hfound⟩]
  by_cases hstatus : r.status ≠ .committed
  · refine ⟨_, if_pos hstatus, scalar_lit _⟩
  · have hread := hrefused.resolve_left hstatus
    refine ⟨lit "managed inbox payload failed committed hash verification", ?_, scalar_lit _⟩
    change (if r.status ≠ .committed then _ else _) = _
    rw [if_neg hstatus, hread]
    rfl

/-! ### Moments of a run -/

section Moments

variable [Clock T]

/-- Only claimed jobs are running. -/
theorem attempted_next {q : Queue T} (op : QueueOp T)
    (h : ∀ j r, q.find? j = some r → r.status = .running → 1 ≤ r.attempts) :
    ∀ j r, ((jobQueue T).next q op).find? j = some r → r.status = .running → 1 ≤ r.attempts := by
  have hset (k : ℕ) (f : Job T → Job T) (hf : ∀ r, (f r).jobId = r.jobId)
      (hattempts : ∀ r, q.find? k = some r → (f r).status = .running → 1 ≤ (f r).attempts) :
      ∀ j r, (q.set k f hf).find? j = some r → r.status = .running → 1 ≤ r.attempts := by
    intro j r hr hrunning
    rw [Queue.find?_set, Option.map_eq_some_iff] at hr
    obtain ⟨r, hfound, rfl⟩ := hr
    split_ifs at hrunning ⊢ with hj
    · exact hattempts r (hj ▸ hfound) hrunning
    · exact h j r hfound hrunning
  have heffect := jobQueue_effect q op
  generalize (jobQueue T).next q op = q' at heffect ⊢
  generalize (jobQueue T).answer q op = answer at heffect
  cases heffect with
  | idle => exact h
  | enqueued path now =>
    intro j r hr hrunning
    rw [Queue.find?_insert] at hr
    split_ifs at hr
    · obtain rfl := Option.some.inj hr
      cases hrunning
    · exact h j r hr hrunning
  | claimed w lease now r hr hc => exact hset _ _ _ fun r _ _ => Nat.le_add_left 1 r.attempts
  | renewed j w lease now r hr hl => exact hset _ _ _ fun r hr hrunning => h j r hr hrunning
  | completed j w now r hr hl => exact hset _ _ _ fun r _ hrunning => by cases hrunning
  | failed j w e attempts delay now r dead until' error hr hl =>
    refine hset _ _ _ fun r _ hrunning => ?_
    cases dead <;> cases hrunning

theorem present_run {q : Queue T} {j : ℕ} (h : (q.find? j).isSome = true) (ops : List (QueueOp T)) :
    (((jobQueue T).run q ops).find? j).isSome = true := by
  refine Transition.Machine.run_invariant (jobQueue T) (I := fun q => (q.find? j).isSome = true) ?_ h ops
  intro q op hq
  obtain ⟨r, hr⟩ := Option.isSome_iff_exists.mp hq
  obtain ⟨r', hr', -⟩ := (jobQueue_effect q op).keeps_path hr
  exact Option.isSome_of_eq_some hr'

/-- A moment after any calls of the queue by any workers, with the job enqueued among the first. -/
def Moment.ofRun (before after : List (QueueOp T))
    (henqueued : (((jobQueue T).run Queue.empty before).find? jobId).isSome = true) (inbox : Inbox)
    (payloads : List (AcceptedPayload T)) (now : T) (fault : Option Text) (lost : Bool) :
    Moment T jobId where
  inbox := inbox
  payloads := payloads
  queue := (jobQueue T).run Queue.empty (before ++ after)
  now := now
  fault := fault
  lost := lost
  present := by
    rw [Transition.Machine.run_append]
    exact present_run henqueued after
  attempted r hr hrunning := by
    refine Transition.Machine.run_invariant (jobQueue T) (I := fun q => ∀ j r, q.find? j = some r →
      r.status = .running → 1 ≤ r.attempts) (fun q op hq => attempted_next op hq) ?_ _ jobId r hr hrunning
    intro j r hr
    cases hr

end Moments

/-! ### The name of the job -/

/-- A name that `_validated_inbox_item` lets pass. -/
structure Acceptable (U : UnicodeTables) (name : Text) : Prop where
  suffix : U.lower (suffix name) = lit ".json"
  evidenceId : matchesEvidenceId (stem name) = true
  portable : upperAscii ((stem name).takeWhile fun c => c != ofChar '.') ∉ windowsReservedNames

/-- A link that leads to another acceptable name of the inbox, or nowhere. -/
def Redirected (U : UnicodeTables) (inbox : Inbox) (name : Text) : Prop :=
  inbox.resolve name = none ∨
    ∃ item, item ≠ name ∧ inbox.resolve name = some (.name item) ∧ Acceptable U item

theorem validateEvidenceId_cases (value : Text) {purpose : Text} (hpurpose : Scalar purpose) :
    (validateEvidenceId value purpose = .ok value ∧ matchesEvidenceId value = true ∧
      upperAscii (value.takeWhile fun c => c != ofChar '.') ∉ windowsReservedNames) ∨
    ∃ message, validateEvidenceId value purpose = .error (.valueError message) ∧ Scalar message := by
  unfold validateEvidenceId
  split_ifs with hmatches hreserved
  · exact .inr ⟨_, rfl, scalar_append.mpr ⟨hpurpose, scalar_lit _⟩⟩
  · exact .inr ⟨_, rfl, scalar_append.mpr ⟨hpurpose, scalar_lit _⟩⟩
  · exact .inl ⟨rfl, by simpa using hmatches, hreserved⟩

theorem resolveUnderRoot_eq {U : UnicodeTables} {j : InboxJob T} {m : Moment T jobId} :
    resolveUnderRoot U j.inbox j.name m = match m.inbox.resolve j.name with
      | none => .error (.other (lit "Symlink loop from " ++ U.repr (j.inbox ++ lit "/" ++ j.name)))
      | some .outside => .error (.valueError (lit "inbox payload path must remain under " ++ j.inbox))
      | some target => .ok target := by
  have hplain : ¬ (j.name.any fun c => c.val == 0) = true := by
    rw [List.any_eq_true]
    rintro ⟨c, hc, hzero⟩
    exact (j.plain c hc).1 (by simpa using hzero)
  unfold resolveUnderRoot
  exact if_neg hplain

theorem InboxJob.scalar_inbox (j : InboxJob T) : Scalar j.inbox := by
  have hbound := j.bound
  rw [j.payloadPath, List.append_assoc] at hbound
  exact (scalar_append.mp hbound).1

theorem validatedInboxItem_of_resolve {U : UnicodeTables} {j : InboxJob T} {m : Moment T jobId}
    {item : Text} (h : m.inbox.resolve j.name = some (.name item)) :
    validatedInboxItem U j.inbox j.name m =
      if U.lower (suffix item) ≠ lit ".json" then
        .error (.valueError (lit "inbox payload must be a top-level JSON file"))
      else (validateEvidenceId (stem item) (lit "inbox evidence ID")).map fun _ => item := by
  unfold validatedInboxItem
  rw [resolveUnderRoot_eq, h]
  change (if U.lower (suffix item) ≠ lit ".json" then _ else _) = _
  split_ifs
  · rfl
  · cases validateEvidenceId (stem item) (lit "inbox evidence ID") <;> rfl

theorem validatedInboxItem_loop {U : UnicodeTables} {j : InboxJob T} {m : Moment T jobId}
    (h : m.inbox.resolve j.name = none) :
    ∃ message, validatedInboxItem U j.inbox j.name m = .error (.other message) := by
  unfold validatedInboxItem
  rw [resolveUnderRoot_eq, h]
  exact ⟨_, rfl⟩

theorem validatedInboxItem_of_acceptable {U : UnicodeTables} {j : InboxJob T} {m : Moment T jobId}
    {item : Text} (h : m.inbox.resolve j.name = some (.name item)) (hacceptable : Acceptable U item) :
    validatedInboxItem U j.inbox j.name m = .ok item := by
  have hvalidate : validateEvidenceId (stem item) (lit "inbox evidence ID") = .ok (stem item) := by
    unfold validateEvidenceId
    rw [if_neg (by simp [hacceptable.evidenceId]), if_neg hacceptable.portable]
  rw [validatedInboxItem_of_resolve h, if_neg (not_not.mpr hacceptable.suffix), hvalidate]
  rfl

/-- What the validation comes to: the end of the path, an error to dead-letter, or a loop. -/
theorem validatedInboxItem_cases (U : UnicodeTables) (j : InboxJob T) (m : Moment T jobId) :
    (∃ item, validatedInboxItem U j.inbox j.name m = .ok item ∧
      m.inbox.resolve j.name = some (.name item) ∧ Acceptable U item) ∨
    (∃ message, validatedInboxItem U j.inbox j.name m = .error (.valueError message) ∧
      Scalar message) ∨
    ∃ message, validatedInboxItem U j.inbox j.name m = .error (.other message) ∧
      m.inbox.resolve j.name = none := by
  cases hresolve : m.inbox.resolve j.name with
  | none =>
    obtain ⟨message, hloop⟩ := validatedInboxItem_loop (U := U) hresolve
    exact .inr (.inr ⟨message, hloop, rfl⟩)
  | some target =>
    cases target with
    | outside =>
      unfold validatedInboxItem
      rw [resolveUnderRoot_eq, hresolve]
      exact .inr (.inl ⟨_, rfl, scalar_append.mpr ⟨scalar_lit _, j.scalar_inbox⟩⟩)
    | below =>
      unfold validatedInboxItem
      rw [resolveUnderRoot_eq, hresolve]
      exact .inr (.inl ⟨_, rfl, scalar_lit _⟩)
    | name item =>
      rw [validatedInboxItem_of_resolve hresolve]
      split_ifs with hsuffix
      · exact .inr (.inl ⟨_, rfl, scalar_lit _⟩)
      · have hvalidate := validateEvidenceId_cases (stem item) (scalar_lit "inbox evidence ID")
        rcases hvalidate with ⟨hok, hmatches, hportable⟩ | ⟨message, herror, hscalar⟩
        · rw [hok]
          exact .inl ⟨item, rfl, rfl, not_not.mp hsuffix, hmatches, hportable⟩
        · rw [herror]
          exact .inr (.inl ⟨message, rfl, hscalar⟩)

/-! ### Dead letters -/

/-- The job is dead, or reported as lost to another worker. -/
def Outcome.DeadOrLost (o : Outcome F T R) (jobId : ℕ) : Prop :=
  (∃ file, o.report = .ok (.leaseLost file)) ∨
  (∃ file message, o.report = .ok (.error file .leaseLost message)) ∨
  ∃ file message r, o.report = .ok (.error file .dead message) ∧
    o.queue.find? jobId = some r ∧ r.status = .dead

variable [Clock T]

theorem leasedTo_running {w : Text} {now : T} {r : Job T} (h : Queue.leasedTo w now r = true) :
    r.status = .running := by
  unfold Queue.leasedTo at h
  split at h
  · assumption
  · cases h

/-- With one attempt to make, a job that is failed is dead or was lost. -/
theorem fail_once {m : Moment T jobId} {p : Settings} (describe : PyError → Text) {message : Text}
    (hfault : m.fault = none) (hscalar : Scalar message) :
    (∃ queue, m.fail describe p.workerId message 1 0 = (queue, .ok .leaseLost)) ∨
    ∃ queue r, m.fail describe p.workerId message 1 0 = (queue, .ok .dead) ∧
      queue.find? jobId = some r ∧ r.status = .dead := by
  obtain ⟨r, hr⟩ := Option.isSome_iff_exists.mp m.present
  have hvalid : ¬ (blank p.workerId = true ∨ (1 : ℤ) < 1 ∨ (0 : ℤ) < 0) := by
    rw [p.named]
    simp
  have htaken : Scalar (message.take 2000) := fun c hc => hscalar c (List.mem_of_mem_take hc)
  unfold Moment.fail Moment.query
  rw [hfault]
  unfold Queue.fail
  rw [if_neg hvalid, hr]
  by_cases hl : Queue.leasedTo p.workerId m.now r = true
  · have hattempts : ((1 : ℤ) ≤ (r.attempts : ℤ)) := by
      exact_mod_cast m.attempted r hr (leasedTo_running hl)
    simp only [hl, not_true_eq_false, if_false, htaken, hattempts, decide_true, if_true]
    refine .inr ⟨_, Queue.failed true (Clock.after m.now 0) (message.take 2000) r, rfl, ?_, rfl⟩
    rw [Queue.find?_set, hr, Option.map_some, if_pos rfl]
  · simp only [hl]
    exact .inl ⟨_, rfl⟩

theorem rejectEvidence_once {lib : Library F R} {p : Settings} {file : Text} {s : Surroundings T jobId}
    {message : Text} (hfault : s.failing.fault = none) (hscalar : Scalar message) :
    (rejectEvidence lib p file s message 1 0).calls = [] ∧
      (rejectEvidence lib p file s message 1 0).DeadOrLost jobId := by
  unfold rejectEvidence
  rcases fail_once (p := p) lib.describe hfault hscalar with
    ⟨queue, hfail⟩ | ⟨queue, r, hfail, hr, hdead⟩
  · rw [hfail]
    exact ⟨rfl, .inr (.inl ⟨file, message, rfl⟩)⟩
  · rw [hfail]
    exact ⟨rfl, .inr (.inr ⟨file, message, r, rfl, hr, hdead⟩)⟩

theorem calls_handleException (lib : Library F R) (p : Settings) (file : Text)
    (s : Surroundings T jobId) (calls : List (Json F × Text)) (message : Text) :
    (handleException lib p file s calls message).calls = calls := by
  unfold handleException
  split <;> rfl

theorem calls_rejectEvidence (lib : Library F R) (p : Settings) (file : Text)
    (s : Surroundings T jobId) (message : Text) (maxAttempts retryDelay : ℤ) :
    (rejectEvidence lib p file s message maxAttempts retryDelay).calls = [] := by
  unfold rejectEvidence
  split
  · rfl
  · exact calls_handleException ..

/-! ### Runs of the pipeline -/

variable [PyFloat F]

/-- The pipeline is run once, on what the bytes parse to, or not at all. -/
theorem calls_runClaimedJob (lib : Library F R) (p : Settings) (inbox file : Text)
    (s : Surroundings T jobId) (item : Text) (payload : Bytes) :
    (runClaimedJob lib p inbox file s item payload).calls =
      match (decodeUtf8 payload >>= loads : Except PyError (Json F)) with
      | .error _ => []
      | .ok posture => [(posture, stem item)] := by
  unfold runClaimedJob
  cases (decodeUtf8 payload >>= loads : Except PyError (Json F)) with
  | error e => exact calls_handleException lib p file s [] _
  | ok posture =>
    simp only
    split
    · exact calls_handleException lib p file s _ _
    · split_ifs
      · rfl
      · split
        · rfl
        · rfl
        · exact calls_handleException lib p file s _ _

theorem renew_eq (q : Queue T) (p : Settings) (j : ℕ) (now : T) :
    ∃ queue renewed, q.renew j p.workerId p.leaseSeconds now = (queue, .ok renewed) := by
  have hvalid : ¬ (blank p.workerId = true ∨ p.leaseSeconds ≤ 0) := by
    rw [p.named]
    simpa using p.leased
  unfold Queue.renew
  rw [if_neg hvalid, if_neg (not_not.mpr p.scalar)]
  exact ⟨_, _, rfl⟩

/-- Without its lease a job is reported as lost before anything is read. -/
theorem processClaimedJob_cases (lib : Library F R) (p : Settings) (j : InboxJob T)
    (s : Surroundings T j.job.jobId) :
    (∃ queue, processClaimedJob lib p j s = ⟨[], queue, .ok (.leaseLost j.job.payloadPath)⟩) ∨
      processClaimedJob lib p j s = processRenewedJob lib p j s := by
  unfold processClaimedJob
  obtain ⟨queue, renewed, hrenew⟩ := renew_eq s.renewal.queue p j.job.jobId s.renewal.now
  rw [hrenew]
  cases s.renewal.fault with
  | some message => exact .inl ⟨_, rfl⟩
  | none =>
    cases renewed with
    | false => exact .inl ⟨_, rfl⟩
    | true => exact .inr rfl

/-! ### Evidence as accepted -/

/-- What is claimed of one claimed job: the pipeline gets what the file of the job held when it
was read, and nothing at all if the record of the file is pending or of other bytes. -/
structure AsAccepted (lib : Library F R) (p : Settings) (j : InboxJob T)
    (s : Surroundings T j.job.jobId) : Prop where
  once : (processClaimedJob lib p j s).calls.length ≤ 1
  exact : ∀ call ∈ (processClaimedJob lib p j s).calls, ∃ payload, ReadOnce s j.name payload ∧
    (decodeUtf8 payload >>= loads) = .ok call.1 ∧
    ∀ r, s.lookup.payload? (stem j.name) = some r →
      r.status = .committed ∧ sha256.hexdigest payload = r.payloadHash
  refused : s.lookup.fault = none → ∀ r, s.lookup.payload? (stem j.name) = some r →
    r.status ≠ .committed ∨ readVerifiedEvidence s j.name r.payloadHash = .ok none →
    (processClaimedJob lib p j s).calls = [] ∧
      (processClaimedJob lib p j s).DeadOrLost j.job.jobId

omit [Clock T] in
/-- A name that is its own end, or whose path is refused. -/
theorem loadEvidence_cases {U : UnicodeTables} {j : InboxJob T} {s : Surroundings T jobId}
    (hredirected : ¬ Redirected U s.validation.inbox j.name) :
    (loadEvidence U j.inbox j.name s = (readClaimedPayload s j.name).map fun b => (j.name, b)) ∨
      ∃ message, loadEvidence U j.inbox j.name s = .error (.valueError message) ∧ Scalar message := by
  unfold loadEvidence
  rcases validatedInboxItem_cases U j s.validation with
    ⟨item, hitem, hresolve, hacceptable⟩ | ⟨message, herror, hscalar⟩ | ⟨message, -, hloop⟩
  · have hname : item = j.name := by
      by_contra hne
      exact hredirected (.inr ⟨item, hne, hresolve, hacceptable⟩)
    rw [hitem, hname]
    exact .inl rfl
  · rw [herror]
    exact .inr ⟨message, rfl, hscalar⟩
  · exact absurd (.inl hloop) hredirected

theorem calls_processRenewedJob_of_error {lib : Library F R} {p : Settings} {j : InboxJob T}
    {s : Surroundings T j.job.jobId} {e : Raised}
    (h : loadEvidence lib.unicode j.inbox j.name s = .error e) :
    (processRenewedJob lib p j s).calls = [] := by
  unfold processRenewedJob
  rw [h]
  cases e with
  | osError message => exact calls_rejectEvidence ..
  | valueError message => exact calls_rejectEvidence ..
  | other message => exact calls_handleException ..

theorem mem_calls_processRenewedJob {lib : Library F R} {p : Settings} {j : InboxJob T}
    {s : Surroundings T j.job.jobId} {call : Json F × Text}
    (h : call ∈ (processRenewedJob lib p j s).calls) : ∃ item payload,
      loadEvidence lib.unicode j.inbox j.name s = .ok (item, payload) ∧
      (decodeUtf8 payload >>= loads) = .ok call.1 ∧
      (processRenewedJob lib p j s).calls = [call] := by
  cases hload : loadEvidence lib.unicode j.inbox j.name s with
  | error e =>
    rw [calls_processRenewedJob_of_error hload] at h
    cases h
  | ok loaded =>
    obtain ⟨item, payload⟩ := loaded
    unfold processRenewedJob at h ⊢
    rw [hload] at h ⊢
    simp only at h ⊢
    split_ifs at h ⊢ with hlost
    · cases h
    · rw [calls_runClaimedJob] at h ⊢
      cases hparse : (decodeUtf8 payload >>= loads : Except PyError (Json F)) with
      | error e =>
        rw [hparse] at h
        cases h
      | ok posture =>
        rw [hparse] at h
        obtain rfl := List.mem_singleton.mp h
        exact ⟨item, payload, rfl, hparse, rfl⟩

/-- The worker keeps to the record and the bytes of the file unless a link stands in its place, or
the database fails while the job is failed. -/
theorem asAccepted_of_not_redirected {lib : Library F R} {p : Settings} {j : InboxJob T}
    {s : Surroundings T j.job.jobId} (hfault : s.failing.fault = none)
    (hredirected : ¬ Redirected lib.unicode s.validation.inbox j.name) : AsAccepted lib p j s := by
  have hload := loadEvidence_cases hredirected
  have hmem {call : Json F × Text} (h : call ∈ (processClaimedJob lib p j s).calls) :
      processClaimedJob lib p j s = processRenewedJob lib p j s ∧
        call ∈ (processRenewedJob lib p j s).calls := by
    rcases processClaimedJob_cases lib p j s with ⟨queue, hlost⟩ | hrenewed
    · rw [hlost] at h
      cases h
    · exact ⟨hrenewed, hrenewed ▸ h⟩
  refine ⟨?_, ?_, ?_⟩
  · cases hcalls : (processClaimedJob lib p j s).calls with
    | nil => exact Nat.zero_le 1
    | cons call rest =>
      obtain ⟨hrenewed, hcall⟩ := hmem (hcalls ▸ List.mem_cons_self : call ∈ _)
      obtain ⟨-, -, -, -, hone⟩ := mem_calls_processRenewedJob hcall
      rw [← hcalls, hrenewed, hone]
      exact le_rfl
  · intro call hcall
    obtain ⟨-, hcall⟩ := hmem hcall
    obtain ⟨item, payload, hloaded, hparse, -⟩ := mem_calls_processRenewedJob hcall
    rcases hload with hread | ⟨message, herror, -⟩
    · rw [hread] at hloaded
      cases hpayload : readClaimedPayload s j.name with
      | error e =>
        rw [hpayload] at hloaded
        cases hloaded
      | ok bytes =>
        rw [hpayload] at hloaded
        obtain ⟨rfl, rfl⟩ := Prod.mk.inj (Except.ok.inj hloaded)
        obtain ⟨honce, hrecord⟩ := readClaimedPayload_eq_ok hpayload
        exact ⟨_, honce, hparse, hrecord⟩
    · rw [herror] at hloaded
      cases hloaded
  · intro hlookup r hfound hrefused
    rcases processClaimedJob_cases lib p j s with ⟨queue, hlost⟩ | hrenewed
    · rw [hlost]
      exact ⟨rfl, .inl ⟨_, rfl⟩⟩
    · rw [hrenewed]
      obtain ⟨message, herror, hscalar⟩ : ∃ message,
          loadEvidence lib.unicode j.inbox j.name s = .error (.valueError message) ∧
            Scalar message := by
        rcases hload with hread | herror
        · obtain ⟨message, herror, hscalar⟩ := readClaimedPayload_refused hlookup hfound hrefused
          rw [hread, herror]
          exact ⟨message, rfl, hscalar⟩
        · exact herror
      unfold processRenewedJob
      rw [herror]
      exact rejectEvidence_once hfault hscalar

/-! ### Links and failing databases -/

section Disturbed

omit [PyFloat F]

/-- A queue of one row. -/
def soleQueue (r : Job T) : Queue T := ⟨⟨[r], by simp⟩, r.jobId, by simp, by simp⟩

/-- A job that a worker holds. -/
def held (p : Settings) (job : Job T) (lockedUntil : T) : Job T :=
  { job with status := .running, attempts := 1, lockedUntil := some lockedUntil,
             workerId := some p.workerId }

omit [Clock T] in
theorem find?_soleQueue (r : Job T) : (soleQueue r).find? r.jobId = some r := by
  rw [Queue.find?, Table.find?_eq_some]
  exact ⟨List.mem_singleton_self r, rfl⟩

/-- A moment at which the job is held, with what the call finds in the inbox and among the
publication records, and how it fails. -/
def heldMoment (p : Settings) (job : Job T) (now lockedUntil : T) (inbox : Inbox)
    (payloads : List (AcceptedPayload T)) (fault : Option Text) : Moment T job.jobId where
  inbox := inbox
  payloads := payloads
  queue := soleQueue (held p job lockedUntil)
  now := now
  fault := fault
  lost := false
  present := by
    have hrow := find?_soleQueue (held p job lockedUntil)
    exact Option.isSome_of_eq_some hrow
  attempted r hr _ := by
    have hrow := find?_soleQueue (held p job lockedUntil)
    obtain rfl := Option.some.inj (hrow.symm.trans hr)
    exact le_rfl

/-- A worker that finds one inbox when it resolves the path and another one from then on, with
a database that fails in the handlers. -/
def disturbed (p : Settings) (job : Job T) (now lockedUntil : T) (payloads : List (AcceptedPayload T))
    (resolved inbox : Inbox) (fault : Option Text) : Surroundings T job.jobId where
  renewal := heldMoment p job now lockedUntil inbox payloads none
  validation := heldMoment p job now lockedUntil resolved payloads none
  lookup := heldMoment p job now lockedUntil inbox payloads none
  lstat := heldMoment p job now lockedUntil inbox payloads none
  opening := heldMoment p job now lockedUntil inbox payloads none
  fstat := heldMoment p job now lockedUntil inbox payloads none
  reading := heldMoment p job now lockedUntil inbox payloads none
  supervision := heldMoment p job now lockedUntil inbox payloads none
  failing := heldMoment p job now lockedUntil inbox payloads fault
  joining := heldMoment p job now lockedUntil inbox payloads none
  completion := heldMoment p job now lockedUntil inbox payloads none
  handling := heldMoment p job now lockedUntil inbox payloads (some [])

theorem renew_held (p : Settings) (job : Job T) {now lockedUntil : T} (h : now < lockedUntil) :
    ∃ queue, (soleQueue (held p job lockedUntil)).renew job.jobId p.workerId p.leaseSeconds now =
      (queue, .ok true) := by
  have hvalid : ¬ (blank p.workerId = true ∨ p.leaseSeconds ≤ 0) := by
    rw [p.named]
    simpa using p.leased
  have hleased : Queue.leasedTo p.workerId now (held p job lockedUntil) = true := by
    simp [Queue.leasedTo, held, h]
  have hrow : (soleQueue (held p job lockedUntil)).find? job.jobId = some (held p job lockedUntil) :=
    find?_soleQueue (held p job lockedUntil)
  unfold Queue.renew Queue.update
  rw [if_neg hvalid, if_neg (not_not.mpr p.scalar), hrow]
  simp only [hleased, if_true]
  exact ⟨_, rfl⟩

omit [Clock T] in
theorem not_deadOrLost_of_error {o : Outcome F T R} {e : Raised} (h : o.report = .error e) :
    ¬ o.DeadOrLost jobId := by
  rintro (⟨file, hreport⟩ | ⟨file, message, hreport⟩ | ⟨file, message, r, hreport, -⟩)
  · rw [h] at hreport
    cases hreport
  · rw [h] at hreport
    cases hreport
  · rw [h] at hreport
    cases hreport

/-- A handler whose own statement fails lets its error escape. -/
theorem report_handleException {lib : Library F R} {p : Settings} {file : Text}
    {s : Surroundings T jobId} {failure : Text} (hfault : s.handling.fault = some failure)
    (calls : List (Json F × Text)) (message : Text) :
    (handleException lib p file s calls message).report = .error (.other failure) := by
  unfold handleException Moment.fail Moment.query
  rw [hfault]

theorem report_rejectEvidence {lib : Library F R} {p : Settings} {file : Text}
    {s : Surroundings T jobId} {failure failure' : Text} (hfailing : s.failing.fault = some failure)
    (hhandling : s.handling.fault = some failure') (message : Text) (maxAttempts retryDelay : ℤ) :
    (rejectEvidence (F := F) lib p file s message maxAttempts retryDelay).report =
      .error (.other failure') := by
  unfold rejectEvidence Moment.fail Moment.query
  rw [hfailing]
  exact report_handleException hhandling _ _

variable [PyFloat F]

theorem processClaimedJob_disturbed (lib : Library F R) (p : Settings) (j : InboxJob T)
    {now lockedUntil : T} (h : now < lockedUntil) (payloads : List (AcceptedPayload T))
    (resolved inbox : Inbox) (fault : Option Text) :
    processClaimedJob lib p j (disturbed p j.job now lockedUntil payloads resolved inbox fault) =
      processRenewedJob lib p j (disturbed p j.job now lockedUntil payloads resolved inbox fault) := by
  generalize hs : disturbed p j.job now lockedUntil payloads resolved inbox fault = s
  have hfault : s.renewal.fault = none := by
    rw [← hs]
    rfl
  obtain ⟨queue, hrenew⟩ : ∃ queue, s.renewal.queue.renew j.job.jobId p.workerId p.leaseSeconds
      s.renewal.now = (queue, .ok true) := by
    rw [← hs]
    exact renew_held p j.job h
  unfold processClaimedJob
  rw [hfault, hrenew]

/-- A database that fails in both handlers leaves the job as it was, whatever was found. -/
theorem not_asAccepted_of_fault (lib : Library F R) (p : Settings) (j : InboxJob T)
    {now lockedUntil : T} (h : now < lockedUntil) (inbox : Inbox) (failure : Text) :
    ∃ s : Surroundings T j.job.jobId, s.validation.inbox = inbox ∧ s.failing.fault = some failure ∧
      ¬ AsAccepted lib p j s := by
  -- both the name of the job and the name that it leads to have a pending record
  let records (item : Text) : List (AcceptedPayload T) :=
    [⟨[], stem j.name, now, .pending⟩, ⟨[], stem item, now, .pending⟩]
  have hrecords (item : Text) : ∃ r ∈ records item, (records item).find?
      (fun r => r.evidenceId = stem item) = some r ∧ r.status = .pending := by
    by_cases hstem : stem j.name = stem item
    · exact ⟨_, List.mem_cons_self, List.find?_cons_of_pos (by simpa using hstem), rfl⟩
    · refine ⟨_, List.mem_cons_of_mem _ List.mem_cons_self, ?_, rfl⟩
      rw [List.find?_cons_of_neg (by simpa using hstem), List.find?_cons_of_pos (by simp)]
  obtain ⟨item, hitem⟩ : ∃ item, ∀ k, inbox.resolve j.name = some (.name k) → k = item := by
    cases hresolve : inbox.resolve j.name with
    | none => exact ⟨[], nofun⟩
    | some target =>
      cases target with
      | name k => exact ⟨k, fun k' hk' => (Target.name.inj (Option.some.inj hk')).symm⟩
      | below => exact ⟨[], nofun⟩
      | outside => exact ⟨[], nofun⟩
  refine ⟨disturbed p j.job now lockedUntil (records item) inbox inbox (some failure), rfl, rfl, ?_⟩
  intro haccepted
  have hpending := haccepted.refused rfl ⟨[], stem j.name, now, .pending⟩
    (List.find?_cons_of_pos (by simp)) (.inl nofun)
  rw [processClaimedJob_disturbed lib p j h] at hpending
  have hload : ∃ e, loadEvidence lib.unicode j.inbox j.name
      (disturbed p j.job now lockedUntil (records item) inbox inbox (some failure)) = .error e := by
    unfold loadEvidence
    rcases validatedInboxItem_cases lib.unicode j (disturbed p j.job now lockedUntil (records item)
      inbox inbox (some failure)).validation with
      ⟨k, hk, hresolve, -⟩ | ⟨message, herror, -⟩ | ⟨message, herror, -⟩
    · obtain rfl := hitem k hresolve
      obtain ⟨r, -, hfound, hstatus⟩ := hrecords k
      obtain ⟨message, hread, -⟩ := readClaimedPayload_refused (s := disturbed p j.job now
        lockedUntil (records k) inbox inbox (some failure)) rfl hfound (.inl (by simp [hstatus]))
      rw [hk]
      refine ⟨.valueError message, ?_⟩
      change (readClaimedPayload _ k >>= _) = _
      rw [hread]
      rfl
    · rw [herror]
      exact ⟨_, rfl⟩
    · rw [herror]
      exact ⟨_, rfl⟩
  obtain ⟨e, hload⟩ := hload
  refine not_deadOrLost_of_error (e := .other []) ?_ hpending.2
  unfold processRenewedJob
  rw [hload]
  cases e with
  | osError message => exact report_rejectEvidence (rfl : _ = some failure) rfl _ _ _
  | valueError message => exact report_rejectEvidence (rfl : _ = some failure) rfl _ _ _
  | other message => exact report_handleException rfl _ _

/-- A link in the place of the file is followed, or raises what the worker retries. -/
theorem not_asAccepted_of_redirected (lib : Library F R) (p : Settings) (j : InboxJob T)
    {now lockedUntil : T} (h : now < lockedUntil) {inbox : Inbox}
    (hredirected : Redirected lib.unicode inbox j.name) :
    ∃ s : Surroundings T j.job.jobId, s.validation.inbox = inbox ∧ s.failing.fault = none ∧
      ¬ AsAccepted lib p j s := by
  rcases hredirected with hloop | ⟨item, hne, hresolve, hacceptable⟩
  · refine ⟨disturbed p j.job now lockedUntil [⟨[], stem j.name, now, .pending⟩] inbox inbox none,
      rfl, rfl, ?_⟩
    intro haccepted
    have hpending := haccepted.refused rfl ⟨[], stem j.name, now, .pending⟩
      (List.find?_cons_of_pos (by simp)) (.inl nofun)
    rw [processClaimedJob_disturbed lib p j h] at hpending
    refine not_deadOrLost_of_error (e := .other []) ?_ hpending.2
    obtain ⟨message, herror⟩ := validatedInboxItem_loop (U := lib.unicode) (j := j) (m := (disturbed p
      j.job now lockedUntil [⟨[], stem j.name, now, .pending⟩] inbox inbox none).validation) hloop
    unfold processRenewedJob loadEvidence
    rw [herror]
    exact report_handleException rfl _ _
  · -- nothing stands under the name of the job once its link has been followed
    let files : Inbox := ⟨fun name => if name = item then some (.file (0, 0)) else none,
      fun _ => [0x7B, 0x7D]⟩
    refine ⟨disturbed p j.job now lockedUntil [] inbox files none, rfl, rfl, ?_⟩
    generalize hs : disturbed p j.job now lockedUntil [] inbox files none = s
    intro haccepted
    have hitem : validatedInboxItem lib.unicode j.inbox j.name s.validation = .ok item := by
      rw [← hs]
      exact validatedInboxItem_of_acceptable hresolve hacceptable
    have hread : readClaimedPayload s item = .ok [0x7B, 0x7D] := by
      have hfile : files.entries item = some (.file (0, 0)) := if_pos rfl
      rw [← hs]
      refine bind_eq_ok.mpr ⟨none, findPayloadByEvidenceId_eq_ok.mpr ⟨rfl, rfl⟩, ?_⟩
      refine bind_eq_ok.mpr ⟨_, readEvidenceBytes_of_file rfl rfl rfl rfl hfile hfile, rfl⟩
    have hcalls : (processClaimedJob lib p j s).calls = [(.obj [], stem item)] := by
      have hload : loadEvidence lib.unicode j.inbox j.name s = .ok (item, [0x7B, 0x7D]) := by
        unfold loadEvidence
        rw [hitem]
        change (readClaimedPayload s item >>= _) = _
        rw [hread]
        rfl
      have hlost : s.supervision.lost = false := by
        rw [← hs]
        rfl
      rw [← hs, processClaimedJob_disturbed lib p j h, hs]
      unfold processRenewedJob
      rw [hload]
      simp only [hlost, Bool.false_eq_true, if_false]
      rw [calls_runClaimedJob]
      rfl
    obtain ⟨payload, ⟨id, hname, -⟩, -⟩ := haccepted.exact (.obj [], stem item)
      (hcalls ▸ List.mem_cons_self)
    have habsent : s.lstat.inbox.entries j.name = none := by
      rw [← hs]
      exact if_neg hne.symm
    rw [habsent] at hname
    cases hname

end Disturbed

/-- For a given inbox at the moment when the path is resolved, and a given answer of the database
to the dead-lettering: evidence is processed as accepted, for all publication records, files and
later replacements, exactly when the database answers and no link stands in place of the file
that leads to another acceptable name or nowhere. -/
theorem managed_evidence_iff [Nontrivial T] (lib : Library F R) (p : Settings) (j : InboxJob T)
    (inbox : Inbox) (fault : Option Text) :
    (∀ s : Surroundings T j.job.jobId, s.validation.inbox = inbox → s.failing.fault = fault →
      AsAccepted lib p j s) ↔ fault = none ∧ ¬ Redirected lib.unicode inbox j.name := by
  obtain ⟨now, lockedUntil, h⟩ := exists_pair_lt T
  constructor
  · intro haccepted
    have hfault : fault = none := by
      by_contra hne
      obtain ⟨failure, rfl⟩ := Option.ne_none_iff_exists'.mp hne
      obtain ⟨s, hinbox, hfailing, hnot⟩ := not_asAccepted_of_fault lib p j h inbox failure
      exact hnot (haccepted s hinbox hfailing)
    refine ⟨hfault, fun hredirected => ?_⟩
    obtain ⟨s, hinbox, hfailing, hnot⟩ := not_asAccepted_of_redirected lib p j h hredirected
    exact hnot (haccepted s hinbox (hfailing.trans hfault.symm))
  · rintro ⟨rfl, hredirected⟩ s rfl hfailing
    exact asAccepted_of_not_redirected hfailing hredirected

/-! ### A link in the inbox -/

theorem not_blank_worker : blank (lit "worker-1") = false := by decide

theorem scalar_worker : Scalar (lit "worker-1") := scalar_lit "worker-1"

theorem leased_worker : (0 : ℤ) < 60 := by decide

theorem attempts_worker : (1 : ℤ) ≤ 3 := by decide

theorem delay_worker : (0 : ℤ) ≤ 60 := by decide

def workerSettings : Settings where
  workerId := lit "worker-1"
  leaseSeconds := 60
  maxAttempts := 3
  retryDelay := 60
  named := not_blank_worker
  scalar := scalar_worker
  leased := leased_worker
  attempts := attempts_worker
  delay := delay_worker

/-- The job for `/inbox/a.json`. -/
def inboxJob : InboxJob ℤ where
  job := ⟨1, lit "/inbox/a.json", .pending, 0, 0, none, none, none⟩
  inbox := lit "/inbox"
  name := lit "a.json"
  payloadPath := rfl
  bound := scalar_lit _
  plain c hc := of_decide_eq_true (List.all_eq_true.mp (by decide :
    (lit "a.json").all (fun c => decide (c.val ≠ 0 ∧ c ≠ ofChar '/')) = true) c hc)

/-- A pipeline that accepts everything. -/
def acceptingPipeline : Library Tick Unit := ⟨asciiTables, fun _ => [], fun _ _ => .ok ()⟩

/-- `b.json` stands in the inbox with the content `[]`, and `a.json` is bound to an entry. -/
def inboxWith (entry : Entry Text FileId) : Inbox where
  entries name :=
    if name = lit "a.json" then some entry
    else if name = lit "b.json" then some (.file (0, 2)) else none
  contents _ := [0x5B, 0x5D]

/-- The committed record of `a.json`, for the content that was accepted. -/
def acceptedRecord : AcceptedPayload ℤ := ⟨sha256.hexdigest [0x7B, 0x7D], lit "a", 0, .committed⟩

/-- The worker finds a link to `b.json` in the place of `a.json`. -/
def linkedSurroundings : Surroundings ℤ inboxJob.job.jobId :=
  disturbed workerSettings inboxJob.job 0 60 [acceptedRecord]
    (inboxWith (.link (some (.name (lit "b.json"))))) (inboxWith (.link (some (.name (lit "b.json")))))
    none

/-- The pipeline is run on `b.json`, although `a.json` has a committed record of other bytes. -/
theorem linked_evidence_processed :
    (processClaimedJob acceptingPipeline workerSettings inboxJob linkedSurroundings).calls =
      [(.arr [], lit "b")] ∧
    linkedSurroundings.lookup.payload? (stem inboxJob.name) = some acceptedRecord ∧
    sha256.hexdigest [0x5B, 0x5D] ≠ acceptedRecord.payloadHash ∧
    ¬ AsAccepted acceptingPipeline workerSettings inboxJob linkedSurroundings := by
  have hcalls : (processClaimedJob acceptingPipeline workerSettings inboxJob linkedSurroundings).calls =
      [(.arr [], lit "b")] := rfl
  refine ⟨hcalls, rfl, by decide +kernel, ?_⟩
  intro haccepted
  obtain ⟨payload, ⟨id, hname, -⟩, -⟩ := haccepted.exact (.arr [], lit "b")
    (hcalls ▸ List.mem_cons_self)
  cases hname

/-- A regular file is processed as accepted whatever happens to it. -/
theorem managed_evidence_regular :
    ¬ Redirected asciiTables (inboxWith (.file (0, 1))) inboxJob.name ∧
      ∀ s : Surroundings ℤ inboxJob.job.jobId, s.validation.inbox = inboxWith (.file (0, 1)) →
        s.failing.fault = none → AsAccepted acceptingPipeline workerSettings inboxJob s := by
  have hregular : ¬ Redirected asciiTables (inboxWith (.file (0, 1))) inboxJob.name := by
    rintro (hloop | ⟨item, hne, hresolve, -⟩)
    · cases hloop
    · exact hne (Target.name.inj (Option.some.inj hresolve)).symm
  exact ⟨hregular, (managed_evidence_iff acceptingPipeline workerSettings inboxJob
    (inboxWith (.file (0, 1))) none).mpr ⟨rfl, hregular⟩⟩

end SentinelGRC.Pipeline
