import Mathlib.Data.Set.Function
import SentinelGRC.Ingestion.Publication

/-!
What holds of the publications at every moment. The payloads of the requests have different
evidence ids, so a file that is there once keeps its bytes, and a committed row has its file.
A sweep without grace that runs while no request is in flight leaves no pending row with its
file there, unless the row was reserved later than the sweep's reading of the clock.
-/

namespace SentinelGRC.Ingestion

open Python Store Transition
open Pipeline (AcceptedPayload PublicationStatus)

variable {D T : Type} [DecidableEq D] {H : Digest} {bodies : Set Bytes} {p p' : Publications D T}
  {payloadHash evidenceId : Text}

/-! ### Rows and files -/

/-- A file under the evidence id holds bytes with the hash. -/
def Published (H : Digest) (files : Inboxes D) (payloadHash evidenceId : Text) : Prop :=
  ∃ directory f, files.find? (directory, evidenceId) = some f ∧ H.hexdigest f.bytes = payloadHash

/-- The row of a payload is committed. -/
def Committed (t : AcceptedPayloads T) (payloadHash evidenceId : Text) : Prop :=
  ∃ r ∈ t.rows, r.payloadHash = payloadHash ∧ r.evidenceId = evidenceId ∧ r.status = .committed

/-- The rows and the files are those of some bodies, and a committed row has its file. -/
structure Sound (H : Digest) (bodies : Set Bytes) (p : Publications D T) : Prop where
  rows : ∀ r ∈ p.payloads.rows, ∃ b ∈ bodies,
    r.payloadHash = H.hexdigest b ∧ r.evidenceId = evidenceIdOf H b
  files : ∀ f ∈ p.inboxes.rows, f.bytes ∈ bodies ∧ f.stem = evidenceIdOf H f.bytes
  committed : ∀ r ∈ p.payloads.rows, r.status = .committed →
    Published H p.inboxes r.payloadHash r.evidenceId

/-- Rows stay and stay committed; files stay as they are. -/
structure Grows (p p' : Publications D T) : Prop where
  rows : ∀ r ∈ p.payloads.rows, ∃ q ∈ p'.payloads.rows, q.payloadHash = r.payloadHash ∧
    q.evidenceId = r.evidenceId ∧ (r.status = .committed → q.status = .committed)
  files : ∀ path f, p.inboxes.find? path = some f → p'.inboxes.find? path = some f

theorem Grows.refl (p : Publications D T) : Grows p p :=
  ⟨fun r hr => ⟨r, hr, rfl, rfl, id⟩, fun _ _ => id⟩

theorem Grows.published (h : Grows p p') (hp : Published H p.inboxes payloadHash evidenceId) :
    Published H p'.inboxes payloadHash evidenceId := by
  obtain ⟨directory, f, hf, hhash⟩ := hp
  exact ⟨directory, f, h.files _ f hf, hhash⟩

theorem Grows.committed (h : Grows p p') (hp : Committed p.payloads payloadHash evidenceId) :
    Committed p'.payloads payloadHash evidenceId := by
  obtain ⟨r, hr, rfl, rfl, hcommitted⟩ := hp
  obtain ⟨q, hq, hhash, hid, hkept⟩ := h.rows r hr
  exact ⟨q, hq, hhash, hid, hkept hcommitted⟩

omit [DecidableEq D] in
theorem committed_of_getEvidenceId {t : AcceptedPayloads T}
    (h : getEvidenceId t payloadHash = some evidenceId) : Committed t payloadHash evidenceId := by
  unfold getEvidenceId at h
  cases hfind : t.find? payloadHash with
  | none =>
    rw [hfind] at h
    cases h
  | some r =>
    rw [hfind] at h
    simp only at h
    split_ifs at h with hcommitted
    obtain ⟨hr, hkey⟩ := Table.find?_eq_some.mp hfind
    exact ⟨r, hr, hkey, Option.some.inj h, hcommitted⟩

/-! ### Beginning -/

omit [DecidableEq D] in
/-- What `begin_payload` leaves: the rows, and a pending one unless the payload has one. -/
theorem beginPayload_rows {t t' : AcceptedPayloads T} {current : T}
    (h : beginPayload t payloadHash evidenceId current = .ok t') :
    t'.rows = t.rows ∨ t'.rows = t.rows ++ [⟨payloadHash, evidenceId, current, .pending⟩] := by
  have ht : t' = (t.insert? ⟨payloadHash, evidenceId, current, .pending⟩).getD t := by
    unfold beginPayload at h
    simp only at h
    split at h
    · split_ifs at h
      exact (Except.ok.inj h).symm
    · cases h
  rw [ht]
  cases hinsert : t.insert? ⟨payloadHash, evidenceId, current, .pending⟩ with
  | none => exact .inl rfl
  | some u => exact .inr (Table.insert?_eq_some.mp hinsert).2

theorem Sound.beginPayload {b : Bytes} {t : AcceptedPayloads T} {current : T}
    (h : Sound H bodies p) (hb : b ∈ bodies)
    (hok : beginPayload p.payloads (H.hexdigest b) (evidenceIdOf H b) current = .ok t) :
    Sound H bodies { p with payloads := t } ∧ Grows p { p with payloads := t } := by
  rcases beginPayload_rows hok with hrows | hrows
  · refine ⟨⟨?_, h.files, ?_⟩, ?_, fun _ _ => id⟩
    · simp only [hrows]
      exact h.rows
    · simp only [hrows]
      exact h.committed
    · simp only [hrows]
      exact (Grows.refl p).rows
  · have hmem {r : AcceptedPayload T} : r ∈ t.rows ↔
        r ∈ p.payloads.rows ∨ r = ⟨H.hexdigest b, evidenceIdOf H b, current, .pending⟩ := by
      rw [hrows, List.mem_append, List.mem_singleton]
    refine ⟨⟨fun r hr => ?_, h.files, fun r hr hcommitted => ?_⟩, fun r hr => ?_, fun _ _ => id⟩
    · rcases hmem.mp hr with hr | rfl
      · exact h.rows r hr
      · exact ⟨b, hb, rfl, rfl⟩
    · rcases hmem.mp hr with hr | rfl
      · exact h.committed r hr hcommitted
      · cases hcommitted
    · exact ⟨r, hmem.mpr (.inl hr), rfl, rfl, id⟩

/-! ### Committing -/

omit [DecidableEq D] in
theorem mem_commitPayload {t : AcceptedPayloads T} {q : AcceptedPayload T} :
    q ∈ (commitPayload t payloadHash evidenceId).1.rows ↔
      ∃ r ∈ t.rows, q = if r.payloadHash = payloadHash then commitRow evidenceId r else r := by
  simp only [commitPayload, Table.modify, List.mem_map, eq_comm]

omit [DecidableEq D] in
/-- A row after a commit is an old one, or the one that the commit is of. -/
theorem commitPayload_cases {t : AcceptedPayloads T} {q : AcceptedPayload T}
    (h : q ∈ (commitPayload t payloadHash evidenceId).1.rows) :
    q ∈ t.rows ∨ ∃ r ∈ t.rows, r.payloadHash = payloadHash ∧ r.evidenceId = evidenceId ∧
      q = { r with status := .committed } := by
  obtain ⟨r, hr, rfl⟩ := mem_commitPayload.mp h
  unfold commitRow
  split_ifs with hhash hid
  · exact .inr ⟨r, hr, hhash, hid, rfl⟩
  · exact .inl hr
  · exact .inl hr

omit [DecidableEq D] in
/-- A row stays under a commit, and is committed when the commit is of it. -/
theorem exists_mem_commitPayload {t : AcceptedPayloads T} {r : AcceptedPayload T} (hr : r ∈ t.rows) :
    ∃ q ∈ (commitPayload t payloadHash evidenceId).1.rows, q.payloadHash = r.payloadHash ∧
      q.evidenceId = r.evidenceId ∧ (r.status = .committed → q.status = .committed) ∧
        (r.payloadHash = payloadHash → r.evidenceId = evidenceId → q.status = .committed) := by
  refine ⟨_, mem_commitPayload.mpr ⟨r, hr, rfl⟩, ?_⟩
  unfold commitRow
  split_ifs with hhash hid
  · exact ⟨rfl, rfl, fun _ => rfl, fun _ _ => rfl⟩
  · exact ⟨rfl, rfl, id, fun _ h => absurd h hid⟩
  · exact ⟨rfl, rfl, id, fun h => absurd h hhash⟩

theorem grows_commitPayload (p : Publications D T) (payloadHash evidenceId : Text) :
    Grows p { p with payloads := (commitPayload p.payloads payloadHash evidenceId).1 } := by
  refine ⟨fun r hr => ?_, fun _ _ => id⟩
  obtain ⟨q, hq, hhash, hid, hkept, -⟩ := exists_mem_commitPayload hr
  exact ⟨q, hq, hhash, hid, hkept⟩

theorem Sound.commitPayload (h : Sound H bodies p)
    (hp : Published H p.inboxes payloadHash evidenceId) :
    Sound H bodies { p with payloads := (commitPayload p.payloads payloadHash evidenceId).1 } := by
  refine ⟨fun q hq => ?_, h.files, fun q hq hcommitted => ?_⟩
  · rcases commitPayload_cases hq with hq | ⟨r, hr, -, -, rfl⟩
    · exact h.rows q hq
    · exact h.rows r hr
  · rcases commitPayload_cases hq with hq | ⟨r, -, rfl, rfl, rfl⟩
    · exact h.committed q hq hcommitted
    · exact hp

omit [DecidableEq D] in
/-- A commit that updated a row leaves it committed. -/
theorem committed_of_updated {t : AcceptedPayloads T}
    (h : (commitPayload t payloadHash evidenceId).2 = true) :
    Committed (commitPayload t payloadHash evidenceId).1 payloadHash evidenceId := by
  unfold commitPayload at h
  cases hfind : t.find? payloadHash with
  | none =>
    rw [hfind] at h
    cases h
  | some r =>
    rw [hfind] at h
    have hid : r.evidenceId = evidenceId := of_decide_eq_true h
    obtain ⟨hr, hhash⟩ := Table.find?_eq_some.mp hfind
    obtain ⟨q, hq, hqhash, hqid, -, hcommitted⟩ := exists_mem_commitPayload hr
    exact ⟨q, hq, hqhash.trans hhash, hqid.trans hid, hcommitted hhash hid⟩

/-! ### Replacing -/

/-- A file is not changed by one of another body: their evidence ids differ. -/
theorem Sound.replace {b : Bytes} (directory : D) (h : Sound H bodies p)
    (hdistinct : Set.InjOn (evidenceIdOf H) bodies) (hb : b ∈ bodies) :
    Sound H bodies { p with inboxes := p.inboxes.put ⟨directory, evidenceIdOf H b, b⟩ } ∧
      Grows p { p with inboxes := p.inboxes.put ⟨directory, evidenceIdOf H b, b⟩ } ∧
        Published H (p.inboxes.put ⟨directory, evidenceIdOf H b, b⟩) (H.hexdigest b)
          (evidenceIdOf H b) := by
  have hfiles : ∀ f ∈ (p.inboxes.put ⟨directory, evidenceIdOf H b, b⟩).rows,
      f.bytes ∈ bodies ∧ f.stem = evidenceIdOf H f.bytes := by
    intro f hf
    have hfind := Table.find?_eq_some.mpr ⟨hf, rfl⟩
    rw [Table.find?_put] at hfind
    split_ifs at hfind
    · obtain rfl := Option.some.inj hfind
      exact ⟨hb, rfl⟩
    · exact h.files f (Table.find?_eq_some.mp hfind).1
  have hgrows : Grows p { p with inboxes := p.inboxes.put ⟨directory, evidenceIdOf H b, b⟩ } := by
    refine ⟨(Grows.refl p).rows, fun path f hf => ?_⟩
    rw [Table.find?_put]
    split_ifs with hpath
    · obtain ⟨hmem, hkey⟩ := Table.find?_eq_some.mp hf
      obtain ⟨hbytes, hstem⟩ := h.files f hmem
      obtain ⟨d, stem, bytes⟩ := f
      obtain ⟨rfl, rfl⟩ := Prod.mk.inj (hpath.trans hkey.symm)
      obtain rfl := hdistinct hb hbytes hstem
      rfl
    · exact hf
  refine ⟨⟨h.rows, hfiles, fun r hr hcommitted => ?_⟩, hgrows, directory,
    ⟨directory, evidenceIdOf H b, b⟩, ?_, rfl⟩
  · exact hgrows.published (h.committed r hr hcommitted)
  · rw [Table.find?_put, if_pos rfl]

/-! ### Requests and sweeps -/

/-- What a request may rely on. -/
def Request.Ready (H : Digest) (bodies : Set Bytes) (p : Publications D T) (q : Request D) : Prop :=
  q.body ∈ bodies ∧
    match q.phase with
    | .commitPayload => Published H p.inboxes (H.hexdigest q.body) (evidenceIdOf H q.body)
    | .answer _ evidenceId => Committed p.payloads (H.hexdigest q.body) evidenceId
    | _ => True

/-- The record that a sweep has read is that of a row of its candidate. -/
def IsRecord (p : Publications D T) (r : AcceptedPayload T) (evidenceId : Text) : Prop :=
  ∃ q ∈ p.payloads.rows, q.payloadHash = r.payloadHash ∧ q.evidenceId = evidenceId

/-- What a sweep may rely on. -/
def Sweep.Ready (H : Digest) (p : Publications D T) (sweep : Sweep D T) : Prop :=
  ∀ path rest, sweep.candidates = path :: rest →
    match sweep.phase with
    | .find => True
    | .read r => IsRecord p r path.2
    | .commit r => IsRecord p r path.2 ∧ Published H p.inboxes r.payloadHash path.2

theorem Request.Ready.mono {q : Request D} (h : q.Ready H bodies p) (hgrows : Grows p p') :
    q.Ready H bodies p' := by
  obtain ⟨hbody, hphase⟩ := h
  refine ⟨hbody, ?_⟩
  split at hphase
  · exact hgrows.published hphase
  · exact hgrows.committed hphase
  · trivial

theorem IsRecord.mono {r : AcceptedPayload T} (h : IsRecord p r evidenceId) (hgrows : Grows p p') :
    IsRecord p' r evidenceId := by
  obtain ⟨q, hq, hhash, hid⟩ := h
  obtain ⟨q', hq', hhash', hid', -⟩ := hgrows.rows q hq
  exact ⟨q', hq', hhash'.trans hhash, hid'.trans hid⟩

theorem Sweep.Ready.mono {sweep : Sweep D T} (h : sweep.Ready H p) (hgrows : Grows p p') :
    sweep.Ready H p' := by
  intro path rest hcandidates
  have hphase := h path rest hcandidates
  split at hphase
  · trivial
  · exact hphase.mono hgrows
  · exact ⟨hphase.1.mono hgrows, hgrows.published hphase.2⟩

theorem Sweep.ready_of_find {sweep : Sweep D T} (h : sweep.phase = .find) : sweep.Ready H p := by
  intro path rest hcandidates
  rw [h]
  trivial

/-! ### Steps -/

/-- A request keeps the rows and files sound, and may rely on what its next phase needs. -/
theorem requestStep_sound {q : Request D} (current : T) (hdistinct : Set.InjOn (evidenceIdOf H) bodies)
    (h : Sound H bodies p) (hq : q.Ready H bodies p) :
    Sound H bodies (requestStep H p q current).1 ∧ Grows p (requestStep H p q current).1 ∧
      ∀ phase, (requestStep H p q current).2 = .inl phase →
        Request.Ready H bodies (requestStep H p q current).1 { q with phase } := by
  obtain ⟨directory, body, phase⟩ := q
  obtain ⟨hbody, hphase⟩ := hq
  cases phase with
  | getEvidenceId =>
    simp only [requestStep]
    split
    · rename_i existingId hfound
      obtain ⟨hfound, -⟩ := Option.filter_eq_some_iff.mp hfound
      refine ⟨h, Grows.refl p, fun phase hnext => ?_⟩
      obtain rfl := Sum.inl.inj hnext
      exact ⟨hbody, committed_of_getEvidenceId hfound⟩
    · refine ⟨h, Grows.refl p, fun phase hnext => ?_⟩
      obtain rfl := Sum.inl.inj hnext
      exact ⟨hbody, trivial⟩
  | beginPayload =>
    simp only [requestStep]
    split
    · rename_i t ht
      obtain ⟨hsound, hgrows⟩ := h.beginPayload hbody ht
      refine ⟨hsound, hgrows, fun phase hnext => ?_⟩
      obtain rfl := Sum.inl.inj hnext
      exact ⟨hbody, trivial⟩
    · refine ⟨h, Grows.refl p, fun phase hnext => ?_⟩
      cases hnext
  | writeTemporary =>
    refine ⟨h, Grows.refl p, fun phase hnext => ?_⟩
    obtain rfl := Sum.inl.inj hnext
    exact ⟨hbody, trivial⟩
  | replace =>
    obtain ⟨hsound, hgrows, hpublished⟩ := h.replace directory hdistinct hbody
    refine ⟨hsound, hgrows, fun phase hnext => ?_⟩
    obtain rfl := Sum.inl.inj hnext
    exact ⟨hbody, hpublished⟩
  | commitPayload =>
    refine ⟨h.commitPayload hphase, grows_commitPayload p _ _, fun phase hnext => ?_⟩
    obtain rfl := Sum.inl.inj hnext
    refine ⟨hbody, ?_⟩
    split_ifs with hupdated
    · exact committed_of_updated hupdated
    · trivial
  | confirm =>
    simp only [requestStep]
    split_ifs with hfound
    · refine ⟨h, Grows.refl p, fun phase hnext => ?_⟩
      obtain rfl := Sum.inl.inj hnext
      exact ⟨hbody, committed_of_getEvidenceId hfound⟩
    · refine ⟨h, Grows.refl p, fun phase hnext => ?_⟩
      cases hnext
  | answer status evidenceId =>
    refine ⟨h, Grows.refl p, fun phase hnext => ?_⟩
    cases hnext

/-- A request is answered in its last phase only. -/
theorem requestStep_answered {q : Request D} {current : T} {status : AnswerStatus}
    (h : (requestStep H p q current).2 = .inr (.answered status evidenceId)) :
    q.phase = .answer status evidenceId := by
  unfold requestStep at h
  simp only at h
  split at h
  · split at h <;> cases h
  · split at h <;> cases h
  · cases h
  · cases h
  · cases h
  · split_ifs at h
    cases h
  · rename_i status' evidenceId' hphase
    cases h
    exact hphase

/-- The state at any moment, for requests that send some bodies. -/
structure Consistent (H : Digest) (bodies : Set Bytes) (s : PublicationState D T) : Prop where
  sound : Sound H bodies s.toPublications
  requests : ∀ q ∈ s.requests, q.Ready H bodies s.toPublications
  sweeps : ∀ sweep, some sweep ∈ s.sweeps → sweep.Ready H s.toPublications

omit [DecidableEq D] in
/-- The bodies that an action sends are among these. -/
def PublicationAction.Sends (bodies : Set Bytes) : PublicationAction D T → Prop
  | .request _ body => body ∈ bodies
  | _ => True

variable {s : PublicationState D T}

theorem consistent_empty : Consistent H bodies (PublicationState.empty : PublicationState D T) := by
  refine ⟨⟨?_, ?_, ?_⟩, ?_, ?_⟩
  · intro r hr
    cases hr
  · intro f hf
    cases hf
  · intro r hr
    cases hr
  · intro q hq
    cases hq
  · intro sweep hsweep
    cases hsweep

theorem Consistent.erase (h : Consistent H bodies s) (i : ℕ) :
    Consistent H bodies { s with requests := s.requests.eraseIdx i } :=
  ⟨h.sound, fun q hq => h.requests q (List.mem_of_mem_eraseIdx hq), h.sweeps⟩

theorem Consistent.advance (h : Consistent H bodies s) (hdistinct : Set.InjOn (evidenceIdOf H) bodies)
    {i : ℕ} {q : Request D} (hq : s.requests[i]? = some q) (current : T) :
    Consistent H bodies (s.advance H i q current).1 := by
  obtain ⟨hsound, hgrows, hnext⟩ := requestStep_sound current hdistinct h.sound
    (h.requests q (List.mem_of_getElem? hq))
  unfold PublicationState.advance
  rcases hstep : requestStep H s.toPublications q current with ⟨p', phase | reply⟩
  · rw [hstep] at hsound hgrows hnext
    refine ⟨hsound, fun r hr => ?_, fun sweep hsweep => (h.sweeps sweep hsweep).mono hgrows⟩
    rcases List.mem_or_eq_of_mem_set hr with hr | rfl
    · exact (h.requests r hr).mono hgrows
    · exact hnext phase rfl
  · rw [hstep] at hsound hgrows
    exact ⟨hsound, fun r hr => (h.requests r (List.mem_of_mem_eraseIdx hr)).mono hgrows,
      fun sweep hsweep => (h.sweeps sweep hsweep).mono hgrows⟩

theorem Sweep.ready_passOver (sweep : Sweep D T) (p : Publications D T) :
    sweep.passOver.Ready H p := by
  unfold Sweep.passOver
  split
  · exact Sweep.ready_of_find rfl
  · exact Sweep.ready_of_find rfl

theorem Consistent.startSweep (h : Consistent H bodies s) (directories : List D) (grace : ℕ)
    (current : T) : Consistent H bodies
      { s with sweeps := s.sweeps ++ [some ⟨grace, current, directories, [], .find, []⟩] } := by
  refine ⟨h.sound, h.requests, fun sweep hsweep => ?_⟩
  rcases List.mem_append.mp hsweep with hsweep | hsweep
  · exact h.sweeps sweep hsweep
  · rw [Option.some.inj (List.mem_singleton.mp hsweep)]
    exact Sweep.ready_of_find rfl

theorem Consistent.setSweep (h : Consistent H bodies s) (i : ℕ) {sweep : Option (Sweep D T)}
    (hready : ∀ other, sweep = some other → other.Ready H s.toPublications) :
    Consistent H bodies { s with sweeps := s.sweeps.set i sweep } := by
  refine ⟨h.sound, h.requests, fun other hother => ?_⟩
  rcases List.mem_or_eq_of_mem_set hother with hother | hother
  · exact h.sweeps other hother
  · exact hready other hother.symm

variable [Readings T]

omit [DecidableEq D] in
/-- A pending record is that of a row under the evidence id. -/
theorem pendingRecord_eq_some {t : AcceptedPayloads T} {grace : ℕ} {current : T}
    {r : AcceptedPayload T} (h : pendingRecord t evidenceId grace current = some r) :
    r ∈ t.rows ∧ r.evidenceId = evidenceId := by
  unfold pendingRecord at h
  split at h
  · cases h
  · split at h
    · cases h
    · rename_i record hfind
      split_ifs at h
      obtain rfl := Option.some.inj h
      unfold findPayloadByEvidenceId at hfind
      exact ⟨List.mem_of_find?_eq_some hfind, by simpa using List.find?_some hfind⟩

theorem isVerified_iff {files : Inboxes D} {path : D × Text} {expectedHash : Text} :
    isVerified H files path expectedHash = true ↔
      ∃ f, files.find? path = some f ∧ H.hexdigest f.bytes = expectedHash := by
  unfold isVerified
  cases files.find? path <;> simp

/-- A sweep keeps the rows and files sound, and may rely on what its next phase needs. -/
theorem sweepStep_sound {sweep : Sweep D T} (h : Sound H bodies p) (hsweep : sweep.Ready H p) :
    Sound H bodies (sweepStep H p sweep).1 ∧ Grows p (sweepStep H p sweep).1 ∧
      Sweep.Ready H (sweepStep H p sweep).1 (sweepStep H p sweep).2 := by
  obtain ⟨grace, current, directories, candidates, phase, reconciled⟩ := sweep
  cases candidates with
  | nil =>
    cases directories with
    | nil => exact ⟨h, Grows.refl p, hsweep⟩
    | cons directory rest => exact ⟨h, Grows.refl p, Sweep.ready_of_find rfl⟩
  | cons path rest =>
    have hphase := hsweep path rest rfl
    cases phase with
    | find =>
      simp only [sweepStep]
      split
      · rename_i record hrecord
        obtain ⟨hr, hid⟩ := pendingRecord_eq_some hrecord
        refine ⟨h, Grows.refl p, fun path' rest' hcandidates => ?_⟩
        obtain ⟨rfl, -⟩ := List.cons.inj hcandidates
        exact ⟨record, hr, rfl, hid⟩
      · exact ⟨h, Grows.refl p, Sweep.ready_of_find rfl⟩
    | read record =>
      simp only [sweepStep]
      split_ifs with hverified
      · refine ⟨h, Grows.refl p, fun path' rest' hcandidates => ?_⟩
        obtain ⟨rfl, -⟩ := List.cons.inj hcandidates
        obtain ⟨f, hf, hhash⟩ := isVerified_iff.mp hverified
        exact ⟨hphase, path.1, f, hf, hhash⟩
      · exact ⟨h, Grows.refl p, Sweep.ready_of_find rfl⟩
    | commit record =>
      exact ⟨h.commitPayload hphase.2, grows_commitPayload p _ _, Sweep.ready_of_find rfl⟩

/-- Every step keeps the state consistent. -/
theorem consistent_next (hdistinct : Set.InjOn (evidenceIdOf H) bodies) (h : Consistent H bodies s)
    {a : PublicationAction D T} (ha : a.Sends bodies) :
    Consistent H bodies ((publication D T H).next s a) := by
  simp only [Machine.next, publication]
  cases a with
  | request directory body =>
    refine ⟨h.sound, fun q hq => ?_, h.sweeps⟩
    rcases List.mem_append.mp hq with hq | hq
    · exact h.requests q hq
    · rw [List.mem_singleton.mp hq]
      exact ⟨ha, trivial⟩
  | advance i current =>
    rw [publicationStep]
    cases hq : s.requests[i]? with
    | none => exact h
    | some q => exact h.advance hdistinct hq current
  | fail i => exact h.erase i
  | crash i => exact h.erase i
  | reconcile directories grace current => exact h.startSweep directories grace current
  | sweep i =>
    rw [publicationStep]
    rcases hsweep : s.sweeps[i]? with _ | _ | sweep
    · exact h
    · exact h
    · obtain ⟨hsound, hgrows, hready⟩ :=
        sweepStep_sound h.sound (h.sweeps sweep (List.mem_of_getElem? hsweep))
      have hafter : Consistent H bodies
          { s with toPublications := (sweepStep H s.toPublications sweep).1 } :=
        ⟨hsound, fun q hq => (h.requests q hq).mono hgrows,
          fun other hother => (h.sweeps other hother).mono hgrows⟩
      refine hafter.setSweep i fun other hother => ?_
      rw [← Option.some.inj hother]
      exact hready
  | unreadable i =>
    rw [publicationStep]
    rcases hsweep : s.sweeps[i]? with _ | _ | sweep
    · exact h
    · exact h
    · refine h.setSweep i fun other hother => ?_
      rw [← Option.some.inj hother]
      exact sweep.ready_passOver s.toPublications
  | stop i =>
    refine h.setSweep i fun other hother => ?_
    cases hother

/-! ### Orphans -/

/-- A pending row whose file is in a directory, with its bytes. -/
structure Orphan (H : Digest) (p : Publications D T) (directory : D) (r : AcceptedPayload T) :
    Prop where
  row : r ∈ p.payloads.rows
  pending : r.status = .pending
  file : ∃ f, p.inboxes.find? (directory, r.evidenceId) = some f ∧ H.hexdigest f.bytes = r.payloadHash

variable {directory : D} {r : AcceptedPayload T}

omit [Readings T] in
/-- Rows under one evidence id are one row. -/
theorem Sound.row_unique (h : Sound H bodies p) (hdistinct : Set.InjOn (evidenceIdOf H) bodies)
    {q : AcceptedPayload T} (hr : r ∈ p.payloads.rows) (hq : q ∈ p.payloads.rows)
    (hid : q.evidenceId = r.evidenceId) : q = r := by
  obtain ⟨b, hb, hbhash, hbid⟩ := h.rows r hr
  obtain ⟨c, hc, hchash, hcid⟩ := h.rows q hq
  obtain rfl : c = b := hdistinct hc hb (by rw [← hcid, ← hbid, hid])
  exact List.inj_on_of_nodup_map p.payloads.distinct hq hr (hchash.trans hbhash.symm)

omit [Readings T] in
theorem Sound.isEvidenceFilename (h : Sound H bodies p) (hr : r ∈ p.payloads.rows) :
    isEvidenceFilename r.evidenceId = true := by
  obtain ⟨b, -, -, hid⟩ := h.rows r hr
  rw [hid, Ingestion.isEvidenceFilename, evidenceIdOf, Bool.and_eq_true, beq_iff_eq, List.all_eq_true]
  refine ⟨?_, fun c hc => H.isLowerHex_hexdigest b c (List.mem_of_mem_take hc)⟩
  rw [List.length_take, H.hexdigest_length]
  rfl

/-- A sweep without grace finds the record of a row that was reserved before its reading. -/
theorem Sound.pendingRecord (h : Sound H bodies p) (hdistinct : Set.InjOn (evidenceIdOf H) bodies)
    (hr : r ∈ p.payloads.rows) (hpending : r.status = .pending) {current : T}
    (htime : r.acceptedAt ≤ current) :
    pendingRecord p.payloads r.evidenceId 0 current = some r := by
  have hfind : findPayloadByEvidenceId p.payloads r.evidenceId = some r := by
    unfold findPayloadByEvidenceId
    have hsome : (p.payloads.rows.find? fun q => q.evidenceId = r.evidenceId).isSome := by
      rw [List.find?_isSome]
      exact ⟨r, hr, by simp⟩
    obtain ⟨q, hq⟩ := Option.isSome_iff_exists.mp hsome
    have hid : q.evidenceId = r.evidenceId := by simpa using List.find?_some hq
    rw [hq, h.row_unique hdistinct hr (List.mem_of_find?_eq_some hq) hid]
  have hyounger : Readings.younger current r.acceptedAt 0 = false := by
    rw [← Bool.not_eq_true, Readings.younger_zero]
    exact not_lt.mpr htime
  rw [Ingestion.pendingRecord, h.isEvidenceFilename hr, hfind]
  simp [hpending, hyounger]

omit [Readings T] in
theorem Orphan.of_commitPayload
    (h : Orphan H { p with payloads := (commitPayload p.payloads payloadHash evidenceId).1 }
      directory r) : Orphan H p directory r := by
  rcases commitPayload_cases h.row with hr | ⟨q, -, -, -, rfl⟩
  · exact ⟨hr, h.pending, h.file⟩
  · cases h.pending

/-- A step of a sweep keeps its settings, and changes the rows by a commit at most. -/
theorem sweepStep_cases (H : Digest) (p : Publications D T) (sweep : Sweep D T) :
    ((sweepStep H p sweep).2.grace = sweep.grace ∧
        (sweepStep H p sweep).2.current = sweep.current) ∧
      ((sweepStep H p sweep).1 = p ∨ ∃ payloadHash evidenceId, (sweepStep H p sweep).1 =
        { p with payloads := (commitPayload p.payloads payloadHash evidenceId).1 }) := by
  unfold sweepStep
  split
  · split
    · exact ⟨⟨rfl, rfl⟩, .inl rfl⟩
    · exact ⟨⟨rfl, rfl⟩, .inl rfl⟩
  · split
    · split
      · exact ⟨⟨rfl, rfl⟩, .inl rfl⟩
      · exact ⟨⟨rfl, rfl⟩, .inl rfl⟩
    · split_ifs
      · exact ⟨⟨rfl, rfl⟩, .inl rfl⟩
      · exact ⟨⟨rfl, rfl⟩, .inl rfl⟩
    · exact ⟨⟨rfl, rfl⟩, .inr ⟨_, _, rfl⟩⟩

/-- A sweep makes no orphan. -/
theorem Orphan.of_sweepStep {sweep : Sweep D T}
    (h : Orphan H (sweepStep H p sweep).1 directory r) : Orphan H p directory r := by
  rcases (sweepStep_cases H p sweep).2 with hsame | ⟨payloadHash, evidenceId, hcommit⟩
  · rw [hsame] at h
    exact h
  · rw [hcommit] at h
    exact h.of_commitPayload

/-- Every orphan of the directories is still to come in a sweep. -/
def Covers (H : Digest) (p : Publications D T) (directories : List D) (sweep : Sweep D T) : Prop :=
  ∀ directory ∈ directories, ∀ r, Orphan H p directory r →
    directory ∈ sweep.directories ∨ (directory, r.evidenceId) ∈ sweep.candidates

omit [Readings T] in
theorem mem_directoryCandidates {f : EvidenceFile D} {files : Inboxes D} {path : D × Text}
    (h : files.find? path = some f) : path.2 ∈ directoryCandidates files path.1 := by
  obtain ⟨hf, rfl⟩ := Table.find?_eq_some.mp h
  rw [directoryCandidates, List.mem_insertionSort]
  exact List.mem_map_of_mem (List.mem_filter.mpr ⟨hf, by simp⟩)

omit [Readings T] in
/-- Passing over the first candidate is right when it is the file of no orphan. -/
theorem Covers.drop {directories : List D} {sweep : Sweep D T} {path : D × Text}
    {rest : List (D × Text)} (h : Covers H p directories sweep) (hcandidates : sweep.candidates = path :: rest)
    (hnone : path.1 ∈ directories → ∀ r, Orphan H p path.1 r → r.evidenceId ≠ path.2) :
    Covers H p directories sweep.drop := by
  intro directory hdirectory r hr
  rcases h directory hdirectory r hr with hmem | hmem
  · exact .inl hmem
  · rw [hcandidates] at hmem
    rcases List.mem_cons.mp hmem with rfl | hmem
    · exact absurd rfl (hnone hdirectory r hr)
    · refine .inr ?_
      rw [Sweep.drop, hcandidates]
      exact hmem

/-- The step of a sweep without grace passes over no orphan that was reserved before its reading. -/
theorem Covers.sweepStep {directories : List D} {sweep : Sweep D T}
    (hcovers : Covers H p directories sweep) (h : Sound H bodies p)
    (hdistinct : Set.InjOn (evidenceIdOf H) bodies) (hready : sweep.Ready H p)
    (hgrace : sweep.grace = 0)
    (htimely : ∀ directory ∈ directories, ∀ r, Orphan H p directory r → r.acceptedAt ≤ sweep.current) :
    Covers H (sweepStep H p sweep).1 directories (sweepStep H p sweep).2 := by
  obtain ⟨grace, current, pending, candidates, phase, reconciled⟩ := sweep
  obtain rfl : grace = 0 := hgrace
  cases candidates with
  | nil =>
    cases pending with
    | nil => exact hcovers
    | cons next rest =>
      intro directory hdirectory r hr
      rcases hcovers directory hdirectory r hr with hmem | hmem
      · rcases List.mem_cons.mp hmem with rfl | hmem
        · obtain ⟨f, hf, -⟩ := hr.file
          exact .inr (List.mem_map_of_mem (mem_directoryCandidates hf))
        · exact .inl hmem
      · cases hmem
  | cons path rest =>
    have hphase := hready path rest rfl
    cases phase with
    | find =>
      simp only [Ingestion.sweepStep]
      split
      · exact hcovers
      · rename_i hnone
        refine hcovers.drop rfl fun hdirectory r hr hid => ?_
        have hsome := h.pendingRecord hdistinct hr.row hr.pending (htimely path.1 hdirectory r hr)
        rw [hid, hnone] at hsome
        cases hsome
    | read record =>
      simp only [Ingestion.sweepStep]
      split_ifs with hverified
      · exact hcovers
      · refine hcovers.drop rfl fun hdirectory r hr hid => hverified ?_
        obtain ⟨q, hq, hhash, hqid⟩ := hphase
        obtain rfl := h.row_unique hdistinct hr.row hq (hqid.trans hid.symm)
        obtain ⟨f, hf, hfhash⟩ := hr.file
        rw [hid] at hf
        exact isVerified_iff.mpr ⟨f, hf, hfhash.trans hhash⟩
    | commit record =>
      have hafter : Covers H
          { p with payloads := (commitPayload p.payloads record.payloadHash path.2).1 } directories
          ⟨0, current, pending, path :: rest, .commit record, reconciled⟩ :=
        fun directory hdirectory r hr => hcovers directory hdirectory r hr.of_commitPayload
      refine hafter.drop rfl fun hdirectory r hr hid => ?_
      obtain ⟨q, hq, hhash, hqid⟩ := hphase.1
      obtain rfl := h.row_unique hdistinct hr.of_commitPayload.row hq (hqid.trans hid.symm)
      obtain ⟨q', hq', hsame, -, -, hcommitted⟩ := exists_mem_commitPayload hq
      obtain rfl := List.inj_on_of_nodup_map (commitPayload p.payloads record.payloadHash
        path.2).1.distinct hq' hr.row hsame
      have hpending := hr.pending
      rw [hcommitted hhash hqid] at hpending
      cases hpending

omit [Readings T] in
theorem Covers.of_fewer {directories : List D} {sweep : Sweep D T} (h : Covers H p directories sweep)
    (hfewer : ∀ directory r, Orphan H p' directory r → Orphan H p directory r) :
    Covers H p' directories sweep :=
  fun directory hdirectory r hr => h directory hdirectory r (hfewer directory r hr)

/-! ### Recovery -/

/-- A sweep over directories goes on while no request is in flight. -/
structure Recovering (H : Digest) (bodies : Set Bytes) (directories : List D) (current : T) (n : ℕ)
    (s : PublicationState D T) : Prop where
  consistent : Consistent H bodies s
  quiet : s.requests = []
  started : n < s.sweeps.length
  timely : ∀ directory ∈ directories, ∀ r, Orphan H s.toPublications directory r →
    r.acceptedAt ≤ current
  covers : ∀ sweep, s.sweeps[n]? = some (some sweep) → sweep.grace = 0 ∧ sweep.current = current ∧
    Covers H s.toPublications directories sweep

/-- The action sends no request, and the files that the sweep reads are readable. -/
def PublicationAction.Undisturbed (n : ℕ) : PublicationAction D T → Prop
  | .request _ _ => False
  | .unreadable i => i ≠ n
  | _ => True

theorem Recovering.next {directories : List D} {current : T} {n : ℕ}
    (hdistinct : Set.InjOn (evidenceIdOf H) bodies)
    (h : Recovering H bodies directories current n s) {a : PublicationAction D T}
    (ha : a.Undisturbed n) : Recovering H bodies directories current n ((publication D T H).next s a) := by
  have hconsistent : Consistent H bodies ((publication D T H).next s a) := by
    refine consistent_next hdistinct h.consistent ?_
    cases a with
    | request directory body => exact ha.elim
    | _ => trivial
  obtain ⟨p, requests, sweeps⟩ := s
  obtain rfl : requests = [] := h.quiet
  simp only [Machine.next, publication] at hconsistent ⊢
  cases a with
  | request directory body => exact ha.elim
  | advance i reading => exact h
  | fail i => exact h
  | crash i => exact h
  | reconcile directories' grace reading =>
    refine ⟨hconsistent, rfl, ?_, h.timely, fun sweep hsweep => h.covers sweep ?_⟩
    · rw [publicationStep, List.length_append]
      exact Nat.lt_add_right _ h.started
    · rw [publicationStep, List.getElem?_append_left h.started] at hsweep
      exact hsweep
  | sweep i =>
    rw [publicationStep] at hconsistent ⊢
    rcases hi : sweeps[i]? with _ | _ | sweep
    · exact h
    · exact h
    · simp only [hi] at hconsistent ⊢
      have hfewer : ∀ directory r, Orphan H (sweepStep H p sweep).1 directory r →
          Orphan H p directory r := fun directory r hr => hr.of_sweepStep
      refine ⟨hconsistent, rfl, ?_, ?_, fun other hother => ?_⟩
      · rw [List.length_set]
        exact h.started
      · exact fun directory hdirectory r hr => h.timely directory hdirectory r (hfewer directory r hr)
      · by_cases hin : i = n
        · subst hin
          obtain ⟨hgrace, rfl, hcovers⟩ := h.covers sweep hi
          rw [List.getElem?_set_self h.started] at hother
          obtain rfl := Option.some.inj (Option.some.inj hother)
          have hready := h.consistent.sweeps sweep (List.mem_of_getElem? hi)
          obtain ⟨⟨hgrace', hcurrent'⟩, -⟩ := sweepStep_cases H p sweep
          exact ⟨hgrace'.trans hgrace, hcurrent',
            hcovers.sweepStep h.consistent.sound hdistinct hready hgrace h.timely⟩
        · rw [List.getElem?_set_ne hin] at hother
          obtain ⟨hgrace, hcurrent, hcovers⟩ := h.covers other hother
          exact ⟨hgrace, hcurrent, hcovers.of_fewer hfewer⟩
  | unreadable i =>
    rw [publicationStep] at hconsistent ⊢
    rcases hi : sweeps[i]? with _ | _ | sweep
    · exact h
    · exact h
    · simp only [hi] at hconsistent ⊢
      refine ⟨hconsistent, rfl, ?_, h.timely, fun other hother => h.covers other ?_⟩
      · rw [List.length_set]
        exact h.started
      · rw [List.getElem?_set_ne ha] at hother
        exact hother
  | stop i =>
    refine ⟨hconsistent, rfl, ?_, h.timely, fun other hother => ?_⟩
    · rw [publicationStep, List.length_set]
      exact h.started
    · by_cases hin : i = n
      · subst hin
        rw [publicationStep, List.getElem?_set_self h.started] at hother
        cases hother
      · rw [publicationStep, List.getElem?_set_ne hin] at hother
        exact h.covers other hother

/-- The sweep is through with its directories. -/
def PublicationState.isFinished (s : PublicationState D T) (n : ℕ) : Bool :=
  match s.sweeps[n]? with
  | some (some sweep) => sweep.directories.isEmpty && sweep.candidates.isEmpty
  | _ => false

theorem Recovering.no_orphan {directories : List D} {current : T} {n : ℕ}
    (h : Recovering H bodies directories current n s) (hfinished : s.isFinished n = true) :
    ∀ directory ∈ directories, ∀ r, ¬ Orphan H s.toPublications directory r := by
  intro directory hdirectory r hr
  unfold PublicationState.isFinished at hfinished
  split at hfinished
  · rename_i sweep hsweep
    obtain ⟨-, -, hcovers⟩ := h.covers sweep hsweep
    rw [Bool.and_eq_true, List.isEmpty_iff, List.isEmpty_iff] at hfinished
    have hnone := hcovers directory hdirectory r hr
    rw [hfinished.1, hfinished.2] at hnone
    rcases hnone with hnone | hnone
    · cases hnone
    · cases hnone
  · cases hfinished

/-- A sweep without grace that starts while no request is in flight reads the clock no earlier
than the rows of its orphans were reserved. -/
def TimelySweep (H : Digest) (s : PublicationState D T) (a : PublicationAction D T) : Prop :=
  ∀ directories current, a = .reconcile directories 0 current → s.requests = [] →
    ∀ directory ∈ directories, ∀ r, Orphan H s.toPublications directory r → r.acceptedAt ≤ current

theorem Consistent.recovering {directories : List D} {current : T} (h : Consistent H bodies s)
    (hquiet : s.requests = []) (htimely : TimelySweep H s (.reconcile directories 0 current)) :
    Recovering H bodies directories current s.sweeps.length
      ((publication D T H).next s (.reconcile directories 0 current)) := by
  refine ⟨h.startSweep directories 0 current, hquiet, ?_, htimely directories current rfl hquiet,
    fun sweep hsweep => ?_⟩
  · simp [Machine.next, publication, publicationStep]
  · simp only [Machine.next, publication, publicationStep, List.getElem?_concat_length,
      Option.some.injEq] at hsweep
    rw [← hsweep]
    exact ⟨rfl, rfl, fun directory hdirectory r _ => .inl hdirectory⟩

/-! ### Runs -/

/-- The bodies that the clients send in a run. -/
def sentBodies (actions : List (PublicationAction D T)) : Set Bytes :=
  {body | ∃ directory, .request directory body ∈ actions}

/-- A request is answered for a committed row only. -/
def AnswersCommitted (H : Digest) (s : PublicationState D T) (a : PublicationAction D T) : Prop :=
  ∀ i current q status evidenceId, a = .advance i current → s.requests[i]? = some q →
    (publication D T H).answer s a = .answered status evidenceId →
      Committed s.payloads (H.hexdigest q.body) evidenceId

theorem Consistent.answersCommitted (h : Consistent H bodies s) (a : PublicationAction D T) :
    AnswersCommitted H s a := by
  rintro i current q status evidenceId rfl hq hanswer
  obtain ⟨-, hphase⟩ := h.requests q (List.mem_of_getElem? hq)
  simp only [Machine.answer, publication, publicationStep, hq, PublicationState.advance] at hanswer
  split at hanswer
  · cases hanswer
  · rename_i p' reply hstep
    have hreply : (requestStep H s.toPublications q current).2 = .inr (.answered status evidenceId) := by
      rw [hstep]
      exact congrArg Sum.inr hanswer
    rw [requestStep_answered hreply] at hphase
    exact hphase

/-- After a run, a committed row has its file; answers were given for committed rows only; and a
sweep without grace that ran with no request in flight has left no orphan. -/
structure ConsistentRun (H : Digest) (actions : List (PublicationAction D T)) : Prop where
  committed : ∀ r ∈ ((publication D T H).run PublicationState.empty actions).payloads.rows,
    r.status = .committed →
      Published H ((publication D T H).run PublicationState.empty actions).inboxes r.payloadHash
        r.evidenceId
  answered : (publication D T H).Along (AnswersCommitted H) PublicationState.empty actions
  healed : ∀ before directories current after,
    actions = before ++ .reconcile directories 0 current :: after →
    ((publication D T H).run PublicationState.empty before).requests = [] →
    (∀ a ∈ after, a.Undisturbed
      ((publication D T H).run PublicationState.empty before).sweeps.length) →
    ((publication D T H).run PublicationState.empty actions).isFinished
      ((publication D T H).run PublicationState.empty before).sweeps.length = true →
    ∀ directory ∈ directories, ∀ r, ¬ Orphan H
      ((publication D T H).run PublicationState.empty actions).toPublications directory r

/-- Any interleaving of requests and sweeps, cut off anywhere, of which the sweeps without grace are
timely. -/
theorem publication_consistentRun (H : Digest) (actions : List (PublicationAction D T))
    (hdistinct : Set.InjOn (evidenceIdOf H) (sentBodies actions))
    (htimely : (publication D T H).Along (TimelySweep H) PublicationState.empty actions) :
    ConsistentRun H actions := by
  have hsends : (publication D T H).Along (fun _ a => a.Sends (sentBodies actions))
      PublicationState.empty actions := by
    refine Machine.along_of_mem PublicationState.empty fun a ha => ?_
    cases a with
    | request directory body => exact ⟨directory, ha⟩
    | _ => trivial
  have hstep : ∀ s a, PublicationAction.Sends (sentBodies actions) a →
      Consistent H (sentBodies actions) s →
        Consistent H (sentBodies actions) ((publication D T H).next s a) :=
    fun s a ha h => consistent_next hdistinct h ha
  constructor
  · exact (hsends.run_invariant hstep consistent_empty).sound.committed
  · exact hsends.imp_of_invariant hstep (fun s a _ h => h.answersCommitted a) consistent_empty
  · rintro before directories current after rfl hquiet hafter hfinished
    rw [Machine.along_append] at hsends htimely
    have hbefore := hsends.1.run_invariant hstep consistent_empty
    have hstarted := hbefore.recovering hquiet htimely.2.1
    have hgoes (s : PublicationState D T) (a : PublicationAction D T)
        (ha : a.Undisturbed ((publication D T H).run PublicationState.empty before).sweeps.length)
        (h : Recovering H _ directories current _ s) :
        Recovering H _ directories current _ ((publication D T H).next s a) := h.next hdistinct ha
    have hend := (Machine.along_of_mem (M := publication D T H) _ hafter).run_invariant hgoes hstarted
    rw [Machine.run_append] at hfinished ⊢
    exact hend.no_orphan hfinished

/-! ### A crash before the commit -/

def postureBody : Bytes := (lit "\x7b\"schema_version\":\"1.0\"\x7d").map (UInt8.ofNat ·.val)

/-- A request that dies between moving its file and committing its row, which it reserved at 10. -/
def crashedRequest : List (PublicationAction Unit ℤ) :=
  [.request () postureBody, .advance 0 10, .advance 0 10, .advance 0 10, .advance 0 10, .crash 0]

/-- The sweep of the next start, at a reading of the clock. -/
def restarted (current : ℤ) : List (PublicationAction Unit ℤ) :=
  crashedRequest ++ [.reconcile [()] 0 current, .sweep 0, .sweep 0, .sweep 0, .sweep 0]

theorem sentBodies_restarted (current : ℤ) : sentBodies (restarted current) ⊆ {postureBody} := by
  rintro body ⟨directory, hbody⟩
  simp only [restarted, crashedRequest, List.cons_append, List.nil_append, List.mem_cons,
    List.not_mem_nil, or_false, PublicationAction.request.injEq, reduceCtorEq] at hbody
  exact hbody.2

theorem injOn_restarted (current : ℤ) :
    Set.InjOn (evidenceIdOf sha256) (sentBodies (restarted current)) := by
  intro b hb c hc _
  rw [sentBodies_restarted current hb, sentBodies_restarted current hc]

theorem quiet_crashedRequest :
    ((publication Unit ℤ sha256).run PublicationState.empty crashedRequest).requests = [] := by
  rw [← List.isEmpty_iff]
  decide +kernel

/-- The rows of the crashed request are reserved by then. -/
theorem timely_restarted : (publication Unit ℤ sha256).Along (TimelySweep sha256)
    PublicationState.empty (restarted 12) := by
  have hother {s : PublicationState Unit ℤ} {a : PublicationAction Unit ℤ}
      (h : ∀ directories current, a ≠ .reconcile directories 0 current) : TimelySweep sha256 s a :=
    fun directories current he => absurd he (h directories current)
  have hrows : ∀ r ∈ ((publication Unit ℤ sha256).run PublicationState.empty
      crashedRequest).payloads.rows, r.acceptedAt ≤ 12 := by decide +kernel
  rw [restarted, Machine.along_append]
  refine ⟨⟨hother ?_, hother ?_, hother ?_, hother ?_, hother ?_, hother ?_, trivial⟩,
    ?_, hother ?_, hother ?_, hother ?_, hother ?_, trivial⟩
  case refine_7 =>
    intro directories current he _ directory _ r hr
    obtain ⟨-, -, rfl⟩ := PublicationAction.reconcile.inj he
    exact hrows r hr.row
  all_goals simp

/-- The restart at 12 heals the row. -/
theorem publication_consistentRun_restarted : ConsistentRun sha256 (restarted 12) :=
  publication_consistentRun sha256 (restarted 12) (injOn_restarted 12) timely_restarted

/-- Whether a row is an orphan of a directory. -/
def hasOrphan (H : Digest) (p : Publications D T) (directory : D) : Bool :=
  p.payloads.rows.any fun r =>
    r.status == .pending && isVerified H p.inboxes (directory, r.evidenceId) r.payloadHash

omit [Readings T] in
theorem exists_orphan (h : hasOrphan H p directory = true) : ∃ r, Orphan H p directory r := by
  obtain ⟨r, hr, h⟩ := List.any_eq_true.mp h
  rw [Bool.and_eq_true, beq_iff_eq, isVerified_iff] at h
  exact ⟨r, hr, h.1, h.2⟩

/-- A restart whose clock was set back to 5 leaves the row pending. -/
theorem orphan_after_clock_set_back :
    ¬ ∀ actions : List (PublicationAction Unit ℤ),
      Set.InjOn (evidenceIdOf sha256) (sentBodies actions) → ConsistentRun sha256 actions := by
  intro h
  have hhealed := (h (restarted 5) (injOn_restarted 5)).healed crashedRequest [()] 5
    [.sweep 0, .sweep 0, .sweep 0, .sweep 0] rfl quiet_crashedRequest
  have hundisturbed : ∀ a ∈ [PublicationAction.sweep 0, .sweep 0, .sweep 0, .sweep 0],
      (a : PublicationAction Unit ℤ).Undisturbed ((publication Unit ℤ sha256).run
        PublicationState.empty crashedRequest).sweeps.length := by
    intro a ha
    simp only [List.mem_cons, List.not_mem_nil, or_false, or_self] at ha
    rw [ha]
    trivial
  obtain ⟨r, hr⟩ : ∃ r, Orphan sha256 ((publication Unit ℤ sha256).run PublicationState.empty
      (restarted 5)).toPublications () r := exists_orphan (by decide +kernel)
  exact hhealed hundisturbed (by decide +kernel) () List.mem_cons_self r hr

end SentinelGRC.Ingestion
