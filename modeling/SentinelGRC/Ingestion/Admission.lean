import SentinelGRC.Ingestion.Server

/-!
What gets into the inboxes. A file that a run of the server adds has the bytes that the route
made of the body of a request; the request was signed, within the window, with a secret that
its key had while it was active, under a nonce that was not reserved, and after that the key
was authorized for the scope of the route. This holds for every order of the steps, over
crashes and restarts, and whatever a failure interrupts.
-/

namespace SentinelGRC.Ingestion

open Python Json Store Transition

/-! ### What a publication writes -/

section Publication

variable {D T : Type} [DecidableEq D] {H : Digest} {p : Publications D T}

/-- The requests of a publication are among some, and its files, but for those that it found,
are of these requests. -/
structure Publishes (H : Digest) (found : Inboxes D) (P : D → Bytes → Prop)
    (s : PublicationState D T) : Prop where
  requests : ∀ q ∈ s.requests, P q.directory q.body
  files : ∀ f ∈ s.inboxes.rows, f ∈ found.rows ∨
    P f.directory f.bytes ∧ f.stem = evidenceIdOf H f.bytes

theorem mem_inboxes_requestStep {q : Request D} {current : T} {f : EvidenceFile D}
    (h : f ∈ (requestStep H p q current).1.inboxes.rows) :
    f ∈ p.inboxes.rows ∨ f = ⟨q.directory, evidenceIdOf H q.body, q.body⟩ := by
  unfold requestStep at h
  cases hphase : q.phase with
  | getEvidenceId =>
    simp only [hphase] at h
    split at h
    · exact .inl h
    · exact .inl h
  | beginPayload =>
    simp only [hphase] at h
    split at h
    · exact .inl h
    · exact .inl h
  | replace =>
    simp only [hphase] at h
    have hfind := Table.find?_eq_some.mpr ⟨h, rfl⟩
    rw [Table.find?_put] at hfind
    split_ifs at hfind
    · exact .inr (Option.some.inj hfind).symm
    · exact .inl (Table.find?_eq_some.mp hfind).1
  | confirm =>
    simp only [hphase] at h
    split_ifs at h
    · exact .inl h
    · exact .inl h
  | writeTemporary | commitPayload | answer status evidenceId =>
    simp only [hphase] at h
    exact .inl h

theorem inboxes_sweepStep [Readings T] (sweep : Sweep D T) :
    (sweepStep H p sweep).1.inboxes = p.inboxes := by
  rcases (sweepStep_cases H p sweep).2 with hsame | ⟨payloadHash, evidenceId, hcommit⟩
  · rw [hsame]
  · rw [hcommit]

variable {found : Inboxes D} {P Q : D → Bytes → Prop} {s : PublicationState D T}

omit [DecidableEq D] in
theorem Publishes.mono (h : Publishes H found P s) (hPQ : ∀ d b, P d b → Q d b) :
    Publishes H found Q s :=
  ⟨fun q hq => hPQ _ _ (h.requests q hq), fun f hf => (h.files f hf).imp_right fun hP =>
    ⟨hPQ _ _ hP.1, hP.2⟩⟩

omit [DecidableEq D] in
theorem Publishes.erase (h : Publishes H found P s) (i : ℕ) :
    Publishes H found P { s with requests := s.requests.eraseIdx i } :=
  ⟨fun q hq => h.requests q (List.mem_of_mem_eraseIdx hq), h.files⟩

theorem Publishes.advance (h : Publishes H found P s) {i : ℕ} {q : Request D}
    (hq : s.requests[i]? = some q) (current : T) : Publishes H found P (s.advance H i q current).1 := by
  have hP := h.requests q (List.mem_of_getElem? hq)
  have hfiles : ∀ f ∈ (requestStep H s.toPublications q current).1.inboxes.rows,
      f ∈ found.rows ∨ P f.directory f.bytes ∧ f.stem = evidenceIdOf H f.bytes := by
    intro f hf
    rcases mem_inboxes_requestStep hf with hf | rfl
    · exact h.files f hf
    · exact .inr ⟨hP, rfl⟩
  unfold PublicationState.advance
  rcases hstep : requestStep H s.toPublications q current with ⟨p', phase | reply⟩
  · rw [hstep] at hfiles
    refine ⟨fun r hr => ?_, hfiles⟩
    rcases List.mem_or_eq_of_mem_set hr with hr | rfl
    · exact h.requests r hr
    · exact hP
  · rw [hstep] at hfiles
    exact ⟨fun r hr => h.requests r (List.mem_of_mem_eraseIdx hr), hfiles⟩

/-- A step publishes for the requests it found and for the one it sends. -/
theorem Publishes.next [Readings T] (h : Publishes H found P s) {a : PublicationAction D T}
    (ha : ∀ d b, a = .request d b → P d b) : Publishes H found P (publicationStep H s a).1 := by
  cases a with
  | request directory body =>
    refine ⟨fun q hq => ?_, h.files⟩
    rcases List.mem_append.mp hq with hq | hq
    · exact h.requests q hq
    · rw [List.mem_singleton.mp hq]
      exact ha directory body rfl
  | advance i current =>
    rw [publicationStep]
    cases hq : s.requests[i]? with
    | none => exact h
    | some q => exact h.advance hq current
  | fail i => exact h.erase i
  | crash i => exact h.erase i
  | reconcile directories grace current => exact ⟨h.requests, h.files⟩
  | sweep i =>
    rw [publicationStep]
    rcases s.sweeps[i]? with _ | _ | sweep
    · exact h
    · exact h
    · refine ⟨h.requests, fun f hf => h.files f ?_⟩
      rw [← inboxes_sweepStep (H := H) sweep]
      exact hf
  | unreadable i =>
    rw [publicationStep]
    rcases s.sweeps[i]? with _ | _ | sweep
    · exact h
    · exact h
    · exact ⟨h.requests, h.files⟩
  | stop i => exact ⟨h.requests, h.files⟩

end Publication

/-! ### How a request gets there -/

section Admission

variable {F T : Type} [PyFloat F] [Readings T]

/-- The request was sent in the run, and read. -/
def Sent (U : UnicodeTables) (actions : List (IngestionAction F T)) (r : Received) : Prop :=
  .post r.post ∈ actions ∧ inboxAt? r.post.path = some r.inbox ∧ r.post.receive U r.inbox = .ok r

/-- At some moment after that, its key was active and had the secret. -/
def Resolved (H : Digest) (U : UnicodeTables) (s : IngestionState F T)
    (actions : List (IngestionAction F T)) (r : Received) (secret : Bytes) : Prop :=
  ∃ before, before <+: actions ∧ Sent U before r ∧
    resolveSecret ((ingestionServer F T H U).run s before).keys r.keyId
      ((ingestionServer F T H U).run s before).keySecrets = .ok (some secret)

/-- The request is signed with the secret and its timestamp is in the window at a time. -/
structure Signed (H : Digest) (r : Received) (secret : Bytes) (now : ℚ) : Prop where
  timely : ∃ requestTime, pyInt r.post.timestamp = some requestTime ∧
    |truncate now - requestTime| ≤ maxClockSkewSeconds
  nonce : matchesNonce r.post.nonce = true
  signature : makeSignature H secret r.post.timestamp r.post.nonce r.body = .ok r.signature

/-- At some moment after that, it was signed and its nonce was not reserved. -/
def Authenticated (H : Digest) (U : UnicodeTables) (s : IngestionState F T)
    (actions : List (IngestionAction F T)) (r : Received) (secret : Bytes) : Prop :=
  ∃ before now, before <+: actions ∧ Resolved H U s before r secret ∧ Signed H r secret now ∧
    ¬ ((ingestionServer F T H U).run s before).nonces.Live r.post.nonce (truncate now)

/-- At some moment after that, its key was authorized for the route, which makes these bytes of
its body. -/
def Admitted (H : Digest) (U : UnicodeTables) (s : IngestionState F T)
    (actions : List (IngestionAction F T)) (inbox : Inbox) (bytes : Bytes) : Prop :=
  ∃ before r secret, before <+: actions ∧ Authenticated H U s before r secret ∧ r.inbox = inbox ∧
    isAuthorized F ((ingestionServer F T H U).run s before).keys r.keyId inbox.requiredScope =
      .ok true ∧ evidence F H U inbox r.body = .ok bytes

variable {H : Digest} {U : UnicodeTables} {s : IngestionState F T}
  {actions later : List (IngestionAction F T)} {r : Received} {secret : Bytes}

omit [PyFloat F] [Readings T] in
theorem Sent.mono (h : Sent U actions r) (hlater : actions <+: later) : Sent U later r :=
  ⟨hlater.subset h.1, h.2⟩

theorem Resolved.mono (h : Resolved H U s actions r secret) (hlater : actions <+: later) :
    Resolved H U s later r secret := by
  obtain ⟨before, hbefore, hrest⟩ := h
  exact ⟨before, hbefore.trans hlater, hrest⟩

theorem Authenticated.mono (h : Authenticated H U s actions r secret) (hlater : actions <+: later) :
    Authenticated H U s later r secret := by
  obtain ⟨before, now, hbefore, hrest⟩ := h
  exact ⟨before, now, hbefore.trans hlater, hrest⟩

theorem Admitted.mono {inbox : Inbox} {bytes : Bytes} (h : Admitted H U s actions inbox bytes)
    (hlater : actions <+: later) : Admitted H U s later inbox bytes := by
  obtain ⟨before, r, secret, hbefore, hrest⟩ := h
  exact ⟨before, r, secret, hbefore.trans hlater, hrest⟩

/-! ### Signatures -/

theorem parseAuthorization_eq_ok {value keyId signature : Text}
    (h : parseAuthorization value = .ok (keyId, signature)) :
    value.take 5 = lit "HMAC " ∧ strip (value.drop 5) = keyId ++ lit ":" ++ signature := by
  unfold parseAuthorization at h
  split_ifs at h with hscheme
  simp only at h
  split_ifs at h with hcolon
  obtain ⟨rfl, rfl⟩ := Prod.mk.inj (Except.ok.inj h)
  refine ⟨not_not.mp hscheme, ?_⟩
  have hdrop : (strip (value.drop 5)).dropWhile (· ≠ ofChar ':') ≠ [] := by
    rw [ne_eq, List.dropWhile_eq_nil_iff]
    intro hall
    simpa using hall _ hcolon
  have hhead : ((strip (value.drop 5)).dropWhile (· ≠ ofChar ':')).head hdrop = ofChar ':' := by
    simpa using List.head_dropWhile_not _ hdrop
  calc strip (value.drop 5)
      = (strip (value.drop 5)).takeWhile (· ≠ ofChar ':') ++
          (strip (value.drop 5)).dropWhile (· ≠ ofChar ':') := List.takeWhile_append_dropWhile.symm
    _ = (strip (value.drop 5)).takeWhile (· ≠ ofChar ':') ++ (lit ":" ++
          ((strip (value.drop 5)).dropWhile (· ≠ ofChar ':')).tail) := by
        rw [← List.cons_head_tail hdrop, hhead]
        rfl
    _ = _ := (List.append_assoc ..).symm

/-- The credential is read back from the header that is made of it. -/
theorem parseAuthorization_rebuilt {value keyId signature : Text}
    (h : parseAuthorization value = .ok (keyId, signature)) :
    parseAuthorization (lit "HMAC " ++ keyId ++ lit ":" ++ signature) = .ok (keyId, signature) := by
  obtain ⟨hscheme, hcredential⟩ := parseAuthorization_eq_ok h
  have hheader : lit "HMAC " ++ keyId ++ lit ":" ++ signature =
      lit "HMAC " ++ strip (value.drop 5) := by simp [hcredential]
  have htake : (lit "HMAC " ++ strip (value.drop 5)).take 5 = lit "HMAC " := List.take_left' rfl
  have hdrop : (lit "HMAC " ++ strip (value.drop 5)).drop 5 = strip (value.drop 5) :=
    List.drop_left' rfl
  rw [hheader]
  unfold parseAuthorization at h ⊢
  rw [htake, hdrop, strip_strip]
  rwa [hscheme] at h

theorem receive_eq_ok {post : Post} {inbox : Inbox} (h : post.receive U inbox = .ok r) :
    r.post = post ∧ r.inbox = inbox ∧
      parseAuthorization post.authorization = .ok (r.keyId, r.signature) := by
  unfold Post.receive at h
  split_ifs at h
  split at h
  · cases h
  · split_ifs at h
    simp only at h
    split_ifs at h
    cases hparse : parseAuthorization post.authorization with
    | error e =>
      rw [hparse] at h
      cases h
    | ok credential =>
      rw [hparse] at h
      obtain rfl := Except.ok.inj h
      exact ⟨rfl, rfl, rfl⟩

theorem verifyCredential_eq_ok {authorization timestamp nonce keyId supplied : Text} {body : Bytes}
    (hparse : parseAuthorization authorization = .ok (keyId, supplied)) :
    verifyCredential H secret authorization timestamp nonce body = .ok () ↔
      matchesNonce nonce = true ∧ makeSignature H secret timestamp nonce body = .ok supplied := by
  unfold verifyCredential
  rw [hparse]
  by_cases hnonce : matchesNonce nonce = true
  · cases makeSignature H secret timestamp nonce body with
    | error e => simp [hnonce]
    | ok expected => simp [hnonce, eq_comm]
  · simp [hnonce]

/-- What the authentication of a request that was read establishes. -/
theorem signed_of_authenticateRequest {nonces : NonceStore} {now : ℚ}
    (hread : r.post.receive U r.inbox = .ok r)
    (h : (authenticateRequest H nonces (r.call secret now)).2 = .ok ()) :
    Signed H r secret now ∧ ¬ nonces.Live r.post.nonce (truncate now) := by
  obtain ⟨hverify, hlive⟩ := answer_eq_ok.mp h
  obtain ⟨htimely, hcredential⟩ := verifyRequest_eq_ok.mp hverify
  obtain ⟨hnonce, hsignature⟩ :=
    (verifyCredential_eq_ok (parseAuthorization_rebuilt (receive_eq_ok hread).2.2)).mp hcredential
  exact ⟨⟨htimely, hnonce, hsignature⟩, hlive⟩

/-! ### Every step -/

theorem Resolved.sent (h : Resolved H U s actions r secret) : Sent U actions r := by
  obtain ⟨before, hbefore, hsent, -⟩ := h
  exact hsent.mono hbefore

theorem Authenticated.sent (h : Authenticated H U s actions r secret) : Sent U actions r := by
  obtain ⟨before, now, hbefore, hresolved, -⟩ := h
  exact hresolved.sent.mono hbefore

/-- What is known of a request in its phase. -/
def Handling.Justified (H : Digest) (U : UnicodeTables) (s : IngestionState F T)
    (actions : List (IngestionAction F T)) (handling : Handling) : Prop :=
  match handling.phase with
  | .resolveSecret => Sent U actions handling.toReceived
  | .authenticate secret => Resolved H U s actions handling.toReceived secret
  | .isAuthorized secret => Authenticated H U s actions handling.toReceived secret

/-- Where the requests and the files of a state come from. -/
structure Provenance (H : Digest) (U : UnicodeTables) (s : IngestionState F T)
    (actions : List (IngestionAction F T)) (t : IngestionState F T) : Prop where
  handlings : ∀ handling ∈ t.handlings, handling.Justified H U s actions
  publication : Publishes H s.publication.inboxes (Admitted H U s actions) t.publication

variable {t : IngestionState F T}

theorem Handling.Justified.mono {handling : Handling} (h : handling.Justified H U s actions)
    (hlater : actions <+: later) : handling.Justified H U s later := by
  unfold Handling.Justified at h ⊢
  cases hphase : handling.phase with
  | resolveSecret =>
    simp only [hphase] at h ⊢
    exact h.mono hlater
  | authenticate secret =>
    simp only [hphase] at h ⊢
    exact h.mono hlater
  | isAuthorized secret =>
    simp only [hphase] at h ⊢
    exact h.mono hlater

theorem Provenance.mono (h : Provenance H U s actions t) (hlater : actions <+: later) :
    Provenance H U s later t :=
  ⟨fun handling hmem => (h.handlings handling hmem).mono hlater,
    h.publication.mono fun _ _ hadmitted => hadmitted.mono hlater⟩

theorem Provenance.drop (h : Provenance H U s actions t) (i : ℕ) :
    Provenance H U s actions (t.drop i) :=
  ⟨fun handling hmem => h.handlings handling (List.mem_of_mem_eraseIdx hmem), h.publication⟩

theorem Provenance.proceed (h : Provenance H U s actions t) (i : ℕ) {handling : Handling}
    {phase : HandlingPhase} (hnext : { handling with phase }.Justified H U s actions) :
    Provenance H U s actions (t.proceed i handling phase) := by
  refine ⟨fun other hmem => ?_, h.publication⟩
  rcases List.mem_or_eq_of_mem_set hmem with hmem | rfl
  · exact h.handlings other hmem
  · exact hnext

theorem Provenance.persist (h : Provenance H U s actions t) {handling : Handling}
    (hadmitted : ∀ bytes, evidence F H U handling.inbox handling.body = .ok bytes →
      Admitted H U s actions handling.inbox bytes) :
    Provenance H U s actions (t.persist H U handling).1 := by
  unfold IngestionState.persist
  cases hbytes : evidence F H U handling.inbox handling.body with
  | error e => exact h
  | ok bytes =>
    refine ⟨h.handlings, h.publication.next fun directory body hrequest => ?_⟩
    cases hrequest
    exact hadmitted bytes hbytes

theorem Provenance.receive (h : Provenance H U s actions t) (post : Post) :
    Provenance H U s (actions ++ [.post post]) (t.receive U post).1 := by
  have hbefore := h.mono (List.prefix_append actions [.post post])
  unfold IngestionState.receive
  cases hinbox : inboxAt? post.path with
  | none => exact hbefore
  | some inbox =>
    simp only
    cases hread : post.receive U inbox with
    | error e => exact hbefore
    | ok received =>
      obtain ⟨rfl, rfl, -⟩ := receive_eq_ok hread
      refine ⟨fun handling hmem => ?_, hbefore.publication⟩
      rcases List.mem_append.mp hmem with hmem | hmem
      · exact hbefore.handlings handling hmem
      · rw [List.mem_singleton.mp hmem]
        exact ⟨by simp, hinbox, hread⟩

/-- A step of a request in the state that a run reaches. -/
theorem Provenance.advance (ht : t = (ingestionServer F T H U).run s actions)
    (h : Provenance H U s actions t) {i : ℕ} {handling : Handling}
    (hmem : handling ∈ t.handlings) (now : ℚ) :
    Provenance H U s actions (t.advance H U i handling now).1 := by
  have hjustified := h.handlings handling hmem
  unfold Handling.Justified at hjustified
  unfold IngestionState.advance
  cases hphase : handling.phase with
  | resolveSecret =>
    simp only [hphase] at hjustified ⊢
    cases hsecret : resolveSecret t.keys handling.keyId t.keySecrets with
    | error e => exact h.drop i
    | ok found =>
      cases found with
      | none => exact h.drop i
      | some secret =>
        subst ht
        exact h.proceed i ⟨actions, List.prefix_rfl, hjustified, hsecret⟩
  | authenticate secret =>
    simp only [hphase] at hjustified ⊢
    rcases hanswer : authenticateRequest H t.nonces (handling.call secret now) with ⟨nonces, answer⟩
    cases answer with
    | error e =>
      have hdropped := h.drop i
      exact ⟨hdropped.handlings, hdropped.publication⟩
    | ok =>
      have hok : (authenticateRequest H t.nonces (handling.call secret now)).2 = .ok () := by
        rw [hanswer]
      obtain ⟨hsigned, hfresh⟩ := signed_of_authenticateRequest hjustified.sent.2.2 hok
      subst ht
      have hauthenticated : Authenticated H U s actions handling.toReceived secret :=
        ⟨actions, now, List.prefix_rfl, hjustified, hsigned, hfresh⟩
      have hproceeded : Provenance H U s actions
          (IngestionState.proceed _ i handling (.isAuthorized secret)) := h.proceed i hauthenticated
      exact ⟨hproceeded.handlings, hproceeded.publication⟩
  | isAuthorized secret =>
    simp only [hphase] at hjustified ⊢
    cases hscope : isAuthorized F t.keys handling.keyId handling.inbox.requiredScope with
    | error e => exact h.drop i
    | ok authorized =>
      cases authorized with
      | false => exact h.drop i
      | true =>
        subst ht
        exact (h.drop i).persist fun bytes hbytes =>
          ⟨actions, handling.toReceived, secret, List.prefix_rfl, hjustified, rfl, hscope, hbytes⟩

theorem Provenance.restart (h : Provenance H U s actions t) (keySecrets : Fields F) (current : T) :
    Provenance H U s actions (t.restart H keySecrets current) := by
  have hidle : Publishes H s.publication.inboxes (Admitted H U s actions)
      { t.publication with requests := [] } :=
    ⟨fun q hq => absurd hq List.not_mem_nil, h.publication.files⟩
  refine ⟨fun handling hmem => absurd hmem List.not_mem_nil, hidle.next fun directory body hrequest => ?_⟩
  cases hrequest

theorem Provenance.next (ht : t = (ingestionServer F T H U).run s actions)
    (h : Provenance H U s actions t) (a : IngestionAction F T) :
    Provenance H U s (actions ++ [a]) ((ingestionServer F T H U).next t a) := by
  have hlater : actions <+: actions ++ [a] := List.prefix_append ..
  cases a with
  | post post => exact h.receive post
  | advance i now =>
    refine Provenance.mono ?_ hlater
    simp only [Machine.next, ingestionServer, ingestionStep]
    cases hhandling : t.handlings[i]? with
    | none => exact h
    | some handling => exact h.advance ht (List.mem_of_getElem? hhandling) now
  | fail i => exact (h.drop i).mono hlater
  | registry action => exact ⟨(h.mono hlater).handlings, (h.mono hlater).publication⟩
  | publish action =>
    refine Provenance.mono ?_ hlater
    have hstep (ha : ∀ d b, action ≠ .request d b) :
        Provenance H U s actions { t with publication := (publicationStep H t.publication action).1 } :=
      ⟨h.handlings, h.publication.next fun d b hrequest => absurd hrequest (ha d b)⟩
    cases action with
    | request directory body => exact h
    | _ => exact hstep fun d b hrequest => by cases hrequest
  | restart keySecrets current => exact (h.restart keySecrets current).mono hlater

theorem provenance_run (H : Digest) (U : UnicodeTables) (hidle : s.handlings = [])
    (hrequests : s.publication.requests = []) (actions : List (IngestionAction F T)) :
    Provenance H U s actions ((ingestionServer F T H U).run s actions) := by
  induction actions using List.reverseRecOn with
  | nil =>
    refine ⟨fun handling hmem => ?_, fun q hq => ?_, fun f hf => .inl hf⟩
    · rw [Machine.run_nil, hidle] at hmem
      cases hmem
    · rw [Machine.run_nil, hrequests] at hq
      cases hq
  | append_singleton actions a ih =>
    rw [Machine.run_concat]
    exact ih.next rfl a

/-- A server starts on any databases and files. Whatever is sent to it, in whatever order its
steps come, and however often it fails, dies and starts again, an inbox has no file but those
that were there and those whose bytes a route made of a body that was admitted to it. -/
theorem inbox_only_admitted (H : Digest) (U : UnicodeTables) (s : IngestionState F T)
    (keySecrets : Fields F) (current : T) (actions : List (IngestionAction F T)) :
    ∀ f ∈ ((ingestionServer F T H U).run (s.restart H keySecrets current) actions).publication.inboxes.rows,
      f ∈ s.publication.inboxes.rows ∨
        Admitted H U (s.restart H keySecrets current) actions f.directory f.bytes ∧
          f.stem = evidenceIdOf H f.bytes :=
  (provenance_run H U rfl rfl actions).publication.files

end Admission

/-! ### An admitted posture -/

/-- The secret of a workstation's key. -/
def workstationSecrets : Fields Tick := [(lit "ws-001-v1", .str (lit "key"))]

def workstationPosture : Bytes :=
  (lit "\x7b\"schema_version\":\"1.0\",\"collected_at\":\"2026-10-01T12:00:00Z\",\"asset_id\":\"WS-001\",\"hostname\":\"ws-001\",\"bitlocker_system_drive\":true,\"firewall_all_profiles_enabled\":true,\"defender_realtime_enabled\":true,\"days_since_last_update\":3\x7d").map
    (UInt8.ofNat ·.val)

/-- The posture of a workstation, signed with its key. -/
def signedPosture : Post where
  path := lit "/v1/posture"
  contentType := lit "application/json"
  contentLength := natText workstationPosture.length
  timestamp := lit "1000"
  nonce := lit "nonce-1234567890"
  authorization := lit "HMAC ws-001-v1:" ++ hmacHex sha256 [0x6B, 0x65, 0x79]
    ((lit "1000\nnonce-1234567890\n").map (UInt8.ofNat ·.val) ++ workstationPosture)
  stream := workstationPosture

/-- Nothing was published and no key registered before. -/
def newServer : IngestionState Tick ℤ :=
  ⟨[], Table.empty, NonceStore.init maxClockSkewSeconds true, [], PublicationState.empty⟩

def postureSent : List (IngestionAction Tick ℤ) :=
  [.registry (.register ⟨lit "ws-001", some (lit "ws-001-v1"), some [postureWriteScope], [],
      lit "2026-10-01T11:00:00Z"⟩),
    .post signedPosture, .advance 0 1000, .advance 0 1000, .advance 0 1000,
    .publish (.advance 0 10), .publish (.advance 0 10), .publish (.advance 0 10),
    .publish (.advance 0 10)]

theorem published_postureSent : (((ingestionServer Tick ℤ sha256 asciiTables).run
    (newServer.restart sha256 workstationSecrets 5) postureSent).publication.inboxes.rows.any
      fun f => f.directory = .posture && f.bytes == workstationPosture) = true := by
  decide +kernel

theorem inbox_only_admitted_posture : Admitted sha256 asciiTables
    (newServer.restart sha256 workstationSecrets 5) postureSent .posture workstationPosture := by
  obtain ⟨f, hf, hfile⟩ := List.any_eq_true.mp published_postureSent
  rw [Bool.and_eq_true, decide_eq_true_eq, beq_iff_eq] at hfile
  obtain ⟨hdirectory, hbytes⟩ := hfile
  rcases inbox_only_admitted sha256 asciiTables newServer workstationSecrets 5 postureSent f hf with
    hfound | ⟨hadmitted, -⟩
  · exact absurd hfound List.not_mem_nil
  · rw [hdirectory, hbytes] at hadmitted
    exact hadmitted

end SentinelGRC.Ingestion
