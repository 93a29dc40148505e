import SentinelGRC.Ingestion.NonceStore
import SentinelGRC.Python.Decimal
import SentinelGRC.Python.Hashlib
import SentinelGRC.Transition.Machine
import Mathlib.Data.Rat.Floor

/-!
Request authentication of the ingestion API. The freshness window is symmetric
around the server clock while a nonce lives from the acceptance of its request, so
a request signed for the server's present or future outlives its nonce: it is
fenced for as long as it stays fresh exactly when its timestamp lies in the past by
more than the difference of the two lifetimes.
-/

namespace SentinelGRC.Ingestion

open Python Transition

/-! ### Headers -/

/-- The class `[A-Za-z0-9_-]`. -/
def isNonceChar (c : CodePoint) : Bool :=
  (0x41 ≤ c.val && c.val ≤ 0x5A) || (0x61 ≤ c.val && c.val ≤ 0x7A) || isDigit c ||
    c == ofChar '_' || c == ofChar '-'

/-- The class `[A-Za-z0-9._-]`. -/
def isKeyIdChar (c : CodePoint) : Bool := isNonceChar c || c == ofChar '.'

/-- `NONCE_PATTERN.fullmatch`. -/
def matchesNonce (t : Text) : Bool := t.all isNonceChar && 16 ≤ t.length && t.length ≤ 64

/-- `KEY_ID_PATTERN.fullmatch`. -/
def matchesKeyId (t : Text) : Bool := t.all isKeyIdChar && 1 ≤ t.length && t.length ≤ 128

def matchesSignature (t : Text) : Bool := t.all isLowerHex && t.length == 64

/-- The key id and the signature of an `Authorization` header. -/
def parseAuthorization (value : Text) : Except PyError (Text × Text) :=
  if value.take 5 ≠ lit "HMAC " then .error (.valueError (lit "Missing HMAC authorization."))
  else
    let credential := strip (value.drop 5)
    if ofChar ':' ∉ credential then .error (.valueError (lit "Key ID is required."))
    else
      let keyId := credential.takeWhile (· ≠ ofChar ':')
      let signature := (credential.dropWhile (· ≠ ofChar ':')).tail
      if matchesKeyId keyId && matchesSignature signature then .ok (keyId, signature)
      else .error (.valueError (lit "Invalid HMAC credential."))

def makeSignature (H : Digest) (secret : Bytes) (timestamp nonce : Text) (body : Bytes) :
    Except PyError Text := do
  let timestamp ← encodeUtf8 timestamp
  let nonce ← encodeUtf8 nonce
  return hmacHex H secret (timestamp ++ [0xA] ++ nonce ++ [0xA] ++ body)

/-! ### Authentication -/

/-- `IngestionError` with its HTTP status, or an exception of the interpreter. -/
inductive AuthError
  | ingestionError (message : Text) (status : ℕ)
  | python (error : PyError)
  deriving DecidableEq

def unauthorized (message : String) : AuthError := .ingestionError (lit message) 401

/-- The arguments of `authenticate_request` and the clock it reads. -/
structure Call where
  secret : Bytes
  authorization : Text
  timestamp : Text
  nonce : Text
  body : Bytes
  now : ℚ

/-- `int` of a clock value: toward zero. -/
def truncate (q : ℚ) : ℤ := if 0 ≤ q then ⌊q⌋ else ⌈q⌉

/-- The message of a caught `ValueError`. -/
def errorText : PyError → Text
  | .valueError m => m
  | _ => []

def Call.current (c : Call) : ℤ := truncate c.now

/-- The checks that do not read the clock. -/
def verifyCredential (H : Digest) (secret : Bytes) (authorization timestamp nonce : Text)
    (body : Bytes) : Except AuthError Unit :=
  if ¬ matchesNonce nonce then .error (unauthorized "Invalid nonce.")
  else match parseAuthorization authorization with
    | .error e => .error (.ingestionError (errorText e) 401)
    | .ok (_, supplied) =>
      match makeSignature H secret timestamp nonce body with
      | .error e => .error (.python e)
      | .ok expected =>
        if supplied ≠ expected then .error (unauthorized "Invalid signature.") else .ok ()

/-- The checks up to the signature. -/
def verifyRequest (H : Digest) (c : Call) : Except AuthError Unit :=
  match pyInt c.timestamp with
  | none => .error (unauthorized "Invalid timestamp.")
  | some requestTime =>
    if |c.current - requestTime| > maxClockSkewSeconds then
      .error (unauthorized "Timestamp outside replay window.")
    else verifyCredential H c.secret c.authorization c.timestamp c.nonce c.body

def authenticateRequest (H : Digest) (s : NonceStore) (c : Call) :
    NonceStore × Except AuthError Unit :=
  match verifyRequest H c with
  | .error e => (s, .error e)
  | .ok () =>
    match s.reserve c.nonce c.current with
    | (s, true) => (s, .ok ())
    | (s, false) => (s, .error (unauthorized "Replay detected."))

/-- The API's authentication, sharing one nonce store among all calls. -/
def authentication (H : Digest) : Machine NonceStore Call (Except AuthError Unit) where
  step := authenticateRequest H

/-- A call that ends in `IngestionError`. -/
def Refused (r : Except AuthError Unit) : Prop :=
  ∃ message status, r = .error (.ingestionError message status)

/-- Call times that never decrease. -/
def Nondecreasing (calls : List Call) : Prop := calls.Pairwise fun a b => a.now ≤ b.now

/-- The same signed request: timestamp, nonce, body and signature. -/
structure SameRequest (c d : Call) : Prop where
  timestamp : d.timestamp = c.timestamp
  nonce : d.nonce = c.nonce
  body : d.body = c.body
  signature : (parseAuthorization d.authorization).map Prod.snd =
    (parseAuthorization c.authorization).map Prod.snd

/-- After `calls` and then `c` no call ever passes with the same signed request. -/
def NeverReplayed (H : Digest) (ttlSeconds : ℤ) (dbPath : Bool) (calls : List Call) (c : Call) :
    Prop :=
  ∀ later d, Nondecreasing (calls ++ c :: later ++ [d]) → SameRequest c d →
    Refused ((authentication H).answer ((authentication H).run
      (NonceStore.init ttlSeconds dbPath) (calls ++ c :: later)) d)

/-- The request goes stale before its nonce does. -/
def NonceOutlives (ttlSeconds : ℤ) (c : Call) : Prop :=
  ∃ requestTime, pyInt c.timestamp = some requestTime ∧
    requestTime + maxClockSkewSeconds < c.current + ttlSeconds

/-! ### One call -/

variable {H : Digest}

theorem truncate_intCast (z : ℤ) : truncate z = z := by
  unfold truncate
  split_ifs <;> simp

theorem truncate_mono {p q : ℚ} (h : p ≤ q) : truncate p ≤ truncate q := by
  unfold truncate
  split_ifs with hp hq hq
  · exact Int.floor_mono h
  · exact absurd (hp.trans h) hq
  · exact (Int.ceil_nonpos.mpr (not_le.mp hp).le).trans (Int.floor_nonneg.mpr hq)
  · exact Int.ceil_mono h

theorem le_truncate_add_one (q : ℚ) : q ≤ truncate q + 1 := by
  unfold truncate
  split_ifs
  · exact (Int.lt_floor_add_one q).le
  · exact (Int.le_ceil q).trans (by linarith)

theorem verifyRequest_eq_ok {c : Call} : verifyRequest H c = .ok () ↔
    (∃ requestTime, pyInt c.timestamp = some requestTime ∧
      |c.current - requestTime| ≤ maxClockSkewSeconds) ∧
    verifyCredential H c.secret c.authorization c.timestamp c.nonce c.body = .ok () := by
  unfold verifyRequest
  cases pyInt c.timestamp with
  | none => simp
  | some requestTime =>
    by_cases hskew : |c.current - requestTime| > maxClockSkewSeconds
    · have hstale : ¬ |c.current - requestTime| ≤ maxClockSkewSeconds := not_le.mpr hskew
      simp [hskew, hstale]
    · simp [hskew, not_lt.mp hskew]

theorem makeSignature_eq_ok (H : Digest) (secret : Bytes) {timestamp nonce : Text} (body : Bytes)
    (ht : Scalar timestamp) (hn : Scalar nonce) :
    ∃ signature, makeSignature H secret timestamp nonce body = .ok signature := by
  obtain ⟨ts, hts⟩ : ∃ b, encodeUtf8 timestamp = .ok b := ⟨_, encodeUtf8_eq_ok.mpr ⟨ht, rfl⟩⟩
  obtain ⟨ns, hns⟩ : ∃ b, encodeUtf8 nonce = .ok b := ⟨_, encodeUtf8_eq_ok.mpr ⟨hn, rfl⟩⟩
  exact ⟨_, by rw [makeSignature, hts, hns]; rfl⟩

theorem makeSignature_scalar {secret : Bytes} {timestamp nonce : Text} {body : Bytes}
    {signature : Text} (h : makeSignature H secret timestamp nonce body = .ok signature) :
    Scalar timestamp ∧ Scalar nonce := by
  unfold makeSignature at h
  cases ht : encodeUtf8 timestamp with
  | error e => rw [ht] at h; cases h
  | ok ts =>
    cases hn : encodeUtf8 nonce with
    | error e => rw [ht, hn] at h; cases h
    | ok ns => exact ⟨(encodeUtf8_eq_ok.mp ht).1, (encodeUtf8_eq_ok.mp hn).1⟩

theorem verifyCredential_scalar {secret : Bytes} {authorization timestamp nonce : Text}
    {body : Bytes} (h : verifyCredential H secret authorization timestamp nonce body = .ok ()) :
    Scalar timestamp ∧ Scalar nonce := by
  unfold verifyCredential at h
  split_ifs at h
  cases hp : parseAuthorization authorization with
  | error e => rw [hp] at h; cases h
  | ok p =>
    cases hs : makeSignature H secret timestamp nonce body with
    | error e => rw [hp, hs] at h; cases h
    | ok expected => exact makeSignature_scalar hs

theorem verifyCredential_refused {secret : Bytes} {authorization timestamp nonce : Text}
    {body : Bytes} (ht : Scalar timestamp) (hn : Scalar nonce)
    (h : verifyCredential H secret authorization timestamp nonce body ≠ .ok ()) :
    Refused (verifyCredential H secret authorization timestamp nonce body) := by
  obtain ⟨expected, hs⟩ := makeSignature_eq_ok H secret body ht hn
  unfold verifyCredential at h ⊢
  rw [hs] at h ⊢
  split_ifs at h ⊢
  · cases hp : parseAuthorization authorization with
    | error e => exact ⟨_, _, rfl⟩
    | ok p =>
      rw [hp] at h
      simp only at h ⊢
      split_ifs at h ⊢
      · exact ⟨_, _, rfl⟩
      · exact absurd rfl h
  · exact ⟨_, _, rfl⟩

/-- Text that encodes raises nothing but `IngestionError`. -/
theorem verifyRequest_refused {c : Call} (ht : Scalar c.timestamp) (hn : Scalar c.nonce)
    (h : verifyRequest H c ≠ .ok ()) : Refused (verifyRequest H c) := by
  unfold verifyRequest at h ⊢
  cases hts : pyInt c.timestamp with
  | none => exact ⟨_, _, rfl⟩
  | some requestTime =>
    rw [hts] at h
    simp only at h ⊢
    split_ifs at h ⊢
    · exact ⟨_, _, rfl⟩
    · exact verifyCredential_refused ht hn h

theorem answer_eq_ok {s : NonceStore} {c : Call} :
    (authentication H).answer s c = .ok () ↔
      verifyRequest H c = .ok () ∧ ¬ s.Live c.nonce c.current := by
  rw [← NonceStore.reserve_eq_false, Bool.not_eq_false]
  change (authenticateRequest H s c).2 = _ ↔ _
  unfold authenticateRequest
  cases hv : verifyRequest H c with
  | error e => simp
  | ok =>
    rcases s.reserve c.nonce c.current with ⟨u, _ | _⟩
    · simp
    · simp

theorem answer_refused {s : NonceStore} {c : Call} (ht : Scalar c.timestamp) (hn : Scalar c.nonce)
    (h : (authentication H).answer s c ≠ .ok ()) : Refused ((authentication H).answer s c) := by
  change Refused (authenticateRequest H s c).2
  change (authenticateRequest H s c).2 ≠ _ at h
  unfold authenticateRequest at h ⊢
  cases hv : verifyRequest H c with
  | error e =>
    have hr := verifyRequest_refused ht hn (H := H) (by rw [hv]; simp)
    rwa [hv] at hr
  | ok =>
    rw [hv] at h
    simp only at h ⊢
    rcases hr : s.reserve c.nonce c.current with ⟨u, _ | _⟩
    · exact ⟨_, _, rfl⟩
    · rw [hr] at h
      exact absurd rfl h

/-- A call reserves its nonce or leaves the store alone. -/
theorem next_cases (s : NonceStore) (c : Call) :
    (authentication H).next s c = s ∨
      (authentication H).next s c = (s.reserve c.nonce c.current).1 := by
  change (authenticateRequest H s c).1 = _ ∨ (authenticateRequest H s c).1 = _
  unfold authenticateRequest
  cases verifyRequest H c with
  | error e => exact .inl rfl
  | ok =>
    rcases s.reserve c.nonce c.current with ⟨u, _ | _⟩
    · exact .inr rfl
    · exact .inr rfl

theorem next_of_ok {s : NonceStore} {c : Call} (h : verifyRequest H c = .ok ()) :
    (authentication H).next s c = (s.reserve c.nonce c.current).1 := by
  change (authenticateRequest H s c).1 = _
  unfold authenticateRequest
  rw [h]
  rcases s.reserve c.nonce c.current with ⟨u, _ | _⟩
  · rfl
  · rfl

/-! ### Runs -/

/-- A nonce refused from time `t` until `expiry`. -/
def Fenced (nonce : Text) (expiry t : ℤ) (s : NonceStore) : Prop :=
  ∀ t', t ≤ t' → t' < expiry → s.Live nonce t'

theorem Fenced.reserve {nonce : Text} {expiry t : ℤ} {s : NonceStore} {n : Text} {now : ℤ}
    (h : Fenced nonce expiry t s) (hnow : t ≤ now) :
    Fenced nonce expiry now (s.reserve n now).1 := by
  intro t' ht he
  rw [NonceStore.live_reserve nonce ht]
  split_ifs with hn
  · -- a live nonce is not reserved again before it expires
    exact absurd (h now hnow (by omega)) (hn.1 ▸ hn.2)
  · exact h t' (hnow.trans ht) he

theorem Fenced.next {nonce : Text} {expiry t : ℤ} {s : NonceStore} {c : Call}
    (h : Fenced nonce expiry t s) (hnow : t ≤ c.current) :
    Fenced nonce expiry c.current ((authentication H).next s c) := by
  rcases next_cases (H := H) s c with hs | hs
  · rw [hs]
    exact fun t' ht he => h t' (hnow.trans ht) he
  · rw [hs]
    exact h.reserve hnow

/-- A fence stands through every call made after it was put up. -/
theorem Fenced.run {nonce : Text} {expiry t : ℤ} {calls : List Call} {d : Call}
    (hclock : Nondecreasing (calls ++ [d])) (ht : ∀ c ∈ calls ++ [d], t ≤ c.current) :
    ∀ {s : NonceStore}, Fenced nonce expiry t s →
      Fenced nonce expiry d.current ((authentication H).run s calls) := by
  induction calls generalizing t with
  | nil =>
    intro s h t' htt he
    exact h t' ((ht d (by simp)).trans htt) he
  | cons c calls ih =>
    intro s h
    have hp := List.pairwise_cons.mp hclock
    refine ih hp.2 (fun e he => ?_) (h.next (ht c (by simp)))
    exact truncate_mono (hp.1 e he)

theorem ttlSeconds_run (s : NonceStore) (calls : List Call) :
    ((authentication H).run s calls).ttlSeconds = s.ttlSeconds := by
  apply Machine.run_invariant (I := fun u : NonceStore => u.ttlSeconds = s.ttlSeconds)
  · intro u c hu
    rcases next_cases (H := H) u c with h | h
    · rw [h, hu]
    · rw [h, NonceStore.ttlSeconds_reserve, hu]
  · rfl

/-- The fence an accepted call puts up. -/
theorem fenced_of_accepted {s : NonceStore} {c : Call}
    (h : (authentication H).answer s c = .ok ()) :
    Fenced c.nonce (c.current + s.ttlSeconds) c.current ((authentication H).next s c) := by
  obtain ⟨hv, hlive⟩ := answer_eq_ok.mp h
  intro t ht he
  rw [next_of_ok hv, NonceStore.live_reserve c.nonce ht, if_pos ⟨rfl, hlive⟩]
  exact he

theorem refused_of_outlives {s : NonceStore} {c d : Call} {calls : List Call}
    (hacc : (authentication H).answer s c = .ok ()) (hout : NonceOutlives s.ttlSeconds c)
    (hclock : Nondecreasing (c :: calls ++ [d])) (hsame : SameRequest c d) :
    Refused ((authentication H).answer ((authentication H).run s (c :: calls)) d) := by
  obtain ⟨hv, -⟩ := answer_eq_ok.mp hacc
  obtain ⟨hts, hns⟩ := verifyCredential_scalar (verifyRequest_eq_ok.mp hv).2
  refine answer_refused (by rw [hsame.timestamp]; exact hts) (by rw [hsame.nonce]; exact hns) ?_
  intro hok
  obtain ⟨hvd, hlive⟩ := answer_eq_ok.mp hok
  obtain ⟨⟨requestTime, hr, hfresh⟩, -⟩ := verifyRequest_eq_ok.mp hvd
  obtain ⟨requestTime', hr', hlt⟩ := hout
  rw [hsame.timestamp, hr'] at hr
  obtain rfl := Option.some.inj hr
  have hp := List.pairwise_cons.mp hclock
  have hfence := (fenced_of_accepted hacc).run (H := H) hp.2 fun e he => truncate_mono (hp.1 e he)
  have habs := abs_le.mp hfresh
  apply hlive
  rw [hsame.nonce]
  exact hfence d.current le_rfl (by omega)

/-- The first time at which the nonce of an accepted call is free again. -/
def Call.replay (c : Call) (ttlSeconds : ℤ) : Call :=
  { c with now := if ttlSeconds ≤ 0 then c.now else ((c.current + ttlSeconds : ℤ) : ℚ) }

theorem replay_eq (c : Call) (ttl : ℤ) : c.replay ttl = { c with now := (c.replay ttl).now } := by
  unfold Call.replay
  rfl

theorem now_le_replay (c : Call) (ttl : ℤ) : c.now ≤ (c.replay ttl).now := by
  unfold Call.replay
  split_ifs with h
  · exact le_rfl
  · have h1 := le_truncate_add_one c.now
    have h2 : (c.current : ℚ) + 1 ≤ (c.current + ttl : ℤ) := by exact_mod_cast (by omega)
    exact h1.trans h2

theorem current_replay (c : Call) (ttl : ℤ) :
    (c.replay ttl).current = if ttl ≤ 0 then c.current else c.current + ttl := by
  unfold Call.replay Call.current
  split_ifs
  · rfl
  · exact truncate_intCast _

theorem replay_accepted {s : NonceStore} {c : Call}
    (hacc : (authentication H).answer s c = .ok ()) (hout : ¬ NonceOutlives s.ttlSeconds c) :
    (authentication H).answer ((authentication H).next s c) (c.replay s.ttlSeconds) = .ok () := by
  obtain ⟨hv, hlive⟩ := answer_eq_ok.mp hacc
  have hcur := current_replay c s.ttlSeconds
  have hle : c.current ≤ (c.replay s.ttlSeconds).current := by
    rw [hcur]
    split_ifs <;> omega
  rw [answer_eq_ok]
  constructor
  · obtain ⟨⟨r, hr, hfresh⟩, hcred⟩ := verifyRequest_eq_ok.mp hv
    refine verifyRequest_eq_ok.mpr ⟨⟨r, hr, ?_⟩, hcred⟩
    have hstale : ¬ r + maxClockSkewSeconds < c.current + s.ttlSeconds :=
      fun h => hout ⟨r, hr, h⟩
    rw [abs_le] at hfresh ⊢
    rw [hcur]
    split_ifs <;> omega
  · rw [show (c.replay s.ttlSeconds).nonce = c.nonce by rw [replay_eq], next_of_ok hv,
       NonceStore.live_reserve c.nonce hle, if_pos ⟨rfl, hlive⟩, hcur, Clock.after_int]
    split_ifs <;> omega

theorem not_neverReplayed {ttlSeconds : ℤ} {dbPath : Bool} {calls : List Call} {c : Call}
    (hclock : Nondecreasing (calls ++ [c]))
    (hacc : (authentication H).answer
      ((authentication H).run (NonceStore.init ttlSeconds dbPath) calls) c = .ok ())
    (hout : ¬ NonceOutlives ttlSeconds c) : ¬ NeverReplayed H ttlSeconds dbPath calls c := by
  intro h
  have httl : ((authentication H).run (NonceStore.init ttlSeconds dbPath) calls).ttlSeconds =
      ttlSeconds := ttlSeconds_run _ _
  have hreplay := replay_accepted hacc (by rwa [httl])
  rw [httl] at hreplay
  have hnondec : Nondecreasing (calls ++ c :: [] ++ [c.replay ttlSeconds]) := by
    unfold Nondecreasing at hclock ⊢
    rw [List.pairwise_append]
    refine ⟨hclock, by simp, fun a ha b hb => ?_⟩
    obtain rfl := List.mem_singleton.mp hb
    rcases List.mem_append.mp ha with ha | ha
    · exact ((List.pairwise_append.mp hclock).2.2 a ha c (by simp)).trans (now_le_replay c _)
    · obtain rfl := List.mem_singleton.mp ha
      exact now_le_replay a _
  obtain ⟨m, status, hm⟩ := h [] (c.replay ttlSeconds) hnondec ⟨rfl, rfl, rfl, rfl⟩
  rw [Machine.run_concat, hreplay] at hm
  cases hm

/-- An accepted request is refused from then on, whatever else is called,
exactly when it goes stale before its nonce expires. -/
theorem replay_refused_iff (H : Digest) (ttlSeconds : ℤ) (dbPath : Bool) (calls : List Call)
    (c : Call) (hclock : Nondecreasing (calls ++ [c]))
    (haccepted : (authentication H).answer
      ((authentication H).run (NonceStore.init ttlSeconds dbPath) calls) c = .ok ()) :
    NeverReplayed H ttlSeconds dbPath calls c ↔ NonceOutlives ttlSeconds c := by
  constructor
  · intro h
    by_contra hout
    exact not_neverReplayed hclock haccepted hout h
  · intro hout later d hd hsame
    rw [Machine.run_append]
    refine refused_of_outlives haccepted (by rwa [ttlSeconds_run]) ?_ hsame
    unfold Nondecreasing at hd
    rw [List.append_assoc, List.pairwise_append] at hd
    exact hd.2.1

/-! ### One request of an agent -/

/-- The request signed for second 1000, received at a given time. -/
def agentRequest (now : ℚ) : Call where
  secret := [0x6B, 0x65, 0x79]
  authorization := lit "HMAC ws-001-v1:" ++
    hmacHex sha256 [0x6B, 0x65, 0x79] ((lit "1000\nnonce-1234567890\n{}").map (UInt8.ofNat ·.val))
  timestamp := lit "1000"
  nonce := lit "nonce-1234567890"
  body := [0x7B, 0x7D]
  now

theorem agentRequest_timestamp : pyInt (lit "1000") = some 1000 := by decide

theorem agentRequest_accepted {now : ℤ} (h : |now - 1000| ≤ maxClockSkewSeconds) (dbPath : Bool) :
    (authentication sha256).answer (NonceStore.init maxClockSkewSeconds dbPath)
      (agentRequest now) = .ok () := by
  have hcur : (agentRequest now).current = now := truncate_intCast now
  have hcred : verifyCredential sha256 (agentRequest 0).secret (agentRequest 0).authorization
      (agentRequest 0).timestamp (agentRequest 0).nonce (agentRequest 0).body = .ok () := by
    decide +kernel
  rw [answer_eq_ok, verifyRequest_eq_ok, hcur]
  refine ⟨⟨⟨1000, agentRequest_timestamp, h⟩, hcred⟩, ?_⟩
  rintro ⟨_, hr, -⟩
  cases dbPath
  · simp [NonceStore.lookup, NonceStore.init] at hr
  · simp [NonceStore.lookup, NonceStore.init] at hr

theorem replay_refused_iff_late :
    NeverReplayed sha256 maxClockSkewSeconds true [] (agentRequest (1001 : ℤ)) := by
  have hcur : (agentRequest (1001 : ℤ)).current = 1001 := truncate_intCast 1001
  rw [replay_refused_iff sha256 maxClockSkewSeconds true [] (agentRequest (1001 : ℤ))
    (by simp [Nondecreasing]) (agentRequest_accepted (by decide) true)]
  exact ⟨1000, agentRequest_timestamp, by rw [hcur]; decide⟩

/-- Accepted in the second it was signed for, the request passes again 300 seconds
later, with either store. -/
theorem replay_accepted_at_expiry :
    (authentication sha256).answer (NonceStore.init maxClockSkewSeconds false)
        (agentRequest (1000 : ℤ)) = .ok () ∧
      ¬ NeverReplayed sha256 maxClockSkewSeconds false [] (agentRequest (1000 : ℤ)) ∧
    (authentication sha256).answer (NonceStore.init maxClockSkewSeconds true)
        (agentRequest (1000 : ℤ)) = .ok () ∧
      ¬ NeverReplayed sha256 maxClockSkewSeconds true [] (agentRequest (1000 : ℤ)) := by
  have hout : ¬ NonceOutlives maxClockSkewSeconds (agentRequest (1000 : ℤ)) := by
    rintro ⟨r, hr, hlt⟩
    have hcur : (agentRequest (1000 : ℤ)).current = 1000 := truncate_intCast 1000
    obtain rfl := Option.some.inj (agentRequest_timestamp.symm.trans hr)
    rw [hcur] at hlt
    exact absurd hlt (by decide)
  have hclock : Nondecreasing ([] ++ [agentRequest (1000 : ℤ)]) := by simp [Nondecreasing]
  have hacc := agentRequest_accepted (show |(1000 : ℤ) - 1000| ≤ _ by decide)
  exact ⟨hacc false, not_neverReplayed hclock (hacc false) hout,
    hacc true, not_neverReplayed hclock (hacc true) hout⟩

end SentinelGRC.Ingestion
