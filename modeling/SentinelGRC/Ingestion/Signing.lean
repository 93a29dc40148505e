import SentinelGRC.Ingestion.Authenticate
import SentinelGRC.Python.TextLines

/-!
The message that a request signs: its timestamp, its nonce and its body, each of the
first two ended by a line break. The timestamp is any text that `int` reads, line
breaks around its digits included, so the first break in the message need not be the
one that ends it. Still no two requests sign the same message: past a timestamp and
its break comes a nonce, and no text that goes on into the nonce is read by `int`.
-/

namespace SentinelGRC.Ingestion

open Python Transition

/-- What `make_signature` hashes. -/
def signedMessage (timestamp nonce : Text) (body : Bytes) : Except PyError Bytes := do
  let timestamp ← encodeUtf8 timestamp
  let nonce ← encodeUtf8 nonce
  return timestamp ++ [0xA] ++ nonce ++ [0xA] ++ body

theorem makeSignature_eq (H : Digest) (secret : Bytes) (timestamp nonce : Text) (body : Bytes) :
    makeSignature H secret timestamp nonce body =
      (signedMessage timestamp nonce body).map (hmacHex H secret) := by
  unfold makeSignature signedMessage
  cases encodeUtf8 timestamp with
  | error e => rfl
  | ok ts =>
    cases encodeUtf8 nonce with
    | error e => rfl
    | ok ns => rfl

def Call.signedMessage (c : Call) : Except PyError Bytes :=
  Ingestion.signedMessage c.timestamp c.nonce c.body

/-- What a signature is about. -/
def Call.triple (c : Call) : Text × Text × Bytes := (c.timestamp, c.nonce, c.body)

/-- A request that passes the checks before the signature, for some clock. -/
structure Acceptable (c : Call) : Prop where
  timestamp : (pyInt c.timestamp).isSome = true
  nonce : matchesNonce c.nonce = true

/-- The signatures of two requests are the same for the same messages only. -/
def SignsApart (H : Digest) (c d : Call) : Prop :=
  ∀ m n, c.signedMessage = .ok m → d.signedMessage = .ok n →
    hmacHex H c.secret m = hmacHex H d.secret n → m = n

/-! ### Nonces -/

theorem isNonceChar_bounds {c : CodePoint} (h : isNonceChar c = true) : 0x2D ≤ c.val ∧ c.val ≤ 0x7A := by
  simp only [isNonceChar, Bool.or_eq_true, Bool.and_eq_true, decide_eq_true_eq, beq_iff_eq,
    isDigit_iff] at h
  rcases h with (((h | h) | h) | rfl) | rfl
  · omega
  · omega
  · omega
  · decide
  · decide

theorem isIntSpace_nonceChar {c : CodePoint} (h : isNonceChar c = true) : isIntSpace c = false := by
  have hbounds := isNonceChar_bounds h
  simp only [isIntSpace, Bool.or_eq_false_iff, Bool.and_eq_false_imp, decide_eq_true_eq,
    decide_eq_false_iff_not, beq_eq_false_iff_ne]
  omega

theorem newline_ne_nonceChar {c : CodePoint} (h : isNonceChar c = true) : c ≠ 0xA := by
  rintro rfl
  exact absurd h (by decide)

/-- A nonce starts with a character of its class. -/
theorem head_of_matchesNonce {nonce : Text} (h : matchesNonce nonce = true) :
    ∃ c rest, nonce = c :: rest ∧ isNonceChar c = true ∧ ∀ d ∈ rest, isNonceChar d = true := by
  simp only [matchesNonce, Bool.and_eq_true, List.all_eq_true, decide_eq_true_eq] at h
  obtain ⟨⟨hall, hlong⟩, -⟩ := h
  cases nonce with
  | nil => exact absurd hlong (by decide)
  | cons c rest =>
    exact ⟨c, rest, rfl, hall c List.mem_cons_self, fun d hd => hall d (List.mem_cons_of_mem _ hd)⟩

/-! ### Splitting a message -/

theorem encodeUtf8_newline : encodeUtf8 [0xA] = .ok [0xA] := by rfl

/-- A break starts the bytes of a text only as its first character. -/
theorem head_of_newline {t : Text} {b z : Bytes} (ht : encodeUtf8 t = .ok b) (hb : b = 0xA :: z) :
    ∃ rest, t = 0xA :: rest ∧ encodeUtf8 rest = .ok z :=
  encodeUtf8_prefix encodeUtf8_newline ht hb

/-- The first characters of two texts whose bytes continue in the same way. -/
theorem head_eq {c d : CodePoint} {s t : Text} {a b x y : Bytes}
    (hs : encodeUtf8 (c :: s) = .ok a) (ht : encodeUtf8 (d :: t) = .ok b) (h : a ++ x = b ++ y) :
    c = d ∧ ∃ a' b', encodeUtf8 s = .ok a' ∧ encodeUtf8 t = .ok b' ∧ a' ++ x = b' ++ y := by
  obtain ⟨hc, a', ha', rfl⟩ := encodeUtf8_cons.mp hs
  obtain ⟨hd, b', hb', rfl⟩ := encodeUtf8_cons.mp ht
  rw [List.append_assoc, List.append_assoc] at h
  obtain ⟨hchar, hrest⟩ := toChar_utf8EncodeChar_append h
  exact ⟨by rw [← ofChar_toChar hc, ← ofChar_toChar hd, hchar], a', b', ha', hb', hrest⟩

/-- Two lines without breaks of their own, each ended by one, are told apart by their bytes. -/
theorem line_injective {s : Text} : ∀ {t : Text} {a b x y : Bytes}, (0xA : CodePoint) ∉ s →
    (0xA : CodePoint) ∉ t → encodeUtf8 s = .ok a → encodeUtf8 t = .ok b →
    a ++ 0xA :: x = b ++ 0xA :: y → s = t ∧ x = y := by
  induction s with
  | nil =>
    intro t a b x y _ hnt hs ht h
    cases t with
    | nil =>
      obtain ⟨-, rfl⟩ := encodeUtf8_eq_ok.mp hs
      obtain ⟨-, rfl⟩ := encodeUtf8_eq_ok.mp ht
      exact ⟨rfl, (List.cons.inj h).2⟩
    | cons d t =>
      obtain ⟨-, rfl⟩ := encodeUtf8_eq_ok.mp hs
      obtain ⟨hd, -⟩ := head_eq (x := x) encodeUtf8_newline ht h
      exact absurd (hd ▸ List.mem_cons_self) hnt
  | cons c s ih =>
    intro t a b x y hns hnt hs ht h
    cases t with
    | nil =>
      obtain ⟨-, rfl⟩ := encodeUtf8_eq_ok.mp ht
      obtain ⟨hc, -⟩ := head_eq (y := y) hs encodeUtf8_newline h
      exact absurd (hc ▸ List.mem_cons_self) hns
    | cons d t =>
      obtain ⟨rfl, a', b', ha', hb', hrest⟩ := head_eq hs ht h
      obtain ⟨rfl, hxy⟩ := ih (fun hm => hns (List.mem_cons_of_mem _ hm))
        (fun hm => hnt (List.mem_cons_of_mem _ hm)) ha' hb' hrest
      exact ⟨rfl, hxy⟩

/-- No timestamp that `int` reads goes on past the break that ends another. -/
theorem timestamp_ends {time time' nonce : Text} {t t' n z x y : Bytes} {v v' : ℤ}
    (htime : pyInt time = some v) (htime' : pyInt time' = some v')
    (hnonce : matchesNonce nonce = true) (ht : encodeUtf8 time = .ok t)
    (ht' : encodeUtf8 time' = .ok t') (hn : encodeUtf8 nonce = .ok n) (hz : t' = t ++ z)
    (h : 0xA :: (n ++ x) = z ++ 0xA :: y) : z = [] := by
  cases z with
  | nil => rfl
  | cons b z =>
    exfalso
    obtain ⟨rfl, hafter⟩ := List.cons.inj h
    obtain ⟨more, rfl, hmore⟩ := encodeUtf8_prefix ht ht' hz
    obtain ⟨rest, rfl, hrest⟩ := head_of_newline hmore rfl
    obtain ⟨c, nonce, rfl, hc, -⟩ := head_of_matchesNonce hnonce
    cases rest with
    | nil =>
      obtain ⟨-, rfl⟩ := encodeUtf8_eq_ok.mp hrest
      obtain ⟨hbreak, -⟩ := head_eq (y := y) hn encodeUtf8_newline hafter
      exact newline_ne_nonceChar hc hbreak
    | cons d rest =>
      obtain ⟨rfl, -⟩ := head_eq hn hrest hafter
      rw [pyInt_append_newline htime (isIntSpace_nonceChar hc)] at htime'
      cases htime'

theorem newline_not_mem_nonce {nonce : Text} (h : matchesNonce nonce = true) :
    (0xA : CodePoint) ∉ nonce := by
  obtain ⟨c, rest, rfl, hc, hrest⟩ := head_of_matchesNonce h
  intro hmem
  rcases List.mem_cons.mp hmem with heq | hmem
  · exact newline_ne_nonceChar hc heq.symm
  · exact newline_ne_nonceChar (hrest _ hmem) rfl

theorem signedMessage_eq_ok {c : Call} {m : Bytes} : c.signedMessage = .ok m ↔
    ∃ t n, encodeUtf8 c.timestamp = .ok t ∧ encodeUtf8 c.nonce = .ok n ∧
      m = t ++ 0xA :: (n ++ 0xA :: c.body) := by
  rw [Call.signedMessage, signedMessage]
  constructor
  · intro h
    obtain ⟨t, ht, h⟩ := bind_eq_ok.mp h
    obtain ⟨n, hn, h⟩ := bind_eq_ok.mp h
    obtain rfl := Except.ok.inj h
    exact ⟨t, n, ht, hn, by simp⟩
  · rintro ⟨t, n, ht, hn, rfl⟩
    refine bind_eq_ok.mpr ⟨t, ht, bind_eq_ok.mpr ⟨n, hn, ?_⟩⟩
    simp [pure, Except.pure]

/-- Acceptable requests that sign the same message are about the same triple. -/
theorem triple_eq_of_signedMessage {c d : Call} (hc : Acceptable c) (hd : Acceptable d) {m : Bytes}
    (hm : c.signedMessage = .ok m) (hm' : d.signedMessage = .ok m) : c.triple = d.triple := by
  obtain ⟨v, hv⟩ := Option.isSome_iff_exists.mp hc.timestamp
  obtain ⟨v', hv'⟩ := Option.isSome_iff_exists.mp hd.timestamp
  obtain ⟨t, n, ht, hn, hmessage⟩ := signedMessage_eq_ok.mp hm
  obtain ⟨t', n', ht', hn', hmessage'⟩ := signedMessage_eq_ok.mp hm'
  have heq : t = t' := by
    rcases List.append_eq_append_iff.mp (hmessage.symm.trans hmessage') with
      ⟨z, hz, hrest⟩ | ⟨z, hz, hrest⟩
    · rw [timestamp_ends hv hv' hc.nonce ht ht' hn hz hrest] at hz
      simpa using hz.symm
    · rw [timestamp_ends hv' hv hd.nonce ht' ht hn' hz hrest] at hz
      simpa using hz
  subst heq
  have htime : c.timestamp = d.timestamp := by
    have hdecode := (decodeUtf8_encodeUtf8 ht).symm.trans (decodeUtf8_encodeUtf8 ht')
    exact Except.ok.inj hdecode
  have hrest := (List.cons.inj (List.append_cancel_left (hmessage.symm.trans hmessage'))).2
  obtain ⟨hnonce, hbody⟩ := line_injective (newline_not_mem_nonce hc.nonce)
    (newline_not_mem_nonce hd.nonce) hn hn' hrest
  rw [Call.triple, Call.triple, htime, hnonce, hbody]

/-! ### Accepted requests -/

variable {H : Digest}

/-- An accepted request carries the signature of its message. -/
theorem signature_of_accepted {store : NonceStore} {c : Call}
    (h : (authentication H).answer store c = .ok ()) :
    Acceptable c ∧ ∃ m, c.signedMessage = .ok m ∧
      (parseAuthorization c.authorization).map Prod.snd = .ok (hmacHex H c.secret m) := by
  obtain ⟨hverify, -⟩ := answer_eq_ok.mp h
  obtain ⟨⟨v, hv, -⟩, hcredential⟩ := verifyRequest_eq_ok.mp hverify
  unfold verifyCredential at hcredential
  split_ifs at hcredential with hnonce
  refine ⟨⟨by rw [hv]; rfl, hnonce⟩, ?_⟩
  cases hauthorization : parseAuthorization c.authorization with
  | error e =>
    rw [hauthorization] at hcredential
    cases hcredential
  | ok credential =>
    rw [hauthorization] at hcredential
    rw [makeSignature_eq] at hcredential
    cases hm : Ingestion.signedMessage c.timestamp c.nonce c.body with
    | error e =>
      rw [hm] at hcredential
      cases hcredential
    | ok m =>
      rw [hm] at hcredential
      simp only [Except.map] at hcredential
      split_ifs at hcredential with hsupplied
      refine ⟨m, hm, ?_⟩
      rw [← not_not.mp hsupplied]
      rfl

/-- Requests that `authenticate_request` can accept sign different messages unless they
are about the same timestamp, nonce and body, and then no signature of the one is
accepted with the other. -/
theorem signing_unambiguous {c d : Call} (hc : Acceptable c) (hd : Acceptable d) :
    (∀ m, c.signedMessage = .ok m → d.signedMessage = .ok m → c.triple = d.triple) ∧
    ∀ (H : Digest) (store store' : NonceStore), SignsApart H c d →
      (authentication H).answer store c = .ok () → (authentication H).answer store' d = .ok () →
      (parseAuthorization c.authorization).map Prod.snd =
        (parseAuthorization d.authorization).map Prod.snd → c.triple = d.triple := by
  refine ⟨fun m hm hm' => triple_eq_of_signedMessage hc hd hm hm', ?_⟩
  intro H store store' hapart haccepted haccepted' hsame
  obtain ⟨-, m, hm, hsignature⟩ := signature_of_accepted haccepted
  obtain ⟨-, m', hm', hsignature'⟩ := signature_of_accepted haccepted'
  rw [hsignature, hsignature'] at hsame
  obtain rfl := hapart m m' hm hm' (Except.ok.inj hsame)
  exact triple_eq_of_signedMessage hc hd hm hm'

/-- The request with a line break of its own after the digits of its timestamp. -/
def brokenRequest : Call := { agentRequest 1000 with timestamp := lit "1000\n" }

theorem signing_unambiguous_broken :
    ¬ ∃ m, (agentRequest 1000).signedMessage = .ok m ∧ brokenRequest.signedMessage = .ok m := by
  rintro ⟨m, hm, hm'⟩
  have htriple := (signing_unambiguous (c := agentRequest 1000) (d := brokenRequest)
    ⟨by decide, by decide⟩ ⟨by decide, by decide⟩).1 m hm hm'
  exact absurd (congrArg Prod.fst htriple) (by decide)

end SentinelGRC.Ingestion
