import SentinelGRC.Ingestion.Authenticate

/-!
The two nonce stores answer alike. What decides a call is which nonces are live at its
time and at the times of the calls after it; the sweep of the table removes only what has
expired by then. They differ on a nonce that SQLite cannot bind, which authentication never
passes on.
-/

namespace SentinelGRC.Ingestion

open Python Store Transition

variable {T : Type} [Clock T]

/-! ### Calls -/

/-- `NonceStore.reserve` on any text. SQLite binds only text that encodes; where it
refuses, the connection is closed on the uncommitted sweep. -/
def NonceStore.reserveText (s : NonceStore T) (nonce : Text) (now : T) :
    NonceStore T × Except PyError Bool :=
  if s.persistent.isSome ∧ ¬ Scalar nonce then (s, .error .unicodeEncodeError)
  else
    let (s, reserved) := s.reserve nonce now
    (s, .ok reserved)

/-- The arguments of `NonceStore.reserve`. -/
structure Reservation (T : Type) where
  nonce : Text
  now : T

def reservations : Machine (NonceStore T) (Reservation T) (Except PyError Bool) where
  step s c := s.reserveText c.nonce c.now

/-- The boolean of the in-memory store, where SQLite can bind the nonce. -/
def Reservation.bound (c : Reservation T) (memory : Except PyError Bool) : Except PyError Bool :=
  if Scalar c.nonce then memory else .error .unicodeEncodeError

/-! ### Agreement -/

/-- No nonce that encodes is live at a time in one store only. -/
def NonceStore.AgreesAt (t : T) (s u : NonceStore T) : Prop :=
  ∀ nonce, Scalar nonce → (s.Live nonce t ↔ u.Live nonce t)

theorem NonceStore.AgreesAt.reserve {s u : NonceStore T} {nonce : Text} {now t : T}
    (hscalar : Scalar nonce) (httl : s.ttlSeconds = u.ttlSeconds) (hnow : s.AgreesAt now u)
    (ht : s.AgreesAt t u) (hle : now ≤ t) :
    (s.reserve nonce now).1.AgreesAt t (u.reserve nonce now).1 := by
  intro n hn
  have hlive := hnow nonce hscalar
  rw [live_reserve n hle, live_reserve n hle, httl]
  by_cases hreserved : nonce = n ∧ ¬ u.Live nonce now
  · rw [if_pos hreserved, if_pos ⟨hreserved.1, fun h => hreserved.2 (hlive.mp h)⟩]
  · rw [if_neg hreserved, if_neg fun h => hreserved ⟨h.1, fun hu => h.2 (hlive.mpr hu)⟩]
    exact ht n hn

/-- A nonce that does not encode is under another key than all that do. -/
theorem NonceStore.AgreesAt.reserve_memory {s u : NonceStore T} {nonce : Text} {now t : T}
    (hscalar : ¬ Scalar nonce) (ht : s.AgreesAt t u) (hle : now ≤ t) :
    (s.reserve nonce now).1.AgreesAt t u := by
  intro n hn
  rw [live_reserve n hle, if_neg]
  · exact ht n hn
  · rintro ⟨rfl, -⟩
    exact hscalar hn

theorem NonceStore.AgreesAt.answer {s u : NonceStore T} {nonce : Text} {now : T}
    (hscalar : Scalar nonce) (h : s.AgreesAt now u) :
    (s.reserve nonce now).2 = (u.reserve nonce now).2 := by
  have hlive := h nonce hscalar
  rw [← reserve_eq_false, ← reserve_eq_false] at hlive
  cases hs : (s.reserve nonce now).2 with
  | false => exact (hlive.mp hs).symm
  | true =>
    cases hu : (u.reserve nonce now).2 with
    | false => exact absurd (hlive.mpr hu) (by simp [hs])
    | true => rfl

theorem NonceStore.persistent_reserve (s : NonceStore T) (nonce : Text) (now : T) :
    (s.reserve nonce now).1.persistent.isSome = s.persistent.isSome := by
  rcases s with ⟨ttl, _ | rows, values⟩
  · simp only [reserve]
    split
    · split_ifs <;> rfl
    · rfl
  · rfl

/-- The in-memory store and the table, for the calls still to come. -/
structure InAgreement (calls : List (Reservation T)) (memory table : NonceStore T) : Prop where
  sorted : calls.Pairwise fun a b => a.now ≤ b.now
  ttlSeconds : memory.ttlSeconds = table.ttlSeconds
  inMemory : memory.persistent.isSome = false
  persistent : table.persistent.isSome = true
  agrees : ∀ c ∈ calls, memory.AgreesAt c.now table

theorem inAgreement_init (ttlSeconds : ℤ) {calls : List (Reservation T)}
    (hclock : calls.Pairwise fun a b => a.now ≤ b.now) :
    InAgreement calls (NonceStore.init ttlSeconds false) (NonceStore.init ttlSeconds true) where
  sorted := hclock
  ttlSeconds := rfl
  inMemory := rfl
  persistent := rfl
  agrees c _ nonce _ := by simp [NonceStore.Live, NonceStore.lookup, NonceStore.init]

theorem InAgreement.step {c : Reservation T} {rest : List (Reservation T)}
    {memory table : NonceStore T} (h : InAgreement (c :: rest) memory table) :
    reservations.answer table c = c.bound (reservations.answer memory c) ∧
      InAgreement rest (reservations.next memory c) (reservations.next table c) := by
  obtain ⟨hfirst, hsorted⟩ := List.pairwise_cons.mp h.sorted
  have hmemory : memory.reserveText c.nonce c.now =
      ((memory.reserve c.nonce c.now).1, .ok (memory.reserve c.nonce c.now).2) := by
    rw [NonceStore.reserveText, if_neg]
    simp [h.inMemory]
  have hlater (d : Reservation T) (hd : d ∈ rest) : memory.AgreesAt d.now table :=
    h.agrees d (List.mem_cons_of_mem c hd)
  simp only [Machine.answer, Machine.next, reservations, hmemory]
  by_cases hscalar : Scalar c.nonce
  · have htable : table.reserveText c.nonce c.now =
        ((table.reserve c.nonce c.now).1, .ok (table.reserve c.nonce c.now).2) := by
      rw [NonceStore.reserveText, if_neg fun hbad => hbad.2 hscalar]
    have hnow := h.agrees c List.mem_cons_self
    rw [htable, Reservation.bound, if_pos hscalar]
    refine ⟨by rw [hnow.answer hscalar], hsorted, ?_, ?_, ?_, fun d hd => ?_⟩
    · rw [NonceStore.ttlSeconds_reserve, NonceStore.ttlSeconds_reserve, h.ttlSeconds]
    · rw [NonceStore.persistent_reserve, h.inMemory]
    · rw [NonceStore.persistent_reserve, h.persistent]
    · exact NonceStore.AgreesAt.reserve hscalar h.ttlSeconds hnow (hlater d hd) (hfirst d hd)
  · have htable : table.reserveText c.nonce c.now = (table, .error .unicodeEncodeError) := by
      rw [NonceStore.reserveText, if_pos ⟨h.persistent, hscalar⟩]
    rw [htable, Reservation.bound, if_neg hscalar]
    refine ⟨rfl, hsorted, ?_, ?_, h.persistent, fun d hd => ?_⟩
    · rw [NonceStore.ttlSeconds_reserve, h.ttlSeconds]
    · rw [NonceStore.persistent_reserve, h.inMemory]
    · exact (hlater d hd).reserve_memory hscalar (hfirst d hd)

/-- In every sequence of calls at times that do not decrease, the table raises on the
nonces that SQLite cannot bind and gives every other call the boolean of the in-memory
store. -/
theorem stores_agree (ttlSeconds : ℤ) (calls : List (Reservation T))
    (hclock : calls.Pairwise fun a b => a.now ≤ b.now) :
    reservations.answers (NonceStore.init ttlSeconds true) calls =
      List.zipWith Reservation.bound calls
        (reservations.answers (NonceStore.init ttlSeconds false) calls) := by
  refine Machine.answers_eq_zipWith (R := InAgreement) ?_ (inAgreement_init ttlSeconds hclock)
  intro c rest memory table h
  exact h.step

/-- A nonce reserved, refused while it lives, and reserved again when it expires. -/
theorem stores_agree_again :
    reservations.answers (NonceStore.init 300 true)
        [⟨lit "n", (0 : ℤ)⟩, ⟨lit "n", 299⟩, ⟨lit "n", 300⟩] =
      List.zipWith Reservation.bound [⟨lit "n", (0 : ℤ)⟩, ⟨lit "n", 299⟩, ⟨lit "n", 300⟩]
        (reservations.answers (NonceStore.init 300 false)
          [⟨lit "n", (0 : ℤ)⟩, ⟨lit "n", 299⟩, ⟨lit "n", 300⟩]) :=
  stores_agree 300 _ (by simp)

/-- The in-memory store reserves a lone surrogate, which SQLite does not bind. -/
theorem surrogate_disagrees :
    ¬ ∀ (ttlSeconds : ℤ) (calls : List (Reservation ℤ)),
      (calls.Pairwise fun a b => a.now ≤ b.now) →
        reservations.answers (NonceStore.init ttlSeconds true) calls =
          reservations.answers (NonceStore.init ttlSeconds false) calls := by
  intro h
  have hsame := h 300 [⟨[0xD800], 0⟩] (List.pairwise_singleton _ _)
  revert hsame
  decide

/-! ### Authentication -/

/-- Two nonce stores, for the requests still to come. -/
structure InAgreementFor (calls : List Call) (s u : NonceStore) : Prop where
  sorted : Nondecreasing calls
  ttlSeconds : s.ttlSeconds = u.ttlSeconds
  agrees : ∀ c ∈ calls, s.AgreesAt c.current u

theorem InAgreementFor.step {H : Digest} {c : Call} {rest : List Call} {s u : NonceStore}
    (h : InAgreementFor (c :: rest) s u) :
    (authentication H).answer u c = (authentication H).answer s c ∧
      InAgreementFor rest ((authentication H).next s c) ((authentication H).next u c) := by
  obtain ⟨hfirst, hsorted⟩ := List.pairwise_cons.mp h.sorted
  have hlater (d : Call) (hd : d ∈ rest) : s.AgreesAt d.current u :=
    h.agrees d (List.mem_cons_of_mem c hd)
  cases hverified : verifyRequest H c with
  | error e =>
    simp only [Machine.answer, Machine.next, authentication, authenticateRequest, hverified]
    exact ⟨trivial, hsorted, h.ttlSeconds, hlater⟩
  | ok _ =>
    have hscalar := (verifyCredential_scalar (verifyRequest_eq_ok.mp hverified).2).2
    have hnow := h.agrees c List.mem_cons_self
    constructor
    · have hanswer := hnow.answer hscalar
      simp only [Machine.answer, authentication, authenticateRequest, hverified]
      rcases hs : s.reserve c.nonce c.current with ⟨s', reserved⟩
      rcases hu : u.reserve c.nonce c.current with ⟨u', reserved'⟩
      rw [hs, hu] at hanswer
      obtain rfl : reserved = reserved' := hanswer
      cases reserved <;> rfl
    · rw [next_of_ok hverified, next_of_ok hverified]
      refine ⟨hsorted, ?_, fun d hd => ?_⟩
      · rw [NonceStore.ttlSeconds_reserve, NonceStore.ttlSeconds_reserve, h.ttlSeconds]
      · exact NonceStore.AgreesAt.reserve hscalar h.ttlSeconds hnow (hlater d hd)
          (truncate_mono (hfirst d hd))

/-- Requests are authenticated alike with either store. -/
theorem authentication_agrees (H : Digest) (ttlSeconds : ℤ) (calls : List Call)
    (hclock : Nondecreasing calls) :
    (authentication H).answers (NonceStore.init ttlSeconds true) calls =
      (authentication H).answers (NonceStore.init ttlSeconds false) calls := by
  have hinit : InAgreementFor calls (NonceStore.init ttlSeconds false)
      (NonceStore.init ttlSeconds true) := by
    refine ⟨hclock, rfl, fun c _ nonce _ => ?_⟩
    simp [NonceStore.Live, NonceStore.lookup, NonceStore.init]
  have hanswers := Machine.answers_eq_zipWith (f := fun _ r => r) (R := InAgreementFor)
    (fun c rest s u h => h.step (H := H)) hinit
  rw [hanswers, Machine.zipWith_answers]

end SentinelGRC.Ingestion
