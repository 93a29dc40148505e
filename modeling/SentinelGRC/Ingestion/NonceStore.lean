import SentinelGRC.Python.Clock
import SentinelGRC.Python.Text
import SentinelGRC.Store.Table

/-!
The nonce store of the ingestion API, in memory or backed by the `replay_nonces`
table. Both are reservations with a lifetime: a nonce is live until its expiry,
a live nonce is refused, any other is reserved anew. The table sweeps expired rows
first, which from then on makes no difference to what is live. The clock is any
`Clock`, by default whole seconds, which is what authentication reserves with.
-/

namespace SentinelGRC.Ingestion

open Python Store

/-- A row of `replay_nonces`, also an item of the in-memory dictionary. -/
structure ReplayNonce (T : Type := ℤ) where
  nonce : Text
  expiresAt : T

abbrev ReplayNonces (T : Type := ℤ) := Table (ReplayNonce T) Text ReplayNonce.nonce

variable {T : Type} [Clock T]

/-! ### The table -/

/-- `SQLiteStateStore.reserve_nonce`: sweep, insert, and commit only when the
insertion does not conflict. -/
def reserveNonce (rows : ReplayNonces T) (nonce : Text) (ttlSeconds : ℤ) (now : T) :
    ReplayNonces T × Bool :=
  match (rows.filter fun r => ¬ r.expiresAt ≤ now).insert? ⟨nonce, Clock.after now ttlSeconds⟩ with
  | some committed => (committed, true)
  | none => (rows, false)

/-! ### The store -/

structure NonceStore (T : Type := ℤ) where
  ttlSeconds : ℤ
  /-- The database, when the store was given one. -/
  persistent : Option (ReplayNonces T)
  values : ReplayNonces T

def maxClockSkewSeconds : ℤ := 300

/-- `NonceStore()` and `NonceStore(db_path=...)` on a fresh database. -/
def NonceStore.init (ttlSeconds : ℤ) (dbPath : Bool) : NonceStore T :=
  ⟨ttlSeconds, if dbPath then some Table.empty else none, Table.empty⟩

def NonceStore.reserve (s : NonceStore T) (nonce : Text) (now : T) : NonceStore T × Bool :=
  match s.persistent with
  | some rows =>
    let (rows, reserved) := reserveNonce rows nonce s.ttlSeconds now
    ({ s with persistent := some rows }, reserved)
  | none =>
    match s.values.find? nonce with
    | some r =>
      if r.expiresAt > now then (s, false)
      else ({ s with values := s.values.put ⟨nonce, Clock.after now s.ttlSeconds⟩ }, true)
    | none => ({ s with values := s.values.put ⟨nonce, Clock.after now s.ttlSeconds⟩ }, true)

/-! ### Reservations -/

/-- The row that decides about a nonce. -/
def NonceStore.lookup (s : NonceStore T) (nonce : Text) : Option (ReplayNonce T) :=
  (s.persistent.getD s.values).find? nonce

/-- A nonce is refused at a time. -/
def NonceStore.Live (s : NonceStore T) (nonce : Text) (t : T) : Prop :=
  ∃ r, s.lookup nonce = some r ∧ t < r.expiresAt

instance (s : NonceStore T) (nonce : Text) (t : T) : Decidable (s.Live nonce t) :=
  inferInstanceAs (Decidable (∃ r ∈ s.lookup nonce, t < r.expiresAt))

theorem reserveNonce_conflict {rows : ReplayNonces T} {nonce : Text} {ttl : ℤ} {now : T} :
    (reserveNonce rows nonce ttl now).2 = false ↔
      ∃ r, rows.find? nonce = some r ∧ now < r.expiresAt := by
  rw [reserveNonce]
  split
  · rename_i u h
    obtain ⟨hnone, -⟩ := Table.insert?_eq_some.mp h
    rw [Table.find?_filter, Option.filter_eq_none_iff] at hnone
    simp only [Bool.true_eq_false, false_iff, not_exists, not_and]
    intro r hr hlt
    have := hnone r hr
    simp only [not_le, decide_eq_true_eq, not_lt] at this
    exact absurd hlt (not_lt.mpr this)
  · rename_i h
    obtain ⟨q, hq⟩ := Table.insert?_eq_none.mp h
    rw [Table.find?_filter, Option.filter_eq_some_iff] at hq
    simp only [true_iff]
    exact ⟨q, hq.1, by simpa using hq.2⟩

theorem find?_reserveNonce {rows : ReplayNonces T} {nonce : Text} {ttl : ℤ} {now : T}
    (h : (reserveNonce rows nonce ttl now).2 = true) (n : Text) :
    (reserveNonce rows nonce ttl now).1.find? n =
      if nonce = n then some ⟨nonce, Clock.after now ttl⟩
      else (rows.find? n).filter fun r => ¬ r.expiresAt ≤ now := by
  revert h
  rw [reserveNonce]
  split
  · rename_i u h
    intro _
    rw [Table.find?_insert? h, Table.find?_filter]
  · intro h
    exact absurd h (by simp)

theorem reserveNonce_refused {rows : ReplayNonces T} {nonce : Text} {ttl : ℤ} {now : T}
    (h : (reserveNonce rows nonce ttl now).2 = false) : (reserveNonce rows nonce ttl now).1 = rows := by
  revert h
  rw [reserveNonce]
  split
  · intro h
    exact absurd h (by simp)
  · intro _
    rfl

/-- A reservation is refused exactly for a live nonce. -/
theorem NonceStore.reserve_eq_false {s : NonceStore T} {nonce : Text} {now : T} :
    (s.reserve nonce now).2 = false ↔ s.Live nonce now := by
  rcases s with ⟨ttl, _ | rows, values⟩
  · simp only [reserve, Live, lookup, Option.getD_none]
    cases hf : values.find? nonce with
    | none => simp
    | some r =>
      simp only [Option.some.injEq, exists_eq_left']
      split_ifs with hlt
      · exact iff_of_true rfl hlt
      · exact iff_of_false (by simp) hlt
  · simp only [reserve, Live, lookup, Option.getD_some]
    exact reserveNonce_conflict

/-- What a reservation does to every nonce at every later time. -/
theorem NonceStore.live_reserve {s : NonceStore T} {nonce : Text} {now : T} (n : Text) {t : T}
    (ht : now ≤ t) : (s.reserve nonce now).1.Live n t ↔
      if nonce = n ∧ ¬ s.Live nonce now then t < Clock.after now s.ttlSeconds else s.Live n t := by
  by_cases hlive : s.Live nonce now
  · have hsame : (s.reserve nonce now).1 = s := by
      have href := reserve_eq_false.mpr hlive
      rcases s with ⟨ttl, _ | rows, values⟩
      · obtain ⟨r, hr, hlt⟩ := hlive
        change values.find? nonce = some r at hr
        simp [reserve, hr, hlt]
      · simp only [reserve] at href ⊢
        rw [reserveNonce_refused href]
    rw [hsame, if_neg (fun h => h.2 hlive)]
  · have hres : (s.reserve nonce now).2 = true := by
      rw [← Bool.not_eq_false, reserve_eq_false]
      exact hlive
    simp only [hlive, not_false_eq_true, and_true]
    rcases s with ⟨ttl, _ | rows, values⟩
    · have hput : (reserve ⟨ttl, none, values⟩ nonce now).1 =
          ⟨ttl, none, values.put ⟨nonce, Clock.after now ttl⟩⟩ := by
        revert hres
        simp only [reserve]
        split
        · split_ifs <;> simp
        · simp
      rw [hput]
      simp only [Live, lookup, Option.getD_none, Table.find?_put]
      split_ifs <;> simp
    · simp only [reserve] at hres
      simp only [reserve, Live, lookup, Option.getD_some, find?_reserveNonce hres]
      split_ifs with hn
      · simp
      · -- the rows swept away had expired by `now`
        constructor
        · rintro ⟨r, hr, hlt⟩
          exact ⟨r, (Option.filter_eq_some_iff.mp hr).1, hlt⟩
        · rintro ⟨r, hr, hlt⟩
          refine ⟨r, Option.filter_eq_some_iff.mpr ⟨hr, ?_⟩, hlt⟩
          simp only [not_le, decide_eq_true_eq]
          exact lt_of_le_of_lt ht hlt

theorem NonceStore.ttlSeconds_reserve (s : NonceStore T) (nonce : Text) (now : T) :
    (s.reserve nonce now).1.ttlSeconds = s.ttlSeconds := by
  rcases s with ⟨ttl, _ | rows, values⟩
  · simp only [reserve]
    split
    · split_ifs <;> rfl
    · rfl
  · rfl

end SentinelGRC.Ingestion
