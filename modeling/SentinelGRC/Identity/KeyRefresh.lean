import Mathlib.Algebra.Order.Group.Int
import SentinelGRC.Python.Str
import SentinelGRC.Transition.Trace

/-!
The client that holds the signing keys of the identity provider. A key id that it does
not know makes it fetch the keys again, but not twice within an interval. The instant of
such a fetch is noted only where the fetch has succeeded: what was fetched without an
exception is kept apart from all later fetches, and nothing limits the fetches after one
that raised. A call holds the lock throughout, so calls come one after another.
-/

namespace SentinelGRC.Identity

open Python Transition

/-- Instants of `time.monotonic()`. Of the differences only their order is assumed, so
results cover the rounding of floats. -/
class MonotonicClock (T : Type) extends LinearOrder T, Add T, Sub T where
  /-- `60.0`. -/
  minute : T
  sub_le_sub {a b c d : T} : a ≤ b → c ≤ d → a - d ≤ b - c

instance : MonotonicClock ℤ where
  minute := 60
  sub_le_sub h h' := by omega

variable {T K : Type} [MonotonicClock T]

/-- `_keys`, `_expires_at` and `_last_forced_refresh`, where `none` is minus infinity. -/
structure JwksClient (T K : Type) where
  keys : Text → Option K
  expiresAt : T
  lastForcedRefresh : Option T

/-- One call: the key id, the readings of the clock in their order, as many as are taken,
and what `_fetch` returns or raises if it is called. -/
structure Call (T K : Type) [MonotonicClock T] where
  keyId : Text
  entered : T
  checked : T
  fetched : T
  noted : T
  fetch : Except PyError (Text → Option K)
  checked_le : entered ≤ checked
  fetched_le : checked ≤ fetched
  noted_le : fetched ≤ noted

theorem Call.checked_le_noted (call : Call T K) : call.checked ≤ call.noted :=
  call.fetched_le.trans call.noted_le

def Call.Raises (call : Call T K) : Prop := ∃ e, call.fetch = .error e

namespace JwksClient

variable (cacheSeconds : T)

/-- `_refresh`. -/
def refresh (c : JwksClient T K) (call : Call T K) : JwksClient T K × Except PyError Unit :=
  match call.fetch with
  | .error e => (c, .error e)
  | .ok keys => ({ c with keys := keys, expiresAt := call.fetched + cacheSeconds }, .ok ())

def Expired (c : JwksClient T K) (call : Call T K) : Prop := c.expiresAt ≤ call.entered

instance (c : JwksClient T K) (call : Call T K) : Decidable (c.Expired call) :=
  inferInstanceAs (Decidable (_ ≤ _))

def forcedRefreshInterval : T := min MonotonicClock.minute cacheSeconds

/-- The last forced refresh is as long ago as the interval asks. -/
def due (c : JwksClient T K) (now : T) : Bool :=
  match c.lastForcedRefresh with
  | none => true
  | some last => decide (forcedRefreshInterval cacheSeconds ≤ now - last)

/-- The end of a call. -/
def lookup (c : JwksClient T K) (keyId : Text) : Except PyError K :=
  match c.keys keyId with
  | none => .error (.keyError (lit "unknown signing key"))
  | some key => .ok key

/-- `get_signing_key`. -/
def getSigningKey (c : JwksClient T K) (call : Call T K) : JwksClient T K × Except PyError K :=
  if c.Expired call then
    match c.refresh cacheSeconds call with
    | (c, .error e) => (c, .error e)
    | (c, .ok ()) => (c, c.lookup call.keyId)
  else if (c.keys call.keyId).isNone && c.due cacheSeconds call.checked then
    match c.refresh cacheSeconds call with
    | (c, .error e) => (c, .error e)
    | (c, .ok ()) =>
      let c := { c with lastForcedRefresh := some call.noted }
      (c, c.lookup call.keyId)
  else (c, c.lookup call.keyId)

/-- A client as calls come in. -/
def machine : Machine (JwksClient T K) (Call T K) (Except PyError K) where
  step := getSigningKey cacheSeconds

/-- The key id is not among the keys, which have not expired. -/
def Unknown (c : JwksClient T K) (call : Call T K) : Prop :=
  ¬ c.Expired call ∧ (c.keys call.keyId).isNone = true

/-- An unknown key id makes the call fetch, at the instant of the check. -/
def Forces (c : JwksClient T K) (call : Call T K) : Prop :=
  c.Unknown call ∧ c.due cacheSeconds call.checked = true

instance (c : JwksClient T K) (call : Call T K) : Decidable (c.Unknown call) :=
  inferInstanceAs (Decidable (_ ∧ _))

instance (c : JwksClient T K) (call : Call T K) : Decidable (c.Forces cacheSeconds call) :=
  inferInstanceAs (Decidable (_ ∧ _))

variable {cacheSeconds}

/-! ### One call -/

theorem lastForcedRefresh_refresh (cacheSeconds : T) (c : JwksClient T K) (call : Call T K) :
    (c.refresh cacheSeconds call).1.lastForcedRefresh = c.lastForcedRefresh := by
  unfold refresh
  cases call.fetch <;> rfl

/-- A forced fetch that returns is noted. -/
theorem lastForcedRefresh_of_forces {c : JwksClient T K} {call : Call T K}
    (h : c.Forces cacheSeconds call) (hfetch : ¬ call.Raises) :
    ((machine cacheSeconds).next c call).lastForcedRefresh = some call.noted := by
  obtain ⟨⟨hvalid, hkey⟩, hdue⟩ := h
  obtain ⟨keys, hkeys⟩ : ∃ keys, call.fetch = .ok keys := by
    cases hfetched : call.fetch with
    | error e => exact absurd ⟨e, hfetched⟩ hfetch
    | ok keys => exact ⟨keys, rfl⟩
  simp only [Machine.next, machine, getSigningKey, if_neg hvalid, hkey, hdue, Bool.and_true,
    if_true, refresh, hkeys]

/-- Every other call leaves the note as it was. -/
theorem lastForcedRefresh_of_not {c : JwksClient T K} {call : Call T K}
    (h : ¬ (c.Forces cacheSeconds call ∧ ¬ call.Raises)) :
    ((machine cacheSeconds).next c call).lastForcedRefresh = c.lastForcedRefresh := by
  have hkept := lastForcedRefresh_refresh cacheSeconds c call
  simp only [Machine.next, machine, getSigningKey]
  split_ifs with hexpired hforced
  · generalize c.refresh cacheSeconds call = r at hkept ⊢
    obtain ⟨c', e | ⟨⟩⟩ := r
    · exact hkept
    · exact hkept
  · have hforces : c.Forces cacheSeconds call :=
      ⟨⟨hexpired, (Bool.and_eq_true_iff.mp hforced).1⟩, (Bool.and_eq_true_iff.mp hforced).2⟩
    obtain ⟨e, he⟩ : call.Raises := not_not.mp fun hfetch => h ⟨hforces, hfetch⟩
    simp only [refresh, he]
  · rfl

theorem due_congr {c d : JwksClient T K} (h : c.lastForcedRefresh = d.lastForcedRefresh) (now : T) :
    c.due cacheSeconds now = d.due cacheSeconds now := by
  rw [due, due, h]

/-- A fetch that is due stays due as long as none is noted. -/
theorem due_mono {c : JwksClient T K} {t u : T} (h : c.due cacheSeconds t = true) (htu : t ≤ u) :
    c.due cacheSeconds u = true := by
  unfold due at h ⊢
  cases hlast : c.lastForcedRefresh with
  | none => rfl
  | some last =>
    rw [hlast] at h
    exact decide_eq_true ((of_decide_eq_true h).trans (MonotonicClock.sub_le_sub htu le_rfl))

/-! ### Sequences of calls -/

/-- The clock never goes back from one call to a later one. -/
def Nondecreasing (calls : List (Call T K)) : Prop :=
  calls.Pairwise fun a b => a.noted ≤ b.entered

instance (calls : List (Call T K)) : Decidable (Nondecreasing calls) :=
  inferInstanceAs (Decidable (List.Pairwise _ _))

/-- Two instants are at least the interval apart. -/
def Apart (cacheSeconds t u : T) : Prop := forcedRefreshInterval cacheSeconds ≤ u - t

instance (t u : T) : Decidable (Apart cacheSeconds t u) := inferInstanceAs (Decidable (_ ≤ _))

variable (cacheSeconds) in
/-- Any two fetches that unknown key ids force are apart. -/
def RateLimited (c : JwksClient T K) (calls : List (Call T K)) : Prop :=
  ((machine cacheSeconds).trace c calls).Pairwise fun x y =>
    x.1.Forces cacheSeconds x.2 → y.1.Forces cacheSeconds y.2 →
      Apart cacheSeconds x.2.checked y.2.checked

instance (c : JwksClient T K) (calls : List (Call T K)) :
    Decidable (RateLimited cacheSeconds c calls) :=
  inferInstanceAs (Decidable (List.Pairwise _ _))

variable (cacheSeconds) in
/-- Whoever asks for an unknown key after a forced fetch that raised asks the interval
later. -/
def FailuresAwaited (c : JwksClient T K) (calls : List (Call T K)) : Prop :=
  ((machine cacheSeconds).trace c calls).Pairwise fun x y =>
    x.1.Forces cacheSeconds x.2 ∧ x.2.Raises → y.1.Unknown y.2 →
      Apart cacheSeconds x.2.checked y.2.checked

/-- After a note at `t` or later no fetch is forced before the interval from `t` is over. -/
theorem apart_of_noted {t m : T} (hm : t ≤ m) {c : JwksClient T K}
    (hlast : c.lastForcedRefresh = some m) {calls : List (Call T K)}
    (hcalls : ∀ b ∈ calls, t ≤ b.noted) : ∀ y ∈ (machine cacheSeconds).trace c calls,
      y.1.Forces cacheSeconds y.2 → Apart cacheSeconds t y.2.checked := by
  induction calls generalizing c m with
  | nil => simp
  | cons b calls ih =>
    obtain ⟨hb, hcalls⟩ := List.forall_mem_cons.mp hcalls
    rw [Machine.trace_cons, List.forall_mem_cons]
    constructor
    · rintro ⟨-, hdue⟩
      unfold due at hdue
      rw [hlast] at hdue
      exact (of_decide_eq_true hdue).trans (MonotonicClock.sub_le_sub le_rfl hm)
    · by_cases hnoted : c.Forces cacheSeconds b ∧ ¬ b.Raises
      · exact ih hb (lastForcedRefresh_of_forces hnoted.1 hnoted.2) hcalls
      · exact ih hm ((lastForcedRefresh_of_not hnoted).trans hlast) hcalls

/-- Where a fetch is due at `t`, the next call for an unknown key forces one. If forced
fetches keep apart from `t`, so does that call, and with it every later one. -/
theorem apart_of_due {t : T} {c : JwksClient T K} (hdue : c.due cacheSeconds t = true)
    {calls : List (Call T K)} (hclock : Nondecreasing calls) (hcalls : ∀ b ∈ calls, t ≤ b.checked)
    (h : ∀ y ∈ (machine cacheSeconds).trace c calls,
      y.1.Forces cacheSeconds y.2 → Apart cacheSeconds t y.2.checked) :
    ∀ y ∈ (machine cacheSeconds).trace c calls,
      y.1.Unknown y.2 → Apart cacheSeconds t y.2.checked := by
  induction calls generalizing c with
  | nil => simp
  | cons b calls ih =>
    obtain ⟨hb, hcalls⟩ := List.forall_mem_cons.mp hcalls
    obtain ⟨hlater, hclock⟩ := List.pairwise_cons.mp hclock
    rw [Machine.trace_cons, List.forall_mem_cons] at h ⊢
    have hforces (hunknown : c.Unknown b) : c.Forces cacheSeconds b :=
      ⟨hunknown, due_mono hdue hb⟩
    refine ⟨fun hunknown => h.1 (hforces hunknown), ?_⟩
    by_cases hunknown : c.Unknown b
    · intro y hy _
      have hby : b.checked ≤ y.2.checked := calc
        b.checked ≤ b.noted := b.checked_le_noted
        _ ≤ y.2.entered := hlater y.2 (Machine.snd_mem_of_mem_trace hy)
        _ ≤ y.2.checked := y.2.checked_le
      exact (h.1 (hforces hunknown)).trans (MonotonicClock.sub_le_sub hby le_rfl)
    · have hkept : ((machine cacheSeconds).next c b).lastForcedRefresh = c.lastForcedRefresh :=
        lastForcedRefresh_of_not fun hnoted => hunknown hnoted.1.1
      exact ih ((due_congr hkept t).trans hdue) hclock hcalls h.2

/-- Forced fetches are rate limited exactly when the failed ones are waited for. -/
theorem rateLimited_iff (c : JwksClient T K) {calls : List (Call T K)}
    (hclock : Nondecreasing calls) :
    RateLimited cacheSeconds c calls ↔ FailuresAwaited cacheSeconds c calls := by
  refine Machine.pairwise_trace_congr ?_ c hclock
  intro c a rest hlater hrest
  have hchecked : ∀ b ∈ rest, a.checked ≤ b.checked := fun b hb =>
    a.checked_le_noted.trans ((hlater b hb).trans b.checked_le)
  by_cases hforces : c.Forces cacheSeconds a
  · by_cases hraises : a.Raises
    · have hkept : ((machine cacheSeconds).next c a).lastForcedRefresh = c.lastForcedRefresh :=
        lastForcedRefresh_of_not fun hnoted => hnoted.2 hraises
      constructor
      · intro h y hy _
        exact apart_of_due ((due_congr hkept _).trans hforces.2) hrest hchecked
          (fun z hz => h z hz hforces) y hy
      · intro h y hy _ hy'
        exact h y hy ⟨hforces, hraises⟩ hy'.1
    · have hnoted := lastForcedRefresh_of_forces hforces hraises
      have hlater' : ∀ b ∈ rest, a.checked ≤ b.noted := fun b hb =>
        (hchecked b hb).trans b.checked_le_noted
      constructor
      · intro _ y _ h
        exact absurd h.2 hraises
      · intro _ y hy _
        exact apart_of_noted a.checked_le_noted hnoted hlater' y hy
  · exact iff_of_true (fun y _ h => absurd h hforces) fun y _ h => absurd h.1 hforces

/-! ### A fetch that raises -/

/-- A call at one instant whose fetch raises. -/
def unreachable (keyId : Text) (now : ℤ) : Call ℤ K where
  keyId := keyId
  entered := now
  checked := now
  fetched := now
  noted := now
  fetch := .error (.valueError (lit "JWKS response is too large"))
  checked_le := le_rfl
  fetched_le := le_rfl
  noted_le := le_rfl

/-- A client that holds one key until the instant `4600`. -/
def oneKey : JwksClient ℤ Unit :=
  ⟨fun keyId => if keyId = lit "known" then some () else none, 4600, none⟩

/-- Two unknown key ids, a second apart, while the keys cannot be fetched. -/
def oneSecondApart : List (Call ℤ Unit) :=
  [unreachable (lit "attacker-controlled-kid") 1000, unreachable (lit "another-unknown-kid") 1001]

/-- The keys have not expired at either call, and each call fetches. -/
theorem not_rateLimited_oneSecondApart : Nondecreasing oneSecondApart ∧
    (∀ x ∈ (machine 3600).trace oneKey oneSecondApart, ¬ x.1.Expired x.2) ∧
      ¬ RateLimited 3600 oneKey oneSecondApart := by
  decide

/-- Two unknown key ids, a minute apart. -/
theorem rateLimited_iff_oneMinuteApart :
    RateLimited 3600 oneKey [unreachable (lit "a") 1000, unreachable (lit "b") 1060] ↔
      FailuresAwaited 3600 oneKey [unreachable (lit "a") 1000, unreachable (lit "b") 1060] :=
  rateLimited_iff oneKey (by decide)

end JwksClient

end SentinelGRC.Identity
