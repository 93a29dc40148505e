import Mathlib.Data.Nat.Notation

/-!
Statements, transactions and failures. A session runs statements over a connection;
outside a transaction each takes effect at once, inside one they change a copy that only
a commit makes durable, and closing the connection drops an open copy. Any statement may
fail. The rules say of a session that it commits one complete transaction or nothing.
-/

namespace SentinelGRC.Store

/-- What is durable, the copy of an open transaction, and how many statements and commits
there were. -/
structure Connection (D : Type) where
  durable : D
  transaction : Option D
  statements : ℕ
  commits : ℕ

def Connection.fresh {D : Type} (d : D) : Connection D := ⟨d, none, 0, 0⟩

/-- Statements over a connection, ending in a value or an exception. -/
def Session (D ε α : Type) : Type := Connection D → Except ε α × Connection D

namespace Session

variable {D ε α β : Type}

/-! ### Statements -/

instance : Monad (Session D ε) where
  pure a := fun c => (.ok a, c)
  bind m f := fun c =>
    match m c with
    | (.ok a, c') => f a c'
    | (.error e, c') => (.error e, c')

/-- A computation without statements. -/
def lift (x : Except ε α) : Session D ε α := fun c => (x, c)

def raise (e : ε) : Session D ε α := lift (.error e)

/-- `n` counts the statements; the `n`-th fails if the schedule has an exception for it. -/
def faulty (faults : ℕ → Option ε) (m : Session D ε α) : Session D ε α := fun c =>
  let c' := { c with statements := c.statements + 1 }
  match faults c.statements with
  | some e => (.error e, c')
  | none => m c'

/-- One statement, which changes nothing if it fails. -/
def execute (faults : ℕ → Option ε) (f : D → Except ε (α × D)) : Session D ε α :=
  faulty faults fun c =>
    match c.transaction with
    | some d =>
      match f d with
      | .ok (a, d') => (.ok a, { c with transaction := some d' })
      | .error e => (.error e, c)
    | none =>
      match f c.durable with
      | .ok (a, d') => (.ok a, { c with durable := d' })
      | .error e => (.error e, c)

/-- A statement that changes nothing. -/
def query (faults : ℕ → Option ε) (f : D → Except ε α) : Session D ε α :=
  execute faults fun d => (f d).map fun a => (a, d)

def begin (faults : ℕ → Option ε) : Session D ε Unit :=
  faulty faults fun c => (.ok (), { c with transaction := some c.durable })

def commit (faults : ℕ → Option ε) : Session D ε Unit :=
  faulty faults fun c =>
    match c.transaction with
    | some d => (.ok (), { c with durable := d, transaction := none, commits := c.commits + 1 })
    | none => (.ok (), c)

def rollback (faults : ℕ → Option ε) : Session D ε Unit :=
  faulty faults fun c => (.ok (), { c with transaction := none })

/-- A body with a connection of its own, closed at its end. -/
def scope (body : Session D ε α) : Session D ε α := fun c =>
  let out := body { c with transaction := none }
  (out.1, { out.2 with transaction := c.transaction })

/-- `try` and `except`. -/
def handle (m : Session D ε α) (h : ε → Session D ε α) : Session D ε α := fun c =>
  match m c with
  | (.ok a, c') => (.ok a, c')
  | (.error e, c') => h e c'

theorem bind_eq (m : Session D ε α) (f : α → Session D ε β) (c : Connection D) : (m >>= f) c =
    match m c with
    | (.ok a, c') => f a c'
    | (.error e, c') => (.error e, c') := rfl

/-- A session succeeds when its first part does, and the rest from there. -/
theorem bind_eq_ok {m : Session D ε α} {f : α → Session D ε β} {c c' : Connection D} {b : β} :
    (m >>= f) c = (.ok b, c') ↔ ∃ a c₁, m c = (.ok a, c₁) ∧ f a c₁ = (.ok b, c') := by
  rw [bind_eq]
  constructor
  · intro h
    rcases hm : m c with ⟨e | a, c₁⟩
    · rw [hm] at h
      cases h
    · rw [hm] at h
      exact ⟨a, c₁, rfl, h⟩
  · rintro ⟨a, c₁, hm, h⟩
    rw [hm]
    exact h

theorem lift_eq_ok {x : Except ε α} {c c' : Connection D} {a : α} {d : D}
    (hc : c.transaction = some d) (h : lift x c = (.ok a, c')) :
    x = .ok a ∧ c'.transaction = some d := by
  cases h
  exact ⟨rfl, hc⟩

theorem faulty_eq_ok {faults : ℕ → Option ε} {m : Session D ε α} {c c' : Connection D} {a : α}
    (h : faulty faults m c = (.ok a, c')) : m { c with statements := c.statements + 1 } = (.ok a, c') := by
  unfold faulty at h
  simp only at h
  split at h
  · cases h
  · exact h

/-- A statement that succeeds in a transaction has done its work on the copy. -/
theorem execute_eq_ok {faults : ℕ → Option ε} {f : D → Except ε (α × D)} {c c' : Connection D}
    {a : α} {d : D} (hc : c.transaction = some d) (h : execute faults f c = (.ok a, c')) :
    ∃ d', f d = .ok (a, d') ∧ c'.transaction = some d' := by
  have h := faulty_eq_ok h
  simp only [hc] at h
  split at h
  · rename_i b d' hf
    cases h
    exact ⟨d', hf, rfl⟩
  · cases h

theorem query_eq_ok {faults : ℕ → Option ε} {f : D → Except ε α} {c c' : Connection D} {a : α}
    {d : D} (hc : c.transaction = some d) (h : query faults f c = (.ok a, c')) :
    f d = .ok a ∧ c'.transaction = some d := by
  obtain ⟨d', hf, hc'⟩ := execute_eq_ok hc h
  cases hd : f d with
  | error e =>
    rw [hd] at hf
    cases hf
  | ok b =>
    rw [hd] at hf
    cases hf
    exact ⟨rfl, hc'⟩

/-- A statement that fails was made to fail, or fails on some content. -/
theorem query_eq_error {faults : ℕ → Option ε} {f : D → Except ε α} {c : Connection D} {e : ε}
    (h : (query faults f c).1 = .error e) : (∃ n, faults n = some e) ∨ ∃ d, f d = .error e := by
  have hmap {d : D} {e' : ε} (hf : (f d).map (fun a => (a, d)) = .error e') : f d = .error e' := by
    cases hd : f d with
    | error e'' =>
      rw [hd] at hf
      cases hf
      rfl
    | ok a =>
      rw [hd] at hf
      cases hf
  unfold query execute faulty at h
  simp only at h
  cases hfault : faults c.statements with
  | some e' =>
    rw [hfault] at h
    cases h
    exact .inl ⟨_, hfault⟩
  | none =>
    rw [hfault] at h
    simp only at h
    split at h
    · rename_i d hd
      split at h
      · cases h
      · rename_i e' hf
        cases h
        exact .inr ⟨d, hmap hf⟩
    · split at h
      · cases h
      · rename_i e' hf
        cases h
        exact .inr ⟨_, hmap hf⟩

/-! ### Reading -/

/-- A session that leaves the connection as it is, but for the count of its statements. -/
def Reading (m : Session D ε α) : Prop := ∀ c, (m c).2.durable = c.durable ∧
  (m c).2.commits = c.commits ∧ (m c).2.transaction = c.transaction

theorem reading_lift (x : Except ε α) : Reading (lift x : Session D ε α) :=
  fun _ => ⟨rfl, rfl, rfl⟩

theorem reading_pure (a : α) : Reading (pure a : Session D ε α) := fun _ => ⟨rfl, rfl, rfl⟩

theorem reading_bind {m : Session D ε α} {f : α → Session D ε β} (hm : Reading m)
    (hf : ∀ a, Reading (f a)) : Reading (m >>= f) := by
  intro c
  obtain ⟨hd, hn, ht⟩ := hm c
  rw [bind_eq]
  rcases hout : m c with ⟨e | a, c₁⟩
  · rw [hout] at hd hn ht
    exact ⟨hd, hn, ht⟩
  · rw [hout] at hd hn ht
    obtain ⟨hd', hn', ht'⟩ := hf a c₁
    exact ⟨hd'.trans hd, hn'.trans hn, ht'.trans ht⟩

theorem reading_query (faults : ℕ → Option ε) (f : D → Except ε α) :
    Reading (query faults f : Session D ε α) := by
  intro c
  unfold query execute faulty
  simp only
  cases faults c.statements with
  | some e => exact ⟨rfl, rfl, rfl⟩
  | none =>
    cases hc : c.transaction with
    | some d =>
      cases hf : f d <;> simp [hf, Except.map]
    | none =>
      cases hf : f c.durable <;> simp [Except.map]

theorem reading_scope {m : Session D ε α} (hm : Reading m) : Reading (scope m) := by
  intro c
  obtain ⟨hd, hn, -⟩ := hm { c with transaction := none }
  exact ⟨hd, hn, rfl⟩

/-! ### Inside a transaction -/

/-- A session that works on the copy of an open transaction and keeps it open. -/
def Working (m : Session D ε α) : Prop := ∀ c d, c.transaction = some d →
  (m c).2.durable = c.durable ∧ (m c).2.commits = c.commits ∧ ∃ d', (m c).2.transaction = some d'

/-- A session that works on the copy of an open transaction, and keeps it open if it succeeds. -/
def Inside (m : Session D ε α) : Prop := ∀ c d, c.transaction = some d →
  (m c).2.durable = c.durable ∧ (m c).2.commits = c.commits ∧
    ∀ a, (m c).1 = .ok a → ∃ d', (m c).2.transaction = some d'

theorem Reading.working {m : Session D ε α} (h : Reading m) : Working m := by
  intro c d hc
  obtain ⟨hd, hn, ht⟩ := h c
  exact ⟨hd, hn, d, ht.trans hc⟩

theorem Working.inside {m : Session D ε α} (h : Working m) : Inside m := by
  intro c d hc
  obtain ⟨hd, hn, hopen⟩ := h c d hc
  exact ⟨hd, hn, fun _ _ => hopen⟩

theorem working_execute (faults : ℕ → Option ε) (f : D → Except ε (α × D)) :
    Working (execute faults f : Session D ε α) := by
  intro c d hc
  unfold execute faulty
  simp only [hc]
  split
  · exact ⟨rfl, rfl, d, rfl⟩
  · split
    · exact ⟨rfl, rfl, _, rfl⟩
    · exact ⟨rfl, rfl, d, rfl⟩

theorem working_bind {m : Session D ε α} {f : α → Session D ε β} (hm : Working m)
    (hf : ∀ a, Working (f a)) : Working (m >>= f) := by
  intro c d hc
  obtain ⟨hd, hn, d₁, hd₁⟩ := hm c d hc
  rw [bind_eq]
  rcases hout : m c with ⟨e | a, c₁⟩
  · rw [hout] at hd hn hd₁
    exact ⟨hd, hn, d₁, hd₁⟩
  · rw [hout] at hd hn hd₁
    obtain ⟨hd', hn', hopen⟩ := hf a c₁ d₁ hd₁
    exact ⟨hd'.trans hd, hn'.trans hn, hopen⟩

theorem inside_bind {m : Session D ε α} {f : α → Session D ε β} (hm : Inside m)
    (hf : ∀ a, Inside (f a)) : Inside (m >>= f) := by
  intro c d hc
  obtain ⟨hd, hn, ht⟩ := hm c d hc
  rw [bind_eq]
  rcases hout : m c with ⟨e | a, c₁⟩
  · rw [hout] at hd hn
    exact ⟨hd, hn, fun _ h => by cases h⟩
  · rw [hout] at hd hn ht
    obtain ⟨d₁, hd₁⟩ := ht a rfl
    obtain ⟨hd', hn', ht'⟩ := hf a c₁ d₁ hd₁
    exact ⟨hd'.trans hd, hn'.trans hn, ht'⟩

/-- Rolling back and raising is as good as raising. -/
theorem inside_abort (faults : ℕ → Option ε) (e : ε) :
    Inside (rollback faults >>= fun _ => (raise e : Session D ε α)) := by
  intro c d hc
  rw [bind_eq]
  unfold rollback faulty
  simp only
  cases faults c.statements with
  | some e' => exact ⟨rfl, rfl, fun _ h => by cases h⟩
  | none => exact ⟨rfl, rfl, fun _ h => by cases h⟩

theorem inside_handle {m : Session D ε α} {h : ε → Session D ε α} (hm : Working m)
    (hh : ∀ e, Inside (h e)) : Inside (handle m h) := by
  intro c d hc
  obtain ⟨hd, hn, d', hd'⟩ := hm c d hc
  unfold handle
  rcases hout : m c with ⟨e | a, c₁⟩
  · rw [hout] at hd hn hd'
    obtain ⟨hd₁, hn₁, ht₁⟩ := hh e c₁ d' hd'
    exact ⟨hd₁.trans hd, hn₁.trans hn, ht₁⟩
  · rw [hout] at hd hn hd'
    exact ⟨hd, hn, fun _ _ => ⟨d', hd'⟩⟩

/-! ### Commits -/

/-- The end of a transaction: its copy becomes durable, or nothing does. -/
def Ending (m : Session D ε α) : Prop := ∀ c d, c.transaction = some d →
  ((m c).2.commits = c.commits ∧ (m c).2.durable = c.durable) ∨
  ((m c).2.commits = c.commits + 1 ∧ (m c).2.durable = d)

theorem ending_commit (faults : ℕ → Option ε) : Ending (commit faults : Session D ε Unit) := by
  intro c d hc
  unfold commit faulty
  simp only [hc]
  cases faults c.statements with
  | some e => exact .inl ⟨rfl, rfl⟩
  | none => exact .inr ⟨rfl, rfl⟩

theorem ending_rollback (faults : ℕ → Option ε) : Ending (rollback faults : Session D ε Unit) := by
  intro c d hc
  unfold rollback faulty
  simp only
  cases faults c.statements with
  | some e => exact .inl ⟨rfl, rfl⟩
  | none => exact .inl ⟨rfl, rfl⟩

theorem Ending.bind_reading {m : Session D ε α} {f : α → Session D ε β} (hm : Ending m)
    (hf : ∀ a, Reading (f a)) : Ending (m >>= f) := by
  intro c d hc
  have h := hm c d hc
  rw [bind_eq]
  rcases hout : m c with ⟨e | a, c₁⟩
  · rw [hout] at h
    exact h
  · rw [hout] at h
    obtain ⟨hd, hn, -⟩ := hf a c₁
    rw [hd, hn]
    exact h

/-- A session that commits nothing, or one transaction that is related to what was durable. -/
def Atomic (R : D → D → Prop) (m : Session D ε α) : Prop := ∀ c, c.transaction = none →
  (m c).2.transaction = none ∧
  (((m c).2.commits = c.commits ∧ (m c).2.durable = c.durable) ∨
    ((m c).2.commits = c.commits + 1 ∧ R c.durable (m c).2.durable))

theorem Reading.atomic {R : D → D → Prop} {m : Session D ε α} (h : Reading m) : Atomic R m := by
  intro c hc
  obtain ⟨hd, hn, ht⟩ := h c
  exact ⟨ht.trans hc, .inl ⟨hn, hd⟩⟩

theorem Atomic.mono {R R' : D → D → Prop} {m : Session D ε α} (h : Atomic R m)
    (hR : ∀ d d', R d d' → R' d d') : Atomic R' m := by
  intro c hc
  obtain ⟨ht, hsame | ⟨hn, hd⟩⟩ := h c hc
  · exact ⟨ht, .inl hsame⟩
  · exact ⟨ht, .inr ⟨hn, hR _ _ hd⟩⟩

theorem atomic_bind_reading {R : D → D → Prop} {m : Session D ε α} {f : α → Session D ε β}
    (hm : Reading m) (hf : ∀ a, Atomic R (f a)) : Atomic R (m >>= f) := by
  intro c hc
  obtain ⟨hd, hn, ht⟩ := hm c
  rw [bind_eq]
  rcases hout : m c with ⟨e | a, c₁⟩
  · rw [hout] at hd hn ht
    exact ⟨ht.trans hc, .inl ⟨hn, hd⟩⟩
  · rw [hout] at hd hn ht
    have h := hf a c₁ (ht.trans hc)
    rw [hd, hn] at h
    exact h

theorem Atomic.bind_reading {R : D → D → Prop} {m : Session D ε α} {f : α → Session D ε β}
    (hm : Atomic R m) (hf : ∀ a, Reading (f a)) : Atomic R (m >>= f) := by
  intro c hc
  have h := hm c hc
  rw [bind_eq]
  rcases hout : m c with ⟨e | a, c₁⟩
  · rw [hout] at h
    exact h
  · rw [hout] at h
    obtain ⟨hd, hn, ht⟩ := hf a c₁
    rw [hd, hn, ht]
    exact h

/-- What is caught was raised before anything was committed. -/
theorem Atomic.handle {R : D → D → Prop} {m : Session D ε α} {h : ε → Session D ε α}
    (hm : Atomic R m) (hh : ∀ e, Atomic R (h e) ∧ ∀ c, c.transaction = none → (m c).1 = .error e →
      (m c).2.commits = c.commits ∨ Reading (h e)) : Atomic R (handle m h) := by
  intro c hc
  have hout := hm c hc
  unfold Session.handle
  rcases heq : m c with ⟨e | a, c₁⟩
  · rw [heq] at hout
    obtain ⟨hatomic, hcaught⟩ := hh e
    rcases hcaught c hc (by rw [heq]) with hn | hread
    · rw [heq] at hn
      have hd : c₁.durable = c.durable := by
        rcases hout.2 with hsame | ⟨hn', -⟩
        · exact hsame.2
        · omega
      have h' := hatomic c₁ hout.1
      rw [hn, hd] at h'
      exact h'
    · obtain ⟨hd, hn, ht⟩ := hread c₁
      simp only
      rw [hd, hn, ht]
      exact hout
  · rw [heq] at hout
    exact hout

/-- A transaction commits what its body made of the durable content, or nothing. -/
theorem atomic_transaction {R : D → D → Prop} (faults : ℕ → Option ε) {body : Session D ε α}
    {finish : α → Session D ε β} (hbody : Inside body) (hfinish : ∀ a, Ending (finish a))
    (hR : ∀ c c' d d' a, c.transaction = some d → body c = (.ok a, c') →
      c'.transaction = some d' → R d d') :
    Atomic R (scope (begin faults >>= fun _ => body >>= finish)) := by
  intro c hc
  refine ⟨hc, ?_⟩
  unfold scope
  rw [bind_eq]
  unfold begin faulty
  simp only
  cases faults c.statements with
  | some e => exact .inl ⟨rfl, rfl⟩
  | none =>
    simp only
    rw [bind_eq]
    have hopen : (⟨c.durable, some c.durable, c.statements + 1, c.commits⟩ :
      Connection D).transaction = some c.durable := rfl
    obtain ⟨hd, hn, ht⟩ := hbody _ _ hopen
    rcases hout : body ⟨c.durable, some c.durable, c.statements + 1, c.commits⟩ with ⟨e | a, c₁⟩
    · rw [hout] at hd hn
      exact .inl ⟨hn, hd⟩
    · rw [hout] at hd hn ht
      obtain ⟨d₁, hd₁⟩ := ht a rfl
      rcases hfinish a c₁ d₁ hd₁ with ⟨hn', hd'⟩ | ⟨hn', hd'⟩
      · exact .inl ⟨hn'.trans hn, hd'.trans hd⟩
      · refine .inr ⟨hn'.trans (congrArg (· + 1) hn), ?_⟩
        simp only
        rw [hd']
        exact hR _ _ _ _ _ hopen hout hd₁

theorem commit_error {faults : ℕ → Option ε} {c : Connection D} {d : D} {e : ε}
    (hc : c.transaction = some d) (h : (commit faults c).1 = .error e) :
    (commit faults c).2.commits = c.commits := by
  unfold commit faulty at h ⊢
  simp only [hc] at h ⊢
  cases hfault : faults c.statements with
  | some e' => rfl
  | none =>
    rw [hfault] at h
    cases h

/-- A transaction that ends with its commit has committed nothing if it fails. -/
theorem transaction_error (faults : ℕ → Option ε) {body : Session D ε Unit} (hbody : Inside body)
    {c : Connection D} {e : ε}
    (h : (scope (begin faults >>= fun _ => body >>= fun _ => commit faults) c).1 = .error e) :
    (scope (begin faults >>= fun _ => body >>= fun _ => commit faults) c).2.commits = c.commits := by
  unfold scope at h ⊢
  rw [bind_eq] at h ⊢
  unfold begin faulty at h ⊢
  simp only at h ⊢
  cases hfault : faults c.statements with
  | some e' => rfl
  | none =>
    rw [hfault] at h
    simp only at h ⊢
    rw [bind_eq] at h ⊢
    have hopen : (⟨c.durable, some c.durable, c.statements + 1, c.commits⟩ :
      Connection D).transaction = some c.durable := rfl
    obtain ⟨-, hn, ht⟩ := hbody _ _ hopen
    rcases hout : body ⟨c.durable, some c.durable, c.statements + 1, c.commits⟩ with ⟨e' | u, c₁⟩
    · rw [hout] at hn
      exact hn
    · rw [hout] at h hn ht
      obtain ⟨d₁, hd₁⟩ := ht u rfl
      exact (commit_error hd₁ h).trans hn

end Session

end SentinelGRC.Store
