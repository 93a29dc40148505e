import SentinelGRC.Store.Session

/-!
Scripts over a connection, with transaction control of their own. Outside a transaction
every statement takes effect at once. Wherever a script stops, what it has made durable is
the work of its committed statements, those it ran outside its transactions or in the ones
that it committed.
-/

namespace SentinelGRC.Store

variable {D ε : Type}

inductive Statement (D ε : Type)
  | begin
  | commit
  | rollback
  | run (effect : D → Except ε D)

namespace Script

/-- One statement; `misuse` is the error of transaction control out of place. -/
def exec (misuse : ε) (faults : ℕ → Option ε) : Statement D ε → Session D ε Unit
  | .begin => fun c => if c.transaction.isSome then (.error misuse, c) else Session.begin faults c
  | .commit => fun c => if c.transaction.isSome then Session.commit faults c else (.error misuse, c)
  | .rollback => fun c =>
    if c.transaction.isSome then Session.rollback faults c else (.error misuse, c)
  | .run effect => Session.execute faults fun d => (effect d).map fun d' => ((), d')

def execAll (misuse : ε) (faults : ℕ → Option ε) : List (Statement D ε) → Session D ε Unit
  | [] => pure ()
  | s :: rest => exec misuse faults s >>= fun _ => execAll misuse faults rest

/-- The statements before the first that fails. -/
def completed (misuse : ε) (faults : ℕ → Option ε) :
    List (Statement D ε) → Connection D → List (Statement D ε)
  | [], _ => []
  | s :: rest, c =>
    match exec misuse faults s c with
    | (.ok (), c') => s :: completed misuse faults rest c'
    | (.error _, _) => []

/-- One effect after the other. -/
def compose : List (D → Except ε D) → D → Except ε D
  | [], d => .ok d
  | effect :: rest, d => effect d >>= compose rest

/-- The effects that a script has committed when it stops, where the open transaction, if
there is one, has done some work already. -/
def committed : Option (List (D → Except ε D)) → List (Statement D ε) → List (D → Except ε D)
  | _, [] => []
  | _, .begin :: rest => committed (some []) rest
  | work, .commit :: rest => work.getD [] ++ committed none rest
  | _, .rollback :: rest => committed none rest
  | some work, .run effect :: rest => committed (some (work ++ [effect])) rest
  | none, .run effect :: rest => effect :: committed none rest

theorem compose_append (fs gs : List (D → Except ε D)) (d : D) :
    compose (fs ++ gs) d = compose fs d >>= compose gs := by
  induction fs generalizing d with
  | nil => rfl
  | cons f fs ih =>
    change (f d >>= compose (fs ++ gs)) = (f d >>= compose fs) >>= compose gs
    cases f d with
    | error e => rfl
    | ok d' => exact ih d'

/-- The open transaction of a connection, told by the work done in it. -/
def Opened (c : Connection D) : Option (List (D → Except ε D)) → Prop
  | none => c.transaction = none
  | some work => ∃ t, c.transaction = some t ∧ compose work c.durable = .ok t

/-- Everything one statement can do. -/
inductive Executed (c : Connection D) : Statement D ε → Except ε Unit → Connection D → Prop
  | failed {s c'} (e : ε) (hd : c'.durable = c.durable) : Executed c s (.error e) c'
  | begun {c'} (hc : c.transaction = none) (hd : c'.durable = c.durable)
      (ht : c'.transaction = some c.durable) : Executed c .begin (.ok ()) c'
  | committed {c'} (t : D) (hc : c.transaction = some t) (hd : c'.durable = t)
      (ht : c'.transaction = none) : Executed c .commit (.ok ()) c'
  | rolledBack {c'} (t : D) (hc : c.transaction = some t) (hd : c'.durable = c.durable)
      (ht : c'.transaction = none) : Executed c .rollback (.ok ()) c'
  | worked {c'} (effect : D → Except ε D) (t t' : D) (hc : c.transaction = some t) (he : effect t = .ok t')
      (hd : c'.durable = c.durable) (ht : c'.transaction = some t') :
      Executed c (.run effect) (.ok ()) c'
  | applied {c'} (effect : D → Except ε D) (hc : c.transaction = none) (he : effect c.durable = .ok c'.durable)
      (ht : c'.transaction = none) : Executed c (.run effect) (.ok ()) c'

theorem executed (misuse : ε) (faults : ℕ → Option ε) (s : Statement D ε) (c : Connection D) :
    Executed c s (exec misuse faults s c).1 (exec misuse faults s c).2 := by
  rcases c with ⟨durable, transaction, statements, commits⟩
  cases hfault : faults statements with
  | some e =>
    cases s with
    | run effect =>
      simp only [exec, Session.execute, Session.faulty, hfault]
      exact .failed e rfl
    | _ =>
      cases transaction
      all_goals
        simp only [exec, Session.begin, Session.commit, Session.rollback, Session.faulty, hfault]
        exact .failed _ rfl
  | none =>
    cases s with
    | begin =>
      cases transaction with
      | some t => exact .failed misuse rfl
      | none =>
        simp only [exec, Session.begin, Session.faulty, hfault]
        exact .begun rfl rfl rfl
    | commit =>
      cases transaction with
      | some t =>
        simp only [exec, Session.commit, Session.faulty, hfault]
        exact .committed t rfl rfl rfl
      | none => exact .failed misuse rfl
    | rollback =>
      cases transaction with
      | some t =>
        simp only [exec, Session.rollback, Session.faulty, hfault]
        exact .rolledBack t rfl rfl rfl
      | none => exact .failed misuse rfl
    | run effect =>
      simp only [exec, Session.execute, Session.faulty, hfault]
      cases transaction with
      | some t =>
        cases he : effect t with
        | error e =>
          simp only [he, Except.map]
          exact .failed e rfl
        | ok t' =>
          simp only [he, Except.map]
          exact .worked effect t t' rfl he rfl rfl
      | none =>
        cases he : effect durable with
        | error e =>
          simp only [Except.map]
          exact .failed e rfl
        | ok d' =>
          simp only [Except.map]
          exact .applied effect rfl he rfl

/-- Wherever a script stops, the work of its committed statements is durable. -/
theorem compose_committed {misuse : ε} {faults : ℕ → Option ε} (script : List (Statement D ε))
    {work : Option (List (D → Except ε D))} {c : Connection D} (hopen : Opened c work) :
    compose (committed work (completed misuse faults script c)) c.durable =
      .ok (execAll misuse faults script c).2.durable := by
  induction script generalizing work c with
  | nil => cases work <;> rfl
  | cons s rest ih =>
    have hstep := executed misuse faults s c
    rw [execAll, completed, Session.bind_eq]
    generalize exec misuse faults s c = out at hstep
    rcases out with ⟨outcome, c₁⟩
    cases hstep with
    | failed e hd =>
      change compose (committed work []) c.durable = .ok c₁.durable
      rw [hd]
      cases work <;> rfl
    | begun hc hd ht =>
      have := @ih (some []) _ ⟨c.durable, ht, by rw [hd]; rfl⟩
      rwa [hd] at this
    | committed t hc hd ht =>
      cases work with
      | none =>
        rw [Opened] at hopen
        rw [hopen] at hc
        cases hc
      | some work =>
        obtain ⟨t', hc', hwork⟩ := hopen
        obtain rfl := Option.some.inj (hc.symm.trans hc')
        have := @ih none _ ht
        rw [committed, Option.getD_some, compose_append, hwork]
        rwa [hd] at this
    | rolledBack t hc hd ht =>
      have := @ih none _ ht
      rw [hd] at this
      cases work <;> exact this
    | worked effect t t' hc he hd ht =>
      cases work with
      | none =>
        rw [Opened] at hopen
        rw [hopen] at hc
        cases hc
      | some work =>
        obtain ⟨t'', hc', hwork⟩ := hopen
        obtain rfl := Option.some.inj (hc.symm.trans hc')
        have hwork' : compose (work ++ [effect]) c₁.durable = .ok t' := by
          rw [compose_append, hd, hwork]
          change (effect t >>= compose []) = _
          rw [he]
          rfl
        have := @ih (some (work ++ [effect])) _ ⟨t', ht, hwork'⟩
        rwa [hd] at this
    | applied effect hc he ht =>
      cases work with
      | none =>
        have := @ih none _ ht
        rw [committed, compose, he]
        exact this
      | some work =>
        obtain ⟨t, hc', -⟩ := hopen
        rw [hc'] at hc
        cases hc

/-- Statements without transaction control. -/
def Plain (script : List (Statement D ε)) : Prop :=
  ∀ s ∈ script, s ≠ .begin ∧ s ≠ .commit ∧ s ≠ .rollback

/-- What a transaction has done is dropped when it does not end. -/
theorem committed_transaction {work : List (D → Except ε D)} {script : List (Statement D ε)}
    (h : Plain script) : committed (some work) script = [] := by
  induction script generalizing work with
  | nil => rfl
  | cons s rest ih =>
    have hrest : Plain rest := fun s' hs' => h s' (List.mem_cons_of_mem _ hs')
    obtain ⟨hbegin, hcommit, hrollback⟩ := h s List.mem_cons_self
    cases s with
    | run effect => exact ih hrest
    | begin => exact absurd rfl hbegin
    | commit => exact absurd rfl hcommit
    | rollback => exact absurd rfl hrollback

theorem mem_of_mem_completed {misuse : ε} {faults : ℕ → Option ε} {script : List (Statement D ε)}
    {c : Connection D} {s : Statement D ε} (h : s ∈ completed misuse faults script c) :
    s ∈ script := by
  induction script generalizing c with
  | nil => cases h
  | cons s' rest ih =>
    rw [completed] at h
    split at h
    · rcases List.mem_cons.mp h with rfl | h
      · exact List.mem_cons_self
      · exact List.mem_cons_of_mem _ (ih h)
    · cases h

end Script

end SentinelGRC.Store
