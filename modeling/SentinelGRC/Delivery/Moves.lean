import SentinelGRC.Delivery.Exports

/-!
The queues as items to deliver in order. Every call on a queue changes at most one row,
and what becomes of that row is a change of the protocol: a claim gives out a lease of a
row whose predecessors are finished, an acknowledgement and a failure need the lease, and
a requeue revives what was dead. A finished row is never written again.
-/

namespace SentinelGRC.Delivery

open Python Store Governance Protocol

variable {ρ F : Type} {clash : ρ → ρ → Bool} [Deliverable ρ F clash]

/-! ### Rows under their ids -/

theorem find?_eq_some {q : Unique ρ clash} {id : Text} {r : ρ} :
    find? q id = some r ↔ r ∈ q.rows ∧ (key r).id = id := by
  constructor
  · intro h
    exact ⟨List.mem_of_find?_eq_some h, by simpa using List.find?_some h⟩
  · rintro ⟨hr, rfl⟩
    have hsome : (find? q (key r).id).isSome := by
      rw [find?, List.find?_isSome]
      exact ⟨r, hr, by simp⟩
    obtain ⟨s, hs⟩ := Option.isSome_iff_exists.mp hsome
    have hid : (key s).id = (key r).id := by simpa using List.find?_some hs
    have hsymm (a b : ρ) (hab : clash a b = false) : (key a).id ≠ (key b).id := by
      intro h
      rw [Deliverable.clash_id a b h] at hab
      cases hab
    have hdistinct : (q.rows.map fun r => (key r).id).Nodup := by
      rw [List.Nodup, List.pairwise_map]
      exact q.apart.imp fun {a b} h => hsymm a b h
    rw [hs, List.inj_on_of_nodup_map hdistinct (List.mem_of_find?_eq_some hs) hr hid]

theorem find?_congr {q s : Unique ρ clash} {id : Text}
    (h : ∀ r, (key r).id = id → (r ∈ q.rows ↔ r ∈ s.rows)) : find? q id = find? s id := by
  apply Option.ext
  intro r
  rw [find?_eq_some, find?_eq_some]
  constructor
  · rintro ⟨hr, hid⟩
    exact ⟨(h r hid).mp hr, hid⟩
  · rintro ⟨hr, hid⟩
    exact ⟨(h r hid).mpr hr, hid⟩

theorem find?_set {q : Unique ρ clash} {id : Text} {w : Write ρ} {r : ρ} (hr : find? q id = some r)
    (j : Text) : find? (set q id w) j = if j = id then some (w.apply r) else find? q j := by
  obtain ⟨hmem, hid⟩ := find?_eq_some.mp hr
  split_ifs with hj
  · subst hj
    rw [find?_eq_some, w.key_apply]
    exact ⟨List.mem_map.mpr ⟨r, hmem, if_pos hid⟩, hid⟩
  · refine find?_congr fun s hs => ?_
    simp only [set, Unique.map, List.mem_map]
    constructor
    · rintro ⟨p, hp, rfl⟩
      have hp' : (key p).id ≠ id := by
        intro h
        rw [if_pos h, w.key_apply] at hs
        exact hj (hs.symm.trans h)
      rw [if_neg hp']
      exact hp
    · intro hmem
      exact ⟨s, hmem, if_neg (by rw [hs]; exact hj)⟩

/-- An update writes the row under the id if it passes the guard. -/
theorem update_cases (q : Unique ρ clash) (id : Text) (guard : ρ → Bool) (w : Write ρ) :
    update q id guard w = (q, false) ∨
      ∃ r, find? q id = some r ∧ guard r = true ∧ update q id guard w = (set q id w, true) := by
  unfold update
  cases hr : find? q id with
  | none => exact .inl rfl
  | some r =>
    by_cases hg : guard r = true
    · exact .inr ⟨r, rfl, hg, by simp [hg]⟩
    · exact .inl (by simp [hg])

/-! ### Items -/

/-- A row as an item of its finding. -/
def item (r : ρ) : Item Text Text where
  group := (key r).findingId
  place := (key r).eventSequence
  done := (progress r).finishedAt.isSome
  dead := (progress r).deadAt.isSome
  lease := (progress r).lockToken

def items (q : Unique ρ clash) : Items Text Text Text := fun id => (find? q id).map item

theorem items_eq_some {q : Unique ρ clash} {id : Text} {x : Item Text Text} :
    items q id = some x ↔ ∃ r ∈ q.rows, (key r).id = id ∧ item r = x := by
  simp only [items, Option.map_eq_some_iff, find?_eq_some, and_assoc]

/-- What a call does: nothing, or a change of one row that is not finished. -/
inductive Effect (q : Unique ρ clash) : Notice Text Text → Unique ρ clash → Prop
  | idle : Effect q .silent q
  | changed (r : ρ) (w : Write ρ) (notice : Notice Text Text) (found : find? q (key r).id = some r)
      (unfinished : (progress r).finishedAt = none)
      (change : (items q).Change (key r).id (item r) notice (item (w.apply r))) :
      Effect q notice (set q (key r).id w)

variable {q q' : Unique ρ clash} {notice : Notice Text Text}

/-- Each effect is a move of the protocol. -/
theorem Effect.move (h : Effect q notice q') : (items q).Move notice (items q') := by
  cases h with
  | idle => exact .stay
  | changed r w notice found unfinished change =>
    have heq : items (set q (key r).id w) =
        Function.update (items q) (key r).id (some (item (w.apply r))) := by
      funext j
      rw [items, find?_set found, Function.update_apply]
      split_ifs <;> rfl
    rw [heq]
    refine .changed (key r).id (item r) _ notice ?_ ?_ change
    · rw [items, found]
      rfl
    · simp only [item, unfinished, Option.isSome_none]

/-- A row stays under its id with its key, and as it is once it is finished. -/
theorem Effect.kept (h : Effect q notice q') {id : Text} {r : ρ} (hr : find? q id = some r) :
    ∃ r', find? q' id = some r' ∧ key r' = key r ∧
      ((progress r).finishedAt.isSome = true → r' = r) := by
  cases h with
  | idle => exact ⟨r, hr, rfl, fun _ => rfl⟩
  | changed s w notice found unfinished change =>
    rw [find?_set found]
    split_ifs with hid
    · subst hid
      obtain rfl := Option.some.inj (hr.symm.trans found)
      refine ⟨_, rfl, w.key_apply r, ?_⟩
      rw [unfinished]
      intro h
      cases h
    · exact ⟨r, hr, rfl, fun _ => rfl⟩

/-- The rows keep their keys and their number. -/
theorem Effect.keys (h : Effect q notice q') : q'.rows.map key = q.rows.map key := by
  cases h with
  | idle => rfl
  | changed r w notice found unfinished change =>
    simp only [set, Unique.map, List.map_map]
    refine List.map_congr_left fun s _ => ?_
    simp only [Function.comp]
    split_ifs
    · exact w.key_apply s
    · rfl

/-! ### Calls -/

theorem equals_eq_true {a b : Option Text} (h : equals a b = true) : ∃ t, a = some t ∧ b = some t := by
  unfold equals at h
  split at h
  · exact ⟨_, rfl, congrArg some (of_decide_eq_true h).symm⟩
  · cases h

/-- A row under the lease of an item is pending and carries its token. -/
theorem leasedBy_eq_true {i r : ρ} (h : leasedBy i r = true) :
    ((progress r).finishedAt = none ∧ (progress r).deadAt = none) ∧
      ∃ t, (progress r).lockToken = some t ∧ (progress i).lockToken = some t := by
  simp only [leasedBy, isPending, Bool.and_eq_true, Option.isNone_iff_eq_none] at h
  exact ⟨h.1.1, equals_eq_true h.2⟩

variable [Clock F]

theorem leasedBy_of_heldBy {i r : ρ} {now : F} (h : heldBy i now r = true) : leasedBy i r = true := by
  rw [heldBy, Bool.and_eq_true] at h
  exact h.1

/-- A candidate is pending, and the rows before it are finished. -/
theorem candidate_eq_some {now : F} {r : ρ} (h : candidate q now = some r) :
    find? q (key r).id = some r ∧ (progress r).finishedAt = none ∧ (progress r).deadAt = none ∧
      (items q).Clear (item r).group (item r).place := by
  have hmem := List.mem_of_mem_head? h
  rw [List.mem_insertionSort, List.mem_filter] at hmem
  obtain ⟨hmem, hclaim⟩ := hmem
  simp only [claimable, isPending, Bool.and_eq_true, Option.isNone_iff_eq_none, Bool.not_eq_true',
    List.any_eq_false] at hclaim
  obtain ⟨⟨⟨⟨hfinish, hdead⟩, -⟩, -⟩, hearlier⟩ := hclaim
  refine ⟨find?_eq_some.mpr ⟨hmem, rfl⟩, hfinish, hdead, ?_⟩
  intro j y hy hgroup hplace
  obtain ⟨s, hs, -, rfl⟩ := items_eq_some.mp hy
  have hs := hearlier s hs
  simp only [item] at hgroup hplace ⊢
  simpa [hgroup, hplace, Option.isSome_iff_ne_none] using hs

/-- What the answer of a claim says. -/
def claimNotice (token : Uuid) : Except PyError (Option ρ) → Notice Text Text
  | .ok (some r) => .leased (key r).id token.hex
  | _ => .silent

theorem claim_effect (refusal : Text) (q : Unique ρ clash) (workerId : Text) (leaseSeconds : ℤ)
    (token : Uuid) (now : F) :
    Effect q (claimNotice token (claim refusal q workerId leaseSeconds token now).2)
      (claim refusal q workerId leaseSeconds token now).1 := by
  unfold claim
  by_cases hvalid : blank workerId ∨ leaseSeconds ≤ 0
  · rw [if_pos hvalid]
    exact .idle
  rw [if_neg hvalid]
  cases hcandidate : candidate q now with
  | none => exact .idle
  | some r =>
    simp only
    by_cases hscalar : Scalar workerId
    · obtain ⟨hfound, hfinish, hdead, hclear⟩ := candidate_eq_some hcandidate
      have hw : item ((take (Clock.after now leaseSeconds) workerId token.hex).apply r) =
          { item r with lease := some token.hex } := by
        simp [item, take, written]
      rw [if_neg (not_not.mpr hscalar)]
      simp only [find?_set hfound, if_true, claimNotice, Write.key_apply]
      refine .changed r _ _ hfound hfinish ?_
      rw [hw]
      exact .leased token.hex (by simp [item, hdead]) hclear
    · rw [if_pos hscalar]
      exact .idle

/-- A claim returns the row as it has left it, under its token. -/
theorem claim_eq_some {refusal : Text} {workerId : Text} {leaseSeconds : ℤ} {token : Uuid} {now : F}
    {r : ρ} (h : (claim refusal q workerId leaseSeconds token now).2 = .ok (some r)) :
    find? (claim refusal q workerId leaseSeconds token now).1 (key r).id = some r ∧
      (progress r).lockToken = some token.hex := by
  unfold claim at h ⊢
  by_cases hvalid : blank workerId ∨ leaseSeconds ≤ 0
  · rw [if_pos hvalid] at h
    cases h
  rw [if_neg hvalid] at h ⊢
  cases hcandidate : candidate q now with
  | none =>
    rw [hcandidate] at h
    cases h
  | some s =>
    rw [hcandidate] at h
    simp only at h ⊢
    by_cases hscalar : Scalar workerId
    · rw [if_neg (not_not.mpr hscalar)] at h ⊢
      obtain ⟨hfound, -⟩ := candidate_eq_some hcandidate
      simp only [find?_set hfound, if_true, Except.ok.injEq, Option.some.injEq] at h
      subst h
      rw [Write.key_apply, find?_set hfound, if_pos rfl]
      exact ⟨rfl, by simp [take, written]⟩
    · rw [if_pos hscalar] at h
      cases h

/-- A claim returns a row and leases it, or does nothing. -/
theorem claim_cases (refusal : Text) (q : Unique ρ clash) (workerId : Text) (leaseSeconds : ℤ)
    (token : Uuid) (now : F) :
    (Effect q .silent (claim refusal q workerId leaseSeconds token now).1 ∧
      ∀ r, (claim refusal q workerId leaseSeconds token now).2 ≠ .ok (some r)) ∨
    ∃ r, (claim refusal q workerId leaseSeconds token now).2 = .ok (some r) ∧
      Effect q (.leased (key r).id token.hex) (claim refusal q workerId leaseSeconds token now).1 ∧
      find? (claim refusal q workerId leaseSeconds token now).1 (key r).id = some r := by
  have heffect := claim_effect refusal q workerId leaseSeconds token now
  cases h : (claim refusal q workerId leaseSeconds token now).2 with
  | error e =>
    rw [h] at heffect
    exact .inl ⟨heffect, fun r hr => by cases hr⟩
  | ok found =>
    rw [h] at heffect
    cases found with
    | none => exact .inl ⟨heffect, fun r hr => by cases hr⟩
    | some r => exact .inr ⟨r, rfl, heffect, (claim_eq_some h).1⟩

/-- Finishing the row of an item, with whatever receipt. -/
theorem finish_effect (q : Unique ρ clash) (i : ρ) (now : F) (w : Write ρ)
    (hw : ∀ r, progress (w.apply r) = finish now (progress r)) :
    ∃ notice, (notice = .silent ∨ notice = .finished (key i).id) ∧
      Effect q notice (update q (key i).id (heldBy i now) w).1 := by
  rcases update_cases q (key i).id (heldBy i now) w with h | ⟨r, hr, hheld, h⟩
  · rw [h]
    exact ⟨.silent, .inl rfl, .idle⟩
  · rw [h]
    refine ⟨.finished (key i).id, .inr rfl, ?_⟩
    obtain ⟨⟨hfinish, hdead⟩, t, ht, -⟩ := leasedBy_eq_true (leasedBy_of_heldBy hheld)
    have hid := (find?_eq_some.mp hr).2
    have hitem : item (w.apply r) = { item r with done := true, lease := none } := by
      simp only [item, w.key_apply, hw, finish, Option.isSome_some]
    rw [← hid] at hr ⊢
    refine .changed r w _ hr hfinish ?_
    rw [hitem]
    exact .finished t (by simp [item, hdead]) ht

omit [Clock F] in
/-- Releasing the row of an item, under a guard that asks for its lease. -/
theorem release_effect (q : Unique ρ clash) (i : ρ) {guard : ρ → Bool} (availableAt : F)
    (deadAt : Option F) (error : Text) (hguard : ∀ r, guard r = true → leasedBy i r = true) :
    Effect q .silent (update q (key i).id guard (written (release availableAt deadAt error))).1 := by
  rcases update_cases q (key i).id guard (written (release availableAt deadAt error)) with
    h | ⟨r, hr, hheld, h⟩
  · rw [h]
    exact .idle
  · rw [h]
    obtain ⟨⟨hfinish, hdead⟩, t, ht, -⟩ := leasedBy_eq_true (hguard r hheld)
    have hid := (find?_eq_some.mp hr).2
    rw [← hid] at hr ⊢
    have hitem : item ((written (release availableAt deadAt error)).apply r) =
        { item r with dead := deadAt.isSome, lease := none } := by
      simp [item, written, release]
    refine .changed r _ _ hr hfinish ?_
    rw [hitem]
    exact .released t _ (by simp [item, hdead]) ht

omit [Clock F] in
theorem requeueDead_effect (texts : RequeueTexts) (q : Unique ρ clash) (id confirmation : Text)
    (now : F) : Effect q .silent (requeueDead texts q id confirmation now).1 := by
  unfold requeueDead
  split_ifs
  · exact .idle
  · exact .idle
  · rcases update_cases q id (fun r => (progress r).finishedAt.isNone && (progress r).deadAt.isSome)
      (written (revive now)) with h | ⟨r, hr, hguard, h⟩
    · rw [h]
      exact .idle
    · rw [h]
      simp only [Bool.and_eq_true, Option.isNone_iff_eq_none] at hguard
      obtain ⟨-, rfl⟩ := find?_eq_some.mp hr
      have hitem : item ((written (revive now)).apply r) =
          { item r with dead := false, lease := none } := by
        simp [item, written, revive]
      refine .changed r _ _ hr hguard.1 ?_
      rw [hitem]
      exact .revived hguard.2

omit [Clock F] in
/-- A row that was requeued carries no token. -/
theorem requeueDead_eq_true {texts : RequeueTexts} {id confirmation : Text} {now : F}
    (h : (requeueDead texts q id confirmation now).2 = .ok true) {r : ρ}
    (hr : find? (requeueDead texts q id confirmation now).1 id = some r) :
    (progress r).lockToken = none := by
  unfold requeueDead at h hr
  split_ifs at h hr
  rcases update_cases q id (fun r => (progress r).finishedAt.isNone && (progress r).deadAt.isSome)
    (written (revive now)) with hsame | ⟨s, hs, -, hset⟩
  · rw [hsame] at h
    cases h
  · rw [hset] at hr
    simp only [find?_set hs, if_true, Option.some.injEq] at hr
    subst hr
    simp [written, revive]

omit [Clock F] in
/-- Without the token of the item on its row, a guard that asks for the lease lets nothing pass. -/
theorem update_unleased {i : ρ} {guard : ρ → Bool} (w : Write ρ)
    (hguard : ∀ r, guard r = true → leasedBy i r = true)
    (hlost : ∀ r t, find? q (key i).id = some r → (progress i).lockToken = some t →
      (progress r).lockToken ≠ some t) : update q (key i).id guard w = (q, false) := by
  rcases update_cases q (key i).id guard w with h | ⟨r, hr, hheld, -⟩
  · exact h
  · obtain ⟨-, t, ht, hi⟩ := leasedBy_eq_true (hguard r hheld)
    exact absurd ht (hlost r t hr hi)

/-! ### The queues -/

theorem Outbox.settle_effect (outbox : Outbox F) (item : OutboxRow F) (receipt : Text) (now : F) :
    ∃ notice, (notice = .silent ∨ notice = .finished item.outboxId) ∧
      Effect outbox notice (outbox.settle item receipt now).1 := by
  unfold Outbox.settle
  split_ifs
  · exact finish_effect outbox item now (accepted now receipt) fun r => rfl
  · exact ⟨.silent, .inl rfl, .idle⟩

theorem Outbox.acknowledge_effect (outbox : Outbox F) (item : OutboxRow F) (receipt : Text) (now : F) :
    ∃ notice, (notice = .silent ∨ notice = .finished item.outboxId) ∧
      Effect outbox notice (outbox.acknowledge item receipt now).1 := by
  unfold Outbox.acknowledge
  split
  · exact ⟨.silent, .inl rfl, .idle⟩
  · exact ⟨.silent, .inl rfl, .idle⟩
  · exact outbox.settle_effect item receipt now

theorem Outbox.fail_effect (outbox : Outbox F) (item : OutboxRow F) (error : Text) (permanent : Bool)
    (maxAttempts retryDelay : ℤ) (now : F) :
    Effect outbox .silent (outbox.fail item error permanent maxAttempts retryDelay now).1 := by
  unfold Outbox.fail
  split_ifs
  · exact .idle
  · exact release_effect outbox item _ _ _ fun r => leasedBy_of_heldBy
  · exact .idle

theorem Exports.acknowledge_effect (exports : Exports F) (item : AuditExport F)
    (object : ArchivedAuditObject) (now : F) :
    ∃ notice, (notice = .silent ∨ notice = .finished item.exportId) ∧
      Effect exports notice (exports.acknowledge item object now).1 := by
  unfold Exports.acknowledge
  split_ifs
  · exact finish_effect exports item now (archived now object) fun r => rfl
  · exact ⟨.silent, .inl rfl, .idle⟩

theorem Exports.fail_effect (exports : Exports F) (item : AuditExport F)
    (maxAttempts retryDelay : ℤ) (now : F) :
    Effect exports .silent (exports.fail item maxAttempts retryDelay now).1 := by
  unfold Exports.fail
  split_ifs
  · exact .idle
  · exact release_effect exports item _ _ _ fun r h => h
  · exact .idle

end SentinelGRC.Delivery
