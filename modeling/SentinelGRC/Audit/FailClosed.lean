import SentinelGRC.Audit.Checks
import SentinelGRC.Python.JsonErrors

/-!
The verdict of the verifier on any bytes. It accepts only a chain of records that hold
their own hashes. What it does not accept it rejects or refuses with an exception that
it does not catch, by what the first line outside the chain holds: an integer of too
many digits stops the decoder, and a number that is not finite or a lone surrogate
stops the encoder that the hash is taken with.
-/

namespace SentinelGRC.Audit

open Python Json

variable {F : Type} [PyFloat F] {H : Digest}

/-- Every line is an object that holds the hash of the rest of it and names the hash of
the line before. -/
def Linked (F : Type) [PyFloat F] (H : Digest) : Text → List Text → Prop
  | _, [] => True
  | previous, line :: rest => ∃ (fields : Fields F) (hash : Text),
      loads line = .ok (.obj fields) ∧ recordHash H (pop fields (lit "event_hash")) = .ok hash ∧
      get fields (lit "previous_hash") = .str previous ∧
      get fields (lit "event_hash") = .str hash ∧ Linked F H hash rest

/-- A line that the decoder and, if it is an object, the encoder can handle. -/
structure Handled (F : Type) [PyFloat F] (line : Text) : Prop where
  digits : ∀ message, loads (F := F) line ≠ .error (.valueError message)
  encodable : ∀ fields : Fields F, loads line = .ok (.obj fields) →
    Encodable (.obj (pop fields (lit "event_hash")))

/-- The verifier does not raise, and accepts only a chain. -/
structure FailsClosed (F : Type) [PyFloat F] (H : Digest) (file : File) : Prop where
  total : ∃ valid message, verify F H file = .ok (valid, message)
  sound : ∀ message, verify F H file = .ok (true, message) →
    ∃ text, fileText file = .ok text ∧ Linked F H genesisHash (splitlines text)

/-! ### Lines -/

theorem linked_iff {number : ℕ} {previous : Text} {lines : List Text} :
    (∃ message, verifyLines F H number (.str previous) lines = .ok (true, message)) ↔
      Linked F H previous lines := by
  induction lines generalizing number previous with
  | nil => exact ⟨fun _ => trivial, fun _ => ⟨_, rfl⟩⟩
  | cons line rest ih =>
    have hne : lit "previous_hash" ≠ lit "event_hash" := by decide
    constructor
    · rintro ⟨message, h⟩
      obtain ⟨fields, hash, hload, hhash, hprevious, hsupplied, hrest⟩ := verifyLines_cons.mp h
      rw [get_pop hne] at hprevious
      exact ⟨fields, hash, hload, hhash, pyEq_str.mp hprevious, hsupplied, ih.mp ⟨message, hrest⟩⟩
    · rintro ⟨fields, hash, hload, hhash, hprevious, hsupplied, hrest⟩
      obtain ⟨message, hmessage⟩ := ih.mpr hrest
      refine ⟨message, verifyLines_cons.mpr ⟨fields, hash, hload, hhash, ?_, hsupplied, hmessage⟩⟩
      rw [get_pop hne, hprevious]
      exact pyEq_str.mpr rfl

/-- The errors that `_verify_unlocked` catches. -/
def Caught : PyError → Prop
  | .unicodeDecodeError | .jsonDecodeError | .typeError _ => True
  | _ => False

/-- The loop returns or raises what is caught. -/
def Settles (r : Except PyError (Bool × Text)) : Prop := ∀ e, r = .error e → Caught e

theorem recordHash_error {r : Fields F} {e : PyError} (h : recordHash H r = .error e) : ¬ Caught e := by
  unfold recordHash at h
  cases htext : canonicalJson (.obj r) with
  | error e' =>
    rw [htext] at h
    obtain rfl := Except.error.inj h
    rw [canonicalJson_eq] at htext
    split_ifs at htext
    · unfold dumps at htext
      split_ifs at htext
      obtain rfl := Except.error.inj htext
      exact id
    · obtain rfl := Except.error.inj htext
      exact id
  | ok text =>
    rw [htext] at h
    change (encodeUtf8 text >>= _) = _ at h
    cases hbytes : encodeUtf8 text with
    | ok bytes =>
      rw [hbytes] at h
      cases h
    | error e' =>
      rw [hbytes] at h
      obtain rfl := Except.error.inj h
      unfold encodeUtf8 at hbytes
      split_ifs at hbytes
      obtain rfl := Except.error.inj hbytes
      exact id

/-- Past a line of the chain the loop goes on from its hash. -/
theorem verifyLines_linked {number : ℕ} {previous hash line : Text} {rest : List Text}
    {fields : Fields F} (hload : loads line = .ok (.obj fields))
    (hhash : recordHash H (pop fields (lit "event_hash")) = .ok hash)
    (hprevious : get fields (lit "previous_hash") = .str previous)
    (hsupplied : get fields (lit "event_hash") = .str hash) :
    verifyLines F H number (.str previous) (line :: rest) =
      verifyLines F H (number + 1) (.str hash) rest := by
  have hne : lit "previous_hash" ≠ lit "event_hash" := by decide
  rw [verifyLines, hload]
  change (recordHash H (pop fields (lit "event_hash")) >>= _) = _
  rw [hhash]
  change (if _ then _ else verifyLines F H (number + 1) _ _) = _
  rw [get_pop hne, hprevious, hsupplied, pyEq_str.mpr rfl, pyEq_str.mpr rfl]
  rfl

theorem handled_of_settles {number : ℕ} {previous line : Text} {rest : List Text}
    (h : Settles (verifyLines F H number (.str previous) (line :: rest))) : Handled F line := by
  constructor
  · intro message hload
    rw [verifyLines, hload] at h
    exact h _ rfl
  · intro fields hload
    rw [verifyLines, hload] at h
    change Settles (recordHash H (pop fields (lit "event_hash")) >>= _) at h
    cases hhash : recordHash H (pop fields (lit "event_hash")) with
    | ok hash => exact recordHash_ok.mp ⟨hash, hhash⟩
    | error e =>
      rw [hhash] at h
      exact absurd (h e rfl) (recordHash_error hhash)

/-- A line that is handled ends the loop, or belongs to the chain and lets it go on. -/
theorem settles_of_handled {number : ℕ} {previous line : Text} {rest : List Text}
    (h : Handled F line)
    (hrest : ∀ (fields : Fields F) (hash : Text), loads line = .ok (.obj fields) →
      recordHash H (pop fields (lit "event_hash")) = .ok hash →
      get fields (lit "previous_hash") = .str previous → get fields (lit "event_hash") = .str hash →
        Settles (verifyLines F H (number + 1) (.str hash) rest)) :
    Settles (verifyLines F H number (.str previous) (line :: rest)) := by
  have hne : lit "previous_hash" ≠ lit "event_hash" := by decide
  cases hload : loads (F := F) line with
  | error e =>
    have hcaught : Caught e := by
      have hloads := loadsError_loads line e hload
      cases e with
      | jsonDecodeError => trivial
      | valueError message => exact absurd hload (h.digits message)
      | _ => exact hloads.elim
    rw [verifyLines, hload]
    intro e' he
    obtain rfl := Except.error.inj he
    exact hcaught
  | ok v =>
    cases v with
    | obj fields =>
      obtain ⟨hash, hhash⟩ := (recordHash_ok (H := H)).mpr (h.encodable fields hload)
      by_cases hlinked : get fields (lit "previous_hash") = .str previous ∧
          get fields (lit "event_hash") = .str hash
      · rw [verifyLines_linked hload hhash hlinked.1 hlinked.2]
        exact hrest fields hash hload hhash hlinked.1 hlinked.2
      · have hbad : (!(get (pop fields (lit "event_hash")) (lit "previous_hash")).pyEq (.str previous) ||
            !(get fields (lit "event_hash")).pyEq (.str hash)) = true := by
          rw [get_pop hne]
          by_contra hgood
          simp only [Bool.or_eq_true, Bool.not_eq_true', not_or, Bool.not_eq_false] at hgood
          exact hlinked ⟨pyEq_str.mp hgood.1, pyEq_str.mp hgood.2⟩
        rw [verifyLines, hload]
        change Settles (recordHash H (pop fields (lit "event_hash")) >>= _)
        rw [hhash]
        change Settles (if _ then _ else verifyLines F H (number + 1) _ _)
        rw [if_pos hbad]
        intro e he
        cases he
    | _ =>
      rw [verifyLines, hload]
      intro e he
      cases he

/-- The loop settles exactly when the first line outside the chain, if any, is handled. -/
theorem settles_iff {number : ℕ} {previous : Text} {lines : List Text} :
    Settles (verifyLines F H number (.str previous) lines) ↔
      ∀ earlier line later, lines = earlier ++ line :: later → Linked F H previous earlier →
        Handled F line := by
  induction lines generalizing number previous with
  | nil =>
    constructor
    · intro _ earlier line later heq
      exact absurd heq (by simp)
    · intro _ e he
      cases he
  | cons line rest ih =>
    constructor
    · intro h earlier l later heq hlinked
      cases earlier with
      | nil =>
        obtain ⟨rfl, rfl⟩ := List.cons.inj heq
        exact handled_of_settles h
      | cons first earlier =>
        obtain ⟨rfl, rfl⟩ := List.cons.inj heq
        obtain ⟨fields, hash, hload, hhash, hprevious, hsupplied, hlinked⟩ := hlinked
        rw [verifyLines_linked hload hhash hprevious hsupplied] at h
        exact ih.mp h earlier l later rfl hlinked
    · intro h
      refine settles_of_handled (h [] line rest rfl trivial) ?_
      intro fields hash hload hhash hprevious hsupplied
      refine ih.mpr fun earlier l later heq hlinked => ?_
      exact h (line :: earlier) l later (by rw [heq]; rfl)
        ⟨fields, hash, hload, hhash, hprevious, hsupplied, hlinked⟩

/-! ### Files -/

theorem readText_error {bytes : Bytes} {e : PyError} (h : readText bytes = .error e) :
    e = .unicodeDecodeError := by
  unfold readText at h
  cases hd : decodeUtf8 bytes with
  | ok text =>
    rw [hd] at h
    cases h
  | error e' =>
    rw [hd] at h
    obtain rfl := Except.error.inj h
    unfold decodeUtf8 at hd
    split at hd
    · cases hd
    · exact (Except.error.inj hd).symm

/-- The verifier returns when what it runs settles. -/
theorem verify_total_iff {file : File} :
    (∃ valid message, verify F H file = .ok (valid, message)) ↔
      ∀ text, fileText file = .ok text →
        Settles (verifyLines F H 1 (.str genesisHash) (splitlines text)) := by
  cases file with
  | none =>
    constructor
    · rintro - text htext e he
      obtain rfl := Except.ok.inj htext
      cases he
    · exact fun _ => ⟨_, _, rfl⟩
  | some bytes =>
    rw [verify, fileText]
    cases hread : readText bytes with
    | error e =>
      obtain rfl := readText_error hread
      constructor
      · rintro - text htext
        cases htext
      · exact fun _ => ⟨_, _, rfl⟩
    | ok text =>
      have hloop : ((Except.ok text : Except PyError Text) >>= fun text =>
          verifyLines F H 1 (.str genesisHash) (splitlines text)) =
            verifyLines F H 1 (.str genesisHash) (splitlines text) := rfl
      rw [hloop]
      cases hlines : verifyLines F H 1 (.str genesisHash) (splitlines text) with
      | ok verdict =>
        constructor
        · rintro - text' htext' e he
          obtain rfl := Except.ok.inj htext'
          rw [hlines] at he
          cases he
        · exact fun _ => ⟨verdict.1, verdict.2, rfl⟩
      | error e =>
        constructor
        · rintro ⟨valid, message, h⟩ text' htext' e' he
          obtain rfl := Except.ok.inj htext'
          obtain rfl := Except.error.inj (hlines.symm.trans he)
          cases e with
          | unicodeDecodeError => trivial
          | jsonDecodeError => trivial
          | typeError message => trivial
          | _ => cases h
        · intro h
          have hcaught := h text rfl e hlines
          cases e with
          | unicodeDecodeError => exact ⟨_, _, rfl⟩
          | jsonDecodeError => exact ⟨_, _, rfl⟩
          | typeError message => exact ⟨_, _, rfl⟩
          | _ => exact hcaught.elim

theorem linked_of_verify {file : File} {message : Text} (h : verify F H file = .ok (true, message)) :
    ∃ text, fileText file = .ok text ∧ Linked F H genesisHash (splitlines text) := by
  cases file with
  | none => exact ⟨[], rfl, trivial⟩
  | some bytes =>
    obtain ⟨text, htext, hlines⟩ := verify_true h
    exact ⟨text, htext, linked_iff.mp ⟨message, hlines⟩⟩

/-- The verifier fails closed on a file exactly when the first line that is not part of
the chain, if there is one, holds nothing that it cannot decode or hash. -/
theorem failsClosed_iff (H : Digest) (file : File) : FailsClosed F H file ↔
    ∀ text, fileText file = .ok text → ∀ earlier line later,
      splitlines text = earlier ++ line :: later → Linked F H genesisHash earlier →
        Handled F line := by
  constructor
  · intro h text htext
    exact settles_iff.mp (verify_total_iff.mp h.total text htext)
  · intro h
    refine ⟨verify_total_iff.mpr fun text htext => settles_iff.mpr (h text htext), ?_⟩
    exact fun message => linked_of_verify

/-- One record with a number that is not finite. -/
theorem verify_raises_nan : ¬ ∀ file : File, FailsClosed Empty sha256 file := by
  intro h
  obtain ⟨valid, message, hverify⟩ :=
    (h (some ((lit "\x7b\"a\":NaN\x7d").map (UInt8.ofNat ·.val)))).total
  have hraises : verify Empty sha256 (some ((lit "\x7b\"a\":NaN\x7d").map (UInt8.ofNat ·.val))) =
      .error nonFinite := by
    decide +kernel
  rw [hraises] at hverify
  cases hverify

end SentinelGRC.Audit
