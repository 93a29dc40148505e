import SentinelGRC.Audit.Files
import SentinelGRC.Audit.Verifiable

/-!
What the verifier of the audit log checks of any file, and what a call adds to one
that it accepts, whatever wrote the file and whatever line breaks the new record
brings along.
-/

namespace SentinelGRC.Audit

open Python Json

variable {F : Type} [PyFloat F] {H : Digest} {file : File}

/-! ### Verified lines -/

/-- What the loop checks of one line. -/
theorem verifyLines_cons {number : ℕ} {previous : Json F} {line : Text} {rest : List Text}
    {message : Text} : verifyLines F H number previous (line :: rest) = .ok (true, message) ↔
      ∃ fields hash, loads line = .ok (.obj fields) ∧
        recordHash H (pop fields (lit "event_hash")) = .ok hash ∧
        (get (pop fields (lit "event_hash")) (lit "previous_hash")).pyEq previous = true ∧
        get fields (lit "event_hash") = .str hash ∧
        verifyLines F H (number + 1) (.str hash) rest = .ok (true, message) := by
  constructor
  · intro h
    obtain ⟨v, hload, h⟩ := bind_eq_ok.mp h
    cases v with
    | obj fields =>
      obtain ⟨hash, hhash, h⟩ := bind_eq_ok.mp h
      split_ifs at h with hbad
      · cases h
      · simp only [Bool.or_eq_true, Bool.not_eq_true', not_or, Bool.not_eq_false] at hbad
        have hsupplied := pyEq_str.mp hbad.2
        rw [hsupplied] at h
        exact ⟨fields, hash, hload, hhash, hbad.1, hsupplied, h⟩
    | _ => cases h
  · rintro ⟨fields, hash, hload, hhash, hprevious, hsupplied, hrest⟩
    refine bind_eq_ok.mpr ⟨_, hload, bind_eq_ok.mpr ⟨hash, hhash, ?_⟩⟩
    rw [hsupplied, hprevious, pyEq_str.mpr rfl]
    exact hrest

/-- Every line that was verified is an object that holds the hash of the rest of it. -/
theorem forall_verifyLines {number : ℕ} {previous : Json F} {lines : List Text} {message : Text}
    (h : verifyLines F H number previous lines = .ok (true, message)) : ∀ line ∈ lines,
      ∃ (fields : Fields F) (hash : Text), loads line = .ok (.obj fields) ∧
        recordHash H (pop fields (lit "event_hash")) = .ok hash ∧
        get fields (lit "event_hash") = .str hash := by
  induction lines generalizing number previous with
  | nil => simp
  | cons line rest ih =>
    obtain ⟨fields, hash, hload, hhash, -, hsupplied, hrest⟩ := verifyLines_cons.mp h
    intro l hl
    rcases List.mem_cons.mp hl with rfl | hl
    · exact ⟨fields, hash, hload, hhash, hsupplied⟩
    · exact ih hrest l hl

theorem verify_true {message : Text} {bytes : Bytes} (h : verify F H (some bytes) = .ok (true, message)) :
    ∃ text, readText bytes = .ok text ∧
      verifyLines F H 1 (.str genesisHash) (splitlines text) = .ok (true, message) := by
  rw [verify] at h
  cases hread : readText bytes with
  | error e =>
    rw [hread] at h
    cases e <;> cases h
  | ok text =>
    rw [hread] at h
    have hbind : ((Except.ok text : Except PyError Text) >>= fun text =>
        verifyLines F H 1 (.str genesisHash) (splitlines text)) =
      verifyLines F H 1 (.str genesisHash) (splitlines text) := rfl
    rw [hbind] at h
    refine ⟨text, rfl, ?_⟩
    split at h
    · cases h
    · cases h
    · cases h
    · exact h

/-! ### Appending to any file -/

/-- The hash that the next record names, when there is one, is text. -/
theorem lastHash_eq_ok {v : Json F} (h : lastHash H file = .ok v) :
    ∃ previous text : Text, v = .str previous ∧ (∀ c ∈ previous, Plain c) ∧
      fileText file = .ok text := by
  have hgenesis : ∀ c ∈ genesisHash, Plain c := by
    intro c hc
    rw [List.eq_of_mem_replicate hc]
    decide
  cases file with
  | none => exact ⟨genesisHash, [], (Except.ok.inj h).symm, hgenesis, rfl⟩
  | some bytes =>
    obtain ⟨text, htext, h⟩ := bind_eq_ok.mp h
    split_ifs at h with hblank
    · exact ⟨genesisHash, text, (Except.ok.inj h).symm, hgenesis, htext⟩
    · obtain ⟨⟨valid, message⟩, hverify, h⟩ := bind_eq_ok.mp h
      cases valid with
      | false => cases h
      | true =>
        obtain ⟨text', htext', hlines⟩ := verify_true hverify
        obtain rfl := Except.ok.inj (htext.symm.trans htext')
        cases hlast : (splitlines text).getLast? with
        | none =>
          rw [hlast] at h
          cases h
        | some line =>
          rw [hlast] at h
          obtain ⟨fields, hash, hload, hhash, hsupplied⟩ :=
            forall_verifyLines hlines line (List.mem_of_getLast? hlast)
          obtain ⟨w, hw, h⟩ := bind_eq_ok.mp h
          obtain rfl := Except.ok.inj (hload.symm.trans hw)
          simp only at h
          have hplain : ∀ c ∈ hash, Plain c := by
            obtain ⟨-, bytes, -, rfl⟩ := recordHash_eq_ok.mp hhash
            exact plain_hexdigest H bytes
          cases hfield : field (lit "event_hash") fields with
          | none =>
            rw [hfield] at h
            cases h
          | some u =>
            rw [hfield] at h
            rw [Json.get, hfield] at hsupplied
            exact ⟨hash, text, (Except.ok.inj h).symm.trans hsupplied, hplain, htext⟩

variable {eventId eventType target : Text} {recordedAt : UtcDatetime} {actor : Actor}
  {details : Option (Details F)} {file' : File} {record : Fields F}

/-- What a call adds to a file, whatever the file holds. -/
theorem sealed_of_appendRecord
    (h : appendRecord H file eventId recordedAt eventType actor target details = .ok (file', record)) :
    ∃ previous hash text, Sealed H previous (recordBody eventId recordedAt eventType actor target
        details (.str previous)) hash ∧
      record = hashed (recordBody eventId recordedAt eventType actor target details (.str previous))
        hash ∧
      fileText file = .ok text ∧ fileText file' = .ok (text ++ (line record ++ [0xA])) := by
  obtain ⟨v, hlast, h⟩ := bind_eq_ok.mp h
  obtain ⟨previous, text, rfl, -, htext⟩ := lastHash_eq_ok hlast
  obtain ⟨hash, hhash, h⟩ := bind_eq_ok.mp h
  have hs := sealed_recordBody eventId eventType target recordedAt actor details hhash
  obtain ⟨canonical, hcanonical, h⟩ := bind_eq_ok.mp h
  obtain rfl := Except.ok.inj (hs.canonicalJson_hashed.symm.trans hcanonical)
  obtain ⟨bytes, hbytes, h⟩ := bind_eq_ok.mp h
  obtain ⟨rfl, rfl⟩ := Prod.mk.inj (Except.ok.inj h)
  refine ⟨previous, hash, text, hs, rfl, htext,
    fileText_append htext hbytes (le_of_mem_render _) ?_⟩
  rw [line, sortKeys, render]
  exact List.cons_ne_nil _ _

end SentinelGRC.Audit
