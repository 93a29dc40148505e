import SentinelGRC.Audit.Checks
import SentinelGRC.Audit.SealedLines
import SentinelGRC.Pipeline.LedgerChain

/-!
What the hashes of the audit log and of the evidence ledger bind. Whoever keeps the hash of one
record can tell from any file that verifies and holds a record with that hash that all records
before it are as they were, whatever came after them.
-/

namespace SentinelGRC.Pipeline

open Python Json Protocol
open Audit (File Seal SameRecord fileText readText scalar_lines)

variable {F : Type} [PyFloat F] {H : Digest}

/-- Where two files verify, records with the same hash have the same records before them, or the
hash function has been broken. -/
def Binds (F : Type) [PyFloat F] (verify : File → Except PyError (Bool × Text)) (scheme : Seal)
    (H : Digest) (genesis : Text) : Prop :=
  ∀ (bytes bytes' : Bytes) (message message' : Text), verify (some bytes) = .ok (true, message) →
    verify (some bytes') = .ok (true, message') →
  ∀ (before after before' after' : List Text) (line line' : Text) (fields fields' : Fields F),
    fileLines (some bytes) = before ++ line :: after →
    fileLines (some bytes') = before' ++ line' :: after' →
    loads line = .ok (.obj fields) → loads line' = .ok (.obj fields') →
    Json.get fields scheme.key = Json.get fields' scheme.key →
      List.Forall₂ (SameRecord F) (before ++ [line]) (before' ++ [line']) ∨
        Broken H.hexdigest genesis (scheme.messages F (fileLines (some bytes)))
          (scheme.messages F (fileLines (some bytes')))

/-- A verifier that accepts only chains of sealed records. -/
theorem binds_of_verified {verify : File → Except PyError (Bool × Text)} {scheme : Seal} {genesis : Text}
    (h : ∀ bytes message, verify (some bytes) = .ok (true, message) → ∃ text,
      readText bytes = .ok text ∧ scheme.Verified F H genesis (splitlines text)) :
    Binds F verify scheme H genesis := by
  intro bytes bytes' message message' hverify hverify' before after before' after' line line' fields
    fields' hlines hlines' hload hload' hhash
  obtain ⟨text, htext, hchain⟩ := h bytes message hverify
  obtain ⟨text', htext', hchain'⟩ := h bytes' message' hverify'
  have hscalar := scalar_lines htext
  have hscalar' := scalar_lines htext'
  have hsplit : fileLines (some bytes) = splitlines text := fileLines_eq htext
  have hsplit' : fileLines (some bytes') = splitlines text' := fileLines_eq htext'
  rw [hsplit] at hlines ⊢
  rw [hsplit'] at hlines' ⊢
  rw [hlines] at hchain hscalar ⊢
  rw [hlines'] at hchain' hscalar' ⊢
  exact hchain.binds hchain' hscalar hscalar' hload hload' hhash

/-! ### The audit log -/

def auditSeal : Seal := ⟨lit "event_hash", Audit.recordStyle, by decide⟩

theorem auditLog_verified {number : ℕ} {start : Text} {lines : List Text} {message : Text}
    (h : Audit.verifyLines F H number (.str start) lines = .ok (true, message)) :
    auditSeal.Verified F H start lines := by
  induction lines generalizing number start with
  | nil => exact ⟨[], start, .nil, .nil start⟩
  | cons line rest ih =>
    obtain ⟨fields, hash, hload, hhash, hprevious, hsupplied, hrest⟩ := Audit.verifyLines_cons.mp h
    obtain ⟨-, bytes, hbytes, rfl⟩ := Audit.recordHash_eq_ok.mp hhash
    obtain ⟨links, final, hlines, hchained⟩ := ih hrest
    exact ⟨⟨bytes, start⟩ :: links, final,
      .cons ⟨fields, hload, hbytes, pyEq_str.mp hprevious, hsupplied⟩ hlines, .cons rfl hchained⟩

/-- The hash of a record of the audit log binds all records before it. -/
theorem auditLog_binds (F : Type) [PyFloat F] (H : Digest) :
    Binds F (Audit.verify F H) auditSeal H Audit.genesisHash := by
  refine binds_of_verified fun bytes message h => ?_
  obtain ⟨text, htext, hlines⟩ := Audit.verify_true h
  exact ⟨text, htext, auditLog_verified hlines⟩

/-! ### The evidence ledger -/

def ledgerSeal : Seal := ⟨lit "record_hash", compact, by decide⟩

theorem ledger_verified {number : ℕ} {start : Text} {lines : List Text} {message : Text}
    (h : verifyLines F H number (.str start) lines = .ok (true, message)) :
    ledgerSeal.Verified F H start lines := by
  induction lines generalizing number start with
  | nil => exact ⟨[], start, .nil, .nil start⟩
  | cons line rest ih =>
    obtain ⟨fields, hash, hload, hhash, hprevious, hsupplied, hrest⟩ := verifyLines_cons.mp h
    obtain ⟨text, htext, hhash⟩ := bind_eq_ok.mp hhash
    obtain ⟨bytes, hbytes, hhash⟩ := bind_eq_ok.mp hhash
    obtain rfl := Except.ok.inj hhash
    obtain ⟨links, final, hlines, hchained⟩ := ih hrest
    have hrender : encodeUtf8 ((Json.obj (pop fields (lit "record_hash"))).sortKeys.render compact) =
        .ok bytes := by
      rw [canonicalJson, dumps] at htext
      split_ifs at htext
      rw [Except.ok.inj htext, hbytes]
    exact ⟨⟨bytes, start⟩ :: links, final,
      .cons ⟨fields, hload, hrender, pyEq_str.mp hprevious, hsupplied⟩ hlines, .cons rfl hchained⟩

/-- The hash of a record of the evidence ledger binds all records before it. -/
theorem evidenceLedger_binds (F : Type) [PyFloat F] (H : Digest) :
    Binds F (verifyLedger F H) ledgerSeal H genesisHash := by
  refine binds_of_verified fun bytes message h => ?_
  obtain ⟨text, message, htext, hlines⟩ := verifyLedger_true.mp ⟨message, h⟩
  exact ⟨text, htext, ledger_verified hlines⟩

end SentinelGRC.Pipeline
