import SentinelGRC.Pipeline.Execution

/-!
One append to a ledger that verifies, whatever bytes it holds. The append writes its
record as a line and relies on the file for the line to begin. A file that verifies
may end in the middle of a line, as an interrupted write leaves it: then the record
continues the last one, and neither is a record any more.
-/

namespace SentinelGRC.Pipeline

open Python Json
open Audit (File fileText BreaksLine)

variable {F : Type} [PyFloat F] {H : Digest} {file file' : File} {record : Fields F}

/-- The records of a ledger, as its lines read. -/
def records (F : Type) [PyFloat F] (file : File) : List (Except PyError (Json F)) :=
  (fileLines file).map loads

/-- The ledger still verifies, its records are unchanged and one follows them. -/
structure AppendsRecord (H : Digest) (file file' : File) (record : Fields F) : Prop where
  verifies : ∃ message, verifyLedger F H file' = .ok (true, message)
  records_eq : records F file' = records F file ++ [.ok (.obj (sortDict record))]

variable {posture : Fields F} {results : List (Json F)} {inputHash runId : Text}
  {recordedAt : UtcDatetime}

/-- A file that does not end its last line has as many lines after an append as before. -/
theorem length_records_append {extra : Option (Fields F)}
    (h : appendEvidenceAtomic H file posture results extra recordedAt = .ok (file', record))
    (hopen : ¬ BreaksLine file) : (records F file').length = (records F file).length := by
  obtain ⟨text, hold, hnew⟩ := fileText_appendEvidenceAtomic h
  have hends : ¬ EndsLine text := fun he => hopen ⟨text, hold, he⟩
  rw [records, records, List.length_map, List.length_map, fileLines_eq hold, fileLines_eq hnew]
  exact length_splitlines_append hends fun c hc => isLineBreak_of_plain (plain_line record c hc)

/-- An append of the record of a run to a ledger that verifies leaves a ledger that
verifies, with the old records and the new one, exactly when its line begins there. -/
theorem appendsRecord_iff (hposture : Loaded (.obj posture)) (hresults : ∀ v ∈ results, Loaded v)
    (hinput : ∀ c ∈ inputHash, Plain c) (hrun : ∀ c ∈ runId, Plain c)
    (h : appendEvidenceAtomic H file posture results (some [(lit "input_hash", .str inputHash),
      (lit "pipeline_run_id", .str runId)]) recordedAt = .ok (file', record)) :
    AppendsRecord H file file' record ↔ BreaksLine file := by
  constructor
  · intro happends
    by_contra hopen
    have hlength := length_records_append h hopen
    rw [happends.records_eq, List.length_append, List.length_singleton] at hlength
    omega
  · intro hbreaks
    refine ⟨verifyLedger_append hposture hresults hinput hrun hbreaks h, ?_⟩
    obtain ⟨text, hold, hnew⟩ := fileText_appendEvidenceAtomic h
    obtain ⟨text', hold', hends⟩ := hbreaks
    obtain rfl := Except.ok.inj (hold.symm.trans hold')
    obtain ⟨-, -, previous, body, hash, -, -, -, hsealed, rfl, -⟩ :=
      sealed_of_append hposture hresults hinput hrun h
    rw [records, records, fileLines_eq hold, fileLines_eq hnew,
      splitlines_append hends (head_line _ _),
      splitlines_line [] fun c hc => isLineBreak_of_plain (plain_line _ c hc), List.map_append]
    change _ ++ [loads (line (hashed body hash))] = _
    rw [loads_line hsealed.loaded_hashed hsealed.printable_hashed]

/-- The line of a record whose predecessor is none, left without its end. -/
theorem verifyLedger_unended {body : Fields F} {hash : Text} (h : Sealed H genesisHash body hash) :
    ∃ bytes, (∃ message, verifyLedger F H (some bytes) = .ok (true, message)) ∧
      ¬ BreaksLine (some bytes) := by
  have hplain := plain_line (hashed body hash)
  have hscalar : Scalar (line (hashed body hash)) := fun c hc => isSurrogate_of_plain (hplain c hc)
  obtain ⟨bytes, hbytes⟩ : ∃ bytes, encodeUtf8 (line (hashed body hash)) = .ok bytes :=
    ⟨_, encodeUtf8_eq_ok.mpr ⟨hscalar, rfl⟩⟩
  have hbreak : ∀ c ∈ line (hashed body hash), isLineBreak c = false :=
    fun c hc => isLineBreak_of_plain (hplain c hc)
  have htext : fileText (some bytes) = .ok (line (hashed body hash)) := by
    rw [fileText, Audit.readText, decodeUtf8_encodeUtf8 hbytes]
    change Except.ok (universalNewlines _) = _
    rw [universalNewlines_eq_self]
    intro c hc he
    have := (hplain c hc).1
    omega
  refine ⟨bytes, verifyLedger_true.mpr ⟨_, lit "Ledger integrity verified.", htext, ?_⟩, ?_⟩
  · rw [splitlines_unbroken hbreak (line_ne_nil _)]
    exact h.verifyLines_line 1
  · rintro ⟨text, htext', hends⟩
    obtain rfl := Except.ok.inj (htext.symm.trans htext')
    rcases hends with hnil | ⟨s, c, hline, hc⟩
    · exact line_ne_nil _ hnil
    · rw [hbreak c (by rw [hline]; simp)] at hc
      cases hc

/-! ### One posture -/

theorem appendsRecord_first : ∃ file' record,
    AppendsRecord (F := Empty) sha256 none file' record := by
  obtain ⟨file', record, happend⟩ := @exists_append_posture none ⟨_, rfl⟩
  refine ⟨file', record, ?_⟩
  exact (appendsRecord_iff postureRequest.loaded (loaded_values []) postureRequest.plain_inputHash
    postureRequest.plain_runId happend).mpr Audit.ended_none.breaksLine

/-- A ledger of one record whose last byte was not written. -/
theorem unended_merged : ¬ ∀ (file file' : File) (record : Fields Empty),
    (∃ message, verifyLedger Empty sha256 file = .ok (true, message)) →
      appendEvidenceAtomic sha256 file postureRequest.posture
        (([] : List (Value Empty)).map Subtype.val) (some postureRequest.extra) noon =
          .ok (file', record) → AppendsRecord sha256 file file' record := by
  intro h
  obtain ⟨first, record, hfirst⟩ := @exists_append_posture none ⟨_, rfl⟩
  obtain ⟨text, message, previous, body, hash, htext, -, hlast, hsealed, -⟩ :=
    sealed_of_append postureRequest.loaded (loaded_values []) postureRequest.plain_inputHash
      postureRequest.plain_runId hfirst
  obtain rfl := Except.ok.inj htext
  obtain rfl : genesisHash = previous := Json.str.inj hlast
  obtain ⟨bytes, hverify, hopen⟩ := verifyLedger_unended hsealed
  obtain ⟨file', record', happend⟩ := exists_append_posture hverify
  exact hopen ((appendsRecord_iff postureRequest.loaded (loaded_values [])
    postureRequest.plain_inputHash postureRequest.plain_runId happend).mp
      (h _ _ _ hverify happend))

end SentinelGRC.Pipeline
