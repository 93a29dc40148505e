import SentinelGRC.Audit.Files
import SentinelGRC.Pipeline.Ledger
import SentinelGRC.Python.JsonRoundTrip

/-!
What the calls on the ledger find and add. A search that finds nothing means that no
record has the input hash, and an append adds at most one. To a file that ends its
last line it adds exactly one, whatever the file holds.
-/

namespace SentinelGRC.Pipeline

open Python Json
open Audit (File readText fileText fileText_append Ended)

variable {F : Type} [PyFloat F] {H : Digest} {inputHash : Text} {file : File}

/-! ### Searching -/

theorem countP_of_findLine_none : ∀ {lines : List Text}, findLine F inputHash lines = .ok none →
    lines.countP (hasInputHash F inputHash) = 0
  | [], _ => rfl
  | line :: rest, h => by
    obtain ⟨v, hv, h⟩ := bind_eq_ok.mp h
    cases v with
    | obj record =>
      simp only at h
      split_ifs at h with hid
      · cases h
      · have hline : hasInputHash F inputHash line = false := by
          simpa [hasInputHash, hv] using hid
        rw [List.countP_cons_of_neg (by simp [hline])]
        exact countP_of_findLine_none h
    | _ => cases h

theorem countP_of_findLine_some {record : Fields F} : ∀ {lines : List Text},
    findLine F inputHash lines = .ok (some record) → 0 < lines.countP (hasInputHash F inputHash)
  | [], h => by cases h
  | line :: rest, h => by
    obtain ⟨v, hv, h⟩ := bind_eq_ok.mp h
    cases v with
    | obj found =>
      simp only at h
      split_ifs at h with hid
      · have hline : hasInputHash F inputHash line = true := by
          simpa [hasInputHash, hv] using hid
        rw [List.countP_cons_of_pos hline]
        exact Nat.succ_pos _
      · rw [List.countP_cons]
        have := countP_of_findLine_some h
        omega
    | _ => cases h

/-- What `find_ledger_record` reads before it searches. -/
theorem findLedgerRecord_eq_ok {bytes : Bytes} {found : Option (Fields F)}
    (h : findLedgerRecord F H inputHash (some bytes) = .ok found) :
    ∃ text, readText bytes = .ok text ∧ findLine F inputHash (splitlines text) = .ok found := by
  obtain ⟨⟨valid, message⟩, -, h⟩ := bind_eq_ok.mp h
  cases valid with
  | false => cases h
  | true => exact bind_eq_ok.mp h

/-- A search that finds nothing means that there is nothing. -/
theorem countRecords_of_none (h : findLedgerRecord F H inputHash file = .ok none) :
    countRecords F inputHash file = 0 := by
  cases file with
  | none => rfl
  | some bytes =>
    obtain ⟨text, htext, h⟩ := findLedgerRecord_eq_ok h
    rw [countRecords, fileLines, htext]
    exact countP_of_findLine_none h

theorem countRecords_of_some {record : Fields F}
    (h : findLedgerRecord F H inputHash file = .ok (some record)) :
    0 < countRecords F inputHash file := by
  cases file with
  | none => cases h
  | some bytes =>
    obtain ⟨text, htext, h⟩ := findLedgerRecord_eq_ok h
    rw [countRecords, fileLines, htext]
    exact countP_of_findLine_some h

/-! ### Appending -/

theorem fileLines_eq {text : Text} (h : fileText file = .ok text) : fileLines file = splitlines text := by
  cases file with
  | none =>
    obtain rfl := Except.ok.inj h
    rfl
  | some bytes =>
    rw [fileText] at h
    rw [fileLines, h]

/-- The line of a record, without its end. -/
def line (record : Fields F) : Text := (Json.obj record).sortKeys.render compact

theorem plain_line (record : Fields F) : ∀ c ∈ line record, Plain c := plain_render rfl _

theorem isLineBreak_of_plain {c : CodePoint} (h : Plain c) : isLineBreak c = false := by
  have := h.1
  have := h.2
  rw [← Bool.not_eq_true]
  simp only [isLineBreak, Bool.or_eq_true, Bool.and_eq_true, decide_eq_true_eq, beq_iff_eq]
  omega

theorem line_ne_nil (record : Fields F) : line record ≠ [] := by
  rw [line, sortKeys, render]
  exact List.cons_ne_nil _ _

theorem head_line (record : Fields F) (t : Text) : ∀ c ∈ (line record ++ t).head?, c.val ≠ 0xA := by
  have hplain := plain_line record
  obtain ⟨d, rest, hline⟩ := List.exists_cons_of_ne_nil (line_ne_nil record)
  rw [hline] at hplain ⊢
  intro c hc
  obtain rfl : d = c := by simpa using hc
  have := (hplain d List.mem_cons_self).1
  omega

theorem text_of_verifyLedger {message : Text} (h : verifyLedger F H file = .ok (true, message)) :
    ∃ text, fileText file = .ok text := by
  cases file with
  | none => exact ⟨[], rfl⟩
  | some bytes =>
    rw [fileText]
    cases hread : readText bytes with
    | ok text => exact ⟨text, rfl⟩
    | error e =>
      rw [verifyLedger, hread] at h
      cases e <;> cases h

/-- The record with its own hash added. -/
def hashed (body : Fields F) (hash : Text) : Fields F := setField (lit "record_hash") (.str hash) body

theorem canonicalJson_eq_ok {record : Fields F} {text : Text} :
    canonicalJson (.obj record) = .ok text ↔ Printable (.obj record) ∧ line record = text := by
  rw [canonicalJson, dumps, line]
  split_ifs with hprintable <;> simp [hprintable]

section Append

variable {posture : Fields F} {results : List (Json F)} {extra : Option (Fields F)}
  {recordedAt : UtcDatetime} {file' : File} {record : Fields F}

/-- When `append_evidence_atomic` returns, and with what. -/
theorem appendEvidenceAtomic_eq_ok :
    appendEvidenceAtomic H file posture results extra recordedAt = .ok (file', record) ↔
      ∃ message previous hash bytes, verifyLedger F H file = .ok (true, message) ∧
        previousHash F file = .ok previous ∧
        recordHash H (evidenceBody posture results previous extra recordedAt) = .ok hash ∧
        record = hashed (evidenceBody posture results previous extra recordedAt) hash ∧
        Printable (.obj record) ∧ encodeUtf8 (line record ++ lit "\n") = .ok bytes ∧
        file' = some (file.getD [] ++ bytes) := by
  constructor
  · intro h
    obtain ⟨⟨valid, message⟩, hverify, h⟩ := bind_eq_ok.mp h
    cases valid with
    | false => cases h
    | true =>
      obtain ⟨previous, hprevious, h⟩ := bind_eq_ok.mp h
      obtain ⟨evidence, hevidence, h⟩ := bind_eq_ok.mp h
      obtain ⟨hash, hhash, hevidence⟩ := bind_eq_ok.mp hevidence
      obtain ⟨text, htext, h⟩ := bind_eq_ok.mp h
      obtain ⟨bytes, hbytes, h⟩ := bind_eq_ok.mp h
      obtain ⟨rfl, rfl⟩ := Prod.mk.inj (Except.ok.inj h)
      obtain ⟨hprintable, rfl⟩ := canonicalJson_eq_ok.mp htext
      exact ⟨message, previous, hash, bytes, hverify, hprevious, hhash,
        (Except.ok.inj hevidence).symm, hprintable, hbytes, rfl⟩
  · rintro ⟨message, previous, hash, bytes, hverify, hprevious, hhash, rfl, hprintable, hbytes, rfl⟩
    exact bind_eq_ok.mpr ⟨_, hverify, bind_eq_ok.mpr ⟨previous, hprevious, bind_eq_ok.mpr ⟨_,
      bind_eq_ok.mpr ⟨hash, hhash, rfl⟩, bind_eq_ok.mpr ⟨_, canonicalJson_eq_ok.mpr ⟨hprintable, rfl⟩,
      bind_eq_ok.mpr ⟨bytes, hbytes, rfl⟩⟩⟩⟩⟩

/-- What an append leaves in the file. -/
theorem fileText_appendEvidenceAtomic
    (h : appendEvidenceAtomic H file posture results extra recordedAt = .ok (file', record)) :
    ∃ text, fileText file = .ok text ∧ fileText file' = .ok (text ++ (line record ++ [0xA])) := by
  obtain ⟨message, previous, hash, bytes, hverify, -, -, -, -, hbytes, rfl⟩ :=
    appendEvidenceAtomic_eq_ok.mp h
  obtain ⟨text, htext⟩ := text_of_verifyLedger hverify
  have hplain := plain_line record
  exact ⟨text, htext, fileText_append htext hbytes (fun c hc => (hplain c hc).1) (line_ne_nil record)⟩

/-- An append adds at most one record with an input hash, to whatever file. -/
theorem countRecords_append_le
    (h : appendEvidenceAtomic H file posture results extra recordedAt = .ok (file', record)) :
    countRecords F inputHash file' ≤ countRecords F inputHash file + 1 := by
  obtain ⟨text, hold, hnew⟩ := fileText_appendEvidenceAtomic h
  rw [countRecords, countRecords, fileLines_eq hold, fileLines_eq hnew]
  obtain ⟨d, rest, hline⟩ := List.exists_cons_of_ne_nil (line_ne_nil record)
  have hplain := plain_line record
  rw [hline] at hplain ⊢
  refine countP_splitlinesFrom_append _ ?_ (fun c hc => isLineBreak_of_plain (hplain c hc)) [] text
  have := (hplain d List.mem_cons_self).1
  omega

theorem ended_append
    (h : appendEvidenceAtomic H file posture results extra recordedAt = .ok (file', record)) :
    Ended file' := by
  obtain ⟨text, -, hnew⟩ := fileText_appendEvidenceAtomic h
  exact ⟨_, hnew, terminated_append _ _⟩

/-- To a file that ends its last line, an append adds just its own record. -/
theorem countRecords_append (hended : Ended file)
    (h : appendEvidenceAtomic H file posture results extra recordedAt = .ok (file', record))
    (hrecord : hasInputHash F inputHash (line record) = true) :
    countRecords F inputHash file' = countRecords F inputHash file + 1 := by
  obtain ⟨text, hold, hnew⟩ := fileText_appendEvidenceAtomic h
  obtain ⟨text', hold', hterminated⟩ := hended
  obtain rfl := Except.ok.inj (hold.symm.trans hold')
  rw [countRecords, countRecords, fileLines_eq hold, fileLines_eq hnew,
    splitlines_append hterminated.endsLine (head_line _ _),
    splitlines_line [] fun c hc => isLineBreak_of_plain (plain_line record c hc), List.countP_append,
    List.countP_cons_of_pos hrecord]
  rfl

end Append

/-! ### The record of a run -/

/-- A value as `json.loads` returns it. -/
structure Loaded (v : Json F) : Prop where
  distinct : Distinct v
  whole : Whole v

omit [PyFloat F] in
theorem loaded_null : Loaded (.null : Json F) := ⟨rfl, rfl⟩

omit [PyFloat F] in
theorem loaded_str {t : Text} (h : Joined t) : Loaded (.str t : Json F) :=
  ⟨rfl, by simpa [Whole, all, joinedNode] using h⟩

omit [PyFloat F] in
theorem loaded_plain {t : Text} (h : ∀ c ∈ t, Plain c) : Loaded (.str t : Json F) :=
  loaded_str (joined_of_scalar fun c hc => isSurrogate_of_plain (h c hc))

omit [PyFloat F] in
theorem loaded_obj {fs : Fields F} : Loaded (.obj fs) ↔ (fs.map Prod.fst).Nodup ∧
    (∀ key ∈ fs.map Prod.fst, Joined key) ∧ ∀ f ∈ fs, Loaded f.2 := by
  have hwhole : Whole (.obj fs) ↔ (∀ key ∈ fs.map Prod.fst, Joined key) ∧ ∀ f ∈ fs, Whole f.2 := by
    simp only [Whole, all, joinedNode, Bool.and_eq_true, allFields_eq_all, List.all_eq_true,
      decide_eq_true_eq, allField_eq]
  constructor
  · rintro ⟨hd, hw⟩
    have hd := distinct_obj.mp hd
    have hw := hwhole.mp hw
    exact ⟨hd.1, hw.1, fun f hf => ⟨hd.2 f hf, hw.2 f hf⟩⟩
  · rintro ⟨hkeys, hjoined, hvalues⟩
    exact ⟨distinct_obj.mpr ⟨hkeys, fun f hf => (hvalues f hf).distinct⟩,
      hwhole.mpr ⟨hjoined, fun f hf => (hvalues f hf).whole⟩⟩

omit [PyFloat F] in
theorem loaded_arr {xs : List (Json F)} (h : ∀ x ∈ xs, Loaded x) : Loaded (.arr xs) := by
  have hitems {p : Json F → Bool} (hp : ∀ x ∈ xs, x.all p = true) : allItems p xs = true := by
    induction xs with
    | nil => rfl
    | cons x xs ih =>
      rw [allItems, hp x List.mem_cons_self, ih (fun y hy => h y (List.mem_cons_of_mem x hy))
        fun y hy => hp y (List.mem_cons_of_mem x hy)]
      rfl
  refine ⟨?_, ?_⟩
  · rw [Distinct, all, hitems fun x hx => (h x hx).distinct]
    rfl
  · rw [Whole, all, hitems fun x hx => (h x hx).whole]
    rfl

omit [PyFloat F] in
theorem Loaded.get {fs : Fields F} (h : Loaded (.obj fs)) (key : Text) : Loaded (get fs key) := by
  obtain ⟨hkeys, -, hvalues⟩ := loaded_obj.mp h
  rw [Json.get]
  cases hv : field key fs with
  | none => exact loaded_null
  | some v => exact hvalues _ ((field_eq_some hkeys).mp hv)

/-- The line of a loaded record reads back as it. -/
theorem loads_line {record : Fields F} (h : Loaded (.obj record)) (hp : Printable (.obj record)) :
    loads (line record) = .ok (.obj (sortDict record)) := by
  rw [line, ← sortKeys_obj]
  refine loads_render ?_
  rw [sortStable_roundTripNode.all_sortKeys, all_roundTripNode]
  exact ⟨hp, h.distinct, fun _ => h.whole⟩

theorem hasInputHash_line {record : Fields F} (h : Loaded (.obj record))
    (hp : Printable (.obj record)) (hid : get record (lit "input_hash") = .str inputHash) :
    hasInputHash F inputHash (line record) = true := by
  rw [hasInputHash, loads_line h hp]
  change (get (sortDict record) (lit "input_hash")).pyEq (.str inputHash) = true
  rw [get_sortDict (loaded_obj.mp h).1, hid, sortKeys]
  exact pyEq_str.mpr rfl

end SentinelGRC.Pipeline
