import SentinelGRC.Audit.Log
import SentinelGRC.Python.JsonRoundTrip

/-!
What the audit log promises after any calls: the file verifies, holds the records
returned so far, and is no reason to refuse a later append. The reader splits lines
at breaks that the writer leaves unescaped, so the promise is kept as long as no
record brings one along.
-/

namespace SentinelGRC.Audit

open Python Json Transition

variable {F : Type}

/-! ### Canonical JSON -/

def finiteNode : Json F → Bool
  | .float (.finite _) => true
  | .float _ => false
  | _ => true

theorem sortStable_finiteNode : SortStable (finiteNode (F := F)) := ⟨fun _ => rfl, fun _ => rfl⟩

def nonFinite : PyError :=
  .valueError (lit "non-finite numbers are not permitted in audit records")

mutual
theorem normalize_eq : ∀ v : Json F,
    normalize v = if v.all finiteNode then .ok v.sortKeys else .error nonFinite
  | .null | .bool _ | .int _ | .str _ => rfl
  | .float (.finite _) | .float .nan | .float (.infinity _) => rfl
  | .arr xs => by
    rw [normalize, normalizeItems_eq xs, all, finiteNode, Bool.true_and, sortKeys]
    · split_ifs <;> rfl
    · simp
    · simp
  | .obj fs => by
    rw [normalize, normalizeFields_eq fs, all, finiteNode, Bool.true_and, sortKeys]
    · split_ifs <;> rfl
    · simp
    · simp

theorem normalizeItems_eq : ∀ xs : List (Json F),
    normalizeItems xs = if allItems finiteNode xs then .ok (sortItems xs) else .error nonFinite
  | [] => rfl
  | x :: xs => by
    rw [normalizeItems, normalize_eq x, normalizeItems_eq xs, allItems, sortItems]
    cases x.all finiteNode <;> cases allItems finiteNode xs <;> rfl

theorem normalizeFields_eq : ∀ fs : Fields F,
    normalizeFields fs = if allFields finiteNode fs then .ok (sortFields fs) else .error nonFinite
  | [] => rfl
  | (k, v) :: fs => by
    rw [normalizeFields, normalizeField, normalize_eq v, normalizeFields_eq fs, allFields, allField,
      sortFields, sortField]
    cases v.all finiteNode <;> cases allFields finiteNode fs <;> rfl
end

/-- A value that the log can hash and write. -/
structure Encodable (v : Json F) : Prop where
  finite : v.all finiteNode = true
  printable : Printable v
  scalars : Scalars v

theorem encodable_iff {v : Json F} : Encodable v ↔ v.all finiteNode = true ∧
    v.all printableNode = true ∧ v.all (charsNode fun c => !isSurrogate c) = true :=
  ⟨fun h => ⟨h.finite, h.printable, h.scalars⟩, fun h => ⟨h.1, h.2.1, h.2.2⟩⟩

variable [PyFloat F]

theorem canonicalJson_eq (v : Json F) : canonicalJson v =
    if v.sortKeys.all finiteNode then dumps recordStyle v.sortKeys else .error nonFinite := by
  rw [canonicalJson, normalize_eq, sortStable_finiteNode.all_sortKeys]
  split_ifs <;> rfl

theorem canonicalJson_eq_ok {v : Json F} {t : Text} : canonicalJson v = .ok t ↔
    v.all finiteNode = true ∧ Printable v ∧ v.sortKeys.render recordStyle = t := by
  rw [canonicalJson_eq, sortStable_finiteNode.all_sortKeys, dumps_sortKeys, dumps]
  by_cases hf : v.all finiteNode = true
  · by_cases hp : Printable v <;> simp [hf, hp]
  · simp [hf]

theorem recordHash_congr {H : Digest} {r s : Fields F}
    (h : (Json.obj r).sortKeys = (Json.obj s).sortKeys) : recordHash H r = recordHash H s := by
  rw [recordHash, recordHash, canonicalJson_eq, canonicalJson_eq, h]

/-- A record has a hash exactly when it can be encoded. -/
theorem recordHash_eq_ok {H : Digest} {r : Fields F} {hash : Text} : recordHash H r = .ok hash ↔
    Encodable (.obj r) ∧ ∃ bytes,
      encodeUtf8 ((Json.obj r).sortKeys.render recordStyle) = .ok bytes ∧ H.hexdigest bytes = hash := by
  constructor
  · intro h
    obtain ⟨t, hc, hrest⟩ := bind_eq_ok.mp h
    obtain ⟨bytes, he, hhash⟩ := bind_eq_ok.mp hrest
    obtain ⟨hf, hp, rfl⟩ := canonicalJson_eq_ok.mp hc
    refine ⟨⟨hf, hp, ?_⟩, bytes, he, Except.ok.inj hhash⟩
    rw [← scalars_sortKeys]
    exact scalars_of_render rfl _ (encodeUtf8_eq_ok.mp he).1
  · rintro ⟨⟨hf, hp, -⟩, bytes, he, rfl⟩
    exact bind_eq_ok.mpr ⟨_, canonicalJson_eq_ok.mpr ⟨hf, hp, rfl⟩, bind_eq_ok.mpr ⟨bytes, he, rfl⟩⟩

theorem recordHash_ok {H : Digest} {r : Fields F} :
    (∃ hash, recordHash H r = .ok hash) ↔ Encodable (.obj r) := by
  constructor
  · rintro ⟨hash, h⟩
    exact (recordHash_eq_ok.mp h).1
  · intro h
    have hs : Scalar ((Json.obj r).sortKeys.render recordStyle) :=
      scalar_render ((scalars_sortKeys _).mpr h.scalars)
    exact ⟨_, recordHash_eq_ok.mpr ⟨h, _, encodeUtf8_eq_ok.mpr ⟨hs, rfl⟩, rfl⟩⟩

/-! ### Records -/

/-- The record with its own hash added. -/
def hashed (body : Fields F) (hash : Text) : Fields F := body ++ [(lit "event_hash", .str hash)]

/-- What the log writes after the record that has the hash `previous`. -/
structure Sealed (H : Digest) (previous : Text) (body : Fields F) (hash : Text) : Prop where
  distinct : Distinct (.obj body)
  fresh : lit "event_hash" ∉ body.map Prod.fst
  linked : get body (lit "previous_hash") = .str previous
  hash_eq : recordHash H body = .ok hash

/-- The line of a record, without its end. -/
def line (record : Fields F) : Text := (Json.obj record).sortKeys.render recordStyle

theorem plain_of_isLowerHex {c : CodePoint} (h : isLowerHex c = true) : Plain c := by
  simp only [isLowerHex, Bool.or_eq_true, Bool.and_eq_true, decide_eq_true_eq] at h
  exact ⟨by omega, by omega⟩

theorem plain_hexdigest (H : Digest) (bytes : Bytes) : ∀ c ∈ H.hexdigest bytes, Plain c :=
  fun c hc => plain_of_isLowerHex (H.isLowerHex_hexdigest bytes c hc)

omit [PyFloat F] in
theorem all_obj_append {p : Json F → Bool} {fs gs : Fields F} (h : p (.obj (fs ++ gs)) = true) :
    (Json.obj (fs ++ gs)).all p = (fs.all (allField p) && gs.all (allField p)) := by
  rw [all, h, Bool.true_and, allFields_eq_all, List.all_append]

variable {H : Digest} {previous hash : Text} {body : Fields F}

namespace Sealed

variable (h : Sealed H previous body hash)

include h

theorem plain_hash : ∀ c ∈ hash, Plain c := by
  obtain ⟨-, bytes, -, rfl⟩ := recordHash_eq_ok.mp h.hash_eq
  exact plain_hexdigest H bytes

theorem nodup : ((hashed body hash).map Prod.fst).Nodup := by
  rw [hashed, List.map_append, List.nodup_append]
  refine ⟨(distinct_obj.mp h.distinct).1, by simp, ?_⟩
  intro a ha b hb hab
  obtain rfl : b = lit "event_hash" := by simpa using hb
  exact h.fresh (hab ▸ ha)

theorem distinct_hashed : Distinct (.obj (hashed body hash)) := by
  rw [distinct_obj]
  refine ⟨h.nodup, fun f hf => ?_⟩
  rcases List.mem_append.mp hf with hf | hf
  · exact (distinct_obj.mp h.distinct).2 f hf
  · obtain rfl := List.mem_singleton.mp hf
    rfl

theorem charsNode_hashed {p : CodePoint → Bool} (hp : ∀ c, Plain c → p c = true)
    (hbody : (Json.obj body).all (charsNode p) = true) :
    (Json.obj (hashed body hash)).all (charsNode p) = true := by
  have hkey : (lit "event_hash").all p = true := by
    rw [List.all_eq_true]
    exact fun c hc => hp c (plain_lit (by decide) c hc)
  have hval : hash.all p = true := by
    rw [List.all_eq_true]
    exact fun c hc => hp c (h.plain_hash c hc)
  rw [all, charsNode, allFields_eq_all, Bool.and_eq_true] at hbody
  rw [hashed, all, charsNode, allFields_eq_all, List.all_append, List.all_append, hbody.1, hbody.2]
  simpa [allField, all, charsNode, hkey] using hval

theorem encodable : Encodable (.obj (hashed body hash)) := by
  have hbody := recordHash_ok.mp ⟨hash, h.hash_eq⟩
  refine ⟨?_, ?_, ?_⟩
  · have := hbody.finite
    rw [all, finiteNode, allFields_eq_all] at this
    · rw [hashed, all_obj_append rfl]
      simpa [allField, all, finiteNode] using this
    · simp
    · simp
  · have := hbody.printable
    rw [Printable, all, printableNode, allFields_eq_all] at this
    · rw [hashed, Printable, all_obj_append rfl]
      simpa [allField, all, printableNode] using this
    · simp
  · refine h.charsNode_hashed (fun c hc => ?_) hbody.scalars
    rw [isSurrogate_of_plain hc]
    rfl

theorem framed (hframed : Framed (.obj body)) : Framed (.obj (hashed body hash)) := by
  refine h.charsNode_hashed (fun c hc => ?_) hframed
  have := hc.2
  simp only [isUnescapedBreak, Bool.not_eq_true', Bool.or_eq_false_iff, beq_eq_false_iff_ne]
  omega

/-- The writer's text of the record is its line. -/
theorem canonicalJson_hashed : canonicalJson (.obj (hashed body hash)) = .ok (line (hashed body hash)) :=
  canonicalJson_eq_ok.mpr ⟨h.encodable.finite, h.encodable.printable, rfl⟩

theorem scalar_line : Scalar (line (hashed body hash)) :=
  scalar_render ((scalars_sortKeys _).mpr h.encodable.scalars)

/-- The reader takes the line for the record with its keys sorted. -/
theorem loads_line : loads (line (hashed body hash)) = .ok (.obj (sortDict (hashed body hash))) := by
  rw [line, ← sortKeys_obj]
  refine loads_render ?_
  rw [sortStable_roundTripNode.all_sortKeys, all_roundTripNode]
  exact ⟨h.encodable.printable, h.distinct_hashed, fun hascii => absurd hascii (by decide)⟩

theorem field_event_hash :
    field (lit "event_hash") (sortDict (hashed body hash)) = some (.str hash) := by
  have hmem : (lit "event_hash", Json.str hash) ∈ hashed body hash :=
    List.mem_append_right _ (List.mem_singleton_self _)
  rw [sortDict, field_sortKeys h.nodup, (field_eq_some h.nodup).mpr hmem, Option.map_some, sortKeys]

theorem get_event_hash : Json.get (sortDict (hashed body hash)) (lit "event_hash") = .str hash := by
  rw [Json.get, h.field_event_hash, Option.getD_some]

theorem pop_event_hash : pop (hashed body hash) (lit "event_hash") = body := by
  have hkeep : pop body (lit "event_hash") = body := by
    refine List.filter_eq_self.mpr fun f hf => ?_
    simp only [decide_eq_true_eq]
    intro he
    exact h.fresh (List.mem_map.mpr ⟨f, hf, he⟩)
  rw [hashed, pop, List.filter_append]
  change pop body _ ++ _ = _
  rw [hkeep]
  simp

theorem get_previous_hash :
    get (pop (sortDict (hashed body hash)) (lit "event_hash")) (lit "previous_hash") =
      .str previous := by
  have hne : lit "previous_hash" ≠ lit "event_hash" := by decide
  rw [get_pop hne, get_sortDict h.nodup, ← get_pop hne, h.pop_event_hash, h.linked, sortKeys]

/-- The hash the reader computes. -/
theorem recordHash_pop :
    recordHash H (pop (sortDict (hashed body hash)) (lit "event_hash")) = .ok hash := by
  rw [recordHash_congr (sortKeys_pop h.nodup _), h.pop_event_hash, h.hash_eq]

theorem isLineBreak_line (hf : Framed (.obj body)) :
    ∀ c ∈ line (hashed body hash), isLineBreak c = false := by
  refine isLineBreak_render ?_
  rw [Framed, (sortStable_charsNode _).all_sortKeys]
  exact h.framed hf

end Sealed

/-! ### Chains -/

/-- Records, oldest first, that lead from one hash to another, none with a line break of its own. -/
inductive Chained (H : Digest) : Text → List (Fields F) → Text → Prop
  | nil (previous : Text) : Chained H previous [] previous
  | cons {previous hash last : Text} {body : Fields F} {rest : List (Fields F)}
      (sealed : Sealed H previous body hash) (framed : Framed (.obj body))
      (chained : Chained H hash rest last) : Chained H previous (hashed body hash :: rest) last

theorem Chained.concat {last : Text} {records : List (Fields F)}
    (h : Chained H previous records last) (hs : Sealed H last body hash)
    (hf : Framed (.obj body)) : Chained H previous (records ++ [hashed body hash]) hash := by
  induction h with
  | nil previous => exact .cons hs hf (.nil hash)
  | cons sealed framed _ ih => exact .cons sealed framed (ih hs)

/-- The hash that a chain ends with is that of its last record. -/
theorem Chained.last_eq {last : Text} {records : List (Fields F)}
    (h : Chained H previous records last) : (records = [] ∧ last = previous) ∨
      ∃ earlier p b, Sealed H p b last ∧ records = earlier ++ [hashed b last] := by
  induction h with
  | nil previous => exact .inl ⟨rfl, rfl⟩
  | @cons previous hash last body rest sealed framed chained ih =>
    rcases ih with ⟨rfl, rfl⟩ | ⟨earlier, p, b, hb, rfl⟩
    · exact .inr ⟨[], previous, body, sealed, rfl⟩
    · exact .inr ⟨hashed body hash :: earlier, p, b, hb, rfl⟩

/-- The text of a file with these records. -/
def logText (records : List (Fields F)) : Text := records.flatMap fun r => line r ++ [0xA]

theorem logText_concat (records : List (Fields F)) (r : Fields F) :
    logText (records ++ [r]) = logText records ++ (line r ++ [0xA]) := by
  simp [logText]

/-- The reader gets back the lines of the records. -/
theorem splitlines_logText {last : Text} {records : List (Fields F)}
    (h : Chained H previous records last) : splitlines (logText records) = records.map line := by
  induction h with
  | nil previous => rfl
  | @cons previous hash last body rest sealed framed chained ih =>
    have htext : logText (hashed body hash :: rest) =
        line (hashed body hash) ++ 0xA :: logText rest := by
      simp [logText]
    rw [htext, splitlines_line _ (sealed.isLineBreak_line framed), ih, List.map_cons]

theorem no_return_logText {last : Text} {records : List (Fields F)}
    (h : Chained H previous records last) : ∀ c ∈ logText records, c.val ≠ 0xD := by
  induction h with
  | nil previous => simp [logText]
  | @cons previous hash last body rest sealed framed chained ih =>
    intro c hc
    simp only [logText, List.flatMap_cons, List.mem_append, List.mem_singleton] at hc
    rcases hc with (hc | rfl) | hc
    · have hb := sealed.isLineBreak_line framed c hc
      intro he
      rw [isLineBreak, he] at hb
      simp at hb
    · decide
    · exact ih c hc

/-- The loop of `_verify_unlocked` accepts a chain. -/
theorem verifyLines_chained {last : Text} {records : List (Fields F)}
    (h : Chained H previous records last) (number : ℕ) :
    verifyLines F H number (.str previous) (records.map line) =
      .ok (true, lit "Audit log integrity verified.") := by
  induction h generalizing number with
  | nil previous => rfl
  | @cons previous hash last body rest sealed framed chained ih =>
    rw [List.map_cons, verifyLines, sealed.loads_line]
    change (recordHash H (pop (sortDict (hashed body hash)) (lit "event_hash")) >>= _) = _
    rw [sealed.recordHash_pop]
    change (if _ then _ else verifyLines F H (number + 1) _ _) = _
    rw [sealed.get_previous_hash, sealed.get_event_hash, pyEq_str.mpr rfl, pyEq_str.mpr rfl]
    exact ih (number + 1)

/-! ### Files -/

/-- The file holds a chain of records from the genesis hash. -/
structure Holds (H : Digest) (file : File) (records : List (Fields F)) (last : Text) : Prop where
  chained : Chained H genesisHash records last
  content : (file = none ∧ records = []) ∨
    ∃ bytes, file = some bytes ∧ encodeUtf8 (logText records) = .ok bytes

variable {file : File} {records : List (Fields F)} {last : Text}

theorem holds_none : Holds (F := F) H none [] genesisHash := ⟨.nil _, .inl ⟨rfl, rfl⟩⟩

namespace Holds

variable (h : Holds H file records last)

include h

theorem readText_eq {bytes : Bytes} (he : encodeUtf8 (logText records) = .ok bytes) :
    readText bytes = .ok (logText records) := by
  rw [readText, decodeUtf8_encodeUtf8 he]
  change Except.ok (universalNewlines _) = _
  rw [universalNewlines_eq_self _ (no_return_logText h.chained)]

theorem verify_eq : ∃ message, verify F H file = .ok (true, message) := by
  rcases h.content with ⟨rfl, -⟩ | ⟨bytes, rfl, he⟩
  · exact ⟨_, rfl⟩
  · refine ⟨lit "Audit log integrity verified.", ?_⟩
    have hlines : (do
        let text ← readText bytes
        verifyLines F H 1 (.str genesisHash) (splitlines text)) =
          .ok (true, lit "Audit log integrity verified.") := by
      rw [h.readText_eq he]
      change verifyLines F H 1 (.str genesisHash) (splitlines (logText records)) = _
      rw [splitlines_logText h.chained, verifyLines_chained h.chained]
    rw [verify, hlines]

omit h in
theorem blank_logText (hne : records ≠ []) : blank (logText records) = false := by
  obtain ⟨r, rest, rfl⟩ := List.exists_cons_of_ne_nil hne
  rw [← Bool.not_eq_true, blank_iff]
  intro hall
  have hmem : ofChar '\x7b' ∈ logText (r :: rest) := by
    simp [logText, line, sortKeys, render]
  exact absurd (hall _ hmem) (by decide)

/-- The hash that the next record is chained to. -/
theorem lastHash_eq : lastHash (F := F) H file = .ok (.str last) := by
  rcases h.content with ⟨rfl, rfl⟩ | ⟨bytes, rfl, he⟩
  · cases h.chained
    rfl
  · obtain ⟨message, hv⟩ := h.verify_eq
    rw [lastHash, h.readText_eq he]
    change (if blank (logText records) = true then _ else _) = _
    rcases h.chained.last_eq with ⟨rfl, rfl⟩ | ⟨earlier, p, b, hb, rfl⟩
    · rfl
    · rw [if_neg (by rw [blank_logText (by simp)]; simp), hv]
      refine bind_eq_ok.mpr ⟨_, rfl, ?_⟩
      rw [splitlines_logText h.chained, List.map_append, List.map_singleton, List.getLast?_concat]
      refine bind_eq_ok.mpr ⟨_, hb.loads_line, ?_⟩
      simp only [hb.field_event_hash]
      rfl

end Holds

/-! ### Arguments -/

/-- What the caller brings into a record. -/
def content (eventId : Json F) (eventType : Text) (actor : Actor) (target : Text)
    (details : Option (Details F)) : Json F :=
  .arr [eventId, .str eventType, actor.value, .str target, .obj (orEmpty details)]

def Call.content (c : Call F) : Json F :=
  Audit.content (match c.eventId with | some eventId => .str eventId | none => .null)
    c.eventType c.actor c.target c.details

omit [PyFloat F] in
theorem distinct_actor (actor : Actor) : Distinct (actor.value (F := F)) := by
  rcases actor with t | a
  · rfl
  · rw [Actor.value, AuthenticatedActor.snapshot, distinct_obj]
    refine ⟨?_, fun f hf => ?_⟩
    · change [lit "actor_id", lit "actor_type", lit "role", lit "auth_method"].Nodup
      decide
    · simp only [List.mem_cons, List.not_mem_nil, or_false] at hf
      rcases hf with rfl | rfl | rfl | rfl
      · rfl
      · rfl
      · cases a.role <;> rfl
      · rfl

variable (eventId eventType target : Text) (recordedAt : UtcDatetime) (actor : Actor)
  (details : Option (Details F))

omit [PyFloat F] in
theorem distinct_recordBody : Distinct (.obj (recordBody eventId recordedAt eventType actor target
    details (.str last))) := by
  rw [distinct_obj]
  refine ⟨?_, fun f hf => ?_⟩
  · change [lit "schema_version", lit "event_id", lit "recorded_at", lit "event_type", lit "actor",
      lit "target", lit "details", lit "previous_hash"].Nodup
    decide
  · simp only [recordBody, List.mem_cons, List.not_mem_nil, or_false] at hf
    rcases hf with rfl | rfl | rfl | rfl | rfl | rfl | rfl | rfl
    · rfl
    · rfl
    · rfl
    · rfl
    · exact distinct_actor actor
    · rfl
    · rcases details with _ | details
      · rfl
      · exact details.property
    · rfl

omit [PyFloat F] in
/-- A check that strings and containers pass looks at the caller's values only. -/
theorem all_recordBody {p : Json F → Bool} (hstr : ∀ s, p (.str s) = true)
    (harr : ∀ xs, p (.arr xs) = true) (hobj : ∀ fs, p (.obj fs) = true) :
    (Json.obj (recordBody eventId recordedAt eventType actor target details (.str last))).all p =
      (content (.str eventId) eventType actor target details).all p := by
  simp [recordBody, content, all, allFields, allField, allItems, hstr, harr, hobj]

omit [PyFloat F] in
theorem charsNode_recordBody {p : CodePoint → Bool} (hp : ∀ c, Plain c → p c = true)
    (hlast : last.all p = true) :
    (Json.obj (recordBody eventId recordedAt eventType actor target details (.str last))).all
      (charsNode p) =
    (content (.str eventId) eventType actor target details).all (charsNode p) := by
  have hlit {s : String} (hs : (lit s).all (fun c => decide (Plain c)) = true) :
      (lit s).all p = true := by
    rw [List.all_eq_true]
    exact fun c hc => hp c (plain_lit hs c hc)
  have hstamp : recordedAt.isoformatZ.all p = true := by
    rw [List.all_eq_true]
    intro c hc
    have := List.all_eq_true.mp (all_isoformatZ recordedAt) c hc
    simp only [isStampChar, Bool.and_eq_true, decide_eq_true_eq] at this
    exact hp c ⟨by omega, by omega⟩
  have h₁ := hlit (s := "schema_version") (by decide)
  have h₂ := hlit (s := "event_id") (by decide)
  have h₃ := hlit (s := "recorded_at") (by decide)
  have h₄ := hlit (s := "event_type") (by decide)
  have h₅ := hlit (s := "actor") (by decide)
  have h₆ := hlit (s := "target") (by decide)
  have h₇ := hlit (s := "details") (by decide)
  have h₈ := hlit (s := "previous_hash") (by decide)
  have h₉ := hlit (s := "1.0") (by decide)
  simp only [recordBody, content, all, allFields, allField, allItems, charsNode, List.all_cons,
    List.all_nil, hlast, hstamp, h₁, h₂, h₃, h₄, h₅, h₆, h₇, h₈, h₉, Bool.and_true, Bool.true_and]

omit [PyFloat F] in
theorem not_isSurrogate_of_plain (c : CodePoint) (h : Plain c) : (!isSurrogate c) = true := by
  rw [isSurrogate_of_plain h]
  rfl

omit [PyFloat F] in
theorem not_isUnescapedBreak_of_plain (c : CodePoint) (h : Plain c) :
    (!isUnescapedBreak c) = true := by
  have := h.2
  simp only [isUnescapedBreak, Bool.not_eq_true', Bool.or_eq_false_iff, beq_eq_false_iff_ne]
  omega

omit [PyFloat F] in
theorem encodable_recordBody (hlast : ∀ c ∈ last, Plain c) :
    Encodable (.obj (recordBody eventId recordedAt eventType actor target details (.str last))) ↔
      Encodable (content (.str eventId) eventType actor target details) := by
  rw [encodable_iff, encodable_iff, all_recordBody, all_recordBody,
    charsNode_recordBody _ _ _ _ _ _ not_isSurrogate_of_plain]
  · exact List.all_eq_true.mpr fun c hc => not_isSurrogate_of_plain c (hlast c hc)
  all_goals intro _; rfl

omit [PyFloat F] in
theorem framed_recordBody (hlast : ∀ c ∈ last, Plain c) :
    Framed (.obj (recordBody eventId recordedAt eventType actor target details (.str last))) ↔
      Framed (content (.str eventId) eventType actor target details) := by
  rw [Framed, Framed, charsNode_recordBody _ _ _ _ _ _ not_isUnescapedBreak_of_plain]
  exact List.all_eq_true.mpr fun c hc => not_isUnescapedBreak_of_plain c (hlast c hc)

omit [PyFloat F] in
/-- An id made of hexadecimal digits asks for nothing. -/
theorem charsNode_content {p : CodePoint → Bool} (hid : eventId.all p = true) :
    (content (.str eventId) eventType actor target details).all (charsNode p) =
      (content .null eventType actor target details).all (charsNode p) := by
  simp only [content, all, allItems, charsNode, hid]

omit [PyFloat F] in
theorem encodable_content (hid : ∀ c ∈ eventId, Plain c) :
    Encodable (content (.str eventId) eventType actor target details) ↔
      Encodable (content .null eventType actor target details) := by
  rw [encodable_iff, encodable_iff, charsNode_content]
  · rfl
  · exact List.all_eq_true.mpr fun c hc => not_isSurrogate_of_plain c (hid c hc)

omit [PyFloat F] in
theorem framed_content (hid : ∀ c ∈ eventId, Plain c) :
    Framed (content (.str eventId) eventType actor target details) ↔
      Framed (content .null eventType actor target details) := by
  rw [Framed, Framed, charsNode_content]
  exact List.all_eq_true.mpr fun c hc => not_isUnescapedBreak_of_plain c (hid c hc)

/-! ### Appending -/

theorem Chained.plain_last (h : Chained H genesisHash records last) : ∀ c ∈ last, Plain c := by
  rcases h.last_eq with ⟨-, rfl⟩ | ⟨earlier, p, b, hb, -⟩
  · intro c hc
    obtain rfl := List.eq_of_mem_replicate hc
    decide
  · exact hb.plain_hash

theorem sealed_recordBody (hh : recordHash H (recordBody eventId recordedAt eventType actor target
    details (.str last)) = .ok hash) : Sealed H last (recordBody eventId recordedAt eventType actor
    target details (.str last)) hash := by
  refine ⟨distinct_recordBody .., ?_, rfl, hh⟩
  change lit "event_hash" ∉ [lit "schema_version", lit "event_id", lit "recorded_at",
    lit "event_type", lit "actor", lit "target", lit "details", lit "previous_hash"]
  decide

/-- What `_append_unlocked` writes after a chain, and when. -/
theorem appendRecord_eq_ok (h : Holds H file records last) {file' : File} {record : Fields F} :
    appendRecord H file eventId recordedAt eventType actor target details = .ok (file', record) ↔
      ∃ hash, recordHash H (recordBody eventId recordedAt eventType actor target details
          (.str last)) = .ok hash ∧
        record = hashed (recordBody eventId recordedAt eventType actor target details
          (.str last)) hash ∧
        ∃ bytes, encodeUtf8 (line record ++ lit "\n") = .ok bytes ∧
          file' = some (file.getD [] ++ bytes) := by
  constructor
  · intro hok
    obtain ⟨previous, hprevious, hok⟩ := bind_eq_ok.mp hok
    rw [h.lastHash_eq] at hprevious
    obtain rfl := Except.ok.inj hprevious
    obtain ⟨hash, hh, hok⟩ := bind_eq_ok.mp hok
    have hs := sealed_recordBody eventId eventType target recordedAt actor details hh
    obtain ⟨text, ht, hok⟩ := bind_eq_ok.mp hok
    obtain rfl := Except.ok.inj (hs.canonicalJson_hashed.symm.trans ht)
    obtain ⟨bytes, he, hok⟩ := bind_eq_ok.mp hok
    obtain ⟨rfl, rfl⟩ := Prod.mk.inj (Except.ok.inj hok)
    exact ⟨hash, hh, rfl, bytes, he, rfl⟩
  · rintro ⟨hash, hh, rfl, bytes, he, rfl⟩
    have hs := sealed_recordBody eventId eventType target recordedAt actor details hh
    exact bind_eq_ok.mpr ⟨_, h.lastHash_eq, bind_eq_ok.mpr ⟨hash, hh,
      bind_eq_ok.mpr ⟨_, hs.canonicalJson_hashed, bind_eq_ok.mpr ⟨bytes, he, rfl⟩⟩⟩⟩

theorem appendRecord_ok_iff (h : Holds H file records last) :
    (∃ file' record, appendRecord H file eventId recordedAt eventType actor target details =
      .ok (file', record)) ↔ Encodable (content (.str eventId) eventType actor target details) := by
  rw [← encodable_recordBody eventId eventType target recordedAt actor details h.chained.plain_last,
    ← recordHash_ok (H := H)]
  constructor
  · rintro ⟨file', record, hok⟩
    obtain ⟨hash, hh, -⟩ := (appendRecord_eq_ok _ _ _ _ _ _ h).mp hok
    exact ⟨hash, hh⟩
  · rintro ⟨hash, hh⟩
    have hs := sealed_recordBody eventId eventType target recordedAt actor details hh
    have hscalar := scalar_append.mpr ⟨hs.scalar_line, scalar_lit "\n"⟩
    exact ⟨_, _, (appendRecord_eq_ok _ _ _ _ _ _ h).mpr
      ⟨hash, hh, rfl, _, encodeUtf8_eq_ok.mpr ⟨hscalar, rfl⟩, rfl⟩⟩

/-- The file then holds one more record, if that brings no line break along. -/
theorem appendRecord_holds (h : Holds H file records last) {file' : File} {record : Fields F}
    (hok : appendRecord H file eventId recordedAt eventType actor target details = .ok (file', record))
    (hframed : Framed (content (.str eventId) eventType actor target details)) :
    ∃ last', Holds H file' (records ++ [record]) last' := by
  obtain ⟨hash, hh, rfl, bytes, he, rfl⟩ := (appendRecord_eq_ok _ _ _ _ _ _ h).mp hok
  have hs := sealed_recordBody eventId eventType target recordedAt actor details hh
  rw [← framed_recordBody eventId eventType target recordedAt actor details h.chained.plain_last]
    at hframed
  refine ⟨hash, h.chained.concat hs hframed, .inr ⟨_, rfl, ?_⟩⟩
  have hend : lit "\n" = [0xA] := by decide
  rw [hend] at he
  rw [logText_concat]
  refine encodeUtf8_append ?_ he
  rcases h.content with ⟨rfl, rfl⟩ | ⟨old, rfl, hold⟩
  · rfl
  · exact hold

/-! ### Looking up -/

variable {eventId eventType target : Text} {recordedAt : UtcDatetime} {actor : Actor}
  {details : Option (Details F)}

/-- An event that is found is one of the records. -/
theorem mem_of_findLine (h : Chained H previous records last) {found : Fields F}
    (hfound : findLine eventId (records.map line) = .ok (some found)) :
    Json.obj found ∈ records.map fun r => (Json.obj r).sortKeys := by
  induction h with
  | nil previous => cases hfound
  | @cons previous hash last body rest sealed framed chained ih =>
    rw [List.map_cons, findLine, sealed.loads_line] at hfound
    change (if _ then _ else _) = _ at hfound
    split_ifs at hfound with hid
    · obtain rfl := Option.some.inj (Except.ok.inj hfound)
      rw [List.map_cons, sortKeys_obj]
      exact List.mem_cons_self
    · exact List.mem_cons_of_mem _ (ih hfound)

theorem mem_of_findEvent (h : Holds H file records last) {found : Fields F}
    (hfound : findEvent H eventId file = .ok (some found)) :
    Json.obj found ∈ records.map fun r => (Json.obj r).sortKeys := by
  rcases h.content with ⟨rfl, rfl⟩ | ⟨bytes, rfl, he⟩
  · cases hfound
  · obtain ⟨message, hv⟩ := h.verify_eq
    rw [findEvent, h.readText_eq he, hv] at hfound
    change (if blank (logText records) = true then _ else _) = _ at hfound
    split_ifs at hfound
    · cases hfound
    · change findLine eventId (splitlines (logText records)) = _ at hfound
      rw [splitlines_logText h.chained] at hfound
      exact mem_of_findLine h.chained hfound

/-- The records of the file as `json.loads` reads them, line by line. -/
def readRecords (F : Type) [PyFloat F] : File → Except PyError (List (Json F))
  | none => .ok []
  | some bytes => do
    let text ← readText bytes
    (splitlines text).mapM loads

theorem mapM_loads_chained (h : Chained H previous records last) :
    (records.map line).mapM loads =
      (.ok (records.map fun r => (Json.obj r).sortKeys) : Except PyError (List (Json F))) := by
  induction h with
  | nil previous => rfl
  | @cons previous hash last body rest sealed framed chained ih =>
    rw [List.map_cons, List.mapM_cons, sealed.loads_line, List.map_cons, sortKeys_obj]
    change (List.mapM loads (List.map line rest) >>= _) = _
    rw [ih]
    rfl

theorem readRecords_eq (h : Holds H file records last) :
    readRecords F file = .ok (records.map fun r => (Json.obj r).sortKeys) := by
  rcases h.content with ⟨rfl, rfl⟩ | ⟨bytes, rfl, he⟩
  · rfl
  · rw [readRecords, h.readText_eq he]
    change (splitlines (logText records)).mapM loads = _
    rw [splitlines_logText h.chained, mapM_loads_chained h.chained]

/-! ### Calls -/

/-- The call gets to write: its values can be encoded and its event id is new. -/
structure Call.Writes (H : Digest) (file : File) (c : Call F) : Prop where
  encodable : Encodable c.content
  nonblank : ∀ eventId, c.eventId = some eventId → blank eventId = false
  unbound : ∀ eventId, c.eventId = some eventId → findEvent (F := F) H eventId file = .ok none

theorem append_eq_ok {now : Stamp} {file' : File} {record : Fields F} :
    append H file now eventType actor target details = .ok (file', record) ↔ ∃ seed,
      encodeUtf8 (now.timestamp.text ++ lit ":" ++ eventType ++ lit ":" ++ target) = .ok seed ∧
      appendRecord H file ((H.hexdigest seed).take 24) now.recordedAt eventType actor target
        details = .ok (file', record) := by
  rw [append, bind_eq_ok]

theorem plain_eventId (seed : Bytes) : ∀ c ∈ (H.hexdigest seed).take 24, Plain c :=
  fun c hc => plain_hexdigest H seed c (List.mem_of_mem_take hc)

/-- `append` is refused for the caller's values only, whatever chain the file holds. -/
theorem append_ok_iff (h : Holds H file records last) {now : Stamp} :
    (∃ file' record, append H file now eventType actor target details = .ok (file', record)) ↔
      Encodable (content .null eventType actor target details) := by
  constructor
  · rintro ⟨file', record, hok⟩
    obtain ⟨seed, -, hok⟩ := append_eq_ok.mp hok
    rw [← encodable_content _ eventType target actor details (plain_eventId (H := H) seed)]
    exact (appendRecord_ok_iff _ _ _ _ _ _ h).mp ⟨file', record, hok⟩
  · intro henc
    have hscalar : Scalar (now.timestamp.text ++ lit ":" ++ eventType ++ lit ":" ++ target) := by
      have hs := henc.scalars
      simp only [Scalars, content, all, allItems, charsNode, Bool.and_eq_true, List.all_eq_true,
        Bool.not_eq_true'] at hs
      simp only [scalar_append]
      refine ⟨⟨⟨⟨?_, scalar_lit _⟩, hs.2.2.1⟩, scalar_lit _⟩, hs.2.2.2.2.1⟩
      exact fun c hc => isSurrogate_of_plain (plain_numeral now.timestamp_valid c hc)
    have hseed := encodeUtf8_eq_ok.mpr ⟨hscalar, rfl⟩
    rw [← encodable_content _ eventType target actor details (plain_eventId (H := H) _)] at henc
    obtain ⟨file', record, hok⟩ := (appendRecord_ok_iff _ _ _ now.recordedAt _ _ h).mpr henc
    exact ⟨file', record, append_eq_ok.mpr ⟨_, hseed, hok⟩⟩

theorem appendIdempotent_eq {now : Stamp} (hb : blank eventId = false) :
    appendIdempotent H file now eventId eventType actor target details = (do
      match ← findEvent H eventId file with
      | some existing =>
        if !((get existing (lit "event_type")).pyEq (.str eventType) &&
            (get existing (lit "actor")).pyEq actor.value &&
            (get existing (lit "target")).pyEq (.str target) &&
            (get existing (lit "details")).pyEq (.obj (orEmpty details))) then
          throw (.valueError (lit "audit event_id is already bound to different content"))
        return (file, existing, false)
      | none =>
        let (file, record) ← appendRecord H file eventId now.recordedAt eventType actor target details
        return (file, record, true)) := by
  rw [appendIdempotent, hb]
  rfl

theorem blank_of_appendIdempotent {now : Stamp} {out : File × Fields F × Bool}
    (h : appendIdempotent H file now eventId eventType actor target details = .ok out) :
    blank eventId = false := by
  by_contra hb
  rw [Bool.not_eq_false] at hb
  rw [appendIdempotent, if_pos hb] at h
  cases h

theorem appendIdempotent_added {now : Stamp} {file' : File} {record : Fields F} :
    appendIdempotent H file now eventId eventType actor target details =
        .ok (file', record, true) ↔
      blank eventId = false ∧ findEvent (F := F) H eventId file = .ok none ∧
      appendRecord H file eventId now.recordedAt eventType actor target details =
        .ok (file', record) := by
  constructor
  · intro h
    have hb := blank_of_appendIdempotent h
    rw [appendIdempotent_eq hb] at h
    obtain ⟨found, hfound, h⟩ := bind_eq_ok.mp h
    cases found with
    | some existing =>
      change (if _ then _ else _) = _ at h
      split_ifs at h
      · cases h
      · cases h
    | none =>
      obtain ⟨⟨file'', record'⟩, hok, h⟩ := bind_eq_ok.mp h
      cases h
      exact ⟨hb, hfound, hok⟩
  · rintro ⟨hb, hfound, hok⟩
    rw [appendIdempotent_eq hb]
    exact bind_eq_ok.mpr ⟨none, hfound, bind_eq_ok.mpr ⟨_, hok, rfl⟩⟩

theorem appendIdempotent_replayed {now : Stamp} {file' : File} {record : Fields F}
    (h : appendIdempotent H file now eventId eventType actor target details =
      .ok (file', record, false)) :
    file' = file ∧ findEvent H eventId file = .ok (some record) := by
  rw [appendIdempotent_eq (blank_of_appendIdempotent h)] at h
  obtain ⟨found, hfound, h⟩ := bind_eq_ok.mp h
  cases found with
  | some existing =>
    change (if _ then _ else _) = _ at h
    split_ifs at h
    · cases h
    · cases h
      exact ⟨rfl, hfound⟩
  | none =>
    obtain ⟨⟨file'', record'⟩, hok, h⟩ := bind_eq_ok.mp h
    cases h

/-- A record is added for exactly the calls that get to write. -/
theorem perform_added (h : Holds H file records last) {c : Call F} :
    (∃ file' record, perform H file c = .ok (file', record, true)) ↔ c.Writes H file := by
  rcases c with ⟨_ | eventId, now, eventType, actor, target, details⟩
  · have hmap (file' : File) (record : Fields F) :
        perform H file ⟨none, now, eventType, actor, target, details⟩ = .ok (file', record, true) ↔
          append H file now eventType actor target details = .ok (file', record) := by
      rw [perform]
      cases append H file now eventType actor target details with
      | error e => simp [Except.map]
      | ok out => simp [Except.map, Prod.ext_iff]
    simp only [hmap]
    rw [append_ok_iff h]
    constructor
    · intro henc
      refine ⟨henc, ?_, ?_⟩
      · intro eventId he
        cases he
      · intro eventId he
        cases he
    · exact fun hw => hw.encodable
  · simp only [perform, appendIdempotent_added]
    constructor
    · rintro ⟨file', record, hb, hfound, hok⟩
      refine ⟨(appendRecord_ok_iff _ _ _ _ _ _ h).mp ⟨file', record, hok⟩, ?_, ?_⟩
      · intro id he
        cases he
        exact hb
      · intro id he
        cases he
        exact hfound
    · rintro ⟨henc, hb, hfound⟩
      obtain ⟨file', record, hok⟩ :=
        (appendRecord_ok_iff eventId eventType target now.recordedAt actor details h).mpr henc
      exact ⟨file', record, hb eventId rfl, hfound eventId rfl, hok⟩

theorem perform_holds (h : Holds H file records last) {c : Call F} {file' : File}
    {record : Fields F} (hok : perform H file c = .ok (file', record, true))
    (hframed : Framed c.content) : ∃ last', Holds H file' (records ++ [record]) last' := by
  rcases c with ⟨_ | eventId, now, eventType, actor, target, details⟩
  · rw [perform] at hok
    change Except.map _ (append H file now eventType actor target details) = _ at hok
    rcases ha : append H file now eventType actor target details with e | ⟨file'', record'⟩
    · rw [ha] at hok
      cases hok
    · rw [ha] at hok
      cases hok
      obtain ⟨seed, -, hok⟩ := append_eq_ok.mp ha
      refine appendRecord_holds _ _ _ _ _ _ h hok ?_
      rw [framed_content _ _ _ _ _ (plain_eventId seed)]
      exact hframed
  · exact appendRecord_holds _ _ _ _ _ _ h (appendIdempotent_added.mp hok).2.2 hframed

theorem perform_replayed (h : Holds H file records last) {c : Call F} {file' : File}
    {record : Fields F} (hok : perform H file c = .ok (file', record, false)) :
    file' = file ∧ Json.obj record ∈ records.map fun r => (Json.obj r).sortKeys := by
  rcases c with ⟨_ | eventId, now, eventType, actor, target, details⟩
  · rw [perform] at hok
    change Except.map _ (append H file now eventType actor target details) = _ at hok
    rcases ha : append H file now eventType actor target details with e | out
    · rw [ha] at hok
      cases hok
    · rw [ha] at hok
      cases hok
  · obtain ⟨hfile, hfound⟩ := appendIdempotent_replayed hok
    exact ⟨hfile, mem_of_findEvent h hfound⟩

/-! ### Runs -/

/-- The records returned as added, in the order of the calls. -/
def recordAdded (returned : List (Fields F)) (_ : File) (_ : Call F) :
    Except PyError (Fields F × Bool) → List (Fields F)
  | .ok (record, true) => returned ++ [record]
  | _ => returned

/-- The promise of the log on its file, for the records that calls returned as added. -/
structure Verifiable (H : Digest) (file : File) (returned : List (Fields F)) : Prop where
  verifies : ∃ message, verify F H file = .ok (true, message)
  /-- One line a record, read back as the record with its keys sorted. -/
  records : readRecords F file = .ok (returned.map fun r => (Json.obj r).sortKeys)
  /-- What an empty log accepts is not refused. -/
  later : ∀ (now : Stamp) (eventType : Text) (actor : Actor) (target : Text)
    (details : Option (Details F)), (∃ out, append H none now eventType actor target details = .ok out) →
      ∃ out, append H file now eventType actor target details = .ok out
  /-- A replay adds nothing and answers with a record that was added before. -/
  replay : ∀ (c : Call F) (record : Fields F), (auditLog F H).answer file c = .ok (record, false) →
    (auditLog F H).next file c = file ∧
      Json.obj record ∈ returned.map fun r => (Json.obj r).sortKeys

theorem Holds.verifiable (h : Holds H file records last) : Verifiable H file records where
  verifies := h.verify_eq
  records := readRecords_eq h
  later := by
    rintro now eventType actor target details ⟨⟨file', record⟩, hok⟩
    have henc := (append_ok_iff (holds_none (F := F))).mp ⟨file', record, hok⟩
    obtain ⟨file', record, hok⟩ := (append_ok_iff h).mpr henc
    exact ⟨_, hok⟩
  replay := by
    intro c record hanswer
    rw [Machine.next]
    simp only [Machine.answer, auditLog] at hanswer ⊢
    rcases hp : perform H file c with e | ⟨file', record', added⟩
    · rw [hp] at hanswer
      cases hanswer
    · rw [hp] at hanswer
      cases hanswer
      exact perform_replayed h hp

/-- One call keeps the chain, when what it writes brings no line break along. -/
theorem step_holds {c : Call F} (h : Holds H file records last)
    (hframed : c.Writes H file → Framed c.content) : ∃ last',
    Holds H ((auditLog F H).next file c)
      (recordAdded records file c ((auditLog F H).answer file c)) last' := by
  simp only [Machine.next, Machine.answer, auditLog]
  rcases hp : perform H file c with e | ⟨file', record, _ | _⟩
  · exact ⟨last, h⟩
  · obtain ⟨rfl, -⟩ := perform_replayed h hp
    exact ⟨last, h⟩
  · exact perform_holds h hp (hframed ((perform_added h).mp ⟨file', record, hp⟩))

/-- After any calls of which those that write bring none of U+0085, U+2028 and U+2029 along,
the log is verifiable. -/
theorem auditLog_verifiable (H : Digest) (calls : List (Call F))
    (hframed : ((auditLog F H).withHistory recordAdded).Along
      (fun s c => c.Writes H s.1 → Framed c.content) (none, []) calls) :
    Verifiable H (((auditLog F H).withHistory recordAdded).run (none, []) calls).1
      (((auditLog F H).withHistory recordAdded).run (none, []) calls).2 := by
  have hinv : ∃ last, Holds H (((auditLog F H).withHistory recordAdded).run (none, []) calls).1
      (((auditLog F H).withHistory recordAdded).run (none, []) calls).2 last := by
    refine hframed.run_invariant (I := fun s => ∃ last, Holds H s.1 s.2 last) ?_
      ⟨genesisHash, holds_none⟩
    rintro ⟨file, records⟩ c hc ⟨last, h⟩
    rw [Machine.withHistory_next]
    exact step_holds h hc
  obtain ⟨last, h⟩ := hinv
  exact h.verifiable

/-- The instant 2023-11-14T22:13:20.5Z. -/
def halfPast : Stamp where
  timestamp := ⟨false, lit "1700000000", some (lit "5"), none⟩
  timestamp_valid :=
    have digits {t : Text} (hne : t ≠ []) (h : t.all isDigit = true) : Digits t :=
      ⟨hne, List.all_eq_true.mp h⟩
    { whole := digits (by decide) (by decide)
      leading := fun _ => by decide
      fraction := by
        rintro f ⟨⟩
        exact digits (by decide) (by decide)
      exponent := by
        rintro e ⟨⟩ }
  recordedAt := ⟨⟨2023, 11, 14, by decide, by decide, by decide⟩, 22, 13, 20, 500000⟩

def created (actor : Text) : Call Empty :=
  ⟨some (lit "stable-event-1"), halfPast, lit "finding.created", .name actor, lit "F-1", none⟩

/-- An ordinary record, then its replay. -/
theorem auditLog_verifiable_replay :
    Verifiable sha256
      (((auditLog Empty sha256).withHistory recordAdded).run (none, [])
        [created (lit "connector"), created (lit "connector")]).1
      (((auditLog Empty sha256).withHistory recordAdded).run (none, [])
        [created (lit "connector"), created (lit "connector")]).2 :=
  auditLog_verifiable sha256 _ ⟨fun _ => by decide, fun _ => by decide, trivial⟩

/-- The first record of a log, by an actor whose name is a line separator. -/
def separatorBody : Fields Empty :=
  recordBody (lit "stable-event-1") halfPast.recordedAt (lit "finding.created") (.name [0x2028])
    (lit "F-1") none (.str genesisHash)

def separatorHash : Text := lit "e9877c04db8e4d62dd0579dafc02221268e040dcc5e456976089294e93c89354"

theorem run_separator : ∃ bytes,
    encodeUtf8 (line (hashed separatorBody separatorHash) ++ lit "\n") = .ok bytes ∧
    ((auditLog Empty sha256).withHistory recordAdded).run (none, []) [created [0x2028]] =
      (some bytes, [hashed separatorBody separatorHash]) := by
  have hh : recordHash sha256 separatorBody = .ok separatorHash := by decide +kernel
  have hscalar : Scalar (line (hashed separatorBody separatorHash) ++ lit "\n") := by decide +kernel
  have he := encodeUtf8_eq_ok.mpr ⟨hscalar, rfl⟩
  refine ⟨_, he, ?_⟩
  have hok := appendIdempotent_added.mpr ⟨by decide, rfl,
    (appendRecord_eq_ok (lit "stable-event-1") (lit "finding.created") (lit "F-1")
      halfPast.recordedAt (.name [0x2028]) none (holds_none (F := Empty))).mpr
        ⟨separatorHash, hh, rfl, _, he, rfl⟩⟩
  have hp : perform sha256 none (created [0x2028]) =
      .ok (some _, hashed separatorBody separatorHash, true) := hok
  rw [Machine.run_cons, Machine.run_nil, Machine.withHistory_next]
  simp only [Machine.next, Machine.answer, auditLog, hp, recordAdded]
  rfl

theorem verify_unparsed {bytes : Bytes} {text : Text} (hread : readText bytes = .ok text)
    (hlines : verifyLines F H 1 (.str genesisHash) (splitlines text) = .error .jsonDecodeError) :
    verify F H (some bytes) = .ok (false, lit "Audit log could not be parsed safely.") := by
  have hverdict : (do
      let text ← readText bytes
      verifyLines F H 1 (.str genesisHash) (splitlines text)) = .error .jsonDecodeError := by
    rw [hread]
    exact hlines
  rw [verify, hverdict]

/-- With that record the log holds one record and does not verify. -/
theorem unverifiable_after_separator :
    (((auditLog Empty sha256).withHistory recordAdded).run (none, []) [created [0x2028]]).2.length = 1 ∧
    verify Empty sha256 (((auditLog Empty sha256).withHistory recordAdded).run (none, [])
      [created [0x2028]]).1 = .ok (false, lit "Audit log could not be parsed safely.") ∧
    ¬ Verifiable sha256
      (((auditLog Empty sha256).withHistory recordAdded).run (none, []) [created [0x2028]]).1
      (((auditLog Empty sha256).withHistory recordAdded).run (none, []) [created [0x2028]]).2 := by
  obtain ⟨bytes, he, hrun⟩ := run_separator
  have hlines : verifyLines Empty sha256 1 (.str genesisHash) (splitlines (universalNewlines
      (line (hashed separatorBody separatorHash) ++ lit "\n"))) = .error .jsonDecodeError := by
    decide +kernel
  have hread : readText bytes = .ok (universalNewlines
      (line (hashed separatorBody separatorHash) ++ lit "\n")) := by
    rw [readText, decodeUtf8_encodeUtf8 he]
    rfl
  have hverify := verify_unparsed hread hlines
  rw [hrun]
  refine ⟨rfl, hverify, fun h => ?_⟩
  obtain ⟨message, htrue⟩ := h.verifies
  rw [hverify] at htrue
  cases htrue

end SentinelGRC.Audit
