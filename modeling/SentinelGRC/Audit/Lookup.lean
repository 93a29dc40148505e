import SentinelGRC.Audit.Verifiable

/-!
How often the log holds an event. A lookup goes through the records of the file and returns the
first one under the event id, so that an idempotent append adds a record exactly when the log
holds none under its id, and never a second one.
-/

namespace SentinelGRC.Audit

open Python Json

variable {F : Type} [PyFloat F] {H : Digest} {file : File} {records : List (Fields F)}
  {previous last eventId eventType target : Text} {recordedAt : UtcDatetime} {actor : Actor}
  {details : Option (Details F)}

/-- `record.get("event_id") == event_id`. -/
def isRecordOf (eventId : Text) : Json F → Bool
  | .obj record => (get record (lit "event_id")).pyEq (.str eventId)
  | _ => false

/-- The records of a log under an event id. -/
def timesRecorded (eventId : Text) (records : List (Fields F)) : ℕ :=
  (records.map fun r => (Json.obj r).sortKeys).countP (isRecordOf eventId)

theorem timesRecorded_concat (records : List (Fields F)) (r : Fields F) :
    timesRecorded eventId (records ++ [r]) =
      timesRecorded eventId records + if isRecordOf eventId (Json.obj r).sortKeys then 1 else 0 := by
  rw [timesRecorded, List.map_append, List.countP_append, List.map_singleton,
    List.countP_singleton]
  rfl

/-- The lookup finds a record exactly when there is one. -/
theorem findLine_chained (h : Chained H previous records last) :
    ∃ found : Option (Fields F), findLine eventId (records.map line) = .ok found ∧
      (found = none ↔ timesRecorded eventId records = 0) := by
  induction h with
  | nil previous => exact ⟨none, rfl, by simp [timesRecorded]⟩
  | @cons previous hash last body rest sealed framed chained ih =>
    rw [List.map_cons, findLine, sealed.loads_line]
    change ∃ found : Option (Fields F),
      (if (get (sortDict (hashed body hash)) (lit "event_id")).pyEq (.str eventId) = true then
        .ok (some (sortDict (hashed body hash)))
      else findLine eventId (rest.map line)) = .ok found ∧ _
    have hcount : timesRecorded eventId (hashed body hash :: rest) =
        timesRecorded eventId rest +
          if isRecordOf eventId (.obj (sortDict (hashed body hash))) then 1 else 0 := by
      rw [timesRecorded, List.map_cons, List.countP_cons, sortKeys_obj]
      rfl
    by_cases hid : isRecordOf eventId (.obj (sortDict (hashed body hash))) = true
    · rw [if_pos hid] at hcount
      refine ⟨_, if_pos hid, ?_⟩
      rw [hcount]
      simp
    · rw [if_neg hid] at hcount
      obtain ⟨found, hfound, hnone⟩ := ih
      refine ⟨found, (if_neg hid).trans hfound, ?_⟩
      rw [hcount]
      exact hnone

theorem findEvent_holds (h : Holds H file records last) :
    ∃ found : Option (Fields F), findEvent H eventId file = .ok found ∧
      (found = none ↔ timesRecorded eventId records = 0) := by
  rcases h.content with ⟨rfl, rfl⟩ | ⟨bytes, rfl, he⟩
  · exact ⟨none, rfl, by simp [timesRecorded]⟩
  · obtain ⟨message, hv⟩ := h.verify_eq
    rw [findEvent, h.readText_eq he, hv]
    change ∃ found : Option (Fields F), (if blank (logText records) = true then _ else _) = _ ∧ _
    cases records with
    | nil => exact ⟨none, rfl, by simp [timesRecorded]⟩
    | cons r rest =>
      rw [if_neg (by rw [Holds.blank_logText (by simp)]; simp)]
      change ∃ found : Option (Fields F), findLine eventId (splitlines (logText (r :: rest))) = _ ∧ _
      rw [splitlines_logText h.chained]
      exact findLine_chained h.chained

/-- The id of an appended record is that of its call. -/
theorem isRecordOf_recordBody {hash e : Text} (hs : Sealed H last (recordBody eventId recordedAt
    eventType actor target details (.str last)) hash) :
    isRecordOf e (Json.obj (hashed (recordBody eventId recordedAt eventType actor target details
      (.str last)) hash)).sortKeys = true ↔ eventId = e := by
  rw [sortKeys_obj, isRecordOf, get_sortDict hs.nodup, pyEq_str]
  change (Json.str eventId).sortKeys = .str e ↔ _
  rw [sortKeys, Json.str.injEq]

/-- An idempotent append leaves one record under its id, and as many as before under others. -/
theorem appendIdempotent_recorded (h : Holds H file records last) {now : Stamp} {file' : File}
    {record : Fields F} {added : Bool}
    (hok : appendIdempotent H file now eventId eventType actor target details =
      .ok (file', record, added))
    (hframed : Framed (content (.str eventId) eventType actor target details)) :
    ∃ (records' : List (Fields F)) (last' : Text), Holds H file' records' last' ∧
      ∀ e, timesRecorded e records' =
        if eventId = e ∧ timesRecorded e records = 0 then 1 else timesRecorded e records := by
  obtain ⟨found, hfound, hnone⟩ : ∃ found : Option (Fields F),
      findEvent H eventId file = .ok found ∧ (found = none ↔ timesRecorded eventId records = 0) :=
    findEvent_holds h
  cases added with
  | false =>
    obtain ⟨rfl, hrecord⟩ := appendIdempotent_replayed hok
    rw [hrecord] at hfound
    obtain rfl := Except.ok.inj hfound
    refine ⟨records, last, h, fun e => ?_⟩
    rw [if_neg]
    rintro ⟨rfl, hzero⟩
    exact absurd (hnone.mpr hzero) (Option.some_ne_none _)
  | true =>
    obtain ⟨-, hnew, happend⟩ := appendIdempotent_added.mp hok
    rw [hnew] at hfound
    have hzero := hnone.mp (Except.ok.inj hfound).symm
    obtain ⟨last', hholds⟩ := appendRecord_holds _ _ _ _ _ _ h happend hframed
    refine ⟨records ++ [record], last', hholds, fun e => ?_⟩
    obtain ⟨hash, hhash, rfl, -⟩ := (appendRecord_eq_ok _ _ _ _ _ _ h).mp happend
    have hs := sealed_recordBody eventId eventType target now.recordedAt actor details hhash
    rw [timesRecorded_concat]
    by_cases he : eventId = e
    · subst he
      rw [if_pos ((isRecordOf_recordBody hs).mpr rfl), if_pos ⟨rfl, hzero⟩, hzero]
    · rw [if_neg (mt (isRecordOf_recordBody hs).mp he), if_neg (fun hboth => he hboth.1)]
      rfl

end SentinelGRC.Audit
