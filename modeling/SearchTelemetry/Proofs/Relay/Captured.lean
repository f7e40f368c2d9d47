import SearchTelemetry.Proofs.Journal.Legible
import SearchTelemetry.Relay.Capture
/-!
# Relay.Captured — a capture can be looked at again

An event is read back from its text just if its instant is one of the calendar (`read?_text_eq_some_iff`): whatever is in its
strings is escaped, so that there is no line feed in it either.  Hence a file that was empty or ended with a line feed has one
line more for each event that is captured, which tells that event (`run_read_back`).  What fails on its way to the file is not
told there, but is shown all the same (`shown_run`).
-/
namespace SearchTelemetry

open Json (Value Written AllFields sortedFields nestingFields)
open Json.Reader (maxDepth)

/-! ## Time spans -/

namespace Elapsed

theorem ofParts?_self (d : Elapsed) : ofParts? d.seconds.toNat d.nanos.val = some d := by
  have hdiv : d.nanos.val / 1000000000 = 0 := Nat.div_eq_of_lt d.nanos.isLt
  have hmod : d.nanos.val % 1000000000 = d.nanos.val := Nat.mod_eq_of_lt d.nanos.isLt
  simp only [ofParts?, hdiv, hmod, Nat.add_zero, if_pos d.seconds.toNat_lt]
  simp

theorem sorted_toValue (d : Elapsed) :
    d.toValue.sorted = .object [("nanos", .nat d.nanos.val), ("secs", .nat d.seconds.toNat)] := by
  have hlt : "nanos" < "secs" := by decide
  simp [toValue, Value.sorted, sortedFields, Value.nat, Json.Fields.ofList, Json.Fields.insert, hlt]

theorem ofValue?_sorted (d : Elapsed) : ofValue? d.toValue.sorted = some d := by
  have hseconds : (Value.nat d.seconds.toNat).unsigned? 64 = some d.seconds.toNat := unsigned?_nat d.seconds.toNat_lt
  have hnanos : (Value.nat d.nanos.val).unsigned? 32 = some d.nanos.val :=
    unsigned?_nat (Nat.lt_trans d.nanos.isLt (by decide))
  let w : Written := .named [("nanos", .nat d.nanos.val), ("secs", .nat d.seconds.toNat)]
  have hexact : isExact w = true := by simp [w, isExact]
  have hfirst : w.required? 0 "secs" (Value.unsigned? 64) = some d.seconds.toNat := by
    simp [w, Written.required?, Written.field?, hseconds]
  have hsecond : w.required? 1 "nanos" (Value.unsigned? 32) = some d.nanos.val := by
    simp [w, Written.required?, Written.field?, hnanos]
  rw [sorted_toValue, ofValue?, Written.ofValue?, Option.bind_eq_bind, Option.bind_some, hexact, hfirst, hsecond]
  exact d.ofParts?_self

end Elapsed

/-! ## Events -/

namespace RelayEvent

/-- When what an event tells came about. -/
def timestamp : RelayEvent → Instant
  | request _ timestamp .. | response _ timestamp .. | failure _ timestamp .. => timestamp

/-- The text of an event: its line without the line feed. -/
def text (e : RelayEvent) : List UInt8 :=
  (Value.object e.toFields).bytes

theorem lineFeed_not_mem_text (e : RelayEvent) : 0x0A ∉ e.text :=
  Json.lineFeed_not_mem_bytes _

open JournalEntry (all_ofOption whole_nat whole_uint64)

theorem whole_uint16 (i : UInt16) : (Value.nat i.toNat).Whole :=
  whole_nat (Nat.lt_trans i.toNat_lt (by decide))

theorem whole_duration (d : Elapsed) : d.toValue.Whole :=
  ⟨trivial, whole_uint64 d.seconds, whole_nat (Nat.lt_trans d.nanos.isLt (by decide)), trivial⟩

theorem allFields_toFields : ∀ e : RelayEvent, AllFields Value.IsWhole e.toFields
  | request _ _ _ _ _ _ bodySize _ =>
    ⟨trivial, trivial, trivial, trivial, trivial, trivial, trivial, whole_uint64 bodySize, trivial, trivial⟩
  | response _ _ status _ bodySize _ duration =>
    ⟨trivial, trivial, trivial, whole_uint16 status, trivial, whole_uint64 bodySize, trivial, whole_duration duration, trivial⟩
  | failure requestId _ _ status =>
    ⟨trivial, all_ofOption trivial (fun _ => by trivial) requestId, trivial, trivial,
      all_ofOption trivial whole_uint16 status, trivial⟩

/-- Brackets nest in an event no deeper than around the fields of its duration. -/
theorem nestingFields_toFields : ∀ e : RelayEvent, nestingFields e.toFields ≤ 1
  | request .. | response .. => Nat.le_of_ble_eq_true rfl
  | failure requestId _ _ status => by
    have hid := nesting_ofOption (f := Value.string) (fun _ => rfl) requestId
    have hstatus := nesting_ofOption (f := fun s : UInt16 => .nat s.toNat) (fun _ => rfl) status
    simp [toFields, nestingFields, Value.nesting, instantValue, hid, hstatus]

theorem strict?_text (e : RelayEvent) : Written.strict? e.text = some (.named (sortedFields e.toFields)) := by
  have hd := Nat.le_trans e.nestingFields_toFields (by decide : 1 ≤ maxDepth - 1)
  have hw := e.allFields_toFields
  cases e with
  | request | response | failure => exact Written.strict?_bytes_sorted hw hd

-- The three kinds of events from their fields.  The values that are read into words and instants are variables here and no
-- more than what they are read as is known of them: unfolded, a number would be counted down from the bound of its word.

theorem ofWritten?_request {time size : Value} {timestamp : Instant} {bodySize : UInt64}
    (htime : instant? time = some timestamp) (hsize : size.unsigned? 64 = some bodySize.toNat)
    (id client method path head bodyPreview : String) :
    ofWritten? (.named [("type", .string "Request"), ("id", .string id), ("timestamp", time), ("client", .string client),
      ("method", .string method), ("path", .string path), ("head", .string head), ("body_size", size),
      ("body_preview", .string bodyPreview)]) =
    some (request id timestamp client method path head bodySize bodyPreview) := by
  simp [ofWritten?, requestOf?, Written.tagged?, Written.fits, Written.required?, Written.field?, guard, htime, hsize,
    Value.string?]

theorem ofWritten?_response {time code size span : Value} {timestamp : Instant} {status : UInt16} {bodySize : UInt64}
    {duration : Elapsed} (htime : instant? time = some timestamp) (hstatus : code.unsigned? 16 = some status.toNat)
    (hsize : size.unsigned? 64 = some bodySize.toNat) (hspan : Elapsed.ofValue? span = some duration)
    (requestId head bodyPreview : String) :
    ofWritten? (.named [("type", .string "Response"), ("request_id", .string requestId), ("timestamp", time),
      ("status", code), ("head", .string head), ("body_size", size), ("body_preview", .string bodyPreview),
      ("duration", span)]) =
    some (response requestId timestamp status head bodySize bodyPreview duration) := by
  simp [ofWritten?, responseOf?, Written.tagged?, Written.fits, Written.required?, Written.field?, guard, htime, hstatus,
    hsize, hspan, Value.string?]

theorem ofWritten?_failure {exchange time code : Value} {requestId : Option String} {timestamp : Instant}
    {status : Option UInt16} (hid : exchange.optional? Value.string? = some requestId)
    (htime : instant? time = some timestamp)
    (hstatus : code.optional? (Value.unsigned? 16) = some (status.map UInt16.toNat)) (message : String) :
    ofWritten? (.named [("type", .string "Error"), ("request_id", exchange), ("timestamp", time),
      ("message", .string message), ("status", code)]) = some (failure requestId timestamp message status) := by
  have hback : (status.map UInt16.toNat).map Nat.toUInt16 = status := by
    cases status with
    | none => rfl
    | some code => simp
  simp [ofWritten?, failureOf?, Written.tagged?, Written.fits, Written.required?, Written.nullable?, Written.field?, guard,
    hid, htime, hstatus, hback, Value.string?]

theorem ofWritten?_sortedFields : ∀ {e : RelayEvent}, e.timestamp.Valid →
    ofWritten? (.named (sortedFields e.toFields)) = some e
  | request id _ client method path head bodySize bodyPreview, h =>
    ofWritten?_request (instant?_instantValue h) (unsigned?_nat bodySize.toNat_lt) id client method path head bodyPreview
  | response requestId _ status head bodySize bodyPreview duration, h =>
    ofWritten?_response (instant?_instantValue h) (unsigned?_nat status.toNat_lt) (unsigned?_nat bodySize.toNat_lt)
      duration.ofValue?_sorted requestId head bodyPreview
  | failure requestId timestamp message status, h => by
    have hordered : AllFields Value.IsOrdered (toFields (failure requestId timestamp message status)) :=
      ⟨trivial, all_ofOption trivial (fun _ => by trivial) requestId, trivial, trivial,
        all_ofOption trivial (fun _ => by trivial) status, trivial⟩
    have hid := optional?_ofOption_map (f := Value.string) (g := Value.string?) (h := id) (fun _ => rfl) nofun requestId
    rw [Option.map_id] at hid
    rw [Json.sortedFields_of_inOrder hordered]
    exact ofWritten?_failure hid (instant?_instantValue h)
      (optional?_ofOption_map (fun s => unsigned?_nat s.toNat_lt) nofun status) message

theorem valid_of_required? {w : Written} {position : Nat} {name : String} {t : Instant}
    (h : w.required? position name instant? = some t) : t.Valid := by
  unfold Written.required? at h
  split at h
  · obtain ⟨s, -, ht⟩ := Option.bind_eq_some_iff.1 h
    exact Instant.valid_of_relaxed? ht
  · cases h

/-- **An event that is read has an instant of the calendar.** -/
theorem valid_of_ofWritten? {w : Written} {e : RelayEvent} (h : ofWritten? w = some e) : e.timestamp.Valid := by
  obtain ⟨⟨kind, w⟩, -, h⟩ := Option.bind_eq_some_iff.1 h
  dsimp only at h
  split at h
  · unfold requestOf? at h
    -- the number of fields, and the fields before the instant
    iterate 2 obtain ⟨_, -, h⟩ := Option.bind_eq_some_iff.1 h
    obtain ⟨t, ht, h⟩ := Option.bind_eq_some_iff.1 h
    iterate 6 obtain ⟨_, -, h⟩ := Option.bind_eq_some_iff.1 h
    obtain rfl := Option.some.inj h
    exact valid_of_required? ht
  split at h
  · unfold responseOf? at h
    iterate 2 obtain ⟨_, -, h⟩ := Option.bind_eq_some_iff.1 h
    obtain ⟨t, ht, h⟩ := Option.bind_eq_some_iff.1 h
    iterate 5 obtain ⟨_, -, h⟩ := Option.bind_eq_some_iff.1 h
    obtain rfl := Option.some.inj h
    exact valid_of_required? ht
  split at h
  · unfold failureOf? at h
    iterate 2 obtain ⟨_, -, h⟩ := Option.bind_eq_some_iff.1 h
    obtain ⟨t, ht, h⟩ := Option.bind_eq_some_iff.1 h
    iterate 2 obtain ⟨_, -, h⟩ := Option.bind_eq_some_iff.1 h
    obtain rfl := Option.some.inj h
    exact valid_of_required? ht
  · cases h

/-- **An event is read back from its text** just if its instant is one of the calendar. -/
theorem read?_text_eq_some_iff {e : RelayEvent} : read? e.text = some e ↔ e.timestamp.Valid := by
  rw [read?, strict?_text, Option.bind_some]
  exact ⟨valid_of_ofWritten?, ofWritten?_sortedFields⟩

end RelayEvent

/-! ## Runs -/

namespace Capture

/-- **Every event is shown**, if events are to be shown, whatever comes of writing it. -/
theorem shown_run : ∀ (c : Capture) (es : List (RelayEvent × Writing)),
    (c.run es).shown = c.shown ++ if c.shows then es.map fun (e, _) => render e else []
  | c, [] => by simp [run]
  | c, (e, w) :: es => by
    rw [run, shown_run (c.step e w) es]
    cases h : c.shows <;> simp [step, h]

/-- **A file is only added to**: for each event as much of its line as is written. -/
theorem file_run : ∀ (c : Capture) (es : List (RelayEvent × Writing)),
    (c.run es).file = c.file.map (· ++ es.flatMap fun (e, w) => w.part (line e))
  | c, [] => by simp [run]
  | c, (e, w) :: es => by
    rw [run, file_run (c.step e w) es, step, Option.map_map]
    congr 1
    funext file
    simp

theorem file_run_whole {c : Capture} {file : List UInt8} (hc : c.file = some file) (events : List RelayEvent) :
    (c.run (events.map (·, .whole))).file = some (file ++ events.flatMap line) := by
  rw [file_run, hc, List.flatMap_map]
  rfl

theorem append_eq (file : List UInt8) (events : List RelayEvent) : append file events = file ++ events.flatMap line := by
  rw [append, file_run_whole rfl, Option.getD_some]

/-! ## Lines -/

/-- The lines of a file, each of which has a line feed behind it. -/
def lines (file : List UInt8) : List (List UInt8) :=
  (file.splitOn 0x0A).dropLast

theorem lines_append {file : List UInt8} (h : Journal.isTorn file = false) (bs : List UInt8) :
    lines (file ++ bs) = lines file ++ lines bs :=
  Pieces.dropLast_splitOn_append (fun b hb => by simpa [Journal.isTorn, Option.mem_def.1 hb] using h) bs

theorem lines_flatMap (events : List RelayEvent) : lines (events.flatMap line) = events.map RelayEvent.text := by
  have htexts : ∀ t ∈ events.map RelayEvent.text, 0x0A ∉ t := fun t ht => by
    obtain ⟨e, -, rfl⟩ := List.mem_map.1 ht
    exact e.lineFeed_not_mem_text
  have hsplit := Pieces.splitOn_flatMap htexts []
  rw [List.append_nil, List.flatMap_map] at hsplit
  exact (congrArg List.dropLast hsplit).trans (List.dropLast_concat ..)

theorem isTorn_flatMap : ∀ events : List RelayEvent, Journal.isTorn (events.flatMap line) = false
  | [] => rfl
  | e :: events => by
    have hline : Journal.isTorn (line e) = false := by simp [line, Journal.isTorn]
    exact Journal.isTorn_append (isTorn_flatMap events) hline

/-- **A capture can be looked at again.**  What was in the file before stays as it was, and a line is added for each event in
turn, its object.  These lines are read as the events just if all instants in them are of the calendar. -/
theorem run_read_back {c : Capture} {file : List UInt8} (hc : c.file = some file) (hfile : Journal.isTorn file = false)
    (events : List RelayEvent) : ∃ added,
      (c.run (events.map (·, .whole))).file = some (file ++ added) ∧
        lines (file ++ added) = lines file ++ lines added ∧ Journal.isTorn added = false ∧
        lines added = events.map (fun e => (Value.object e.toFields).bytes) ∧
        ((lines added).mapM RelayEvent.read? = some events ↔ ∀ e ∈ events, e.timestamp.Valid) := by
  refine ⟨events.flatMap line, file_run_whole hc events, lines_append hfile _, isTorn_flatMap events,
    lines_flatMap events, ?_⟩
  rw [lines_flatMap, Pieces.mapM_map_eq_some_iff]
  exact forall₂_congr fun _ _ => RelayEvent.read?_text_eq_some_iff

/-- A file with one line that is no event, and a head with line breaks, quotes and a control character in it, a response that took
as long as a time span can be, at a leap second, and a failure without an exchange. -/
theorem run_read_back_escaped :
    let file : List UInt8 := Utf8.bytes "no event\n"
    let c : Capture := ⟨true, [], some file⟩
    let leap : Instant := ⟨1483228799, 1999999999⟩
    let events : List RelayEvent :=
      [.request "3-1" ⟨0, 1⟩ "[::1]:9" "GET" "/\\" "GET /\\ HTTP/1.1\r\nA: \"\u0000\"\r\n" 0 "\n",
        .response "3-1" leap 65535 "HTTP/1.1 200 OK\n" 18446744073709551615 "\u2028" ⟨18446744073709551615, 999999999⟩,
        .failure none leap "" none]
    c.file = some file ∧ Journal.isTorn file = false ∧ ∃ added,
      (c.run (events.map (·, .whole))).file = some (file ++ added) ∧ (lines added).length = 3 ∧
        (lines added).mapM RelayEvent.read? = some events := by
  intro file c leap events
  have hfile : Journal.isTorn file = false := by decide +kernel
  have hfirst : Instant.Valid ⟨0, 1⟩ := ⟨by decide +kernel, by decide⟩
  have hleap : leap.Valid := ⟨by decide +kernel, by decide⟩
  have hvalid : ∀ e ∈ events, e.timestamp.Valid := by
    simp only [events, List.forall_mem_cons]
    exact ⟨hfirst, hleap, hleap, nofun⟩
  obtain ⟨added, hrun, -, -, hlines, hread⟩ := run_read_back (c := c) rfl hfile events
  exact ⟨rfl, hfile, added, hrun, by rw [hlines]; rfl, hread.2 hvalid⟩

end Capture
end SearchTelemetry
