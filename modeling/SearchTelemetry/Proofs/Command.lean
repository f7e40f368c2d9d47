import SearchTelemetry.Program.Send
import SearchTelemetry.Proofs.Json.Skipped
import SearchTelemetry.Proofs.Service.Unchanged
import SearchTelemetry.Proofs.Text.Lossy
/-!
# Command — what is encoded is decoded

Reports are read back from the text in which they are sent (`read?_bytes`), and parameters from their headers
(`parameter?_of_brings`).  A command with whole numbers is therefore decoded from the request that it is encoded as, just if
it asks for no number of suggestions below zero and its metrics are such as can be read (`decode_of_brings`,
`fits_of_decode`).  Everything that the service decodes and everything that the tool builds is such a command, but for the
number of suggestions that the tool is told (`encoding_faithful`).
-/
namespace SearchTelemetry

open Json (Value Written nestingFields)
open Json.Reader (maxDepth)
open Http.Syntax (isText)

/-! ## Reports -/

theorem optional?_ofOption {α : Type} {f : α → Value} {g : Value → Option α} (hf : ∀ a, g (f a) = some a)
    (hn : ∀ a, f a ≠ .null) (o : Option α) : (Value.ofOption f o).optional? g = some o := by
  simpa using optional?_ofOption_map (h := id) hf hn o

namespace SearchReport

theorem strict?_bytes (r : SearchReport) : Written.strict? r.toValue.bytes = Written.ofValue? r.toValue := by
  have hid := nesting_ofOption (f := fun id : Int64 => .int id.toInt) (fun _ => rfl) r.queryId
  have hclicked := nesting_ofOption (f := fun i : Int64 => .int i.toInt) (fun _ => rfl) r.clicked
  have htime := nesting_ofOption (f := Value.string) (fun _ => rfl) r.queryTimestamp
  refine Written.strict?_bytes_of_ofValue? rfl ?_ ?_ ?_
  · exact ⟨JournalEntry.all_ofOption trivial JournalEntry.whole_int64 r.queryId, trivial,
      ⟨trivial, JournalEntry.allItems_map fun _ _ => trivial⟩,
      JournalEntry.all_ofOption trivial JournalEntry.whole_int64 r.clicked,
      JournalEntry.all_ofOption trivial (fun _ => by trivial) r.queryTimestamp, trivial⟩
  · exact ⟨JournalEntry.all_ofOption trivial (fun _ => by trivial) r.queryId, trivial,
      ⟨trivial, JournalEntry.allItems_map fun _ _ => trivial⟩,
      JournalEntry.all_ofOption trivial (fun _ => by trivial) r.clicked,
      JournalEntry.all_ofOption trivial (fun _ => by trivial) r.queryTimestamp, trivial⟩
  · simp [toValue, Value.nesting, nestingFields, nestingItems_strings, hid, hclicked, htime, maxDepth]

theorem read?_bytes (r : SearchReport) : read? r.toValue.bytes = some r := by
  have hlenient : Written.lenient? fieldNames r.toValue.bytes = Written.ofValue? r.toValue :=
    Written.lenient?_of_strict? r.strict?_bytes (by simp [Written.names, fieldNames])
  have hid := optional?_ofOption int64?_int nofun r.queryId
  have hclicked := optional?_ofOption int64?_int nofun r.clicked
  have htime := optional?_ofOption (f := Value.string) (g := Value.string?) (fun _ => rfl) nofun r.queryTimestamp
  have hresults : strings? (.array (r.results.map .string)) = some r.results := mapM_string? r.results
  rw [read?, hlenient]
  simp [Written.ofValue?, toValue, ofWritten?, Written.fits, Written.fieldOr?, Written.field?, guard, hid, hclicked, htime,
    hresults, Value.string?]

theorem jsonBody_bytes (e : Endpoint) (r : SearchReport) : Command.jsonBody e read? r.toValue.bytes = .ok r :=
  Command.jsonBody_eq e (Written.not_blank_of_strict? r.strict?_bytes) r.read?_bytes

end SearchReport

namespace FeedbackReport

theorem strict?_bytes (r : FeedbackReport) : Written.strict? r.toValue.bytes = Written.ofValue? r.toValue :=
  Written.strict?_bytes_of_ofValue? rfl ⟨trivial, trivial, trivial, trivial⟩ ⟨trivial, trivial, trivial, trivial⟩
    (by simp [toValue, Value.nesting, nestingFields, maxDepth])

theorem read?_bytes (r : FeedbackReport) : read? r.toValue.bytes = some r := by
  have hlenient : Written.lenient? fieldNames r.toValue.bytes = Written.ofValue? r.toValue :=
    Written.lenient?_of_strict? r.strict?_bytes (by simp [Written.names, fieldNames])
  rw [read?, hlenient]
  simp [Written.ofValue?, toValue, ofWritten?, Written.fits, Written.fieldOr?, Written.field?, guard, Value.string?]

theorem jsonBody_bytes (e : Endpoint) (r : FeedbackReport) : Command.jsonBody e read? r.toValue.bytes = .ok r :=
  Command.jsonBody_eq e (Written.not_blank_of_strict? r.strict?_bytes) r.read?_bytes

end FeedbackReport

namespace MetricsReport

variable {r : MetricsReport}

theorem nesting_toValue : ∀ r : MetricsReport, r.toValue.nesting = r.nesting
  | wrapped metrics => by simp [toValue, Value.nesting, nestingFields, nesting]
  | bare metrics => rfl

theorem strict?_bytes (hd : r.toValue.nesting ≤ maxDepth) (ho : ∀ v ∈ r.entries, v.InOrder)
    (hw : ∀ v ∈ r.entries, v.Whole) : Written.strict? r.toValue.bytes = Written.ofValue? r.toValue := by
  cases r with
  | wrapped metrics =>
    exact Written.strict?_bytes_of_ofValue? rfl ⟨⟨trivial, Json.allItems_iff.2 hw⟩, trivial⟩
      ⟨⟨trivial, Json.allItems_iff.2 ho⟩, trivial⟩ hd
  | bare metrics =>
    exact Written.strict?_bytes_of_ofValue? rfl (Json.allItems_iff.2 hw) (Json.allItems_iff.2 ho) hd

theorem read?_bytes (hd : r.toValue.nesting ≤ maxDepth) (ho : ∀ v ∈ r.entries, v.InOrder)
    (hw : ∀ v ∈ r.entries, v.Whole) : read? r.toValue.bytes = some r := by
  rw [read?, strict?_bytes hd ho hw]
  cases r with
  | wrapped metrics => rfl
  | bare metrics => rfl

theorem jsonBody_bytes (e : Endpoint) (hd : r.toValue.nesting ≤ maxDepth) (ho : ∀ v ∈ r.entries, v.InOrder)
    (hw : ∀ v ∈ r.entries, v.Whole) : Command.jsonBody e read? r.toValue.bytes = .ok r := by
  refine Command.jsonBody_eq e ?_ (read?_bytes hd ho hw)
  cases r with
  | wrapped metrics => exact Written.not_blank_of_strict? (strict?_bytes hd ho hw)
  | bare metrics => exact Written.not_blank_of_strict? (strict?_bytes hd ho hw)

end MetricsReport

/-! ## Headers -/

namespace Headers

/-- Headers with the bytes of their texts. -/
def ofTexts (headers : List (String × String)) : Headers :=
  headers.map fun h => (h.1, Utf8.bytes h.2)

theorem first?_ofTexts {headers : List (String × String)} (hd : (headers.map fun h => lower h.1).Nodup) :
    ∀ h ∈ headers, (ofTexts headers).first? h.1 = some (Utf8.bytes h.2) := by
  induction headers with
  | nil => nofun
  | cons g headers ih =>
    obtain ⟨hg, hheaders⟩ := List.nodup_cons.1 hd
    intro h hmem
    -- a header behind `g` is not of its name, so that looking for it passes `g` by
    rcases List.mem_cons.1 hmem with rfl | hmem
    · simp [ofTexts, first?]
    · have hne : (lower g.1 == lower h.1) = false :=
        beq_false_of_ne fun heq => hg (List.mem_map.2 ⟨h, hmem, heq.symm⟩)
      rw [← ih hheaders h hmem, ofTexts, ofTexts, first?, first?, List.map_cons, List.find?_cons, hne]

/-- Every value has only bytes that may stand in a header. -/
def Legal (headers : Headers) : Prop :=
  ∀ h ∈ headers, h.2.all isText = true

theorem isText_of_bounds {b : UInt8} (hl : 0x20 ≤ b.toNat) (hh : b.toNat < 0x7F ∨ 0x80 ≤ b.toNat) : isText b = true := by
  simp only [isText, Bool.or_eq_true, Bool.and_eq_true, decide_eq_true_eq, UInt8.le_iff_toNat_le, UInt8.reduceToNat]
  omega

theorem isText_lossy {bs : List UInt8} (h : bs.all isText = true) : (Utf8.bytes (Utf8.lossy bs)).all isText = true :=
  List.all_eq_true.2 fun b hb => (Utf8.mem_bytes_lossy hb).elim (fun hge => isText_of_bounds (by omega) (.inr hge))
    fun hmem => List.all_eq_true.1 h b hmem

theorem isText_intText (i : Int) : (Utf8.bytes (Numeral.intText i)).all isText = true := by
  rw [List.all_eq_true, Numeral.intText, Utf8.bytes, String.toList_ofList]
  intro b hb
  obtain ⟨c, hc, hbc⟩ := List.mem_flatMap.1 hb
  have hle : c.toNat ≤ 0x39 := by
    rcases Numeral.of_mem_intDigits hc with rfl | hdigit
    · decide
    · exact (Numeral.le_of_isDigit hdigit).2
  rw [Utf8.encodeChar_of_lt (by omega), List.mem_singleton] at hbc
  have hn : b.toNat = c.toNat := by rw [hbc, Utf8.toNat_toUInt8 (by omega)]
  exact isText_of_bounds (Utf8.le_of_mem_encode (Plain.intDigits i) hb) (.inl (by omega))

/-- A parameter out of legal headers may stand in a header again. -/
theorem Legal.isText_parameter? {headers : Headers} (hl : headers.Legal) (name : String) :
    (Utf8.bytes ((headers.parameter? name).getD "")).all isText = true := by
  have hfirst : ∀ {name : String} {v : List UInt8}, headers.first? name = some v → v.all isText = true := fun hv => by
    obtain ⟨h, hfind, rfl⟩ := Option.map_eq_some_iff.1 hv
    exact hl h (List.mem_of_find?_eq_some hfind)
  unfold parameter?
  split
  · rename_i v hv
    exact isText_lossy (hfirst hv)
  · cases hv : headers.first? (hyphenated name) with
    | none => rfl
    | some v => exact isText_lossy (hfirst hv)

end Headers

/-! ## Requests -/

/-- A request arrives as it was sent.  Other headers may come with it: of those that were sent each is the first of its
name, so that none in front of it and no other spelling counts. -/
structure Incoming.Brings (r : Incoming) (sent : Request) : Prop where
  method : r.method = sent.method
  target : r.target = sent.path
  headers : ∀ h ∈ sent.headers, r.headers.first? h.1 = some (Utf8.bytes h.2)
  body : r.body = sent.body.getD []

/-- A request as it arrives with no other headers. -/
def Request.incoming (sent : Request) : Incoming :=
  { method := sent.method
    target := sent.path
    headers := .ofTexts sent.headers
    body := sent.body.getD [] }

theorem Endpoint.ofTarget_path (e : Endpoint) : Route.ofTarget e.path = .endpoint e.name := by
  cases e <;> decide +kernel

namespace Command

theorem brings_incoming (c : Command) : c.encode.incoming.Brings c.encode := by
  have hnames : ∀ names ∈ [[partialQueryName, numSuggestionsName], [], [jsonType.1], [queryIdName],
      [componentName, jsonType.1]], (names.map Headers.lower).Nodup := by decide +kernel
  refine ⟨rfl, rfl, Headers.first?_ofTexts ?_, rfl⟩
  cases c with
  | getAutofill _ _ => exact hnames [partialQueryName, numSuggestionsName] (by simp)
  | getQueryId => exact hnames [] (by simp)
  | reportSearchResults _ | submitFeedback _ => exact hnames [jsonType.1] (by simp)
  | getQueryData _ => exact hnames [queryIdName] (by simp)
  | reportMetrics _ _ => exact hnames [componentName, jsonType.1] (by simp)

theorem parameter?_of_brings {c : Command} {r : Incoming} (h : r.Brings c.encode) {name text : String}
    (hmem : (name, text) ∈ c.parameters) : r.headers.parameter? name = some text := by
  have hfirst : r.headers.first? name = some (Utf8.bytes text) := h.headers (name, text) (List.mem_append_left _ hmem)
  simp only [Headers.parameter?, hfirst, Utf8.lossy_bytes]

theorem decodeCount_intText {n : Int64} (hn : 0 ≤ n) : decodeCount (Numeral.intText n.toInt) = .ok n := by
  simp [decodeCount, Numeral.int64?_intText, Option.filter, hn]

theorem decodeQueryId_intText (id : QueryId) : decodeQueryId (Numeral.intText id.toInt) = .ok id := by
  simp [decodeQueryId, Numeral.int64?_intText]

theorem nonneg_of_decodeCount {raw : String} {n : Int64} (h : decodeCount raw = .ok n) : 0 ≤ n := by
  unfold decodeCount at h
  split at h
  · rename_i n' hn
    obtain rfl := Except.ok.inj h
    simpa using (Option.filter_eq_some_iff.1 hn).2
  · cases h

/-! ## What is read back -/

/-- A command that asks for no number of suggestions below zero. -/
def HasCount : Command → Prop
  | getAutofill _ count => 0 ≤ count
  | _ => True

/-- A command whose metrics are such as can be read: brackets nest no deeper in their text than the reader lets them, and
the fields of each object are in the order of their names, each name once. -/
def FitsReader : Command → Prop
  | reportMetrics _ report => report.toValue.nesting ≤ maxDepth ∧ ∀ v ∈ report.entries, v.InOrder
  | _ => True

/-- **What is encoded is decoded**, whatever other headers come with it. -/
theorem decode_of_brings {c : Command} (hc : c.HasCount) (hf : c.FitsReader) (hw : c.HasWholeNumbers) {r : Incoming}
    (h : r.Brings c.encode) : decode c.endpoint r.method r.headers r.body = .ok c := by
  have hmethod : ¬r.method ≠ c.endpoint.method := fun hne => hne h.method
  have hbody : r.body = c.body?.getD [] := h.body
  unfold decode
  rw [if_neg hmethod, hbody]
  cases c with
  | getAutofill partialQuery count =>
    have hquery : r.headers.parameter? partialQueryName = some partialQuery :=
      parameter?_of_brings h List.mem_cons_self
    have hcount : r.headers.parameter? numSuggestionsName = some (Numeral.intText count.toInt) :=
      parameter?_of_brings h (List.mem_cons_of_mem _ List.mem_cons_self)
    simp only [endpoint, hquery, hcount, decodeCount_intText hc]
    rfl
  | getQueryId => rfl
  | getQueryData id =>
    have hid : r.headers.parameter? queryIdName = some (Numeral.intText id.toInt) :=
      parameter?_of_brings h List.mem_cons_self
    simp only [endpoint, hid, decodeQueryId_intText]
    rfl
  | reportSearchResults report =>
    simp only [endpoint, body?, Option.getD_some, SearchReport.jsonBody_bytes]
    rfl
  | submitFeedback report =>
    simp only [endpoint, body?, Option.getD_some, FeedbackReport.jsonBody_bytes]
    rfl
  | reportMetrics component report =>
    have hcomponent : r.headers.parameter? componentName = some component :=
      parameter?_of_brings h List.mem_cons_self
    simp only [endpoint, body?, Option.getD_some, MetricsReport.jsonBody_bytes _ hf.1 hf.2 hw, hcomponent]
    rfl

section Decoded

variable {e : Endpoint} {method : String} {headers : Headers} {body : List UInt8} {c : Command}

theorem count_of_decode {partialQuery : String} {count : Int64}
    (h : decode e method headers body = .ok (getAutofill partialQuery count)) :
    0 ≤ count ∧ partialQuery = (headers.parameter? partialQueryName).getD "" := by
  obtain rfl : .getAutofill = e := endpoint_of_decode h
  unfold decode at h
  split at h
  · cases h
  dsimp only at h
  split at h
  · cases h
  · obtain ⟨count', hcount, heq⟩ := exists_of_map_eq_ok h
    obtain ⟨rfl, rfl⟩ := Command.getAutofill.inj heq
    exact ⟨nonneg_of_decodeCount hcount, rfl⟩

theorem component_of_decode {component : String} {report : MetricsReport}
    (h : decode e method headers body = .ok (reportMetrics component report)) :
    component = (headers.parameter? componentName).getD "" := by
  obtain rfl : .reportMetrics = e := endpoint_of_decode h
  unfold decode at h
  split at h
  · cases h
  · obtain ⟨_, -, heq⟩ := exists_of_map_eq_ok h
    exact (Command.reportMetrics.inj heq).1.symm

theorem fits_of_read? {component : String} {report : MetricsReport} {bs : List UInt8}
    (h : MetricsReport.read? bs = some report) : (reportMetrics component report).FitsReader := by
  obtain ⟨hd, ho⟩ := MetricsReport.inOrder_of_read? h
  exact ⟨report.nesting_toValue.trans_le hd, ho⟩

/-- **What is decoded can be decoded again** from what it is encoded as. -/
theorem fits_of_decode (h : decode e method headers body = .ok c) : c.HasCount ∧ c.FitsReader := by
  cases c with
  | getQueryId | reportSearchResults _ | submitFeedback _ | getQueryData _ => exact ⟨trivial, trivial⟩
  | reportMetrics component report => exact ⟨trivial, fits_of_read? (read?_of_decode h)⟩
  | getAutofill partialQuery count => exact ⟨(count_of_decode h).1, trivial⟩

/-- What was decoded out of legal headers is encoded in legal headers. -/
theorem canTravel_of_decode (h : decode e method headers body = .ok c) (hl : headers.Legal) :
    Sending.canTravel c.encode = true := by
  have hjson : (Utf8.bytes jsonType.2).all isText = true := by decide +kernel
  have hparameters : ∀ p ∈ c.parameters, (Utf8.bytes p.2).all isText = true := by
    cases c with
    | getQueryId | reportSearchResults _ | submitFeedback _ => nofun
    | getQueryData id =>
      rintro p (_ | ⟨_, ⟨⟩⟩)
      exact Headers.isText_intText _
    | reportMetrics component report =>
      rintro p (_ | ⟨_, ⟨⟩⟩)
      exact component_of_decode h ▸ hl.isText_parameter? componentName
    | getAutofill partialQuery count =>
      rintro p (_ | ⟨_, _ | ⟨_, ⟨⟩⟩⟩)
      · exact (count_of_decode h).2 ▸ hl.isText_parameter? partialQueryName
      · exact Headers.isText_intText _
  rw [Sending.canTravel, List.all_eq_true]
  intro p hp
  rcases List.mem_append.1 hp with hp | hp
  · exact hparameters p hp
  · split at hp
    · obtain rfl := List.mem_singleton.1 hp
      exact hjson
    · cases hp

end Decoded

end Command

/-! ## The tool -/

theorem ToolAction.fits_of_command? {action : ToolAction} {c : Command} (h : action.command? = .ok (some c)) :
    c.FitsReader := by
  cases action with
  | relay _ => cases h
  | getAutofill _ _ | getQueryId | getQueryData _ =>
    obtain rfl := Option.some.inj (Except.ok.inj h)
    trivial
  | reportSearchResults json | submitFeedback json =>
    obtain ⟨_, -, heq⟩ := exists_of_map_eq_ok h
    obtain rfl := Option.some.inj heq
    trivial
  | reportMetrics component json =>
    obtain ⟨r, hreport, heq⟩ := exists_of_map_eq_ok h
    obtain rfl := Option.some.inj heq
    unfold report at hreport
    split at hreport
    · rename_i r' hread
      obtain rfl := Except.ok.inj hreport
      exact Command.fits_of_read? hread
    · cases hreport

theorem Sending.ofWords_of_command? {path : String} {words : List String} {env : Environment}
    {content : Option (List UInt8)} {i : ToolInvocation} {settings : Settings} {c : Command}
    (hi : ToolInvocation.read words = .ok i) (hs : Settings.load path content env = .ok settings)
    (hc : i.action.command? = .ok (some c)) (ht : canTravel c.encode = true) :
    ofWords path words env content = .request (i.service settings) c.encode := by
  unfold ofWords
  simp only [hi, hs, hc]
  cases haction : i.action with
  | relay port =>
    rw [haction] at hc
    cases hc
  | _ => exact if_pos ht

namespace Command

/-- **Encoding and decoding are inverse.**  Let all numbers in the metrics of a command be whole.  It is decoded from what it
is encoded as just if it asks for no number of suggestions below zero and its metrics are such as can be read.  Every request
that is decoded as such a command has therefore a canonical form, which is decoded as the same command and can be sent if the
request could.  And if the words of a command line ask for such a command, with no number below zero and only legal headers,
the tool sends what the command is encoded as; however that arrives, it goes to the command's endpoint, is decoded as the
command that the tool has built, and is carried out as such. -/
theorem encoding_faithful :
    (∀ c : Command, c.HasWholeNumbers →
      (decode c.endpoint c.encode.method (.ofTexts c.encode.headers) (c.encode.body.getD []) = .ok c ↔
        c.HasCount ∧ c.FitsReader)) ∧
    (∀ (e : Endpoint) (method : String) (headers : Headers) (body : List UInt8) (c : Command),
      decode e method headers body = .ok c → c.HasWholeNumbers →
        decode e c.encode.method (.ofTexts c.encode.headers) (c.encode.body.getD []) = .ok c ∧
          (headers.Legal → Sending.canTravel c.encode = true)) ∧
    ∀ (path : String) (words : List String) (env : Environment) (content : Option (List UInt8)) (i : ToolInvocation)
      (settings : Settings) (c : Command),
      ToolInvocation.read words = .ok i → Settings.load path content env = .ok settings →
        i.action.command? = .ok (some c) → c.HasCount → c.HasWholeNumbers → Sending.canTravel c.encode = true →
        Sending.ofWords path words env content = .request (i.service settings) c.encode ∧
          ∀ r : Incoming, r.Brings c.encode →
            Route.ofTarget r.target = .endpoint c.endpoint.name ∧
              decode c.endpoint r.method r.headers r.body = .ok c ∧
              (∀ now (s : Service), s.dispatch now c.endpoint.name r = s.execute now c) ∧
              (r.body.length ≤ Service.maxBody → r.command? = some c) := by
  refine ⟨fun c hw => ⟨fits_of_decode, fun h => decode_of_brings h.1 h.2 hw c.brings_incoming⟩,
    fun e method headers body c hc hw => ?_, fun path words env content i settings c hi hs hc hcount hw ht => ?_⟩
  · obtain ⟨hcount, hfits⟩ := fits_of_decode hc
    have htravel := canTravel_of_decode hc
    obtain rfl := endpoint_of_decode hc
    exact ⟨decode_of_brings hcount hfits hw c.brings_incoming, htravel⟩
  · refine ⟨Sending.ofWords_of_command? hi hs hc ht, fun r hr => ?_⟩
    have hdecode := decode_of_brings hcount (ToolAction.fits_of_command? hc) hw hr
    have hroute : Route.ofTarget r.target = .endpoint c.endpoint.name := hr.target ▸ c.endpoint.ofTarget_path
    refine ⟨hroute, hdecode, fun now s => ?_, fun hmax => Incoming.command?_eq c.endpoint hroute hmax hdecode⟩
    rw [Service.dispatch, Endpoint.ofName?_name]
    simp only [hdecode]

/-- Metrics in an object with a string to be escaped, a request in other spellings and with bytes that are no text, and a run
of the tool. -/
theorem encoding_faithful_spelled :
    let metrics : Command :=
      .reportMetrics "a b" (.wrapped [.object [("x", .int (-5)), ("y", .array [.null, .string "\"\n"])], .bool true])
    let autofill : Command := .getAutofill "a\ufffd" 3
    let query : Command := .getQueryData (-7)
    let spelled : Headers := [("NUM-suggestions", [0x20, 0x2B, 0x33, 0x20]), ("Partial-Query", [0x61, 0xFF])]
    metrics.HasWholeNumbers ∧ metrics.HasCount ∧ metrics.FitsReader ∧
      decode .reportMetrics "POST" (.ofTexts metrics.encode.headers) (metrics.encode.body.getD []) = .ok metrics ∧
      decode .getAutofill "GET" spelled [] = .ok autofill ∧
      decode .getAutofill "GET" (.ofTexts autofill.encode.headers) [] = .ok autofill ∧
      Sending.canTravel autofill.encode = true ∧
      Sending.ofWords "" ["GetQueryData", "-7"] .empty none = .request Settings.standard.service query.encode ∧
      query.encode.incoming.command? = some query := by
  intro metrics autofill query spelled
  have hwhole : metrics.HasWholeNumbers := by
    intro v hv
    rcases List.mem_cons.1 hv with rfl | hv
    · exact ⟨trivial, ⟨by decide, by decide⟩, ⟨trivial, trivial, trivial, trivial⟩, trivial⟩
    · obtain rfl := List.mem_singleton.1 hv
      trivial
  have hfits : metrics.FitsReader := by
    refine ⟨by decide, fun v hv => ?_⟩
    rcases List.mem_cons.1 hv with rfl | hv
    · exact ⟨List.Pairwise.cons (by decide) (List.pairwise_singleton _ _), trivial, ⟨trivial, trivial, trivial, trivial⟩,
        trivial⟩
    · obtain rfl := List.mem_singleton.1 hv
      trivial
  have hspelled : decode .getAutofill "GET" spelled [] = .ok autofill := rfl
  obtain ⟨hback, hagain, htool⟩ := encoding_faithful
  obtain ⟨hcanonical, htravel⟩ := hagain .getAutofill "GET" spelled [] autofill hspelled trivial
  obtain ⟨hsent, hread⟩ := htool "" ["GetQueryData", "-7"] .empty none ⟨none, none, .getQueryData (-7)⟩ .standard query
    (by decide +kernel) (by decide +kernel) rfl trivial trivial (by decide +kernel)
  obtain ⟨-, -, -, hcommand⟩ := hread query.encode.incoming query.brings_incoming
  refine ⟨hwhole, trivial, hfits, (hback metrics hwhole).2 ⟨trivial, hfits⟩, hspelled, hcanonical, htravel ?_, hsent,
    hcommand (by decide)⟩
  show ∀ h ∈ spelled, h.2.all isText = true
  decide

end Command
end SearchTelemetry
