import SearchTelemetry.Proofs.Store.Run
/-!
# Store.Crash — what a crash leaves of a journal

A crash may cut a journal off anywhere.  No beginning of an entry's text is itself an entry (`ofLine?_of_prefix`), so that
the entries that are left are those whose text is whole, be it without its line feed (`entries_of_prefix`).  Opening the
store ends the last line, and what is accepted from then on comes after them, however often the store is opened again
(`recovers`).
-/
namespace SearchTelemetry

/-! ## The end of a text -/

namespace Json

theorem exists_fieldsChars (fs : List (String × Value)) : ∃ cs, fieldsChars fs = cs ++ ['}'] := by
  induction fs with
  | nil => exact ⟨[], rfl⟩
  | cons f fs ih =>
    obtain ⟨cs, hcs⟩ := ih
    exact ⟨',' :: stringChars f.1 ++ ':' :: f.2.chars ++ cs, by rw [fieldsChars, hcs]; simp⟩

/-- An object ends with its bracket. -/
theorem exists_bytes_object (fs : List (String × Value)) : ∃ bs, (Value.object fs).bytes = bs ++ [0x7D] := by
  cases fs with
  | nil => exact ⟨[0x7B], by decide +kernel⟩
  | cons f fs =>
    obtain ⟨cs, hcs⟩ := exists_fieldsChars fs
    refine ⟨Utf8.encode ('{' :: stringChars f.1 ++ ':' :: f.2.chars ++ cs), ?_⟩
    rw [Value.bytes, Value.chars, hcs, ← List.append_assoc, Utf8.encode_append]
    rfl

end Json

namespace JournalEntry

theorem exists_text (e : JournalEntry) : ∃ bs, e.text = bs ++ [0x7D] :=
  Json.exists_bytes_object _

theorem exists_strict?_of_ofLine? {bs : List UInt8} {e : JournalEntry} (h : JournalEntry.ofLine? bs = some e) :
    ∃ w, Json.Written.strict? bs = some w := by
  rw [ofLine?_eq] at h
  cases hw : Json.Written.strict? bs with
  | none => simp [hw] at h
  | some w => exact ⟨w, rfl⟩

/-- **No proper beginning of an entry's text is an entry.** -/
theorem ofLine?_of_prefix {e : JournalEntry} (he : e.Legible) {p : List UInt8} (hp : p <+: e.text) (hne : p ≠ e.text) :
    JournalEntry.ofLine? p = none := by
  rw [Option.eq_none_iff_forall_ne_some]
  intro e' he'
  obtain ⟨w', hw'⟩ := exists_strict?_of_ofLine? he'
  obtain ⟨w, hw⟩ := exists_strict?_of_ofLine? he
  obtain ⟨q, hq⟩ := hp
  rw [← hq] at hw
  have hspaces := Json.Written.spaces_of_strict? hw' hw
  obtain ⟨bs, hbs⟩ := e.exists_text
  rcases List.eq_nil_or_concat q with rfl | ⟨q, b, rfl⟩
  · exact hne (by simpa using hq)
  · rw [hbs, List.concat_eq_append, ← List.append_assoc] at hq
    obtain ⟨-, hb⟩ := List.append_inj' hq rfl
    obtain rfl : b = 0x7D := by simpa using hb
    exact absurd (hspaces 0x7D (by simp)) (by decide)

end JournalEntry

/-! ## A journal that is cut off -/

namespace Journal

open JournalEntry

/-- The text of an entry in a journal, with the lines before it, stands at the beginning of some bytes. -/
def HasText (es : List JournalEntry) (i : Nat) (p : List UInt8) : Prop :=
  ∃ e, es[i]? = some e ∧ (es.take i).flatMap line ++ e.text <+: p

theorem hasText_zero (e : JournalEntry) (es : List JournalEntry) (p : List UInt8) :
    HasText (e :: es) 0 p ↔ e.text <+: p := by
  simp [HasText]

theorem hasText_succ (e : JournalEntry) (es : List JournalEntry) (i : Nat) (p : List UInt8) :
    HasText (e :: es) (i + 1) (e.line ++ p) ↔ HasText es i p := by
  simp [HasText, List.prefix_append_right_inj]

/-- Where an entry stands, at least as many bytes stand as the first entry has. -/
theorem HasText.length_le {e : JournalEntry} {es : List JournalEntry} {i : Nat} {p : List UInt8}
    (h : HasText (e :: es) i p) : e.text.length ≤ p.length ∧ (0 < i → e.text.length < p.length) := by
  obtain ⟨e', he', hp⟩ := h
  have hlen := hp.length_le
  cases i with
  | zero =>
    obtain rfl : e = e' := by simpa using he'
    simpa using hlen
  | succ i =>
    have : e.text.length < e.line.length := by simp [line_eq]
    simp only [List.take_succ_cons, List.flatMap_cons, List.length_append] at hlen
    omega

/-- **Of a journal that is cut off just the entries are left whose text is whole**, and these are the first ones. -/
theorem entries_of_prefix : ∀ {es : List JournalEntry} {p : List UInt8}, (∀ e ∈ es, e.Legible) →
    p <+: es.flatMap line → ∃ k ≤ es.length, entries p = es.take k ∧ ∀ i, i < k ↔ HasText es i p
  | [], p, _, hp => by
    obtain rfl : p = [] := by simpa using hp
    exact ⟨0, le_refl 0, rfl, fun i => by simp [HasText]⟩
  | e :: es, p, hes, hp => by
    have hlegible : e.Legible := hes e (by simp)
    rw [List.flatMap_cons] at hp
    by_cases hline : e.line <+: p
    · obtain ⟨p', rfl⟩ := hline
      rw [List.prefix_append_right_inj] at hp
      obtain ⟨k, hk, hentries, hi⟩ := entries_of_prefix (fun e' he' => hes e' (List.mem_cons_of_mem e he')) hp
      refine ⟨k + 1, by simpa using hk, ?_, fun i => ?_⟩
      · rw [entries_append (isTorn_line e), hentries, line_eq, entries_line (lineFeed_not_mem_text e), hlegible]
        rfl
      · cases i with
        | zero => simp [hasText_zero, line_eq]
        | succ i => rw [Nat.add_lt_add_iff_right, hi, hasText_succ]
    · have htext : p <+: e.text := by
        have := (List.prefix_or_prefix_of_prefix hp (List.prefix_append e.line _)).resolve_right hline
        rw [line_eq, List.prefix_concat_iff] at this
        exact this.resolve_left fun heq => hline (by simp [heq, line_eq])
      have hp' : 0x0A ∉ p := fun h => lineFeed_not_mem_text e (htext.subset h)
      by_cases hne : p = e.text
      · subst hne
        refine ⟨1, by simp, ?_, fun i => ⟨fun hi => ?_, fun hi => ?_⟩⟩
        · rw [entries_of_not_mem hp', hlegible]
          rfl
        · obtain rfl : i = 0 := by omega
          exact (hasText_zero e es e.text).2 (List.prefix_refl _)
        · by_contra hlt
          exact absurd (hi.length_le.2 (by omega)) (lt_irrefl _)
      · refine ⟨0, by simp, ?_, fun i => ⟨fun hi => by omega, fun hi => ?_⟩⟩
        · rw [entries_of_not_mem hp', ofLine?_of_prefix hlegible htext hne]
          rfl
        · exact absurd (htext.eq_of_length_le hi.length_le.1) hne

end Journal

/-! ## Opening after a crash -/

namespace Store

/-- The store that is opened on a store's journal. -/
def reopened (s : Store) : Store :=
  ofJournal s.journalBytes

/-- The store after rounds of turns, each of which ends with opening the store again. -/
def rounds : Store → List (List Turn) → Store
  | s, [] => s
  | s, ts :: tss => rounds (s.run ts).reopened tss

/-- The entries that are added in rounds, in order. -/
def acceptedOver : Store → List (List Turn) → Log
  | _, [] => []
  | s, ts :: tss => s.accepted ts ++ acceptedOver (s.run ts).reopened tss

/-- **However often a store is opened again, all that was accepted is there, in order.** -/
theorem rounds_ofJournal : ∀ (tss : List (List Turn)) (bs : List UInt8),
    (∀ e ∈ (ofJournal bs).acceptedOver tss, e.Legible) →
      ∃ bs', (ofJournal bs).rounds tss = ofJournal bs' ∧
        Journal.entries bs' = Journal.entries bs ++ (ofJournal bs).acceptedOver tss
  | [], bs, _ => ⟨bs, rfl, by simp [acceptedOver]⟩
  | ts :: tss, bs, h => by
    rw [acceptedOver, List.forall_mem_append] at h
    obtain ⟨bs', hrounds, hentries⟩ := rounds_ofJournal tss _ h.2
    refine ⟨bs', hrounds, ?_⟩
    rw [hentries, entries_run h.1, acceptedOver, List.append_assoc]
    rfl

/-- **A crash loses no entry whose text was whole.**  Of the entries that were accepted on an empty journal, a store opened
on any beginning of the journal has the first `k` and nothing else, where `k` counts the texts that are whole in it.  What is
accepted from then on comes after them, each entry once and in order, however often the store is opened again. -/
theorem recovers (name : String) (ts : List Turn) (h : ∀ e ∈ (ofJournal []).accepted ts, e.Legible) (p : List UInt8)
    (hp : p <+: ((ofJournal []).run ts).journalBytes) :
    ∃ k ≤ ((ofJournal []).accepted ts).length,
      (∀ i, i < k ↔ Journal.HasText ((ofJournal []).accepted ts) i p) ∧
      ∃ s, open? name (.journal p) = .ok s ∧ s.memory = .ofEntries (((ofJournal []).accepted ts).take k) ∧
        ∀ (tss : List (List Turn)) (ts' : List Turn), (∀ e ∈ s.acceptedOver tss ++ (s.rounds tss).accepted ts', e.Legible) →
          let l := ((ofJournal []).accepted ts).take k ++ s.acceptedOver tss ++ (s.rounds tss).accepted ts'
          ((s.rounds tss).run ts').memory.Keeps l (issued ts') ∧
            Journal.entries ((s.rounds tss).run ts').journalBytes = l := by
  rw [journalBytes_run] at hp
  obtain ⟨k, hk, hentries, hi⟩ := Journal.entries_of_prefix h hp
  refine ⟨k, hk, hi, ofJournal p, rfl, by rw [← hentries]; rfl, fun tss ts' htss => ?_⟩
  rw [List.forall_mem_append] at htss
  obtain ⟨bs', hrounds, hentries'⟩ := rounds_ofJournal tss p htss.1
  rw [hentries] at hentries'
  rw [hrounds] at htss ⊢
  rw [← hentries']
  exact ⟨(run_spec ts' (holds_ofJournal bs')).memory, entries_run htss.2⟩

theorem recovers_cut :
    let f : FeedbackRecord := ⟨"a", "", "b", ⟨0, 0⟩⟩
    let ts : List Turn := [⟨none, .feedback f⟩, ⟨none, .feedback f⟩]
    let p := ((ofJournal []).run ts).journalBytes.dropLast
    ((ofJournal []).accepted ts).length = 2 ∧ (∀ e ∈ (ofJournal []).accepted ts, e.Legible) ∧
      ∃ k ≤ 2, (∀ i, i < k ↔ Journal.HasText ((ofJournal []).accepted ts) i p) ∧
        ∃ s, open? "data" (.journal p) = .ok s ∧ s.memory = .ofEntries (((ofJournal []).accepted ts).take k) := by
  intro f ts p
  have hlegible : ∀ e ∈ (ofJournal []).accepted ts, e.Legible := fun e he => by
    obtain ⟨t, ht, hentry⟩ := exists_of_mem_accepted he
    have hts : ∀ t ∈ ts, t.call.toKeep? = some e → .feedback f = e := by simp [ts, Call.toKeep?]
    obtain rfl := hts t ht hentry
    exact JournalEntry.legible_of_valid ⟨by decide +kernel, by decide⟩ (by decide)
  have hlength : ((ofJournal []).accepted ts).length = 2 := by decide +kernel
  obtain ⟨k, hk, hi, s, hs, hmemory, -⟩ := recovers "data" ts hlegible p (List.dropLast_prefix _)
  exact ⟨hlength, hlegible, k, hlength ▸ hk, hi, s, hs, hmemory⟩

end Store
end SearchTelemetry
