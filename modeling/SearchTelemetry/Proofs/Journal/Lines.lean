import SearchTelemetry.Journal
import SearchTelemetry.Proofs.Json.Plain
import SearchTelemetry.Proofs.Json.Records
/-!
# Journal.Lines — the entries of a journal, piece by piece

A journal that ends with a line feed can be cut behind any line: its entries are those of the pieces, one after the other
(`entries_append`), and lines of entries that are added tell these entries (`entries_append_lines`).  Ending the last line
changes no entry (`entries_mended`), as a line tells the same with and without its line feed.
-/
namespace SearchTelemetry

open Json (Written)

/-! ## One line -/

namespace JournalEntry

/-- The text of an entry: its line without the line feed. -/
def text (e : JournalEntry) : List UInt8 :=
  e.toValue.bytes

theorem line_eq (e : JournalEntry) : e.line = e.text ++ [0x0A] :=
  rfl

theorem lineFeed_not_mem_text (e : JournalEntry) : 0x0A ∉ e.text :=
  Json.lineFeed_not_mem_bytes e.toValue

/-- The entry is the one that its text tells. -/
def Legible (e : JournalEntry) : Prop :=
  ofLine? e.text = some e

theorem ofLine?_eq (bs : List UInt8) :
    ofLine? bs = (Written.strict? bs).bind fun w => (w.tagged? "type").bind fun (kind, w) => ofKind? kind w :=
  rfl

/-- A line tells the same with and without its line feed. -/
theorem ofLine?_append_lineFeed (bs : List UInt8) : ofLine? (bs ++ [0x0A]) = ofLine? bs := by
  rw [ofLine?_eq, ofLine?_eq, Written.strict?_append_spaces fun b hb => ?_]
  obtain rfl : b = 0x0A := by simpa using hb
  decide

theorem Legible.ofLine? {e : JournalEntry} (h : e.Legible) : JournalEntry.ofLine? e.line = some e := by
  rw [line_eq, ofLine?_append_lineFeed]
  exact h

/-- A blank line tells nothing. -/
theorem ofLine?_of_blank {bs : List UInt8} (h : bs.all Blank.isBlankByte) : ofLine? bs = none := by
  cases hw : Written.strict? bs with
  | none => rw [ofLine?_eq, hw, Option.bind_none]
  | some w =>
    rw [Written.not_blank_of_strict? hw] at h
    cases h

end JournalEntry

/-! ## Lines -/

namespace Journal

open JournalEntry

theorem entries_eq (bs : List UInt8) : entries bs = (lines bs).filterMap ofLine? := by
  unfold entries
  congr 1
  funext l
  split
  · rename_i h
    exact (ofLine?_of_blank h).symm
  · rfl

theorem linesLoop_lineFeed (ls : List (List UInt8)) (acc bs : List UInt8) :
    linesLoop ls acc (0x0A :: bs) = linesLoop ((0x0A :: acc).reverse :: ls) [] bs := by
  simp [linesLoop]

theorem linesLoop_cons {b : UInt8} (hb : b ≠ 0x0A) (ls : List (List UInt8)) (acc bs : List UInt8) :
    linesLoop ls acc (b :: bs) = linesLoop ls (b :: acc) bs := by
  simp [linesLoop, hb]

theorem linesLoop_eq : ∀ (ls : List (List UInt8)) (acc bs : List UInt8),
    linesLoop ls acc bs = ls.reverse ++ linesLoop [] acc bs
  | ls, [], [] => by simp [linesLoop]
  | ls, a :: acc, [] => by simp [linesLoop]
  | ls, acc, b :: bs => by
    by_cases hb : b = 0x0A
    · subst hb
      rw [linesLoop_lineFeed, linesLoop_lineFeed, linesLoop_eq (_ :: ls) [] bs, linesLoop_eq [_] [] bs]
      simp
    · rw [linesLoop_cons hb, linesLoop_cons hb]
      exact linesLoop_eq ls (b :: acc) bs

theorem isTorn_cons_cons (a b : UInt8) (bs : List UInt8) : isTorn (a :: b :: bs) = isTorn (b :: bs) := by
  simp [isTorn]

theorem linesLoop_append : ∀ (as acc bs : List UInt8), (as = [] → acc = []) → isTorn as = false →
    linesLoop [] acc (as ++ bs) = linesLoop [] acc as ++ linesLoop [] [] bs
  | [], acc, bs, hacc, _ => by
    rw [hacc rfl]
    simp [linesLoop]
  | [a], acc, bs, _, ht => by
    obtain rfl : a = 0x0A := by simpa [isTorn] using ht
    rw [List.singleton_append, linesLoop_lineFeed, linesLoop_lineFeed, linesLoop_eq]
    simp [linesLoop]
  | a :: b :: as, acc, bs, _, ht => by
    rw [isTorn_cons_cons] at ht
    rw [List.cons_append]
    by_cases ha : a = 0x0A
    · subst ha
      rw [linesLoop_lineFeed, linesLoop_lineFeed, linesLoop_eq _ [] (b :: as ++ bs), linesLoop_eq _ [] (b :: as),
        linesLoop_append (b :: as) [] bs (fun _ => rfl) ht, List.append_assoc]
    · rw [linesLoop_cons ha, linesLoop_cons ha]
      exact linesLoop_append (b :: as) (a :: acc) bs (fun h => by cases h) ht

/-- A journal that ends with a line feed has the lines of its pieces. -/
theorem lines_append {as : List UInt8} (h : isTorn as = false) (bs : List UInt8) :
    lines (as ++ bs) = lines as ++ lines bs :=
  linesLoop_append as [] bs (fun _ => rfl) h

/-- **Entries that are added behind a line feed come after those before it**, and change none of them. -/
theorem entries_append {as : List UInt8} (h : isTorn as = false) (bs : List UInt8) :
    entries (as ++ bs) = entries as ++ entries bs := by
  rw [entries_eq, entries_eq, entries_eq, lines_append h, List.filterMap_append]

theorem linesLoop_of_not_mem : ∀ (acc bs : List UInt8), 0x0A ∉ bs → bs ≠ [] →
    linesLoop [] acc bs = [acc.reverse ++ bs]
  | acc, [], _, hne => absurd rfl hne
  | acc, [b], h, _ => by
    have hb : b ≠ 0x0A := fun hb => h (by simp [hb])
    simp [linesLoop, hb]
  | acc, b :: c :: bs, h, _ => by
    have hb : b ≠ 0x0A := fun hb => h (by simp [hb])
    rw [linesLoop_cons hb, linesLoop_of_not_mem (b :: acc) (c :: bs) (fun hc => h (List.mem_cons_of_mem b hc)) (by simp)]
    simp

theorem linesLoop_of_not_mem_append : ∀ (acc bs : List UInt8), 0x0A ∉ bs →
    linesLoop [] acc (bs ++ [0x0A]) = [acc.reverse ++ bs ++ [0x0A]]
  | acc, [], _ => by simp [linesLoop]
  | acc, b :: bs, h => by
    have hb : b ≠ 0x0A := fun hb => h (by simp [hb])
    rw [List.cons_append, linesLoop_cons hb,
      linesLoop_of_not_mem_append (b :: acc) bs fun hc => h (List.mem_cons_of_mem b hc)]
    simp

/-- A line by itself tells one entry, or none. -/
theorem entries_line {bs : List UInt8} (h : 0x0A ∉ bs) : entries (bs ++ [0x0A]) = (ofLine? bs).toList := by
  rw [entries_eq, lines, linesLoop_of_not_mem_append [] bs h, ← ofLine?_append_lineFeed bs]
  cases hl : ofLine? (bs ++ [0x0A]) <;> simp [hl]

/-- A last line without its line feed tells what it tells with it. -/
theorem entries_of_not_mem {bs : List UInt8} (h : 0x0A ∉ bs) : entries bs = (ofLine? bs).toList := by
  by_cases hne : bs = []
  · subst hne
    rfl
  · rw [entries_eq, lines, linesLoop_of_not_mem [] bs h hne]
    cases hl : ofLine? bs <;> simp [hl]

/-! ## Lines of entries -/

theorem isTorn_append {bs : List UInt8} (h : isTorn bs = false) {as : List UInt8} (ha : isTorn as = false) :
    isTorn (as ++ bs) = false := by
  rcases List.eq_nil_or_concat bs with rfl | ⟨bs, b, rfl⟩
  · simpa using ha
  · simpa [isTorn, ← List.append_assoc] using h

theorem isTorn_line (e : JournalEntry) : isTorn e.line = false := by
  simp [JournalEntry.line_eq, isTorn]

theorem isTorn_lines : ∀ es : List JournalEntry, isTorn (es.flatMap line) = false
  | [] => rfl
  | e :: es => isTorn_append (isTorn_lines es) (isTorn_line e)

/-- **Lines of entries that are added tell these entries.** -/
theorem entries_append_lines : ∀ {as : List UInt8} {es : List JournalEntry}, isTorn as = false →
    (∀ e ∈ es, e.Legible) → entries (as ++ es.flatMap line) = entries as ++ es
  | as, [], _, _ => by simp
  | as, e :: es, h, hes => by
    have he : entries (as ++ e.line) = entries as ++ [e] := by
      rw [entries_append h, line_eq, entries_line (lineFeed_not_mem_text e), hes e (by simp), Option.toList_some]
    rw [List.flatMap_cons, ← List.append_assoc, entries_append_lines (isTorn_append (isTorn_line e) h) fun e' he' =>
      hes e' (List.mem_cons_of_mem e he'), he, List.append_assoc, List.singleton_append]

/-! ## The last line -/

/-- A journal is lines that are ended, and a last line that is not. -/
theorem exists_last_line (bs : List UInt8) : ∃ as t, bs = as ++ t ∧ isTorn as = false ∧ 0x0A ∉ t := by
  induction bs with
  | nil => exact ⟨[], [], rfl, rfl, by simp⟩
  | cons b bs ih =>
    obtain ⟨as, t, rfl, ha, ht⟩ := ih
    cases as with
    | nil =>
      by_cases hb : b = 0x0A
      · exact ⟨[b], t, rfl, by simp [isTorn, hb], ht⟩
      · exact ⟨[], b :: t, rfl, rfl, by simp [ht, Ne.symm hb]⟩
    | cons a as => exact ⟨b :: a :: as, t, rfl, by rw [isTorn_cons_cons]; exact ha, ht⟩

theorem isTorn_append_lineFeed (bs : List UInt8) : isTorn (bs ++ [0x0A]) = false := by
  simp [isTorn]

theorem isTorn_mended (bs : List UInt8) : isTorn (mended bs) = false := by
  unfold mended
  split
  · exact isTorn_append_lineFeed bs
  · rename_i h
    simpa using h

/-- **Ending the last line changes no entry.** -/
theorem entries_mended (bs : List UInt8) : entries (mended bs) = entries bs := by
  unfold mended
  split
  · obtain ⟨as, t, rfl, ha, ht⟩ := exists_last_line bs
    rw [List.append_assoc, entries_append ha, entries_append ha, entries_line ht, entries_of_not_mem ht]
  · rfl

end Journal
end SearchTelemetry
