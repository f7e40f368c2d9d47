import SearchTelemetry.Http.Rendered
import SearchTelemetry.Proofs.Text.Numeral
import SearchTelemetry.Proofs.Text.Pieces
/-!
# Http.Rendered — a response that is printed can be taken apart again

Nothing is escaped in the text of a response.  It can be taken apart all the same, as a script does it (`takeApart?`).  The
first empty line ends the head, whatever the body holds, since neither the status line nor the line of a header is empty
(`splitOn_renderChars`).  The first colon with a blank behind it ends a header's name, whatever the value holds, since there is
none in the name (`header?_headerLine`).  So responses with one text have one status line, the same headers and one body, as
text (`render_taken_apart`).
-/
namespace SearchTelemetry
namespace Http

/-! ## Taking apart -/

/-- What stands before the first occurrence of a separator in a text, and what behind it. -/
def splitOnce? (sep : List Char) : List Char → Option (List Char × List Char)
  | [] => none
  | c :: cs =>
    if sep <+: c :: cs then some ([], (c :: cs).drop sep.length)
    else (splitOnce? sep cs).map fun (before, behind) => (c :: before, behind)

/-- The parts of a response's text. -/
structure Rendering where
  statusLine : List Char
  headers : List (String × String)
  body : List Char
deriving DecidableEq, Repr

namespace Rendering

/-- The name and the value in the line of a header. -/
def header? (line : List Char) : Option (String × String) :=
  (splitOnce? [':', ' '] line).map fun (name, value) => (String.ofList name, String.ofList value)

/-- A text in its parts: in front of its first empty line the status line and then a line for each header, behind it the
body. -/
def takeApart? (text : List Char) : Option Rendering :=
  let lines := text.splitOn '\n'
  match lines.takeWhile (!·.isEmpty), lines.dropWhile (!·.isEmpty) with
  | statusLine :: headers, _ :: body =>
    (headers.mapM header?).map fun headers => { statusLine, headers, body := ['\n'].intercalate body }
  | _, _ => none

/-! ## Headers -/

theorem header?_headerLine {h : String × String} (hname : ':' ∉ h.1.toList) :
    header? (Response.headerLine h) = some h := by
  have hsplit : ∀ name : List Char, ':' ∉ name →
      splitOnce? [':', ' '] (name ++ ':' :: ' ' :: h.2.toList) = some (name, h.2.toList) := by
    intro name hname
    -- no separator begins within a name that has no colon
    induction name with
    | nil => simp [splitOnce?]
    | cons c name ih =>
      obtain ⟨hc, hname⟩ := not_or.1 (mt List.mem_cons.2 hname)
      simp [splitOnce?, hc, ih hname]
  rw [header?, Response.headerLine, hsplit _ hname]
  simp

end Rendering

/-! ## Lines -/

namespace Response

variable {r : Response}

/-- There is no line break within the parts of a response's lines, and no colon in the name of a header. -/
structure IsClean (r : Response) : Prop where
  version : '\n' ∉ r.version.toList
  reason : '\n' ∉ r.reason.toList
  names : ∀ h ∈ r.headers, '\n' ∉ h.1.toList ∧ ':' ∉ h.1.toList
  values : ∀ h ∈ r.headers, '\n' ∉ h.2.toList

theorem lineBreak_not_mem_digits (n : Nat) : '\n' ∉ Numeral.digits n := fun h =>
  absurd (Numeral.isDigit_of_mem_digits h) (by decide)

-- The blanks that are left out at the end of a status line stand behind its digits.
theorem statusLine_ne_nil (r : Response) : r.statusLine ≠ [] := fun hnil => by
  obtain ⟨back, hback, hblank, -⟩ := Blank.exists_of_trimEndWhile Blank.isBlank
    (r.version.toList ++ ' ' :: Numeral.digits r.status ++ ' ' :: r.reason.toList)
  have hempty : Blank.trimEndWhile Blank.isBlank _ = [] := hnil
  rw [hempty, List.nil_append] at hback
  obtain ⟨c, cs, hdigits⟩ := List.exists_cons_of_ne_nil (Numeral.digits_ne_nil r.status)
  have hmem : c ∈ Numeral.intDigits r.status := by
    rw [Numeral.intDigits, if_neg (by omega), Int.natAbs_natCast, hdigits]
    exact List.mem_cons_self
  have hdigit : Blank.isBlank c = false := Numeral.not_isBlank_of_mem_intDigits hmem
  have hc : Blank.isBlank c = true := hblank c (by simp [← hback, hdigits])
  rw [hdigit] at hc
  cases hc

theorem IsClean.statusLine (h : r.IsClean) : '\n' ∉ r.statusLine := by
  obtain ⟨back, hback, -, -⟩ := Blank.exists_of_trimEndWhile Blank.isBlank
    (r.version.toList ++ ' ' :: Numeral.digits r.status ++ ' ' :: r.reason.toList)
  intro hmem
  have hline : '\n' ∈ r.version.toList ++ ' ' :: Numeral.digits r.status ++ ' ' :: r.reason.toList := by
    rw [hback]
    exact List.mem_append_left back hmem
  simp [h.version, h.reason, lineBreak_not_mem_digits] at hline

theorem IsClean.headerLine (h : r.IsClean) : ∀ l ∈ r.headers.map headerLine, '\n' ∉ l := by
  intro l hl
  obtain ⟨header, hmem, rfl⟩ := List.mem_map.1 hl
  simp [Response.headerLine, (h.names header hmem).1, h.values header hmem]

/-- The lines of a response's text: the status line, those of the headers, an empty one, and those of the body. -/
theorem IsClean.splitOn_renderChars (h : r.IsClean) : r.renderChars.splitOn '\n' =
    (r.statusLine :: r.headers.map Response.headerLine) ++ [] :: (Utf8.lossyChars r.body).splitOn '\n' := by
  have hlines : ∀ l ∈ (r.statusLine :: r.headers.map Response.headerLine) ++ [[]], '\n' ∉ l :=
    List.forall_mem_append.2 ⟨List.forall_mem_cons.2 ⟨h.statusLine, h.headerLine⟩, by simp⟩
  have hsplit := Pieces.splitOn_flatMap hlines (Utf8.lossyChars r.body)
  rw [List.append_assoc, List.singleton_append] at hsplit
  rw [← hsplit]
  simp [renderChars, List.flatMap_map]

/-- **A response is taken apart into what it was printed from.** -/
theorem IsClean.takeApart?_renderChars (h : r.IsClean) : Rendering.takeApart? r.renderChars =
    some ⟨r.statusLine, r.headers, Utf8.lossyChars r.body⟩ := by
  have hfull : ∀ l ∈ r.statusLine :: r.headers.map Response.headerLine, (!l.isEmpty) = true :=
    List.forall_mem_cons.2 ⟨by simp [r.statusLine_ne_nil], fun l hl => by
      obtain ⟨header, -, rfl⟩ := List.mem_map.1 hl
      simp [Response.headerLine]⟩
  have htake : (r.renderChars.splitOn '\n').takeWhile (!·.isEmpty) =
      r.statusLine :: r.headers.map Response.headerLine := by
    rw [h.splitOn_renderChars, List.takeWhile_append_of_pos hfull]
    simp
  have hdrop : (r.renderChars.splitOn '\n').dropWhile (!·.isEmpty) = [] :: (Utf8.lossyChars r.body).splitOn '\n' := by
    rw [h.splitOn_renderChars, List.dropWhile_append_of_pos hfull]
    rfl
  have hheaders : (r.headers.map Response.headerLine).mapM Rendering.header? = some r.headers :=
    Pieces.mapM_map_eq_some_iff.2 fun header hmem => Rendering.header?_headerLine (h.names header hmem).2
  simp only [Rendering.takeApart?, htake, hdrop, hheaders, List.intercalate_splitOn, Option.map_some]

/-- **The text of a response can be taken apart again.**  It comes apart into the status line without the blanks at its end, the
headers in their order and the text of the body, so that two responses have one text just if they agree in these. -/
theorem render_taken_apart (h : r.IsClean) :
    Rendering.takeApart? r.render.toList = some
      { statusLine := Blank.trimEnd (r.version.toList ++ ' ' :: Numeral.digits r.status ++ ' ' :: r.reason.toList)
        headers := r.headers
        body := Utf8.lossyChars r.body } ∧
      ∀ r' : Response, r'.IsClean → (r.render = r'.render ↔
        r.statusLine = r'.statusLine ∧ r.headers = r'.headers ∧ Utf8.lossy r.body = Utf8.lossy r'.body) := by
  have hparts : ∀ {r : Response}, r.IsClean →
      Rendering.takeApart? r.render.toList = some ⟨r.statusLine, r.headers, Utf8.lossyChars r.body⟩ := fun h => by
    rw [render, String.toList_ofList, h.takeApart?_renderChars]
  refine ⟨hparts h, fun r' h' => ⟨fun heq => ?_, ?_⟩⟩
  · have hsame := (hparts h).symm.trans (heq ▸ hparts h')
    obtain ⟨hline, hheaders, hbody⟩ := Rendering.mk.inj (Option.some.inj hsame)
    exact ⟨hline, hheaders, congrArg String.ofList hbody⟩
  · rintro ⟨hline, hheaders, hbody⟩
    rw [render, render, renderChars, renderChars, hline, hheaders, String.ofList_inj.1 hbody]

/-- A status without a reason, a name twice, an empty value at the end of the headers, and a body that begins with an empty
line and goes on like a head; its last byte is no text, so that another one in its stead makes no difference. -/
theorem render_taken_apart_awkward :
    let r (last : UInt8) : Response :=
      { version := "HTTP/1.1", status := 299, reason := "", headers := [("a", "b: c"), ("a", ""), ("z", "")]
        body := Utf8.bytes "\n\nz: y\n\n" ++ [last] }
    (r 0xFF).IsClean ∧ (r 0xFE).IsClean ∧
      Rendering.takeApart? (r 0xFF).render.toList = some
        { statusLine := "HTTP/1.1 299".toList
          headers := [("a", "b: c"), ("a", ""), ("z", "")]
          body := "\n\nz: y\n\n\uFFFD".toList } ∧
      (r 0xFF).render = (r 0xFE).render := by
  intro r
  have hclean : (r 0xFF).IsClean := ⟨by decide, by decide, by decide, by decide⟩
  have hclean' : (r 0xFE).IsClean := ⟨hclean.version, hclean.reason, hclean.names, hclean.values⟩
  have hline : Blank.trimEnd ("HTTP/1.1".toList ++ ' ' :: Numeral.digits 299 ++ ' ' :: "".toList) = "HTTP/1.1 299".toList := by
    decide +kernel
  have hbody : Utf8.lossyChars (r 0xFF).body = "\n\nz: y\n\n\uFFFD".toList := by decide +kernel
  have hsame : Utf8.lossy (r 0xFF).body = Utf8.lossy (r 0xFE).body := by decide +kernel
  refine ⟨hclean, hclean', ?_, ((render_taken_apart hclean).2 _ hclean').2 ⟨rfl, rfl, hsame⟩⟩
  rw [← hline, ← hbody]
  exact (render_taken_apart hclean).1

end Response
end Http
end SearchTelemetry
