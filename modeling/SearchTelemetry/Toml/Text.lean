import SearchTelemetry.Text.Numeral
import SearchTelemetry.Toml.Line
/-!
# Toml.Text — strings between quotes

A string has one of four spellings.  Between double quotes a backslash begins an escape; between single quotes every
character stands for itself.  Between three quotes of either kind the text may run over several lines: a line break right
behind the opening quotes is dropped, every other one is a line feed, and one or two quotes may stand anywhere, also at
the very end in front of the closing three.

A reader takes the text behind the opening quotes and returns what follows the closing ones.
-/
namespace SearchTelemetry
namespace Toml

/-! ## Escapes -/

/-- What one letter behind a backslash stands for. -/
def ofEscape? (c : Char) : Option Char :=
  if c = 'b' then some '\x08'
  else if c = 't' then some '\t'
  else if c = 'n' then some '\n'
  else if c = 'f' then some '\x0c'
  else if c = 'r' then some '\r'
  else if c = '"' then some '"'
  else if c = '\\' then some '\\'
  else none

/-- How many hexadecimal digits follow an escape letter that takes a code point. -/
def codePointDigits? (c : Char) : Option Nat :=
  if c = 'u' then some 4 else if c = 'U' then some 8 else none

/-- The character with a given code point. -/
def ofCodePoint? (n : Nat) : Option Char :=
  if n.isValidChar then some (Char.ofNat n) else none

/-- The character whose code point stands in `count` hexadecimal digits at the front. -/
def codePoint? (count : Nat) (cs : List Char) : Option Char :=
  let ds := cs.take count
  if ds.length = count then (Numeral.hexDigits? ds).bind ofCodePoint? else none

/-! ## On one line -/

/-- A character that stands for itself between double quotes. -/
def isPlain (c : Char) : Bool :=
  isLineChar c && c ≠ '"' && c ≠ '\\'

/-- The text up to the closing double quote. -/
def basic? : List Char → Option (List Char × List Char)
  | [] => none
  | '"' :: rest => some ([], rest)
  | '\\' :: c :: rest =>
    match ofEscape? c with
    | some e => (basic? rest).map fun (t, rest) => (e :: t, rest)
    | none =>
      (codePointDigits? c).bind fun count =>
        (codePoint? count rest).bind fun e =>
          (basic? (rest.drop count)).map fun (t, rest) => (e :: t, rest)
  | c :: rest =>
    if isPlain c then (basic? rest).map fun (t, rest) => (c :: t, rest) else none
termination_by cs => cs.length
decreasing_by all_goals simp only [List.length_cons, List.length_drop]; omega

/-- The text up to the closing single quote. -/
def literal? : List Char → Option (List Char × List Char)
  | [] => none
  | c :: rest =>
    if c = '\'' then some ([], rest)
    else if isLineChar c then (literal? rest).map fun (t, rest) => (c :: t, rest)
    else none

/-! ## Over several lines -/

/-- Where a text over several lines ends: three quotes, and in front of them up to two that still belong to the text. -/
def closing? (quote : Char) (cs : List Char) : Option (List Char × List Char) :=
  let run := (cs.takeWhile (· = quote)).length
  if run < 3 then none else some (List.replicate (min (run - 3) 2) quote, cs.drop (min run 5))

/-- What stands behind the spaces and line breaks at the front. -/
def skipBreaks (cs : List Char) : List Char :=
  match _ : behindNewline? (skipSpaces cs) with
  | some rest => skipBreaks rest
  | none => skipSpaces cs
termination_by cs.length
decreasing_by
  have h₁ := length_behindNewline? ‹_›
  have h₂ := length_dropWhile_le isSpace cs
  unfold skipSpaces at h₁
  omega

theorem length_skipBreaks_le (cs : List Char) : (skipBreaks cs).length ≤ cs.length := by
  fun_induction skipBreaks cs with
  | case1 cs rest h ih =>
    have h₁ := length_behindNewline? h
    have h₂ := length_dropWhile_le isSpace cs
    unfold skipSpaces at h₁
    omega
  | case2 cs _ => exact length_dropWhile_le isSpace cs

/-- What a backslash at the end of a line leaves out: the line break and all spaces and line breaks behind it. -/
def behindContinuation? (cs : List Char) : Option (List Char) :=
  (behindNewline? (skipSpaces cs)).map skipBreaks

theorem length_behindContinuation? {cs rest : List Char} (h : behindContinuation? cs = some rest) :
    rest.length < cs.length := by
  unfold behindContinuation? at h
  obtain ⟨r, hr, rfl⟩ := Option.map_eq_some_iff.1 h
  have h₁ := length_behindNewline? hr
  have h₂ := length_dropWhile_le isSpace cs
  have h₃ := length_skipBreaks_le r
  unfold skipSpaces at h₁
  omega

/-- The text up to three closing double quotes. -/
def basicLines? (cs : List Char) : Option (List Char × List Char) :=
  match closing? '"' cs with
  | some found => some found
  | none =>
    match cs with
    | [] => none
    | '\\' :: rest =>
      match _ : behindContinuation? rest with
      | some rest => basicLines? rest
      | none =>
        match rest with
        | [] => none
        | c :: rest =>
          match ofEscape? c with
          | some e => (basicLines? rest).map fun (t, rest) => (e :: t, rest)
          | none =>
            (codePointDigits? c).bind fun count =>
              (codePoint? count rest).bind fun e =>
                (basicLines? (rest.drop count)).map fun (t, rest) => (e :: t, rest)
    | '\r' :: '\n' :: rest => (basicLines? rest).map fun (t, rest) => ('\n' :: t, rest)
    | c :: rest =>
      if c = '\n' || isLineChar c then (basicLines? rest).map fun (t, rest) => (c :: t, rest) else none
termination_by cs.length
decreasing_by
  · have := length_behindContinuation? ‹_›
    simp only [List.length_cons]
    omega
  all_goals simp only [List.length_cons, List.length_drop]; omega

/-- The text up to three closing single quotes. -/
def literalLines? (cs : List Char) : Option (List Char × List Char) :=
  match closing? '\'' cs with
  | some found => some found
  | none =>
    match cs with
    | [] => none
    | '\r' :: '\n' :: rest => (literalLines? rest).map fun (t, rest) => ('\n' :: t, rest)
    | c :: rest =>
      if c = '\n' || isLineChar c then (literalLines? rest).map fun (t, rest) => (c :: t, rest) else none

/-! ## All spellings -/

/-- What stands behind a line break at the front, if there is one. -/
def dropNewline (cs : List Char) : List Char :=
  (behindNewline? cs).getD cs

/-- A string on one line at the front of a text, with its quotes. -/
def takeLineString? : List Char → Option (String × List Char)
  | '"' :: cs => (basic? cs).map fun (t, rest) => (String.ofList t, rest)
  | '\'' :: cs => (literal? cs).map fun (t, rest) => (String.ofList t, rest)
  | _ => none

/-- A string of any spelling at the front of a text, with its quotes. -/
def takeString? : List Char → Option (String × List Char)
  | '"' :: '"' :: '"' :: cs => (basicLines? (dropNewline cs)).map fun (t, rest) => (String.ofList t, rest)
  | '\'' :: '\'' :: '\'' :: cs => (literalLines? (dropNewline cs)).map fun (t, rest) => (String.ofList t, rest)
  | cs => takeLineString? cs

end Toml
end SearchTelemetry
