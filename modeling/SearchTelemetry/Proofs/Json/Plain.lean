import SearchTelemetry.Json.Printer
import SearchTelemetry.Proofs.Text.Numeral
import SearchTelemetry.Proofs.Text.Utf8
/-!
# Json.Plain — a value is written on one line

No character below U+0020 stands in the text of a value, whatever strings and numbers are in it, and so no such byte in
its bytes (`le_of_mem_bytes`): above all no line feed.
-/
namespace SearchTelemetry

/-- Text without controls. -/
def Plain (cs : List Char) : Prop :=
  ∀ c ∈ cs, 0x20 ≤ c.toNat

namespace Plain

theorem nil : Plain [] :=
  fun _ h => by cases h

theorem cons {c : Char} {cs : List Char} (hc : 0x20 ≤ c.toNat) (h : Plain cs) : Plain (c :: cs) :=
  List.forall_mem_cons.2 ⟨hc, h⟩

theorem append {as bs : List Char} (ha : Plain as) (hb : Plain bs) : Plain (as ++ bs) :=
  List.forall_mem_append.2 ⟨ha, hb⟩

theorem of_isDigit {cs : List Char} (h : ∀ c ∈ cs, Numeral.isDigit c = true) : Plain cs := fun c hc => by
  have := Numeral.le_of_isDigit (h c hc)
  omega

theorem digits (n : Nat) : Plain (Numeral.digits n) :=
  of_isDigit fun _ h => Numeral.isDigit_of_mem_digits h

theorem intDigits (i : Int) : Plain (Numeral.intDigits i) := by
  unfold Numeral.intDigits
  split
  · exact cons (by decide) (digits _)
  · exact digits _

theorem replicate_zero (n : Nat) : Plain (List.replicate n '0') := fun c hc => by
  rw [(List.mem_replicate.1 hc).2]
  decide

theorem take {cs : List Char} (h : Plain cs) (n : Nat) : Plain (cs.take n) :=
  fun c hc => h c (List.mem_of_mem_take hc)

theorem drop {cs : List Char} (h : Plain cs) (n : Nat) : Plain (cs.drop n) :=
  fun c hc => h c (List.mem_of_mem_drop hc)

theorem exponentChars (e : Int) : Plain (Binary64.exponentChars e) :=
  cons (by decide) (cons (by split <;> decide) (digits _))

theorem magnitudeChars (layout : Binary64.Layout) (x : Binary64) : Plain (Binary64.magnitudeChars layout x) := by
  unfold Binary64.magnitudeChars
  split
  · exact cons (by decide) (cons (by decide) (cons (by decide) nil))
  · split
    rename_i d k _
    have hd := digits d
    dsimp only
    split
    · exact append (append hd (replicate_zero _)) (cons (by decide) (cons (by decide) nil))
    split
    · exact append (hd.take _) (cons (by decide) (hd.drop _))
    split
    · exact cons (by decide) (cons (by decide) (append (replicate_zero _) hd))
    split
    · exact append hd (exponentChars _)
    · exact append (append (hd.take _) (cons (by decide) (hd.drop _))) (exponentChars _)

theorem double (layout : Binary64.Layout) (x : Binary64) : Plain (x.chars layout) := by
  unfold Binary64.chars
  split
  · exact cons (by decide) (magnitudeChars layout x)
  · exact magnitudeChars layout x

end Plain

namespace Json

theorem le_hexDigit {n : Nat} (h : n < 16) : 0x20 ≤ (Numeral.hexDigit n).toNat := by
  revert n
  decide

theorem plain_escapeChar (c : Char) : Plain (escapeChar c) := by
  unfold escapeChar
  split
  · exact .cons (by decide) (.cons (by decide) .nil)
  split
  · exact .cons (by decide) (.cons (by decide) .nil)
  split
  · rename_i h
    exact .cons h .nil
  · rename_i h
    repeat' split
    all_goals try exact .cons (by decide) (.cons (by decide) .nil)
    exact .cons (by decide) (.cons (by decide) (.cons (by decide) (.cons (by decide)
      (.cons (le_hexDigit (by omega)) (.cons (le_hexDigit (by omega)) .nil)))))

theorem plain_stringChars (s : String) : Plain (stringChars s) := by
  refine .cons (by decide) (.append (fun c hc => ?_) (.cons (by decide) .nil))
  obtain ⟨d, -, hd⟩ := List.mem_flatMap.1 hc
  exact plain_escapeChar d c hd

theorem plain_numberChars : ∀ n : Number, Plain n.chars
  | .integer i => .intDigits i
  | .double x => .double doubleLayout x

mutual

theorem plain_chars : ∀ v : Value, Plain v.chars
  | .null => .cons (by decide) (.cons (by decide) (.cons (by decide) (.cons (by decide) .nil)))
  | .bool true => .cons (by decide) (.cons (by decide) (.cons (by decide) (.cons (by decide) .nil)))
  | .bool false =>
    .cons (by decide) (.cons (by decide) (.cons (by decide) (.cons (by decide) (.cons (by decide) .nil))))
  | .number n => plain_numberChars n
  | .string s => plain_stringChars s
  | .array [] => .cons (by decide) (.cons (by decide) .nil)
  | .array (v :: vs) => .append (.cons (by decide) (plain_chars v)) (plain_itemsChars vs)
  | .object [] => .cons (by decide) (.cons (by decide) .nil)
  | .object ((k, v) :: fs) =>
    .append (.append (.cons (by decide) (plain_stringChars k)) (.cons (by decide) (plain_chars v))) (plain_fieldsChars fs)

theorem plain_itemsChars : ∀ vs : List Value, Plain (itemsChars vs)
  | [] => .cons (by decide) .nil
  | v :: vs => .append (.cons (by decide) (plain_chars v)) (plain_itemsChars vs)

theorem plain_fieldsChars : ∀ fs : List (String × Value), Plain (fieldsChars fs)
  | [] => .cons (by decide) .nil
  | (k, v) :: fs =>
    .append (.append (.cons (by decide) (plain_stringChars k)) (.cons (by decide) (plain_chars v))) (plain_fieldsChars fs)

end

/-- **A value is written on one line**: no byte of it is a control. -/
theorem le_of_mem_bytes {v : Value} {b : UInt8} (hb : b ∈ v.bytes) : 0x20 ≤ b.toNat :=
  Utf8.le_of_mem_encode (plain_chars v) hb

theorem lineFeed_not_mem_bytes (v : Value) : 0x0A ∉ v.bytes := fun h =>
  absurd (le_of_mem_bytes h) (by decide)

end Json
end SearchTelemetry
