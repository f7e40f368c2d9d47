import SearchTelemetry.Instant.Basic
/-!
# Instant.HttpDate — the date that a response carries

A response says when it was made: day of the week, day, month, year and time of day, the names in English and the zone
always GMT.  Parts of a second are left out.
-/
namespace SearchTelemetry
namespace Instant

/-- The days of the week as responses name them, from Monday on. -/
def weekdayMarks : List String := ["Mon", "Tue", "Wed", "Thu", "Fri", "Sat", "Sun"]

/-- The months as responses name them. -/
def monthMarks : List String :=
  ["Jan", "Feb", "Mar", "Apr", "May", "Jun", "Jul", "Aug", "Sep", "Oct", "Nov", "Dec"]

/-- The instant as the date of a response. -/
def httpDate (t : Instant) : String :=
  let c := t.toCivil
  let two (n : Int) : String := String.ofList (Numeral.padded 2 n.toNat)
  weekdayMarks.getD (weekdayOfDays (t.seconds / 86400)).toNat "" ++ ", " ++ two c.day ++ " "
    ++ monthMarks.getD (c.month.toNat - 1) "" ++ " " ++ String.ofList (yearChars c.year) ++ " " ++ two c.hour ++ ":"
    ++ two c.minute ++ ":" ++ two c.second ++ " GMT"

end Instant
end SearchTelemetry
