/-!
# Moments

The time of the clock, as the history writes it.
-/

namespace Flotilla

/-- A moment in local time. -/
structure Moment where
  /-- Year, month and day with dashes between them. -/
  date : String
  /-- Hours, minutes and seconds with colons between them. -/
  time : String
  /-- What follows the seconds: a fraction if there is one, and the offset of the time zone. -/
  suffix : String := "+00:00"
  deriving Repr, DecidableEq

namespace Moment

/-- The form in the command log. -/
def short (m : Moment) : String := m.date ++ " " ++ m.time

/-- The form in exported records. -/
def full (m : Moment) : String := m.date ++ "T" ++ m.time ++ m.suffix

end Moment

end Flotilla
