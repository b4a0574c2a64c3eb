/-!
# Durations

A duration is a whole number of nanoseconds, of fewer than 2 ^ 64 seconds.
People write it in units from nanoseconds to years (`Duration.Parser`,
`Duration.Printer`). A year has 365.25 days and a month 30.44 days, so neither
is a whole number of days.
-/

namespace SecureInbox

/-- A span of time. -/
structure Duration where
  nanoseconds : Nat
  lt_limit : nanoseconds < 18446744073709551616 * 1000000000
  deriving DecidableEq

namespace Duration

/-- No time at all. -/
def zero : Duration := ⟨0, by decide⟩

/-- Ten minutes. -/
def tenMinutes : Duration := ⟨600 * 1000000000, by decide⟩

/-- The duration of so many nanoseconds, unless it is out of range. -/
def ofNanoseconds? (n : Nat) : Option Duration :=
  if h : n < 18446744073709551616 * 1000000000 then some ⟨n, h⟩ else none

/-- The whole seconds of a duration. -/
def seconds (d : Duration) : Nat := d.nanoseconds / 1000000000

/-- The nanoseconds beyond the whole seconds. -/
def subseconds (d : Duration) : Nat := d.nanoseconds % 1000000000

theorem seconds_lt (d : Duration) : d.seconds < 18446744073709551616 :=
  Nat.div_lt_of_lt_mul (Nat.mul_comm _ _ ▸ d.lt_limit)

theorem subseconds_lt (d : Duration) : d.subseconds < 1000000000 :=
  Nat.mod_lt _ (by decide)

/-- The units a duration is written in. -/
inductive TimeUnit
  | nanosecond
  | microsecond
  | millisecond
  | second
  | minute
  | hour
  | day
  | week
  | month
  | year
  deriving DecidableEq, Repr

/-- The length of a unit: a number of seconds, or a number of nanoseconds for
    the units below a second. -/
inductive Scale
  | seconds (n : Nat)
  | nanoseconds (n : Nat)
  deriving DecidableEq, Repr

namespace TimeUnit

/-- The length of a unit. -/
def scale : TimeUnit → Scale
  | .nanosecond => .nanoseconds 1
  | .microsecond => .nanoseconds 1000
  | .millisecond => .nanoseconds 1000000
  | .second => .seconds 1
  | .minute => .seconds 60
  | .hour => .seconds 3600
  | .day => .seconds 86400
  | .week => .seconds 604800
  | .month => .seconds 2630016
  | .year => .seconds 31557600

/-- The names of the units. -/
def names : List (TimeUnit × List String) :=
  [(.nanosecond, ["nanos", "nsec", "ns"]), (.microsecond, ["usec", "us", "µs"]),
    (.millisecond, ["millis", "msec", "ms"]),
    (.second, ["seconds", "second", "secs", "sec", "s"]),
    (.minute, ["minutes", "minute", "mins", "min", "m"]),
    (.hour, ["hours", "hour", "hrs", "hr", "h"]), (.day, ["days", "day", "d"]),
    (.week, ["weeks", "week", "wks", "wk", "w"]), (.month, ["months", "month", "M"]),
    (.year, ["years", "year", "yrs", "yr", "y"])]

/-- The unit a name stands for. -/
def ofName? (name : List Char) : Option TimeUnit :=
  (names.find? fun entry => entry.2.any fun s => s.toList == name).map (·.1)

end TimeUnit

end Duration

end SecureInbox
